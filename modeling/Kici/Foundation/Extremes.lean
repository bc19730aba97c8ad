import Kici.Foundation.Table
import Mathlib.Data.List.MinMax

/-!
# The smallest and the greatest

The first of the smallest elements of a list (`smallest_eq_some_iff`), and the greatest row of each
key (`Table.lookup_keepGreatest`).
-/

namespace Kici

open List

/-!
## The first of the smallest

A scan of a list for the smallest of the elements that pass a test, which keeps what it has found
unless another one is smaller (`smallest`), finds the first of the smallest
(`smallest_eq_some_iff`), and nothing if and only if no element passes (`smallest_eq_none_iff`).
Where all are alike, that is the first one (`smallest_const`).
-/

section

variable {α β : Type*} [LinearOrder β] (test : α → Bool) (size : α → β)

/-- What a scan keeps at an element. -/
def keepSmaller (best : Option α) (a : α) : Option α :=
  if !test a then best
  else
    match best with
    | none => some a
    | some b => if size a < size b then some a else some b

/-- The element that a scan of the list ends with. -/
def smallest (l : List α) : Option α := l.foldl (keepSmaller test size) none

/-- The element passes the test, and is the first of the smallest of the list that do. -/
def FirstSmallest (l : List α) (a : α) : Prop :=
  test a = true ∧ ∃ before after, l = before ++ a :: after ∧
    (∀ b ∈ before, test b = true → size a < size b) ∧ ∀ b ∈ after, test b = true → size a ≤ size b

variable {test size} {l : List α} {a b : α}

theorem FirstSmallest.le (h : FirstSmallest test size l a) (hb : b ∈ l) (htest : test b) :
    size a ≤ size b := by
  obtain ⟨-, before, after, rfl, hbefore, hafter⟩ := h
  rcases mem_append.1 hb with hmem | hmem
  · exact (hbefore b hmem htest).le
  · rcases mem_cons.1 hmem with rfl | hmem
    · exact le_rfl
    · exact hafter b hmem htest

/-- There is one first of the smallest. -/
theorem FirstSmallest.unique (ha : FirstSmallest test size l a) (hb : FirstSmallest test size l b) :
    a = b := by
  obtain ⟨htesta, before, after, rfl, hbefore, hafter⟩ := ha
  obtain ⟨htestb, before', after', heq, hbefore', hafter'⟩ := hb
  rcases append_eq_append_iff.1 heq with ⟨rest, rfl, hrest⟩ | ⟨rest, rfl, hrest⟩
  · cases rest with
    | nil => exact (cons.inj hrest).1
    | cons c rest =>
      -- The one comes before the other, and so is smaller.
      obtain ⟨rfl, rfl⟩ := cons.inj hrest
      have hlt := hbefore' a (mem_append_right _ mem_cons_self) htesta
      exact absurd (hafter b (mem_append_right _ mem_cons_self) htestb) (not_le_of_gt hlt)
  · cases rest with
    | nil => exact (cons.inj hrest).1.symm
    | cons c rest =>
      obtain ⟨rfl, rfl⟩ := cons.inj hrest
      have hlt := hbefore b (mem_append_right _ mem_cons_self) htestb
      exact absurd (hafter' a (mem_append_right _ mem_cons_self) htesta) (not_le_of_gt hlt)

theorem smallest_append (l : List α) (a : α) :
    smallest test size (l ++ [a]) = keepSmaller test size (smallest test size l) a := by
  rw [smallest, foldl_append]
  rfl

theorem keepSmaller_of_false (h : test a = false) (best : Option α) :
    keepSmaller test size best a = best := by
  simp [keepSmaller, h]

theorem keepSmaller_none (h : test a) : keepSmaller test size none a = some a := by
  simp [keepSmaller, h]

theorem keepSmaller_some (h : test a) :
    keepSmaller test size (some b) a = if size a < size b then some a else some b := by
  simp [keepSmaller, h]

/-- What does not pass the test may follow. -/
theorem FirstSmallest.append_of_le (h : FirstSmallest test size l a) (hle : test b → size a ≤ size b) :
    FirstSmallest test size (l ++ [b]) a := by
  obtain ⟨htest, before, after, rfl, hbefore, hafter⟩ := h
  refine ⟨htest, before, after ++ [b], by simp, hbefore, fun c hc hpass => ?_⟩
  rcases mem_append.1 hc with hmem | hmem
  · exact hafter c hmem hpass
  · obtain rfl := mem_singleton.1 hmem
    exact hle hpass

/-- One that is smaller than all before it is the first of the smallest. -/
theorem FirstSmallest.last (htest : test a) (h : ∀ b ∈ l, test b → size a < size b) :
    FirstSmallest test size (l ++ [a]) a :=
  ⟨htest, l, [], rfl, h, nofun⟩

/-- What a scan ends with. -/
theorem smallest_spec (l : List α) :
    (smallest test size l = none → ∀ b ∈ l, test b = false) ∧
      ∀ a, smallest test size l = some a → FirstSmallest test size l a := by
  induction l using reverseRecOn with
  | nil => exact ⟨nofun, fun a h => absurd h (by simp [smallest])⟩
  | append_singleton l c ih =>
    obtain ⟨hnone, hsome⟩ := ih
    rw [smallest_append]
    cases hc : test c with
    | false =>
      rw [keepSmaller_of_false hc]
      refine ⟨fun h b hb => ?_, fun a h => ?_⟩
      · rcases mem_append.1 hb with hmem | hmem
        · exact hnone h b hmem
        · exact mem_singleton.1 hmem ▸ hc
      · exact (hsome a h).append_of_le fun hpass => absurd hpass (by simp [hc])
    | true =>
      cases hbest : smallest test size l with
      | none =>
        rw [keepSmaller_none hc]
        refine ⟨fun h => absurd h (by simp), fun a h => ?_⟩
        cases h
        exact .last hc fun b hb hpass => absurd hpass (by simp [hnone hbest b hb])
      | some d =>
        have hd := hsome d hbest
        rw [keepSmaller_some hc]
        refine ⟨fun h => absurd h (by split <;> simp), fun a h => ?_⟩
        split at h
        · rename_i hlt
          cases h
          -- It is smaller than the smallest so far.
          exact .last hc fun b hb hpass => lt_of_lt_of_le hlt (hd.le hb hpass)
        · rename_i hlt
          cases h
          exact hd.append_of_le fun _ => not_lt.1 hlt

theorem FirstSmallest.mem (h : FirstSmallest test size l a) : a ∈ l := by
  obtain ⟨-, before, after, rfl, -, -⟩ := h
  simp

theorem smallest_eq_none_iff : smallest test size l = none ↔ ∀ b ∈ l, test b = false := by
  refine ⟨(smallest_spec l).1, fun h => ?_⟩
  cases hbest : smallest test size l with
  | none => rfl
  | some a =>
    have ha := (smallest_spec l).2 a hbest
    exact absurd ha.1 (by simp [h a ha.mem])

theorem smallest_eq_some_iff : smallest test size l = some a ↔ FirstSmallest test size l a := by
  refine ⟨(smallest_spec l).2 a, fun h => ?_⟩
  cases hbest : smallest test size l with
  | none => exact absurd h.1 (by simp [smallest_eq_none_iff.1 hbest a h.mem])
  | some b => rw [((smallest_spec l).2 b hbest).unique h]

/-- Where all are alike, the first of the smallest is the first that passes. -/
theorem smallest_const (c : β) (l : List α) : smallest test (fun _ => c) l = l.find? test := by
  cases hfind : l.find? test with
  | none => exact smallest_eq_none_iff.2 fun b hb => by simpa using find?_eq_none.1 hfind b hb
  | some a =>
    obtain ⟨htest, before, after, rfl, hbefore⟩ := find?_eq_some_iff_append.1 hfind
    refine smallest_eq_some_iff.2 ⟨htest, before, after, rfl, fun b hb hpass => ?_, fun b hb _ => le_rfl⟩
    exact absurd (hbefore b hb) (by simp [hpass])

/-- The first that passes a test is the first that passes a stricter one, if it does. -/
theorem find?_eq_find?_of_imp {p q : α → Bool} (himp : ∀ a, q a → p a) {l : List α}
    (h : ∀ a, l.find? p = some a → q a) : l.find? p = l.find? q := by
  cases hfind : l.find? p with
  | none =>
    refine (find?_eq_none.2 fun a ha hq => ?_).symm
    exact find?_eq_none.1 hfind a ha (himp a hq)
  | some a =>
    obtain ⟨-, before, after, rfl, hbefore⟩ := find?_eq_some_iff_append.1 hfind
    refine (find?_eq_some_iff_append.2 ⟨h a hfind, before, after, rfl, fun b hb => ?_⟩).symm
    cases hq : q b with
    | false => rfl
    | true => exact absurd (hbefore b hb) (by simp [himp b hq])

end

/-!
## The greatest of each key

Rows come one after another, and a table keeps one for each key: a row takes the place of the one of
its key if it is of greater rank (`Table.keepGreater`). In the end the table has, for each key, the
first of the rows of the key that are of the greatest rank (`Table.lookup_keepGreatest`).

Of rows in another order it has rows of the same ranks (`rank_argmax_of_perm`), and the same ones
where only one is of the greatest rank (`argmax_of_perm`).
-/

section

variable {α β : Type*} [LinearOrder β] {rank : α → β} {l l' : List α} {a : α}

/-- The greatest ranks of a list and of the list in another order are the same. -/
theorem rank_argmax_of_perm (h : l.Perm l') : (l.argmax rank).map rank = (l'.argmax rank).map rank := by
  rcases hmax : l.argmax rank with _ | a
  · rw [argmax_eq_none.1 hmax, nil_perm] at h
    rw [h]
    rfl
  rcases hmax' : l'.argmax rank with _ | b
  · rw [argmax_eq_none.1 hmax', perm_nil] at h
    rw [h] at hmax
    cases hmax
  have hab : rank a ≤ rank b := le_of_mem_argmax (h.subset (argmax_mem hmax)) hmax'
  have hba : rank b ≤ rank a := le_of_mem_argmax (h.symm.subset (argmax_mem hmax')) hmax
  exact congrArg some (le_antisymm hab hba)

/-- What all elements of the greatest rank have in common, the one found in another order has. -/
theorem argmax_of_perm {γ : Type*} {f : α → γ} (h : l.Perm l') (hmax : l.argmax rank = some a)
    (hsame : ∀ b ∈ l, rank b = rank a → f b = f a) : (l'.argmax rank).map f = some (f a) := by
  have hrank : (l.argmax rank).map rank = (l'.argmax rank).map rank := rank_argmax_of_perm h
  rcases hmax' : l'.argmax rank with _ | b
  · rw [hmax, hmax'] at hrank
    cases hrank
  · rw [hmax, hmax'] at hrank
    have hb : b ∈ l := h.symm.subset (argmax_mem hmax')
    exact congrArg some (hsame b hb (Option.some.inj hrank).symm)

namespace Table

variable {ρ κ : Type*} [DecidableEq κ] {key : ρ → κ} (rank : ρ → β)

/-- Put a row, unless there is one of its key that is of no lesser rank. -/
def keepGreater (t : Table key) (r : ρ) : Table key :=
  match t.lookup (key r) with
  | none => t.put r
  | some old => if rank old < rank r then t.put r else t

/-- The rows that are kept of a list. -/
def keepGreatest (key : ρ → κ) (rows : List ρ) : Table key := rows.foldl (keepGreater rank) (.empty key)

variable {rank} {t : Table key} {r : ρ} {k : κ}

theorem lookup_keepGreater_of_ne (h : key r ≠ k) : (t.keepGreater rank r).lookup k = t.lookup k := by
  unfold keepGreater
  split
  · rw [lookup_put, if_neg (Ne.symm h)]
  · split
    · rw [lookup_put, if_neg (Ne.symm h)]
    · rfl

theorem lookup_keepGreater_self : (t.keepGreater rank r).lookup (key r) =
    match t.lookup (key r) with
    | none => some r
    | some old => if rank old < rank r then some r else some old := by
  unfold keepGreater
  split
  · rw [lookup_put, if_pos rfl]
  · next old hold =>
    split
    · rw [lookup_put, if_pos rfl]
    · exact hold

/-- For each key the first of its rows of the greatest rank is kept. -/
theorem lookup_keepGreatest (rank : ρ → β) (rows : List ρ) (k : κ) :
    (keepGreatest rank key rows).lookup k = (rows.filter fun r => key r = k).argmax rank := by
  induction rows using reverseRecOn with
  | nil => rfl
  | append_singleton rows r ih =>
    rw [keepGreatest, foldl_append, foldl_cons, foldl_nil, filter_append]
    change ((keepGreatest rank key rows).keepGreater rank r).lookup k = _
    by_cases hkey : key r = k
    · subst hkey
      rw [lookup_keepGreater_self, ih, filter_singleton, decide_eq_true rfl, cond_true, argmax_concat]
      rcases (rows.filter fun r' => key r' = key r).argmax rank with _ | old <;> rfl
    · rw [lookup_keepGreater_of_ne hkey, ih, filter_singleton, decide_eq_false hkey,
        cond_false, append_nil]

end Table

end

end Kici
