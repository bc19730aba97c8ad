import Mathlib.Data.List.Nodup
import Mathlib.Data.List.Perm.Subperm

/-!
# Lists

What the models need of lists: that one element is replaced (`eq_take_cons_drop`,
`count_flatMap_replaced`), that a list is taken apart by keys and put together again
(`perm_flatMap_filter`), and that a list has all things of a kind (`AtMost`).
-/

namespace Kici

open List

/-!
## Replacing an element of a list

The calls of a system are a list, and a call that takes a step is replaced by what it goes on as,
if it goes on: `l.take k ++ rest ++ l.drop (k + 1)`.
-/

section

variable {α : Type*} {l rest : List α} {k : ℕ} {a x : α}

/-- What is in the list then was in it, or is new. -/
theorem mem_or_mem_of_replaced (h : x ∈ l.take k ++ rest ++ l.drop (k + 1)) : x ∈ l ∨ x ∈ rest := by
  rw [mem_append, mem_append] at h
  rcases h with (htake | hrest) | hdrop
  · exact .inl (mem_of_mem_take htake)
  · exact .inr hrest
  · exact .inl (mem_of_mem_drop hdrop)

/-- The list is what comes before an element, the element, and what comes after it. -/
theorem eq_take_cons_drop (ha : l[k]? = some a) : l = l.take k ++ a :: l.drop (k + 1) := by
  obtain ⟨hk, rfl⟩ := List.getElem?_eq_some_iff.1 ha
  rw [getElem_cons_drop, take_append_drop]

/-- What was in the list is in it then, but for the element that is replaced. -/
theorem eq_or_mem_replaced (ha : l[k]? = some a) (h : x ∈ l) :
    x = a ∨ x ∈ l.take k ++ rest ++ l.drop (k + 1) := by
  rw [eq_take_cons_drop ha, mem_append, mem_cons] at h
  rcases h with htake | rfl | hdrop
  · exact .inr (mem_append_left _ (mem_append_left _ htake))
  · exact .inl rfl
  · exact .inr (mem_append_right _ hdrop)

/-- What is at a place of a list one place of which was modified. -/
theorem eq_of_getElem?_modify {f : α → α} {i : ℕ} (h : (l.modify k f)[i]? = some x) :
    ∃ a, l[i]? = some a ∧ x = if k = i then f a else a := by
  rw [getElem?_modify, Option.map_eq_map] at h
  obtain ⟨a, ha, heq⟩ := Option.map_eq_some_iff.1 h
  exact ⟨a, ha, heq.symm⟩

/-- What is in a list one place of which was modified was in it, or is what that place became. -/
theorem mem_modify {f : α → α} (h : x ∈ l.modify k f) : x ∈ l ∨ ∃ a ∈ l, x = f a := by
  obtain ⟨i, hi⟩ := getElem?_of_mem h
  obtain ⟨a, ha, rfl⟩ := eq_of_getElem?_modify hi
  split
  · exact .inr ⟨a, mem_of_getElem? ha, rfl⟩
  · exact .inl (mem_of_getElem? ha)

theorem length_replaced (ha : l[k]? = some a) :
    (l.take k ++ rest ++ l.drop (k + 1)).length = l.length - 1 + rest.length := by
  have hlength := congrArg length (eq_take_cons_drop ha)
  rw [length_append, length_cons] at hlength
  rw [length_append, length_append]
  omega

variable {β : Type*}

/-- Replacing an element takes its contribution to a sum away, and adds that of what it goes on as. -/
theorem count_flatMap_replaced [DecidableEq β] (f : α → List β) (rest : List α)
    (ha : l[k]? = some a) (b : β) :
    ((l.take k ++ rest ++ l.drop (k + 1)).flatMap f).count b + (f a).count b =
      (l.flatMap f).count b + (rest.flatMap f).count b := by
  have hcount := congrArg (fun l => (l.flatMap f).count b) (eq_take_cons_drop ha)
  simp only [flatMap_append, flatMap_cons, count_append] at hcount ⊢
  omega

theorem count_flatMap_set [DecidableEq β] (f : α → List β) (ha : l[k]? = some a) (a' : α) (b : β) :
    ((l.set k a').flatMap f).count b + (f a).count b = (l.flatMap f).count b + (f a').count b := by
  obtain ⟨hk, -⟩ := List.getElem?_eq_some_iff.1 ha
  have hset : l.set k a' = l.take k ++ [a'] ++ l.drop (k + 1) := by
    rw [set_eq_take_append_cons_drop, if_pos hk, append_assoc]
    rfl
  rw [hset, count_flatMap_replaced f [a'] ha, flatMap_singleton]

theorem countP_replaced (p : α → Bool) (rest : List α) (ha : l[k]? = some a) :
    (l.take k ++ rest ++ l.drop (k + 1)).countP p + (p a).toNat = l.countP p + rest.countP p := by
  have hcount := congrArg (countP p) (eq_take_cons_drop ha)
  have hone : (p a).toNat = if p a then 1 else 0 := by cases p a <;> rfl
  simp only [countP_append, countP_cons] at hcount ⊢
  omega

end

/-!
## Groups of a list

A list is taken apart by a key of its items, and the groups are put together again in the order of
the keys. Where the keys are distinct and none is left out, no item is lost and none is doubled
(`perm_flatMap_filter`).
-/

section

variable {α β κ : Type*}

/-- What is left when all doubles are erased. -/
theorem nodup_eraseDups [BEq α] [LawfulBEq α] (l : List α) : l.eraseDups.Nodup := by
  cases l with
  | nil => exact nodup_nil
  | cons a l =>
    rw [eraseDups_cons]
    refine nodup_cons.2 ⟨fun hmem => ?_, nodup_eraseDups _⟩
    have hdiffers := (mem_filter.1 (mem_eraseDups.1 hmem)).2
    rw [beq_self_eq_true] at hdiffers
    cases hdiffers
termination_by l.length
decreasing_by exact Nat.lt_succ_of_le (length_filter_le _ _)

/-- The groups of some keys are together what has one of them. -/
theorem perm_flatMap_filter_mem [DecidableEq κ] (key : α → κ) (l : List α) {keys : List κ}
    (hkeys : keys.Nodup) :
    (keys.flatMap fun k => l.filter (key · = k)).Perm (l.filter (key · ∈ keys)) := by
  induction keys with
  | nil =>
    rw [flatMap_nil, filter_eq_nil_iff.2 fun a _ h => not_mem_nil (of_decide_eq_true h)]
  | cons k keys ih =>
    obtain ⟨hnew, hkeys⟩ := nodup_cons.1 hkeys
    have hfirst : (l.filter (key · ∈ k :: keys)).filter (key · = k) = l.filter (key · = k) := by
      rw [filter_filter]
      refine filter_congr fun a _ => ?_
      by_cases heq : key a = k
      · rw [decide_eq_true heq, decide_eq_true (heq ▸ mem_cons_self), Bool.true_and]
      · rw [decide_eq_false heq, Bool.false_and]
    have hothers : (l.filter (key · ∈ k :: keys)).filter (! key · = k) = l.filter (key · ∈ keys) := by
      rw [filter_filter]
      refine filter_congr fun a _ => ?_
      by_cases heq : key a = k
      · have hnot : key a ∉ keys := by
          rw [heq]
          exact hnew
        rw [decide_eq_true heq, decide_eq_false hnot, Bool.not_true, Bool.false_and]
      · rw [decide_eq_false heq, Bool.not_false, Bool.true_and]
        exact decide_eq_decide.2 (mem_cons.trans (or_iff_right heq))
    rw [flatMap_cons]
    refine ((ih hkeys).append_left _).trans ?_
    rw [← hfirst, ← hothers]
    exact filter_append_perm _ _

/-- The groups of distinct keys that leave nothing out are together the list. -/
theorem perm_flatMap_filter [DecidableEq κ] (key : α → κ) {l : List α} {keys : List κ}
    (hkeys : keys.Nodup)
    (hall : ∀ a ∈ l, key a ∈ keys) : (keys.flatMap fun k => l.filter (key · = k)).Perm l := by
  have hsame : l.filter (key · ∈ keys) = l := filter_eq_self.2 fun a ha => decide_eq_true (hall a ha)
  have hperm := perm_flatMap_filter_mem key l hkeys
  rwa [hsame] at hperm

/-- Items that give nothing may be left out. -/
theorem flatMap_filter_of_eq_nil {p : α → Bool} {f : α → List β} {l : List α}
    (h : ∀ a ∈ l, p a = false → f a = []) : (l.filter p).flatMap f = l.flatMap f := by
  induction l with
  | nil => rfl
  | cons a l ih =>
    obtain ⟨hfirst, hrest⟩ := forall_mem_cons.1 h
    cases hp : p a with
    | true => rw [filter_cons_of_pos hp, flatMap_cons, flatMap_cons, ih hrest]
    | false =>
      rw [filter_cons_of_neg (Bool.eq_false_iff.1 hp), flatMap_cons, hfirst hp, nil_append, ih hrest]

end

/-!
## Bounded numbers

A property holds of at most `m` things if a list of `m` of them has all (`AtMost`). Whoever
counts those that it sees before it lets in another one keeps to the bound, if it sees all but
the one it lets in (`AtMost.of_seen`).
-/

section

variable {α : Type*} {P Q : α → Prop} {m : ℕ}

/-- The property holds of at most `m` things. -/
def AtMost (m : ℕ) (P : α → Prop) : Prop := ∃ l : List α, l.length ≤ m ∧ ∀ x, P x → x ∈ l

namespace AtMost

theorem none (h : ∀ x, ¬P x) : AtMost m P := ⟨[], Nat.zero_le _, fun x hx => absurd hx (h x)⟩

theorem of_list {l : List α} (hlength : l.length ≤ m) (h : ∀ x, P x → x ∈ l) : AtMost m P :=
  ⟨l, hlength, h⟩

theorem mono (h : AtMost m P) (hQ : ∀ x, Q x → P x) : AtMost m Q :=
  h.imp fun _ hl => ⟨hl.1, fun x hx => hl.2 x (hQ x hx)⟩

/-- Another one is let in, with less than `m` in sight and nothing out of sight but itself. -/
theorem of_seen {seen : List α} {a : α} (hroom : seen.length < m) (hseen : ∀ x, P x → x ≠ a → x ∈ seen)
    (hQ : ∀ x, Q x → P x ∨ x = a) : AtMost m Q := by
  refine ⟨a :: seen, hroom, fun x hx => ?_⟩
  by_cases ha : x = a
  · exact mem_cons.2 (.inl ha)
  · exact mem_cons_of_mem _ (hseen x ((hQ x hx).resolve_right ha) ha)

/-- Different things that have the property are at most as many. -/
theorem length_le {l : List α} (h : AtMost m P) (hnodup : l.Nodup) (hl : ∀ x ∈ l, P x) :
    l.length ≤ m := by
  obtain ⟨all, hlength, hall⟩ := h
  have hsubset : l ⊆ all := fun x hx => hall x (hl x hx)
  exact Nat.le_trans (subperm_of_subset hnodup hsubset).length_le hlength

end AtMost

end

end Kici
