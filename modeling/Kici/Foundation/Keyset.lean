import Mathlib.Data.List.Sort
import Mathlib.Data.Prod.Lex

/-!
# Pages by keys

A list is read in pages, the greatest keys first, and each page begins below a bound that the last
element of the page before it gives.

* `Latest.sort`: the elements, the greatest key first. Where no two have the same key this is the
  only way to put them (`Latest.eq_of_perm`), so that sorting and filtering commute
  (`Latest.sort_filter`);
* below the key of an element stands what comes after it (`Latest.filter_below`). A bound below that
  key leaves out what lies between (`Latest.filter_rounded`); where it leaves out nothing at any
  cut, the list is kept (`CutsKept`);
* `readUntil`: a page of a list that comes in the order of a coarser rank. It holds the first
  elements in the order of the keys, and whether there are more is known (`readUntil_spec`);
* `Walk`: the pages from a cursor on, until one has no next cursor. There is at most one walk
  (`Walk.unique`).
-/

namespace Kici

open List

variable {α κ : Type*} [LinearOrder κ] {key : α → κ} {l l' : List α} {a : α}

/-! ## The greatest key first -/

/-- Each element has a greater key than those after it. -/
def Latest (key : α → κ) (l : List α) : Prop := l.Pairwise fun a b => key b < key a

namespace Latest

def sort (key : α → κ) (l : List α) : List α := l.insertionSort fun a b => key b ≤ key a

theorem sort_perm (key : α → κ) (l : List α) : (sort key l).Perm l := perm_insertionSort _ _

theorem eq_of_perm (h : Latest key l) (h' : Latest key l') (hperm : l.Perm l') : l = l' :=
  hperm.eq_of_pairwise (fun _ _ _ _ hlt hlt' => absurd hlt (lt_asymm hlt')) h h'

theorem of_sort (hnodup : (l.map key).Nodup) : Latest key (sort key l) := by
  have htotal : Std.Total fun a b : α => key b ≤ key a := ⟨fun a b => le_total (key b) (key a)⟩
  have htrans : IsTrans α fun a b => key b ≤ key a := ⟨fun _ _ _ h h' => le_trans h' h⟩
  have hsorted : (sort key l).Pairwise fun a b => key b ≤ key a := pairwise_insertionSort _ l
  have hkeys : (sort key l).Pairwise fun a b => key a ≠ key b :=
    pairwise_map.1 (((sort_perm key l).map key).nodup_iff.2 hnodup)
  exact (hsorted.and hkeys).imp fun ⟨hle, hne⟩ => lt_of_le_of_ne hle hne.symm

/-- A list with the greatest key first is what sorting gives. -/
theorem sort_eq (h : Latest key l') (hperm : l.Perm l') : sort key l = l' := by
  have hnodup : (l.map key).Nodup :=
    ((hperm.map key).nodup_iff).2 (pairwise_map.2 (h.imp fun hlt => ne_of_gt hlt))
  exact eq_of_perm (of_sort hnodup) h ((sort_perm key l).trans hperm)

theorem sort_congr (hnodup : (l.map key).Nodup) (hperm : l.Perm l') : sort key l = sort key l' :=
  sort_eq (of_sort ((hperm.map key).nodup_iff.1 hnodup)) (hperm.trans (sort_perm key l').symm)

theorem filter (h : Latest key l) (p : α → Bool) : Latest key (l.filter p) := h.sublist filter_sublist

theorem sort_filter (hnodup : (l.map key).Nodup) (p : α → Bool) :
    sort key (l.filter p) = (sort key l).filter p :=
  sort_eq ((of_sort hnodup).filter p) ((sort_perm key l).filter p).symm

/-- Where all keys of one list are greater than those of another, each is sorted on its own. -/
theorem sort_append (hnodup : ((l ++ l').map key).Nodup) (h : ∀ a ∈ l, ∀ b ∈ l', key b < key a) :
    sort key (l ++ l') = sort key l ++ sort key l' := by
  rw [map_append] at hnodup
  refine sort_eq (pairwise_append.2 ⟨of_sort hnodup.of_append_left, of_sort hnodup.of_append_right, ?_⟩)
    ((sort_perm key l).append (sort_perm key l')).symm
  exact fun a ha b hb => h a ((sort_perm key l).mem_iff.1 ha) b ((sort_perm key l').mem_iff.1 hb)

/-- Below a bound that is not above the key of an element stands nothing before it. -/
theorem filter_rounded {pre post : List α} (h : Latest key (pre ++ a :: post)) {bound : κ}
    (hbound : bound ≤ key a) : (pre ++ a :: post).filter (fun b => decide (key b < bound)) =
      post.filter (fun b => decide (key b < bound)) := by
  obtain ⟨-, hpost, hpre⟩ := pairwise_append.1 h
  have hnone : pre.filter (fun b => decide (key b < bound)) = [] := by
    rw [filter_eq_nil_iff]
    intro b hb hlt
    have hlt' : key a < key b := hpre b hb a mem_cons_self
    exact absurd (of_decide_eq_true hlt) (not_lt.2 (hbound.trans hlt'.le))
  rw [filter_append, hnone, nil_append, filter_cons_of_neg]
  exact fun hlt => absurd (of_decide_eq_true hlt) (not_lt.2 hbound)

/-- Below the key of an element stands what comes after it. -/
theorem filter_below {pre post : List α} (h : Latest key (pre ++ a :: post)) :
    (pre ++ a :: post).filter (fun b => decide (key b < key a)) = post := by
  rw [h.filter_rounded le_rfl, List.filter_eq_self]
  intro b hb
  exact decide_eq_true ((pairwise_cons.1 (pairwise_append.1 h).2.1).1 b hb)

/-- A bound above the first key leaves out nothing. -/
theorem filter_eq_self (h : Latest key l) {bound : κ} (hhead : ∀ a ∈ l.head?, key a < bound) :
    l.filter (fun b => decide (key b < bound)) = l := by
  rw [List.filter_eq_self]
  intro b hb
  cases l with
  | nil => cases hb
  | cons a l =>
    have hlt : key a < bound := hhead a rfl
    rcases mem_cons.1 hb with rfl | hb
    · exact decide_eq_true hlt
    · exact decide_eq_true (((pairwise_cons.1 h).1 b hb).trans hlt)

end Latest

/-! ## Cuts -/

/-- A page of a list that has as many elements, its last element, and what comes after it. -/
theorem exists_cut {limit : ℕ} (hlimit : 0 < limit) (hle : limit ≤ l.length) :
    ∃ pre a, l.take limit = pre ++ [a] ∧ l = pre ++ a :: l.drop limit ∧ l[limit - 1]? = some a := by
  have hlt : limit - 1 < l.length := (Nat.sub_lt hlimit Nat.one_pos).trans_le hle
  have htake : l.take limit = l.take (limit - 1) ++ [l[limit - 1]] := by
    rw [take_append_getElem, Nat.sub_add_cancel hlimit]
  refine ⟨l.take (limit - 1), l[limit - 1], htake, ?_, getElem?_eq_getElem hlt⟩
  rw [append_cons, ← htake, take_append_drop]

/-- At each cut into pages of a size, the next key is below the bound of the last element. -/
def CutsKept (key bound : α → κ) (limit : ℕ) (l : List α) : Prop :=
  ∀ k last next, l[(k + 1) * limit - 1]? = some last → l[(k + 1) * limit]? = some next →
    key next < bound last

section
variable {bound : α → κ} {limit : ℕ}

theorem CutsKept.of_le (h : l.length ≤ limit) : CutsKept key bound limit l := by
  intro k last next _ hnext
  obtain ⟨hlt, -⟩ := List.getElem?_eq_some_iff.1 hnext
  have hle : limit ≤ (k + 1) * limit := Nat.le_mul_of_pos_left limit k.succ_pos
  exact absurd (hlt.trans_le h) (not_lt.2 hle)

/-- The first cut, and those after it. -/
theorem cutsKept_iff (hlimit : 0 < limit) : CutsKept key bound limit l ↔
    (∀ last ∈ l[limit - 1]?, ∀ next ∈ l[limit]?, key next < bound last) ∧
      CutsKept key bound limit (l.drop limit) := by
  have hshift (k : ℕ) : limit + ((k + 1) * limit - 1) = (k + 1 + 1) * limit - 1 := by
    have hpos : 0 < (k + 1) * limit := Nat.mul_pos k.succ_pos hlimit
    rw [← Nat.add_sub_assoc hpos, Nat.add_one_mul (k + 1), Nat.add_comm limit]
  have hshift' (k : ℕ) : limit + (k + 1) * limit = (k + 1 + 1) * limit := by
    rw [Nat.add_one_mul (k + 1), Nat.add_comm limit]
  constructor
  · intro h
    refine ⟨fun last hlast next hnext => ?_, fun k last next hlast hnext => ?_⟩
    · refine h 0 last next ?_ ?_ <;> rwa [Nat.zero_add, Nat.one_mul]
    · rw [getElem?_drop, hshift] at hlast
      rw [getElem?_drop, hshift'] at hnext
      exact h (k + 1) last next hlast hnext
  · rintro ⟨hfirst, hrest⟩ k last next hlast hnext
    cases k with
    | zero =>
      rw [Nat.zero_add, Nat.one_mul] at hlast hnext
      exact hfirst last hlast next hnext
    | succ k =>
      refine hrest k last next ?_ ?_
      · rwa [getElem?_drop, hshift]
      · rwa [getElem?_drop, hshift']

end

/-! ## A page of a list in a coarser order -/

section
variable {rank : α → ℤ} {n : ℕ} {page rest : List α}

/-- Whether a page is full, and an element lies strictly after it. -/
def pageDone (rank : α → ℤ) (n : ℕ) (page : List α) (a : α) : Bool :=
  decide (n ≤ page.length) && (page[n - 1]?).any fun last => decide (rank a < rank last)

theorem pageDone_iff : pageDone rank n page a ↔
    n ≤ page.length ∧ ∃ last, page[n - 1]? = some last ∧ rank a < rank last := by
  rw [pageDone, Bool.and_eq_true, decide_eq_true_iff, Option.any_eq_true]
  simp only [decide_eq_true_eq]

/-- Read until the page is done; and whether it was before the end. -/
def readUntil (rank : α → ℤ) (n : ℕ) (page : List α) : List α → List α × Bool
  | [] => (page, false)
  | a :: rest => if pageDone rank n page a then (page, true) else readUntil rank n (page ++ [a]) rest

/-- No element of a page is ranked after the one that makes it full. -/
def PageTies (rank : α → ℤ) (n : ℕ) (page : List α) : Prop :=
  ∀ last ∈ page[n - 1]?, ∀ a ∈ page, rank last ≤ rank a

theorem PageTies.append (hties : PageTies rank n page) (hdone : pageDone rank n page a = false)
    (hsorted : ∀ b ∈ page, rank a ≤ rank b) : PageTies rank n (page ++ [a]) := by
  intro last hlast b hb
  rcases Nat.lt_or_ge (n - 1) page.length with hlt | hge
  · rw [Option.mem_def, getElem?_append_left hlt] at hlast
    rcases mem_append.1 hb with hb | hb
    · exact hties last hlast b hb
    · cases mem_singleton.1 hb
      refine not_lt.1 fun hlt' => ?_
      have hfull : n ≤ page.length := Nat.le_of_pred_lt hlt
      rw [pageDone_iff.2 ⟨hfull, last, hlast, hlt'⟩] at hdone
      cases hdone
  · have hmem : last ∈ page ++ [a] := mem_of_getElem? hlast
    rw [Option.mem_def, getElem?_append_right hge] at hlast
    have hlast : last ∈ [a] := mem_of_getElem? hlast
    cases mem_singleton.1 hlast
    rcases mem_append.1 hb with hb | hb
    · exact hsorted b hb
    · cases mem_singleton.1 hb
      exact le_rfl

/-- What is left of the list is nothing, or ranked strictly after the whole page, which is full. -/
structure PageRead (rank : α → ℤ) (n : ℕ) (all : List α) (read : List α × Bool) (rest : List α) :
    Prop where
  split : all = read.1 ++ rest
  ended : read.2 = false → rest = []
  stopped : read.2 = true → rest ≠ [] ∧ n ≤ read.1.length
  later : ∀ a ∈ read.1, ∀ b ∈ rest, rank b < rank a

theorem exists_pageRead (hties : PageTies rank n page)
    (hsorted : (page ++ rest).Pairwise fun a b => rank b ≤ rank a) :
    ∃ tail, PageRead rank n (page ++ rest) (readUntil rank n page rest) tail := by
  induction rest generalizing page with
  | nil =>
    refine ⟨[], rfl, fun _ => rfl, fun h => absurd h Bool.false_ne_true, ?_⟩
    exact nofun
  | cons a rest ih =>
    obtain ⟨-, hrest, hbefore⟩ := pairwise_append.1 hsorted
    rw [readUntil]
    split
    next hdone =>
      obtain ⟨hfull, last, hlast, hlt⟩ := pageDone_iff.1 hdone
      refine ⟨a :: rest, rfl, fun h => absurd h.symm Bool.false_ne_true, fun _ =>
        ⟨cons_ne_nil _ _, hfull⟩, ?_⟩
      -- The element that ended the page is strictly after its last one, and all others are no
      -- earlier.
      intro b hb c hc
      have hle : rank last ≤ rank b := hties last hlast b hb
      rcases mem_cons.1 hc with rfl | hc
      · exact hlt.trans_le hle
      · exact (((pairwise_cons.1 hrest).1 c hc).trans_lt hlt).trans_le hle
    next hdone =>
      rw [append_cons] at hsorted
      have hties := hties.append (Bool.eq_false_iff.2 hdone) fun b hb => hbefore b hb a mem_cons_self
      obtain ⟨tail, hread⟩ := ih hties hsorted
      exact ⟨tail, by rwa [append_cons]⟩

/-- The page that was read begins like the whole list in the order of the keys; and there is more
than the page if and only if the reading stopped or gave more. -/
theorem readUntil_spec (hnodup : (l.map key).Nodup) (hrank : ∀ a b, rank b < rank a → key b < key a)
    (hsorted : l.Pairwise fun a b => rank b ≤ rank a) :
    (Latest.sort key (readUntil rank n [] l).1).take n = (Latest.sort key l).take n ∧
      (((readUntil rank n [] l).2 || decide (n < (readUntil rank n [] l).1.length)) ↔ n < l.length) := by
  have hties : PageTies rank n [] := nofun
  obtain ⟨tail, hread⟩ := exists_pageRead hties (hsorted : ([] ++ l).Pairwise _)
  have hsplit : l = (readUntil rank n [] l).1 ++ tail := hread.split
  generalize readUntil rank n [] l = read at hread hsplit ⊢
  have hsort : Latest.sort key l = Latest.sort key read.1 ++ Latest.sort key tail := by
    rw [hsplit] at hnodup ⊢
    exact Latest.sort_append hnodup fun a ha b hb => hrank a b (hread.later a ha b hb)
  have hlength : (Latest.sort key read.1).length = read.1.length := (Latest.sort_perm key _).length_eq
  cases hstopped : read.2 with
  | false =>
    obtain rfl := hread.ended hstopped
    rw [append_nil] at hsplit
    rw [← hsplit, Bool.false_or, decide_eq_true_iff]
    exact ⟨rfl, .rfl⟩
  | true =>
    obtain ⟨htail, hn⟩ := hread.stopped hstopped
    rw [hsort, take_append_of_le_length (hlength ▸ hn), hsplit, length_append]
    exact ⟨rfl, fun _ => hn.trans_lt (Nat.lt_add_of_pos_right (length_pos_iff.2 htail)), fun _ => rfl⟩

end

/-! ## Walks -/

/-- A page, and the cursor of the next one. -/
structure Page (Cursor Item : Type) where
  items : List Item
  nextCursor : Option Cursor

section
variable {Cursor Item ε : Type} {load : ℕ → Option Cursor → Except ε (Page Cursor Item)} {n : ℕ}
  {cursor : Option Cursor} {items items' : List Item}

/-- The items of all pages from a cursor on, the first of which is the `n`th that is loaded. -/
inductive Walk (load : ℕ → Option Cursor → Except ε (Page Cursor Item)) : ℕ → Option Cursor →
    List Item → Prop
  | last {n : ℕ} {cursor : Option Cursor} {page : Page Cursor Item} (hload : load n cursor = .ok page)
    (hnone : page.nextCursor = none) : Walk load n cursor page.items
  | next {n : ℕ} {cursor : Option Cursor} {page : Page Cursor Item} {next : Cursor} {items : List Item}
    (hload : load n cursor = .ok page) (hnext : page.nextCursor = some next)
    (hwalk : Walk load (n + 1) (some next) items) : Walk load n cursor (page.items ++ items)

theorem Walk.unique (h : Walk load n cursor items) (h' : Walk load n cursor items') :
    items = items' := by
  induction h generalizing items' with
  | last hload hnone =>
    cases h' with
    | last hload' =>
      cases hload.symm.trans hload'
      rfl
    | next hload' hnext' =>
      cases hload.symm.trans hload'
      cases hnone.symm.trans hnext'
  | next hload hnext _ ih =>
    cases h' with
    | last hload' hnone' =>
      cases hload.symm.trans hload'
      cases hnone'.symm.trans hnext
    | next hload' hnext' hwalk' =>
      cases hload.symm.trans hload'
      cases hnext.symm.trans hnext'
      rw [ih hwalk']

end

end Kici
