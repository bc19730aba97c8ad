import Kici.Foundation.Replace

/-!
# What a replacement of words covers

The scan that replaces words in a text leaves some of its letters (`fates`, which renders to the
result by `replaceFrom_eq_render`). It *covers* the words if none of the letters that it leaves is
part of an occurrence of one.

Which occurrences it replaces is said of the text alone (`Taken`): the longest one at its start,
unless an earlier one that is taken goes beyond that. The words are covered if and only if one
starts wherever an occurrence goes beyond the end of one that is taken (`covers_iff`).
-/

namespace Kici

open List

/-- What the scan does with a letter. -/
inductive Fate
  | kept
  | start
  | inside
  deriving DecidableEq

section Fates

variable {α : Type*} [DecidableEq α]

/-- The fates of the letters behind `skip` ones. -/
def fatesFrom (words : List (List α)) : (skip : ℕ) → List α → List Fate
  | _, [] => []
  | skip + 1, _ :: text => .inside :: fatesFrom words skip text
  | 0, a :: text =>
    match words.find? (· <+: a :: text) with
    | some word => .start :: fatesFrom words (word.length - 1) text
    | none => .kept :: fatesFrom words 0 text

def fates (words : List (List α)) (text : List α) : List Fate := fatesFrom words 0 text

end Fates

variable {α : Type*}

/-- What becomes of a letter. -/
def Fate.render (replacement : List α) (a : α) : Fate → List α
  | kept => [a]
  | start => replacement
  | inside => []

/-- The text with each letter that is the first of a replaced word replaced, and the others of it
left out. -/
def render (replacement : List α) (fates : List Fate) (text : List α) : List α :=
  (List.zipWith (Fate.render replacement) text fates).flatten

/-- The word starts at the position. -/
def OccursAt (word text : List α) (i : ℕ) : Prop := word <+: text.drop i

/-- The longest one of the words that start at a position. -/
structure LongestAt (words : List (List α)) (text : List α) (i : ℕ) (word : List α) : Prop where
  mem : word ∈ words
  occurs : OccursAt word text i
  length_le : ∀ v ∈ words, OccursAt v text i → v.length ≤ word.length

/-- The longest word at its start is taken, if none that is taken before it goes beyond that. -/
def Taken (words : List (List α)) (text : List α) (start stop : ℕ) : Prop :=
  (∃ word, LongestAt words text start word ∧ stop = start + word.length) ∧
    ∀ s < start, ∀ e, Taken words text s e → e ≤ start
termination_by start

/-- No letter that is kept is part of an occurrence of a word. -/
def CoversWords (words : List (List α)) (text : List α) (fates : List Fate) : Prop :=
  ∀ p, fates[p]? = some .kept → ∀ word ∈ words, ∀ i, OccursAt word text i → i ≤ p → ¬p < i + word.length

variable {words : List (List α)} {text word : List α} {i n p s e : ℕ}

theorem OccursAt.le_length (h : OccursAt word text i) : word.length ≤ text.length - i := by
  simpa using h.length_le

theorem taken_iff : Taken words text s e ↔ (∃ word, LongestAt words text s word ∧ e = s + word.length) ∧
    ∀ s' < s, ∀ e', Taken words text s' e' → e' ≤ s := by
  rw [Taken]

/-- What is taken at a position ends at one other. -/
theorem Taken.stop_eq {e' : ℕ} (h : Taken words text s e) (h' : Taken words text s e') : e = e' := by
  obtain ⟨⟨word, hword, rfl⟩, -⟩ := taken_iff.1 h
  obtain ⟨⟨word', hword', rfl⟩, -⟩ := taken_iff.1 h'
  have hle := hword.length_le word' hword'.mem hword'.occurs
  have hge := hword'.length_le word hword.mem hword.occurs
  omega

/-- Two that are taken do not overlap. -/
theorem Taken.le_of_lt {s' e' : ℕ} (h : Taken words text s e) (h' : Taken words text s' e')
    (hlt : s' < s) : e' ≤ s :=
  (taken_iff.1 h).2 s' hlt e' h'

/-- What is taken does not depend on the order of the words. -/
theorem taken_congr {words' : List (List α)} (hmem : ∀ word, word ∈ words ↔ word ∈ words') :
    Taken words text s e ↔ Taken words' text s e := by
  have hlongest : ∀ i word, LongestAt words text i word ↔ LongestAt words' text i word := fun i word =>
    ⟨fun h => ⟨(hmem word).1 h.mem, h.occurs, fun v hv => h.length_le v ((hmem v).2 hv)⟩,
      fun h => ⟨(hmem word).2 h.mem, h.occurs, fun v hv => h.length_le v ((hmem v).1 hv)⟩⟩
  induction s using Nat.strong_induction_on generalizing e with
  | _ s ih =>
    rw [taken_iff, taken_iff]
    refine and_congr (exists_congr fun word => and_congr_left' (hlongest s word)) ?_
    exact forall₂_congr fun s' hs' => forall_congr' fun e' => imp_congr_left (ih s' hs')

theorem Taken.lt (h : Taken words text s e) (hne : ∀ word ∈ words, word ≠ []) : s < e := by
  obtain ⟨⟨word, hword, rfl⟩, -⟩ := taken_iff.1 h
  have := length_pos_of_ne_nil (hne word hword.mem)
  omega

section Scan

variable [DecidableEq α]

theorem replaceFrom_eq_render (words : List (List α)) (replacement : List α) (skip : ℕ) (text : List α) :
    replaceFrom words replacement skip text = render replacement (fatesFrom words skip text) text := by
  induction text generalizing skip with
  | nil => cases skip <;> rfl
  | cons a text ih =>
    cases skip with
    | succ skip =>
      rw [replaceFrom, fatesFrom, ih]
      rfl
    | zero =>
      rw [replaceFrom, fatesFrom]
      cases words.find? fun word => word <+: a :: text with
      | none => exact congrArg (a :: ·) (ih 0)
      | some word => exact congrArg (replacement ++ ·) (ih (word.length - 1))

/-- Each letter has its fate. -/
theorem length_fatesFrom (words : List (List α)) (skip : ℕ) (text : List α) :
    (fatesFrom words skip text).length = text.length := by
  induction text generalizing skip with
  | nil => cases skip <;> rfl
  | cons a text ih =>
    cases skip with
    | succ skip => exact congrArg (· + 1) (ih skip)
    | zero =>
      rw [fatesFrom]
      split
      · exact congrArg (· + 1) (ih _)
      · exact congrArg (· + 1) (ih 0)

/-- The scan finds the longest word at a position, as longer words come first. -/
theorem longestAt_of_find? (hsorted : words.Pairwise fun a b => b.length ≤ a.length)
    (h : words.find? (· <+: text.drop n) = some word) : LongestAt words text n word := by
  obtain ⟨hstarts, before, after, rfl, hbefore⟩ := find?_eq_some_iff_append.1 h
  refine ⟨by simp, by simpa [OccursAt] using hstarts, fun v hv hoccurs => ?_⟩
  rcases mem_append.1 hv with hmem | hmem
  · have := hbefore v hmem
    simp only [Bool.not_eq_true', decide_eq_false_iff_not] at this
    exact absurd hoccurs this
  · rcases mem_cons.1 hmem with rfl | hmem
    · exact le_rfl
    · exact (pairwise_cons.1 (pairwise_append.1 hsorted).2.1).1 v hmem

/-- The scan has gone on to `n` and is to skip `skip` letters. -/
structure ScanAt (words : List (List α)) (text : List α) (n skip : ℕ) : Prop where
  stop_le : ∀ s < n, ∀ e, Taken words text s e → e ≤ n + skip
  taken : 0 < skip → ∃ s < n, Taken words text s (n + skip)

namespace ScanAt

variable {k : ℕ}

omit [DecidableEq α] in
theorem zero : ScanAt words text 0 0 where
  stop_le s hs := absurd hs (Nat.not_lt_zero s)
  taken h := absurd h (Nat.lt_irrefl 0)

omit [DecidableEq α] in
/-- Nothing is taken at a letter that is skipped. -/
theorem skip (h : ScanAt words text n (k + 1)) : ScanAt words text (n + 1) k := by
  obtain ⟨s, hs, htaken⟩ := h.taken (Nat.succ_pos k)
  refine ⟨fun s' hs' e' h' => ?_, fun _ => ⟨s, by omega, ?_⟩⟩
  · rcases Nat.lt_succ_iff_lt_or_eq.1 hs' with hlt | rfl
    · have := h.stop_le s' hlt e' h'
      omega
    · have := h'.le_of_lt htaken hs
      omega
  · have heq : n + 1 + k = n + (k + 1) := by omega
    rwa [heq]

omit [DecidableEq α] in
/-- The longest word at a letter that is not skipped is taken. -/
theorem start (h : ScanAt words text n 0) (hword : LongestAt words text n word) (hne : word ≠ []) :
    ScanAt words text (n + 1) (word.length - 1) := by
  have hpos := length_pos_of_ne_nil hne
  have heq : n + 1 + (word.length - 1) = n + word.length := by omega
  have htaken : Taken words text n (n + word.length) := taken_iff.2 ⟨⟨word, hword, rfl⟩, h.stop_le⟩
  refine ⟨fun s hs e hse => ?_, fun _ => ⟨n, Nat.lt_succ_self n, heq ▸ htaken⟩⟩
  rcases Nat.lt_succ_iff_lt_or_eq.1 hs with hlt | rfl
  · have := h.stop_le s hlt e hse
    omega
  · have := hse.stop_eq htaken
    omega

omit [DecidableEq α] in
theorem next (h : ScanAt words text n 0) (hnone : ∀ word ∈ words, ¬OccursAt word text n) :
    ScanAt words text (n + 1) 0 := by
  refine ⟨fun s hs e hse => ?_, fun hpos => absurd hpos (Nat.lt_irrefl 0)⟩
  rcases Nat.lt_succ_iff_lt_or_eq.1 hs with hlt | rfl
  · exact Nat.le_succ_of_le (h.stop_le s hlt e hse)
  · obtain ⟨⟨word, hword, -⟩, -⟩ := taken_iff.1 hse
    exact absurd hword.occurs (hnone word hword.mem)

end ScanAt

section

variable (hsorted : words.Pairwise fun a b => b.length ≤ a.length)
include hsorted

/-- The letters that the scan keeps: no word starts there, and what is taken before them ends before
them. -/
theorem kept_iff (hne : ∀ word ∈ words, word ≠ [])
    {skip : ℕ} (hscan : ScanAt words text n skip) (j : ℕ) :
    (fatesFrom words skip (text.drop n))[j]? = some .kept ↔ n + j < text.length ∧
      (∀ word ∈ words, ¬OccursAt word text (n + j)) ∧ ∀ s < n + j, ∀ e, Taken words text s e →
      e ≤ n + j := by
  generalize hrest : text.drop n = rest
  induction rest generalizing n skip j with
  | nil =>
    have hlen : text.length ≤ n := drop_eq_nil_iff.1 hrest
    cases skip <;> simp [fatesFrom] <;> omega
  | cons a rest ih =>
    have htail : text.drop (n + 1) = rest := by rw [← drop_drop, hrest]; rfl
    have hlen : n < text.length := by
      by_contra hge
      rw [drop_eq_nil_of_le (Nat.le_of_not_lt hge)] at hrest
      cases hrest
    have hadd : ∀ j, n + 1 + j = n + (j + 1) := fun j => by omega
    cases skip with
    | succ skip =>
      cases j with
      | zero =>
        obtain ⟨s, hs, htaken⟩ := hscan.taken (Nat.succ_pos skip)
        refine ⟨fun h => absurd h (by simp [fatesFrom]), fun h => ?_⟩
        have := h.2.2 s hs _ htaken
        omega
      | succ j => exact hadd j ▸ ih hscan.skip j htail
    | zero =>
      rw [fatesFrom]
      cases hfind : words.find? (· <+: a :: rest) with
      | some word =>
        have hword : LongestAt words text n word :=
          longestAt_of_find? hsorted (by rw [hrest]; exact hfind)
        cases j with
        | zero => exact ⟨fun h => absurd h (by simp), fun h =>
          absurd hword.occurs (h.2.1 word hword.mem)⟩
        | succ j => exact hadd j ▸ ih (hscan.start hword (hne word hword.mem)) j htail
      | none =>
        have hnone : ∀ word ∈ words, ¬OccursAt word text n := fun word hword => by
          rw [OccursAt, hrest]
          simpa using find?_eq_none.1 hfind word hword
        cases j with
        | zero => exact ⟨fun _ => ⟨hlen, hnone, hscan.stop_le⟩, fun _ => rfl⟩
        | succ j => exact hadd j ▸ ih (hscan.next hnone) j htail

/-- The letters that the scan keeps. -/
theorem fates_kept_iff (hne : ∀ word ∈ words, word ≠ []) :
    (fates words text)[p]? = some .kept ↔ p < text.length ∧ (∀ word ∈ words, ¬OccursAt word text p) ∧
      ∀ s < p, ∀ e, Taken words text s e → e ≤ p := by
  have hscan : ScanAt words text 0 0 := .zero
  have h := kept_iff hsorted hne hscan p
  rwa [Nat.zero_add] at h

/-- If a word starts at a position, a longest one does. -/
theorem exists_longestAt (hword : word ∈ words)
    (hoccurs : OccursAt word text n) : ∃ w, LongestAt words text n w := by
  cases hfind : words.find? (· <+: text.drop n) with
  | some w => exact ⟨w, longestAt_of_find? hsorted hfind⟩
  | none => exact absurd hoccurs (by simpa [OccursAt] using find?_eq_none.1 hfind word hword)

/-- What an occurrence of a word is covered up to is the end of one that is taken. -/
theorem exists_taken_of_kept
    (hne : ∀ word ∈ words, word ≠ []) (hword : word ∈ words) (hoccurs : OccursAt word text i)
    (hlt : i < p) (hkept : (fates words text)[p]? = some .kept) :
    ∃ q, i < q ∧ q ≤ p ∧ (fates words text)[q]? = some .kept ∧ ∃ s, Taken words text s q := by
  induction p with
  | zero => exact absurd hlt (Nat.not_lt_zero i)
  | succ p ih =>
    obtain ⟨hlen, hnone, hstop⟩ := (fates_kept_iff hsorted hne).1 hkept
    by_cases hbefore : (fates words text)[p]? = some .kept
    · -- The letter before is kept too, and is not the first of the occurrence.
      have hip : i < p := by
        refine Nat.lt_of_le_of_ne (Nat.le_of_lt_succ hlt) fun heq => ?_
        exact ((fates_kept_iff hsorted hne).1 hbefore).2.1 word hword (heq ▸ hoccurs)
      obtain ⟨q, hiq, hqp, hq⟩ := ih hip hbefore
      exact ⟨q, hiq, Nat.le_succ_of_le hqp, hq⟩
    · refine ⟨p + 1, hlt, le_rfl, hkept, ?_⟩
      -- The letter before is in one that is taken, which ends here.
      by_cases htaken : ∃ s ≤ p, ∃ e, Taken words text s e ∧ p < e
      · obtain ⟨s, hs, e, hse, hpe⟩ := htaken
        have hle := hstop s (by omega) e hse
        have heq : e = p + 1 := by omega
        exact ⟨s, heq ▸ hse⟩
      · have hfree : ∀ s < p, ∀ e, Taken words text s e → e ≤ p := fun s hs e hse =>
          Nat.le_of_not_lt fun hpe => htaken ⟨s, hs.le, e, hse, hpe⟩
        refine absurd ((fates_kept_iff hsorted hne).2 ⟨by omega, fun v hv hstarts => ?_, hfree⟩) hbefore
        obtain ⟨w, hw⟩ := exists_longestAt hsorted hv hstarts
        have hpos := length_pos_of_ne_nil (hne w hw.mem)
        exact htaken ⟨p, le_rfl, p + w.length, taken_iff.2 ⟨⟨w, hw, rfl⟩, hfree⟩, by omega⟩

/-- The words are covered if and only if one starts at the end of each that is taken and that an
occurrence goes beyond. -/
theorem covers_iff (hne : ∀ word ∈ words, word ≠ []) :
    CoversWords words text (fates words text) ↔ ∀ s e, Taken words text s e → ∀ word ∈ words, ∀ i,
      OccursAt word text i → i < e → e < i + word.length → ∃ next ∈ words, OccursAt next text e := by
  constructor
  · intro h s e htaken word hword i hoccurs hie hei
    by_contra hnone
    have hlen := hoccurs.le_length
    refine h e ((fates_kept_iff hsorted hne).2 ⟨by omega, fun v hv hv' => hnone ⟨v, hv, hv'⟩, ?_⟩)
      word hword i hoccurs
      hie.le hei
    intro s' hs' e' htaken'
    -- It begins before, at or behind the one that ends here.
    rcases Nat.lt_trichotomy s' s with hlt | rfl | hlt
    · have := htaken.le_of_lt htaken' hlt
      have := htaken.lt hne
      omega
    · exact (htaken'.stop_eq htaken).le
    · have := htaken'.le_of_lt htaken hlt
      omega
  · intro h p hkept word hword i hoccurs hip hpi
    have hnone := ((fates_kept_iff hsorted hne).1 hkept).2.1
    have hlt : i < p := Nat.lt_of_le_of_ne hip fun heq => hnone word hword (heq ▸ hoccurs)
    obtain ⟨q, hiq, hqp, hq, s, htaken⟩ := exists_taken_of_kept hsorted hne hword hoccurs hlt hkept
    obtain ⟨next, hnext, hstarts⟩ := h s q htaken word hword i hoccurs hiq (by omega)
    exact ((fates_kept_iff hsorted hne).1 hq).2.1 next hnext hstarts

end

end Scan

end Kici
