import Mathlib.Data.List.Infix

/-!
# Replacing words in a text

A text is scanned from left to right for the words of a list. Where one of them starts,
the first of the list that does is replaced, and the scan goes on behind it.

No word of the list is left in the result, if it has no letter in common with the
replacement (`not_infix_replaceAll`): the letters of the result that are not of a
replacement are those of the text at which no word starts.
-/

namespace Kici

open List

variable {α : Type*} [DecidableEq α]

/-- The text behind `skip` letters, with the words replaced. -/
def replaceFrom (words : List (List α)) (replacement : List α) : (skip : ℕ) → List α → List α
  | _, [] => []
  | skip + 1, _ :: text => replaceFrom words replacement skip text
  | 0, a :: text =>
    match words.find? (· <+: a :: text) with
    | some word => replacement ++ replaceFrom words replacement (word.length - 1) text
    | none => a :: replaceFrom words replacement 0 text

/-- The text with the words, which are not empty, replaced. -/
def replaceAll (words : List (List α)) (replacement text : List α) : List α :=
  replaceFrom words replacement 0 text

variable {words : List (List α)} {replacement word text : List α}

/-- Without words nothing is replaced. -/
theorem replaceAll_nil : replaceAll [] replacement text = text := by
  rw [replaceAll]
  induction text with
  | nil => rfl
  | cons a text ih =>
    rw [replaceFrom, find?_nil]
    exact congrArg (a :: ·) ih

/-- What starts the result and has no letter of the replacement starts the text. -/
theorem prefix_of_prefix_replaceFrom (hreplacement : replacement ≠ [])
    (hdisjoint : ∀ a ∈ word, a ∉ replacement) (h : word <+: replaceFrom words replacement 0 text) :
    word <+: text := by
  induction text generalizing word with
  | nil => exact h
  | cons a text ih =>
    cases word with
    | nil => exact nil_prefix
    | cons b word =>
      rw [replaceFrom] at h
      split at h
      · -- The first letter is one of the replacement.
        obtain ⟨c, replacement, rfl⟩ := exists_cons_of_ne_nil hreplacement
        obtain ⟨rfl, -⟩ := cons_prefix_cons.1 h
        exact absurd mem_cons_self (hdisjoint b mem_cons_self)
      · obtain ⟨rfl, htail⟩ := cons_prefix_cons.1 h
        refine cons_prefix_cons.2 ⟨rfl, ih (fun a ha => ?_) htail⟩
        exact hdisjoint a (mem_cons_of_mem _ ha)

omit [DecidableEq α] in
/-- What occurs behind a replacement and has no letter of it occurs in the rest. -/
theorem infix_of_infix_append (hword : word ≠ []) (hdisjoint : ∀ a ∈ word, a ∉ replacement)
    (h : word <:+: replacement ++ text) : word <:+: text := by
  induction replacement with
  | nil => exact h
  | cons c replacement ih =>
    rcases infix_cons_iff.1 h with h | h
    · obtain ⟨b, word, rfl⟩ := exists_cons_of_ne_nil hword
      obtain ⟨rfl, -⟩ := cons_prefix_cons.1 h
      exact absurd mem_cons_self (hdisjoint b mem_cons_self)
    · exact ih (fun a ha hmem => hdisjoint a ha (mem_cons_of_mem _ hmem)) h

theorem not_infix_replaceFrom (hmem : word ∈ words) (hword : word ≠ [])
    (hreplacement : replacement ≠ []) (hdisjoint : ∀ a ∈ word, a ∉ replacement) (skip : ℕ) :
    ¬word <:+: replaceFrom words replacement skip text := by
  induction text generalizing skip with
  | nil =>
    rw [replaceFrom, infix_nil]
    exact hword
  | cons a text ih =>
    cases skip with
    | succ skip => exact ih skip
    | zero =>
      rw [replaceFrom]
      split
      · exact fun h => ih _ (infix_of_infix_append hword hdisjoint h)
      next hnone =>
        -- The word does not start here in the text, so it does not in the result.
        intro h
        rcases infix_cons_iff.1 h with h | h
        · have hstarts : word <+: a :: text := by
            obtain ⟨b, word, rfl⟩ := exists_cons_of_ne_nil hword
            obtain ⟨rfl, htail⟩ := cons_prefix_cons.1 h
            refine cons_prefix_cons.2 ⟨rfl, prefix_of_prefix_replaceFrom hreplacement ?_ htail⟩
            exact fun a ha => hdisjoint a (mem_cons_of_mem _ ha)
          have := find?_eq_none.1 hnone word hmem
          simp [hstarts] at this
        · exact ih 0 h

/-- No word is left that has no letter of the replacement. -/
theorem not_infix_replaceAll (hmem : word ∈ words) (hword : word ≠ [])
    (hreplacement : replacement ≠ []) (hdisjoint : ∀ a ∈ word, a ∉ replacement) :
    ¬word <:+: replaceAll words replacement text :=
  not_infix_replaceFrom hmem hword hreplacement hdisjoint 0

end Kici
