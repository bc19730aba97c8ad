import Kici.Js.TextEncoder

/-!
# Bounded texts

The reason of a failure is a text of any length, which a message carries within a bound. It is
clamped rather than refused: its start is kept (`truncateReasonText`), or its end, where the cause
of a failed command is (`truncateReasonTextKeepEnd`), with a marker in the place of the rest. Both
are bounds that a text can be put through any number of times (`StableBound`, `truncation_stable`),
as the sender and the receiver of a message do (`boundedFreeText_clampStatusFreeText`).
-/

namespace Kici

open List JsString

/-- Appended to a text that is cut at its end. -/
def TRUNCATION_MARKER : JsString := js "… (truncated)"

/-- Prepended to a text that is cut at its start. -/
def KEEP_END_TRUNCATION_MARKER : JsString := js "… (truncated) "

/-- The text with at most `max` code units, where `cutTo` joins the marker to so many units of a
text. -/
def truncateTo (marker : JsString) (cutTo : JsString → ℕ → JsString) (text : JsString) (max : ℤ) :
    JsString :=
  if max ≤ 0 then []
  else if text.length ≤ max then text
  else if max ≤ marker.length then marker.take max.toNat
  else cutTo text (max.toNat - marker.length)

/-- The text with at most `max` code units, from its start. -/
def truncateReasonText : JsString → ℤ → JsString :=
  truncateTo TRUNCATION_MARKER fun text cut =>
    let cut := if text[cut - 1]?.any isHighSurrogate then cut - 1 else cut
    text.take cut ++ TRUNCATION_MARKER

/-- The text with at most `max` code units, up to its end. -/
def truncateReasonTextKeepEnd : JsString → ℤ → JsString :=
  truncateTo KEEP_END_TRUNCATION_MARKER fun text kept =>
    let start := text.length - kept
    let start := if text[start]?.any isLowSurrogate then start + 1 else start
    KEEP_END_TRUNCATION_MARKER ++ text.drop start

/-- The length that a free text of a status is clamped to. -/
def STATUS_FREE_TEXT_MAX : ℤ := 2000

/-- What becomes of a field with a bound as a message is read. -/
def boundedFreeText (max : ℤ) (text : JsString) : JsString := truncateReasonText text max

def clampStatusFreeText (text : JsString) : JsString := truncateReasonText text STATUS_FREE_TEXT_MAX

/-! ## Stable bounds -/

section

variable (marker : JsString) (IsCutOf : JsString → JsString → Prop)

/-- A function that brings texts within a bound, a part of a text that is too long being joined to a
marker. -/
structure StableBound (truncate : JsString → ℤ → JsString) : Prop where
  length_le : ∀ text, ∀ max : ℤ, 0 ≤ max → (truncate text max).length ≤ max
  /-- A text within the bound is left alone. -/
  eq_self : ∀ text, ∀ max : ℤ, text.length ≤ max → truncate text max = text
  /-- Where there is room for the marker, a text that is too long is cut, and at most one code unit
  short. -/
  isCutOf : ∀ text, ∀ max : ℤ, marker.length ≤ max → max < text.length →
    IsCutOf (truncate text max) text ∧ max ≤ (truncate text max).length + 1
  /-- Where there is not, the marker is cut. -/
  isMarker : ∀ text, ∀ max : ℤ, 0 ≤ max → max ≤ marker.length → max < text.length →
    truncate text max = marker.take max.toNat
  /-- No pair of surrogates is split. -/
  wellFormed : ∀ text, ∀ max : ℤ, text.isWellFormed = true → isWellFormed (truncate text max) = true
  idempotent : ∀ text, ∀ max : ℤ, truncate (truncate text max) max = truncate text max

/-- A function that joins the marker to `room` code units of a text, or to one less. -/
structure Cuts (cutTo : JsString → ℕ → JsString) : Prop where
  isCutOf : ∀ text room, IsCutOf (cutTo text room) text
  length_le : ∀ text room, room < text.length → (cutTo text room).length ≤ room + marker.length
  le_length : ∀ text room, room < text.length → room + marker.length ≤ (cutTo text room).length + 1
  wellFormed : ∀ text room, text.isWellFormed = true → isWellFormed (cutTo text room) = true

end

variable {marker : JsString} {IsCutOf : JsString → JsString → Prop} {cutTo : JsString → ℕ → JsString}
  {text : JsString} {max : ℤ}

theorem truncateTo_of_fits (h : text.length ≤ max) : truncateTo marker cutTo text max = text := by
  rcases le_or_gt max 0 with h0 | h0
  · have hnil : text.length = 0 := by omega
    rw [truncateTo, if_pos h0, length_eq_zero_iff.1 hnil]
  · rw [truncateTo, if_neg h0.not_ge, if_pos h]

theorem truncateTo_of_short (h0 : 0 ≤ max) (hmarker : max ≤ marker.length) (h : max < text.length) :
    truncateTo marker cutTo text max = marker.take max.toNat := by
  rcases h0.eq_or_lt with rfl | hpos
  · rw [truncateTo, if_pos le_rfl, Int.toNat_zero, take_zero]
  · rw [truncateTo, if_neg hpos.not_ge, if_neg h.not_ge, if_pos hmarker]

theorem truncateTo_of_long (hmarker : marker.length < max) (h : max < text.length) :
    truncateTo marker cutTo text max = cutTo text (max.toNat - marker.length) := by
  rw [truncateTo, if_neg (by omega), if_neg h.not_ge, if_neg hmarker.not_ge]

theorem length_truncateTo_le (hcut : Cuts marker IsCutOf cutTo) (h0 : 0 ≤ max) :
    (truncateTo marker cutTo text max).length ≤ max := by
  rcases le_or_gt (text.length : ℤ) max with hfits | hlong
  · rw [truncateTo_of_fits hfits]
    exact hfits
  · rcases le_or_gt max marker.length with hshort | hroom
    · rw [truncateTo_of_short h0 hshort hlong, length_take]
      omega
    · have hle := hcut.length_le text (max.toNat - marker.length) (by omega)
      rw [truncateTo_of_long hroom hlong]
      omega

/-- A function that cuts texts makes a stable bound. -/
theorem stableBound_truncateTo (hcut : Cuts marker IsCutOf cutTo) (hempty : ∀ text, IsCutOf marker text)
    (hmarker : ∀ n, isWellFormed (marker.take n)) :
    StableBound marker IsCutOf (truncateTo marker cutTo) := by
  constructor
  case length_le =>
    intro text max h0
    exact length_truncateTo_le hcut h0
  case eq_self =>
    intro text max h
    exact truncateTo_of_fits h
  case isCutOf =>
    intro text max hroom hlong
    rcases hroom.eq_or_lt with heq | hlt
    · have htake : marker.take max.toNat = marker := take_of_length_le (by omega)
      rw [truncateTo_of_short (by omega) heq.ge hlong, htake]
      exact ⟨hempty text, by omega⟩
    · have hle := hcut.le_length text (max.toNat - marker.length) (by omega)
      rw [truncateTo_of_long hlt hlong]
      exact ⟨hcut.isCutOf _ _, by omega⟩
  case isMarker =>
    intro text max h0 hshort hlong
    exact truncateTo_of_short h0 hshort hlong
  case wellFormed =>
    intro text max h
    unfold truncateTo
    split
    · rfl
    · split
      · exact h
      · split
        · exact hmarker _
        · exact hcut.wellFormed _ _ h
  case idempotent =>
    intro text max
    rcases le_or_gt 0 max with h0 | hneg
    · exact truncateTo_of_fits (length_truncateTo_le hcut h0)
    · have hnil : ∀ text, truncateTo marker cutTo text max = [] := fun text => if_pos hneg.le
      rw [hnil, hnil]

/-! ## The two cuts -/

/-- A cut of a text that keeps its start. -/
def IsCutAtEnd (result text : JsString) : Prop :=
  ∃ start, start <+: text ∧ result = start ++ TRUNCATION_MARKER

/-- A cut of a text that keeps its end. -/
def IsCutAtStart (result text : JsString) : Prop :=
  ∃ last, last <:+ text ∧ result = KEEP_END_TRUNCATION_MARKER ++ last

/-- What is before a cut is well formed, if the cut steps back from the middle of a pair. -/
theorem isWellFormed_take_stepBack {cut : ℕ} (h : text.isWellFormed) :
    isWellFormed (text.take (if text[cut - 1]?.any isHighSurrogate then cut - 1 else cut)) := by
  have hsplit : isWellFormed (text.take cut ++ text.drop cut) := by rwa [take_append_drop]
  rcases isWellFormed_of_append hsplit with ⟨hleft, -⟩ |
    ⟨left, high, low, right, htake, hdrop, hhigh, -, hleft, -⟩
  · split
    case isFalse => exact hleft
    case isTrue hlast =>
      obtain ⟨unit, hunit, hhigh⟩ := (Option.any_eq_true _ _).1 hlast
      rcases Nat.eq_zero_or_pos cut with rfl | hpos
      · rfl
      · -- The text before the cut would end with the first half of a pair.
        have htake : text.take cut = text.take (cut - 1) ++ [unit] := by
          rw [← Nat.sub_add_cancel hpos, take_add_one, Nat.add_sub_cancel, hunit, Option.toList_some]
        rw [htake] at hleft
        rw [isHighSurrogate_of_isWellFormed_concat hleft] at hhigh
        cases hhigh
  · have hlength : left.length + 1 = cut := by
      have htake' := congrArg List.length htake
      have hdrop' := congrArg List.length hdrop
      simp only [length_take, length_append, length_drop, length_cons, length_nil]
        at htake' hdrop'
      omega
    have hunit : text[cut - 1]? = some high := by
      rw [← take_append_drop cut text, htake, ← hlength]
      simp
    have hbefore : text.take (cut - 1) = left := by
      rw [← take_append_drop cut text, htake, ← hlength]
      simp
    rw [if_pos (by rw [hunit]; exact hhigh), hbefore]
    exact hleft

/-- What is behind a cut is well formed, if the cut steps forward from the middle of a pair. -/
theorem isWellFormed_drop_stepForward {start : ℕ} (h : text.isWellFormed) :
    isWellFormed (text.drop (if text[start]?.any isLowSurrogate then start + 1 else start)) := by
  have hsplit : isWellFormed (text.take start ++ text.drop start) := by rwa [take_append_drop]
  rcases isWellFormed_of_append hsplit with ⟨-, hright⟩ |
    ⟨left, high, low, right, -, hdrop, -, hlow, -, hright⟩
  · split
    case isFalse => exact hright
    case isTrue hfirst =>
      obtain ⟨unit, hunit, hlow⟩ := (Option.any_eq_true _ _).1 hfirst
      obtain ⟨hlt, heq⟩ := List.getElem?_eq_some_iff.1 hunit
      rw [drop_eq_getElem_cons hlt, heq] at hright
      rw [isLowSurrogate_of_isWellFormed_cons hright] at hlow
      cases hlow
  · have hunit : text[start]? = some low := by
      rw [← head?_drop, hdrop, head?_cons]
    have hbehind : text.drop (start + 1) = right := by
      rw [← tail_drop, hdrop, tail_cons]
    rw [if_pos (by rw [hunit]; exact hlow), hbehind]
    exact hright

theorem cuts_atEnd : Cuts TRUNCATION_MARKER IsCutAtEnd fun text cut =>
    let cut := if text[cut - 1]?.any isHighSurrogate then cut - 1 else cut
    text.take cut ++ TRUNCATION_MARKER where
  isCutOf text room := ⟨_, take_prefix _ _, rfl⟩
  length_le text room hroom := by
    rw [length_append, length_take]
    split <;> omega
  le_length text room hroom := by
    rw [length_append, length_take]
    split <;> omega
  wellFormed text room h := isWellFormed_append (isWellFormed_take_stepBack h) (by decide)

theorem cuts_atStart : Cuts KEEP_END_TRUNCATION_MARKER IsCutAtStart fun text kept =>
    let start := text.length - kept
    let start := if text[start]?.any isLowSurrogate then start + 1 else start
    KEEP_END_TRUNCATION_MARKER ++ text.drop start where
  isCutOf text room := ⟨_, drop_suffix _ _, rfl⟩
  length_le text room hroom := by
    rw [length_append, length_drop]
    split <;> omega
  le_length text room hroom := by
    rw [length_append, length_drop]
    split <;> omega
  wellFormed text room h := isWellFormed_append (by decide) (isWellFormed_drop_stepForward h)

theorem stableBound_truncateReasonText :
    StableBound TRUNCATION_MARKER IsCutAtEnd truncateReasonText := by
  have hmarker : ∀ unit ∈ TRUNCATION_MARKER, isHighSurrogate unit = false ∧
    isLowSurrogate unit = false :=
    forall_mem_iff_getElem.2 (by decide)
  exact stableBound_truncateTo cuts_atEnd (fun text => ⟨[], nil_prefix, rfl⟩) fun n =>
    isWellFormed_of_forall fun unit hunit => hmarker unit (mem_of_mem_take hunit)

theorem stableBound_truncateReasonTextKeepEnd :
    StableBound KEEP_END_TRUNCATION_MARKER IsCutAtStart truncateReasonTextKeepEnd := by
  have hmarker : ∀ unit ∈ KEEP_END_TRUNCATION_MARKER, isHighSurrogate unit = false ∧
    isLowSurrogate unit = false :=
    forall_mem_iff_getElem.2 (by decide)
  exact stableBound_truncateTo cuts_atStart (fun text => ⟨[], nil_suffix, (append_nil _).symm⟩) fun n =>
    isWellFormed_of_forall fun unit hunit => hmarker unit (mem_of_mem_take hunit)

/-- Both truncations are stable bounds, whatever the text and the bound. -/
theorem truncation_stable :
    StableBound TRUNCATION_MARKER IsCutAtEnd truncateReasonText ∧
      StableBound KEEP_END_TRUNCATION_MARKER IsCutAtStart truncateReasonTextKeepEnd :=
  ⟨stableBound_truncateReasonText, stableBound_truncateReasonTextKeepEnd⟩

/-- The pair at the cut is left out as a whole. -/
example : truncateReasonText (js "ab😀defghijklmnop") 16 = js "ab… (truncated)" := by decide

/-- What the sender of a status has clamped passes the receiver unchanged. -/
theorem boundedFreeText_clampStatusFreeText :
    boundedFreeText STATUS_FREE_TEXT_MAX (clampStatusFreeText text) = clampStatusFreeText text :=
  stableBound_truncateReasonText.idempotent text STATUS_FREE_TEXT_MAX

end Kici
