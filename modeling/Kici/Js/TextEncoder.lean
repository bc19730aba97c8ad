import Kici.Js.Number

/-!
# Bytes of texts

A text is written in UTF-8, by `Buffer`, which the models use for base64 only, and by `TextEncoder`,
whose bytes tell texts without lone surrogates apart (`JsString.encode_injective`).
-/

namespace Kici

open List Bool Char UInt16

/-!
## Bytes of strings

`Buffer.from(s).toString('base64')`: the UTF-8 bytes of a string, in base64.
-/

/-- The code points of a string; a surrogate without its pair is the replacement character. -/
def codePoints : JsString → List ℕ
  | [] => []
  | [u] => [if 0xD800 ≤ u ∧ u < 0xE000 then 0xFFFD else u.toNat]
  | u :: w :: rest =>
    if 0xD800 ≤ u ∧ u < 0xDC00 ∧ 0xDC00 ≤ w ∧ w < 0xE000 then
      (0x10000 + 0x400 * (u.toNat - 0xD800) + (w.toNat - 0xDC00)) :: codePoints rest
    else (if 0xD800 ≤ u ∧ u < 0xE000 then 0xFFFD else u.toNat) :: codePoints (w :: rest)

/-- The UTF-8 bytes of a code point. -/
def utf8Bytes (c : ℕ) : List ℕ :=
  if c < 0x80 then [c]
  else if c < 0x800 then [0xC0 + c / 0x40, 0x80 + c % 0x40]
  else if c < 0x10000 then [0xE0 + c / 0x1000, 0x80 + c / 0x40 % 0x40, 0x80 + c % 0x40]
  else [0xF0 + c / 0x40000, 0x80 + c / 0x1000 % 0x40, 0x80 + c / 0x40 % 0x40, 0x80 + c % 0x40]

/-- The base64 digit of a number below 64. -/
def base64Digit (n : ℕ) : UInt16 :=
  (if n < 26 then 0x41 + n
  else if n < 52 then 0x61 + (n - 26)
  else if n < 62 then 0x30 + (n - 52)
  else if n = 62 then 0x2B
  else 0x2F).toUInt16

/-- Bytes in base64, padded with `=`. -/
def base64 : List ℕ → JsString
  | [] => []
  | [a] => [base64Digit (a / 4), base64Digit (a % 4 * 16)] ++ js "=="
  | [a, b] => [base64Digit (a / 4), base64Digit (a % 4 * 16 + b / 16), base64Digit (b % 16 * 4)] ++
      js "="
  | a :: b :: c :: rest =>
    [base64Digit (a / 4), base64Digit (a % 4 * 16 + b / 16), base64Digit (b % 16 * 4 + c / 64),
      base64Digit (c % 64)] ++ base64 rest

/-- `Buffer.from(s).toString('base64')`. -/
def toBase64 (s : JsString) : JsString := base64 ((codePoints s).flatMap utf8Bytes)

/-!
## Texts as bytes

`TextEncoder` writes a text in UTF-8. The code units of a text stand for characters (`scalars`), a
pair of surrogates for one of them; a surrogate that is not in a pair is read as the replacement
character, so that different texts may be written alike. Texts without such surrogates are *well
formed* (`isWellFormed`): these are the texts that are written down as a list of characters
(`isWellFormed_iff`), and they are told apart by their bytes (`encode_injective`).
-/

section

variable {unit : UInt16}

namespace JsString

def isHighSurrogate (unit : UInt16) : Bool := 0xD800 ≤ unit && unit ≤ 0xDBFF

def isLowSurrogate (unit : UInt16) : Bool := 0xDC00 ≤ unit && unit ≤ 0xDFFF

/-- The character of a pair of surrogates. -/
def ofSurrogates (high low : UInt16) : Char :=
  ofNat (0x10000 + (high.toNat - 0xD800) * 0x400 + (low.toNat - 0xDC00))

/-- The characters that the code units stand for. -/
def scalars : JsString → List Char
  | [] => []
  | [unit] => if isHighSurrogate unit || isLowSurrogate unit then ['\uFFFD'] else [ofNat unit.toNat]
  | unit :: next :: rest =>
    if isHighSurrogate unit then
      if isLowSurrogate next then ofSurrogates unit next :: scalars rest
        else '\uFFFD' :: scalars (next :: rest)
    else if isLowSurrogate unit then '\uFFFD' :: scalars (next :: rest)
    else ofNat unit.toNat :: scalars (next :: rest)

/-- `s.isWellFormed()`: all surrogates are in pairs. -/
def isWellFormed : JsString → Bool
  | [] => true
  | [unit] => !isHighSurrogate unit && !isLowSurrogate unit
  | unit :: next :: rest =>
    if isHighSurrogate unit then isLowSurrogate next && isWellFormed rest
    else !isLowSurrogate unit && isWellFormed (next :: rest)

end JsString

/-- `new TextEncoder().encode(s)`. -/
def encode (s : JsString) : List UInt8 := s.scalars.flatMap String.utf8EncodeChar

open JsString

variable {s t : JsString} {cs : List Char} {c : Char}

/-! ### Characters and code units -/

/-- A character of the basic plane is one code unit, which is no surrogate; any other is a pair of
surrogates. -/
theorem codeUnits_cases (c : Char) :
    (∃ unit, codeUnits c = [unit] ∧ isHighSurrogate unit = false ∧ isLowSurrogate unit = false ∧
      Char.ofNat unit.toNat = c) ∨
    ∃ high low, codeUnits c = [high, low] ∧ isHighSurrogate high ∧ isLowSurrogate low ∧
      ofSurrogates high low = c := by
  have hvalid : c.toNat < 0xD800 ∨ 0xDFFF < c.toNat ∧ c.toNat < 0x110000 := c.valid
  have hofNat : ∀ n, n = c.toNat → Char.ofNat n = c := by
    rintro n rfl
    exact ofNat_toNat c
  by_cases hplane : c.toNat < 0x10000
  · have hnat : c.toNat.toUInt16.toNat = c.toNat := by
      rw [Nat.toUInt16_eq, toNat_ofNat']
      omega
    refine .inl ⟨_, if_pos hplane, ?_, ?_, hofNat _ hnat⟩
    · simp only [isHighSurrogate, UInt16.le_iff_toNat_le, hnat, UInt16.reduceToNat, and_eq_false_iff,
        decide_eq_false_iff_not]
      omega
    · simp only [isLowSurrogate, UInt16.le_iff_toNat_le, hnat, UInt16.reduceToNat, and_eq_false_iff,
        decide_eq_false_iff_not]
      omega
  · have hhigh : (0xD800 + (c.toNat - 0x10000) / 0x400).toUInt16.toNat = 0xD800 +
      (c.toNat - 0x10000) / 0x400 := by
      rw [Nat.toUInt16_eq, toNat_ofNat']
      omega
    have hlow : (0xDC00 + (c.toNat - 0x10000) % 0x400).toUInt16.toNat = 0xDC00 + (c.toNat - 0x10000)
      % 0x400 := by
      rw [Nat.toUInt16_eq, toNat_ofNat']
      omega
    refine .inr ⟨_, _, if_neg hplane, ?_, ?_, hofNat _ ?_⟩
    · simp only [isHighSurrogate, UInt16.le_iff_toNat_le, hhigh, UInt16.reduceToNat, and_eq_true,
        decide_eq_true_eq]
      omega
    · simp only [isLowSurrogate, UInt16.le_iff_toNat_le, hlow, UInt16.reduceToNat, and_eq_true,
        decide_eq_true_eq]
      omega
    · rw [hhigh, hlow]
      omega

theorem scalars_cons (hhigh : isHighSurrogate unit = false) (hlow : isLowSurrogate unit = false)
    (s : JsString) : scalars (unit :: s) = Char.ofNat unit.toNat :: s.scalars := by
  cases s with
  | nil | cons => simp [scalars, hhigh, hlow]

theorem scalars_codeUnits_append (c : Char) (s : JsString) :
    scalars (codeUnits c ++ s) = c :: s.scalars := by
  rcases codeUnits_cases c with ⟨unit, hunits, hhigh, hlow, hc⟩ | ⟨high, low, hunits, hhigh, hlow, hc⟩
  · rw [hunits, singleton_append, scalars_cons hhigh hlow, hc]
  · rw [hunits]
    simp [scalars, hhigh, hlow, hc]

/-- The code units of characters stand for these. -/
theorem scalars_flatMap_codeUnits (cs : List Char) : scalars (cs.flatMap codeUnits) = cs := by
  induction cs with
  | nil => rfl
  | cons c cs ih => rw [flatMap_cons, scalars_codeUnits_append, ih]

/-! ### Well formed texts -/

theorem isWellFormed_cons (hhigh : isHighSurrogate unit = false)
    (hlow : isLowSurrogate unit = false) (s : JsString) : isWellFormed (unit :: s) = s.isWellFormed := by
  cases s with
  | nil | cons => simp [isWellFormed, hhigh, hlow]

theorem isWellFormed_flatMap_codeUnits (cs : List Char) : isWellFormed (cs.flatMap codeUnits) := by
  induction cs with
  | nil => rfl
  | cons c cs ih =>
    rw [flatMap_cons]
    rcases codeUnits_cases c with ⟨unit, hunits, hhigh, hlow, -⟩ | ⟨high, low, hunits, hhigh, hlow, -⟩
    · rw [hunits, singleton_append, isWellFormed_cons hhigh hlow, ih]
    · rw [hunits]
      simp [isWellFormed, hhigh, hlow, ih]

theorem toNat_ofNat_of_isValidChar {n : ℕ} (h : n.isValidChar) : (Char.ofNat n).toNat = n := by
  rw [Char.ofNat, dif_pos h]
  rfl

/-- A code unit that is no surrogate is that of its character. -/
theorem codeUnits_ofNat (hhigh : isHighSurrogate unit = false) (hlow : isLowSurrogate unit = false) :
    codeUnits (ofNat unit.toNat) = [unit] := by
  have hlt := unit.toNat_lt
  have hvalid : unit.toNat.isValidChar := by
    simp only [isHighSurrogate, isLowSurrogate, UInt16.le_iff_toNat_le, UInt16.reduceToNat,
      and_eq_false_iff, decide_eq_false_iff_not] at hhigh hlow
    simp only [Nat.isValidChar]
    omega
  have hnat : (Char.ofNat unit.toNat).toNat = unit.toNat := toNat_ofNat_of_isValidChar hvalid
  rw [codeUnits, hnat, if_pos (by omega)]
  simp

/-- A pair of surrogates is that of its character. -/
theorem codeUnits_ofSurrogates {high low : UInt16} (hhigh : isHighSurrogate high)
    (hlow : isLowSurrogate low) : codeUnits (ofSurrogates high low) = [high, low] := by
  simp only [isHighSurrogate, isLowSurrogate, UInt16.le_iff_toNat_le, UInt16.reduceToNat, and_eq_true,
    decide_eq_true_eq] at hhigh hlow
  have hvalid : (0x10000 + (high.toNat - 0xD800) * 0x400 + (low.toNat - 0xDC00)).isValidChar := by
    simp only [Nat.isValidChar]
    omega
  have hnat := toNat_ofNat_of_isValidChar hvalid
  rw [codeUnits, ofSurrogates, hnat, if_neg (by omega)]
  have hunits : ∀ unit : UInt16, ∀ n, n = unit.toNat → n.toUInt16 = unit := by
    rintro unit n rfl
    simp
  rw [hunits high _ (by omega), hunits low _ (by omega)]

/-- A text is well formed if and only if it is written down as characters. -/
theorem isWellFormed_iff : s.isWellFormed ↔ ∃ cs : List Char, s = cs.flatMap codeUnits := by
  refine ⟨fun h => ?_, fun ⟨cs, hcs⟩ => hcs ▸ isWellFormed_flatMap_codeUnits cs⟩
  induction s using isWellFormed.induct with
  | case1 => exact ⟨[], rfl⟩
  | case2 unit =>
    simp only [isWellFormed, and_eq_true, not_eq_true'] at h
    exact ⟨[ofNat unit.toNat], by simp [codeUnits_ofNat h.1 h.2]⟩
  | case3 unit next rest hhigh ih =>
    simp only [isWellFormed, hhigh, if_true, and_eq_true] at h
    obtain ⟨cs, rfl⟩ := ih h.2
    exact ⟨ofSurrogates unit next :: cs, by simp [codeUnits_ofSurrogates hhigh h.1]⟩
  | case4 unit next rest hhigh ih =>
    rw [not_eq_true] at hhigh
    simp only [isWellFormed, hhigh, false_eq_true, if_false, and_eq_true, not_eq_true'] at h
    obtain ⟨cs, hcs⟩ := ih h.2
    exact ⟨ofNat unit.toNat :: cs, by rw [hcs, flatMap_cons, codeUnits_ofNat hhigh h.1]; rfl⟩

/-- A text without surrogates is well formed. -/
theorem isWellFormed_of_forall
    (h : ∀ unit ∈ s, isHighSurrogate unit = false ∧ isLowSurrogate unit = false) :
    s.isWellFormed := by
  induction s with
  | nil => rfl
  | cons unit s ih =>
    obtain ⟨hhigh, hlow⟩ := h unit mem_cons_self
    rw [isWellFormed_cons hhigh hlow, ih fun other hother => h other (mem_cons_of_mem _ hother)]

theorem isHighSurrogate_of_isLowSurrogate (h : isLowSurrogate unit) :
    isHighSurrogate unit = false := by
  simp only [isHighSurrogate, isLowSurrogate, UInt16.le_iff_toNat_le, UInt16.reduceToNat, and_eq_true,
    and_eq_false_iff, decide_eq_true_eq, decide_eq_false_iff_not] at h ⊢
  omega

/-- A well formed text does not start with the second half of a pair. -/
theorem isLowSurrogate_of_isWellFormed_cons (h : isWellFormed (unit :: s)) :
    isLowSurrogate unit = false := by
  by_contra hlow
  rw [not_eq_false] at hlow
  have hhigh := isHighSurrogate_of_isLowSurrogate hlow
  cases s with
  | nil => simp [isWellFormed, hlow] at h
  | cons next rest => simp [isWellFormed, hhigh, hlow] at h

theorem isWellFormed_append (hs : s.isWellFormed) (ht : t.isWellFormed) :
    (s ++ t).isWellFormed := by
  obtain ⟨cs, rfl⟩ := isWellFormed_iff.1 hs
  obtain ⟨ds, rfl⟩ := isWellFormed_iff.1 ht
  exact isWellFormed_iff.2 ⟨cs ++ ds, flatMap_append.symm⟩

/-- A cut through a well formed text runs between two characters, or through a pair of surrogates. -/
theorem isWellFormed_of_append (h : (s ++ t).isWellFormed) :
    (s.isWellFormed ∧ t.isWellFormed) ∨
    ∃ left high low right, s = left ++ [high] ∧ t = low :: right ∧ isHighSurrogate high ∧
      isLowSurrogate low ∧ isWellFormed left ∧ isWellFormed right := by
  obtain ⟨cs, hcs⟩ := isWellFormed_iff.1 h
  clear h
  induction cs generalizing s with
  | nil =>
    obtain ⟨rfl, rfl⟩ := append_eq_nil_iff.1 hcs
    exact .inl ⟨rfl, rfl⟩
  | cons c cs ih =>
    have hc : isWellFormed (codeUnits c) := isWellFormed_iff.2 ⟨[c], by simp⟩
    have hrest : isWellFormed (cs.flatMap codeUnits) := isWellFormed_iff.2 ⟨cs, rfl⟩
    rw [flatMap_cons] at hcs
    obtain ⟨tail, rfl, htail⟩ | ⟨tail, htail, rfl⟩ := append_eq_append_iff.1 hcs.symm
    -- The cut is after the first character.
    · rcases ih htail.symm with ⟨hleft, hright⟩ |
        ⟨left, high, low, right, rfl, rfl, hhigh, hlow, hleft, hright⟩
      · exact .inl ⟨isWellFormed_append hc hleft, hright⟩
      · exact .inr ⟨codeUnits c ++ left, high, low, right, by rw [append_assoc], rfl, hhigh, hlow,
          isWellFormed_append hc hleft, hright⟩
    -- The cut is at the first character.
    · rcases codeUnits_cases c with ⟨unit, hunits, -⟩ | ⟨high, low, hunits, hhigh, hlow, -⟩
      · rw [hunits] at htail hc
        rcases append_eq_singleton_iff.1 htail.symm with ⟨rfl, rfl⟩ | ⟨rfl, rfl⟩
        · exact .inl ⟨rfl, isWellFormed_append hc hrest⟩
        · exact .inl ⟨hc, hrest⟩
      · rw [hunits] at htail hc
        rcases append_eq_cons_iff.1 htail.symm with ⟨rfl, rfl⟩ | ⟨left, rfl, hlow'⟩
        · exact .inl ⟨rfl, isWellFormed_append hc hrest⟩
        · rcases append_eq_singleton_iff.1 hlow'.symm with ⟨rfl, rfl⟩ | ⟨rfl, rfl⟩
          · exact .inr ⟨[], high, low, _, rfl, rfl, hhigh, hlow, rfl, hrest⟩
          · exact .inl ⟨hc, hrest⟩

/-- A well formed text does not end with the first half of a pair. -/
theorem isHighSurrogate_of_isWellFormed_concat (h : isWellFormed (s ++ [unit])) :
    isHighSurrogate unit = false := by
  rcases isWellFormed_of_append h with ⟨-, hunit⟩ | ⟨left, high, low, right, -, hunit, -, hlow, -⟩
  · simp only [isWellFormed, and_eq_true, not_eq_true'] at hunit
    exact hunit.1
  · obtain ⟨rfl, -⟩ := List.cons.inj hunit
    exact isHighSurrogate_of_isLowSurrogate hlow

/-! ### Bytes -/

theorem encode_flatMap_codeUnits (cs : List Char) :
    encode (cs.flatMap codeUnits) = cs.flatMap String.utf8EncodeChar := by
  rw [encode, scalars_flatMap_codeUnits]

/-- The bytes of characters tell these apart. -/
theorem flatMap_utf8EncodeChar_injective {ds : List Char}
    (h : cs.flatMap String.utf8EncodeChar = ds.flatMap String.utf8EncodeChar) : cs = ds := by
  have hbytes : cs.utf8Encode = ds.utf8Encode := congrArg List.toByteArray h
  have hdecode := congrArg ByteArray.utf8Decode? hbytes
  rw [utf8Decode?_utf8Encode, utf8Decode?_utf8Encode] at hdecode
  exact congrArg Array.toList (Option.some.inj hdecode)

/-- Well formed texts have bytes of their own. -/
theorem encode_injective (hs : s.isWellFormed) (ht : t.isWellFormed) (h : encode s = encode t) :
    s = t := by
  obtain ⟨cs, rfl⟩ := isWellFormed_iff.1 hs
  obtain ⟨ds, rfl⟩ := isWellFormed_iff.1 ht
  rw [encode_flatMap_codeUnits, encode_flatMap_codeUnits] at h
  rw [flatMap_utf8EncodeChar_injective h]

/-- A text that is not well formed has the bytes of another. -/
example : encode [0xD800] = encode [0xFFFD] := by decide

end

end Kici
