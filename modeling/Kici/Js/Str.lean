import Mathlib.Data.List.Infix

/-!
# Strings of the JavaScript runtime

A string is the list of its UTF-16 code units, so that lengths, slices and comparisons
are those of the source. A literal of Lean stands for the string of its characters.
-/

namespace Kici

/-- A string: its UTF-16 code units. -/
abbrev JsString := List UInt16

instance : LawfulBEq JsString := inferInstanceAs (LawfulBEq (List UInt16))

/-- The code units of a character: one, or a surrogate pair. -/
def codeUnits (c : Char) : JsString :=
  if c.toNat < 0x10000 then [c.toNat.toUInt16]
  else [(0xD800 + (c.toNat - 0x10000) / 0x400).toUInt16,
    (0xDC00 + (c.toNat - 0x10000) % 0x400).toUInt16]

/-- The string of a literal. -/
def js (s : String) : JsString := s.toList.flatMap codeUnits

instance : Coe String JsString := ⟨js⟩

namespace JsString

/-- `strings.join(sep)`. -/
def join (strings : List JsString) (sep : JsString) : JsString := sep.intercalate strings

/-- `s.includes(needle)`. -/
def includes (s needle : JsString) : Bool := needle <:+: s

/-- `s.startsWith(start)`. -/
def startsWith (s start : JsString) : Bool := start <+: s

/-- `s.endsWith(end)`. -/
def endsWith (s last : JsString) : Bool := last <:+ s

/-- The white space and the line terminators that `s.trim()` takes off. -/
def isWhiteSpace (c : UInt16) : Bool :=
  (0x9 ≤ c && c ≤ 0xD) || (0x2000 ≤ c && c ≤ 0x200A) ||
    c ∈ [0x20, 0xA0, 0x1680, 0x2028, 0x2029, 0x202F, 0x205F, 0x3000, 0xFEFF]

/-- `n.toString(16)`. -/
def hex (n : ℕ) : JsString := (Nat.toDigits 16 n).flatMap codeUnits

end JsString

end Kici
