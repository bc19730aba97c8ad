import Kici.Js.Str
import Mathlib.Algebra.Order.Ring.Int
import Mathlib.Data.Nat.Bitwise

/-!
# Numbers of JavaScript

Natural numbers in texts (`js_toString_injective`), and the operators on the 32 bits of a number
(`toUint32_bitOr`).
-/

namespace Kici

open Nat List Char

/-!
## Numbers in texts

A natural number is written with its decimal digits, each of which is one code unit, so that a text
determines the number (`js_toString_injective`). `parseInt` reads an integer from the front of a
text.
-/

theorem codeUnits_of_isDigit {c : Char} (h : c.isDigit) : codeUnits c = [c.toNat.toUInt16] ∧
    c.toNat < 128 := by
  rw [Char.isDigit, Bool.and_eq_true, decide_eq_true_eq, decide_eq_true_eq] at h
  have hle : c.toNat ≤ 57 := h.2
  exact ⟨if_pos (by omega), by omega⟩

/-- The characters of digits are those that their code units stand for. -/
theorem map_ofNat_flatMap_codeUnits {digits : List Char} (h : ∀ c ∈ digits, c.isDigit) :
    (digits.flatMap codeUnits).map (fun unit => ofNat unit.toNat) = digits := by
  induction digits with
  | nil => rfl
  | cons c digits ih =>
    obtain ⟨hunits, hlt⟩ := codeUnits_of_isDigit (h c mem_cons_self)
    have hback : ofNat c.toNat.toUInt16.toNat = c := by
      have hnat : c.toNat.toUInt16.toNat = c.toNat := by
        rw [toUInt16_eq, UInt16.toNat_ofNat']
        omega
      rw [hnat, ofNat_toNat]
    rw [flatMap_cons, hunits, map_append, ih fun d hd => h d (mem_cons_of_mem _ hd)]
    exact congrArg (· :: digits) hback

/-- The code units of a number stand for its digits. -/
theorem map_ofNat_js_toString (n : ℕ) :
    (js (toString n)).map (fun unit => ofNat unit.toNat) = toDigits 10 n := by
  have hlist : (toString n).toList = toDigits 10 n := toList_repr
  rw [js, hlist]
  exact map_ofNat_flatMap_codeUnits fun c hc => isDigit_of_mem_toDigits (by decide) le_rfl hc

theorem js_toString_injective {m n : ℕ} (h : js (toString m) = js (toString n)) : m = n := by
  rw [← ofDigitChars_ten_toDigits (n := m), ← map_ofNat_js_toString, h, map_ofNat_js_toString,
    ofDigitChars_ten_toDigits]

theorem isDigit_of_mem_js_toString {n : ℕ} {unit : UInt16} (h : unit ∈ js (toString n)) :
    (ofNat unit.toNat).isDigit := by
  have hmem := mem_map_of_mem (f := fun unit => ofNat unit.toNat) h
  rw [map_ofNat_js_toString] at hmem
  exact isDigit_of_mem_toDigits (by decide) le_rfl hmem

theorem js_toString_ne_nil (n : ℕ) : js (toString n) ≠ [] := by
  intro h
  have hmap := map_ofNat_js_toString n
  rw [h, map_nil] at hmap
  exact toDigits_ne_nil hmap.symm

/-! ### Reading -/

def isDecimalDigit (c : UInt16) : Bool := 0x30 ≤ c && c ≤ 0x39

/-- The number of the digits at the front of a text, if there are any. -/
def parseDigits (s : JsString) : Option ℕ :=
  if s.takeWhile isDecimalDigit = [] then none
  else some ((s.takeWhile isDecimalDigit).foldl (fun n c => 10 * n + (c.toNat - 0x30)) 0)

/-- `parseInt(s, 10)`; `none` is `NaN`. -/
def parseInt (s : JsString) : Option ℤ :=
  match s.dropWhile JsString.isWhiteSpace with
  | 0x2D :: digits => (parseDigits digits).map fun n => -n
  | 0x2B :: digits => (parseDigits digits).map fun n => n
  | digits => (parseDigits digits).map fun n => n

/-!
## Bitwise operators of JavaScript

The operators take their operands modulo `2 ^ 32`: `>>>` gives the unsigned number of the 32 bits
(`toUint32`), the others the signed one (`toInt32`), and a shift is by its count modulo 32. What the
operators give is told by the 32 bits (`toUint32_shiftLeft`, `toUint32_bitOr`).
-/

/-- The 32 bits of a number, as an unsigned number. -/
def toUint32 (x : ℤ) : ℕ := (x % 2 ^ 32).toNat

/-- The 32 bits of a number, as a signed number. -/
def toInt32 (x : ℤ) : ℤ := if toUint32 x < 2 ^ 31 then toUint32 x else toUint32 x - 2 ^ 32

/-- `x << n`. -/
def shiftLeft (x : ℤ) (n : ℕ) : ℤ := toInt32 (toUint32 x * 2 ^ (n % 32) : ℕ)

/-- `x | y`. -/
def bitOr (x y : ℤ) : ℤ := toInt32 (toUint32 x ||| toUint32 y : ℕ)

/-- `x >>> n`. -/
def shiftRightUnsigned (x : ℤ) (n : ℕ) : ℕ := toUint32 x >>> (n % 32)

theorem toUint32_lt (x : ℤ) : toUint32 x < 2 ^ 32 := by
  rw [toUint32]
  omega

theorem toUint32_natCast (n : ℕ) : toUint32 n = n % 2 ^ 32 := by
  rw [toUint32]
  omega

theorem toUint32_of_lt {n : ℕ} (h : n < 2 ^ 32) : toUint32 n = n := by
  rw [toUint32_natCast, mod_eq_of_lt h]

theorem toUint32_toInt32 (x : ℤ) : toUint32 (toInt32 x) = toUint32 x := by
  have hlt := toUint32_lt x
  rw [toInt32]
  split
  · exact toUint32_of_lt hlt
  · rw [toUint32]
    omega

theorem toUint32_bitOr (x y : ℤ) : toUint32 (bitOr x y) = toUint32 x ||| toUint32 y := by
  rw [bitOr, toUint32_toInt32]
  exact toUint32_of_lt (or_lt_two_pow (toUint32_lt x) (toUint32_lt y))

theorem shiftRightUnsigned_zero (x : ℤ) : shiftRightUnsigned x 0 = toUint32 x := rfl

end Kici
