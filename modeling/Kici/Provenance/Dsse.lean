import Kici.Foundation.Escape
import Kici.Js.TextEncoder

/-!
# The bytes of a signed envelope

What is signed of an envelope is one sequence of bytes, the *pre-authentication encoding* of its
payload type and its payload (`dssePae`): each of them with its length in front, in decimal digits.
A type may hold spaces and digits itself; it is the length that says where it ends, and this counts
the bytes that are written, not the characters of the type. So the bytes determine the type and the
payload (`dssePae_injective`): a signature is over one envelope.
-/

namespace Kici.Provenance

open List Foundation Nat

/-- `DSSEv1 <length of the type> <type> <length of the payload> <payload>`. -/
def dssePae (payloadType : JsString) (payload : List UInt8) : List UInt8 :=
  let typeBytes := encode payloadType
  let header := encode (js "DSSEv1 " ++ js (toString typeBytes.length) ++ " " ++ payloadType ++ " " ++
    js (toString payload.length) ++ " ")
  header ++ payload

/-- What the header writes for a space. -/
def space : UInt8 := 0x20

/-- The bytes of a number: its digits. -/
def digitBytes (n : ℕ) : List UInt8 := (toDigits 10 n).flatMap String.utf8EncodeChar

variable {payloadType payloadType' : JsString} {payload payload' : List UInt8} {m n : ℕ}
  {rest rest' : List UInt8}

/-- No digit is written as a space. -/
theorem space_notMem_digitBytes (n : ℕ) : space ∉ digitBytes n := by
  intro h
  obtain ⟨c, hc, hspace⟩ := mem_flatMap.1 h
  have hdigit := isDigit_of_mem_toDigits (by decide) le_rfl hc
  rw [Char.isDigit, Bool.and_eq_true, decide_eq_true_eq, decide_eq_true_eq] at hdigit
  have hlow : 48 ≤ c.val.toNat := hdigit.1
  have hhigh : c.val.toNat ≤ 57 := hdigit.2
  rw [String.utf8EncodeChar, if_pos (by omega), mem_singleton] at hspace
  have hnat := congrArg UInt8.toNat hspace
  rw [space, UInt8.toNat_ofNat'] at hnat
  have h32 : UInt8.toNat 0x20 = 32 := rfl
  omega

theorem digitBytes_injective (h : digitBytes m = digitBytes n) : m = n := by
  have hdigits := flatMap_utf8EncodeChar_injective h
  rw [← ofDigitChars_ten_toDigits (n := m), hdigits, ofDigitChars_ten_toDigits]

/-- A number that ends with a space is read off the front. -/
theorem digitBytes_append_inj (h : digitBytes m ++ space :: rest = digitBytes n ++ space :: rest') :
    m = n ∧ rest = rest' := by
  obtain ⟨hdigits, hrest⟩ := eq_of_append_sep (space_notMem_digitBytes m) (space_notMem_digitBytes n) h
  exact ⟨digitBytes_injective hdigits, hrest⟩

/-- The parts of the encoding. -/
theorem dssePae_eq (h : payloadType.isWellFormed) (payload : List UInt8) :
    dssePae payloadType payload = "DSSEv1 ".toList.flatMap String.utf8EncodeChar ++
      (digitBytes (encode payloadType).length ++ space ::
        (encode payloadType ++ space :: (digitBytes payload.length ++ space :: payload))) := by
  obtain ⟨cs, rfl⟩ := isWellFormed_iff.1 h
  have hheader : js "DSSEv1 " ++ js (toString (encode (cs.flatMap codeUnits)).length) ++ js " " ++
      cs.flatMap codeUnits ++ js " " ++ js (toString payload.length) ++ js " " =
      ("DSSEv1 ".toList ++ toDigits 10 (encode (cs.flatMap codeUnits)).length ++ " ".toList ++
        cs ++ " ".toList ++ toDigits 10 payload.length ++ " ".toList).flatMap codeUnits := by
    have hlist : ∀ n : ℕ, (toString n).toList = toDigits 10 n := fun n => toList_repr
    simp only [js, hlist, flatMap_append]
  have hspace : " ".toList.flatMap String.utf8EncodeChar = [space] := by decide
  dsimp only [dssePae]
  rw [hheader, encode_flatMap_codeUnits (_ ++ " ".toList)]
  simp only [encode_flatMap_codeUnits, flatMap_append, hspace, digitBytes, append_assoc,
    cons_append, nil_append]

/-- The encoding determines the payload type and the payload. -/
theorem dssePae_injective (payloadType payloadType' : JsString) (payload payload' : List UInt8)
    (htype : payloadType.isWellFormed) (htype' : payloadType'.isWellFormed)
    (h : dssePae payloadType payload = dssePae payloadType' payload') :
    payloadType = payloadType' ∧ payload = payload' := by
  rw [dssePae_eq htype, dssePae_eq htype'] at h
  -- The first length says where the type ends, the second number where the payload begins.
  obtain ⟨hlength, hafter⟩ := digitBytes_append_inj (append_cancel_left h)
  obtain ⟨hbytes, hpayload⟩ := append_inj hafter hlength
  obtain ⟨-, heq⟩ := digitBytes_append_inj (List.cons.inj hpayload).2
  exact ⟨encode_injective htype htype' hbytes, heq⟩

/-- The encoding of a statement with a space and a digit in its type. -/
theorem dssePae_injective_inToto :
    js "application/vnd.in-toto 1" = js "application/vnd.in-toto 1" ∧
    [(0x7B : UInt8), 0x7D] = [0x7B, 0x7D] :=
  dssePae_injective (js "application/vnd.in-toto 1") (js "application/vnd.in-toto 1")
    [0x7B, 0x7D] [0x7B, 0x7D]
    (by decide) (by decide) rfl

end Kici.Provenance
