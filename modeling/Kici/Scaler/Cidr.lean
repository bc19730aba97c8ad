import Kici.Js.Number

/-!
# Blocks of addresses

`parseCidr` reads a block of IPv4 addresses, with the first and the last address to hand out, by
operations on 32 bits (`cidrRange`): a shift by 32 is none, and an address before the first of all
addresses, or after the last, wraps around.

The addresses to hand out are those strictly between the network and the broadcast address of the
block, for a block whose address is its network address (`CidrRange.exact_of_aligned`), unless its
prefix length is 0, or 32 with the first or the last address of all. An address determines its
number (`numberToIp_injective`).
-/

namespace Kici.Scaler

open Nat

variable {n p : ℕ}

/-- A block, with the first and the last address to hand out. -/
structure CidrRange where
  networkAddress : ℕ
  prefixLength : ℕ
  startIp : ℕ
  endIp : ℕ
  deriving DecidableEq

def invalidIp (ip : JsString) : JsString := js "Invalid IP address: \"" ++ ip ++ js "\""

def parseOctet (ip part : JsString) : Except JsString ℤ :=
  match parseInt part with
  | none => .error (invalidIp ip)
  | some octet => if octet < 0 || octet > 255 then .error (invalidIp ip) else .ok octet

/-- The number of an address. -/
def ipToNumber (ip : JsString) : Except JsString ℕ :=
  if (ip.splitOn 0x2E).length ≠ 4 then .error (invalidIp ip)
  else ((ip.splitOn 0x2E).mapM (parseOctet ip)).map fun octets =>
    shiftRightUnsigned (octets.foldl (fun result octet => bitOr (shiftLeft result 8) octet) 0) 0

def octetsOf (n : ℕ) : List ℕ := [24, 16, 8, 0].map fun k => shiftRightUnsigned n k &&& 0xff

def numberToIp (n : ℕ) : JsString :=
  JsString.join ((octetsOf n).map fun octet => js (toString octet)) (js ".")

/-- The range of a block of a prefix length that is at most 32. -/
def cidrRange (networkAddress prefixLength : ℕ) : CidrRange where
  networkAddress
  prefixLength
  startIp := shiftRightUnsigned (networkAddress + 1) 0
  endIp := shiftRightUnsigned
    (shiftRightUnsigned (bitOr networkAddress (shiftLeft 1 (32 - prefixLength) - 1)) 0 - 1) 0

def parseCidr (cidr : JsString) : Except JsString CidrRange :=
  match cidr.splitOn 0x2F with
  | [ip, bits] =>
    match parseInt bits with
    | none => .error (js "Invalid CIDR prefix length: " ++ bits)
    | some prefixLength =>
      if prefixLength < 0 || prefixLength > 32 then .error (js "Invalid CIDR prefix length: " ++ bits)
      else (ipToNumber ip).map fun networkAddress => cidrRange networkAddress prefixLength.toNat
  | _ => .error (js "Invalid CIDR notation: \"" ++ cidr ++ js "\"")

/-! ## Addresses and their numbers -/

theorem octetsOf_eq {n : ℕ} (h : n < 2 ^ 32) :
    octetsOf n = [n / 2 ^ 24 % 2 ^ 8, n / 2 ^ 16 % 2 ^ 8, n / 2 ^ 8 % 2 ^ 8, n % 2 ^ 8] := by
  have hmask : ∀ m : ℕ, m &&& 0xff = m % 2 ^ 8 := fun m => and_two_pow_sub_one_eq_mod m 8
  simp [octetsOf, shiftRightUnsigned, toUint32_of_lt h, hmask, shiftRight_eq_div_pow]

theorem splitOn_numberToIp (n : ℕ) :
    (numberToIp n).splitOn 0x2E = (octetsOf n).map fun octet => js (toString octet) := by
  have hdot : js "." = [0x2E] := by decide
  rw [numberToIp, JsString.join, hdot]
  refine List.splitOn_intercalate _ (fun l hl hmem => ?_) (by simp [octetsOf])
  obtain ⟨octet, -, rfl⟩ := List.mem_map.1 hl
  exact absurd (isDigit_of_mem_js_toString hmem) (by decide)

theorem numberToIp_injective {m n : ℕ} (hm : m < 2 ^ 32) (hn : n < 2 ^ 32)
    (h : numberToIp m = numberToIp n) : m = n := by
  have hsplit := congrArg (List.splitOn 0x2E) h
  rw [splitOn_numberToIp, splitOn_numberToIp] at hsplit
  have hoctets : octetsOf m = octetsOf n :=
    List.map_injective_iff.2 (fun _ _ => js_toString_injective) hsplit
  rw [octetsOf_eq hm, octetsOf_eq hn] at hoctets
  simp only [List.cons.injEq, and_true] at hoctets
  omega

theorem ipToNumber_lt {ip : JsString} {n : ℕ} (h : ipToNumber ip = .ok n) : n < 2 ^ 32 := by
  rw [ipToNumber] at h
  split at h
  · cases h
  · cases hoctets : (ip.splitOn 0x2E).mapM (parseOctet ip) with
    | error e =>
      rw [hoctets] at h
      cases h
    | ok octets =>
      rw [hoctets] at h
      rw [← Except.ok.inj h]
      exact toUint32_lt _

theorem parseCidr_endIp_lt {cidr : JsString} {range : CidrRange} (h : parseCidr cidr = .ok range) :
    range.endIp < 2 ^ 32 := by
  rw [parseCidr] at h
  split at h
  next ip bits _ =>
    split at h
    · cases h
    next prefixLength _ =>
      split at h
      · cases h
      · cases hip : ipToNumber ip with
        | error e =>
          rw [hip] at h
          cases h
        | ok networkAddress =>
          rw [hip] at h
          rw [← Except.ok.inj h]
          exact toUint32_lt _
  · cases h

/-! ## Ranges -/

namespace CidrRange

variable (range : CidrRange)

/-- The number of addresses of the block. -/
def size : ℕ := 2 ^ (32 - range.prefixLength)

/-- The network address of the block that the address lies in. -/
def network : ℕ := range.networkAddress - range.networkAddress % range.size

def broadcast : ℕ := range.network + range.size - 1

/-- The addresses of the block that may be used: those strictly between its ends, but for the
gateway's. -/
def Usable (gatewayNum n : ℕ) : Prop := range.network < n ∧ n < range.broadcast ∧ n ≠ gatewayNum

/-- The range is that of the addresses that may be used. -/
def Exact (gatewayNum : ℕ) : Prop :=
  ∀ n, n ≠ gatewayNum → (range.startIp ≤ n ∧ n ≤ range.endIp ↔ range.network < n ∧ n < range.broadcast)

end CidrRange

theorem toUint32_mask : ∀ hostBits < 32, toUint32 (shiftLeft 1 hostBits - 1) = 2 ^ hostBits -
    1 := by decide

theorem cidrRange_startIp (h : n + 1 < 2 ^ 32) : (cidrRange n p).startIp = n + 1 := toUint32_of_lt h

/-- The last address of a block whose address is its network address. -/
theorem cidrRange_endIp (hn : n < 2 ^ 32) (hp : 0 < p) (halign : n % 2 ^ (32 - p) = 0)
    (hpos : 0 < n + (2 ^ (32 - p) - 1)) : (cidrRange n p).endIp = n + (2 ^ (32 - p) - 1) - 1 := by
  have hmask := toUint32_mask (32 - p) (by omega)
  have hsize : 0 < 2 ^ (32 - p) := Nat.two_pow_pos _
  have hbroadcast : n ||| 2 ^ (32 - p) - 1 = n + (2 ^ (32 - p) - 1) := by
    obtain ⟨k, hk⟩ := dvd_of_mod_eq_zero halign
    rw [hk, two_pow_add_eq_or_of_lt (by omega)]
  have hlt : n + (2 ^ (32 - p) - 1) < 2 ^ 32 := by
    rw [← hbroadcast]
    have hpow : 2 ^ (32 - p) ≤ 2 ^ 32 := Nat.pow_le_pow_right Nat.two_pos (sub_le 32 p)
    exact or_lt_two_pow hn (by omega)
  have hend : shiftRightUnsigned (bitOr n (shiftLeft 1 (32 - p) - 1)) 0 = n + (2 ^ (32 - p) - 1) := by
    rw [shiftRightUnsigned_zero, toUint32_bitOr, toUint32_of_lt hn, hmask, hbroadcast]
  have hsub : ((n + (2 ^ (32 - p) - 1) : ℕ) : ℤ) - 1 = ((n + (2 ^ (32 - p) - 1) - 1 : ℕ) : ℤ) := by omega
  rw [cidrRange, hend, hsub]
  exact toUint32_of_lt (by omega)

/-- A block whose address is its network address, of a prefix length that is not 0, nor 32 at an end
of all addresses. -/
theorem exact_of_aligned (hn : n < 2 ^ 32) (hp : 0 < p) (hp32 : p ≤ 32) (halign : n % 2 ^ (32 - p) = 0)
    (hends : p = 32 → 0 < n ∧ n + 1 < 2 ^ 32) (gatewayNum : ℕ) : (cidrRange n p).Exact gatewayNum := by
  have hsize : 0 < 2 ^ (32 - p) := Nat.two_pow_pos _
  -- A block of one address lies between the ends of all, and one of more does not end with its
  -- network address.
  have hrange : n + 1 < 2 ^ 32 ∧ 0 < n + (2 ^ (32 - p) - 1) := by
    by_cases hone : p = 32
    · exact ⟨(hends hone).2, by have := (hends hone).1; omega⟩
    · have heven : n % 2 = 0 := by
        have hdvd : 2 ∣ 2 ^ (32 - p) := dvd_pow_self 2 (by omega)
        exact mod_eq_zero_of_dvd (hdvd.trans (dvd_of_mod_eq_zero halign))
      have htwo : 2 ≤ 2 ^ (32 - p) := Nat.le_self_pow (by omega) 2
      omega
  intro a _
  have hnetwork : (cidrRange n p).network = n := by
    change n - n % 2 ^ (32 - p) = n
    rw [halign, Nat.sub_zero]
  have hbroadcast : (cidrRange n p).broadcast = n + 2 ^ (32 - p) - 1 := by
    rw [CidrRange.broadcast, hnetwork]
    rfl
  rw [cidrRange_startIp hrange.1, cidrRange_endIp hn hp halign hrange.2, hnetwork, hbroadcast]
  omega

end Kici.Scaler
