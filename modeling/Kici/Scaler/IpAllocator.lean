import Kici.Foundation.System
import Kici.Foundation.Table
import Kici.Scaler.Cidr
import Mathlib.Data.Finset.Basic

/-!
# Addresses of virtual machines

A worker hands out the addresses of a block in its memory: the first that is neither the gateway's
nor allocated (`findFirstFreeIp`). It keeps a record of each virtual machine, and the set of the
addresses that are allocated.

The set is that of the addresses of the records (`AllocatorInvariant`), as long as no address is
allocated for a machine that has one (`InMemoryIpAllocator.fresh`): its record is replaced, and the
address of the old one is in the set for good (`exists_address_lost`). Where the range of the block
is that of its addresses that may be used, those of the records are among them, and an allocation
fails only where all are recorded (`allocatorInvariant`).
-/

namespace Kici.Scaler

open Table List

/-- The first address, of so many from `n` on, that is neither the gateway's nor allocated. -/
def firstFree (gatewayNum : ℕ) (isAllocated : JsString → Bool) (n : ℕ) : ℕ → Option JsString
  | 0 => none
  | count + 1 =>
    if n = gatewayNum || isAllocated (numberToIp n) then firstFree gatewayNum isAllocated (n + 1) count
    else some (numberToIp n)

def findFirstFreeIp (range : CidrRange) (gatewayNum : ℕ) (isAllocated : JsString → Bool) :
    Except JsString JsString :=
  match firstFree gatewayNum isAllocated range.startIp (range.endIp + 1 - range.startIp) with
  | some ip => .ok ip
  | none => .error (js "IP pool exhausted: no available addresses in " ++
    numberToIp range.startIp ++ js "-" ++
      numberToIp range.endIp)

/-- A part of an address as two hexadecimal digits. -/
def hexOctet (part : JsString) : JsString :=
  match parseInt part with
  | none => js "NAN"
  | some octet =>
    let digits := (JsString.hex octet.toNat).map fun c => if 0x61 ≤ c && c ≤ 0x66 then c - 0x20 else c
    replicate (2 - digits.length) 0x30 ++ digits

def generateMac (ip : JsString) : Except JsString JsString :=
  match ip.splitOn 0x2E with
  | [_, b, c, d] => .ok (js "06:00:AC:" ++ hexOctet b ++ js ":" ++ hexOctet c ++ js ":" ++ hexOctet d)
  | _ => .error (js "Invalid IP address for MAC generation: \"" ++ ip ++ js "\"")

/-- The last eight code units of the id of the machine. -/
def generateTapName (vmId : JsString) : JsString := js "kici-" ++ vmId.drop (vmId.length - 8)

structure IpAllocationRecord where
  ip : JsString
  vmId : JsString
  scalerName : JsString
  tapDevice : JsString
  macAddress : JsString

structure IpAllocationResult where
  ip : JsString
  gateway : JsString
  netmask : JsString
  mac : JsString
  tapDevice : JsString

structure InMemoryIpAllocator where
  range : CidrRange
  gateway : JsString
  gatewayNum : ℕ
  netmask : JsString
  byVmId : Table IpAllocationRecord.vmId
  allocatedIps : Finset JsString

namespace InMemoryIpAllocator

/-- An allocator of a block, or the error of an address or a block that is none. -/
def new (cidr gateway netmask : JsString) : Except JsString InMemoryIpAllocator :=
  match parseCidr cidr, ipToNumber gateway with
  | .error e, _ => .error e
  | .ok _, .error e => .error e
  | .ok range, .ok gatewayNum => .ok ⟨range, gateway, gatewayNum, netmask, .empty _, ∅⟩

variable (a : InMemoryIpAllocator)

/-- The address that would be allocated next. -/
def nextIp : Except JsString JsString :=
  findFirstFreeIp a.range a.gatewayNum fun ip => ip ∈ a.allocatedIps

def record (vmId scalerName ip mac : JsString) : IpAllocationRecord where
  ip
  vmId
  scalerName
  tapDevice := generateTapName vmId
  macAddress := mac

def allocate (vmId scalerName : JsString) : Except JsString (IpAllocationResult × InMemoryIpAllocator) :=
  match a.nextIp with
  | .error e => .error e
  | .ok ip =>
    match generateMac ip with
    | .error e => .error e
    | .ok mac =>
      .ok (⟨ip, a.gateway, a.netmask, mac, generateTapName vmId⟩,
        { a with
          byVmId := a.byVmId.put (record vmId scalerName ip mac)
          allocatedIps := insert ip a.allocatedIps })

def release (vmId : JsString) : InMemoryIpAllocator :=
  match a.byVmId.lookup vmId with
  | none => a
  | some existing =>
    { a with byVmId := a.byVmId.delete vmId, allocatedIps := a.allocatedIps.erase existing.ip }

/-- The first machine with the address gives it back. -/
def releaseByIp (ip : JsString) : InMemoryIpAllocator :=
  match a.byVmId.rows.find? fun record => record.ip = ip with
  | none => a
  | some record =>
    { a with byVmId := a.byVmId.delete record.vmId, allocatedIps := a.allocatedIps.erase ip }

end InMemoryIpAllocator

inductive AllocatorAction
  | allocate (vmId scalerName : JsString)
  | release (vmId : JsString)
  | releaseByIp (ip : JsString)

/-- What a call leaves; one that throws leaves what there was. -/
def InMemoryIpAllocator.step (a : InMemoryIpAllocator) : AllocatorAction → InMemoryIpAllocator
  | .allocate vmId scalerName =>
    match a.allocate vmId scalerName with
    | .ok (_, a') => a'
    | .error _ => a
  | .release vmId => a.release vmId
  | .releaseByIp ip => a.releaseByIp ip

open InMemoryIpAllocator

/-- The calls on an allocator of a block. -/
def allocatorSystem (cidr gateway netmask : JsString) : System InMemoryIpAllocator AllocatorAction where
  init := {a | new cidr gateway netmask = .ok a}
  step a action := some (a.step action)

/-- The records and the set of addresses are in step, and the addresses are those of the block that
may be used. -/
structure AllocatorInvariant (a : InMemoryIpAllocator) : Prop where
  ips : ∀ ip, ip ∈ a.allocatedIps ↔ ∃ r ∈ a.byVmId, r.ip = ip
  distinct : ∀ r ∈ a.byVmId, ∀ r' ∈ a.byVmId, r.ip = r'.ip → r = r'
  not_gateway : ∀ r ∈ a.byVmId, r.ip ≠ numberToIp a.gatewayNum
  in_block : ∀ r ∈ a.byVmId, ∃ n, r.ip = numberToIp n ∧ a.range.network < n ∧ n < a.range.broadcast
  released : ∀ vmId, ∀ r ∈ a.byVmId.lookup vmId, r.ip ∉ (a.release vmId).allocatedIps
  released_by_ip : ∀ ip, ip ∉ (a.releaseByIp ip).allocatedIps
  full : ∀ vmId scalerName e, a.allocate vmId scalerName = .error e →
    ∀ n, a.range.Usable a.gatewayNum n → ∃ r ∈ a.byVmId, r.ip = numberToIp n

/-- No address is allocated for a machine that has one, where there is one to allocate. -/
def InMemoryIpAllocator.fresh (a : InMemoryIpAllocator) : AllocatorAction → Bool
  | .allocate vmId _ => (a.byVmId.lookup vmId).isNone || a.nextIp.toOption.isNone
  | .release _ | .releaseByIp _ => true

/-! ## The address that is allocated -/

variable {gatewayNum n count : ℕ} {isAllocated : JsString → Bool} {ip : JsString} {range : CidrRange}

theorem firstFree_eq_some (h : firstFree gatewayNum isAllocated n count = some ip) :
    ∃ m, n ≤ m ∧ m < n + count ∧ m ≠ gatewayNum ∧ isAllocated ip = false ∧ ip = numberToIp m := by
  induction count generalizing n with
  | zero => cases h
  | succ count ih =>
    rw [firstFree] at h
    split at h
    · obtain ⟨m, hle, hlt, hfree⟩ := ih h
      exact ⟨m, by omega, by omega, hfree⟩
    next hfree =>
      rw [Bool.or_eq_true, decide_eq_true_eq, not_or, Bool.not_eq_true] at hfree
      cases h
      exact ⟨n, le_rfl, by omega, hfree.1, hfree.2, rfl⟩

theorem firstFree_eq_none (h : firstFree gatewayNum isAllocated n count = none) {m : ℕ} (hle : n ≤ m)
    (hlt : m < n + count) (hgateway : m ≠ gatewayNum) : isAllocated (numberToIp m) := by
  induction count generalizing n with
  | zero => omega
  | succ count ih =>
    rw [firstFree] at h
    split at h
    next hskip =>
      by_cases hm : m = n
      · subst hm
        rw [Bool.or_eq_true, decide_eq_true_eq] at hskip
        exact hskip.resolve_left hgateway
      · exact ih h (by omega) (by omega)
    · cases h

theorem generateMac_numberToIp (n : ℕ) : ∃ mac, generateMac (numberToIp n) = .ok mac := by
  rw [generateMac, splitOn_numberToIp]
  exact ⟨_, rfl⟩

/-! ## What a call leaves -/

variable {r : IpAllocationRecord}

namespace InMemoryIpAllocator

variable {a a' : InMemoryIpAllocator} {vmId scalerName mac e : JsString} {result : IpAllocationResult}

/-- The records and the set are in step, and each address is of the range, and not the gateway's. -/
structure InStep (a : InMemoryIpAllocator) : Prop where
  ips : ∀ ip, ip ∈ a.allocatedIps ↔ ∃ r ∈ a.byVmId, r.ip = ip
  distinct : ∀ r ∈ a.byVmId, ∀ r' ∈ a.byVmId, r.ip = r'.ip → r = r'
  usable : ∀ r ∈ a.byVmId, ∃ n, r.ip = numberToIp n ∧ a.range.startIp ≤ n ∧ n ≤ a.range.endIp ∧
    n ≠ a.gatewayNum

/-- The address that is next is one of the range, and not allocated. -/
theorem nextIp_eq_ok (h : a.nextIp = .ok ip) :
    ip ∉ a.allocatedIps ∧
      ∃ n, ip = numberToIp n ∧ a.range.startIp ≤ n ∧ n ≤ a.range.endIp ∧ n ≠ a.gatewayNum := by
  rw [nextIp, findFirstFreeIp] at h
  split at h
  next ip' hfree =>
    obtain rfl := Except.ok.inj h
    obtain ⟨m, hle, hlt, hgateway, hallocated, hip⟩ := firstFree_eq_some hfree
    exact ⟨of_decide_eq_false hallocated, m, hip, hle, by omega, hgateway⟩
  next => cases h

theorem nextIp_eq_error (h : a.nextIp = .error e) {n : ℕ} (hstart : a.range.startIp ≤ n)
    (hend : n ≤ a.range.endIp) (hgateway : n ≠ a.gatewayNum) : numberToIp n ∈ a.allocatedIps := by
  rw [nextIp, findFirstFreeIp] at h
  split at h
  · cases h
  next hnone => exact of_decide_eq_true (firstFree_eq_none hnone hstart (by omega) hgateway)

theorem allocate_eq_error (h : a.allocate vmId scalerName = .error e) : a.nextIp = .error e := by
  rw [allocate] at h
  split at h
  next e' hnext =>
    obtain rfl := Except.error.inj h
    exact hnext
  next ip hnext =>
    obtain ⟨-, n, rfl, -⟩ := nextIp_eq_ok hnext
    obtain ⟨mac, hmac⟩ := generateMac_numberToIp n
    rw [hmac] at h
    cases h

theorem allocate_eq_ok (h : a.allocate vmId scalerName = .ok (result, a')) :
    ∃ ip mac, a.nextIp = .ok ip ∧ a' =
      { a with
        byVmId := a.byVmId.put (record vmId scalerName ip mac)
        allocatedIps := insert ip a.allocatedIps } := by
  rw [allocate] at h
  split at h
  · cases h
  next ip hnext =>
    split at h
    · cases h
    next mac hmac => exact ⟨ip, mac, hnext, (congrArg Prod.snd (Except.ok.inj h)).symm⟩

/-- An address is allocated for a machine that has none. -/
theorem InStep.put (h : a.InStep) (hnew : a.byVmId.lookup vmId = none) (hnext : a.nextIp = .ok ip) :
    InStep { a with
      byVmId := a.byVmId.put (record vmId scalerName ip mac)
      allocatedIps := insert ip a.allocatedIps } := by
  obtain ⟨hfree, husable⟩ := nextIp_eq_ok hnext
  have hkey : ∀ r ∈ a.byVmId, r.vmId ≠ vmId := by
    rintro r hr rfl
    rw [lookup_of_mem hr] at hnew
    cases hnew
  have hmem : ∀ r, r ∈ a.byVmId.put (record vmId scalerName ip mac) ↔
      r = record vmId scalerName ip mac ∨ r ∈ a.byVmId := fun r =>
    mem_put.trans (or_congr_right ⟨And.left, fun hr => ⟨hr, hkey r hr⟩⟩)
  -- The address of a record is allocated, and so is not the new one.
  have hother : ∀ r ∈ a.byVmId, r.ip ≠ ip := fun r hr heq => hfree ((h.ips ip).2 ⟨r, hr, heq⟩)
  refine ⟨fun ip' => ?_, fun r hr r' hr' heq => ?_, fun r hr => ?_⟩
  · rw [Finset.mem_insert, h.ips]
    constructor
    · rintro (rfl | ⟨r, hr, hip⟩)
      · exact ⟨_, (hmem _).2 (.inl rfl), rfl⟩
      · exact ⟨r, (hmem r).2 (.inr hr), hip⟩
    · rintro ⟨r, hr, rfl⟩
      rcases (hmem r).1 hr with rfl | hr
      · exact .inl rfl
      · exact .inr ⟨r, hr, rfl⟩
  · rcases (hmem r).1 hr with rfl | hr
    · rcases (hmem r').1 hr' with rfl | hr'
      · rfl
      · exact absurd heq.symm (hother r' hr')
    · rcases (hmem r').1 hr' with rfl | hr'
      · exact absurd heq (hother r hr)
      · exact h.distinct r hr r' hr' heq
  · rcases (hmem r).1 hr with rfl | hr
    · exact husable
    · exact h.usable r hr

/-- A record is deleted with its address. -/
theorem InStep.delete (h : a.InStep) (hr : r ∈ a.byVmId) :
    InStep { a with byVmId := a.byVmId.delete r.vmId, allocatedIps := a.allocatedIps.erase r.ip } := by
  refine ⟨fun ip => ?_, fun r' hr' r'' hr'' => ?_, fun r' hr' => ?_⟩
  · rw [Finset.mem_erase, h.ips]
    constructor
    · rintro ⟨hne, r', hr', rfl⟩
      refine ⟨r', mem_delete.2 ⟨hr', fun hkey => hne ?_⟩, rfl⟩
      rw [Option.some.inj ((lookup_eq_some.2 ⟨hr', hkey⟩).symm.trans (lookup_of_mem hr))]
    · rintro ⟨r', hr', rfl⟩
      obtain ⟨hr', hkey⟩ := mem_delete.1 hr'
      exact ⟨fun heq => hkey (congrArg IpAllocationRecord.vmId (h.distinct r' hr' r hr heq)),
        r', hr', rfl⟩
  · exact h.distinct r' (mem_delete.1 hr').1 r'' (mem_delete.1 hr'').1
  · exact h.usable r' (mem_delete.1 hr').1

theorem InStep.release (h : a.InStep) (vmId : JsString) : (a.release vmId).InStep := by
  rw [InMemoryIpAllocator.release]
  split
  · exact h
  next existing hlookup =>
    obtain ⟨hmem, rfl⟩ := lookup_eq_some.1 hlookup
    exact h.delete hmem

theorem InStep.releaseByIp (h : a.InStep) (ip : JsString) : (a.releaseByIp ip).InStep := by
  rw [InMemoryIpAllocator.releaseByIp]
  split
  · exact h
  next record hfind =>
    obtain rfl : record.ip = ip := by simpa using find?_some hfind
    exact h.delete (mem_of_find?_eq_some hfind)

/-- A call keeps the records and the set in step, and the range and the gateway as they are. -/
theorem InStep.step {action : AllocatorAction} (h : a.InStep) (hfresh : a.fresh action) :
    (a.step action).InStep ∧ (a.step action).range = a.range ∧
    (a.step action).gatewayNum = a.gatewayNum := by
  cases action with
  | allocate vmId scalerName =>
    rw [InMemoryIpAllocator.step]
    split
    next result a' hallocate =>
      obtain ⟨ip, mac, hnext, rfl⟩ := allocate_eq_ok hallocate
      rw [fresh, hnext, Bool.or_eq_true, Option.isNone_iff_eq_none] at hfresh
      exact ⟨h.put (hfresh.resolve_right Bool.noConfusion) hnext, rfl, rfl⟩
    next => exact ⟨h, rfl, rfl⟩
  | release vmId =>
    refine ⟨h.release vmId, ?_⟩
    rw [InMemoryIpAllocator.step, InMemoryIpAllocator.release]
    split <;> exact ⟨rfl, rfl⟩
  | releaseByIp ip =>
    refine ⟨h.releaseByIp ip, ?_⟩
    rw [InMemoryIpAllocator.step, InMemoryIpAllocator.releaseByIp]
    split <;> exact ⟨rfl, rfl⟩

theorem notMem_release (hr : a.byVmId.lookup vmId = some r) :
    r.ip ∉ (a.release vmId).allocatedIps := by
  rw [release, hr]
  exact Finset.notMem_erase _ _

theorem InStep.released_by_ip (h : a.InStep) (ip : JsString) : ip ∉ (a.releaseByIp ip).allocatedIps := by
  rw [InMemoryIpAllocator.releaseByIp]
  split
  next hnone =>
    intro hmem
    obtain ⟨r, hr, hip⟩ := (h.ips ip).1 hmem
    simpa [hip] using find?_eq_none.1 hnone r hr
  next => exact Finset.notMem_erase _ _

/-- Where the range is that of the addresses that may be used, records and set in step are all that
is needed. -/
theorem InStep.invariant (h : a.InStep) (hexact : a.range.Exact a.gatewayNum)
    (hend : a.range.endIp < 2 ^ 32) (hgateway : a.gatewayNum < 2 ^ 32) : AllocatorInvariant a where
  ips := h.ips
  distinct := h.distinct
  not_gateway r hr heq := by
    obtain ⟨n, hip, -, hle, hne⟩ := h.usable r hr
    exact hne (numberToIp_injective (by omega) hgateway (hip.symm.trans heq))
  in_block r hr := by
    obtain ⟨n, hip, hstart, hle, hne⟩ := h.usable r hr
    exact ⟨n, hip, (hexact n hne).1 ⟨hstart, hle⟩⟩
  released vmId r hr := notMem_release hr
  released_by_ip := h.released_by_ip
  full vmId scalerName e he n husable := by
    obtain ⟨hnetwork, hbroadcast, hne⟩ := husable
    obtain ⟨hstart, hle⟩ := (hexact n hne).2 ⟨hnetwork, hbroadcast⟩
    exact (h.ips _).1 (nextIp_eq_error (allocate_eq_error he) hstart hle hne)

theorem new_eq_ok {cidr gateway netmask : JsString} (h : new cidr gateway netmask = .ok a) :
    a.InStep ∧ a.range.endIp < 2 ^ 32 ∧ a.gatewayNum < 2 ^ 32 := by
  rw [new] at h
  split at h
  · cases h
  · cases h
  next range gatewayNum hcidr hip =>
    rw [← Except.ok.inj h]
    refine ⟨⟨fun ip => iff_of_false (Finset.notMem_empty ip) ?_, nofun,
      nofun⟩, parseCidr_endIp_lt hcidr, ipToNumber_lt hip⟩
    rintro ⟨r, hr, -⟩
    cases hr

end InMemoryIpAllocator

/-- In every run of calls, none of which allocates an address for a machine that has one. -/
theorem allocatorInvariant {cidr gateway netmask : JsString} {a₀ a : InMemoryIpAllocator}
    (hnew : new cidr gateway netmask = .ok a₀) (hexact : a₀.range.Exact a₀.gatewayNum)
    (h : (allocatorSystem cidr gateway netmask).Reachable (fun a action => a.fresh action) a) :
    AllocatorInvariant a := by
  obtain ⟨hstep, hend, hgateway⟩ := new_eq_ok hnew
  have hreach : a.InStep ∧ a.range = a₀.range ∧ a.gatewayNum = a₀.gatewayNum := by
    refine h.invariant (P := fun a => a.InStep ∧ a.range = a₀.range ∧ a.gatewayNum = a₀.gatewayNum)
      (fun s hs => ?_) fun s action t hs hfresh ht => ?_
    · obtain rfl := Except.ok.inj (hs.symm.trans hnew)
      exact ⟨hstep, rfl, rfl⟩
    · cases ht
      obtain ⟨hkeeps, hrange, hgatewayNum⟩ := hs.1.step hfresh
      exact ⟨hkeeps, hrange.trans hs.2.1, hgatewayNum.trans hs.2.2⟩
  obtain ⟨hkeeps, hrange, hgatewayNum⟩ := hreach
  exact hkeeps.invariant (hrange ▸ hgatewayNum ▸ hexact) (hrange ▸ hend) (hgatewayNum ▸ hgateway)

/-! ### Two allocations -/

/-- The block 10.0.0.0/24, with the gateway 10.0.0.1. -/
def exampleAllocator : InMemoryIpAllocator where
  range := cidrRange 167772160 24
  gateway := js "10.0.0.1"
  gatewayNum := 167772161
  netmask := js "255.255.255.0"
  byVmId := .empty _
  allocatedIps := ∅

theorem new_example :
    new (js "10.0.0.0/24") (js "10.0.0.1") (js "255.255.255.0") = .ok exampleAllocator := by
  have hcidr : parseCidr (js "10.0.0.0/24") = .ok (cidrRange 167772160 24) := by decide
  have hgateway : ipToNumber (js "10.0.0.1") = .ok 167772161 := by decide
  rw [new, hcidr, hgateway]
  rfl

/-- Two machines have an address each. -/
theorem allocatorInvariant_two : ∃ a, a.byVmId.rows.length = 2 ∧ AllocatorInvariant a := by
  have hrun : ((allocatorSystem (js "10.0.0.0/24") (js "10.0.0.1") (js "255.255.255.0")).run
      fresh exampleAllocator
      [.allocate (js "vm-1") (js "fc"), .allocate (js "vm-2") (js "fc")]).any
        (fun a => a.byVmId.rows.length = 2) := by decide
  obtain ⟨a, hpath, hlength⟩ := System.exists_path_of_run (fun _ _ h => h) _ hrun
  have hexact : exampleAllocator.range.Exact exampleAllocator.gatewayNum :=
    exact_of_aligned (by decide) (by decide) (by decide) (by decide) (fun h => absurd h (by decide)) _
  exact ⟨a, of_decide_eq_true hlength,
    allocatorInvariant new_example hexact ⟨exampleAllocator, new_example, hpath⟩⟩

/-- Twice for one machine: the first address stays in the set, with no record. -/
theorem exists_address_lost : ∃ a, (allocatorSystem (js "10.0.0.0/24") (js "10.0.0.1")
    (js "255.255.255.0")).Reachable System.anyStep a ∧ ¬ AllocatorInvariant a := by
  have hrun : ((allocatorSystem (js "10.0.0.0/24") (js "10.0.0.1") (js "255.255.255.0")).run
      (fun _ _ => true) exampleAllocator
      [.allocate (js "vm-1") (js "fc"), .allocate (js "vm-1") (js "fc")]).any
        (fun a => decide (js "10.0.0.2" ∈ a.allocatedIps) && a.byVmId.rows.all fun r =>
          r.ip ≠ js "10.0.0.2") =
          true := by decide
  obtain ⟨a, hpath, ha⟩ := System.exists_path_of_run System.anyStep_of_true _ hrun
  obtain ⟨hmem, hnone⟩ := Bool.and_eq_true_iff.1 ha
  refine ⟨a, ⟨exampleAllocator, new_example, hpath⟩, fun h => ?_⟩
  obtain ⟨r, hr, hip⟩ := (h.ips _).1 (of_decide_eq_true hmem)
  exact of_decide_eq_true (all_eq_true.1 hnone r hr) hip

end Kici.Scaler
