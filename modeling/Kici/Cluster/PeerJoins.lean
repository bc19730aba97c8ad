import Kici.Cluster.WorkerEviction
import Kici.Foundation.Table

/-!
# The newest workers

A coordinator that has too many workers drains the newest ones, by the time at which each has
connected (`selectEvictionTargets`). The registry of the peers keeps that time while a peer is
connected; a peer that it has as disconnected, and that connects again, gets the time of that, so
that a worker whose link flaps becomes the newest one (`exists_oldest_drained`).

As long as no worker comes back in this way, the workers that are drained are those that joined last
(`evictsNewest_of_keepsFirstJoin`).
-/

namespace Kici

open List Option

variable {workers : List PeerInfo}

inductive PeerRole
  | coordinator
  | worker
  deriving DecidableEq

/-- A peer as it stands in the registry. -/
structure RegisteredPeer extends PeerInfo where
  lastHeartbeatAt : ℕ

/-- The registry, with every call that has added a peer, and the time of it, in order. -/
structure PeerRegistry where
  peers : Table (fun p : RegisteredPeer => p.instanceId) := .empty _
  joins : List (String × ℕ) := []

/-- What happens to the registry, at times that the clock tells. -/
inductive PeerAction
  | addPeer (instanceId : String) (role : Option PeerRole) (now : ℕ)
  | markDisconnected (instanceId : String)
  | markConnected (instanceId : String)
  | updateHeartbeat (instanceId : String) (timestamp : ℕ)
  | evictStalePeers (staleTimeoutMs now : ℕ)

namespace PeerRegistry

variable (r : PeerRegistry)

def getPeer (instanceId : String) : Option RegisteredPeer := r.peers.lookup instanceId

def getConnectedWorkerPeers : List PeerInfo :=
  (r.peers.rows.map (·.toPeerInfo)).filter fun p => p.connected && p.isWorker

/-- Change the peers that meet a condition, but not their ids. -/
def change (guard : RegisteredPeer → Bool) (set : RegisteredPeer → RegisteredPeer)
    (h : ∀ p, (set p).instanceId = p.instanceId) : PeerRegistry :=
  { r with peers := r.peers.execute ⟨guard, set, h⟩ }

def addPeer (instanceId : String) (role : Option PeerRole) (now : ℕ) : PeerRegistry :=
  let added :=
    if (r.getPeer instanceId).any (·.connected) then
      r.change (·.instanceId = instanceId) (fun p => { p with lastHeartbeatAt := now }) fun _ => rfl
    else
      { r with peers := r.peers.put {
          instanceId
          isWorker := role.getD .coordinator = .worker
          connected := true
          connectedAt := now
          lastHeartbeatAt := now } }
  { added with joins := r.joins ++ [(instanceId, now)] }

def markDisconnected (instanceId : String) : PeerRegistry :=
  r.change (fun p => p.instanceId = instanceId ∧ p.connected) (fun p => { p with connected := false })
    fun _ => rfl

def markConnected (instanceId : String) : PeerRegistry :=
  r.change (·.instanceId = instanceId) (fun p => { p with connected := true }) fun _ => rfl

def updateHeartbeat (instanceId : String) (timestamp : ℕ) : PeerRegistry :=
  r.change (·.instanceId = instanceId) (fun p => { p with lastHeartbeatAt := timestamp }) fun _ => rfl

def evictStalePeers (staleTimeoutMs now : ℕ) : PeerRegistry :=
  r.change (fun p => p.connected ∧ p.lastHeartbeatAt + staleTimeoutMs < now)
    (fun p => { p with connected := false })
    fun _ => rfl

def step : PeerAction → PeerRegistry
  | .addPeer instanceId role now => r.addPeer instanceId role now
  | .markDisconnected instanceId => r.markDisconnected instanceId
  | .markConnected instanceId => r.markConnected instanceId
  | .updateHeartbeat instanceId timestamp => r.updateHeartbeat instanceId timestamp
  | .evictStalePeers staleTimeoutMs now => r.evictStalePeers staleTimeoutMs now

/-- When a peer was added for the first time. -/
def firstJoined (instanceId : String) : Option ℕ := r.joins.lookup instanceId

/-- The workers that are drained are as many as there are too many, and joined no earlier than those
that are kept. -/
def EvictsNewest : Prop :=
  ∀ ceiling,
    (selectEvictionTargets r.getConnectedWorkerPeers ceiling).length =
      r.getConnectedWorkerPeers.length - ceiling ∧
    ∀ target ∈ selectEvictionTargets r.getConnectedWorkerPeers ceiling,
      ∀ kept ∈ r.getConnectedWorkerPeers,
      kept ∉ selectEvictionTargets r.getConnectedWorkerPeers ceiling →
      ∃ joined ∈ r.firstJoined target.instanceId, ∃ before ∈ r.firstJoined kept.instanceId,
        before ≤ joined

/-- The call does not add, as a worker, a peer that the registry has as disconnected. -/
def keepsFirstJoin : PeerAction → Bool
  | .addPeer instanceId role _ => ¬ (role = some .worker ∧ (r.getPeer instanceId).any (!·.connected))
  | _ => true

end PeerRegistry

def peerSystem : System PeerRegistry PeerAction where
  init := {r | r = {}}
  step r a := some (r.step a)

namespace PeerRegistry

variable {r : PeerRegistry} {a : PeerAction} {role : Option PeerRole} {instanceId id : String} {now : ℕ}

/-- Each worker has the time at which it was first added; a peer that was never added is unknown. -/
structure Timed (r : PeerRegistry) : Prop where
  connectedAt : ∀ p ∈ r.peers, p.isWorker = true → r.firstJoined p.instanceId = some p.connectedAt
  unknown : ∀ id, r.getPeer id = none → r.firstJoined id = none

/-- A change that leaves roles and times as they are. -/
theorem Timed.change (h : r.Timed) {guard : RegisteredPeer → Bool}
    {set : RegisteredPeer → RegisteredPeer}
    (hid : ∀ p, (set p).instanceId = p.instanceId)
    (hset : ∀ p, (set p).isWorker = p.isWorker ∧ (set p).connectedAt = p.connectedAt) :
    (r.change guard set hid).Timed := by
  constructor
  case connectedAt =>
    refine Table.forall_mem_execute h.connectedAt fun p hp _ htimed => ?_
    intro hworker
    rw [(hset p).2, hid]
    exact htimed ((hset p).1 ▸ hworker)
  case unknown =>
    intro id hnone
    refine h.unknown id ?_
    rw [getPeer, PeerRegistry.change, Table.lookup_execute, map_eq_none_iff] at hnone
    exact hnone

/-- A call of `addPeer` is the first one of its peer, or comes too late to be it. -/
theorem firstJoined_addPeer : (r.addPeer instanceId role now).firstJoined id =
      (r.firstJoined id).or (if id = instanceId then some now else none) := by
  have hlookup : (r.addPeer instanceId role now).firstJoined id =
    (r.joins ++ [(instanceId, now)]).lookup id := rfl
  rw [hlookup, lookup_append, firstJoined]
  congr 1
  by_cases hid : id = instanceId
  · simp [hid]
  · simp [hid]

/-- The peers that were known keep their times. -/
theorem firstJoined_addPeer_of_some {now joined : ℕ}
    (h : r.firstJoined id = some joined) : (r.addPeer instanceId role now).firstJoined id =
    some joined := by
  rw [firstJoined_addPeer, h, some_or]

/-- What a call of `addPeer` does to the entries: a peer that is connected keeps its own, any other
gets a new one. -/
theorem addPeer_cases (r : PeerRegistry) (instanceId : String) (role : Option PeerRole) (now : ℕ) :
    (∃ p, r.getPeer instanceId = some p ∧ p.connected ∧ (r.addPeer instanceId role now).peers =
      (r.updateHeartbeat instanceId now).peers) ∨
    ((∀ p, r.getPeer instanceId = some p → p.connected = false) ∧ (r.addPeer instanceId role now).peers =
      r.peers.put ⟨⟨instanceId, role.getD .coordinator = .worker, true, now⟩, now⟩) := by
  by_cases h : (r.getPeer instanceId).any (·.connected)
  · obtain ⟨p, hp, hconnected⟩ := (Option.any_eq_true _ _).1 h
    exact .inl ⟨p, hp, hconnected, by rw [addPeer, if_pos h, updateHeartbeat]⟩
  · refine .inr ⟨fun p hp => ?_, by rw [addPeer, if_neg h]⟩
    rw [hp] at h
    exact Bool.eq_false_iff.2 h

/-- A peer that is unknown after a call was unknown before, and is not the one that was added. -/
theorem getPeer_addPeer_eq_none
    (h : (r.addPeer instanceId role now).getPeer id = none) : r.getPeer id = none ∧ id ≠ instanceId := by
  rcases r.addPeer_cases instanceId role now with ⟨p, hp, -, hpeers⟩ | ⟨-, hpeers⟩
  · rw [getPeer, hpeers, updateHeartbeat, change, Table.lookup_execute, map_eq_none_iff] at h
    refine ⟨h, ?_⟩
    rintro rfl
    cases h.symm.trans hp
  · rw [getPeer, hpeers, Table.lookup_put] at h
    split at h
    · cases h
    · next hne => exact ⟨h, hne⟩

theorem Timed.updateHeartbeat {instanceId : String} {timestamp : ℕ} (h : r.Timed) :
    (r.updateHeartbeat instanceId timestamp).Timed :=
  h.change _ fun _ => ⟨rfl, rfl⟩

theorem Timed.addPeer {instanceId : String} (h : r.Timed)
    (hok : role = some .worker → ∀ p, r.getPeer instanceId = some p → p.connected) :
    (r.addPeer instanceId role now).Timed := by
  constructor
  case connectedAt =>
    intro p hp hworker
    rcases r.addPeer_cases instanceId role now with ⟨-, -, -, hpeers⟩ | ⟨hgone, hpeers⟩
    · rw [hpeers] at hp
      exact firstJoined_addPeer_of_some (h.updateHeartbeat.connectedAt p hp hworker)
    · rw [hpeers] at hp
      rcases Table.mem_put.1 hp with rfl | ⟨hp, -⟩
      · -- A worker with a new entry was unknown, by the condition on the call.
        have hrole : role = some .worker := by
          rcases role with - | - | -
          · cases hworker
          · cases hworker
          · rfl
        have hnone : r.getPeer instanceId = none := by
          rw [eq_none_iff_forall_ne_some]
          intro p hp
          cases (hok hrole p hp).symm.trans (hgone p hp)
        rw [firstJoined_addPeer, h.unknown _ hnone, none_or, if_pos rfl]
      · exact firstJoined_addPeer_of_some (h.connectedAt p hp hworker)
  case unknown =>
    intro id hnone
    obtain ⟨hunknown, hne⟩ := getPeer_addPeer_eq_none hnone
    rw [firstJoined_addPeer, h.unknown id hunknown, none_or, if_neg hne]

theorem Timed.step (h : r.Timed) (hok : r.keepsFirstJoin a) : (r.step a).Timed := by
  cases a with
  | addPeer instanceId role now =>
    refine h.addPeer fun hrole p hp => ?_
    by_contra hconnected
    simp [keepsFirstJoin, hrole, hp, hconnected] at hok
  | markDisconnected | markConnected | evictStalePeers => exact h.change _ fun _ => ⟨rfl, rfl⟩
  | updateHeartbeat instanceId timestamp => exact h.updateHeartbeat

/-! ## The selection -/

theorem length_selectEvictionTargets {ceiling : ℕ} :
    (selectEvictionTargets workers ceiling).length = workers.length - ceiling := by
  rw [selectEvictionTargets, length_take, length_insertionSort]
  omega

/-- The workers that are drained connected no earlier than those that are kept. -/
theorem connectedAt_le_of_selectEvictionTargets {ceiling : ℕ} {target kept : PeerInfo}
    (htarget : target ∈ selectEvictionTargets workers ceiling) (hkept : kept ∈ workers)
    (hnot : kept ∉ selectEvictionTargets workers ceiling) : kept.connectedAt ≤ target.connectedAt := by
  let newer : PeerInfo → PeerInfo → Prop := fun a b => b.connectedAt ≤ a.connectedAt
  have hsorted : (workers.insertionSort newer).Pairwise newer := by
    have htotal : Std.Total newer := ⟨fun a b => le_total b.connectedAt a.connectedAt⟩
    have htrans : IsTrans PeerInfo newer := ⟨fun a b c hab hbc => hbc.trans hab⟩
    exact pairwise_insertionSort newer workers
  have hmem : kept ∈ workers.insertionSort newer := (mem_insertionSort newer).2 hkept
  rw [← take_append_drop (workers.length - ceiling) (workers.insertionSort newer)] at hsorted hmem
  exact (pairwise_append.1 hsorted).2.2 target htarget kept ((mem_append.1 hmem).resolve_left hnot)

/-- Where each worker has the time at which it joined, the newest ones are drained. -/
theorem Timed.evictsNewest (h : r.Timed) : r.EvictsNewest := by
  have hjoined : ∀ p ∈ r.getConnectedWorkerPeers, r.firstJoined p.instanceId = some p.connectedAt := by
    intro p hp
    obtain ⟨hp, hworker⟩ := mem_filter.1 hp
    obtain ⟨entry, hentry, rfl⟩ := List.mem_map.1 hp
    exact h.connectedAt entry hentry (Bool.and_eq_true_iff.1 hworker).2
  intro ceiling
  refine ⟨length_selectEvictionTargets, fun target htarget kept hkept hnot => ?_⟩
  have hworker : target ∈ r.getConnectedWorkerPeers :=
    (mem_insertionSort _).1 (mem_of_mem_take htarget)
  exact ⟨_, hjoined target hworker, _, hjoined kept hkept,
    connectedAt_le_of_selectEvictionTargets htarget hkept hnot⟩

end PeerRegistry

/-! ## Runs -/

/-- As long as no worker that is disconnected is added again, the workers that are drained are those
that joined last. -/
theorem evictsNewest_of_keepsFirstJoin {r : PeerRegistry}
    (h : peerSystem.Reachable (fun r a => r.keepsFirstJoin a) r) : r.EvictsNewest := by
  refine PeerRegistry.Timed.evictsNewest
    (h.invariant (fun _ hinit => ?_) fun r a t htimed hok hstep => ?_)
  · cases hinit
    exact ⟨nofun, fun id _ => rfl⟩
  · cases hstep
    exact htimed.step hok

/-- Two workers join, and the link of a third one is lost and found again. -/
theorem evictsNewest_of_keepsFirstJoin_two : ∃ r : PeerRegistry,
    r.getConnectedWorkerPeers.length = 2 ∧ r.EvictsNewest := by
  obtain ⟨r, hpath, hr⟩ := peerSystem.exists_path {} (fun r => r.getConnectedWorkerPeers.length = 2)
    (fun (r : PeerRegistry) a (h : r.keepsFirstJoin a) => h)
      [.addPeer "worker-1" (some .worker) 10, .addPeer "worker-2" (some .worker) 20,
        .markDisconnected "worker-1",
        .markConnected "worker-1", .addPeer "worker-1" (some .worker) 30] (by decide)
  exact ⟨r, hr, evictsNewest_of_keepsFirstJoin ⟨{}, rfl, hpath⟩⟩

/-- The worker that joined first is drained, as its link was lost once. -/
theorem exists_oldest_drained : ∃ r, peerSystem.Reachable System.anyStep r ∧ ¬ r.EvictsNewest := by
  obtain ⟨r, hpath, hr⟩ := peerSystem.exists_path {}
      (fun r => selectEvictionTargets r.getConnectedWorkerPeers 1 = [⟨"worker-1", true, true, 30⟩] ∧
        ⟨"worker-2",
        true, true, 20⟩ ∈ r.getConnectedWorkerPeers ∧ r.firstJoined "worker-1" = some 10 ∧
          r.firstJoined "worker-2" =
        some 20) System.anyStep_of_true
      [.addPeer "worker-1" (some .worker) 10, .addPeer "worker-2" (some .worker) 20,
        .markDisconnected "worker-1", .addPeer "worker-1" (some .worker) 30] (by decide)
  obtain ⟨htargets, hkept, hfirst, hsecond⟩ := hr
  refine ⟨r, ⟨{}, rfl, hpath⟩, fun h => ?_⟩
  obtain ⟨-, hnewest⟩ := h 1
  rw [htargets] at hnewest
  obtain ⟨joined, hjoined, before, hbefore, hle⟩ := hnewest _ (mem_singleton_self _) _ hkept (by decide)
  cases hfirst.symm.trans hjoined
  cases hsecond.symm.trans hbefore
  omega

end Kici
