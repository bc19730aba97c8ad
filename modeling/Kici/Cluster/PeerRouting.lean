import Kici.Scaler.LabelMatcher
import Mathlib.Algebra.Order.Ring.Unbundled.Rat

/-!
# Routing to peers by their scalers

A peer advertises its scalers with the label sets they can provision (`ScalerCapacitySummary`), and
is given a job only if one of them, or one of its agents, takes the job (`findPeersWithCapacity`).
Whether a scaler does is decided here (`scalerCapacityMatchesRequiredLabels`), and once more by the
peer when the job arrives (`findBackendForLabels`). The two agree
(`scalerCapacityMatchesRequiredLabels_iff`): a peer that is chosen for its scalers can place the
job.
-/

namespace Kici.Cluster

open List Kici.Scaler

variable {scalerLabels : List JsString}

structure ScalerCapacitySummary where
  name : Option JsString
  labelSets : List (List JsString)
  maxAgents : ℚ
  activeCount : ℚ
  /-- One gate for each label set. -/
  labelSetMandatoryLabels : List (List JsString)

structure PeerAgent where
  agentId : JsString
  labels : List JsString
  activeJobs : ℚ
  maxConcurrency : ℚ
  mandatoryLabels : List JsString

structure PeerInfo where
  instanceId : JsString
  connected : Bool
  draining : Bool
  agents : List PeerAgent
  scalerCapacity : Option (List ScalerCapacitySummary)

/-- The scaler as its own peer configures it, under a name. -/
def ScalerCapacitySummary.entry (sc : ScalerCapacitySummary) (name : JsString) : ScalerEntry where
  name
  labelSets := sc.labelSets
  labelSetMandatoryLabels := some sc.labelSetMandatoryLabels

/-- The gate of a label set of a peer's scaler; none of the sets has one if there is not one for
each. -/
def scalerGateForLabelSet (sc : ScalerCapacitySummary) (index : ℕ) : Option (List JsString) :=
  let perSet := sc.labelSetMandatoryLabels
  if perSet.length ≠ sc.labelSets.length then none else some (perSet[index]?.getD [])

section

variable (trim toLowerCase : JsString → JsString)

def canonicalizeLabel (raw : JsString) : JsString := toLowerCase (trim raw)

/-- Whether a label set takes the job: its gate is satisfied, and it carries every required label. -/
def labelSetMatches (sc : ScalerCapacitySummary) (requiredLabels scalerLabels : List JsString)
    (i : ℕ) : Bool :=
  let requiredLower := lowercased toLowerCase requiredLabels
  match scalerGateForLabelSet sc i with
  | none => false
  | some mandatory =>
    if requiredLabels.length = 0 then decide (mandatory.length = 0)
    else if !mandatory.all fun m => toLowerCase m ∈ requiredLower then false
    else decide (∀ label ∈ requiredLower, label ∈ lowercased toLowerCase scalerLabels)

def scalerCapacityMatchesRequiredLabels (sc : ScalerCapacitySummary)
    (requiredLabels : List JsString) : Bool :=
  sc.labelSets.zipIdx.any fun (scalerLabels, i) =>
    labelSetMatches toLowerCase sc requiredLabels scalerLabels i

def peerAgentMatchesRequiredLabels (agent : PeerAgent) (requiredLabels : List JsString) : Bool :=
  let mandatory := agent.mandatoryLabels
  if mandatory.length = 0 then true
  else if requiredLabels.length = 0 then false
  else
    let required := requiredLabels.map (canonicalizeLabel trim toLowerCase)
    mandatory.all fun m => canonicalizeLabel trim toLowerCase m ∈ required

/-- Whether an agent takes a job with one of the label sets, its gate included. -/
def agentMatches (labelSets : List (List JsString)) (agent : PeerAgent) : Bool :=
  labelSets.any fun requiredLabels =>
    if !peerAgentMatchesRequiredLabels trim toLowerCase agent requiredLabels then false
    else if requiredLabels.length = 0 then true
    else
      let agentLabels := agent.labels.map (canonicalizeLabel trim toLowerCase)
      requiredLabels.all fun label => canonicalizeLabel trim toLowerCase label ∈ agentLabels

/-- Whether a scaler takes a job with one of the label sets. -/
def scalerMatches (labelSets : List (List JsString)) (sc : ScalerCapacitySummary) : Bool :=
  labelSets.any (scalerCapacityMatchesRequiredLabels toLowerCase sc)

def findPeersWithCapacity (peers : List PeerInfo) (labelSets : List (List JsString)) : List PeerInfo :=
  peers.filter fun peer => peer.connected && !peer.draining &&
    ((peer.agents.any fun agent =>
        !decide (agent.activeJobs ≥ agent.maxConcurrency) && agentMatches trim toLowerCase
          labelSets agent) ||
      (peer.scalerCapacity.getD []).any fun sc =>
        !decide (sc.activeCount ≥ sc.maxAgents) && scalerMatches toLowerCase labelSets sc)

end

variable {trim toLowerCase : JsString → JsString} {labels : List JsString}
  {labelSets : List (List JsString)}
  {sc : ScalerCapacitySummary} {name : JsString} {peers : List PeerInfo} {peer : PeerInfo}

/-- Both sides read the gate of a label set alike. -/
theorem gateForLabelSet_entry (index : ℕ) :
    gateForLabelSet (sc.entry name) index = scalerGateForLabelSet sc index := rfl

theorem carried_entry (name : JsString) {i : ℕ}
    (h : sc.labelSets[i]? = some scalerLabels) :
    carried toLowerCase (sc.entry name, i) = lowercased toLowerCase scalerLabels := by
  rw [carried]
  exact congrArg (fun o => lowercased toLowerCase (o.getD [])) h

/-- A label set takes a job if and only if the job qualifies for it. -/
theorem labelSetMatches_iff {i : ℕ} (h : sc.labelSets[i]? = some scalerLabels) :
    labelSetMatches toLowerCase sc labels scalerLabels i ↔
      Qualifies toLowerCase labels [] (sc.entry name, i) := by
  rw [labelSetMatches, ← carried_entry name h]
  rcases hgate : scalerGateForLabelSet sc i with _ | mandatory
  · simp [Qualifies, gateForLabelSet_entry, hgate]
  · by_cases hlabels : labels = []
    · subst hlabels
      simp [qualifies_nil_iff, ungated, gateForLabelSet_entry, hgate]
    · have hlength : labels.length ≠ 0 := fun h => hlabels (length_eq_zero_iff.1 h)
      have hcarried : (∀ x ∈ lowercased toLowerCase labels, x ∈ carried toLowerCase (sc.entry name, i)) ↔
          ∀ label ∈ labels, toLowerCase label ∈ carried toLowerCase (sc.entry name, i) :=
            carried_of_target
      by_cases hall : ∀ m ∈ mandatory, toLowerCase m ∈ lowercased toLowerCase labels
      · simp [Qualifies, gateForLabelSet_entry, hgate, hlength, hcarried]
      · simp [Qualifies, gateForLabelSet_entry, hgate, hlength, hall]

/-- A scaler takes a job if and only if the job qualifies for one of its label sets. -/
theorem scalerCapacityMatchesRequiredLabels_iff_qualifies (name : JsString) :
    scalerCapacityMatchesRequiredLabels toLowerCase sc labels ↔
      ∃ i < sc.labelSets.length, Qualifies toLowerCase labels [] (sc.entry name, i) := by
  rw [scalerCapacityMatchesRequiredLabels, any_eq_true]
  constructor
  · rintro ⟨⟨scalerLabels, i⟩, hmem, hmatch⟩
    have hi := mem_zipIdx_iff_getElem?.1 hmem
    exact ⟨i, (List.getElem?_eq_some_iff.1 hi).1, (labelSetMatches_iff hi).1 hmatch⟩
  · rintro ⟨i, hlt, hq⟩
    have hi := getElem?_eq_getElem hlt
    exact ⟨(sc.labelSets[i], i), mem_zipIdx_iff_getElem?.2 hi, (labelSetMatches_iff hi).2 hq⟩

/-- A job that excludes nothing is placed if and only if it qualifies for a label set. -/
theorem isSome_findBackendForLabels {scalers : List ScalerEntry} :
    (findBackendForLabels toLowerCase labels scalers []).isSome ↔
      ∃ entry ∈ entries scalers, Qualifies toLowerCase labels [] entry := by
  have hexact : RoutesExactly toLowerCase labels [] scalers (rank toLowerCase labels)
      (findBackendForLabels toLowerCase labels scalers []) := by
    by_cases hlabels : labels = []
    · subst hlabels
      rw [findBackendForLabels_nil fun _ _ e he => absurd he not_mem_nil]
      exact routesExactly_smallest _
    · rw [findBackendForLabels_of_ne_nil hlabels]
      exact routesExactly_smallest _
  rw [Option.isSome_iff_ne_none, Ne, hexact.missing]
  push Not
  rfl

theorem mem_entries_singleton {scaler : ScalerEntry} {entry : ScalerEntry × ℕ} :
    entry ∈ entries [scaler] ↔ entry.1 = scaler ∧ entry.2 < scaler.labelSets.length := by
  obtain ⟨s, i⟩ := entry
  simp only [entries, flatMap_cons, flatMap_nil, append_nil, mem_map, mem_range, Prod.mk.injEq]
  exact ⟨fun ⟨_, hlt, hs, hi⟩ => ⟨hs.symm, hi ▸ hlt⟩, fun ⟨hs, hlt⟩ => ⟨i, hlt, hs.symm, rfl⟩⟩

/-- A peer's scaler matches the labels of a job if and only if the peer's own matcher finds a label
set of it. -/
theorem scalerCapacityMatchesRequiredLabels_iff (toLowerCase : JsString → JsString)
    (sc : ScalerCapacitySummary) (name : JsString) (requiredLabels : List JsString) :
    scalerCapacityMatchesRequiredLabels toLowerCase sc requiredLabels ↔
      (findBackendForLabels toLowerCase requiredLabels [sc.entry name] []).isSome := by
  rw [scalerCapacityMatchesRequiredLabels_iff_qualifies name, isSome_findBackendForLabels]
  constructor
  · rintro ⟨i, hlt, hq⟩
    exact ⟨(sc.entry name, i), mem_entries_singleton.2 ⟨rfl, hlt⟩, hq⟩
  · rintro ⟨⟨s, i⟩, hmem, hq⟩
    obtain ⟨rfl, hlt⟩ := mem_entries_singleton.1 hmem
    exact ⟨i, hlt, hq⟩

/-- A peer that is chosen for its scalers alone has one with room, whose label sets the job
qualifies for. -/
theorem exists_scaler_of_mem_findPeersWithCapacity
    (h : peer ∈ findPeersWithCapacity trim toLowerCase peers labelSets)
    (hagents : ∀ agent ∈ peer.agents, agent.activeJobs < agent.maxConcurrency →
      agentMatches trim toLowerCase labelSets agent = false) :
    ∃ sc ∈ peer.scalerCapacity.getD [], sc.activeCount < sc.maxAgents ∧
      ∃ requiredLabels ∈ labelSets, ∃ i < sc.labelSets.length,
        Qualifies toLowerCase requiredLabels [] (sc.entry (sc.name.getD []), i) := by
  simp only [findPeersWithCapacity, mem_filter, Bool.and_eq_true, Bool.or_eq_true, any_eq_true] at h
  obtain ⟨-, -, hagent | hscaler⟩ := h
  · obtain ⟨agent, hagent, hroom, hmatch⟩ := hagent
    exact absurd hmatch (by simp [hagents agent hagent (by simpa using hroom)])
  · obtain ⟨sc, hsc, hroom, hmatch⟩ := hscaler
    obtain ⟨requiredLabels, hmem, hlabels⟩ := any_eq_true.1 hmatch
    refine ⟨sc, hsc, by simpa using hroom, requiredLabels, hmem, ?_⟩
    exact (scalerCapacityMatchesRequiredLabels_iff_qualifies _).1 hlabels

/-- The lower case of letters from A to Z. -/
def lowerAscii (s : JsString) : JsString := s.map fun u => if 0x41 ≤ u ∧ u ≤ 0x5A then u + 0x20 else u

/-- A peer with a free agent on Windows, and a scaler one of whose label sets is gated. -/
def gpuPeer : PeerInfo where
  instanceId := js "orch-2"
  connected := true
  draining := false
  agents := [⟨js "agent-1", [js "windows"], 0, 1, []⟩]
  scalerCapacity := some
    [⟨some (js "pool"), [[js "linux"], [js "Linux", js "GPU"]], 2, 1, [[], [js "gpu"]]⟩]

/-- A job for a GPU on Linux is routed to the peer for the gated label set. -/
theorem exists_scaler_linux : gpuPeer ∈ findPeersWithCapacity id lowerAscii [gpuPeer]
    [[js "linux", js "Gpu"]] ∧
    ∃ sc ∈ gpuPeer.scalerCapacity.getD [], sc.activeCount < sc.maxAgents ∧
      ∃ labels ∈ [[js "linux", js "Gpu"]], ∃ i < sc.labelSets.length,
        Qualifies lowerAscii labels [] (sc.entry (sc.name.getD []), i) := by
  have hchosen : gpuPeer ∈ findPeersWithCapacity id lowerAscii [gpuPeer] [[js "linux", js "Gpu"]] :=
    mem_filter.2 ⟨mem_singleton_self _, by decide⟩
  exact ⟨hchosen, exists_scaler_of_mem_findPeersWithCapacity hchosen
    (forall_mem_singleton.2 fun _ => by decide)⟩

end Kici.Cluster
