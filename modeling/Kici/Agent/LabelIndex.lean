import Kici.Agent.Registry
import Kici.Foundation.Index

/-!
# The registry of agents

A coordinator finds the agents for a job by an index of their labels. Registering an agent, again or
for the first time, and unregistering it keep the index as it should be (`AgentRegistry`), so that
an agent is found exactly if it may be given a job and satisfies its selectors
(`AgentRegistry.exists_mem_findAvailable`). A job with a regular expression that does not compile
finds no agent.

Whether there is an agent for a job at all is asked by another walk of the index, with the selectors
in another order (`hasMatchingAgent`); it agrees (`AgentRegistry.hasMatchingAgent_eq_ok_true`).
-/

namespace Kici

open List Table

variable {required : List String}

/-- The agents of a coordinator, in the order in which they came, and the index of their labels. -/
structure AgentRegistry (js : JsRuntime) where
  agents : Table AgentEntry.agentId
  labelIndex : Index String String
  /-- An agent is in the index under its labels. -/
  mem_labelIndex : ∀ label agentId, agentId ∈ labelIndex label ↔ ∃ e ∈ agents, e.agentId = agentId ∧
    label ∈ e.labels
  /-- Labels are kept in canonical form. -/
  canonical : ∀ e ∈ agents, (∃ raw, e.labels = js.canonicalizeLabels raw) ∧
    ∃ raw, e.mandatoryLabels = js.canonicalizeLabels raw

namespace AgentRegistry

variable {js : JsRuntime} (registry : AgentRegistry js) (agentId : String) {canRun : AgentEntry → Bool}

def empty : AgentRegistry js where
  agents := .empty _
  labelIndex := fun _ => []
  mem_labelIndex := by simp [Table.empty, Table.mem_def]
  canonical := by simp [Table.empty, Table.mem_def]

def get : Option AgentEntry := registry.agents.lookup agentId

/-- The index without an agent. -/
def removeFromIndexes (entry : AgentEntry) : Index String String :=
  registry.labelIndex.erase entry.labels entry.agentId

/-- The registry after an agent was taken from its index. -/
def indexWithout : Index String String :=
  match registry.get agentId with
  | some entry => registry.removeFromIndexes entry
  | none => registry.labelIndex

theorem indexWithout_eq :
    registry.indexWithout agentId = registry.labelIndex.without registry.agents AgentEntry.labels
    agentId := by
  rcases hget : registry.get agentId with _ | entry
  · rw [Index.without_of_none hget, indexWithout, hget]
  · obtain ⟨-, rfl⟩ := lookup_eq_some.1 hget
    rw [Index.without_of_some hget, indexWithout, hget]
    rfl

theorem lists_labelIndex : registry.labelIndex.Lists registry.agents AgentEntry.labels :=
  registry.mem_labelIndex

def unregister : AgentRegistry js where
  agents := registry.agents.delete agentId
  labelIndex := registry.indexWithout agentId
  mem_labelIndex := by
    rw [indexWithout_eq]
    exact registry.lists_labelIndex.delete agentId
  canonical e he := registry.canonical e (mem_delete.1 he).1

/-- What an agent tells of itself as it registers. -/
structure AgentMetadata where
  labels : List String
  mandatoryLabels : List String := []
  scalerManaged : Bool := false
  version : Option String := none
  maxConcurrency : ℕ := 1
  ws : ℕ := 0
  tokenId : Option String := none

/-- An agent registers, in the place of an earlier connection of it. -/
def register (metadata : AgentMetadata) : AgentRegistry js where
  agents := registry.agents.put {
    agentId
    labels := js.canonicalizeLabels metadata.labels
    mandatoryLabels := js.canonicalizeLabels metadata.mandatoryLabels
    scalerManaged := metadata.scalerManaged
    version := metadata.version
    maxConcurrency := metadata.maxConcurrency
    ws := metadata.ws
    tokenId := metadata.tokenId }
  labelIndex := (registry.indexWithout agentId).insert (js.canonicalizeLabels metadata.labels) agentId
  mem_labelIndex label other := by
    rw [indexWithout_eq]
    exact registry.lists_labelIndex.put (AgentEntry.mk ..) label other
  canonical e he := by
    rcases mem_put.1 he with rfl | ⟨he, -⟩
    · exact ⟨⟨_, rfl⟩, _, rfl⟩
    · exact registry.canonical e he

/-- A change of an agent that leaves its connection and its labels. -/
structure EntryUpdate where
  set : AgentEntry → AgentEntry
  agentId : ∀ e, (set e).agentId = e.agentId := by intro _; rfl
  ws : ∀ e, (set e).ws = e.ws := by intro _; rfl
  tokenId : ∀ e, (set e).tokenId = e.tokenId := by intro _; rfl
  labels : ∀ e, (set e).labels = e.labels := by intro _; rfl
  mandatoryLabels : ∀ e, (set e).mandatoryLabels = e.mandatoryLabels := by intro _; rfl

/-- The update of the entry of an agent. -/
def EntryUpdate.at (u : EntryUpdate) (agentId : String) : Update AgentEntry.agentId where
  guard e := e.agentId = agentId
  set := u.set
  key_set := u.agentId

/-- The slots of an agent are counted, it drains, it is held as busy. -/
def modify (u : EntryUpdate) : AgentRegistry js where
  agents := registry.agents.execute (u.at agentId)
  labelIndex := registry.labelIndex
  mem_labelIndex := registry.lists_labelIndex.execute u.labels
  canonical := forall_mem_execute registry.canonical fun e _ _ he => by
    simp only [EntryUpdate.at, u.labels, u.mandatoryLabels]
    exact he

/-- The agents with all of the labels, by the index. -/
def withLabels : List String → List AgentEntry
  | [] => registry.agents.rows
  | label :: labels =>
    (registry.labelIndex.narrow (registry.labelIndex label) labels).filterMap registry.get

/-- The agents that may be given a job, found by the index. -/
def findAvailable (now : ℕ) (selectors : AgentSelectors) : Except RegExpError (List AgentEntry) := do
  let required := js.canonicalizeLabels selectors.requiredLabels
  let excluded := js.canonicalizeLabels selectors.excludeLabels
  let requiredMatchers := selectors.requiredPatterns.map js.canonicalizeMatcher
  let excludeMatchers := selectors.excludePatterns.map js.canonicalizeMatcher
  let candidates := (registry.withLabels required).filter fun e => !e.draining && e.agentHasFreeSlot now
  let candidates ← filterExcept (fun e => requiredMatchers.allM (js.matcherSatisfiedBy e.labels))
    candidates
  let filtered := candidates.filter fun e => !excluded.any (· ∈ e.labels)
  let filtered ← filterExcept (fun e => do
    return !(← excludeMatchers.anyM (js.matcherSatisfiedBy e.labels))) filtered
  return filtered.filter (·.satisfiesMandatoryLabels js required)

/-- Those of the ids that are under all labels; `none` as soon as there is none. -/
def intersectFrom (ids : List String) : List String → Option (List String)
  | [] => some ids
  | label :: labels =>
    if registry.labelIndex label = [] then none
    else
      let ids := ids.filter (· ∈ registry.labelIndex label)
      if ids = [] then none else intersectFrom ids labels

/-- The ids of the agents with all of the labels; none for no label, where all agents are gone
through. -/
def intersectLabelCandidates : List String → Option (List String)
  | [] => some []
  | label :: labels =>
    if registry.labelIndex label = [] then none
      else registry.intersectFrom (registry.labelIndex label) labels

/-- Whether an agent with the labels passes the rest of what a job asks, whatever its capacity. -/
def passes (js : JsRuntime) (selectors : AgentSelectors) (canRun : AgentEntry → Bool) (e : AgentEntry) :
    Except RegExpError Bool := do
  if e.draining then return false
  if (js.canonicalizeLabels selectors.excludeLabels).any (· ∈ e.labels) then return false
  if ← (selectors.requiredPatterns.map js.canonicalizeMatcher).anyM fun p => do
      return !(← js.matcherSatisfiedBy e.labels p) then
    return false
  if ← (selectors.excludePatterns.map js.canonicalizeMatcher).anyM (js.matcherSatisfiedBy e.labels) then
    return false
  return e.satisfiesMandatoryLabels js (js.canonicalizeLabels selectors.requiredLabels) && canRun e

/-- Whether some agent matches a job, whatever its capacity. -/
def hasMatchingAgent (selectors : AgentSelectors) (canRun : AgentEntry → Bool := fun _ => true) :
    Except RegExpError Bool :=
  let required := js.canonicalizeLabels selectors.requiredLabels
  match registry.intersectLabelCandidates required with
  | none => .ok false
  | some candidateIds =>
    if required = [] then registry.agents.rows.anyM (passes js selectors canRun)
    else (candidateIds.filterMap registry.get).anyM (passes js selectors canRun)

variable {registry} {now : ℕ} {selectors : AgentSelectors} {e : AgentEntry} {found : List AgentEntry}

theorem mem_withLabels :
    e ∈ registry.withLabels required ↔ e ∈ registry.agents ∧ ∀ label ∈ required, label ∈ e.labels := by
  cases required with
  | nil => simp [withLabels, mem_def]
  | cons label labels =>
    rw [withLabels, mem_filterMap, forall_mem_cons]
    constructor
    · rintro ⟨agentId, hmem, hget⟩
      obtain ⟨he, rfl⟩ := lookup_eq_some.1 hget
      have hlabels : ∀ l, e.agentId ∈ registry.labelIndex l → l ∈ e.labels := by
        intro l hl
        obtain ⟨e', he', hid, hlabel⟩ := (registry.mem_labelIndex l e.agentId).1 hl
        exact inj_on_of_nodup_map registry.agents.nodup he' he hid ▸ hlabel
      obtain ⟨hfirst, hrest⟩ := Index.mem_narrow.1 hmem
      exact ⟨he, hlabels label hfirst, fun l hl => hlabels l (hrest l hl)⟩
    · rintro ⟨he, hfirst, hrest⟩
      have hindex : ∀ l ∈ e.labels, e.agentId ∈ registry.labelIndex l := fun l hl =>
        (registry.mem_labelIndex l e.agentId).2 ⟨e, he, rfl, hl⟩
      refine ⟨e.agentId, Index.mem_narrow.2 ⟨hindex label hfirst, fun l hl => hindex l (hrest l hl)⟩, ?_⟩
      exact lookup_of_mem he

/-- An agent is found exactly if it does not drain, has a free slot and satisfies the selectors. -/
theorem mem_findAvailable (h : registry.findAvailable now selectors = .ok found) : e ∈ found ↔
    e ∈ registry.agents ∧ e.draining = false ∧ e.agentHasFreeSlot now ∧
      agentSatisfies js e selectors = .ok true := by
  simp only [findAvailable] at h
  obtain ⟨candidates, hcandidates, h⟩ := bind_eq_ok h
  obtain ⟨filtered, hfiltered, heq⟩ := bind_eq_ok h
  cases heq
  rw [mem_filter, mem_filterExcept hfiltered, mem_filter, mem_filterExcept hcandidates, mem_filter,
    mem_withLabels, not_eq_ok_true, allM_eq_ok_true, anyM_eq_ok_false, agentSatisfies_eq_ok_true]
  simp only [Bool.and_eq_true, Bool.not_eq_true', List.any_eq_false, decide_eq_true_eq]
  constructor
  · rintro ⟨⟨⟨⟨⟨⟨he, hrequired⟩, hdraining, hfree⟩, hpatterns⟩, hexcluded⟩, hexcludePatterns⟩,
      hmandatory⟩
    exact ⟨he, hdraining, hfree, hrequired, hpatterns, hexcluded, hexcludePatterns, hmandatory⟩
  · rintro ⟨he, hdraining, hfree, hrequired, hpatterns, hexcluded, hexcludePatterns, hmandatory⟩
    exact ⟨⟨⟨⟨⟨⟨he, hrequired⟩, hdraining, hfree⟩, hpatterns⟩, hexcluded⟩, hexcludePatterns⟩, hmandatory⟩

/-- If an agent satisfies the selectors, then their expressions compile, and the search does not
fail. -/
theorem findAvailable_ok (h : agentSatisfies js e selectors = .ok true) :
    ∃ found, registry.findAvailable now selectors = .ok found := by
  obtain ⟨-, hpatterns, -, hexcludePatterns, -⟩ := agentSatisfies_eq_ok_true.1 h
  have hrequired : ∀ candidates : List AgentEntry, ∃ kept, filterExcept (fun e =>
      (selectors.requiredPatterns.map js.canonicalizeMatcher).allM (js.matcherSatisfiedBy e.labels))
        candidates = .ok kept :=
    fun _ => filterExcept_ok fun e' _ => allM_ok fun m hm =>
      JsRuntime.matcherSatisfiedBy_ok (hpatterns m hm) e'.labels
  have hexcluded : ∀ candidates : List AgentEntry, ∃ kept, filterExcept (fun e => do
      return !(← (selectors.excludePatterns.map js.canonicalizeMatcher).anyM
        (js.matcherSatisfiedBy e.labels)))
        candidates = .ok kept := by
    refine fun _ => filterExcept_ok fun e' _ => ?_
    obtain ⟨b, hb⟩ := anyM_ok fun m hm =>
      JsRuntime.matcherSatisfiedBy_ok (hexcludePatterns m hm) e'.labels
    exact ⟨!b, by rw [hb]; rfl⟩
  obtain ⟨candidates, hcandidates⟩ := hrequired ((registry.withLabels
    (js.canonicalizeLabels selectors.requiredLabels)).filter fun e =>
      !e.draining && e.agentHasFreeSlot now)
  obtain ⟨filtered, hfiltered⟩ := hexcluded (candidates.filter fun e =>
    !(js.canonicalizeLabels selectors.excludeLabels).any (· ∈ e.labels))
  exact ⟨_, bind_ok hcandidates (bind_ok hfiltered rfl)⟩

theorem exists_mem_findAvailable :
    (∃ found, registry.findAvailable now selectors = .ok found ∧ e ∈ found) ↔
    e ∈ registry.agents ∧ e.draining = false ∧ e.agentHasFreeSlot now ∧
      agentSatisfies js e selectors = .ok true := by
  constructor
  · rintro ⟨found, hfound, he⟩
    exact (mem_findAvailable hfound).1 he
  · intro h
    obtain ⟨found, hfound⟩ := findAvailable_ok h.2.2.2
    exact ⟨found, hfound, (mem_findAvailable hfound).2 h⟩

/-- The search fails if and only if asking one of the agents with a free slot does. -/
theorem findAvailable_ok_iff : (∃ found, registry.findAvailable now selectors = .ok found) ↔
    ∀ e ∈ registry.agents, e.draining = false → e.agentHasFreeSlot now →
      ∃ b, agentSatisfies js e selectors = .ok b := by
  constructor
  · rintro ⟨found, h⟩ e he hdraining hfree
    simp only [findAvailable] at h
    obtain ⟨candidates, hcandidates, h⟩ := bind_eq_ok h
    obtain ⟨filtered, hfiltered, -⟩ := bind_eq_ok h
    simp only [agentSatisfies]
    by_cases hrequired : ∀ label ∈ js.canonicalizeLabels selectors.requiredLabels, label ∈ e.labels
    · have hmem : e ∈ (registry.withLabels (js.canonicalizeLabels selectors.requiredLabels)).filter
        fun e =>
          !e.draining && e.agentHasFreeSlot now :=
        mem_filter.2 ⟨mem_withLabels.2 ⟨he, hrequired⟩, by simp [hdraining, hfree]⟩
      obtain ⟨pass, hpass⟩ := filterExcept_ok_iff.1 ⟨candidates, hcandidates⟩ e hmem
      have hall : (js.canonicalizeLabels selectors.requiredLabels).all (· ∈ e.labels) := by
        simpa using hrequired
      rw [hall, hpass]
      cases pass with
      | false => exact ⟨false, rfl⟩
      | true =>
        by_cases hexcluded : (js.canonicalizeLabels selectors.excludeLabels).any (· ∈ e.labels)
        · rw [hexcluded]
          exact ⟨false, rfl⟩
        · rw [Bool.not_eq_true] at hexcluded
          have hcand : e ∈ candidates.filter fun e =>
              !(js.canonicalizeLabels selectors.excludeLabels).any (· ∈ e.labels) :=
            mem_filter.2 ⟨(mem_filterExcept hcandidates).2 ⟨hmem, hpass⟩, by rw [hexcluded]; rfl⟩
          obtain ⟨out, hout⟩ := filterExcept_ok_iff.1 ⟨filtered, hfiltered⟩ e hcand
          obtain ⟨hit, hhit, -⟩ := bind_eq_ok hout
          rw [hexcluded, hhit]
          cases hit with
          | true => exact ⟨false, rfl⟩
          | false => exact ⟨_, rfl⟩
    · have hall : (js.canonicalizeLabels selectors.requiredLabels).all (· ∈ e.labels) = false := by
        simpa using hrequired
      rw [hall]
      exact ⟨false, rfl⟩
  · intro h
    -- An agent that is asked has all required labels, and so is asked for the rest of its selectors.
    have hask : ∀ e ∈ (registry.withLabels (js.canonicalizeLabels selectors.requiredLabels)).filter
      fun e =>
        !e.draining && e.agentHasFreeSlot now, ∃ b, agentSatisfies js e selectors = .ok b ∧
          (js.canonicalizeLabels selectors.requiredLabels).all (· ∈ e.labels) := by
      intro e he
      obtain ⟨hmem, hfree⟩ := mem_filter.1 he
      obtain ⟨hregistered, hrequired⟩ := mem_withLabels.1 hmem
      simp only [Bool.and_eq_true, Bool.not_eq_true'] at hfree
      obtain ⟨b, hb⟩ := h e hregistered hfree.1 hfree.2
      exact ⟨b, hb, by simpa using hrequired⟩
    obtain ⟨candidates, hcandidates⟩ : ∃ candidates, filterExcept (fun e =>
        (selectors.requiredPatterns.map js.canonicalizeMatcher).allM (js.matcherSatisfiedBy e.labels))
          ((registry.withLabels (js.canonicalizeLabels selectors.requiredLabels)).filter fun e =>
            !e.draining && e.agentHasFreeSlot now) = .ok candidates := by
      refine filterExcept_ok fun e he => ?_
      obtain ⟨b, hb, hall⟩ := hask e he
      simp only [agentSatisfies, hall] at hb
      obtain ⟨pass, hpass, -⟩ := bind_eq_ok hb
      exact ⟨pass, hpass⟩
    obtain ⟨filtered, hfiltered⟩ : ∃ filtered, filterExcept (fun e => do
        return !(← (selectors.excludePatterns.map js.canonicalizeMatcher).anyM
          (js.matcherSatisfiedBy e.labels)))
          (candidates.filter fun e => !(js.canonicalizeLabels selectors.excludeLabels).any
            (· ∈ e.labels)) =
            .ok filtered := by
      refine filterExcept_ok fun e he => ?_
      obtain ⟨hcandidate, hexcluded⟩ := mem_filter.1 he
      obtain ⟨hmem, hpass⟩ := (mem_filterExcept hcandidates).1 hcandidate
      obtain ⟨b, hb, hall⟩ := hask e hmem
      rw [Bool.not_eq_true'] at hexcluded
      simp only [agentSatisfies, hall] at hb
      obtain ⟨pass, hpass', hb⟩ := bind_eq_ok hb
      obtain rfl := Except.ok.inj (hpass.symm.trans hpass')
      rw [hexcluded] at hb
      obtain ⟨hit, hhit, -⟩ := bind_eq_ok hb
      exact ⟨!hit, by rw [hhit]; rfl⟩
    exact ⟨_, bind_ok hcandidates (bind_ok hfiltered rfl)⟩

/-! ## Matching agents -/

theorem mem_intersectFrom {ids : List String} {labels : List String} {agentId : String} :
    (∃ found, registry.intersectFrom ids labels = some found ∧ agentId ∈ found) ↔
      agentId ∈ ids ∧ ∀ label ∈ labels, agentId ∈ registry.labelIndex label := by
  induction labels generalizing ids with
  | nil => simp [intersectFrom]
  | cons label labels ih =>
    have hfilter : agentId ∈ ids.filter (· ∈ registry.labelIndex label) ↔
        agentId ∈ ids ∧ agentId ∈ registry.labelIndex label := by simp
    rw [intersectFrom, forall_mem_cons, ← and_assoc, ← hfilter]
    split
    · next hnone => simp [hnone]
    · simp only
      split
      · next hnone => simp [hnone]
      · exact ih

/-- The candidates for labels are the agents with all of them. -/
theorem mem_intersectLabelCandidates (hne : required ≠ []) :
    (∃ ids, registry.intersectLabelCandidates required = some ids ∧ e ∈ ids.filterMap registry.get) ↔
      e ∈ registry.agents ∧ ∀ label ∈ required, label ∈ e.labels := by
  obtain ⟨label, labels, rfl⟩ := exists_cons_of_ne_nil hne
  have hids : ∀ agentId,
    (∃ ids, registry.intersectLabelCandidates (label :: labels) = some ids ∧ agentId ∈ ids) ↔
      ∀ l ∈ label :: labels, agentId ∈ registry.labelIndex l := by
    intro agentId
    rw [intersectLabelCandidates, forall_mem_cons]
    split
    · next hnone => simp [hnone]
    · exact mem_intersectFrom
  constructor
  · rintro ⟨ids, hsome, hmem⟩
    obtain ⟨agentId, hid, hget⟩ := mem_filterMap.1 hmem
    obtain ⟨he, rfl⟩ := lookup_eq_some.1 hget
    refine ⟨he, fun l hl => ?_⟩
    obtain ⟨e', he', hsame, hlabel⟩ :=
      (registry.mem_labelIndex l e.agentId).1 ((hids e.agentId).1 ⟨ids, hsome, hid⟩ l hl)
    exact inj_on_of_nodup_map registry.agents.nodup he' he hsame ▸ hlabel
  · rintro ⟨he, hlabels⟩
    obtain ⟨ids, hsome, hid⟩ := (hids e.agentId).2 fun l hl =>
      (registry.mem_labelIndex l e.agentId).2 ⟨e, he, rfl, hlabels l hl⟩
    exact ⟨ids, hsome, mem_filterMap.2 ⟨e.agentId, hid, lookup_of_mem he⟩⟩

/-- An agent with the required labels passes the rest if and only if it satisfies the selectors. -/
theorem passes_eq_ok_true (hrequired : ∀ label ∈ js.canonicalizeLabels selectors.requiredLabels,
    label ∈ e.labels) : passes js selectors canRun e = .ok true ↔
      e.draining = false ∧ agentSatisfies js e selectors = .ok true ∧ canRun e := by
  have hmatcher : ∀ m, (do return !(← js.matcherSatisfiedBy e.labels m) : Except RegExpError Bool) =
    .ok false ↔
      js.matcherSatisfiedBy e.labels m = .ok true := by
    intro m
    rcases js.matcherSatisfiedBy e.labels m with err | (_ | _) <;> simp
      [bind, Except.bind, pure, Except.pure]
  simp only [passes, if_eq_ok_true, ifThen_eq_ok_true, anyM_eq_ok_false, hmatcher,
    agentSatisfies_eq_ok_true, Bool.not_eq_true, List.any_eq_false, decide_eq_true_eq]
  simp only [pure, Except.pure, Except.ok.injEq, Bool.and_eq_true]
  constructor
  · rintro ⟨hdraining, hexcluded, hpatterns, hexcludePatterns, hmandatory, hcan⟩
    exact ⟨hdraining, ⟨hrequired, hpatterns, hexcluded, hexcludePatterns, hmandatory⟩, hcan⟩
  · rintro ⟨hdraining, ⟨-, hpatterns, hexcluded, hexcludePatterns, hmandatory⟩, hcan⟩
    exact ⟨hdraining, hexcluded, hpatterns, hexcludePatterns, hmandatory, hcan⟩

/-- If one agent satisfies the selectors, then their expressions compile, and no agent makes the
check fail. -/
theorem passes_ok (h : agentSatisfies js e selectors = .ok true) (other : AgentEntry) :
    ∃ b, passes js selectors canRun other = .ok b := by
  obtain ⟨-, hpatterns, -, hexcludePatterns, -⟩ := agentSatisfies_eq_ok_true.1 h
  obtain ⟨miss, hmiss⟩ : ∃ b, ((selectors.requiredPatterns.map js.canonicalizeMatcher).anyM fun p => do
      return !(← js.matcherSatisfiedBy other.labels p) : Except RegExpError Bool) = .ok b := by
    refine anyM_ok fun m hm => ?_
    obtain ⟨b, hb⟩ := JsRuntime.matcherSatisfiedBy_ok (hpatterns m hm) other.labels
    exact ⟨!b, by rw [hb]; rfl⟩
  obtain ⟨hit, hhit⟩ := anyM_ok fun m hm =>
    JsRuntime.matcherSatisfiedBy_ok (hexcludePatterns m hm) other.labels
  simp only [passes, hmiss, hhit]
  by_cases hdraining : other.draining
  · exact ⟨false, if_pos hdraining⟩
  · rw [if_neg hdraining]
    by_cases hexcluded : (js.canonicalizeLabels selectors.excludeLabels).any (· ∈ other.labels)
    · exact ⟨false, if_pos hexcluded⟩
    · rw [if_neg hexcluded]
      cases miss with
      | true => exact ⟨false, rfl⟩
      | false =>
        cases hit with
        | true => exact ⟨false, rfl⟩
        | false => exact ⟨_, rfl⟩

/-- Some agent matches exactly if one that does not drain satisfies the selectors and can run the
job. -/
theorem hasMatchingAgent_eq_ok_true :
    registry.hasMatchingAgent selectors canRun = .ok true ↔
      ∃ e ∈ registry.agents, e.draining = false ∧ agentSatisfies js e selectors = .ok true ∧
      canRun e := by
  by_cases hnil : js.canonicalizeLabels selectors.requiredLabels = []
  · have hrequired : ∀ e : AgentEntry, ∀ label ∈ js.canonicalizeLabels selectors.requiredLabels,
      label ∈ e.labels := by
      simp [hnil]
    have hall : registry.hasMatchingAgent selectors canRun =
        registry.agents.rows.anyM (passes js selectors canRun) := by
      rw [hasMatchingAgent, hnil]
      rfl
    rw [hall]
    constructor
    · intro h
      obtain ⟨e, he, hpass⟩ := exists_of_anyM h
      exact ⟨e, he, (passes_eq_ok_true (hrequired e)).1 hpass⟩
    · rintro ⟨e, he, hpass⟩
      exact anyM_eq_ok_true (fun other _ => passes_ok hpass.2.1 other) he
        ((passes_eq_ok_true (hrequired e)).2 hpass)
  · cases hids : registry.intersectLabelCandidates (js.canonicalizeLabels selectors.requiredLabels) with
    | none =>
      have hall : registry.hasMatchingAgent selectors canRun = .ok false := by
        rw [hasMatchingAgent, hids]
      rw [hall]
      refine ⟨fun h => absurd h (by simp), ?_⟩
      rintro ⟨e, he, -, hsatisfies, -⟩
      -- An agent that satisfies the selectors is a candidate.
      obtain ⟨ids, hsome, -⟩ :=
        (mem_intersectLabelCandidates hnil).2 ⟨he, (agentSatisfies_eq_ok_true.1 hsatisfies).1⟩
      rw [hids] at hsome
      cases hsome
    | some ids =>
      have hall : registry.hasMatchingAgent selectors canRun =
          (ids.filterMap registry.get).anyM (passes js selectors canRun) := by
        rw [hasMatchingAgent, hids]
        exact if_neg hnil
      have hmem : ∀ e, e ∈ ids.filterMap registry.get ↔
          e ∈ registry.agents ∧ ∀ label ∈ js.canonicalizeLabels selectors.requiredLabels,
            label ∈ e.labels := by
        intro e
        rw [← mem_intersectLabelCandidates hnil, hids]
        simp
      rw [hall]
      constructor
      · intro h
        obtain ⟨e, he, hpass⟩ := exists_of_anyM h
        obtain ⟨hregistered, hrequired⟩ := (hmem e).1 he
        exact ⟨e, hregistered, (passes_eq_ok_true hrequired).1 hpass⟩
      · rintro ⟨e, he, hpass⟩
        have hrequired := (agentSatisfies_eq_ok_true.1 hpass.2.1).1
        exact anyM_eq_ok_true (fun other _ => passes_ok hpass.2.1 other) ((hmem e).2 ⟨he, hrequired⟩)
          ((passes_eq_ok_true hrequired).2 hpass)

end AgentRegistry

end Kici
