import Kici.Foundation.Except
import Kici.Labels.Match

/-!
# The agents of a coordinator

What a coordinator knows of an agent that is connected to it (`AgentEntry`), and which agents may be
given a job, as far as the coordinator tells by their labels, by their capacity and by whether they
drain (`findAvailable`).

Labels of agents are in canonical form.
-/

namespace Kici

/-- A connection of an agent. -/
structure AgentEntry where
  agentId : String
  labels : List String
  mandatoryLabels : List String := []
  scalerManaged : Bool := false
  version : Option String := none
  /-- Since when the agent drains; the source keeps whether it does. -/
  drainingSince : Option ℕ := none
  /-- The agent has told that it drains. -/
  drainReported : Bool := false
  busyHeldUntil : Option ℕ := none
  activeJobs : ℕ := 0
  maxConcurrency : ℕ := 1
  /-- The socket of the connection. -/
  ws : ℕ := 0
  /-- The token that the connection has authenticated with. -/
  tokenId : Option String := none

/-- What a job asks of the labels of its agent. -/
structure AgentSelectors where
  requiredLabels : List String := []
  requiredPatterns : List LabelMatcher := []
  excludeLabels : List String := []
  excludePatterns : List LabelMatcher := []

namespace AgentEntry

variable (js : JsRuntime) (e : AgentEntry)

/-- The agent gets no new jobs. -/
def draining : Bool := e.drainingSince.isSome

/-- Whether the agent can take one more job. -/
def agentHasFreeSlot (now : ℕ) : Bool :=
  e.activeJobs < e.maxConcurrency ∧ ∀ heldUntil ∈ e.busyHeldUntil, heldUntil ≤ now

/-- Whether a job asks for every label the agent asks of its jobs. -/
def satisfiesMandatoryLabels (requiredLabels : List String) : Bool :=
  e.mandatoryLabels.all (· ∈ js.canonicalizeLabels requiredLabels)

def incrementActiveJobs : AgentEntry := { e with activeJobs := e.activeJobs + 1 }

def decrementActiveJobs : AgentEntry := { e with activeJobs := e.activeJobs - 1 }

def markDraining (now : ℕ) : AgentEntry := { e with drainingSince := e.drainingSince.or (some now) }

def markDrainReported (now : ℕ) : AgentEntry := { e.markDraining now with drainReported := true }

/-- The agent drains only if it told so itself. -/
def clearDraining : AgentEntry :=
  { e with drainingSince := if e.drainReported then e.drainingSince else none }

/-- How long an agent that rejects a job as busy gets no other one, in milliseconds. -/
def BUSY_HOLD_MAX_MS : ℕ := 30000

def markBusyHeld (now : ℕ) : AgentEntry := { e with busyHeldUntil := some (now + BUSY_HOLD_MAX_MS) }

def clearBusyHeld : AgentEntry := { e with busyHeldUntil := none }

def clearExpiredBusyHold (now : ℕ) : AgentEntry :=
  { e with busyHeldUntil := e.busyHeldUntil.filter fun heldUntil => now < heldUntil }

end AgentEntry

/-- The agents that may be given a job. -/
def findAvailable (js : JsRuntime) (now : ℕ) (agents : List AgentEntry) (selectors : AgentSelectors) :
    Except RegExpError (List AgentEntry) := do
  let required := js.canonicalizeLabels selectors.requiredLabels
  let excluded := js.canonicalizeLabels selectors.excludeLabels
  let requiredMatchers := selectors.requiredPatterns.map js.canonicalizeMatcher
  let excludeMatchers := selectors.excludePatterns.map js.canonicalizeMatcher
  let candidates := agents.filter fun e =>
    required.all (· ∈ e.labels) && (!e.draining && e.agentHasFreeSlot now)
  let candidates ← filterExcept (fun e => requiredMatchers.allM (js.matcherSatisfiedBy e.labels))
    candidates
  let filtered := candidates.filter fun e => !excluded.any (· ∈ e.labels)
  let filtered ← filterExcept (fun e => do
    return !(← excludeMatchers.anyM (js.matcherSatisfiedBy e.labels))) filtered
  return filtered.filter (·.satisfiesMandatoryLabels js required)

/-- Whether the labels of an agent are as a job asks, whatever its capacity. -/
def agentSatisfies (js : JsRuntime) (e : AgentEntry) (selectors : AgentSelectors) :
    Except RegExpError Bool := do
  let required := js.canonicalizeLabels selectors.requiredLabels
  if !required.all (· ∈ e.labels) then return false
  if !(← (selectors.requiredPatterns.map js.canonicalizeMatcher).allM
    (js.matcherSatisfiedBy e.labels)) then
    return false
  if (js.canonicalizeLabels selectors.excludeLabels).any (· ∈ e.labels) then return false
  if ← (selectors.excludePatterns.map js.canonicalizeMatcher).anyM (js.matcherSatisfiedBy e.labels) then
    return false
  return e.satisfiesMandatoryLabels js required

section
variable {js : JsRuntime} {now : ℕ} {agents found : List AgentEntry} {selectors : AgentSelectors}
  {e : AgentEntry}

/-- An agent that is found is one of the agents, does not drain and has a free slot. -/
theorem mem_of_findAvailable (h : findAvailable js now agents selectors = .ok found) (he : e ∈ found) :
    e ∈ agents ∧ e.draining = false ∧ e.agentHasFreeSlot now := by
  simp only [findAvailable] at h
  obtain ⟨candidates, hcandidates, h⟩ := bind_eq_ok h
  obtain ⟨filtered, hfiltered, heq⟩ := bind_eq_ok h
  cases heq
  have he := ((mem_filterExcept hfiltered).1 (List.mem_filter.1 he).1).1
  have he := ((mem_filterExcept hcandidates).1 (List.mem_filter.1 he).1).1
  obtain ⟨hmem, hfree⟩ := List.mem_filter.1 he
  simp only [Bool.and_eq_true, Bool.not_eq_true'] at hfree
  exact ⟨hmem, hfree.2⟩

/-- An agent satisfies selectors if it passes each. -/
theorem agentSatisfies_eq_ok_true : agentSatisfies js e selectors = .ok true ↔
    (∀ label ∈ js.canonicalizeLabels selectors.requiredLabels, label ∈ e.labels) ∧
      (∀ m ∈ selectors.requiredPatterns.map js.canonicalizeMatcher,
        js.matcherSatisfiedBy e.labels m = .ok true) ∧
      (∀ label ∈ js.canonicalizeLabels selectors.excludeLabels, label ∉ e.labels) ∧
      (∀ m ∈ selectors.excludePatterns.map js.canonicalizeMatcher,
        js.matcherSatisfiedBy e.labels m = .ok false) ∧
      e.satisfiesMandatoryLabels js (js.canonicalizeLabels selectors.requiredLabels) := by
  simp only [agentSatisfies, if_eq_ok_true, ifNot_eq_ok_true, ifThen_eq_ok_true, allM_eq_ok_true,
    anyM_eq_ok_false]
  simp [pure, Except.pure]

end

end Kici
