import Kici.Agent.LabelIndex

/-!
# The connections of agents

Beside the index of labels a coordinator keeps which agent is registered over a socket, and which
agents are under a token, so that those of a token that is revoked are dropped at once
(`ConnectedAgents`). All of this changes with each call that registers an agent, again over another
socket or with another token, or drops one, and stays as it should be: what the structure says of
the sockets and the tokens is kept by every call.

So after any calls the agents that are found for a job are those that a search of all registered
agents finds (`lookups_exact`), each of them once.
-/

namespace Kici

open AgentEntry AgentRegistry Table Function

/-- The agents of a coordinator with their connections. -/
structure ConnectedAgents (js : JsRuntime) extends AgentRegistry js where
  wsToAgentId : ℕ → Option String
  tokenIdIndex : Index String String
  /-- A socket leads to an agent that is registered over it. -/
  registered_over : ∀ ws agentId, wsToAgentId ws = some agentId → ∃ e ∈ agents,
    e.agentId = agentId ∧ e.ws = ws
  /-- An agent is under the token that it has authenticated with. -/
  lists_tokenIdIndex : tokenIdIndex.Lists agents fun e => e.tokenId.toList
  /-- A label lists an agent once. -/
  distinct_labelIndex : labelIndex.Distinct

namespace ConnectedAgents

variable {js : JsRuntime} (s : ConnectedAgents js) (agentId : String)

def empty : ConnectedAgents js where
  toAgentRegistry := .empty
  wsToAgentId _ := none
  tokenIdIndex _ := []
  registered_over _ _ h := nomatch h
  lists_tokenIdIndex _ _ := by simp [AgentRegistry.empty, Table.empty, Table.mem_def]
  distinct_labelIndex _ := List.nodup_nil

/-- The sockets without that of an agent. -/
def wsWithout : ℕ → Option String :=
  match s.get agentId with
  | some entry => update s.wsToAgentId entry.ws none
  | none => s.wsToAgentId

/-- The tokens without an agent. -/
def tokensWithout : Index String String :=
  s.tokenIdIndex.without s.agents (fun e => e.tokenId.toList) agentId

variable {s agentId} in
/-- Another socket than that of the agent leads to another agent. -/
theorem registered_of_wsWithout {ws : ℕ} {other : String} (h : s.wsWithout agentId ws = some other) :
    ∃ e ∈ s.agents, (e.agentId = other ∧ e.ws = ws) ∧ e.agentId ≠ agentId := by
  have hkept : s.wsToAgentId ws = some other ∧ ∀ entry, s.get agentId = some entry → ws ≠ entry.ws := by
    rcases hget : s.get agentId with _ | entry
    · rw [wsWithout, hget] at h
      exact ⟨h, nofun⟩
    · rw [wsWithout, hget] at h
      by_cases hws : ws = entry.ws
      · rw [hws] at h
        simp at h
      · simp only [update_of_ne hws] at h
        exact ⟨h, fun entry' hentry => Option.some.inj hentry ▸ hws⟩
  obtain ⟨e, he, rfl, rfl⟩ := s.registered_over ws other hkept.1
  refine ⟨e, he, ⟨rfl, rfl⟩, ?_⟩
  rintro rfl
  exact hkept.2 e (lookup_of_mem he) rfl

theorem distinct_indexWithout : (s.indexWithout agentId).Distinct := by
  rw [indexWithout_eq]
  exact s.distinct_labelIndex.without s.agents labels agentId

def unregister : ConnectedAgents js where
  toAgentRegistry := s.toAgentRegistry.unregister agentId
  wsToAgentId := s.wsWithout agentId
  tokenIdIndex := s.tokensWithout agentId
  registered_over ws other h := by
    obtain ⟨e, he, hover, hne⟩ := registered_of_wsWithout h
    exact ⟨e, mem_delete.2 ⟨he, hne⟩, hover⟩
  lists_tokenIdIndex := s.lists_tokenIdIndex.delete agentId
  distinct_labelIndex := s.distinct_indexWithout agentId

/-- An agent registers over a socket, in the place of an earlier connection of it. -/
def register (metadata : AgentMetadata) : ConnectedAgents js where
  toAgentRegistry := s.toAgentRegistry.register agentId metadata
  wsToAgentId := update (s.wsWithout agentId) metadata.ws (some agentId)
  tokenIdIndex := (s.tokensWithout agentId).insert metadata.tokenId.toList agentId
  registered_over ws other h := by
    by_cases hws : ws = metadata.ws
    · subst hws
      rw [update_self] at h
      cases h
      exact ⟨_, mem_put.2 (.inl rfl), rfl, rfl⟩
    · rw [update_of_ne hws] at h
      obtain ⟨e, he, hover, hne⟩ := registered_of_wsWithout h
      exact ⟨e, mem_put.2 (.inr ⟨he, hne⟩), hover⟩
  lists_tokenIdIndex token other := s.lists_tokenIdIndex.put (AgentEntry.mk ..) token other
  distinct_labelIndex := (s.distinct_indexWithout agentId).insert _ _

/-- A change of an agent that leaves its connection and its labels. -/
def modify (u : EntryUpdate) : ConnectedAgents js where
  toAgentRegistry := s.toAgentRegistry.modify agentId u
  wsToAgentId := s.wsToAgentId
  tokenIdIndex := s.tokenIdIndex
  registered_over ws other h := by
    obtain ⟨e, he, rfl, rfl⟩ := s.registered_over ws other h
    refine ⟨_, List.mem_map_of_mem he, Update.key_apply e, ?_⟩
    rw [Update.apply]
    split
    · exact u.ws e
    · rfl
  lists_tokenIdIndex := s.lists_tokenIdIndex.execute fun e => congrArg Option.toList (u.tokenId e)
  distinct_labelIndex := s.distinct_labelIndex

/-- The agent of a socket that has closed is dropped. -/
def unregisterByWs (ws : ℕ) : ConnectedAgents js :=
  match s.wsToAgentId ws with
  | none => s
  | some agentId => s.unregister agentId

/-- The agents under a token that is revoked are dropped. -/
def disconnectByTokenId (tokenId : String) : ConnectedAgents js :=
  (s.tokenIdIndex tokenId).foldl unregister s

/-- The calls that change the agents. -/
inductive Call
  | register (agentId : String) (metadata : AgentMetadata)
  | unregister (agentId : String)
  | unregisterByWs (ws : ℕ)
  | disconnectByTokenId (tokenId : String)
  | incrementActiveJobs (agentId : String)
  | decrementActiveJobs (agentId : String)
  | markDraining (agentId : String) (now : ℕ)
  | markDrainReported (agentId : String) (now : ℕ)
  | clearDraining (agentId : String)
  | markBusyHeld (agentId : String) (now : ℕ)
  | clearBusyHeld (agentId : String)
  | clearExpiredBusyHold (agentId : String) (now : ℕ)

/-- What a call makes of the agents; one for an agent that is not registered leaves them. -/
def perform (s : ConnectedAgents js) : Call → ConnectedAgents js
  | .register agentId metadata => s.register agentId metadata
  | .unregister agentId => s.unregister agentId
  | .unregisterByWs ws => s.unregisterByWs ws
  | .disconnectByTokenId tokenId => s.disconnectByTokenId tokenId
  | .incrementActiveJobs agentId => s.modify agentId { set := incrementActiveJobs }
  | .decrementActiveJobs agentId => s.modify agentId { set := decrementActiveJobs }
  | .markDraining agentId now => s.modify agentId { set := (markDraining · now) }
  | .markDrainReported agentId now => s.modify agentId { set := (markDrainReported · now) }
  | .clearDraining agentId => s.modify agentId { set := clearDraining }
  | .markBusyHeld agentId now => s.modify agentId { set := (markBusyHeld · now) }
  | .clearBusyHeld agentId => s.modify agentId { set := clearBusyHeld }
  | .clearExpiredBusyHold agentId now => s.modify agentId { set := (clearExpiredBusyHold · now) }

/-- The agents after calls, from none at the start. -/
def run (js : JsRuntime) (calls : List Call) : ConnectedAgents js := calls.foldl perform empty

variable {s} {agentId} {e : AgentEntry} {now : ℕ} {selectors : AgentSelectors} {found : List AgentEntry}

/-! ## Registering -/

/-- An agent that registers is there, without jobs; its socket leads to it, and it is found for a job
whose selectors it satisfies. -/
theorem exists_registered (s : ConnectedAgents js) (agentId : String) {metadata : AgentMetadata}
    (hroom : 0 < metadata.maxConcurrency) : ∃ e ∈ (s.register agentId metadata).agents,
      e.agentId = agentId ∧ e.labels = js.canonicalizeLabels metadata.labels ∧
      e.tokenId = metadata.tokenId ∧ (s.register agentId metadata).wsToAgentId e.ws = some agentId ∧
      ∀ now selectors, agentSatisfies js e selectors = .ok true →
        ∃ found, (s.register agentId metadata).findAvailable now selectors = .ok found ∧ e ∈ found := by
  refine ⟨_, mem_put.2 (.inl rfl), rfl, rfl, rfl, update_self .., fun now selectors hsatisfies => ?_⟩
  refine exists_mem_findAvailable.2 ⟨mem_put.2 (.inl rfl), rfl, decide_eq_true ⟨hroom, ?_⟩, hsatisfies⟩
  exact nofun

/-- A runtime for labels that are trimmed and lowercase, and no expressions. -/
def plainRuntime : JsRuntime := ⟨id, id, fun _ _ => none⟩

/-- The agent that has come back over another socket is found once, until its token is revoked. -/
example :
    let calls := [.register "agent-1" { labels := ["linux"], ws := 1, tokenId := "t-1" },
      .register "agent-2" { labels := ["windows"], ws := 2 },
      .register "agent-1" { labels := ["linux", "gpu"], ws := 3, tokenId := "t-1" }, .unregisterByWs 1]
    let ids (calls : List Call) :=
    ((run plainRuntime calls).findAvailable 0 { requiredLabels := ["linux"] }).toOption.map
      fun found => found.map (·.agentId)
    ids calls = some ["agent-1"] ∧ ids (calls ++ [.disconnectByTokenId "t-1"]) = some [] := by
  decide

/-! ## Lookups -/

theorem nodup_withLabels (required : List String) : (s.withLabels required).Nodup := by
  cases required with
  | nil => exact s.agents.nodup.of_map
  | cons label labels =>
    have hids := (Index.narrow_sublist s.labelIndex labels (s.labelIndex label)).nodup
      (s.distinct_labelIndex label)
    refine hids.filterMap fun a a' e he he' => ?_
    rw [← (lookup_eq_some.1 he).2, ← (lookup_eq_some.1 he').2]

/-- No agent is found twice. -/
theorem nodup_findAvailable (h : s.findAvailable now selectors = .ok found) : found.Nodup := by
  simp only [AgentRegistry.findAvailable] at h
  obtain ⟨candidates, hcandidates, h⟩ := bind_eq_ok h
  obtain ⟨filtered, hfiltered, heq⟩ := bind_eq_ok h
  cases heq
  have hcandidate := (filterExcept_sublist hcandidates).nodup ((nodup_withLabels _).filter _)
  exact ((filterExcept_sublist hfiltered).nodup (hcandidate.filter _)).filter _

/-- The lookups by the indexes are those by a search of all registered agents. The two searches
throw alike. -/
structure LookupsExact (s : ConnectedAgents js) (now : ℕ) (selectors : AgentSelectors) : Prop where
  available : ∀ found, s.findAvailable now selectors = .ok found → found.Nodup ∧ ∀ e, e ∈ found ↔
    e ∈ s.agents ∧ e.draining = false ∧ e.agentHasFreeSlot now = true ∧
      agentSatisfies js e selectors = .ok true
  returns : (∃ found, s.findAvailable now selectors = .ok found) ↔
    ∀ e ∈ s.agents, e.draining = false → e.agentHasFreeSlot now = true → ∃ b,
      agentSatisfies js e selectors = .ok b
  matching : s.hasMatchingAgent selectors = .ok true ↔
    ∃ e ∈ s.agents, e.draining = false ∧ agentSatisfies js e selectors = .ok true

/-- After any calls the lookups are exact. -/
theorem lookups_exact (js : JsRuntime) (calls : List Call) (now : ℕ) (selectors : AgentSelectors) :
    LookupsExact (run js calls) now selectors where
  available _ h := ⟨nodup_findAvailable h, fun _ => mem_findAvailable h⟩
  returns := findAvailable_ok_iff
  matching := by simp [hasMatchingAgent_eq_ok_true]

end ConnectedAgents

end Kici
