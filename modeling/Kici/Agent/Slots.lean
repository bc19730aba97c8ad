import Kici.Agent.ClaimEffects
import Kici.Queue.QueueSystem
import Mathlib.Algebra.BigOperators.Group.List.Basic
import Mathlib.Algebra.GroupWithZero.Nat

/-!
# The slots that an agent gives up

An agent does as many jobs as it has slots taken. A job that is claimed for it is not tracked yet
while its row is inserted, or marked as dispatched (`ClaimCall.slots`), and then is until it is
over, rejected or put back. Each of these gives the slot up, but not all look whether the job is
still tracked:

* the report that a job is over gives up a slot, also when it comes again (`onJobComplete`);
* so does a refusal, when something else has put the job back (`releaseClaimAccounting`);
* a job that is tracked once more for the same agent takes two slots, and gives up one.

If none of these happens to an agent (`ReleasesOnce`), it has as many slots taken as jobs are
tracked for it, but for the calls under way (`activeJobs_eq_length`).
-/

namespace Kici

open Function List Option ClaimState

variable {call : ClaimCall} {path : ClaimPath} {k : ℕ} {now : ℕ}

/-- How many slots of an agent a call has taken for a job that is not tracked yet. -/
def ClaimCall.slots (agentId : String) : ClaimCall → ℕ
  | .claim _ _ _ taken | .markDispatched taken _ => if taken = agentId then 1 else 0
  | _ => 0

/-- The call starts to track a job for an agent when it is answered. -/
def ClaimCall.Tracks (agentId jobId : String) : ClaimCall → ClaimAnswer → Prop
  | .claim path _ _ taken, .job claimed =>
    (path = .dispatch ∨ ∃ selectors, path = .dispatchPinned selectors) ∧ taken = agentId ∧
      claimed = jobId
  | .markDispatched taken claimed, .ok => taken = agentId ∧ claimed = jobId
  | _, _ => False

namespace ClaimState

/-- No triage of the jobs of an agent is under way. -/
def NoTriage (s : ClaimState) (agentId : String) : Prop :=
  ∀ agent, .onAgentDisconnect agentId agent ∉ s.calls

/-- The agent has a job that is tracked, or no slot taken. -/
def HasJob (s : ClaimState) (agentId jobId : String) : Prop :=
  jobId ∈ s.agentJobs agentId ∨ ∀ e, s.get agentId = some e → e.activeJobs = 0

end ClaimState

/-- What an agent gives up it has taken, and only once. -/
structure ReleasesOnce (agentId : String) (s : ClaimState) (a : ClaimAction) : Prop where
  /-- A connection starts with no jobs. -/
  register : ∀ entry, a = .register entry → entry.agentId = agentId →
    s.agentJobs agentId = [] ∧ s.NoTriage agentId ∧ ∀ call ∈ s.calls, call.slots agentId = 0
  /-- A report that a job is over comes once. -/
  complete : ∀ jobId, a = .onJobComplete agentId jobId → s.HasJob agentId jobId
  /-- A job that is refused has not been put back. -/
  refused : ∀ k jobId, a = .next k .refused → s.calls[k]? = some (.deliver agentId jobId) →
    s.HasJob agentId jobId
  /-- A job is tracked once. -/
  tracked : ∀ k answer call jobId, a = .next k answer → s.calls[k]? = some call →
    call.Tracks agentId jobId answer → jobId ∉ s.agentJobs agentId

namespace ClaimState

variable {js : JsRuntime} {s t : ClaimState} {agentId other jobId : String} {f : AgentEntry → AgentEntry}
  {live live' : Prop} {n n' : ℕ} {a : ClaimAction}

/-- The jobs that are tracked for an agent and its slots: while it is `live`, it has a slot taken
for each, and `n` more. -/
structure Balanced (agentId : String) (live : Prop) (s : ClaimState) (n : ℕ) : Prop where
  registered : s.WellRegistered
  nodup : (s.agentJobs agentId).Nodup
  tracked : ∀ jobId, s.jobToAgent jobId = some agentId → jobId ∈ s.agentJobs agentId
  count : live → ∀ e, s.get agentId = some e → e.activeJobs = (s.agentJobs agentId).length + n

/-- What changes neither the registry nor the jobs that are tracked. -/
theorem Balanced.of_eq (h : Balanced agentId live s n)
    (ht : t = { t with
      objects := s.objects
      agents := s.agents
      agentJobs := s.agentJobs
      jobToAgent := s.jobToAgent }) :
    Balanced agentId live t n := by
  rw [ht]
  exact ⟨h.registered, h.nodup, h.tracked, h.count⟩

theorem Balanced.mono (h : Balanced agentId live s n) (hlive : live' → live) :
    Balanced agentId live' s n :=
  { h with count := fun hl => h.count (hlive hl) }

/-- An agent that is not registered has no slots. -/
theorem Balanced.of_agents_none (h : Balanced agentId live s n) (hnone : s.agents agentId = none) :
    Balanced agentId live' s n' :=
  { h with count := fun _ e he => by rw [get, hnone] at he; cases he }

/-- What is said of no state in particular about the slots. -/
theorem Balanced.of_false (h : Balanced agentId live s n) (n' : ℕ) : Balanced agentId False s n' :=
  { h with count := False.elim }

/-! ## The registry -/

theorem Balanced.modify (h : Balanced agentId live s n)
    (hf : ∀ e, (f e).agentId = e.agentId ∧ (f e).activeJobs = e.activeJobs) :
    Balanced agentId live (s.modify other f) n where
  registered := h.registered.modify fun e => (hf e).1
  nodup := modify_agentJobs (s := s) ▸ h.nodup
  tracked := by
    rw [modify_jobToAgent, modify_agentJobs]
    exact h.tracked
  count hlive e he := by
    rw [modify_agentJobs]
    rcases get_modify_cases s other agentId f with hsame | hmap
    · exact h.count hlive e (hsame ▸ he)
    · obtain ⟨e', he', rfl⟩ := map_eq_some_iff.1 (hmap ▸ he)
      exact (hf e').2.trans (h.count hlive e' he')

/-- A change to an entry that adds to its slots, or takes from them. -/
theorem Balanced.modify_count (h : Balanced agentId live s n) (hid : ∀ e, (f e).agentId = e.agentId)
    (hself : other = agentId → ∀ e, live → e.activeJobs = (s.agentJobs agentId).length + n →
      (f e).activeJobs = (s.agentJobs agentId).length + n')
    (hother : other ≠ agentId → n' = n) : Balanced agentId live (s.modify other f) n' where
  registered := h.registered.modify hid
  nodup := modify_agentJobs (s := s) ▸ h.nodup
  tracked := by
    rw [modify_jobToAgent, modify_agentJobs]
    exact h.tracked
  count hlive e he := by
    rw [modify_agentJobs]
    by_cases hsame : other = agentId
    · subst hsame
      rw [get_modify_self] at he
      obtain ⟨e', he', rfl⟩ := map_eq_some_iff.1 he
      exact hself rfl e' hlive (h.count hlive e' he')
    · rw [h.registered.get_modify_of_ne (Ne.symm hsame)] at he
      rw [hother hsame]
      exact h.count hlive e he

theorem Balanced.increment (h : Balanced agentId live s n) :
    Balanced agentId live (s.incrementActiveJobs other) (n + if other = agentId then 1 else 0) := by
  refine h.modify_count (fun _ => rfl) (fun hsame e _ hcount => ?_)
    fun hne => by rw [if_neg hne, Nat.add_zero]
  rw [if_pos hsame, AgentEntry.incrementActiveJobs, hcount, Nat.add_assoc]

theorem Balanced.decrement (h : Balanced agentId live s (n + if other = agentId then 1 else 0)) :
    Balanced agentId live (s.decrementActiveJobs other) n := by
  refine h.modify_count (fun _ => rfl) (fun hsame e _ hcount => ?_)
    fun hne => by rw [if_neg hne, Nat.add_zero]
  rw [if_pos hsame] at hcount
  rw [AgentEntry.decrementActiveJobs, hcount, ← Nat.add_assoc, Nat.add_sub_cancel]

theorem Balanced.unregister (h : Balanced agentId live s n) :
    Balanced agentId live (s.unregister other) n where
  registered := quiet_unregister.registered h.registered
  nodup := h.nodup
  tracked := h.tracked
  count hlive e he := by
    by_cases hsame : agentId = other
    · simp [get, ClaimState.unregister, hsame] at he
    · refine h.count hlive e ?_
      simpa [get, ClaimState.unregister, hsame] using he

/-- A new connection has no slots taken. -/
theorem Balanced.register (h : Balanced agentId live s n) {entry : AgentEntry}
    (hnew : entry.agentId = agentId → s.agentJobs agentId = [] ∧ n = 0) :
    Balanced agentId live (s.register entry) n where
  registered := quiet_register.registered h.registered
  nodup := h.nodup
  tracked := h.tracked
  count hlive e he := by
    by_cases hsame : agentId = entry.agentId
    · obtain ⟨hjobs, rfl⟩ := hnew hsame.symm
      simp only [get, register, hsame, update_self, bind_some,
        getElem?_concat_length, some.injEq] at he
      rw [← he]
      simp [register, hjobs]
    · obtain ⟨agent, hagent, hentry⟩ := bind_eq_some_iff.1 he
      simp only [ClaimState.register, update_of_ne hsame] at hagent
      refine h.count hlive e ?_
      rw [get, hagent, bind_some]
      obtain ⟨e', he', -⟩ := h.registered agentId agent hagent
      simpa only [ClaimState.register,
        getElem?_append_left (List.getElem?_eq_some_iff.1 he').1] using hentry

/-! ## Tracking -/

theorem Balanced.track (h : Balanced agentId live s (n + if other = agentId then 1 else 0))
    (hnew : other = agentId → jobId ∉ s.agentJobs agentId) :
    Balanced agentId live (s.trackJobForAgent other jobId) n := by
  by_cases hsame : other = agentId
  · subst hsame
    have hjobs : (s.trackJobForAgent other jobId).agentJobs other = s.agentJobs other ++ [jobId] := by
      simp [trackJobForAgent, hnew rfl]
    rw [if_pos rfl] at h
    refine ⟨h.registered, ?_, fun tracked htracked => ?_, fun hlive e he => ?_⟩
    · rw [hjobs]
      exact h.nodup.append (nodup_singleton _) (disjoint_singleton.2 (hnew rfl))
    · rw [hjobs, mem_append, mem_singleton]
      by_cases htrackedJob : tracked = jobId
      · exact .inr htrackedJob
      · exact .inl (h.tracked tracked (by simpa [trackJobForAgent, htrackedJob] using htracked))
    · rw [hjobs, h.count hlive e he, length_append, length_singleton]
      omega
  · have hjobs : (s.trackJobForAgent other jobId).agentJobs agentId = s.agentJobs agentId :=
      update_of_ne (Ne.symm hsame) ..
    rw [if_neg hsame, Nat.add_zero] at h
    refine ⟨h.registered, ?_, fun tracked htracked => ?_, fun hlive e he => ?_⟩
    · rw [hjobs]
      exact h.nodup
    · rw [hjobs]
      by_cases htrackedJob : tracked = jobId
      · simp [trackJobForAgent, htrackedJob, hsame] at htracked
      · exact h.tracked tracked (by simpa [trackJobForAgent, htrackedJob] using htracked)
    · rw [hjobs]
      exact h.count hlive e he

theorem agentJobs_untrackJob_of_ne (hne : other ≠ agentId) :
    (s.untrackJob other jobId).agentJobs agentId = s.agentJobs agentId :=
  update_of_ne (Ne.symm hne) ..

theorem agentJobs_untrackJob :
    (s.untrackJob agentId jobId).agentJobs agentId = (s.agentJobs agentId).filter (· ≠ jobId) :=
  update_self ..

/-- A job that is not tracked any more; the slots of the agent are as many fewer as there are jobs. -/
theorem Balanced.untrack (h : Balanced agentId live' s n)
    (hcount : live → ∀ e, s.get agentId = some e →
      e.activeJobs = ((s.untrackJob other jobId).agentJobs agentId).length + n') :
    Balanced agentId live (s.untrackJob other jobId) n' where
  registered := h.registered
  nodup := by
    by_cases hsame : other = agentId
    · rw [hsame, agentJobs_untrackJob]
      exact h.nodup.filter _
    · rw [agentJobs_untrackJob_of_ne hsame]
      exact h.nodup
  tracked tracked htracked := by
    by_cases htrackedJob : tracked = jobId
    · simp [untrackJob, htrackedJob] at htracked
    · have hmem := h.tracked tracked (by simpa [untrackJob, htrackedJob] using htracked)
      by_cases hsame : other = agentId
      · rw [hsame, agentJobs_untrackJob]
        exact mem_filter.2 ⟨hmem, decide_eq_true htrackedJob⟩
      · rw [agentJobs_untrackJob_of_ne hsame]
        exact hmem
  count := hcount

theorem Balanced.untrack_of_not_live (h : Balanced agentId live' s n)
    (hlive : live → other ≠ agentId ∧ live') :
    Balanced agentId live (s.untrackJob other jobId) n := by
  refine h.untrack fun hl e he => ?_
  rw [agentJobs_untrackJob_of_ne (hlive hl).1]
  exact h.count (hlive hl).2 e he

theorem length_agentJobs_untrackJob (hnodup : (s.agentJobs agentId).Nodup)
    (hmem : jobId ∈ s.agentJobs agentId) :
    ((s.untrackJob agentId jobId).agentJobs agentId).length + 1 = (s.agentJobs agentId).length := by
  have herase : (s.agentJobs agentId).erase jobId = (s.untrackJob agentId jobId).agentJobs agentId := by
    rw [hnodup.erase_eq_filter, agentJobs_untrackJob]
    exact filter_congr fun tracked _ => by by_cases h : tracked = jobId <;> simp [h]
  rw [← herase, length_erase_add_one hmem]

/-- A job is given up with its slot, if it is tracked or there is no slot to give up. -/
theorem Balanced.release (h : Balanced agentId live s n)
    (hjob : live → other = agentId → s.HasJob agentId jobId) :
    Balanced agentId live (s.releaseClaimAccounting other jobId) n := by
  by_cases hsame : other = agentId
  · subst hsame
    have hdecremented : Balanced other False (s.decrementActiveJobs other) 0 :=
      (h.mono False.elim).modify_count (fun _ => rfl) (fun _ _ hlive _ => hlive.elim) fun hne =>
        absurd rfl hne
    refine hdecremented.untrack fun hlive e he => ?_
    rw [decrementActiveJobs, get_modify_self] at he
    obtain ⟨e', he', rfl⟩ := map_eq_some_iff.1 he
    have hcount := h.count hlive e' he'
    have hjobs : ((s.decrementActiveJobs other).untrackJob other jobId).agentJobs other =
        (s.untrackJob other jobId).agentJobs other := by
      rw [agentJobs_untrackJob, agentJobs_untrackJob, decrementActiveJobs, modify_agentJobs]
    rw [hjobs, AgentEntry.decrementActiveJobs]
    rcases hjob hlive rfl with hmem | hzero
    · have hlength := length_agentJobs_untrackJob h.nodup hmem
      show e'.activeJobs - 1 = _
      omega
    · rw [hzero e' he'] at hcount
      have hle : ((s.untrackJob other jobId).agentJobs other).length ≤ (s.agentJobs other).length := by
        rw [agentJobs_untrackJob]
        exact length_filter_le ..
      show e'.activeJobs - 1 = _
      rw [hzero e' he']
      omega
  · have hdecremented : Balanced agentId live (s.decrementActiveJobs other) n := by
      refine Balanced.decrement ?_
      rw [if_neg hsame]
      exact h
    exact hdecremented.untrack_of_not_live fun hlive => ⟨hsame, hlive⟩

theorem Balanced.onAgentDisconnect (h : Balanced agentId live s n) :
    Balanced agentId live (s.onAgentDisconnect other) n := by
  unfold ClaimState.onAgentDisconnect
  split
  · exact h.unregister
  · exact h.of_eq rfl

theorem Balanced.dropUnacknowledgingAgent (h : Balanced agentId live s n) :
    Balanced agentId live (s.dropUnacknowledgingAgent other) n :=
  h.onAgentDisconnect.unregister

/-! ## Calls -/

/-- The slots of an agent that calls have taken for jobs that are not tracked yet. -/
def pendingSlots (s : ClaimState) (agentId : String) : ℕ := (s.calls.map (·.slots agentId)).sum

/-- The slots of an agent are those of its jobs and of the calls under way, while its jobs are not
triaged. -/
structure Accounted (agentId : String) (s : ClaimState) : Prop where
  balanced : Balanced agentId (s.NoTriage agentId) s (s.pendingSlots agentId)
  /-- A connection ends after its triage. -/
  triage : ∀ agent, .onAgentDisconnect agentId agent ∈ s.calls →
    s.agents agentId = agent ∨ s.agents agentId = none

theorem Accounted.of_calls_eq (h : Accounted agentId s) (hcalls : t.calls = s.calls)
    (hagents : t.agents agentId = s.agents agentId ∨ t.agents agentId = none)
    (hbalanced : Balanced agentId (s.NoTriage agentId) t (s.pendingSlots agentId)) :
    Accounted agentId t where
  balanced := by
    rw [NoTriage, pendingSlots, hcalls]
    exact hbalanced
  triage agent hmem := by
    rcases hagents with hsame | hnone
    · exact hsame ▸ h.triage agent (hcalls ▸ hmem)
    · exact .inr hnone

theorem Accounted.addCall (h : Accounted agentId s) (hslots : call.slots agentId = 0)
    (htriage : ∀ agent, call ≠ .onAgentDisconnect agentId agent) :
    Accounted agentId (s.addCall call) where
  balanced := by
    have hpending : (s.addCall call).pendingSlots agentId = s.pendingSlots agentId := by
      simp [pendingSlots, ClaimState.addCall, hslots]
    rw [hpending]
    refine (h.balanced.mono fun hno agent hmem => hno agent ?_).of_eq rfl
    exact mem_append_left _ hmem
  triage agent hmem := by
    rcases mem_append.1 hmem with hold | hnew
    · exact h.triage agent hold
    · exact absurd (mem_singleton.1 hnew).symm (htriage agent)

/-- A slot that a call takes. -/
theorem Accounted.take (h : Accounted agentId s) {foundAt : ℕ} :
    Accounted agentId (start (s.takeSlot path foundAt other)) where
  balanced := by
    have hpending : (start (s.takeSlot path foundAt other)).pendingSlots agentId =
        s.pendingSlots agentId + if other = agentId then 1 else 0 := by
      simp [pendingSlots, start, takeSlot, incrementActiveJobs, ClaimCall.slots]
    rw [hpending]
    refine (h.balanced.increment.mono fun hno agent hmem => hno agent ?_).of_eq rfl
    simpa [start, takeSlot, incrementActiveJobs] using hmem
  triage agent hmem := by
    have hagents : (start (s.takeSlot path foundAt other)).agents = s.agents := modify_agents
    rw [hagents]
    exact h.triage agent (by simpa [start, takeSlot, incrementActiveJobs] using hmem)

/-- What is answered gives its slots to what it goes on as, or gives them up; what it starts besides
has none. -/
theorem Accounted.next (h : Accounted agentId s) {next : Option ClaimCall}
    (started : List ClaimCall) (hcall : s.calls[k]? = some call) (hcalls : t.calls = s.calls ++ started)
    (hagents : t.agents agentId = s.agents agentId ∨ t.agents agentId = none)
    (htriage : ∀ agent, call ≠ .onAgentDisconnect agentId agent)
    (hnext : ∀ agent, .onAgentDisconnect agentId agent ∉ next)
    (hstarted : ∀ x ∈ started, x.slots agentId = 0 ∧ ∀ agent, x ≠ .onAgentDisconnect agentId agent)
    (hbalanced : ∀ n, Balanced agentId (s.NoTriage agentId) s (n + call.slots agentId) →
      Balanced agentId (s.NoTriage agentId) t (n + next.elim 0 (·.slots agentId))) :
    Accounted agentId { t with calls := t.calls.take k ++ next.toList ++ t.calls.drop (k + 1) } := by
  obtain ⟨hk, -⟩ := List.getElem?_eq_some_iff.1 hcall
  have hreplaced : t.calls.take k ++ next.toList ++ t.calls.drop (k + 1) =
      (s.calls.take k ++ next.toList ++ s.calls.drop (k + 1)) ++ started := by
    rw [hcalls, take_append_of_le_length (by omega), drop_append_of_le_length (by omega)]
    simp only [append_assoc]
  rw [hreplaced]
  have hpending : s.pendingSlots agentId =
      ((s.calls.take k ++ s.calls.drop (k + 1)).map (·.slots agentId)).sum + call.slots agentId := by
    rw [pendingSlots, congrArg (List.map _) (eq_take_cons_drop hcall)]
    simp only [map_append, map_cons, sum_append, sum_cons]
    omega
  have hzero : (started.map (·.slots agentId)).sum = 0 := by
    refine sum_eq_zero fun n hn => ?_
    obtain ⟨x, hx, rfl⟩ := List.mem_map.1 hn
    exact (hstarted x hx).1
  have hpending' : pendingSlots { t with calls :=
        (s.calls.take k ++ next.toList ++ s.calls.drop (k + 1)) ++ started } agentId =
      ((s.calls.take k ++ s.calls.drop (k + 1)).map (·.slots agentId)).sum + next.elim 0
        (·.slots agentId) := by
    have hnextSum : (next.toList.map (·.slots agentId)).sum = next.elim 0 (·.slots agentId) := by
      cases next <;> simp
    simp only [pendingSlots, map_append, sum_append, hzero, hnextSum]
    omega
  constructor
  · rw [hpending']
    refine ((hbalanced _ (hpending ▸ h.balanced)).mono fun hno agent hmem => ?_).of_eq rfl
    rcases eq_or_mem_replaced hcall hmem with heq | hmem
    · exact htriage agent heq.symm
    · exact hno agent (mem_append_left _ hmem)
  · intro agent hmem
    rcases mem_append.1 hmem with hmem | hmem
    · rcases mem_or_mem_of_replaced hmem with hold | hnew
      · exact hagents.elim (fun hsame => hsame ▸ h.triage agent hold) .inr
      · exact absurd (mem_toList.1 hnew) (hnext agent)
    · exact absurd rfl ((hstarted _ hmem).2 agent)

/-- A connection that has ended. -/
theorem accounted_of_agents_none (hbalanced : Balanced agentId False t 0)
    (hnone : t.agents agentId = none) : Accounted agentId t :=
  ⟨hbalanced.of_agents_none hnone, fun _ _ => .inr hnone⟩

/-! ## Steps -/

theorem agents_releaseClaimAccounting : (s.releaseClaimAccounting other jobId).agents = s.agents :=
  modify_agents

theorem calls_releaseClaimAccounting : (s.releaseClaimAccounting other jobId).calls = s.calls :=
  modify_calls

section

variable (h : Accounted agentId s)
include h

theorem Accounted.findFor {selectors : AgentSelectors}
    (ht : s.findFor js path selectors now = some t) : Accounted agentId t := by
  rcases findFor_cases ht with rfl | ⟨found, -, rfl⟩
  · exact h
  · exact h.addCall rfl nofun

theorem Accounted.findPinned :
    Accounted agentId (s.findPinned path other) := by
  unfold ClaimState.findPinned
  split
  · exact h.addCall rfl nofun
  · exact h

theorem Accounted.claimBoundJob {foundAt now : ℕ} :
    Accounted agentId (start (s.claimBoundJob path foundAt other now)) := by
  rcases claimBoundJob_cases s path foundAt other now with hnone | ⟨-, htaken⟩
  · rw [hnone, start_none]
    exact h
  · rw [htaken]
    exact h.take

theorem Accounted.modify
    (hf : ∀ e, (f e).agentId = e.agentId ∧ (f e).activeJobs = e.activeJobs) :
    Accounted agentId (s.modify other f) :=
  h.of_calls_eq modify_calls (.inl (congrFun modify_agents _)) (h.balanced.modify hf)

theorem Accounted.release (hjob : other = agentId → s.HasJob agentId jobId) :
    Accounted agentId (s.releaseClaimAccounting other jobId) :=
  h.of_calls_eq calls_releaseClaimAccounting (.inl (congrFun agents_releaseClaimAccounting _))
    (h.balanced.release fun _ => hjob)

theorem Accounted.unregister : Accounted agentId (s.unregister other) := by
  refine h.of_calls_eq rfl ?_ h.balanced.unregister
  by_cases hsame : agentId = other
  · exact .inr (by rw [hsame]; exact update_self ..)
  · exact .inl (update_of_ne hsame ..)

end

theorem HasJob.modify (h : s.HasJob agentId jobId) (hf : ∀ e, (f e).activeJobs = e.activeJobs) :
    (s.modify other f).HasJob agentId jobId := by
  rw [HasJob, modify_agentJobs]
  refine h.imp_right fun hzero e he => ?_
  rcases get_modify_cases s other agentId f with hsame | hmap
  · exact hzero e (hsame ▸ he)
  · obtain ⟨e', he', rfl⟩ := map_eq_some_iff.1 (hmap ▸ he)
    exact (hf e').trans (hzero e' he')

theorem Accounted.onJobComplete (h : Accounted agentId s)
    (hjob : other = agentId → s.HasJob agentId jobId) :
    Accounted agentId (s.onJobComplete other jobId) := by
  unfold ClaimState.onJobComplete
  split
  · have hcleared : Accounted agentId (s.modify other (·.clearBusyHeld)) := h.modify fun _ => ⟨rfl, rfl⟩
    exact hcleared.release fun hsame => (hjob hsame).modify fun _ => rfl
  · exact h.release hjob

theorem Accounted.onJobRejected (h : Accounted agentId s) {busy : Bool} :
    Accounted agentId (s.onJobRejected other jobId busy now) := by
  unfold ClaimState.onJobRejected
  split
  · next hmem =>
    refine .addCall ?_ rfl nofun
    split
    · have hheld : Accounted agentId (s.modify other (·.markBusyHeld now)) :=
        h.modify fun _ => ⟨rfl, rfl⟩
      refine hheld.release fun hsame => .inl ?_
      rw [modify_agentJobs, ← hsame]
      exact hmem
    · exact h.release fun hsame => .inl (hsame ▸ hmem)
  · exact h

theorem Accounted.noteJobAccepted (h : Accounted agentId s) :
    Accounted agentId (s.noteJobAccepted other jobId now) := by
  unfold ClaimState.noteJobAccepted
  split
  · exact h.modify fun _ => ⟨rfl, rfl⟩
  · exact h

/-- The triage of the jobs of an agent, whose slots are those of no jobs until its connection ends. -/
theorem Accounted.onAgentDisconnect (h : Accounted agentId s) :
    Accounted agentId (s.onAgentDisconnect other) := by
  unfold ClaimState.onAgentDisconnect
  split
  · exact h.unregister
  · by_cases hsame : other = agentId
    · subst hsame
      constructor
      · refine Balanced.of_eq (s := s) ?_ rfl
        exact { h.balanced with
          count := fun hno => absurd (mem_append_right _ (mem_singleton_self _)) (hno _) }
      · intro agent hmem
        rcases mem_append.1 hmem with hold | hnew
        · exact h.triage agent hold
        · cases mem_singleton.1 hnew
          exact .inl rfl
    · exact h.addCall rfl fun agent heq => hsame (by cases heq; rfl)

/-- An agent that is dropped has at most its triage started. -/
theorem exists_calls_dropUnacknowledgingAgent (s : ClaimState) (other : String) : ∃ started,
    (s.dropUnacknowledgingAgent other).calls = s.calls ++ started ∧
      ∀ x ∈ started, ∃ agent, x = .onAgentDisconnect other agent := by
  unfold dropUnacknowledgingAgent onAgentDisconnect
  split
  · exact ⟨[], (append_nil _).symm, nofun⟩
  · exact ⟨_, rfl, fun x hx => ⟨_, mem_singleton.1 hx⟩⟩

theorem agents_dropUnacknowledgingAgent_of_ne (hne : agentId ≠ other) :
    (s.dropUnacknowledgingAgent other).agents agentId = s.agents agentId := by
  unfold dropUnacknowledgingAgent onAgentDisconnect
  split
  · exact (update_of_ne hne ..).trans (update_of_ne hne ..)
  · exact update_of_ne hne ..

section

variable (h : Accounted agentId s)
include h

/-- A call that is answered, and starts no other one. -/
theorem Accounted.next_of_calls_eq {next : Option ClaimCall}
    (hcall : s.calls[k]? = some call) (hcalls : t.calls = s.calls) (hagents : t.agents = s.agents)
    (htriage : ∀ agent, call ≠ .onAgentDisconnect agentId agent)
    (hnext : ∀ agent, .onAgentDisconnect agentId agent ∉ next)
    (hbalanced : ∀ n, Balanced agentId (s.NoTriage agentId) s (n + call.slots agentId) →
      Balanced agentId (s.NoTriage agentId) t (n + next.elim 0 (·.slots agentId))) :
    Accounted agentId { t with calls := t.calls.take k ++ next.toList ++ t.calls.drop (k + 1) } :=
  h.next [] hcall (by rw [hcalls, append_nil]) (.inl (congrFun hagents _)) htriage hnext nofun
    hbalanced

/-- A slot that is taken for an agent that a call has found. -/
theorem Accounted.next_takeSlot {foundAt : ℕ}
    {result : ClaimState × Option ClaimCall} (hcall : s.calls[k]? = some call)
    (hslots : call.slots agentId = 0) (htriage : ∀ agent, call ≠ .onAgentDisconnect agentId agent)
    (hresult : result = (s, none) ∨ result = s.takeSlot path foundAt other) :
    Accounted agentId { result.1 with
      calls := result.1.calls.take k ++ result.2.toList ++ result.1.calls.drop (k + 1) } := by
  rcases hresult with rfl | rfl
  · exact h.next_of_calls_eq hcall rfl rfl htriage nofun fun n hn => by rwa [hslots] at hn
  · refine h.next_of_calls_eq hcall modify_calls modify_agents htriage nofun fun n hn => ?_
    rw [hslots] at hn
    exact hn.increment

/-- An answer to a statement keeps the books of an agent. -/
theorem Accounted.callNext {answer : ClaimAnswer}
    {next : Option ClaimCall} (hreleases : ReleasesOnce agentId s (.next k answer))
    (hcall : s.calls[k]? = some call) (hnext : s.callNext js call answer = some (t, next)) :
    Accounted agentId { t with calls := t.calls.take k ++ next.toList ++ t.calls.drop (k + 1) } := by
  unfold ClaimState.callNext at hnext
  split at hnext
  case h_1 | h_3 | h_4 | h_10 | h_13 | h_14 =>
    cases hnext
    exact h.next_of_calls_eq hcall rfl rfl nofun nofun fun n hn => hn
  case h_6 | h_9 =>
    cases hnext
    exact h.next_of_calls_eq hcall modify_calls modify_agents nofun nofun fun n hn => hn.decrement
  · next path foundAt passed other now =>
    obtain ⟨-, heq⟩ := ite_none_right_eq_some.1 hnext
    have hresult := (selectFor_cases s path foundAt other now).imp_right (·.2)
    rw [some.inj heq] at hresult
    exact h.next_takeSlot hcall rfl nofun hresult
  · next path foundAt other agent rebootPending now =>
    split at hnext
    · next e he =>
      have hresult := (resumeWith_cases js s path foundAt other e rebootPending now).imp_right (·.2.2)
      rw [some.inj hnext] at hresult
      exact h.next_takeSlot hcall rfl nofun hresult
    · cases hnext
  · next path foundAt takenAt other jobId =>
    cases hnext
    cases path with
    | dispatch =>
      refine h.next_of_calls_eq hcall rfl rfl nofun nofun fun n hn =>
        (hn.of_eq rfl).track fun hsame => ?_
      exact hreleases.tracked k _ _ jobId rfl hcall ⟨.inl rfl, hsame, rfl⟩
    | dispatchPinned selectors =>
      refine h.next_of_calls_eq hcall rfl rfl nofun nofun fun n hn =>
        (hn.of_eq rfl).track fun hsame => ?_
      exact hreleases.tracked k _ _ jobId rfl hcall ⟨.inr ⟨selectors, rfl⟩, hsame, rfl⟩
    | _ => exact h.next_of_calls_eq hcall rfl rfl nofun nofun fun n hn => hn.of_eq rfl
  · next other jobId =>
    cases hnext
    refine h.next_of_calls_eq hcall rfl rfl nofun nofun fun n hn => hn.track fun hsame => ?_
    subst hsame
    exact hreleases.tracked k _ _ jobId rfl hcall ⟨rfl, rfl⟩
  · next other jobId =>
    cases hnext
    refine h.next_of_calls_eq hcall calls_releaseClaimAccounting agents_releaseClaimAccounting
      nofun nofun
      fun n hn => hn.release fun _ hsame => ?_
    subst hsame
    exact hreleases.refused k jobId rfl hcall
  · next other jobId =>
    cases hnext
    unfold releaseTrackedClaim
    split
    · next htracked =>
      refine h.next_of_calls_eq hcall calls_releaseClaimAccounting agents_releaseClaimAccounting
        nofun nofun
        fun n hn => hn.release fun _ hsame => ?_
      subst hsame
      exact .inl (h.balanced.tracked jobId htracked)
    · exact h.next_of_calls_eq hcall rfl rfl nofun nofun fun n hn => hn
  · next other jobId =>
    cases hnext
    by_cases hsame : other = agentId
    · subst hsame
      refine accounted_of_agents_none ?_ (update_self ..)
      exact ((h.balanced.of_false 0).release False.elim).dropUnacknowledgingAgent.of_eq rfl
    · obtain ⟨started, hstarted, htriages⟩ :=
        exists_calls_dropUnacknowledgingAgent (s.releaseClaimAccounting other jobId) other
      rw [calls_releaseClaimAccounting] at hstarted
      refine h.next started hcall hstarted (.inl ?_) nofun nofun (fun x hx => ?_) fun n hn =>
        (hn.release fun _ hother => absurd hother hsame).dropUnacknowledgingAgent
      · rw [agents_dropUnacknowledgingAgent_of_ne (Ne.symm hsame), agents_releaseClaimAccounting]
      · obtain ⟨agent, rfl⟩ := htriages x hx
        exact ⟨rfl, fun agent' heq => hsame (by cases heq; rfl)⟩
  · next other agent =>
    cases hnext
    by_cases hsame : other = agentId
    · subst hsame
      have htriage := h.triage agent (mem_of_getElem? hcall)
      refine accounted_of_agents_none ?_ ?_
      · split
        · exact (h.balanced.of_false 0).unregister.of_eq rfl
        · exact (h.balanced.of_false 0).of_eq rfl
      · split
        · exact update_self ..
        · next hne => exact htriage.resolve_left hne
    · have htriage : ∀ registered, ClaimCall.onAgentDisconnect other agent ≠ .onAgentDisconnect
        agentId registered :=
        fun registered heq => hsame (by cases heq; rfl)
      split
      · exact h.next [] hcall (append_nil _).symm (.inl (update_of_ne (Ne.symm hsame) ..))
          htriage nofun nofun fun n hn => hn.unregister
      · exact h.next_of_calls_eq hcall rfl rfl htriage nofun fun n hn => hn
  · cases hnext

/-- A step keeps the books of an agent. -/
theorem Accounted.act (hreleases : ReleasesOnce agentId s a) (hact : s.act js a = some t) :
    Accounted agentId t := by
  cases a with
  | register entry =>
    cases hact
    by_cases hsame : entry.agentId = agentId
    · obtain ⟨hjobs, hno, hslots⟩ := hreleases.register entry rfl hsame
      refine ⟨(h.balanced.register fun _ => ⟨hjobs, ?_⟩).of_eq rfl, fun agent hmem =>
        absurd hmem (hno agent)⟩
      exact sum_eq_zero fun n hn => by
        obtain ⟨call, hcall, rfl⟩ := List.mem_map.1 hn
        exact hslots call hcall
    · exact h.of_calls_eq rfl (.inl (update_of_ne (Ne.symm hsame) ..))
        (h.balanced.register fun heq => absurd heq hsame)
  | unregister other =>
    cases hact
    exact h.unregister
  | markDraining | markDrainReported | clearDraining | clearBusyHeld =>
    cases hact
    exact h.modify fun _ => ⟨rfl, rfl⟩
  | setRebootPending | clearRebootPending | setDraining =>
    cases hact
    exact h.of_calls_eq rfl (.inl rfl) (h.balanced.of_eq rfl)
  | dispatch | redrive =>
    rw [act] at hact
    split at hact
    · cases hact
      exact h
    · exact h.findFor hact
  | dispatchPinned selectors other =>
    cases hact
    exact h.findPinned
  | onAgentAvailable other =>
    cases hact
    unfold onAgentAvailable
    split
    · exact h
    · exact h.findPinned
  | dispatchBoundJob other now =>
    cases hact
    exact h.claimBoundJob
  | redispatch selectors other now =>
    obtain ⟨-, rfl⟩ := redispatch_cases hact
    exact h.claimBoundJob
  | redrivePinned other now =>
    cases hact
    unfold redrivePinned
    split
    · split
      · exact h.findPinned
      · exact h
    · exact h
  | next k answer =>
    obtain ⟨call, hcall, hact⟩ := bind_eq_some_iff.1 hact
    obtain ⟨⟨t', next⟩, hnext, heq⟩ := bind_eq_some_iff.1 hact
    cases heq
    exact h.callNext hreleases hcall hnext
  | onJobAcked other jobId now =>
    cases hact
    exact h.noteJobAccepted
  | onJobComplete other jobId =>
    cases hact
    refine h.onJobComplete fun hsame => ?_
    subst hsame
    exact hreleases.complete jobId rfl
  | onJobRejected other jobId busy now =>
    cases hact
    exact h.onJobRejected
  | handleAckExpiry other jobId =>
    cases hact
    refine h.addCall rfl fun agent heq => ?_
    cases heq
  | onAgentDisconnect other =>
    cases hact
    exact h.onAgentDisconnect
  | untrackJob k jobId =>
    rw [act] at hact
    split at hact
    · next other agent hcall =>
      cases hact
      refine h.of_calls_eq rfl (.inl rfl) (h.balanced.untrack_of_not_live fun hno => ⟨?_, hno⟩)
      rintro rfl
      exact hno agent (mem_of_getElem? hcall)
    · cases hact

theorem Accounted.step (hreleases : ReleasesOnce agentId s a)
    (hstep : (claimSystem js).step s a = some t) : Accounted agentId t := by
  obtain ⟨u, hu, rfl⟩ := map_eq_some_iff.1 hstep
  have hact := h.act hreleases hu
  exact ⟨hact.balanced.of_eq rfl, hact.triage⟩

end

theorem accounted_of_reachable (h : (claimSystem js).Reachable (ReleasesOnce agentId) s) :
    Accounted agentId s := by
  refine h.invariant ?_ fun s a t hs hreleases hstep => hs.step hreleases hstep
  rintro s rfl
  refine accounted_of_agents_none ?_ rfl
  exact {
    registered := nofun
    nodup := nodup_nil
    tracked := nofun
    count := False.elim }

end ClaimState

/-- If an agent gives up only what it has taken, and once, then where no call is under way it has as
many slots taken as jobs are tracked for it. -/
theorem activeJobs_eq_length {js : JsRuntime} {s : ClaimState} {agentId : String}
    (h : (claimSystem js).Reachable (ReleasesOnce agentId) s) (hcalls : s.calls = []) {e : AgentEntry}
    (he : s.get agentId = some e) : e.activeJobs = (s.agentJobs agentId).length := by
  have hbalanced := (accounted_of_reachable h).balanced
  have hcount := hbalanced.count (fun agent hmem => by simp [hcalls] at hmem) e he
  simpa [pendingSlots, hcalls] using hcount

/-- A test of `ReleasesOnce` for an agent with the jobs of one connection. -/
def releasesOnceTest (agentId : String) (s : ClaimState) : ClaimAction → Bool
  | .register _ => s.calls.isEmpty && (s.agentJobs agentId).isEmpty
  | .onJobComplete _ jobId => jobId ∈ s.agentJobs agentId
  | .next _ .refused => false
  | .next _ (.job jobId) => jobId ∉ s.agentJobs agentId
  | .next _ .ok => s.calls.all fun call => match call with
    | .markDispatched _ jobId => jobId ∉ s.agentJobs agentId
    | _ => true
  | _ => true

theorem releasesOnce_of_test {agentId : String} (s : ClaimState) (a : ClaimAction)
    (h : releasesOnceTest agentId s a) : ReleasesOnce agentId s a := by
  constructor
  · rintro entry rfl -
    simp only [releasesOnceTest, Bool.and_eq_true, List.isEmpty_iff] at h
    refine ⟨h.2, ?_, ?_⟩
    · intro agent hmem
      simp [h.1] at hmem
    · intro call hmem
      simp [h.1] at hmem
  · rintro jobId rfl
    exact .inl (of_decide_eq_true h)
  · rintro k jobId rfl
    cases h
  · rintro k answer call jobId rfl hcall htracks
    unfold ClaimCall.Tracks at htracks
    split at htracks
    · obtain ⟨-, -, rfl⟩ := htracks
      exact of_decide_eq_true h
    · obtain ⟨-, rfl⟩ := htracks
      exact of_decide_eq_true (List.all_eq_true.1 h _ (mem_of_getElem? hcall))
    · exact htracks.elim

/-- An agent that is given two jobs, one of which is over. -/
theorem activeJobs_eq_length_complete : ∃ s : ClaimState,
    (claimSystem lowercaseRuntime).Reachable (ReleasesOnce "builder") s ∧
      ∃ e, s.get "builder" = some e ∧ e.activeJobs = 1 ∧
      e.activeJobs = (s.agentJobs "builder").length := by
  obtain ⟨s, hpath, hs⟩ : ∃ s, (claimSystem lowercaseRuntime).Path (ReleasesOnce "builder") {} s ∧
      (s.calls.isEmpty && (s.get "builder").any fun e => e.activeJobs = 1) :=
    System.exists_path_of_run releasesOnce_of_test [
      .register { agentId := "builder", labels := ["linux"], maxConcurrency := 2 },
      .dispatch { requiredLabels := ["linux"] } 0,
      .next 0 .read,
      .next 0 (.select "builder" 0),
      .next 0 (.job "build"),
      .next 0 .ok,
      .next 0 .ok,
      .onAgentAvailable "builder",
      .next 0 .read,
      .next 0 (.resume 0),
      .next 0 (.job "test"),
      .next 0 .ok,
      .next 0 .ok,
      .next 0 .ok,
      .onJobComplete "builder" "build"] (by decide)
  obtain ⟨hcalls, hget⟩ := Bool.and_eq_true_iff.1 hs
  obtain ⟨e, he, hactive⟩ := (Option.any_eq_true _ _).1 hget
  exact ⟨s, ⟨{}, rfl, hpath⟩, e, he, of_decide_eq_true hactive,
    activeJobs_eq_length ⟨{}, rfl, hpath⟩ (List.isEmpty_iff.1 hcalls) he⟩

/-- A run in which the report that a job is over comes again, and gives up the slot of the other
one. -/
theorem exists_released_twice : ∃ s : ClaimState,
    (claimSystem lowercaseRuntime).Reachable System.anyStep s ∧
    s.calls = [] ∧ ∃ e, s.get "builder" = some e ∧ e.activeJobs ≠ (s.agentJobs "builder").length := by
  obtain ⟨s, hpath, hs⟩ := (claimSystem lowercaseRuntime).exists_path {}
      (fun s => s.calls.isEmpty && (s.get "builder").any fun e =>
        e.activeJobs ≠ (s.agentJobs "builder").length)
    System.anyStep_of_true [
      .register { agentId := "builder", labels := ["linux"], maxConcurrency := 2 },
      .dispatch { requiredLabels := ["linux"] } 0,
      .next 0 .read,
      .next 0 (.select "builder" 0),
      .next 0 (.job "build"),
      .next 0 .ok,
      .next 0 .ok,
      .dispatch { requiredLabels := ["linux"] } 0,
      .next 0 .read,
      .next 0 (.select "builder" 0),
      .next 0 (.job "test"),
      .next 0 .ok,
      .next 0 .ok,
      .onJobComplete "builder" "build",
      .onJobComplete "builder" "build"] (by decide)
  obtain ⟨hcalls, hget⟩ := Bool.and_eq_true_iff.1 hs
  obtain ⟨e, he, hne⟩ := (Option.any_eq_true _ _).1 hget
  exact ⟨s, ⟨{}, rfl, hpath⟩, List.isEmpty_iff.1 hcalls, e, he, of_decide_eq_true hne⟩

end Kici
