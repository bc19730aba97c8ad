import Kici.Agent.Claims

/-!
# What the steps of a coordinator do

A step sets a flag of an agent, finds agents for a job, takes a slot or answers a call (`Acted`,
`Answered`); all else that it can do leaves the flags and the slots alone, or clears them (`Quiet`).
What is proved of the slots and of the agents that are going away is proved from these cases.
-/

namespace Kici

open List Option

/-- The call has not found an agent, or is about one that was chosen and got a job. -/
def ClaimCall.Plain : ClaimCall → Prop
  | .filterRebootPending .. | .isRebootPending .. | .claim .. => False
  | _ => True

namespace ClaimState

variable {selectors : AgentSelectors} {a : ClaimAction} {e : AgentEntry} {call : ClaimCall}

/-- An agent that is registered has an entry of its own. -/
def WellRegistered (s : ClaimState) : Prop :=
  ∀ agentId agent, s.agents agentId = some agent → ∃ e, s.objects[agent]? = some e ∧ e.agentId = agentId

/-- No flag is set, no agent gets one more job, and no call finds or chooses an agent. -/
structure Quiet (s t : ClaimState) : Prop where
  clock : t.clock = s.clock
  registered : s.WellRegistered → t.WellRegistered
  draining : ∀ agentId, t.drainingSince agentId = s.drainingSince agentId ∨
    t.drainingSince agentId = none
  rebooting : ∀ agentId, t.rebootPendingSince agentId = s.rebootPendingSince agentId ∨
    t.rebootPendingSince agentId = none
  capacity : ∀ e ∈ t.objects, e.activeJobs = 0 ∨
    ∃ e' ∈ s.objects, e.activeJobs ≤ e'.activeJobs ∧ e.maxConcurrency = e'.maxConcurrency
  calls : ∀ x ∈ t.calls, x ∈ s.calls ∨ x.Plain
  claimed : t.claimed = s.claimed

/-- What the answer to the statement of a call can do: nothing to the flags and the slots, or read a
flag, take a slot, or claim a job. -/
inductive Answered (s : ClaimState) : ClaimCall → ClaimAnswer → ClaimState → Option ClaimCall → Prop
  | quiet {call answer t next} (h : s.Quiet t) (hnext : ∀ x ∈ next, x.Plain) :
    Answered s call answer t next
  | readFound {path foundAt agentId rest passed} :
    Answered s (.filterRebootPending path foundAt (agentId :: rest) passed) .read s
      (some (.filterRebootPending path foundAt rest
        (if (s.rebootPendingSince agentId).isSome then passed else passed ++ [agentId])))
  | readPinned {path foundAt agentId agent} :
    Answered s (.isRebootPending path foundAt agentId agent none) .read s
      (some (.isRebootPending path foundAt agentId agent (some (s.rebootPendingSince agentId).isSome)))
  | takeFound {path foundAt passed agentId now} (hpassed : agentId ∈ passed)
    (hfree : path = .dispatch ∨ ∃ e, s.get agentId = some e ∧ e.agentHasFreeSlot now = true) :
    Answered s (.filterRebootPending path foundAt [] passed) (.select agentId now)
      (s.incrementActiveJobs agentId)
      (some (.claim path foundAt s.clock agentId))
  | takePinned {path foundAt agentId agent now e} (he : s.objects[agent]? = some e)
    (hfree : path ≠ .redrivePendingToConnectedAgents ∧ e.agentHasFreeSlot now = true ∨
      ∃ e, s.get agentId = some e ∧ e.agentHasFreeSlot now = true) :
    Answered s (.isRebootPending path foundAt agentId agent (some false)) (.resume now)
      (s.incrementActiveJobs agentId) (some (.claim path foundAt s.clock agentId))
  | claim {path foundAt takenAt agentId jobId t next} (hnext : ∀ x ∈ next, x.Plain)
    (h : Quiet { s with claimed := s.claimed ++ [{
      agentId
      jobId
      foundAt
      takenAt
      drainingSince := s.drainingSince agentId
      rebootPendingSince := s.rebootPendingSince agentId }] } t) :
    Answered s (.claim path foundAt takenAt agentId) (.job jobId) t next

/-- What a step can do: nothing to the flags and the slots, or set a flag, find agents for a job,
take a slot, or answer a call. -/
inductive Acted (s : ClaimState) : ClaimAction → ClaimState → Prop
  | quiet {a t} (h : s.Quiet t) : Acted s a t
  | markDraining {agentId} : Acted s (.markDraining agentId) (s.modify agentId (·.markDraining s.clock))
  | markDrainReported {agentId} :
    Acted s (.markDrainReported agentId) (s.modify agentId (·.markDrainReported s.clock))
  | setRebootPending {agentId} : Acted s (.setRebootPending agentId) (s.setRebootPending agentId)
  | find {a path found} (h : ∀ agentId ∈ found, s.drainingSince agentId = none) :
    Acted s a (s.addCall (.filterRebootPending path s.clock found []))
  | findPinned {a path agentId agent} (hagent : s.agents agentId = some agent)
    (h : (∃ selectors, a = .dispatchPinned selectors agentId) ∨ (∃ now, a = .redrivePinned agentId now) ∨
      s.drainingSince agentId = none) :
    Acted s a (s.addCall (.isRebootPending path s.clock agentId agent none))
  | take {a path agentId now} (hfree : ∃ e, s.get agentId = some e ∧ e.agentHasFreeSlot now = true)
    (h : a = .dispatchBoundJob agentId now ∨
      (∃ selectors, a = .redispatch selectors agentId now) ∧ s.drainingSince agentId = none) :
    Acted s a (start (s.takeSlot path s.clock agentId))
  | next {k answer call t next} (hcall : s.calls[k]? = some call) (h : s.Answered call answer t next) :
    Acted s (.next k answer) { t with calls := t.calls.take k ++ next.toList ++ t.calls.drop (k + 1) }

variable {js : JsRuntime} {s t u : ClaimState} {agentId other jobId : String}
  {f : AgentEntry → AgentEntry} {path : ClaimPath} {foundAt now : ℕ}

/-! ## Entries -/

@[simp] theorem modify_agents : (s.modify agentId f).agents = s.agents := by
  unfold modify; split <;> rfl

@[simp] theorem modify_rebootPendingSince :
    (s.modify agentId f).rebootPendingSince = s.rebootPendingSince := by
  unfold modify; split <;> rfl

@[simp] theorem modify_isDraining : (s.modify agentId f).isDraining = s.isDraining := by
  unfold modify; split <;> rfl

@[simp] theorem modify_agentJobs : (s.modify agentId f).agentJobs = s.agentJobs := by
  unfold modify; split <;> rfl

@[simp] theorem modify_jobToAgent : (s.modify agentId f).jobToAgent = s.jobToAgent := by
  unfold modify; split <;> rfl

@[simp] theorem modify_calls : (s.modify agentId f).calls = s.calls := by
  unfold modify; split <;> rfl

@[simp] theorem modify_claimed : (s.modify agentId f).claimed = s.claimed := by
  unfold modify; split <;> rfl

@[simp] theorem modify_clock : (s.modify agentId f).clock = s.clock := by
  unfold modify; split <;> rfl

theorem getElem?_modify_objects {agent : ℕ} :
    (s.modify agentId f).objects[agent]? =
      if s.agents agentId = some agent then s.objects[agent]?.map f else s.objects[agent]? := by
  unfold modify
  cases h : s.agents agentId with
  | none => simp
  | some r =>
    simp only [getElem?_modify, some.injEq]
    split <;> simp

theorem WellRegistered.agents_inj (h : s.WellRegistered) {agent : ℕ}
    (hagent : s.agents agentId = some agent)
    (hother : s.agents other = some agent) : agentId = other := by
  obtain ⟨e, he, rfl⟩ := h agentId agent hagent
  obtain ⟨e', he', rfl⟩ := h other agent hother
  rw [some.inj (he.symm.trans he')]

theorem get_modify_self : (s.modify agentId f).get agentId = (s.get agentId).map f := by
  cases h : s.agents agentId with
  | none => simp [get, h]
  | some agent => simp [get, h, getElem?_modify_objects]

theorem WellRegistered.get_modify_of_ne (h : s.WellRegistered) (hne : other ≠ agentId) :
    (s.modify agentId f).get other = s.get other := by
  cases hother : s.agents other with
  | none => simp [ClaimState.get, hother]
  | some agent =>
    have hagent : s.agents agentId ≠ some agent := fun hagent => hne (h.agents_inj hother hagent)
    simp [ClaimState.get, hother, getElem?_modify_objects, hagent]

/-- The entry of an agent changes only as the function says, whatever entries others have. -/
theorem get_modify_cases (s : ClaimState) (agentId other : String) (f : AgentEntry → AgentEntry) :
    (s.modify agentId f).get other = s.get other ∨
    (s.modify agentId f).get other = (s.get other).map f := by
  cases hother : s.agents other with
  | none => simp [get, hother]
  | some agent =>
    simp only [get, modify_agents, hother, bind_some, getElem?_modify_objects]
    split
    · exact .inr rfl
    · exact .inl rfl

theorem drainingSince_modify (hf : ∀ e, (f e).drainingSince = e.drainingSince) :
    (s.modify agentId f).drainingSince other = s.drainingSince other := by
  rw [drainingSince, drainingSince]
  rcases get_modify_cases s agentId other f with h | h
  · rw [h]
  · rw [h]
    cases s.get other with
    | none => rfl
    | some e => exact hf e

/-- Agents that are found are registered under their entries. -/
theorem get_of_mem_entries (h : e ∈ s.entries) : s.get e.agentId = some e := by
  obtain ⟨agent, -, hfilter⟩ := mem_filterMap.1 h
  obtain ⟨he, hagent⟩ := filter_eq_some_iff.1 hfilter
  rw [get, of_decide_eq_true hagent, bind_some, he]

/-! ## Slots that are taken -/

theorem claimBoundJob_cases (s : ClaimState) (path : ClaimPath) (foundAt : ℕ)
    (agentId : String) (now : ℕ) : s.claimBoundJob path foundAt agentId now = (s, none) ∨
      (∃ e, s.get agentId = some e ∧ e.agentHasFreeSlot now) ∧
        s.claimBoundJob path foundAt agentId now = s.takeSlot path foundAt agentId := by
  unfold claimBoundJob
  split
  · exact .inl rfl
  · next e he =>
    split
    · next htest => exact .inr ⟨⟨e, he, (Bool.and_eq_true_iff.1 htest).1⟩, rfl⟩
    · exact .inl rfl

/-- A call that goes on with the answer of the roster takes a slot only if the host is not about to
reboot, and the entry that was found, or that of the agent now, has one. -/
theorem resumeWith_cases (js : JsRuntime) (s : ClaimState) (path : ClaimPath) (foundAt : ℕ)
    (agentId : String) (e : AgentEntry) (rebootPending : Bool) (now : ℕ) :
    s.resumeWith js path foundAt agentId e rebootPending now = (s, none) ∨
      rebootPending = false ∧ (path ≠ .redrivePendingToConnectedAgents ∧ e.agentHasFreeSlot now ∨
        ∃ e, s.get agentId = some e ∧ e.agentHasFreeSlot now) ∧
        s.resumeWith js path foundAt agentId e rebootPending now = s.takeSlot path foundAt agentId := by
  unfold resumeWith
  split
  · split
    · split
      · next htest =>
        simp only [Bool.and_eq_true, Bool.not_eq_true'] at htest
        exact .inr ⟨htest.1.2, .inl ⟨nofun, htest.2⟩, rfl⟩
      · exact .inl rfl
    · exact .inl rfl
  · split
    · next htest =>
      simp only [Bool.and_eq_true, Bool.not_eq_true'] at htest
      exact .inr ⟨htest.2, .inl ⟨nofun, htest.1⟩, rfl⟩
    · exact .inl rfl
  · split
    · exact .inl rfl
    · next hflag =>
      rw [Bool.not_eq_true] at hflag
      exact (claimBoundJob_cases s _ foundAt agentId now).imp_right fun ⟨hfree, htaken⟩ =>
        ⟨hflag, .inr hfree, htaken⟩

/-- Only `dispatch` takes a slot without another look at the agent. -/
theorem selectFor_cases (s : ClaimState) (path : ClaimPath) (foundAt : ℕ) (agentId : String) (now : ℕ) :
    s.selectFor path foundAt agentId now = (s, none) ∨
      (path = .dispatch ∨ ∃ e, s.get agentId = some e ∧ e.agentHasFreeSlot now) ∧
        s.selectFor path foundAt agentId now = s.takeSlot path foundAt agentId := by
  unfold selectFor
  split
  · exact .inr ⟨.inl rfl, rfl⟩
  · exact (claimBoundJob_cases s _ foundAt agentId now).imp_right fun ⟨hfree, htaken⟩ =>
      ⟨.inr hfree, htaken⟩

theorem drainingSince_of_findAvailable {found : List AgentEntry}
    (hfound : findAvailable js now s.entries selectors = .ok found) (he : e ∈ found) :
    s.drainingSince e.agentId = none := by
  obtain ⟨hentry, hdraining, -⟩ := mem_of_findAvailable hfound he
  rw [drainingSince, get_of_mem_entries hentry]
  exact not_isSome_iff_eq_none.1 (Bool.not_eq_true _ ▸ hdraining)

/-- The agents that are found for a job do not drain. -/
theorem findFor_cases (h : s.findFor js path selectors now = some t) : t = s ∨ ∃ found,
      (∀ agentId ∈ found, s.drainingSince agentId = none) ∧
        t = s.addCall (.filterRebootPending path s.clock found []) := by
  unfold findFor at h
  split at h
  · next found hfound =>
    cases h
    refine .inr ⟨_, fun agentId hmem => ?_, rfl⟩
    obtain ⟨e, he, rfl⟩ := List.mem_map.1 hmem
    exact drainingSince_of_findAvailable hfound he
  · cases h
    exact .inl rfl

theorem redispatch_cases (h : s.redispatch js selectors agentId now = some t) :
    s.drainingSince agentId = none ∧ t = start (s.claimBoundJob .redispatch s.clock agentId now) := by
  unfold redispatch at h
  split at h
  · next found hfound =>
    obtain ⟨hmem, heq⟩ := ite_none_right_eq_some.1 h
    cases heq
    obtain ⟨e, he, rfl⟩ := List.mem_map.1 hmem
    exact ⟨drainingSince_of_findAvailable hfound he, rfl⟩
  · cases h

/-! ## Steps that take no slot -/

theorem Quiet.refl (s : ClaimState) : s.Quiet s where
  clock := rfl
  registered := id
  draining _ := .inl rfl
  rebooting _ := .inl rfl
  capacity e he := .inr ⟨e, he, le_rfl, rfl⟩
  calls _ := .inl
  claimed := rfl

theorem Quiet.trans (h : s.Quiet t) (h' : t.Quiet u) : s.Quiet u where
  clock := h'.clock.trans h.clock
  registered := h'.registered ∘ h.registered
  draining agentId := (h'.draining agentId).elim (fun heq => heq ▸ h.draining agentId) .inr
  rebooting agentId := (h'.rebooting agentId).elim (fun heq => heq ▸ h.rebooting agentId) .inr
  capacity e he := by
    rcases h'.capacity e he with hzero | ⟨e', he', hle, hmax⟩
    · exact .inl hzero
    · rcases h.capacity e' he' with hzero | ⟨e'', he'', hle', hmax'⟩
      · exact .inl (by omega)
      · exact .inr ⟨e'', he'', hle.trans hle', hmax.trans hmax'⟩
  calls x hx := (h'.calls x hx).elim (h.calls x) .inr
  claimed := h'.claimed.trans h.claimed

theorem WellRegistered.modify (h : s.WellRegistered) (hf : ∀ e, (f e).agentId = e.agentId) :
    (s.modify agentId f).WellRegistered := by
  intro other agent hagent
  rw [modify_agents] at hagent
  obtain ⟨e, he, hid⟩ := h other agent hagent
  rw [getElem?_modify_objects, he]
  split
  · exact ⟨f e, rfl, (hf e).trans hid⟩
  · exact ⟨e, rfl, hid⟩

theorem mem_objects_of_get (h : s.get agentId = some e) : e ∈ s.objects := by
  obtain ⟨agent, -, he⟩ := bind_eq_some_iff.1 h
  exact mem_of_getElem? he

/-- An entry after a change is one that was there, or the one of the agent, changed. -/
theorem mem_objects_modify (he : e ∈ (s.modify agentId f).objects) :
    e ∈ s.objects ∨ ∃ e', s.get agentId = some e' ∧ e = f e' := by
  obtain ⟨agent, hagent⟩ := mem_iff_getElem?.1 he
  rw [getElem?_modify_objects] at hagent
  split at hagent
  · next hregistered =>
    obtain ⟨e', he', rfl⟩ := map_eq_some_iff.1 hagent
    exact .inr ⟨e', by rw [get, hregistered, bind_some, he'], rfl⟩
  · exact .inl (mem_of_getElem? hagent)

theorem quiet_modify (hf : ∀ e, (f e).agentId = e.agentId ∧ (f e).maxConcurrency = e.maxConcurrency ∧
    (f e).activeJobs ≤ e.activeJobs ∧
    ((f e).drainingSince = e.drainingSince ∨ (f e).drainingSince = none)) :
    s.Quiet (s.modify agentId f) where
  clock := modify_clock
  registered h := h.modify fun e => (hf e).1
  draining other := by
    rw [drainingSince, drainingSince]
    rcases get_modify_cases s agentId other f with h | h
    · exact .inl (by rw [h])
    · rw [h]
      cases s.get other with
      | none => exact .inl rfl
      | some e => exact (hf e).2.2.2
  rebooting _ := .inl (congrFun modify_rebootPendingSince _)
  capacity e he := by
    rcases mem_objects_modify he with hold | ⟨e', he', rfl⟩
    · exact .inr ⟨e, hold, le_rfl, rfl⟩
    · exact .inr ⟨e', mem_objects_of_get he', (hf e').2.2.1, (hf e').2.1⟩
  calls x hx := .inl (modify_calls (s := s) ▸ hx)
  claimed := modify_claimed

/-- What only changes who does which job. -/
theorem quiet_of_tracking (h : t = { s with agentJobs := t.agentJobs, jobToAgent := t.jobToAgent }) :
    s.Quiet t := by
  rw [h]
  exact ⟨rfl, id, fun _ => .inl rfl, fun _ => .inl rfl, fun e he => .inr ⟨e, he, le_rfl, rfl⟩,
    fun _ => .inl, rfl⟩

theorem quiet_addCall (h : call.Plain) : s.Quiet (s.addCall call) where
  clock := rfl
  registered := id
  draining _ := .inl rfl
  rebooting _ := .inl rfl
  capacity e he := .inr ⟨e, he, le_rfl, rfl⟩
  calls x hx := by
    rcases mem_append.1 hx with hold | hnew
    · exact .inl hold
    · obtain rfl := mem_singleton.1 hnew
      exact .inr h
  claimed := rfl

theorem quiet_unregister : s.Quiet (s.unregister agentId) where
  clock := rfl
  registered h other agent hagent := by
    by_cases hsame : other = agentId
    · simp [unregister, hsame] at hagent
    · exact h other agent (by simpa [unregister, hsame] using hagent)
  draining other := by
    by_cases hsame : other = agentId
    · exact .inr (by simp [drainingSince, get, unregister, hsame])
    · exact .inl (by simp [drainingSince, get, unregister, hsame])
  rebooting _ := .inl rfl
  capacity e he := .inr ⟨e, he, le_rfl, rfl⟩
  calls _ := .inl
  claimed := rfl

theorem quiet_register {entry : AgentEntry} : s.Quiet (s.register entry) where
  clock := rfl
  registered h other agent hagent := by
    simp only [register, Function.update_apply] at hagent
    split at hagent
    · next hsame =>
      cases hagent
      exact ⟨_, getElem?_concat_length, hsame.symm⟩
    · obtain ⟨e, he, hid⟩ := h other agent hagent
      exact ⟨e, (getElem?_append_left (List.getElem?_eq_some_iff.1 he).1).trans he, hid⟩
  draining other := by
    simp only [drainingSince, get, register, Function.update_apply]
    split
    · exact .inr (by simp)
    · cases s.agents other with
      | none => exact .inl rfl
      | some agent =>
        simp only [bind_some, getElem?_append]
        split
        · exact .inl rfl
        · next hlength =>
          refine .inr ?_
          cases agent - s.objects.length <;> rfl
  rebooting _ := .inl rfl
  capacity e he := by
    rcases mem_append.1 he with hold | hnew
    · exact .inr ⟨e, hold, le_rfl, rfl⟩
    · obtain rfl := mem_singleton.1 hnew
      exact .inl rfl
  calls _ := .inl
  claimed := rfl

theorem quiet_decrementActiveJobs : s.Quiet (s.decrementActiveJobs agentId) :=
  quiet_modify fun _ => ⟨rfl, rfl, Nat.sub_le _ _, .inl rfl⟩

theorem quiet_untrackJob : s.Quiet (s.untrackJob agentId jobId) := quiet_of_tracking rfl

theorem quiet_trackJobForAgent : s.Quiet (s.trackJobForAgent agentId jobId) := quiet_of_tracking rfl

theorem quiet_releaseClaimAccounting : s.Quiet (s.releaseClaimAccounting agentId jobId) :=
  quiet_decrementActiveJobs.trans quiet_untrackJob

theorem quiet_releaseTrackedClaim : s.Quiet (s.releaseTrackedClaim agentId jobId) := by
  unfold releaseTrackedClaim
  split
  · exact quiet_releaseClaimAccounting
  · exact .refl s

theorem quiet_clearBusyHeld : s.Quiet (s.modify agentId (·.clearBusyHeld)) :=
  quiet_modify fun _ => ⟨rfl, rfl, le_rfl, .inl rfl⟩

theorem quiet_clearDraining : s.Quiet (s.modify agentId (·.clearDraining)) := by
  refine quiet_modify fun e => ⟨rfl, rfl, le_rfl, ?_⟩
  unfold AgentEntry.clearDraining
  split
  · exact .inl rfl
  · exact .inr rfl

theorem quiet_onJobComplete : s.Quiet (s.onJobComplete agentId jobId) := by
  unfold onJobComplete
  split
  · exact quiet_clearBusyHeld.trans (quiet_decrementActiveJobs.trans quiet_untrackJob)
  · exact quiet_decrementActiveJobs.trans quiet_untrackJob

theorem quiet_onJobRejected {busy : Bool} : s.Quiet (s.onJobRejected agentId jobId busy now) := by
  unfold onJobRejected
  split
  · refine .trans ?_ (quiet_decrementActiveJobs.trans (quiet_untrackJob.trans (quiet_addCall trivial)))
    split
    · exact quiet_modify fun _ => ⟨rfl, rfl, le_rfl, .inl rfl⟩
    · exact .refl s
  · exact .refl s

theorem quiet_noteJobAccepted : s.Quiet (s.noteJobAccepted agentId jobId now) := by
  unfold noteJobAccepted
  split
  · exact quiet_modify fun _ => ⟨rfl, rfl, le_rfl, .inl rfl⟩
  · exact .refl s

theorem quiet_onAgentDisconnect : s.Quiet (s.onAgentDisconnect agentId) := by
  unfold onAgentDisconnect
  split
  · exact quiet_unregister
  · exact quiet_addCall trivial

theorem quiet_dropUnacknowledgingAgent : s.Quiet (s.dropUnacknowledgingAgent agentId) :=
  quiet_onAgentDisconnect.trans quiet_unregister

/-! ## What a step can do -/

/-- A claim is written down; what is tracked may change besides. -/
theorem claimedJob_cases (s : ClaimState) (path : ClaimPath) (foundAt takenAt : ℕ)
    (agentId jobId : String) : Quiet { s with claimed := s.claimed ++ [{
      agentId
      jobId
      foundAt
      takenAt
      drainingSince := s.drainingSince agentId
      rebootPendingSince := s.rebootPendingSince agentId }] }
        (s.claimedJob path foundAt takenAt agentId jobId).1 ∧
      (s.claimedJob path foundAt takenAt agentId jobId).2.Plain := by
  unfold claimedJob
  split
  · exact ⟨quiet_trackJobForAgent, trivial⟩
  · exact ⟨quiet_trackJobForAgent, trivial⟩
  · exact ⟨.refl _, trivial⟩

theorem answered_callNext {answer : ClaimAnswer} {next : Option ClaimCall}
    (h : s.callNext js call answer = some (t, next)) : s.Answered call answer t next := by
  have hplain : ∀ x ∈ (none : Option ClaimCall), x.Plain := by
    intro x hx
    cases hx
  have hsettle : ∀ x ∈ some ClaimCall.settle, x.Plain := by
    intro x hx
    cases hx
    trivial
  unfold callNext at h
  split at h
  case h_3 | h_13 | h_14 =>
    cases h
    exact .quiet (.refl s) hplain
  · cases h
    exact .readFound
  · next path foundAt passed agentId now =>
    obtain ⟨hpassed, heq⟩ := ite_none_right_eq_some.1 h
    rcases selectFor_cases s path foundAt agentId now with hnone | ⟨hfree, htaken⟩
    · cases heq.symm.trans (congrArg some hnone)
      exact .quiet (.refl s) hplain
    · cases heq.symm.trans (congrArg some htaken)
      exact .takeFound hpassed hfree
  · cases h
    exact .readPinned
  · next path foundAt agentId agent rebootPending now =>
    split at h
    · next e he =>
      rcases resumeWith_cases js s path foundAt agentId e rebootPending now with hnone |
        ⟨rfl, hfree, htaken⟩
      · cases h.symm.trans (congrArg some hnone)
        exact .quiet (.refl s) hplain
      · cases h.symm.trans (congrArg some htaken)
        exact .takePinned he hfree
    · cases h
  · cases h
    exact .quiet quiet_decrementActiveJobs hplain
  · next path foundAt takenAt agentId jobId =>
    cases h
    obtain ⟨hquiet, hplain⟩ := claimedJob_cases s path foundAt takenAt agentId jobId
    refine .claim ?_ hquiet
    intro x hx
    cases hx
    exact hplain
  · cases h
    refine .quiet quiet_trackJobForAgent ?_
    intro x hx
    cases hx
    trivial
  · cases h
    exact .quiet quiet_decrementActiveJobs hsettle
  · cases h
    exact .quiet (.refl s) hsettle
  · cases h
    exact .quiet quiet_releaseClaimAccounting hsettle
  · cases h
    exact .quiet quiet_releaseTrackedClaim hsettle
  · cases h
    exact .quiet (quiet_releaseClaimAccounting.trans quiet_dropUnacknowledgingAgent) hsettle
  · cases h
    refine .quiet ?_ hplain
    split
    · exact quiet_unregister
    · exact .refl s
  · cases h

theorem start_none : start (s, none) = s := by
  simp [start]

theorem acted_findPinned
    (h : (∃ selectors, a = .dispatchPinned selectors agentId) ∨ (∃ now, a = .redrivePinned agentId now) ∨
      s.drainingSince agentId = none) : s.Acted a (s.findPinned path agentId) := by
  unfold findPinned
  split
  · next hagent => exact .findPinned hagent h
  · exact .quiet (.refl s)

theorem acted_claimBoundJob (h : a = .dispatchBoundJob agentId now ∨
      (∃ selectors, a = .redispatch selectors agentId now) ∧ s.drainingSince agentId = none) :
    s.Acted a (start (s.claimBoundJob path s.clock agentId now)) := by
  rcases claimBoundJob_cases s path s.clock agentId now with
    hnone | ⟨hfree, htaken⟩
  · rw [hnone, start_none]
    exact .quiet (.refl s)
  · rw [htaken]
    exact .take hfree h

theorem acted_findFor (h : s.findFor js path selectors now = some t) : s.Acted a t := by
  rcases findFor_cases h with rfl | ⟨found, hfound, rfl⟩
  · exact .quiet (.refl t)
  · exact .find hfound

theorem acted_act (h : s.act js a = some t) : s.Acted a t := by
  cases a with
  | register entry =>
    cases h
    exact .quiet quiet_register
  | unregister agentId =>
    cases h
    exact .quiet quiet_unregister
  | markDraining agentId =>
    cases h
    exact .markDraining
  | markDrainReported agentId =>
    cases h
    exact .markDrainReported
  | clearDraining agentId =>
    cases h
    exact .quiet quiet_clearDraining
  | setRebootPending agentId =>
    cases h
    exact .setRebootPending
  | clearRebootPending agentId =>
    cases h
    refine .quiet { Quiet.refl s with rebooting := fun other => ?_ }
    simp only [ClaimState.clearRebootPending, Function.update_apply]
    split
    · exact .inr rfl
    · exact .inl rfl
  | setDraining isDraining =>
    cases h
    exact .quiet { Quiet.refl s with }
  | clearBusyHeld agentId =>
    cases h
    exact .quiet quiet_clearBusyHeld
  | dispatch | redrive =>
    rw [act] at h
    split at h
    · cases h
      exact .quiet (.refl s)
    · exact acted_findFor h
  | dispatchPinned selectors agentId =>
    cases h
    exact acted_findPinned (.inl ⟨selectors, rfl⟩)
  | onAgentAvailable agentId =>
    cases h
    unfold onAgentAvailable
    split
    · exact .quiet (.refl s)
    · next htest =>
      simp only [Bool.or_eq_true, not_or, not_isSome_iff_eq_none] at htest
      exact acted_findPinned (.inr (.inr htest.1))
  | dispatchBoundJob agentId now =>
    cases h
    exact acted_claimBoundJob (.inl rfl)
  | redispatch selectors agentId now =>
    obtain ⟨hdraining, rfl⟩ := redispatch_cases h
    exact acted_claimBoundJob (.inr ⟨⟨selectors, rfl⟩, hdraining⟩)
  | redrivePinned agentId now =>
    cases h
    unfold redrivePinned
    split
    · split
      · exact acted_findPinned (.inr (.inl ⟨now, rfl⟩))
      · exact .quiet (.refl s)
    · exact .quiet (.refl s)
  | next k answer =>
    obtain ⟨call, hcall, h⟩ := bind_eq_some_iff.1 h
    obtain ⟨⟨t', next⟩, hnext, heq⟩ := bind_eq_some_iff.1 h
    cases heq
    exact .next hcall (answered_callNext hnext)
  | onJobAcked agentId jobId now =>
    cases h
    exact .quiet quiet_noteJobAccepted
  | onJobComplete agentId jobId =>
    cases h
    exact .quiet quiet_onJobComplete
  | onJobRejected agentId jobId busy now =>
    cases h
    exact .quiet quiet_onJobRejected
  | handleAckExpiry agentId jobId =>
    cases h
    exact .quiet (quiet_addCall trivial)
  | onAgentDisconnect agentId =>
    cases h
    exact .quiet quiet_onAgentDisconnect
  | untrackJob k jobId =>
    rw [act] at h
    split at h
    · cases h
      exact .quiet quiet_untrackJob
    · cases h

theorem Answered.clock {answer : ClaimAnswer} {next : Option ClaimCall}
    (h : s.Answered call answer t next) : t.clock = s.clock := by
  cases h with
  | quiet hquiet => exact hquiet.clock
  | readFound | readPinned => rfl
  | takeFound | takePinned => exact modify_clock
  | claim _ hquiet => exact hquiet.clock

theorem Acted.clock (h : s.Acted a t) : t.clock = s.clock := by
  cases h with
  | quiet hquiet => exact hquiet.clock
  | markDraining | markDrainReported => exact modify_clock
  | setRebootPending | find | findPinned => rfl
  | take => exact modify_clock
  | next _ hanswered => exact hanswered.clock

end ClaimState

end Kici
