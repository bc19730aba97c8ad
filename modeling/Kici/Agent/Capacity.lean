import Kici.Agent.ClaimEffects
import Kici.Queue.QueueSystem

/-!
# The slots of an agent

A slot of an agent is taken in the same step in which the agent is seen to have one, by all paths
but two.

* `dispatch` finds the agents that have one, and takes it after the roster has told about them.
* A call that was given the entry of an agent looks at that entry, and takes the slot of the agent
  as it is registered then: another one if it has registered again.

Two calls may so take the last slot of one agent (`exists_overcommitted`). No agent does more jobs
than it may if the agent that is selected still has a slot, and the entry is that of the agent as it
is registered (`activeJobs_le_maxConcurrency`).
-/

namespace Kici

open Option

/-- The slot that is taken is one that was seen to be free. -/
structure SeesSlot (s : ClaimState) (a : ClaimAction) : Prop where
  /-- The agent that `dispatch` selects still has a slot. -/
  dispatch : ∀ k foundAt passed agentId now, a = .next k (.select agentId now) →
    s.calls[k]? = some (.filterRebootPending .dispatch foundAt [] passed) →
      ∀ e, s.get agentId = some e → e.activeJobs < e.maxConcurrency
  /-- An agent whose entry a call was given has not registered again since. -/
  pinned : ∀ k path foundAt agentId agent now, a = .next k (.resume now) →
    path ≠ .redrivePendingToConnectedAgents →
      s.calls[k]? = some (.isRebootPending path foundAt agentId agent (some false)) →
        ∀ registered, s.agents agentId = some registered → registered = agent

namespace ClaimState

variable {js : JsRuntime} {s t : ClaimState} {agentId : String} {a : ClaimAction}

/-- Each connection has at most as many jobs as it may. -/
def WithinCapacity (s : ClaimState) : Prop := ∀ e ∈ s.objects, e.activeJobs ≤ e.maxConcurrency

theorem WithinCapacity.of_objects (h : s.WithinCapacity) (hobjects : t.objects = s.objects) :
    t.WithinCapacity := by
  rw [WithinCapacity, hobjects]
  exact h

theorem WithinCapacity.of_quiet (h : s.WithinCapacity) (hquiet : s.Quiet t) : t.WithinCapacity := by
  intro e he
  rcases hquiet.capacity e he with hzero | ⟨e', he', hle, hmax⟩
  · omega
  · have := h e' he'
    omega

theorem WithinCapacity.modify (h : s.WithinCapacity) {f : AgentEntry → AgentEntry}
    (hf : ∀ e, s.get agentId = some e → e.activeJobs ≤ e.maxConcurrency →
      (f e).activeJobs ≤ (f e).maxConcurrency) :
    (s.modify agentId f).WithinCapacity := by
  intro e he
  rcases mem_objects_modify he with hold | ⟨e', he', rfl⟩
  · exact h e hold
  · exact hf e' he' (h e' (mem_objects_of_get he'))

/-- A slot is taken of an agent that has one. -/
theorem WithinCapacity.take (h : s.WithinCapacity)
    (hfree : ∀ e, s.get agentId = some e → e.activeJobs < e.maxConcurrency) :
    (s.incrementActiveJobs agentId).WithinCapacity :=
  h.modify fun e he _ => hfree e he

theorem lt_of_agentHasFreeSlot {e : AgentEntry} {now : ℕ} (h : e.agentHasFreeSlot now) :
    e.activeJobs < e.maxConcurrency := by
  simp only [AgentEntry.agentHasFreeSlot, decide_eq_true_eq] at h
  exact h.1

theorem lt_of_exists_free {now : ℕ} (h : ∃ e, s.get agentId = some e ∧ e.agentHasFreeSlot now) :
    ∀ e, s.get agentId = some e → e.activeJobs < e.maxConcurrency := by
  obtain ⟨e, he, hfree⟩ := h
  intro e' he'
  obtain rfl := some.inj (he.symm.trans he')
  exact lt_of_agentHasFreeSlot hfree

/-- A slot that a call takes is one that was seen to be free. -/
theorem WithinCapacity.answered (h : s.WithinCapacity) {k : ℕ} {call : ClaimCall} {answer : ClaimAnswer}
    {next : Option ClaimCall} (hsees : SeesSlot s (.next k answer)) (hcall : s.calls[k]? = some call)
    (hanswered : s.Answered call answer t next) : t.WithinCapacity := by
  cases hanswered with
  | quiet hquiet => exact h.of_quiet hquiet
  | readFound | readPinned => exact h
  | takeFound hpassed hfree =>
    refine h.take ?_
    rcases hfree with rfl | hfree
    · exact hsees.dispatch _ _ _ _ _ rfl hcall
    · exact lt_of_exists_free hfree
  | takePinned he hfree =>
    refine h.take ?_
    rcases hfree with ⟨hpath, hfree⟩ | hfree
    · intro e' he'
      obtain ⟨registered, hregistered, hget⟩ := bind_eq_some_iff.1 he'
      rw [hsees.pinned _ _ _ _ _ _ rfl hpath hcall registered hregistered, he] at hget
      cases hget
      exact lt_of_agentHasFreeSlot hfree
    · exact lt_of_exists_free hfree
  | claim hnext hquiet =>
    refine WithinCapacity.of_quiet ?_ hquiet
    exact h.of_objects rfl

/-- A step gives no agent more jobs than it may have. -/
theorem WithinCapacity.act (h : s.WithinCapacity) (hsees : SeesSlot s a) (hacted : s.Acted a t) :
    t.WithinCapacity := by
  cases hacted with
  | quiet hquiet => exact h.of_quiet hquiet
  | markDraining | markDrainReported => exact h.modify fun _ _ hle => hle
  | setRebootPending | find | findPinned => exact h.of_objects rfl
  | take hfree => exact (h.take (lt_of_exists_free hfree)).of_objects rfl
  | next hcall hanswered => exact (h.answered hsees hcall hanswered).of_objects rfl

theorem WithinCapacity.step (h : s.WithinCapacity) (hsees : SeesSlot s a)
    (hstep : (claimSystem js).step s a = some t) : t.WithinCapacity := by
  obtain ⟨u, hu, rfl⟩ := map_eq_some_iff.1 hstep
  exact (h.act hsees (acted_act hu)).of_objects rfl

end ClaimState

/-- If the slots that are taken are ones that were seen to be free, no agent has more jobs than it
may. -/
theorem activeJobs_le_maxConcurrency {js : JsRuntime} {s : ClaimState}
    (h : (claimSystem js).Reachable SeesSlot s)
    {agentId : String} {e : AgentEntry} (he : s.get agentId = some e) :
    e.activeJobs ≤ e.maxConcurrency := by
  have hcapacity : s.WithinCapacity := by
    refine h.invariant ?_ fun s a t hs hsees hstep => hs.step hsees hstep
    rintro s rfl e he
    cases he
  exact hcapacity e (ClaimState.mem_objects_of_get he)

/-- A test of `SeesSlot` for the steps that only find agents and select them. -/
def seesSlotTest (s : ClaimState) : ClaimAction → Bool
  | .next _ (.select agentId _) => (s.get agentId).all fun e => e.activeJobs < e.maxConcurrency
  | .next _ (.resume _) => false
  | _ => true

theorem seesSlot_of_test (s : ClaimState) (a : ClaimAction) (h : seesSlotTest s a) : SeesSlot s a := by
  constructor
  · rintro k foundAt passed agentId now rfl - e he
    simpa [he, seesSlotTest] using h
  · rintro k path foundAt agentId agent now rfl
    cases h

/-- An agent with one slot that is found for a job, and given it. -/
theorem activeJobs_le_maxConcurrency_dispatch : ∃ s : ClaimState,
    (claimSystem lowercaseRuntime).Reachable SeesSlot s ∧
      ∃ e, s.get "builder" = some e ∧ e.activeJobs = 1 ∧ e.activeJobs ≤ e.maxConcurrency := by
  obtain ⟨s, hpath, hs⟩ := (claimSystem lowercaseRuntime).exists_path {}
      (fun s => (s.get "builder").any fun e => e.activeJobs = 1) seesSlot_of_test [
      .register { agentId := "builder", labels := ["linux"] },
      .dispatch { requiredLabels := ["linux"] } 0,
      .next 0 .read,
      .next 0 (.select "builder" 0),
      .next 0 (.job "build")] (by decide)
  obtain ⟨e, he, hactive⟩ := (any_eq_true _ _).1 hs
  exact ⟨s, ⟨{}, rfl, hpath⟩, e, he, of_decide_eq_true hactive,
    activeJobs_le_maxConcurrency ⟨{}, rfl, hpath⟩ he⟩

/-- A run in which two jobs find the one slot of an agent, and both take it. -/
theorem exists_overcommitted : ∃ s : ClaimState,
    (claimSystem lowercaseRuntime).Reachable System.anyStep s ∧
    ∃ e, s.get "builder" = some e ∧ e.maxConcurrency < e.activeJobs := by
  obtain ⟨s, hpath, hs⟩ := (claimSystem lowercaseRuntime).exists_path {}
      (fun s => (s.get "builder").any fun e => e.maxConcurrency < e.activeJobs) System.anyStep_of_true [
      .register { agentId := "builder", labels := ["linux"] },
      .dispatch { requiredLabels := ["linux"] } 0,
      .dispatch { requiredLabels := ["linux"] } 0,
      .next 0 .read,
      .next 1 .read,
      .next 0 (.select "builder" 0),
      .next 1 (.select "builder" 0)] (by decide)
  obtain ⟨e, he, hlt⟩ := (any_eq_true _ _).1 hs
  exact ⟨s, ⟨{}, rfl, hpath⟩, e, he, of_decide_eq_true hlt⟩

end Kici
