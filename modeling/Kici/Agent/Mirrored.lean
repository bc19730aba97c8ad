import Kici.Agent.Tracking

/-!
# The jobs of agents and the agents of jobs

A step of the dispatcher leaves its maps, tracks a job for an agent or takes a job from one
(`maps_step`); of the last two, each keeps the maps in agreement exactly if the job was on no other
agent (`Mirrored.step_iff`). So the maps agree in every state of a run if and only if no step of the
run moves a job that is on another agent (`trackingMaps_mirrored_iff`).

While the maps agree, what an agent learns of a job is of a job of its own
(`Mirrored.resolveOwnedJob_eq_some_iff`).
-/

namespace Kici

open Function

namespace Dispatcher

/-- The maps that say which jobs are on which agents. -/
structure Maps where
  agentJobs : Index String String
  jobToAgent : String → Option String
  jobRunIds : String → Option String

variable {d t : Dispatcher} {a : TrackingAction} {agentId jobId : String}

def maps (d : Dispatcher) : Maps := ⟨d.agentJobs, d.jobToAgent, d.jobRunIds⟩

namespace Maps

variable (m : Maps) (agentId jobId runId : String)

def track : Maps :=
  ⟨m.agentJobs.insert [agentId] jobId, update m.jobToAgent jobId (some agentId),
    update m.jobRunIds jobId (some runId)⟩

def untrack : Maps :=
  ⟨m.agentJobs.erase [agentId] jobId, update m.jobToAgent jobId none, update m.jobRunIds jobId none⟩

end Maps

/-! ## What a step does to the maps -/

@[simp] theorem maps_keepCompleted (entry : GraceEntry) : (d.keepCompleted entry).maps = d.maps := by
  unfold keepCompleted
  simp only
  split
  · split <;> rfl
  · rfl

@[simp] theorem maps_dropRecovering (jobId : String) : (d.dropRecovering jobId).maps = d.maps := by
  unfold dropRecovering
  split <;> rfl

@[simp] theorem maps_claimRecovery (agentId jobId : String) :
    (d.claimRecovery agentId jobId).maps = d.maps := by
  unfold claimRecovery
  split
  · split
    · rfl
    · exact maps_dropRecovering jobId
  · rfl

@[simp] theorem maps_markJobStarted (jobId : String) : (d.markJobStarted jobId).maps = d.maps := by
  unfold markJobStarted
  split <;> rfl

@[simp] theorem maps_rehydrate (now : ℕ) (row : DispatchRow) : (d.rehydrate now row).maps = d.maps := by
  unfold rehydrate
  split
  · split <;> rfl
  · rfl

@[simp] theorem maps_recoverState (now : ℕ) (rows : List DispatchRow) :
    (d.recoverState now rows).maps = d.maps := by
  induction rows generalizing d with
  | nil => rfl
  | cons row rows ih => exact ih.trans (maps_rehydrate now row)

@[simp] theorem maps_sweepExpiredRecoveries (expired : List DispatchRow) :
    (d.sweepExpiredRecoveries expired).maps = d.maps := by
  induction expired generalizing d with
  | nil => rfl
  | cons row expired ih => exact ih.trans (maps_dropRecovering row.id)

theorem maps_onJobComplete (agentId jobId : String) (now : ℕ) :
    (d.onJobComplete agentId jobId now).maps = d.maps.untrack agentId jobId := maps_keepCompleted _

/-- A step leaves the maps, or moves a job; one that asks whose the job is takes it from its agent. -/
theorem maps_step (h : d.step a = some t) :
    (t.maps = d.maps ∧ d.moves a = none) ∨
    (∃ agentId jobId runId, t.maps = d.maps.track agentId jobId runId ∧
      d.moves a = some (agentId, jobId)) ∨
    (∃ agentId jobId, t.maps = d.maps.untrack agentId jobId ∧ d.moves a = some (agentId, jobId)) ∨
    ∃ agentId jobId, t.maps = d.maps.untrack agentId jobId ∧ d.jobToAgent jobId = some agentId ∧
    d.moves a = none := by
  rcases a with ⟨agentId, jobId, runId⟩ | ⟨agentId, jobId⟩ | ⟨agentId, jobId⟩ |
    ⟨agentId, jobId, now⟩ | ⟨jobId⟩ |
    ⟨jobId, agentId, runId⟩ | ⟨jobId, agentId⟩ | ⟨agentId, jobId, runId⟩ | ⟨rows, now⟩ | ⟨k⟩ |
      ⟨expired⟩ | ⟨now⟩ |
    ⟨agentId⟩ | _
  case timer =>
    obtain ⟨timer, htimer, rfl⟩ := Option.map_eq_some_iff.1 h
    exact .inr (.inr (.inl ⟨timer.agentId, timer.jobId, rfl, by rw [moves, htimer]; rfl⟩))
  all_goals cases h
  case trackJobForAgent => exact .inr (.inl ⟨agentId, jobId, runId, rfl, rfl⟩)
  case untrackJob => exact .inr (.inr (.inl ⟨agentId, jobId, rfl, rfl⟩))
  case releaseTrackedClaim =>
    rw [releaseTrackedClaim]
    split
    · exact .inl ⟨rfl, rfl⟩
    -- the only step that takes a job from an agent after asking whose it is
    · next howner => exact .inr (.inr (.inr ⟨agentId, jobId, rfl, not_not.1 howner, rfl⟩))
  case onJobComplete =>
    exact .inr (.inr (.inl ⟨agentId, jobId, maps_onJobComplete agentId jobId now, rfl⟩))
  case restoreJobForAgent => exact .inr (.inl ⟨agentId, jobId, _, rfl, rfl⟩)
  case markJobStarted => exact .inl ⟨maps_markJobStarted jobId, rfl⟩
  case claimRecovery => exact .inl ⟨maps_claimRecovery agentId jobId, rfl⟩
  case recoverState => exact .inl ⟨maps_recoverState now rows, rfl⟩
  case sweepExpiredRecoveries => exact .inl ⟨maps_sweepExpiredRecoveries expired, rfl⟩
  -- timers start and stop, and completed jobs are forgotten
  all_goals exact .inl ⟨rfl, rfl⟩

/-! ## What keeps the maps in agreement -/

namespace Mirrored

variable (h : Mirrored d)

include h

theorem of_maps (hmaps : t.maps = d.maps) : t.Mirrored := by
  obtain ⟨hagents, hruns⟩ := h
  rw [maps, maps, Maps.mk.injEq] at hmaps
  obtain ⟨hjobs, howner, hrun⟩ := hmaps
  refine ⟨?_, ?_⟩
  · rw [hjobs, howner]
    exact hagents
  · rw [howner, hrun]
    exact hruns

/-- Where the agent and the run of a job change together, only the jobs of agents are in question. -/
theorem iff_agents {index : Index String String} {owner run : Option String}
    (hmaps : t.maps = ⟨index, update d.jobToAgent jobId owner, update d.jobRunIds jobId run⟩)
    (hrun : run.isSome = owner.isSome) : t.Mirrored ↔
    index.Mirrors (update d.jobToAgent jobId owner) := by
  rw [maps, Maps.mk.injEq] at hmaps
  obtain ⟨rfl, howner, hruns⟩ := hmaps
  rw [← howner]
  refine ⟨fun ht => ht.agents, fun ht => ⟨ht, fun id => ?_⟩⟩
  rw [howner, hruns]
  by_cases hid : id = jobId
  · rw [hid, update_self, update_self]
    exact hrun
  · rw [update_of_ne hid, update_of_ne hid]
    exact h.runs id

theorem track_iff {runId : String} (hmaps : t.maps = d.maps.track agentId jobId runId) :
    t.Mirrored ↔ Index.freeFor d.jobToAgent agentId jobId :=
  (h.iff_agents hmaps rfl).trans h.agents.insert_iff

theorem untrack_iff (hmaps : t.maps = d.maps.untrack agentId jobId) :
    t.Mirrored ↔ Index.freeFor d.jobToAgent agentId jobId :=
  (h.iff_agents hmaps rfl).trans h.agents.erase_iff

/-- A step keeps the maps in agreement if and only if it moves no job that is on another agent. -/
theorem step_iff (hstep : d.step a = some t) : t.Mirrored ↔ d.keepsOwner a := by
  obtain ⟨hmaps, hmoves⟩ | ⟨agentId, jobId, runId, hmaps, hmoves⟩ | ⟨agentId, jobId, hmaps, hmoves⟩ |
    ⟨agentId, jobId, hmaps, howner, hmoves⟩ := maps_step hstep
  all_goals rw [keepsOwner, hmoves]
  · exact ⟨fun _ => rfl, fun _ => h.of_maps hmaps⟩
  · exact h.track_iff hmaps
  · exact h.untrack_iff hmaps
  -- the agent that gives the job back is the one that has it
  · rw [h.untrack_iff hmaps, Index.freeFor, howner]
    simp

/-- An agent learns the run of a job exactly while the job is its own. -/
theorem resolveOwnedJob_eq_some_iff {runId : String} : d.resolveOwnedJob agentId jobId = some runId ↔
    d.getAgentIdForJob jobId = some agentId ∧ d.jobRunIds jobId = some runId ∧ runId ≠ "" := by
  rw [resolveOwnedJob, getAgentIdForJob, ← h.agents, isTracked]
  simp [Option.filter_eq_some_iff]

end Mirrored

theorem mirrored_empty : ({} : Dispatcher).Mirrored := ⟨fun _ _ => by simp, fun _ => rfl⟩

end Dispatcher

/-- The maps of a dispatcher agree in every state of a run if and only if no step of the run tracks
a job for an agent, or takes it from one, while the job is on another agent. -/
theorem trackingMaps_mirrored_iff (as : List TrackingAction)
    (hrun : (trackingSystem.run (fun _ _ => true) {} as).isSome) :
    (∀ before d, before <+: as → trackingSystem.run (fun _ _ => true) {} before = some d → d.Mirrored) ↔
      (trackingSystem.run Dispatcher.keepsOwner {} as).isSome :=
  (System.run_isSome_iff (fun _ _ _ h hstep => h.step_iff hstep) Dispatcher.mirrored_empty hrun).symm

/-- The agent of a job comes back in time, and then the job goes to another one. -/
theorem trackingMaps_mirrored_reclaimed : ∃ d, trackingSystem.run (fun _ _ => true) {}
    [.trackJobForAgent "a" "job" "run", .startRecoveryTimer "job" "a" "run", .claimRecovery "job" "a",
      .restoreJobForAgent "a" "job" none, .untrackJob "a" "job", .trackJobForAgent "b" "job" "run",
      .onJobComplete "b" "job" 7] = some d ∧ d.Mirrored :=
  ⟨_, rfl, (trackingMaps_mirrored_iff
    [.trackJobForAgent "a" "job" "run", .startRecoveryTimer "job" "a" "run",
    .claimRecovery "job" "a", .restoreJobForAgent "a" "job" none, .untrackJob "a" "job",
    .trackJobForAgent "b" "job" "run", .onJobComplete "b" "job" 7] (by decide)).2 (by decide)
      _ _ List.prefix_rfl rfl⟩

/-- A job goes to another agent while the first one has time to come back; when that time is over,
the job is taken from the map of agents, but not from the jobs of the other agent. -/
theorem exists_run_not_mirrored : ¬ ∀ (as : List TrackingAction) (d : Dispatcher),
    trackingSystem.run (fun _ _ => true) {} as = some d → d.Mirrored := by
  intro h
  have hmirrored := h [.trackJobForAgent "a" "job" "run", .startRecoveryTimer "job" "a" "run",
    .trackJobForAgent "b" "job" "run", .timer 0] _ rfl
  exact absurd ((hmirrored.agents "b" "job").1 (by decide)) (by decide)

end Kici
