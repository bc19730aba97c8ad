import Kici.Agent.Triage
import Kici.Queue.QueueSystem

/-!
# Whose jobs a disconnect touches

A triage walks the set of its agent's jobs as it changes. So it comes to jobs that the agent was
handed after it had come back, too, and moves them to recovering, although the agent runs them
(`exists_moved_new`).

If no job is added to a set that is walked, no job that a walk has still before it is handed to the
agent again, and the job a walk has come to stays in the set until it is moved (`LeavesWalked`),
then the jobs that are moved are those of the closed connection, with nothing that happened to them
since (`tracked_and_unchanged_of_moved`).
-/

namespace Kici

open List Option TriageState

namespace TriageState

variable (s : TriageState)

/-- The job that a call tracks for the agent as it goes on. -/
def callTracks : TriageCall → Option String
  | .restoreJobForAgent jobId | .trackJobForAgent jobId => some jobId
  | _ => none

/-- The job that a step tracks for the agent. -/
def tracks : TriageAction → Option String
  | .next k _ _ => (s.calls[k]?).bind callTracks
  | _ => none

/-- The job that a step takes from the agent. -/
def untracks : TriageAction → Option String
  | .onJobComplete jobId | .untrackJob jobId | .handleRecoveryExpiry jobId => some jobId
  | _ => none

/-- The walks that go on. -/
def triages : List Triage := s.calls.filterMap (·.triage?)

end TriageState

/-- The sets that are walked are left alone, but for jobs that are taken from them. -/
structure LeavesWalked (queue : JobQueue) (agentId : String) (s : TriageState) (a : TriageAction) :
    Prop where
  /-- What happens to a job that a walk has still before it takes the job from the agent. -/
  happens : ∀ e ∈ s.happens queue agentId a, ∀ t ∈ s.triages, (s.setAt t.jobIds).Ahead t.position e.2 →
    untracks a = some e.2
  /-- A job that is tracked is in the set already, if that is walked. -/
  tracks : ∀ jobId ∈ s.tracks a, ∀ t ∈ s.triages, s.agentJobs = some t.jobIds → jobId ∈ s.setAt t.jobIds
  /-- The job that is moved is where the walk has found it. -/
  moves : ∀ m ∈ s.moves queue agentId a, (s.setAt m.1.jobIds).entries[m.1.position]? = some (some m.2)

instance (queue : JobQueue) (agentId : String) (s : TriageState) (a : TriageAction) :
    Decidable (LeavesWalked queue agentId s a) :=
  decidable_of_iff ((∀ e ∈ s.happens queue agentId a, ∀ t ∈ s.triages,
    (s.setAt t.jobIds).Ahead t.position e.2 →
      untracks a = some e.2) ∧
    (∀ jobId ∈ s.tracks a, ∀ t ∈ s.triages, s.agentJobs = some t.jobIds → jobId ∈ s.setAt t.jobIds) ∧
    ∀ m ∈ s.moves queue agentId a, (s.setAt m.1.jobIds).entries[m.1.position]? = some (some m.2))
    ⟨fun ⟨happens, tracks, moves⟩ => ⟨happens, tracks, moves⟩, fun h => ⟨h.happens, h.tracks, h.moves⟩⟩

namespace TriageState

variable {js : JsRuntime} {queue : JobQueue} {agentId : String} {s s' : TriageState} {a : TriageAction}
  {t : Triage} {place : ℕ} {jobId : String} {call : TriageCall} {rebootPending : Bool} {now : ℕ}

/-- What a walk has before it were jobs of the agent when the disconnect began, and nothing has
happened to them. -/
structure Walks (s : TriageState) (t : Triage) : Prop where
  jobIds : t.jobIds < s.sets.length
  events : t.eventsAtBegin ≤ s.events.length
  tracked : ∀ jobId, (s.setAt t.jobIds).Ahead t.position jobId → jobId ∈ t.trackedAtBegin
  unchanged : ∀ jobId, (s.setAt t.jobIds).Ahead t.position jobId →
    ∀ e ∈ s.events.drop t.eventsAtBegin, e.2 ≠ jobId

/-- The agent has the last set that it was given, if any; the others are empty. -/
structure Places (s : TriageState) : Prop where
  agentJobs : ∀ place, s.agentJobs = some place → place < s.sets.length
  dropped : ∀ place, s.agentJobs ≠ some place → (s.setAt place).isEmpty = true

structure Scoped (s : TriageState) : Prop extends Places s where
  walks : ∀ t ∈ s.triages, s.Walks t
  moved : ∀ m ∈ s.moved, m.tracked = true ∧ m.since = []

/-! ## The sets of the agent -/

theorem setAt_modify {f : LiveSet String → LiveSet String} (hplace : place < s.sets.length)
    (h : s'.sets = s.sets.modify place f) (other : ℕ) :
    s'.setAt other = if place = other then f (s.setAt other) else s.setAt other := by
  simp only [setAt, h, getElem?_modify]
  split
  · next heq =>
    subst heq
    rw [getElem?_eq_getElem hplace]
    rfl
  · rw [id_map']

/-- The sets are the same. -/
def SameSets (s s' : TriageState) : Prop := s'.sets = s.sets ∧ s'.agentJobs = s.agentJobs

theorem SameSets.setAt (h : s.SameSets s') (place : ℕ) : s'.setAt place = s.setAt place := by
  rw [TriageState.setAt, h.1, TriageState.setAt]

theorem SameSets.places (h : s.SameSets s') (hplaces : s.Places) : s'.Places where
  agentJobs place hplace := by
    rw [h.1]
    exact hplaces.agentJobs place (h.2 ▸ hplace)
  dropped place hplace := by
    rw [h.setAt]
    exact hplaces.dropped place (h.2 ▸ hplace)

/-- A set that is walked is as it was after a job is tracked that was in it already. -/
theorem setAt_trackJobForAgent (hplaces : s.Places) (hlt : place < s.sets.length)
    (hmem : s.agentJobs = some place → jobId ∈ s.setAt place) :
    (s.trackJobForAgent jobId).setAt place = s.setAt place := by
  rw [trackJobForAgent]
  split
  · next current hcurrent =>
    rw [setAt_modify (hplaces.agentJobs current hcurrent) rfl]
    split
    · next heq =>
      subst heq
      exact LiveSet.add_of_mem (hmem hcurrent)
    · rfl
  · rw [setAt, getElem?_append_left hlt, setAt]

theorem length_trackJobForAgent : s.sets.length ≤ (s.trackJobForAgent jobId).sets.length := by
  rw [trackJobForAgent]
  split
  · rw [length_modify]
  · rw [length_append]
    exact Nat.le_add_right _ _

theorem Places.trackJobForAgent (h : s.Places) : (s.trackJobForAgent jobId).Places := by
  rw [TriageState.trackJobForAgent]
  split
  · next current hcurrent =>
    refine ⟨fun place hplace => ?_, fun place hplace => ?_⟩
    · rw [length_modify]
      exact h.agentJobs place hplace
    · rw [setAt_modify (h.agentJobs current hcurrent) rfl,
        if_neg fun heq => hplace (hcurrent.trans (congrArg some heq))]
      exact h.dropped place hplace
  · next hnone =>
    refine ⟨fun place hplace => ?_, fun place hplace => ?_⟩
    · cases hplace
      rw [length_append]
      exact Nat.lt_succ_self _
    · have hdropped := h.dropped place fun hcurrent => by cases hnone.symm.trans hcurrent
      -- What lies beyond the sets is no set, and has no jobs.
      rw [setAt] at hdropped ⊢
      rcases Nat.lt_trichotomy place s.sets.length with hlt | heq | hgt
      · rwa [getElem?_append_left hlt]
      · exact absurd (congrArg some heq.symm) hplace
      · rw [getElem?_append_right hgt.le, getElem?_eq_none (by simp only [length_singleton]; omega)]
        rfl

theorem setAt_untrackJob (h : s.Places) (place : ℕ) :
    (s.untrackJob jobId).setAt place = if s.agentJobs = some place then (s.setAt place).delete jobId
    else s.setAt place := by
  rw [untrackJob]
  split
  · next current hcurrent =>
    rw [setAt_modify (h.agentJobs current hcurrent) rfl, hcurrent]
    simp only [some_inj]
  · next hnone => rw [if_neg (by rw [hnone]; exact some_ne_none place ∘ Eq.symm)]

theorem length_untrackJob (jobId : String) : (s.untrackJob jobId).sets.length = s.sets.length := by
  rw [untrackJob]
  split
  · exact length_modify ..
  · rfl

/-- What a walk has before it after a job was taken from the agent, it had before it; and not the
job. -/
theorem ahead_of_untrackJob {i : ℕ} {other : String} (h : s.Places)
    (hahead : ((s.untrackJob jobId).setAt place).Ahead i other) : (s.setAt place).Ahead i other ∧
    other ≠ jobId := by
  rw [setAt_untrackJob h] at hahead
  split at hahead
  · exact hahead.of_delete
  · next hnot => exact absurd hahead.mem (LiveSet.not_mem_of_isEmpty (h.dropped place hnot))

theorem Places.untrackJob (h : s.Places) : (s.untrackJob jobId).Places := by
  refine ⟨fun place hplace => ?_, fun place hplace => ?_⟩
  · rw [length_untrackJob]
    rw [TriageState.untrackJob] at hplace
    split at hplace
    · next current hcurrent =>
      simp only at hplace
      split at hplace
      · cases hplace
      · exact h.agentJobs place (hcurrent.trans hplace)
    · exact h.agentJobs place hplace
  · rw [setAt_untrackJob h]
    split
    · next hcurrent =>
      rw [TriageState.untrackJob, hcurrent] at hplace
      simp only at hplace
      split at hplace
      · assumption
      · exact absurd rfl hplace
    · next hnot => exact h.dropped place hnot

/-! ## Steps -/

theorem step_eq_some (h : s.step js queue agentId a = some s') : ∃ u,
    s.after js queue agentId a = some u ∧ s' = { u with
      events := s.events ++ s.happens queue agentId a
      moved := s.moved ++ ((s.moves queue agentId a).map s.movedJob).toList } := by
  obtain ⟨u, hu, rfl⟩ := map_eq_some_iff.1 h
  exact ⟨u, hu, rfl⟩

theorem sets_callNext (call : TriageCall) :
    SameSets s (s.callNext queue agentId now rebootPending call).1 ∨
      ∃ jobId, callTracks call = some jobId ∧
        SameSets (s.trackJobForAgent jobId) (s.callNext queue agentId now rebootPending call).1 := by
  cases call with
  | restoreJobForAgent jobId | trackJobForAgent jobId => exact .inr ⟨jobId, rfl, rfl, rfl⟩
  | _ => exact .inl ⟨rfl, rfl⟩

theorem sameSets_onAgentDisconnect {deadline : ℕ} : SameSets s (s.onAgentDisconnect deadline) := by
  rw [onAgentDisconnect]
  split <;> exact ⟨rfl, rfl⟩

/-- A step leaves the sets as they are, tracks a job, or takes one from the agent. -/
theorem sets_after (h : s.after js queue agentId a = some s') :
    (untracks a = none ∧ SameSets s s') ∨
      (untracks a = none ∧ ∃ jobId ∈ s.tracks a, SameSets (s.trackJobForAgent jobId) s') ∨
      ∃ jobId, untracks a = some jobId ∧ SameSets (s.untrackJob jobId) s' := by
  cases a with
  | onAgentDisconnect deadline =>
    cases h
    exact .inl ⟨rfl, sameSets_onAgentDisconnect⟩
  | reconcileRecovery | claim | insertDispatched =>
    rw [after] at h
    split at h <;> cases h <;> exact .inl ⟨rfl, rfl, rfl⟩
  | onJobComplete jobId | untrackJob jobId =>
    cases h
    exact .inr (.inr ⟨jobId, rfl, rfl, rfl⟩)
  | handleRecoveryExpiry jobId =>
    cases h
    refine .inr (.inr ⟨jobId, rfl, ?_⟩)
    have hcurrent : (s.deleteRecovering jobId).agentJobs = s.agentJobs := rfl
    rw [untrackJob, untrackJob, hcurrent]
    split <;> exact ⟨rfl, rfl⟩
  | recover jobId | setDb db =>
    cases h
    exact .inl ⟨rfl, rfl, rfl⟩
  | next k now rebootPending =>
    obtain ⟨call, hcall, rfl⟩ := map_eq_some_iff.1 h
    rcases sets_callNext (s := s) call with hsame | ⟨jobId, htracks, hsame⟩
    · exact .inl ⟨rfl, hsame⟩
    · refine .inr (.inl ⟨rfl, jobId, ?_, hsame⟩)
      rw [tracks, hcall]
      exact htracks
  | throws k =>
    obtain ⟨call, -, rfl⟩ := map_eq_some_iff.1 h
    exact .inl ⟨rfl, rfl, rfl⟩

theorem calls_untrackJob : (s.untrackJob jobId).calls = s.calls := by
  rw [untrackJob]
  split <;> rfl

theorem calls_trackJobForAgent : (s.trackJobForAgent jobId).calls = s.calls := by
  rw [trackJobForAgent]
  split <;> rfl

theorem calls_callNext : (s.callNext queue agentId now rebootPending call).1.calls = s.calls := by
  cases call with
  | restoreJobForAgent jobId | trackJobForAgent jobId => exact calls_trackJobForAgent
  | _ => rfl

theorem mem_triages : t ∈ s.triages ↔ ∃ call ∈ s.calls, call.triage? = some t := mem_filterMap

theorem triages_addCall (hmem : t ∈ (s.addCall call).triages) : t ∈ s.triages ∨
    call.triage? = some t := by
  rw [triages, addCall, filterMap_append, mem_append] at hmem
  refine hmem.imp_right fun hnew => ?_
  obtain ⟨other, hother, ht⟩ := mem_filterMap.1 hnew
  rwa [mem_singleton.1 hother] at ht

theorem triage?_advance {u : Triage} (h : (s.advance t).bind (·.triage?) = some u) :
    ∃ position, t.position ≤ position ∧ u = { t with position } := by
  rw [advance] at h
  obtain ⟨call, hcall, hu⟩ := bind_eq_some_iff.1 h
  obtain ⟨⟨position, jobId⟩, hnext, rfl⟩ := map_eq_some_iff.1 hcall
  cases hu
  exact ⟨position, LiveSet.le_of_nextFrom hnext, rfl⟩

/-- A call goes on with the walk it was at. -/
theorem triage?_callNext {u : Triage}
    (h : (s.callNext queue agentId now rebootPending call).2.bind (·.triage?) = some u) :
    ∃ t position, call.triage? = some t ∧ t.position ≤ position ∧ u = { t with position } := by
  cases call with
  | onAgentDisconnect t =>
    rw [callNext] at h
    dsimp only at h
    split at h
    · cases h
    · obtain ⟨position, hle, rfl⟩ := triage?_advance h
      exact ⟨t, position, rfl, hle, rfl⟩
  | getJobById _ _ | markRecovering _ _ =>
    cases h
    exact ⟨u, u.position, rfl, le_rfl, rfl⟩
  | setRecovering t jobId =>
    obtain ⟨position, hle, rfl⟩ := triage?_advance h
    exact ⟨t, position, rfl, Nat.le_of_succ_le hle, rfl⟩
  | reconcileRecovery jobId | restoreJobForAgent jobId | markDispatched jobId
  | trackJobForAgent jobId => cases h

/-- A walk after a step is one from before, which may have gone on, or has just begun. -/
theorem triages_after (h : s.after js queue agentId a = some s') (hmem : t ∈ s'.triages) :
    (∃ u ∈ s.triages, ∃ position, u.position ≤ position ∧ t = { u with position }) ∨
      ∃ deadline place, a = .onAgentDisconnect deadline ∧ s.agentJobs = some place ∧
        t = s.beginTriage place deadline := by
  have hsame (hold : t ∈ s.triages) : ∃ u ∈ s.triages, ∃ position, u.position ≤ position ∧
      t = { u with position } := ⟨t, hold, t.position, le_rfl, rfl⟩
  have hother {u : TriageState} {call : TriageCall} (hu : u.triages = s.triages)
    (hcall : call.triage? = none)
      (hmem : t ∈ (u.addCall call).triages) : t ∈ s.triages := by
    rcases triages_addCall hmem with hold | hnew
    · exact hu ▸ hold
    · cases hcall.symm.trans hnew
  cases a with
  | onAgentDisconnect deadline =>
    cases h
    rw [onAgentDisconnect] at hmem
    split at hmem
    · next place hplace =>
      rcases triages_addCall hmem with hold | hnew
      · exact .inl (hsame hold)
      · cases hnew
        exact .inr ⟨deadline, place, rfl, hplace, rfl⟩
    · exact .inl (hsame hmem)
  | reconcileRecovery | claim | insertDispatched =>
    rw [after] at h
    split at h <;> cases h
    · exact .inl (hsame (hother rfl rfl hmem))
    · exact .inl (hsame hmem)
  | onJobComplete jobId | untrackJob jobId | handleRecoveryExpiry jobId =>
    cases h
    rw [triages, calls_untrackJob] at hmem
    exact .inl (hsame hmem)
  | recover jobId | setDb db =>
    cases h
    exact .inl (hsame hmem)
  | next k now rebootPending =>
    obtain ⟨call, hcall, rfl⟩ := map_eq_some_iff.1 h
    obtain ⟨call', hcall', ht⟩ := mem_triages.1 hmem
    rcases mem_or_mem_of_replaced hcall' with hold | hnew
    · rw [calls_callNext] at hold
      exact .inl (hsame (mem_triages.2 ⟨call', hold, ht⟩))
    · rw [mem_toList] at hnew
      obtain ⟨u, position, hu, hle, rfl⟩ := triage?_callNext (bind_eq_some_iff.2 ⟨call', hnew, ht⟩)
      exact .inl ⟨u, mem_triages.2 ⟨call, mem_of_getElem? hcall, hu⟩, position, hle, rfl⟩
  | throws k =>
    obtain ⟨call, hcall, rfl⟩ := map_eq_some_iff.1 h
    obtain ⟨call', hcall', ht⟩ := mem_triages.1 hmem
    rcases mem_or_mem_of_replaced hcall' with hold | hnew
    · exact .inl (hsame (mem_triages.2 ⟨call', hold, ht⟩))
    · cases hnew

/-! ## Walks -/

/-- The walk a step goes on with begins with all jobs of the agent, to which nothing has happened
yet. -/
theorem walks_beginTriage {deadline : ℕ} (h : s.Places) (hplace : s.agentJobs = some place) :
    s.Walks (s.beginTriage place deadline) where
  jobIds := h.agentJobs place hplace
  events := le_rfl
  tracked jobId hahead := hahead.mem
  unchanged jobId _ e he := by
    rw [beginTriage, drop_length] at he
    cases he

theorem Walks.goOn (h : s.Walks t) {position : ℕ} (hle : t.position ≤ position) :
    s.Walks { t with position } :=
  ⟨h.jobIds, h.events, fun jobId hahead => h.tracked jobId (hahead.mono hle),
    fun jobId hahead => h.unchanged jobId (hahead.mono hle)⟩

/-- The sets change so that a walk has no more before it, and what happens to jobs happens to
others. -/
theorem Walks.of_sets (h : s.Walks t) (hlength : s.sets.length ≤ s'.sets.length)
    (hahead : ∀ jobId, (s'.setAt t.jobIds).Ahead t.position jobId →
      (s.setAt t.jobIds).Ahead t.position jobId)
    {events : List (JobEvent × String)} {moved : List MovedJob}
    (hothers : ∀ e ∈ events, ¬(s'.setAt t.jobIds).Ahead t.position e.2) :
    Walks { s' with events := s.events ++ events, moved } t where
  jobIds := h.jobIds.trans_le hlength
  events := by
    rw [length_append]
    exact h.events.trans (Nat.le_add_right _ _)
  tracked jobId hmem := h.tracked jobId (hahead jobId hmem)
  unchanged jobId hmem e he := by
    rw [drop_append_of_le_length h.events] at he
    rcases mem_append.1 he with hold | hnew
    · exact h.unchanged jobId (hahead jobId hmem) e hold
    · rintro rfl
      exact hothers e hnew hmem

/-- What a walk has before it after a step, it had before it; and the step did not take it from the
agent. -/
theorem ahead_of_after {other : String} (hplaces : s.Places) (hok : LeavesWalked queue agentId s a)
    (h : s.after js queue agentId a = some s') (ht : t ∈ s.triages) (hlt : t.jobIds < s.sets.length)
    (hahead : (s'.setAt t.jobIds).Ahead t.position other) :
    (s.setAt t.jobIds).Ahead t.position other ∧ untracks a ≠ some other := by
  rcases sets_after h with ⟨hnone, hsame⟩ | ⟨hnone, jobId, htracks, hsame⟩ | ⟨jobId, huntracks, hsame⟩
  · rw [hsame.setAt] at hahead
    exact ⟨hahead, by rw [hnone]; exact (some_ne_none other).symm⟩
  · rw [hsame.setAt, setAt_trackJobForAgent hplaces hlt (hok.tracks jobId htracks t ht)] at hahead
    exact ⟨hahead, by rw [hnone]; exact (some_ne_none other).symm⟩
  · rw [hsame.setAt] at hahead
    obtain ⟨hold, hne⟩ := ahead_of_untrackJob hplaces hahead
    exact ⟨hold, by rw [huntracks]; exact fun heq => hne (some_inj.1 heq).symm⟩

theorem length_after (h : s.after js queue agentId a = some s') : s.sets.length ≤ s'.sets.length := by
  rcases sets_after h with ⟨-, hsame⟩ | ⟨-, jobId, -, hsame⟩ | ⟨jobId, -, hsame⟩
  · exact (congrArg List.length hsame.1).ge
  · exact length_trackJobForAgent.trans (congrArg List.length hsame.1).ge
  · rw [← length_untrackJob jobId]
    exact (congrArg List.length hsame.1).ge

/-- The job a walk has come to was the agent's, and nothing has happened to it. -/
theorem Walks.movedJob (h : s.Walks t)
    (hmem : (s.setAt t.jobIds).entries[t.position]? = some (some jobId)) :
    (s.movedJob (t, jobId)).tracked ∧ (s.movedJob (t, jobId)).since = [] := by
  have hahead := LiveSet.ahead_of_getElem? hmem
  refine ⟨decide_eq_true (h.tracked jobId hahead), ?_⟩
  rw [TriageState.movedJob, map_eq_nil_iff, filter_eq_nil_iff]
  intro e he
  simpa using h.unchanged jobId hahead e he

theorem mem_triages_of_callMoves {m : Triage × String} (h : s.callMoves queue agentId call = some m) :
    call.triage? = some m.1 := by
  cases call with
  | markRecovering t jobId =>
    rw [callMoves] at h
    split at h <;> cases h
    rfl
  | setRecovering t jobId =>
    cases h
    rfl
  | _ => cases h

theorem mem_triages_of_moves {m : Triage × String} (h : s.moves queue agentId a = some m) :
    m.1 ∈ s.triages := by
  cases a with
  | next k now rebootPending =>
    obtain ⟨call, hcall, hm⟩ := bind_eq_some_iff.1 h
    exact mem_triages.2 ⟨call, mem_of_getElem? hcall, mem_triages_of_callMoves hm⟩
  | _ => cases h

theorem Scoped.step (hs : s.Scoped) (hok : LeavesWalked queue agentId s a)
    (h : s.step js queue agentId a = some s') : s'.Scoped := by
  obtain ⟨u, hu, rfl⟩ := step_eq_some h
  have hplaces : u.Places := by
    rcases sets_after hu with ⟨-, hsame⟩ | ⟨-, jobId, -, hsame⟩ | ⟨jobId, -, hsame⟩
    · exact hsame.places hs.toPlaces
    · exact hsame.places hs.toPlaces.trackJobForAgent
    · exact hsame.places hs.toPlaces.untrackJob
  refine ⟨⟨hplaces.agentJobs, hplaces.dropped⟩, fun t ht => ?_, fun m hm => ?_⟩
  · rcases triages_after hu ht with ⟨old, hold, position, hle, rfl⟩ | ⟨deadline, place, rfl, hplace, rfl⟩
    · have hwalks := hs.walks old hold
      refine Walks.goOn ?_ hle
      refine hwalks.of_sets (length_after hu) (fun jobId hahead => ?_) fun e he hahead => ?_
      · exact (ahead_of_after hs.toPlaces hok hu hold hwalks.jobIds hahead).1
      · -- A job to which something happened is no more before the walk, if it was.
        obtain ⟨hbefore, hkept⟩ := ahead_of_after hs.toPlaces hok hu hold hwalks.jobIds hahead
        exact hkept (hok.happens e he old hold hbefore)
    · cases hu
      refine (walks_beginTriage hs.toPlaces hplace).of_sets
        (congrArg List.length sameSets_onAgentDisconnect.1).ge
        (fun jobId hahead => ?_) ?_
      · rwa [sameSets_onAgentDisconnect.setAt] at hahead
      · intro e he
        cases he
  · rcases mem_append.1 hm with hold | hnew
    · exact hs.moved m hold
    · obtain ⟨moved, hmoved, rfl⟩ := map_eq_some_iff.1 (mem_toList.1 hnew)
      exact (hs.walks moved.1 (mem_triages_of_moves hmoved)).movedJob (hok.moves moved hmoved)

end TriageState

open TriageState

variable (js : JsRuntime) (queue : JobQueue) (agentId : String)

theorem triageSystem_scoped {s : TriageState}
    (h : (triageSystem js queue agentId).Reachable (LeavesWalked queue agentId) s) : s.Scoped := by
  refine h.invariant ?_ fun s a s' hs hok hstep => hs.step hok hstep
  rintro _ ⟨db, rfl⟩
  refine ⟨⟨fun place hplace => ?_, fun _ _ => rfl⟩, fun t ht => ?_, fun m hm => ?_⟩
  · cases hplace
  · cases ht
  · cases hm

/-- In a run that leaves the sets alone that are walked, the triages move jobs that were the agent's
when its disconnect began, and that have neither finished, nor been reclaimed, nor been dispatched
since. -/
theorem tracked_and_unchanged_of_moved {s : TriageState}
    (h : (triageSystem js queue agentId).Reachable (LeavesWalked queue agentId) s) :
    ∀ m ∈ s.moved, m.tracked ∧ m.since = [] :=
  (triageSystem_scoped js queue agentId h).moved

theorem leavesWalked_of_test (s : TriageState) (a : TriageAction)
    (h : decide (LeavesWalked queue agentId s a)) :
    LeavesWalked queue agentId s a := of_decide_eq_true h

/-- An agent has two jobs as it disconnects, and gets the first one back while the second one is
moved. -/
theorem tracked_and_unchanged_of_moved_twoJobs : ∃ s : TriageState,
    (triageSystem lowercaseRuntime {} "box").Reachable (LeavesWalked {} "box") s ∧
      s.moved.map (·.jobId) = ["build", "build", "test", "test"] ∧ ∀ m ∈ s.moved, m.tracked ∧
      m.since = [] := by
  obtain ⟨s, hpath, hs⟩ := (triageSystem lowercaseRuntime {} "box").exists_path { db := emptyQueue.db }
      (fun s => s.moved.map (·.jobId) = ["build", "build", "test", "test"])
        (leavesWalked_of_test {} "box") [
      .insertDispatched 0 { anyAgentJob with jobId := "build" },
      .next 0 0 false,
      .insertDispatched 0 { anyAgentJob with jobId := "test" },
      .next 0 0 false,
      .onAgentDisconnect 100,
      .next 0 0 false,
      .next 0 0 false,
      .next 0 0 false,
      .next 0 0 false,
      .reconcileRecovery "build",
      .next 0 0 false,
      .next 1 0 false,
      .next 0 0 false,
      .next 1 0 false,
      .next 0 0 false] (by decide)
  have h : (triageSystem lowercaseRuntime {} "box").Reachable (LeavesWalked {} "box") s :=
    ⟨_, ⟨_, rfl⟩, hpath⟩
  exact ⟨s, h, hs, tracked_and_unchanged_of_moved _ _ _ h⟩

/-- A run in which an agent comes back while its job is moved to recovering, and is given another
one, which is moved then, too. -/
theorem exists_moved_new : ∃ s : TriageState,
    (triageSystem lowercaseRuntime {} "box").Reachable System.anyStep s ∧
    ∃ m ∈ s.moved, m.tracked = false ∧ m.since = [.dispatched, .dispatched] := by
  obtain ⟨s, hpath, hs⟩ := (triageSystem lowercaseRuntime {} "box").exists_path { db := emptyQueue.db }
      (fun s => ∃ m ∈ s.moved, m.tracked = false ∧ m.since = [.dispatched, .dispatched])
        System.anyStep_of_true [
      .insertDispatched 0 { anyAgentJob with jobId := "build" },
      .next 0 0 false,
      .onAgentDisconnect 100,
      .next 0 0 false,
      .insertDispatched 0 { anyAgentJob with jobId := "test" },
      .next 1 0 false,
      .next 0 0 false,
      .next 0 0 false,
      .next 0 0 false,
      .next 0 0 false,
      .next 0 0 false] (by decide)
  exact ⟨s, ⟨_, ⟨_, rfl⟩, hpath⟩, hs⟩

end Kici
