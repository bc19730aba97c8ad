import Kici.Needs.Evaluation

/-!
# Needs of groups

A job may need the jobs of a group that is generated while the run goes on. There is no edge
to them before `resolveGroupEdges`, and a check looks at the edges there are. So a job that
needs another job too is let through once that one is over, whatever becomes of the group
(`exists_group_bypassed`).

`groups_not_bypassed`: a job of the lock file is let through only after the members of its
groups, if the groups are resolved before all of its other needs are met, and the edges to
the members find their place (`LockJob.GroupsFirst`).
-/

namespace Kici

open List Option RunDb SchedulerReport

/-- The needs of groups as the compiler writes them: listed in `dependsOnGroups`, with a set of
statuses that is not empty, one for each group. -/
def LockJob.GroupNeedsListed (lockJob : LockJob) : Prop :=
  ∀ groupName runOn, .group groupName runOn ∈ lockJob.needs →
    groupName ∈ lockJob.dependsOnGroups.getD [] ∧ runOn ≠ some [] ∧
      groupRunOn groupName lockJob = runOn.getD SUCCESS_ONLY_RUN_ON

/-- Whether the job was let through: by a check, or by `evaluateDownstreams`. -/
def SchedulerReport.letsThrough (jobName : JsString) (r : SchedulerReport) : Bool :=
  r = .checked jobName .dispatch || r.dispatches jobName

namespace NeedsState

/-- The groups that the job needs are resolved. -/
def GroupsResolved (s : NeedsState) (lockJob : LockJob) : Prop :=
  ∀ groupName runOn, .group groupName runOn ∈ lockJob.needs →
    ∃ members, (groupName, members) ∈ s.resolved

/-- The groups that the job needs are resolved, and all their members, each of which has one
row, are over with statuses the job admits. -/
def GroupsMet (s : NeedsState) (lockJob : LockJob) : Prop :=
  s.GroupsResolved lockJob ∧ ∀ groupName runOn, .group groupName runOn ∈ lockJob.needs →
    ∀ members, (groupName, members) ∈ s.resolved → ∀ member ∈ members,
      s.db.UniqueName member ∧ ∃ row ∈ s.db.executionJobs, row.jobName = member ∧
        row.status ∈ TERMINAL_JOB_STATES ∧ row.status ∈ runOn.getD SUCCESS_ONLY_RUN_ON

end NeedsState

/-- The condition on a run. -/
structure LockJob.GroupsFirst (lockJob : LockJob) (s : NeedsState) (a : NeedsAction) : Prop where
  /-- As long as a group is not resolved, another need is not met. -/
  resolved : (∀ edge ∈ s.db.edgesOf lockJob.name, s.db.Met edge) → s.GroupsResolved lockJob
  /-- A group is resolved once, while no check of the job is half done; other edges to its
  members have the same statuses. -/
  resolve : ∀ groupName memberJobNames, a = .resolveGroupEdges groupName memberJobNames →
    (∀ p ∈ s.resolved, p.1 ≠ groupName) ∧
      (groupName ∈ lockJob.dependsOnGroups.getD [] →
        (∀ edges checker, .statuses lockJob.name edges checker ∉ s.calls) ∧
          ∀ member ∈ memberJobNames, ∀ edge ∈ s.db.executionJobNeeds,
            edge.key = (lockJob.name, member) → edge.runOn = runOnJson (groupRunOn groupName lockJob))
  /-- A new row does not take the name of another. -/
  names : ∀ jobId jobName status, a = .writeStatus jobId jobName status →
    s.db.executionJobs.lookup jobId = none → ∀ row ∈ s.db.executionJobs, row.jobName ≠ jobName

namespace NeedsState

variable {staticJobs : List LockJob} {lockJob : LockJob} {s t : NeedsState}
  {memberJobNames : List JsString} {call : SchedulerCall} {rest : Option SchedulerCall}

/-! ## Edges to members -/

/-- The edges to the members of the groups that are resolved. -/
def MemberEdges (lockJob : LockJob) (s : NeedsState) : Prop :=
  ∀ groupName members, (groupName, members) ∈ s.resolved →
    groupName ∈ lockJob.dependsOnGroups.getD [] → ∀ member ∈ members,
      ⟨lockJob.name, member, runOnJson (groupRunOn groupName lockJob)⟩ ∈ s.db.executionJobNeeds

/-- A group of the job gets its edges. -/
theorem mem_resolveGroupEdges (hnames : (staticJobs.map LockJob.name).Nodup)
    (hmem : lockJob ∈ staticJobs) {groupName member : JsString}
    (hgroup : groupName ∈ lockJob.dependsOnGroups.getD []) (hmember : member ∈ memberJobNames)
    (hother : ∀ edge ∈ s.db.executionJobNeeds, edge.key = (lockJob.name, member) →
      edge.runOn = runOnJson (groupRunOn groupName lockJob)) :
    ⟨lockJob.name, member, runOnJson (groupRunOn groupName lockJob)⟩ ∈
      (s.db.insertNeeds (groupEdgeRows memberJobNames
        (dependentStaticJobs staticJobs groupName))).executionJobNeeds := by
  refine mem_insertNeeds ?_ fun e he hkey => ?_
  · refine mem_flatMap.2 ⟨⟨lockJob.name, groupRunOn groupName lockJob⟩, ?_, ?_⟩
    · exact mem_map.2 ⟨lockJob, mem_filter.2 ⟨hmem, decide_eq_true hgroup⟩, rfl⟩
    · exact mem_map.2 ⟨member, hmember, rfl⟩
  · obtain ⟨name, upstream, runOn⟩ := e
    obtain ⟨rfl, rfl⟩ : name = lockJob.name ∧ upstream = member := Prod.mk.inj hkey
    rcases he with he | he
    · rw [JobNeed.mk.injEq]
      exact ⟨rfl, rfl, hother _ he rfl⟩
    · -- The edge is one of a job of the same name, which is the same job.
      obtain ⟨dep, hdep, he⟩ := mem_flatMap.1 he
      obtain ⟨lockJob', hlockJob', rfl⟩ := mem_map.1 hdep
      obtain ⟨member', hmember', he⟩ := mem_map.1 he
      rw [JobNeed.mk.injEq] at he ⊢
      obtain rfl := inj_on_of_nodup_map hnames (mem_filter.1 hlockJob').1 hmem he.1
      exact ⟨rfl, rfl, he.2.2.symm⟩

/-- The edges a resolution adds to a job that does not wait for the group: none. -/
theorem edgesOf_resolveGroupEdges (hnames : (staticJobs.map LockJob.name).Nodup)
    (hmem : lockJob ∈ staticJobs) {groupName : JsString}
    (hgroup : groupName ∉ lockJob.dependsOnGroups.getD []) {edge : JobNeed}
    (hedge : edge ∈ (s.db.insertNeeds (groupEdgeRows memberJobNames
      (dependentStaticJobs staticJobs groupName))).edgesOf lockJob.name) :
    edge ∈ s.db.edgesOf lockJob.name := by
  obtain ⟨hedge, hname⟩ := mem_edgesOf.1 hedge
  refine mem_edgesOf.2 ⟨(mem_of_mem_insertNeeds hedge).resolve_right fun hrow => ?_, hname⟩
  obtain ⟨dep, hdep, hrow⟩ := mem_flatMap.1 hrow
  obtain ⟨lockJob', hlockJob', rfl⟩ := mem_map.1 hdep
  obtain ⟨member, -, rfl⟩ := mem_map.1 hrow
  obtain ⟨hmem', hgroup'⟩ := mem_filter.1 hlockJob'
  obtain rfl := inj_on_of_nodup_map hnames hmem' hmem hname
  exact hgroup (of_decide_eq_true hgroup')

/-! ## The invariant -/

/-- What holds of a run in which the groups of the job come first: a check that is half done
has read all edges of the job, and a claim and a report come after its groups. -/
structure GroupsOk (lockJob : LockJob) (s : NeedsState) : Prop where
  names : ∀ name, s.db.UniqueName name
  edges : MemberEdges lockJob s
  statuses : ∀ edges checker, .statuses lockJob.name edges checker ∈ s.calls →
    ∀ edge ∈ s.db.edgesOf lockJob.name, edge ∈ edges
  claims : ∀ checker, .claim lockJob.name checker ∈ s.calls → s.GroupsMet lockJob
  reports : ∀ r ∈ s.reports, r.letsThrough lockJob.name → s.GroupsMet lockJob

/-- Members that are over stay so. -/
theorem GroupsMet.mono (h : s.GroupsMet lockJob) (hresolved : t.resolved = s.resolved)
    (hkept : s.db.TerminalKept t.db) (hunique : ∀ name, t.db.UniqueName name) :
    t.GroupsMet lockJob := by
  refine ⟨fun groupName runOn hneed => ?_,
    fun groupName runOn hneed members hmembers member hmember => ?_⟩
  · rw [hresolved]
    exact h.1 groupName runOn hneed
  · rw [hresolved] at hmembers
    obtain ⟨-, row, hrow, hname, hterminal, hrunOn⟩ :=
      h.2 groupName runOn hneed members hmembers member hmember
    obtain ⟨row', hrow', hname', hstatus⟩ := hkept row hrow hterminal
    exact ⟨hunique member, row', hrow', hname'.trans hname, hstatus ▸ hterminal, hstatus ▸ hrunOn⟩

/-- A check that finds all edges met comes after the groups. -/
theorem groupsMet_of_check (hs : GroupsOk lockJob s) (hlisted : lockJob.GroupNeedsListed)
    (hfirst : (∀ edge ∈ s.db.edgesOf lockJob.name, s.db.Met edge) → s.GroupsResolved lockJob)
    (hmet : ∀ edge ∈ s.db.edgesOf lockJob.name, s.db.Met edge) : s.GroupsMet lockJob := by
  refine ⟨hfirst hmet, fun groupName runOn hneed members hmembers member hmember =>
    ⟨hs.names member, ?_⟩⟩
  obtain ⟨hgroup, hne, hrunOn⟩ := hlisted groupName runOn hneed
  have hedge := hs.edges groupName members hmembers hgroup member hmember
  obtain ⟨row, hrow, hname, hterminal, hadmits⟩ := hmet _ (mem_edgesOf.2 ⟨hedge, rfl⟩)
  refine ⟨row, hrow, hname, hterminal, ?_⟩
  rw [JobNeed.admits, hrunOn] at hadmits
  -- A set that is not empty is read as it was written.
  have hparse : ∀ runOn : List ExecutionJobStatus, runOn ≠ [] →
      parseRunOn (runOnJson runOn) = runOn.map ExecutionJobStatus.text := by
    intro runOn hne
    cases runOn with
    | nil => exact absurd rfl hne
    | cons => rfl
  have hne' : runOn.getD SUCCESS_ONLY_RUN_ON ≠ [] := by
    cases runOn with
    | none => exact cons_ne_nil _ _
    | some l => exact fun heq => hne (congrArg some heq)
  rw [hparse _ hne', decide_eq_true_eq] at hadmits
  obtain ⟨status, hstatus, htext⟩ := mem_map.1 hadmits
  exact ExecutionJobStatus.text_injective htext ▸ hstatus

/-- A step that leaves the edges and resolutions, with calls and reports that are as they
should be. -/
theorem GroupsOk.extend (hs : GroupsOk lockJob s) (hunique : ∀ name, t.db.UniqueName name)
    (hneeds : t.db.executionJobNeeds = s.db.executionJobNeeds) (hkept : s.db.TerminalKept t.db)
    (hresolved : t.resolved = s.resolved)
    (hcalls : ∀ call ∈ t.calls, call ∈ s.calls ∨
      (∀ edges checker, call = .statuses lockJob.name edges checker →
        edges = t.db.edgesOf lockJob.name) ∧
      ∀ checker, call = .claim lockJob.name checker → s.GroupsMet lockJob)
    (hreports : ∀ r ∈ t.reports, r ∈ s.reports ∨ (r.letsThrough lockJob.name → s.GroupsMet lockJob)) :
    GroupsOk lockJob t where
  names := hunique
  edges := by
    intro groupName members hmembers
    rw [hneeds]
    rw [hresolved] at hmembers
    exact hs.edges groupName members hmembers
  statuses edges checker hcall edge hedge := by
    rcases hcalls _ hcall with hcall | hcall
    · have hsame : t.db.edgesOf lockJob.name = s.db.edgesOf lockJob.name := by
        rw [edgesOf, edgesOf, hneeds]
      exact hs.statuses edges checker hcall edge (hsame ▸ hedge)
    · rw [hcall.1 edges checker rfl]
      exact hedge
  claims checker hcall := by
    rcases hcalls _ hcall with hcall | hcall
    · exact (hs.claims checker hcall).mono hresolved hkept hunique
    · exact (hcall.2 checker rfl).mono hresolved hkept hunique
  reports r hr hthrough := by
    rcases hreports r hr with hr | hr
    · exact (hs.reports r hr hthrough).mono hresolved hkept hunique
    · exact (hr hthrough).mono hresolved hkept hunique

/-! ## Statements of calls -/

/-- What a statement of a call may do: a job is let through, and its claim follows, only where
a check finds all the edges met that it read. -/
structure StatementEffect (s : NeedsState) (call : SchedulerCall) (t : NeedsState)
    (rest : Option SchedulerCall) : Prop where
  db : t.db = s.db ∨ ∃ jobName, t.db = s.db.claim jobName
  calls : t.calls = s.calls
  resolved : t.resolved = s.resolved
  statuses : ∀ jobName edges checker, rest = some (.statuses jobName edges checker) →
    edges = s.db.edgesOf jobName ∧ t.db = s.db
  claim : ∀ jobName checker, rest = some (.claim jobName checker) →
    ∃ edges, call = .statuses jobName edges checker ∧ s.db.checkEdges edges = .dispatch
  reports : ∀ r ∈ t.reports, r ∈ s.reports ∨ ∀ jobName, r.letsThrough jobName →
    (∃ edges checker, call = .statuses jobName edges checker ∧ s.db.checkEdges edges = .dispatch) ∨
      ∃ checker, call = .claim jobName checker

/-- A report of no consequence. -/
theorem StatementEffect.report (h : StatementEffect s call t rest) {r : SchedulerReport}
    (hr : ∀ jobName, r.letsThrough jobName →
      (∃ edges checker, call = .statuses jobName edges checker ∧ s.db.checkEdges edges = .dispatch) ∨
        ∃ checker, call = .claim jobName checker) :
    StatementEffect s call (t.report r) rest where
  db := h.db
  calls := h.calls
  resolved := h.resolved
  statuses := h.statuses
  claim := h.claim
  reports r' hr' := by
    rcases mem_append.1 hr' with hr' | hr'
    · exact h.reports r' hr'
    · exact .inr (mem_singleton.1 hr' ▸ hr)

/-- A call that goes on with another job, or is over. -/
theorem statementEffect_resume (hdb : t.db = s.db ∨ ∃ jobName, t.db = s.db.claim jobName)
    (hcalls : t.calls = s.calls)
    (hresolved : t.resolved = s.resolved) (hreports : t.reports = s.reports)
    (hrest : ∀ c, rest = some c → (∃ checker, c = .resume checker) ∨ ∃ jobName checker,
      c = .edges jobName checker) :
    StatementEffect s call t rest where
  db := hdb
  calls := hcalls
  resolved := hresolved
  statuses jobName edges checker h := by
    rcases hrest _ h with ⟨_, h⟩ | ⟨_, _, h⟩ <;> cases h
  claim jobName checker h := by
    rcases hrest _ h with ⟨_, h⟩ | ⟨_, _, h⟩ <;> cases h
  reports r hr := .inl (hreports ▸ hr)

/-- A skip lets nothing through. -/
theorem not_letsThrough_skip {name jobName : JsString} {reason : Option JsString} :
    ¬(evaluated ⟨name, .skip, reason⟩).letsThrough jobName := by
  simp [letsThrough, dispatches]

theorem not_letsThrough_recomputed {result : SchedulerResult} {jobName : JsString} :
    ¬(recomputed result).letsThrough jobName := by
  simp [letsThrough, dispatches]

/-- After a check that finds all edges met the job is claimed; otherwise its caller goes on. -/
theorem statementEffect_onCheck {jobName : JsString} {edges : List JobNeed} {checker : Checker}
    (hcall : call = .statuses jobName edges checker)
    (h : ∀ rest, (∀ c, rest = some c → (∃ checker, c = .resume checker) ∨
      c = .claim jobName checker ∧ s.db.checkEdges edges = .dispatch) → StatementEffect s call t rest) :
    StatementEffect s call (t.onCheck jobName (s.db.checkEdges edges) checker).1
      (t.onCheck jobName (s.db.checkEdges edges) checker).2 := by
  rcases hcheck : s.db.checkEdges edges with _ | _ | reason
  · cases checker with
    | caller => exact h _ fun c hc => by cases hc
    | evaluate | recompute => exact h _ fun c hc => .inl ⟨_, (some.inj hc).symm⟩
  · cases checker with
    | caller => exact h _ fun c hc => by cases hc
    | evaluate | recompute => exact h _ fun c hc => .inr ⟨(some.inj hc).symm, hcheck⟩
  · cases checker with
    | caller => exact h _ fun c hc => by cases hc
    | evaluate =>
      refine (h _ fun c hc => .inl ⟨_, (some.inj hc).symm⟩).report fun name hthrough => ?_
      exact absurd hthrough not_letsThrough_skip
    | recompute =>
      refine (h _ fun c hc => .inl ⟨_, (some.inj hc).symm⟩).report fun name hthrough => ?_
      exact absurd hthrough not_letsThrough_recomputed

theorem statementEffect_nextOf (call : SchedulerCall) :
    StatementEffect s call (s.nextOf call).1 (s.nextOf call).2 := by
  cases call with
  | edges jobName checker =>
    refine ⟨.inl rfl, rfl, rfl, fun name edges checker' h => ?_, fun name checker' h => ?_,
      fun r hr => .inl hr⟩
    · cases h
      exact ⟨rfl, rfl⟩
    · cases h
  | statuses jobName edges checker =>
    refine statementEffect_onCheck rfl fun rest hrest => ?_
    refine ⟨.inl rfl, rfl, rfl, fun name edges' checker' h => ?_, fun name checker' h => ?_,
      fun r hr => ?_⟩
    · rcases hrest _ h with ⟨_, h⟩ | ⟨h, -⟩ <;> cases h
    · rcases hrest _ h with ⟨_, h⟩ | ⟨h, hcheck⟩
      · cases h
      · cases h
        exact ⟨edges, rfl, hcheck⟩
    · refine (mem_append.1 hr).imp_right fun hr name hthrough => .inl ?_
      -- The report of the check itself.
      obtain rfl := mem_singleton.1 hr
      simp only [letsThrough, dispatches, Bool.or_false,
        decide_eq_true_eq, checked.injEq] at hthrough
      exact ⟨edges, checker, hthrough.1 ▸ rfl, hthrough.2⟩
  | claim jobName checker =>
    cases checker with
    | caller => exact statementEffect_resume (.inl rfl) rfl rfl rfl fun c hc => by cases hc
    | evaluate completedJobName completedStatus seenJobs edges =>
      simp only [nextOf]
      split
      · refine (statementEffect_resume (t := { s with db := s.db.claim jobName }) (.inr ⟨jobName, rfl⟩)
          rfl rfl rfl fun c hc => .inl ⟨_, (some.inj hc).symm⟩).report fun name hthrough => .inr ?_
        simp only [letsThrough, dispatches, decide_eq_true_eq,
          Bool.or_eq_true, reduceCtorEq, false_or, and_true] at hthrough
        subst hthrough
        exact ⟨_, rfl⟩
      · exact statementEffect_resume (.inr ⟨jobName, rfl⟩) rfl rfl rfl
          fun c hc => .inl ⟨_, (some.inj hc).symm⟩
    | recompute jobNames =>
      refine (statementEffect_resume (t := { s with db := s.db.claim jobName }) (.inr ⟨jobName, rfl⟩)
        rfl rfl rfl fun c hc => .inl ⟨_, (some.inj hc).symm⟩).report fun name hthrough => ?_
      exact absurd hthrough not_letsThrough_recomputed
  | resume checker =>
    cases checker with
    | caller => exact statementEffect_resume (.inl rfl) rfl rfl rfl fun c hc => by cases hc
    | evaluate completedJobName completedStatus seenJobs edges =>
      cases edges with
      | nil => exact statementEffect_resume (.inl rfl) rfl rfl rfl fun c hc => by cases hc
      | cons edge edges =>
        simp only [nextOf]
        split
        · exact statementEffect_resume (.inl rfl) rfl rfl rfl
            fun c hc => .inl ⟨_, (some.inj hc).symm⟩
        · split
          · exact statementEffect_resume (.inl rfl) rfl rfl rfl
              fun c hc => .inr ⟨_, _, (some.inj hc).symm⟩
          · refine (statementEffect_resume (t := s) (.inl rfl) rfl rfl rfl
              fun c hc => .inl ⟨_, (some.inj hc).symm⟩).report fun name hthrough => ?_
            exact absurd hthrough not_letsThrough_skip
    | recompute jobNames =>
      cases jobNames with
      | nil => exact statementEffect_resume (.inl rfl) rfl rfl rfl fun c hc => by cases hc
      | cons =>
        exact statementEffect_resume (.inl rfl) rfl rfl rfl
          fun c hc => .inr ⟨_, _, (some.inj hc).symm⟩

/-! ## Steps -/

/-- A call executes its next statement. -/
theorem GroupsOk.next {k : ℕ} (hs : GroupsOk lockJob s) (hlisted : lockJob.GroupNeedsListed)
    (hfirst : (∀ edge ∈ s.db.edgesOf lockJob.name, s.db.Met edge) → s.GroupsResolved lockJob)
    (hcall : call ∈ s.calls) (h : StatementEffect s call t rest) :
    GroupsOk lockJob { t with calls := s.calls.take k ++ rest.toList ++ s.calls.drop (k + 1) } := by
  -- A check that finds the edges met that it read finds all edges met.
  have hcheck : ∀ edges checker, call = .statuses lockJob.name edges checker →
      s.db.checkEdges edges = .dispatch → s.GroupsMet lockJob := by
    rintro edges checker rfl hcheck
    refine groupsMet_of_check hs hlisted hfirst fun edge hedge => ?_
    exact met_of_checkEdges hcheck edge (hs.statuses edges checker hcall edge hedge)
  refine hs.extend ?_ ?_ ?_ h.resolved (fun c hc => ?_) fun r hr => ?_
  · intro name
    rcases h.db with hdb | ⟨jobName, hdb⟩ <;> simp only [hdb]
    · exact hs.names name
    · exact (hs.names name).update fun _ => rfl
  · rcases h.db with hdb | ⟨jobName, hdb⟩ <;> simp only [hdb]
    rfl
  · rcases h.db with hdb | ⟨jobName, hdb⟩ <;> simp only [hdb]
    · exact .refl _
    · exact claim_terminalKept
  · simp only [mem_append, mem_toList] at hc
    rcases hc with (hc | hc) | hc
    · exact .inl (mem_of_mem_take hc)
    · refine .inr ⟨fun edges checker heq => ?_, fun checker heq => ?_⟩
      · obtain ⟨hedges, hdb⟩ := h.statuses lockJob.name edges checker (heq ▸ hc)
        rw [hedges, hdb]
      · obtain ⟨edges, heq', hdispatch⟩ := h.claim lockJob.name checker (heq ▸ hc)
        exact hcheck edges checker heq' hdispatch
    · exact .inl (mem_of_mem_drop hc)
  · refine (h.reports r hr).imp_right fun hthrough hr => ?_
    rcases hthrough lockJob.name hr with ⟨edges, checker, heq, hdispatch⟩ | ⟨checker, heq⟩
    · exact hcheck edges checker heq hdispatch
    · exact hs.claims checker (heq ▸ hcall)

/-- A group is resolved. -/
theorem GroupsOk.resolve (hs : GroupsOk lockJob s) (hnames : (staticJobs.map LockJob.name).Nodup)
    (hmem : lockJob ∈ staticJobs) {groupName : JsString}
    (hfirst : lockJob.GroupsFirst s (.resolveGroupEdges groupName memberJobNames)) :
    GroupsOk lockJob {
      s with
      db := s.db.insertNeeds (groupEdgeRows memberJobNames (dependentStaticJobs staticJobs groupName))
      calls := s.calls ++
        [.resume (.recompute ((dependentStaticJobs staticJobs groupName).map (·.jobName)))]
      resolved := s.resolved ++ [(groupName, memberJobNames)] } := by
  obtain ⟨honce, hgroup⟩ := hfirst.resolve groupName memberJobNames rfl
  have hcall : ∀ c, c ∈ s.calls ++ [.resume (.recompute ((dependentStaticJobs staticJobs groupName).map
      (·.jobName)))] → c ∈ s.calls ∨ ∃ checker, c = .resume checker := by
    intro c hc
    exact (mem_append.1 hc).imp_right fun hc => ⟨_, mem_singleton.1 hc⟩
  -- Another resolution of a group of the job is not possible once it is resolved.
  have hmet : s.GroupsMet lockJob → ∀ t : NeedsState, t.db.executionJobs = s.db.executionJobs →
      t.resolved = s.resolved ++ [(groupName, memberJobNames)] → t.GroupsMet lockJob := by
    intro h t hjobs hresolved
    refine ⟨fun name runOn hneed => ?_, fun name runOn hneed members hmembers member hmember => ?_⟩
    · obtain ⟨members, hmembers⟩ := h.1 name runOn hneed
      rw [hresolved]
      exact ⟨members, mem_append_left _ hmembers⟩
    · rw [hresolved] at hmembers
      rcases mem_append.1 hmembers with hmembers | hmembers
      · have hold := h.2 name runOn hneed members hmembers member hmember
        rw [UniqueName] at hold ⊢
        rw [hjobs]
        exact hold
      · obtain ⟨rfl, rfl⟩ := Prod.mk.inj (mem_singleton.1 hmembers)
        obtain ⟨members, hmembers⟩ := h.1 name runOn hneed
        exact absurd rfl (honce _ hmembers)
  refine ⟨hs.names, ?_, fun edges checker hc edge hedge => ?_, fun checker hc => ?_,
    fun r hr hthrough => ?_⟩
  · intro name members hmembers hlist member hmember
    rcases mem_append.1 hmembers with hmembers | hmembers
    · exact mem_insertNeeds_of_mem (hs.edges name members hmembers hlist member hmember) _
    · obtain ⟨rfl, rfl⟩ := Prod.mk.inj (mem_singleton.1 hmembers)
      exact mem_resolveGroupEdges hnames hmem hlist hmember ((hgroup hlist).2 member hmember)
  · rcases hcall _ hc with hc | ⟨_, hc⟩
    · by_cases hlist : groupName ∈ lockJob.dependsOnGroups.getD []
      · exact absurd hc ((hgroup hlist).1 edges checker)
      · exact hs.statuses edges checker hc edge (edgesOf_resolveGroupEdges hnames hmem hlist hedge)
    · cases hc
  · rcases hcall _ hc with hc | ⟨_, hc⟩
    · exact hmet (hs.claims checker hc) _ rfl rfl
    · cases hc
  · exact hmet (hs.reports r hr hthrough) _ rfl rfl

theorem GroupsOk.step {a : NeedsAction} (hs : GroupsOk lockJob s)
    (hnames : (staticJobs.map LockJob.name).Nodup) (hmem : lockJob ∈ staticJobs)
    (hlisted : lockJob.GroupNeedsListed) (hfirst : lockJob.GroupsFirst s a)
    (h : s.step staticJobs a = some t) : GroupsOk lockJob t := by
  let Harmless (call : SchedulerCall) : Prop :=
    (∀ edges checker, call = .statuses lockJob.name edges checker → edges = s.db.edgesOf lockJob.name) ∧
      ∀ checker, call = .claim lockJob.name checker → s.GroupsMet lockJob
  have hresume : ∀ checker, Harmless (.resume checker) := by
    intro checker
    refine ⟨fun _ _ h => ?_, fun _ h => ?_⟩ <;> cases h
  have hadd : ∀ call, Harmless call → GroupsOk lockJob { s with calls := s.calls ++ [call] } := by
    intro call hcall
    refine hs.extend hs.names rfl (.refl _) rfl (fun c hc => ?_) fun _ h => .inl h
    refine (mem_append.1 hc).imp_right fun hc => ?_
    obtain rfl := mem_singleton.1 hc
    exact hcall
  cases a with
  | writeStatus jobId name status =>
    cases h
    refine hs.extend (fun n => (hs.names n).writeStatus fun hnone heq => ?_) writeStatus_needs
      writeStatus_terminalKept rfl (fun _ h => .inl h) fun _ h => .inl h
    exact heq ▸ hfirst.names jobId name status rfl hnone
  | evaluateDownstreams completedJobName completedStatus =>
    simp only [NeedsState.step, ite_none_right_eq_some, some.injEq] at h
    obtain ⟨-, rfl⟩ := h
    exact hadd _ (hresume _)
  | checkAllUpstreamsSatisfied jobName =>
    cases h
    refine hadd _ ⟨fun _ _ h => ?_, fun _ h => ?_⟩ <;> cases h
  | recomputeNeedsSatisfied jobNames =>
    cases h
    exact hadd _ (hresume _)
  | resolveGroupEdges groupName memberJobNames =>
    cases h
    exact hs.resolve hnames hmem hfirst
  | next k =>
    simp only [NeedsState.step] at h
    split at h
    · next call hcall =>
      cases h
      exact hs.next hlisted hfirst.resolved (mem_of_getElem? hcall) (statementEffect_nextOf call)
    · cases h

end NeedsState

open NeedsState in
/-- A job of the lock file is let through only after its groups, whatever the order of events,
as long as its groups are resolved before its other needs are met. -/
theorem groups_not_bypassed {staticJobs : List LockJob} {lockJob : LockJob} {s t : NeedsState}
    (hnames : (staticJobs.map LockJob.name).Nodup) (hmem : lockJob ∈ staticJobs)
    (hlisted : lockJob.GroupNeedsListed) (hinit : s ∈ (needsSystem staticJobs).init)
    (hunique : ∀ name, s.db.UniqueName name)
    (h : (needsSystem staticJobs).Path lockJob.GroupsFirst s t) {r : SchedulerReport}
    (hr : r ∈ t.reports) (hthrough : r.letsThrough lockJob.name) : t.GroupsMet lockJob := by
  obtain ⟨hcalls, hresolved, hreports⟩ := hinit
  have hstart : GroupsOk lockJob s := by
    refine ⟨hunique, ?_, ?_, ?_, ?_⟩
    · simp [MemberEdges, hresolved]
    · simp [hcalls]
    · simp [hcalls]
    · simp [hreports]
  have hok : GroupsOk lockJob t :=
    h.invariant hstart fun _ _ _ hs hok hstep => hs.step hnames hmem hlisted hok hstep
  exact hok.reports r hr hthrough

/-! ## Running the system -/

/-- A job that needs another one, and a group. -/
def deployJob : LockJob where
  name := "deploy"
  needs := [.name "build", .group "tests" none]
  dependsOnGroups := some ["tests"]

theorem deployJob_groupNeedsListed : deployJob.GroupNeedsListed := by
  rintro groupName runOn hneed
  simp only [deployJob, mem_cons, reduceCtorEq, LockNeed.group.injEq, not_mem_nil, or_false,
    false_or] at hneed
  obtain ⟨rfl, rfl⟩ := hneed
  decide

/-- The jobs of the lock file as they are dispatched. -/
def deployRun : List MaterializedJob :=
  [{ lockJob := { name := "build" }, baseName := "build", expandedName := "build" },
    { lockJob := deployJob, baseName := "deploy", expandedName := "deploy" }]

/-- The start of a run, with its edges. -/
def deployStart : NeedsState where
  db := insertEdgesForRun {
    executionJobs := [pendingJob "b" "build", pendingJob "d" "deploy"].foldl Table.insertNew
      (Table.empty _)
    executionJobNeeds := Table.empty _ } deployRun JsObject.empty

/-- A test for steps in a run in which the groups of a job come first. -/
def groupsFirstTest (lockJob : LockJob) (s : NeedsState) (a : NeedsAction) : Bool :=
  (!(s.db.edgesOf lockJob.name).all (fun edge => s.db.Met edge) || lockJob.needs.all fun need =>
    match need with
    | .group groupName _ => s.resolved.any fun p => p.1 = groupName
    | _ => true) &&
  match a with
  | .resolveGroupEdges groupName memberJobNames =>
    s.resolved.all (fun p => p.1 ≠ groupName) && s.calls.isEmpty &&
      memberJobNames.all fun member =>
        s.db.executionJobNeeds.rows.all fun edge => edge.key ≠ (lockJob.name, member)
  | .writeStatus jobId jobName _ =>
    (s.db.executionJobs.lookup jobId).isSome || s.db.executionJobs.rows.all fun row =>
      row.jobName ≠ jobName
  | _ => true

theorem groupsFirst_of_test {lockJob : LockJob} (s : NeedsState) (a : NeedsAction)
    (h : groupsFirstTest lockJob s a) : lockJob.GroupsFirst s a := by
  rw [groupsFirstTest.eq_def, Bool.and_eq_true] at h
  obtain ⟨hresolved, ha⟩ := h
  refine ⟨fun hmet groupName runOn hneed => ?_, ?_, ?_⟩
  · have hall : (s.db.edgesOf lockJob.name).all (fun edge => s.db.Met edge) :=
      List.all_eq_true.2 fun edge hedge => decide_eq_true (hmet edge hedge)
    rw [hall, Bool.not_true, Bool.false_or, List.all_eq_true] at hresolved
    obtain ⟨⟨_, members⟩, hp, heq⟩ := List.any_eq_true.1 (hresolved _ hneed)
    obtain rfl := of_decide_eq_true heq
    exact ⟨members, hp⟩
  · rintro groupName memberJobNames rfl
    simp only [Bool.and_eq_true, List.all_eq_true, decide_eq_true_eq, List.isEmpty_iff] at ha
    obtain ⟨⟨honce, hcalls⟩, hnew⟩ := ha
    refine ⟨honce, fun _ => ⟨?_, fun member hmember edge hedge hkey => ?_⟩⟩
    · simp [hcalls]
    · exact absurd hkey (hnew member hmember edge hedge)
  · rintro jobId jobName status rfl hnone
    simpa [hnone, Table.mem_def] using ha

/-- A job is let through after its group. -/
theorem groups_not_bypassed_deploy : ∃ t : NeedsState,
    (t.reports.any fun r => r.dispatches "deploy") ∧ t.GroupsMet deployJob := by
  obtain ⟨t, hpath, ht⟩ : ∃ t, (needsSystem [{ name := "build" }, deployJob]).Path
      deployJob.GroupsFirst deployStart t ∧ (t.reports.any fun r => r.dispatches "deploy") :=
    System.exists_path_of_run groupsFirst_of_test
      [.writeStatus "t" "unit" .pending, .resolveGroupEdges "tests" ["unit"],
        .writeStatus "t" "unit" .success, .writeStatus "b" "build" .success,
        .evaluateDownstreams "build" .success, .next 1, .next 1, .next 1, .next 1]
      (by decide)
  obtain ⟨r, hr, hd⟩ := any_eq_true.1 ht
  refine ⟨t, ht, groups_not_bypassed (by decide) (by simp) deployJob_groupNeedsListed ⟨rfl, rfl, rfl⟩
    ?_ hpath hr ?_⟩
  · intro name r hr r' hr' hn hn'
    have hrows : ∀ r ∈ deployStart.db.executionJobs, ∀ r' ∈ deployStart.db.executionJobs,
        r.jobName = r'.jobName → r = r' := by decide
    exact hrows r hr r' hr' (hn.trans hn'.symm)
  · rw [letsThrough, Bool.or_eq_true]
    exact .inr hd

/-- A run in which a job does not wait for its group: the other job it needs ends first. -/
theorem exists_group_bypassed : ¬∀ (staticJobs : List LockJob) (jobs : List MaterializedJob)
    (expansionMap : JsObject (List JsString)) (db : RunDb) (s t : NeedsState) (job : MaterializedJob)
    (r : SchedulerReport), job ∈ jobs → job.lockJob ∈ staticJobs →
    concreteNeeds expansionMap job.lockJob ≠ [] → job.lockJob.GroupNeedsListed →
    s ∈ (needsSystem staticJobs).init → s.db = db.insertEdgesForRun jobs expansionMap →
    (needsSystem staticJobs).Path System.anyStep s t → r ∈ t.reports →
    r.letsThrough job.expandedName → t.GroupsMet job.lockJob := by
  intro h
  obtain ⟨t, hpath, ht⟩ := (needsSystem [{ name := "build" }, deployJob]).exists_path deployStart
      (fun t => t.reports.any (fun r => r.dispatches "deploy") && t.resolved.isEmpty)
        System.anyStep_of_true
      [.writeStatus "b" "build" .success, .evaluateDownstreams "build" .success,
        .next 0, .next 0, .next 0, .next 0]
      (by decide)
  rw [Bool.and_eq_true] at ht
  obtain ⟨r, hr, hd⟩ := any_eq_true.1 ht.1
  have hmet := h [{ name := "build" }, deployJob] deployRun JsObject.empty _ deployStart t
    { lockJob := deployJob, baseName := "deploy", expandedName := "deploy" } r (by simp [deployRun])
    (by simp) (by decide) deployJob_groupNeedsListed ⟨rfl, rfl, rfl⟩ rfl hpath hr ?_
  · obtain ⟨members, hmembers⟩ := hmet.1 "tests" none (by simp [deployJob])
    rw [List.isEmpty_iff.1 ht.2] at hmembers
    cases hmembers
  · rw [letsThrough, Bool.or_eq_true]
    exact .inr hd

end Kici
