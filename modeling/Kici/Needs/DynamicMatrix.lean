import Kici.Fanout.Names
import Kici.Needs.Groups

/-!
# Needs of a job whose matrix is a function

The children of a job whose matrix is a function are known only when the function was run.
The edges of the jobs that need it are written before, to its base name, under which no job is
dispatched; `dispatchResolvedDynamicMatrix` then writes the edges of the children, not those to
them. So a job that needs the base name waits for it, and is never let through
(`dynamicMatrix_never_waited_for`).

This is so for the jobs of the lock file, fanned out or not (`StaticRun`), and for generated
jobs.
-/

namespace Kici

open List RunDb System

variable {generatedJobs : List LockJob} {edge : JobNeed}

/-- Whether the job needs the job of the name. -/
def LockJob.NeedsName (lockJob : LockJob) (name : JsString) : Prop :=
  .name name ∈ lockJob.needs ∨ ∃ runOn, .entry name runOn ∈ lockJob.needs

/-- The edges of generated jobs, whose names are the expanded ones. -/
def generatedEdgeRows (generatedJobs : List LockJob) : List JobNeed :=
  generatedJobs.flatMap fun genJob => genJob.needs.filterMap fun need =>
    match need with
    | .name upstreamName => some ⟨genJob.name, upstreamName, runOnJson SUCCESS_ONLY_RUN_ON⟩
    | .entry upstreamName runOn =>
      some ⟨genJob.name, upstreamName, runOnJson (runOn.getD SUCCESS_ONLY_RUN_ON)⟩
    | .group _ _ => none

/-- What is to be, once a matrix is expanded: the job has an edge to each child, and none is
left to the base name, under which there is no job. -/
structure WaitsForChildren (db : RunDb) (jobName baseName : JsString)
    (children : List MaterializedJob) : Prop where
  edges : ∀ child ∈ children, ∃ edge ∈ db.edgesOf jobName, edge.upstreamName = child.expandedName
  base : ∀ edge ∈ db.edgesOf jobName, edge.upstreamName ≠ baseName

/-- The edges written once a matrix is expanded. -/
def dispatchResolvedDynamicMatrix (db : RunDb) (result : FanoutResult) : RunDb :=
  db.insertEdgesForRun result.jobs result.expansionMap

/-! ## The names of a run -/

namespace FanoutRuntime

open JsObject

variable {rt : FanoutRuntime} {hostTargets : LockJob → Except FanoutError (List ResolvedHostAgent)}
  {maxFanoutHosts : ℕ} {run : StaticRun} {lockJob : LockJob} {staticJobs : List LockJob}

theorem mergeExpansions_single (expansionMap : JsObject (List JsString)) (name : JsString)
    (names : List JsString) :
    mergeExpansions expansionMap (empty.set name names) = expansionMap.set name names := by
  have hcreated : ((empty : JsObject (List JsString)).set name names).created = [(name, names)] := by
    simp [JsObject.set, empty]
  rw [mergeExpansions, hcreated]
  rfl

/-- Each job gets its place in the map, under its own name. -/
theorem materializeStaticJob_expansionMap (rt : FanoutRuntime)
    (hostTargets : LockJob → Except FanoutError (List ResolvedHostAgent)) (maxFanoutHosts : ℕ)
    (run : StaticRun) (lockJob : LockJob) : ∃ names,
    (rt.materializeStaticJob hostTargets maxFanoutHosts run lockJob).expansionMap =
      run.expansionMap.set lockJob.name names := by
  rw [materializeStaticJob]
  split
  · next result hresult =>
    have hsingle : ∃ names, result.expansionMap = empty.set lockJob.name names := by
      split at hresult
      · cases htargets : hostTargets lockJob with
        | error => simp [htargets, bind, Except.bind] at hresult
        | ok agents =>
          simp only [htargets, bind, Except.bind, materializeResolvedHosts, throw, throwThe,
            MonadExceptOf.throw, pure, Except.pure] at hresult
          split at hresult
          · cases hresult
          · split at hresult
            · cases hresult
            · cases hresult
              exact ⟨_, rfl⟩
      · rw [materializeFanout, materializeFrom] at hresult
        cases hjob : rt.materializeJob lockJob with
        | error => simp [hjob, bind, Except.bind] at hresult
        | ok children =>
          simp only [hjob, bind, Except.bind, materializeFrom] at hresult
          cases hresult
          exact ⟨_, rfl⟩
    obtain ⟨names, hnames⟩ := hsingle
    exact ⟨names, by rw [hnames, mergeExpansions_single]⟩
  · exact ⟨_, rfl⟩

/-- A job whose matrix is a function stands for itself. -/
theorem materializeStaticJob_dynamic (hdynamic : lockJob.matrix = some .dynamic)
    (hhosts : lockJob.runsOnAll = false) :
    (rt.materializeStaticJob hostTargets maxFanoutHosts run lockJob).expansionMap =
      run.expansionMap.set lockJob.name [lockJob.name] := by
  have hjob : rt.materializeFanout [lockJob] = .ok ⟨[{
      lockJob
      baseName := lockJob.name
      expandedName := lockJob.name
      pendingDynamicMatrix := some true }], empty.set lockJob.name [lockJob.name]⟩ := by
    simp [materializeFanout, materializeFrom, materializeJob, hdynamic, bind, Except.bind]
  rw [materializeStaticJob, hhosts]
  simp [hjob, mergeExpansions_single]

theorem get_expansionMap_of_dynamic (hnames : (staticJobs.map LockJob.name).Nodup)
    (hmem : lockJob ∈ staticJobs) (hdynamic : lockJob.matrix = some .dynamic)
    (hhosts : lockJob.runsOnAll = false) :
    (rt.materializeStaticJobsSafe hostTargets maxFanoutHosts staticJobs).expansionMap.get lockJob.name =
      some [lockJob.name] := by
  suffices hfold : ∀ (staticJobs : List LockJob) (run : StaticRun), (staticJobs.map LockJob.name).Nodup →
      (run.expansionMap.get lockJob.name = some [lockJob.name] ∧
        (∀ job ∈ staticJobs, job.name ≠ lockJob.name) ∨ lockJob ∈ staticJobs) →
      (staticJobs.foldl (rt.materializeStaticJob hostTargets maxFanoutHosts) run).expansionMap.get
        lockJob.name = some [lockJob.name] from hfold staticJobs _ hnames (.inr hmem)
  intro staticJobs
  induction staticJobs with
  | nil => exact fun run _ h => (h.resolve_right not_mem_nil).1
  | cons job staticJobs ih =>
    intro run hnames h
    rw [map_cons, nodup_cons] at hnames
    refine ih _ hnames.2 ?_
    rcases h with ⟨hget, hother⟩ | hmem
    · refine .inl ⟨?_, fun j hj => hother j (mem_cons_of_mem _ hj)⟩
      obtain ⟨names, heq⟩ := materializeStaticJob_expansionMap rt hostTargets maxFanoutHosts run job
      rw [heq, get_set, if_neg (hother job mem_cons_self).symm, hget]
    · rcases mem_cons.1 hmem with rfl | hmem
      · refine .inl ⟨?_, fun j hj heq => hnames.1 (heq ▸ List.mem_map_of_mem hj)⟩
        rw [materializeStaticJob_dynamic hdynamic hhosts, get_set, if_pos rfl]
      · exact .inr hmem

end FanoutRuntime

/-! ## The edge to the base name -/

variable {db : RunDb} {staticJobs : List LockJob} {s t : NeedsState}

/-- The jobs of an insertion have an edge then, this one or one there was. -/
theorem RunDb.exists_key_insertNeeds (db : RunDb) {edges : List JobNeed} (h : edge ∈ edges) :
    ∃ e ∈ (db.insertNeeds edges).executionJobNeeds, e.key = edge.key := by
  obtain ⟨before, after, rfl⟩ := append_of_mem h
  rw [insertNeeds, foldl_append, foldl_cons]
  obtain ⟨e, he, hkey⟩ :=
    Table.exists_mem_insertNew (before.foldl Table.insertNew db.executionJobNeeds) edge
  refine ⟨e, ?_, hkey⟩
  -- What is left to insert is inserted into the rows with the edge.
  have hafter : e ∈ (insertNeeds { db with
      executionJobNeeds := (before.foldl Table.insertNew db.executionJobNeeds).insertNew edge }
      after).executionJobNeeds := mem_insertNeeds_of_mem he after
  exact hafter

/-- A need of a job that stands for itself. -/
theorem mem_concreteNeeds {expansionMap : JsObject (List JsString)} {lockJob : LockJob} {name : JsString}
    (hget : expansionMap.get name = some [name]) (hneed : lockJob.NeedsName name) :
    ∃ runOn, (name, runOn) ∈ concreteNeeds expansionMap lockJob := by
  rcases hneed with hneed | ⟨runOn, hneed⟩
  · exact ⟨runOnJson SUCCESS_ONLY_RUN_ON, mem_flatMap.2 ⟨_, hneed, by simp [hget]⟩⟩
  · exact ⟨runOnJson (runOn.getD SUCCESS_ONLY_RUN_ON), mem_flatMap.2 ⟨_, hneed, by simp [hget]⟩⟩

theorem mem_generatedEdgeRows {genJob : LockJob} {name : JsString}
    (hmem : genJob ∈ generatedJobs) (hneed : genJob.NeedsName name) :
    ∃ runOn, ⟨genJob.name, name, runOn⟩ ∈ generatedEdgeRows generatedJobs := by
  rcases hneed with hneed | ⟨runOn, hneed⟩
  · exact ⟨_, mem_flatMap.2 ⟨_, hmem, mem_filterMap.2 ⟨_, hneed, rfl⟩⟩⟩
  · exact ⟨_, mem_flatMap.2 ⟨_, hmem, mem_filterMap.2 ⟨_, hneed, rfl⟩⟩⟩

/-- Edges are never removed. -/
theorem needs_of_path (h : (needsSystem staticJobs).Path anyStep s t)
    (hedge : edge ∈ s.db.executionJobNeeds) : edge ∈ t.db.executionJobNeeds :=
  h.invariant (P := fun t => edge ∈ t.db.executionJobNeeds) hedge fun _ _ _ hedge _ hstep =>
    NeedsState.mem_needs_step hstep hedge

/-- A job with an edge to a name that no job has is not let through. -/
theorem RunDb.check_ne_dispatch (hedge : edge ∈ db.executionJobNeeds)
    (hname : ∀ row ∈ db.executionJobs, row.jobName ≠ edge.upstreamName) :
    db.checkAllUpstreamsSatisfied edge.jobName ≠ .dispatch := by
  intro hcheck
  obtain ⟨row, hrow, hup, -⟩ := met_of_checkEdges hcheck edge (mem_edgesOf.2 ⟨hedge, rfl⟩)
  exact hname row hrow hup

/-- The edges of the jobs of a run, and of generated ones. -/
def runEdges (db : RunDb) (run : StaticRun) (generatedJobs : List LockJob) : RunDb :=
  (db.insertEdgesForRun run.materializedJobs run.expansionMap).insertNeeds
    (generatedEdgeRows generatedJobs)

/-- The jobs of a run that need a job by its name. -/
def StaticRun.NeedsName (run : StaticRun) (generatedJobs : List LockJob) (jobName name : JsString) :
    Prop :=
  (∃ job ∈ run.materializedJobs, job.expandedName = jobName ∧ job.lockJob.NeedsName name) ∨
    ∃ genJob ∈ generatedJobs, genJob.name = jobName ∧ genJob.NeedsName name

/-- A job that needs the base name has an edge to it from the start on. -/
theorem exists_base_edge (db : RunDb) {run : StaticRun} {jobName name : JsString}
    (hget : run.expansionMap.get name = some [name]) (hneed : run.NeedsName generatedJobs jobName name) :
    ∃ edge ∈ (runEdges db run generatedJobs).executionJobNeeds,
      edge.jobName = jobName ∧ edge.upstreamName = name := by
  rcases hneed with ⟨job, hjob, rfl, hneed⟩ | ⟨genJob, hjob, rfl, hneed⟩
  · obtain ⟨runOn, hmem⟩ := mem_concreteNeeds hget hneed
    have hrow : ⟨job.expandedName, name, runOn⟩ ∈ edgeRowsForRun run.materializedJobs run.expansionMap :=
      mem_flatMap.2 ⟨job, hjob, List.mem_map.2 ⟨_, hmem, rfl⟩⟩
    obtain ⟨edge, hedge, hkey⟩ := db.exists_key_insertNeeds hrow
    obtain ⟨hname, hup⟩ := Prod.mk.inj hkey
    exact ⟨edge, mem_insertNeeds_of_mem hedge _, hname, hup⟩
  · obtain ⟨runOn, hrow⟩ := mem_generatedEdgeRows hjob hneed
    obtain ⟨edge, hedge, hkey⟩ :=
      (db.insertEdgesForRun run.materializedJobs run.expansionMap).exists_key_insertNeeds hrow
    obtain ⟨hname, hup⟩ := Prod.mk.inj hkey
    exact ⟨edge, hedge, hname, hup⟩

/-- A job that needs a job whose matrix is a function never waits for its children: its edge to
the base name is left, and it is not let through as long as there is no job of this name. -/
theorem dynamicMatrix_never_waited_for {rt : FanoutRuntime}
    {hostTargets : LockJob → Except FanoutError (List ResolvedHostAgent)} {maxFanoutHosts : ℕ}
    {generatedJobs : List LockJob} {matrixJob : LockJob} {combos : List MatrixValues}
    {result : FanoutResult} {jobName : JsString} {u : NeedsState}
    (hnames : (staticJobs.map LockJob.name).Nodup) (hmem : matrixJob ∈ staticJobs)
    (hdynamic : matrixJob.matrix = some .dynamic) (hhosts : matrixJob.runsOnAll = false)
    (hneed : (rt.materializeStaticJobsSafe hostTargets maxFanoutHosts staticJobs).NeedsName generatedJobs
      jobName matrixJob.name)
    (hstart : s.db = runEdges db (rt.materializeStaticJobsSafe hostTargets maxFanoutHosts staticJobs)
      generatedJobs)
    (hst : (needsSystem staticJobs).Path anyStep s t)
    (_ : rt.materializeResolvedMatrix matrixJob combos = .ok result)
    (htu : (needsSystem staticJobs).Path anyStep
      { t with db := dispatchResolvedDynamicMatrix t.db result } u) :
    ¬WaitsForChildren u.db jobName matrixJob.name result.jobs ∧
      ((∀ row ∈ u.db.executionJobs, row.jobName ≠ matrixJob.name) →
        u.db.checkAllUpstreamsSatisfied jobName ≠ .dispatch) := by
  obtain ⟨edge, hedge, rfl, hup⟩ := exists_base_edge db
    (FanoutRuntime.get_expansionMap_of_dynamic hnames hmem hdynamic hhosts) hneed
  rw [← hstart] at hedge
  have hleft : edge ∈ u.db.executionJobNeeds :=
    needs_of_path htu (mem_insertNeeds_of_mem (needs_of_path hst hedge) _)
  refine ⟨fun h => h.base edge (mem_edgesOf.2 ⟨hleft, rfl⟩) hup, fun hrows => ?_⟩
  exact check_ne_dispatch hleft fun row hrow => hup ▸ hrows row hrow

/-! ## Running the system -/

/-- A job whose matrix is a function, and one that needs it. -/
def matrixJobs : List LockJob :=
  [{ name := "build", matrix := some .dynamic }, { name := "deploy", needs := [.name "build"] }]

def matrixRun : StaticRun :=
  lowercaseFanoutRuntime.materializeStaticJobsSafe (fun _ => .ok []) 100 matrixJobs

/-- The start of the run, with its edges. -/
def matrixStart : NeedsState where
  db := runEdges {
    executionJobs := (Table.empty _).insertNew (pendingJob "d" "deploy")
    executionJobNeeds := Table.empty _ } matrixRun []

/-- The job that the matrix is expanded to, for the combination that the function gave. -/
def matrixResult : FanoutResult where
  jobs := [FanoutRuntime.matrixChild { name := "build", matrix := some .dynamic }
    (JsObject.empty.set "value" "linux")]
  expansionMap := JsObject.empty.set "build" ["build (linux)"]

theorem materializeResolvedMatrix_build : lowercaseFanoutRuntime.materializeResolvedMatrix
    { name := "build", matrix := some .dynamic } [JsObject.empty.set "value" "linux"] =
      .ok matrixResult := rfl

/-- The second job needs the first by its name. -/
theorem matrixRun_needsName : matrixRun.NeedsName [] "deploy" "build" := by
  refine .inl ⟨{
    lockJob := { name := "deploy", needs := [.name "build"] }
    baseName := "deploy"
    expandedName := "deploy" }, ?_, rfl, .inl mem_cons_self⟩
  have hjobs : matrixRun.materializedJobs = [{
      lockJob := { name := "build", matrix := some .dynamic }
      baseName := "build"
      expandedName := "build"
      pendingDynamicMatrix := some true }, {
      lockJob := { name := "deploy", needs := [.name "build"] }
      baseName := "deploy"
      expandedName := "deploy" }] := rfl
  rw [hjobs]
  exact mem_cons_of_mem _ mem_cons_self

/-- The run after the matrix is expanded, and its only child was successful. -/
theorem exists_build_successful : ∃ u, (needsSystem matrixJobs).Path anyStep
      { matrixStart with db := dispatchResolvedDynamicMatrix matrixStart.db matrixResult } u ∧
    (u.db.statusOf "build (linux)" = some .success ∧
      ∀ row ∈ u.db.executionJobs.rows, row.jobName ≠ "build") := by
  obtain ⟨u, hpath, hu⟩ :=
    (needsSystem matrixJobs).exists_path
      { matrixStart with db := dispatchResolvedDynamicMatrix matrixStart.db matrixResult }
      (fun u => u.db.statusOf "build (linux)" = some .success ∧ ∀ row ∈ u.db.executionJobs.rows,
        row.jobName ≠
        "build") anyStep_of_true [.writeStatus "b" "build (linux)" .success] (by decide)
  exact ⟨u, hpath, hu⟩

/-- The job that waits is not let through, though the only child was successful. -/
theorem dynamicMatrix_never_waited_for_build : ∃ u : NeedsState,
    u.db.statusOf "build (linux)" = some .success ∧
    ¬WaitsForChildren u.db "deploy" "build" matrixResult.jobs ∧
    u.db.checkAllUpstreamsSatisfied "deploy" ≠ .dispatch := by
  obtain ⟨u, hpath, hsuccess, hbase⟩ := exists_build_successful
  have hmem : { name := "build", matrix := some .dynamic } ∈ matrixJobs := mem_cons_self
  have hnever := dynamicMatrix_never_waited_for (by decide) hmem rfl rfl matrixRun_needsName rfl .refl
    materializeResolvedMatrix_build hpath
  exact ⟨u, hsuccess, hnever.1, hnever.2 hbase⟩

/-- A run in which a job does not wait for the children of the one it needs. -/
theorem exists_children_not_waited_for : ¬∀ (rt : FanoutRuntime)
    (hostTargets : LockJob → Except FanoutError (List ResolvedHostAgent)) (maxFanoutHosts : ℕ)
    (staticJobs generatedJobs : List LockJob) (matrixJob : LockJob) (combos : List MatrixValues)
    (result : FanoutResult) (jobName : JsString) (db : RunDb) (s t u : NeedsState),
    (staticJobs.map LockJob.name).Nodup → matrixJob ∈ staticJobs →
    matrixJob.matrix = some .dynamic → matrixJob.runsOnAll = false →
    (rt.materializeStaticJobsSafe hostTargets maxFanoutHosts staticJobs).NeedsName generatedJobs
      jobName matrixJob.name →
    s.db = runEdges db (rt.materializeStaticJobsSafe hostTargets maxFanoutHosts staticJobs)
      generatedJobs →
    (needsSystem staticJobs).Path anyStep s t →
    rt.materializeResolvedMatrix matrixJob combos = .ok result →
    (needsSystem staticJobs).Path anyStep
      { t with db := dispatchResolvedDynamicMatrix t.db result } u →
    WaitsForChildren u.db jobName matrixJob.name result.jobs := by
  intro h
  have hwaits := h lowercaseFanoutRuntime (fun _ => .ok []) 100 matrixJobs []
    { name := "build", matrix := some .dynamic } _ matrixResult "deploy" _ matrixStart matrixStart _
    (by decide) mem_cons_self rfl rfl matrixRun_needsName rfl .refl
    materializeResolvedMatrix_build .refl
  exact hwaits.base ⟨"deploy", "build", runOnJson SUCCESS_ONLY_RUN_ON⟩ (by decide) rfl

end Kici
