import Kici.Foundation.BreadthFirst
import Kici.Needs.Scheduler
import Mathlib.Data.List.Range

/-!
# How a failure propagates

A job that is over makes the jobs that it does not admit be skipped, and these the jobs that do not
run after a skipped one (`RunDb.Skipped`). `getFailurePropagationTargets` looks for them
breadth-first. It judges each job that it comes to by the status in its row, which is not `skipped`
yet, and does not look at the row of a job that it puts into its result.

The search always ends (`getFailurePropagationTargets_isSome`) with what the statuses in the rows
propagate to (`mem_targets_iff`). When this is what is to be skipped, and without repetitions, is a
matter of the edges (`RunDb.PropagatesTo`, `propagatesExactly_iff`).
-/

namespace Kici

open List Relation Search Bool

namespace RunDb

variable (db : RunDb) {jobName : JsString}

/-- The status of a job; of several rows of one name the first one read counts. -/
def firstStatus (jobName : JsString) : Option ExecutionJobStatus :=
  (db.executionJobs.rows.find? fun row => row.jobName = jobName).map (·.status)

/-- Whether an edge from a job of this status propagates. A missing row does. -/
def propagates (currentStatus : Option ExecutionJobStatus) (edge : JobNeed) : Bool :=
  match currentStatus with
  | none => true
  | some status => !edge.admits status

/-- Look at an edge from the current job. -/
def followEdge (visited : List JsString) (currentStatus : Option ExecutionJobStatus) :
    List JsString × List JsString → JobNeed → List JsString × List JsString
  | (targets, queue), edge =>
    if edge.jobName ∈ visited then (targets, queue)
    else if propagates currentStatus edge then (targets ++ [edge.jobName], queue ++ [edge.jobName])
    else (targets, queue)

/-- The loop, where `downstreamEdges` are the rows that the query of a job returns. -/
def propagateFrom (downstreamEdges : JsString → List JobNeed) :
    ℕ → List JsString → List JsString → List JsString → Option (List JsString)
  | _, targets, _, [] => some targets
  | 0, _, _, _ :: _ => none
  | fuel + 1, targets, visited, current :: queue =>
    if current ∈ visited then propagateFrom downstreamEdges fuel targets visited queue
    else
      -- a job is visited when it is taken, not when it is put into the queue
      let visited := current :: visited
      let (targets, queue) :=
        (downstreamEdges current).foldl (followEdge visited (db.firstStatus current)) (targets, queue)
      propagateFrom downstreamEdges fuel targets visited queue

/-- The jobs to skip after a failure. The loop is executed no more often than there are edges, and
once more. -/
def getFailurePropagationTargets (downstreamEdges : JsString → List JobNeed) (failedJobName : JsString) :
    Option (List JsString) :=
  db.propagateFrom downstreamEdges (db.executionJobNeeds.rows.length + 1) [] [] [failedJobName]

/-! ## What is to be skipped -/

/-- The job is over. -/
def IsOver (jobName : JsString) : Prop :=
  ∃ status ∈ TERMINAL_JOB_STATES, db.firstStatus jobName = some status

instance : Decidable (db.IsOver jobName) :=
  inferInstanceAs (Decidable (∃ status ∈ TERMINAL_JOB_STATES, db.firstStatus jobName = some status))

/-- The jobs that can no longer run after a job with this status, as far as they are not over. -/
inductive Skipped (failedJobName : JsString) (status : ExecutionJobStatus) : JsString → Prop
  | first {edge : JobNeed} (hedge : edge ∈ db.executionJobNeeds)
    (hup : edge.upstreamName = failedJobName)
      (hadmits : edge.admits status = false) (hover : ¬ db.IsOver edge.jobName) :
      Skipped failedJobName status edge.jobName
  | next {edge : JobNeed} (hup : Skipped failedJobName status edge.upstreamName)
    (hedge : edge ∈ db.executionJobNeeds)
      (hadmits : edge.admits .skipped = false) (hover : ¬ db.IsOver edge.jobName) :
      Skipped failedJobName status edge.jobName

/-- In whatever order the rows of a query come, the targets are what is to be skipped, without
repetitions. -/
def PropagatesExactly (failedJobName : JsString) (status : ExecutionJobStatus) : Prop :=
  ∀ downstreamEdges : JsString → List JobNeed, (∀ name, (downstreamEdges name).Perm (db.edgesTo name)) →
    ∃ targets, db.getFailurePropagationTargets downstreamEdges failedJobName = some targets ∧
      targets.Nodup ∧
      ∀ name, name ∈ targets ↔ db.Skipped failedJobName status name

/-- By its row, the first job propagates to the second. -/
def PropagatesTo (a b : JsString) : Prop :=
  ∃ edge ∈ db.executionJobNeeds, edge.upstreamName = a ∧ edge.jobName = b ∧
    propagates (db.firstStatus a) edge

/-- The edges are such that it makes no difference how the targets are looked for. -/
structure Straight (failedJobName : JsString) (status : ExecutionJobStatus) : Prop where
  /-- Neither the failed job nor a skipped one propagates to another job that is over. -/
  live : ∀ a b, a = failedJobName ∨ db.Skipped failedJobName status a → db.PropagatesTo a b →
    b ≠ failedJobName →
    ¬ db.IsOver b
  /-- Where an edge from a skipped job that propagates by its row admits a skipped job, the job
  behind it is skipped for another reason. -/
  admitted : ∀ edge ∈ db.executionJobNeeds, db.Skipped failedJobName status edge.upstreamName →
    propagates (db.firstStatus edge.upstreamName) edge → edge.admits .skipped →
      edge.jobName ≠ failedJobName →
      db.Skipped failedJobName status edge.jobName
  /-- Where an edge from a skipped job does not admit it, but admits the status in its row, the job
  behind it is reached by another way. -/
  withheld : ∀ edge ∈ db.executionJobNeeds, db.Skipped failedJobName status edge.upstreamName →
    edge.admits .skipped = false → propagates (db.firstStatus edge.upstreamName) edge = false →
      ¬ db.IsOver edge.jobName → ReflTransGen db.PropagatesTo failedJobName edge.jobName
  /-- No other job has two jobs before it that propagate to it and are no farther from the failed
  job than itself. -/
  once : OneNear db.PropagatesTo failedJobName

variable {db} {downstreamEdges : JsString → List JobNeed} {failedJobName : JsString}
  {status : ExecutionJobStatus} {targets : List JsString}

/-! ## The search -/

/-- The jobs a job propagates to, in the order of the rows of its query. -/
def succ (db : RunDb) (downstreamEdges : JsString → List JobNeed) (jobName : JsString) : List JsString :=
  ((downstreamEdges jobName).filter (propagates (db.firstStatus jobName))).map (·.jobName)

/-- The edges from a job put those it propagates to at the end. -/
theorem foldl_followEdge (visited : List JsString) (currentStatus : Option ExecutionJobStatus)
    (edges : List JobNeed) (targets queue : List JsString) :
    edges.foldl (followEdge visited currentStatus) (targets, queue) =
      (targets ++ ((edges.filter (propagates currentStatus)).map (·.jobName)).filter (· ∉ visited),
        queue ++ ((edges.filter (propagates currentStatus)).map (·.jobName)).filter (· ∉ visited)) := by
  induction edges generalizing targets queue with
  | nil => simp
  | cons edge edges ih =>
    rw [foldl_cons, followEdge]
    by_cases hmem : edge.jobName ∈ visited
    · rw [if_pos hmem, ih]
      by_cases hprop : propagates currentStatus edge <;> simp [hprop, hmem]
    · rw [if_neg hmem]
      by_cases hprop : propagates currentStatus edge
      · rw [if_pos hprop, ih]
        simp [hprop, hmem]
      · rw [if_neg hprop, ih]
        simp [hprop]

/-- The loop is a breadth-first search. -/
theorem propagateFrom_eq (fuel : ℕ) (targets visited queue : List JsString) :
    db.propagateFrom downstreamEdges fuel targets visited queue =
      run (db.succ downstreamEdges) fuel ⟨queue, visited, targets⟩ := by
  induction fuel generalizing targets visited queue with
  | zero => cases queue <;> simp [propagateFrom, run]
  | succ fuel ih =>
    rcases queue with _ | ⟨current, queue⟩
    · rfl
    rw [propagateFrom, run, Search.next]
    dsimp only
    by_cases hmem : current ∈ visited
    · rw [if_pos hmem, if_pos hmem, ih]
    · rw [if_neg hmem, if_neg hmem, foldl_followEdge, ih]
      simp [Search.after, succ]

section

variable (hrows : ∀ name, (downstreamEdges name).Perm (db.edgesTo name))

include hrows

theorem follows_succ : Follows (db.succ downstreamEdges) = db.PropagatesTo := by
  funext a b
  refine propext ⟨fun h => ?_, ?_⟩
  · obtain ⟨edge, hedge, rfl⟩ := List.mem_map.1 h
    obtain ⟨hedge, hprop⟩ := mem_filter.1 hedge
    obtain ⟨hmem, hup⟩ := mem_edgesTo.1 ((hrows a).mem_iff.1 hedge)
    exact ⟨edge, hmem, hup, rfl, hprop⟩
  · rintro ⟨edge, hmem, hup, rfl, hprop⟩
    exact List.mem_map_of_mem (mem_filter.2 ⟨(hrows a).mem_iff.2 (mem_edgesTo.2 ⟨hmem, hup⟩), hprop⟩)

/-- There is one edge from a job to another. -/
theorem nodup_succ (name : JsString) : (db.succ downstreamEdges name).Nodup := by
  have hedges : ((db.edgesTo name).map (·.jobName)).Nodup := by
    have hkeys : ((db.edgesTo name).map JobNeed.key).Nodup :=
      db.executionJobNeeds.nodup.sublist (filter_sublist.map _)
    refine List.Nodup.map_on (fun e he e' he' heq => ?_) (List.Nodup.of_map _ hkeys)
    have hup := (mem_edgesTo.1 he).2.trans (mem_edgesTo.1 he').2.symm
    exact inj_on_of_nodup_map hkeys he he' (Prod.ext heq hup)
  exact (((hrows name).map (·.jobName)).nodup_iff.2 hedges).sublist (filter_sublist.map _)

theorem length_succ_le (name : JsString) : (db.succ downstreamEdges name).length ≤
    (db.executionJobNeeds.rows.map fun edge => (edge.upstreamName, edge.jobName)).countP fun e =>
    e.1 = name := by
  rw [succ, length_map, countP_map, countP_eq_length_filter]
  exact (length_filter_le _ _).trans (hrows name).length_eq.le

/-- The search ends, whatever the edges are. -/
theorem getFailurePropagationTargets_isSome (failedJobName : JsString) :
    (db.getFailurePropagationTargets downstreamEdges failedJobName).isSome := by
  rw [getFailurePropagationTargets, propagateFrom_eq]
  refine run_isSome (length_succ_le hrows) ?_
  rw [length_singleton, Nat.add_comm]
  exact Nat.succ_le_succ (countP_le_length.trans (length_map _).le)

/-- The targets are what the failed job propagates to, step by step. -/
theorem mem_targets_iff
    (h : db.getFailurePropagationTargets downstreamEdges failedJobName = some targets) :
    jobName ∈ targets ↔ jobName ≠ failedJobName ∧
    ReflTransGen db.PropagatesTo failedJobName jobName := by
  rw [getFailurePropagationTargets, propagateFrom_eq] at h
  rw [← follows_succ hrows]
  exact mem_found_iff h

theorem nodup_targets (honce : OneNear db.PropagatesTo failedJobName)
    (h : db.getFailurePropagationTargets downstreamEdges failedJobName = some targets) :
    targets.Nodup := by
  rw [getFailurePropagationTargets, propagateFrom_eq] at h
  obtain ⟨t, hlead, -, rfl⟩ := leads_of_run h
  rw [← follows_succ hrows] at honce
  exact nodup_found (nodup_succ hrows) honce hlead

end

/-! ## A way that comes first -/

/-- Whether an edge that propagates from a job is on a way. -/
def onWay (db : RunDb) (p : ℕ → JsString) (d : ℕ) (name : JsString) (edge : JobNeed) : Bool :=
  propagates (db.firstStatus name) edge && decide (∃ i < d, p i = name ∧ edge.jobName = p (i + 1))

/-- The rows of the queries when those on a way come first. -/
def wayFirst (db : RunDb) (p : ℕ → JsString) (d : ℕ) (name : JsString) : List JobNeed :=
  (db.edgesTo name).filter (db.onWay p d name) ++ (db.edgesTo name).filter fun edge =>
    !db.onWay p d name edge

section

variable {p : ℕ → JsString} {d : ℕ}

theorem wayFirst_perm (name : JsString) : (db.wayFirst p d name).Perm (db.edgesTo name) :=
  filter_append_perm _ _

/-- Then each place of the way comes first after the one before it, if there is no shorter way. -/
theorem foremost_wayFirst (hzero : p 0 = failedJobName) (hp : ∀ i < d, db.PropagatesTo (p i) (p (i + 1)))
    (hshort : ∀ m, Way db.PropagatesTo failedJobName m (p d) → d ≤ m) :
    Foremost (db.succ (db.wayFirst p d)) failedJobName p d where
  zero := hzero
  head i hi := by
    obtain ⟨edge, hedge, hup, hname, hprop⟩ := hp i hi
    have hmem : edge ∈ (db.edgesTo (p i)).filter (db.onWay p d (p i)) := by
      refine mem_filter.2 ⟨mem_edgesTo.2 ⟨hedge, hup⟩, ?_⟩
      rw [onWay, hprop, Bool.true_and]
      exact decide_eq_true ⟨i, hi, rfl, hname⟩
    rcases hrows : (db.edgesTo (p i)).filter (db.onWay p d (p i)) with _ | ⟨e, edges⟩
    · rw [hrows] at hmem
      cases hmem
    · have he : e ∈ (db.edgesTo (p i)).filter (db.onWay p d (p i)) := hrows ▸ mem_cons_self
      obtain ⟨heprop, hway⟩ := and_eq_true_iff.1 (mem_filter.1 he).2
      obtain ⟨j, hj, hji, hjname⟩ := of_decide_eq_true hway
      -- a shortest way comes to each job once
      obtain rfl : j = i := places_injective hzero hp hshort hj.le hi.le hji
      rw [succ, wayFirst, hrows, cons_append, filter_cons_of_pos heprop, map_cons, hjname]
      rfl
  shortest m hm := by
    rw [follows_succ wayFirst_perm] at hm
    exact hshort m hm

end

/-- Where a job has two jobs before it that propagate to it and are no farther than itself, it is
put into the targets twice, if the rows come in a certain order. -/
theorem exists_not_nodup (h : ¬ OneNear db.PropagatesTo failedJobName) :
    ∃ downstreamEdges : JsString → List JobNeed,
    (∀ name, (downstreamEdges name).Perm (db.edgesTo name)) ∧
      ∀ targets, db.getFailurePropagationTargets downstreamEdges failedJobName = some targets →
      ¬ targets.Nodup := by
  obtain ⟨x, n, b, d, c, k, hx, hxb, ⟨hwalk, hshort⟩, hdn, hbx, hc, hk, hcx, hcb⟩ :=
    exists_of_not_oneNear h
  obtain ⟨p, hzero, rfl, hp⟩ := hwalk.exists_places
  refine ⟨db.wayFirst p d, wayFirst_perm, fun targets htargets => ?_⟩
  have hforemost := foremost_wayFirst hzero hp hshort
  have hfollows : Follows (db.succ (db.wayFirst p d)) = db.PropagatesTo := follows_succ wayFirst_perm
  rw [getFailurePropagationTargets, propagateFrom_eq] at htargets
  rw [← hfollows] at hx hbx hc hcx
  exact not_nodup_found (nodup_succ wayFirst_perm) hforemost hx hxb hdn hbx hc hk hcx hcb htargets

/-! ## When the targets are what is to be skipped -/

theorem Skipped.not_isOver (h : db.Skipped failedJobName status jobName) : ¬ db.IsOver jobName := by
  induction h with
  | first _ _ _ hover => exact hover
  | next _ _ _ hover => exact hover

theorem Skipped.ne (hJ : db.firstStatus failedJobName = some status)
    (hover : status ∈ TERMINAL_JOB_STATES)
    (h : db.Skipped failedJobName status jobName) : jobName ≠ failedJobName := by
  rintro rfl
  exact h.not_isOver ⟨status, hover, hJ⟩

section

variable (hJ : db.firstStatus failedJobName = some status)

include hJ

theorem propagates_of_eq {edge : JobNeed} (hup : edge.upstreamName = failedJobName) :
    propagates (db.firstStatus edge.upstreamName) edge = !edge.admits status := by
  rw [hup, hJ, propagates]

theorem Straight.reached (h : db.Straight failedJobName status)
    (hskip : db.Skipped failedJobName status jobName) :
    ReflTransGen db.PropagatesTo failedJobName jobName := by
  induction hskip with
  | first hedge hup hadmits _ =>
    refine .single ⟨_, hedge, hup, rfl, ?_⟩
    rw [hJ, propagates, hadmits]
    rfl
  | @next edge hskip hedge hadmits hover ih =>
    -- the row of the skipped job decides whether the search goes on to the next one
    by_cases hprop : propagates (db.firstStatus edge.upstreamName) edge
    · exact ih.tail ⟨edge, hedge, rfl, rfl, hprop⟩
    · exact h.withheld edge hedge hskip hadmits (eq_false_iff.2 hprop) hover

theorem Straight.skipped (h : db.Straight failedJobName status)
    (hreach : ReflTransGen db.PropagatesTo failedJobName jobName) :
    jobName = failedJobName ∨ db.Skipped failedJobName status jobName := by
  induction hreach with
  | refl => exact .inl rfl
  | @tail a b _ hstep ih =>
    by_cases hb : b = failedJobName
    · exact .inl hb
    have hover := h.live a b ih hstep hb
    obtain ⟨edge, hedge, rfl, rfl, hprop⟩ := hstep
    refine .inr ?_
    rcases ih with hup | hskip
    · rw [propagates_of_eq hJ hup, not_eq_true'] at hprop
      exact .first hedge hup hprop hover
    -- behind a skipped job, its row and not its skip has made the edge propagate
    · by_cases hadmits : edge.admits .skipped
      · exact h.admitted edge hedge hskip hprop hadmits hb
      · exact .next hskip hedge (eq_false_iff.2 hadmits) hover

end

/-- So are the edges when each job that waits is not over, waits for one job, and neither runs after
a skipped job nor after one in the state that its row is in. -/
theorem straight_of_single (hover : ∀ edge ∈ db.executionJobNeeds, ¬ db.IsOver edge.jobName)
    (hadmits : ∀ edge ∈ db.executionJobNeeds, edge.admits .skipped = false)
    (hprop : ∀ edge ∈ db.executionJobNeeds, propagates (db.firstStatus edge.upstreamName) edge)
    (hsingle : ∀ edge ∈ db.executionJobNeeds, ∀ edge' ∈ db.executionJobNeeds,
      edge.jobName = edge'.jobName →
      edge.upstreamName = edge'.upstreamName) : db.Straight failedJobName status where
  live := by
    rintro _ _ _ ⟨edge, hedge, -, rfl, -⟩ _
    exact hover edge hedge
  admitted edge hedge _ _ hadmit _ := absurd hadmit (eq_false_iff.1 (hadmits edge hedge))
  withheld edge hedge _ _ hnot _ := absurd (hprop edge hedge) (eq_false_iff.1 hnot)
  once := by
    rintro _ _ _ _ _ _ ⟨edge, hedge, rfl, rfl, -⟩ ⟨edge', hedge', rfl, hname, -⟩ _ _
    exact hsingle edge hedge edge' hedge' hname.symm

end RunDb

/-- The targets of a job that is over are what is to be skipped after it, in whatever order the rows
come, just when the edges make no difference between the two. -/
theorem propagatesExactly_iff {db : RunDb} {failedJobName : JsString} {status : ExecutionJobStatus}
    (hJ : db.firstStatus failedJobName = some status) (hover : status ∈ TERMINAL_JOB_STATES) :
    db.PropagatesExactly failedJobName status ↔ db.Straight failedJobName status := by
  constructor
  · intro h
    obtain ⟨targets, htargets, -, hmem⟩ := h db.edgesTo fun name => .refl _
    -- any order of the rows shows that what is reached is what is skipped
    have hskip : ∀ name, db.Skipped failedJobName status name ↔
        name ≠ failedJobName ∧ ReflTransGen db.PropagatesTo failedJobName name := fun name =>
      (hmem name).symm.trans (RunDb.mem_targets_iff (fun _ => .refl _) htargets)
    refine ⟨fun a b ha hab hb => ?_, fun edge hedge hup hprop _ hb => ?_,
      fun edge hedge hup hadmits _ hnot => ?_, ?_⟩
    · have hreach : ReflTransGen db.PropagatesTo failedJobName a := by
        rcases ha with rfl | ha
        · exact .refl
        · exact ((hskip a).1 ha).2
      exact ((hskip b).2 ⟨hb, hreach.tail hab⟩).not_isOver
    · exact (hskip _).2 ⟨hb, ((hskip _).1 hup).2.tail ⟨edge, hedge, rfl, rfl, hprop⟩⟩
    · exact ((hskip _).1 (.next hup hedge hadmits hnot)).2
    · by_contra honce
      obtain ⟨downstreamEdges, hrows, hdup⟩ := RunDb.exists_not_nodup honce
      obtain ⟨targets, htargets, hnodup, -⟩ := h downstreamEdges hrows
      exact hdup targets htargets hnodup
  · intro h downstreamEdges hrows
    obtain ⟨targets, htargets⟩ :=
      Option.isSome_iff_exists.1 (RunDb.getFailurePropagationTargets_isSome hrows failedJobName)
    refine ⟨targets, htargets, RunDb.nodup_targets hrows h.once htargets, fun name => ?_⟩
    rw [RunDb.mem_targets_iff hrows htargets]
    exact ⟨fun hmem => (h.skipped hJ hmem.2).resolve_left hmem.1, fun hskip =>
      ⟨hskip.ne hJ hover, h.reached hJ hskip⟩⟩

/-- A job has failed; another one waits for it, and a third one for that. -/
def chainDb : RunDb where
  executionJobs := ⟨[{ jobId := "1", jobName := "test", status := .failed, needsSatisfied := true },
    { jobId := "2", jobName := "deploy", status := .pending },
      { jobId := "3", jobName := "notify", status := .pending }],
    by decide⟩
  executionJobNeeds := ⟨[⟨"deploy", "test", runOnJson SUCCESS_ONLY_RUN_ON⟩,
    ⟨"notify", "deploy", runOnJson SUCCESS_ONLY_RUN_ON⟩], by decide⟩

theorem propagatesExactly_chainDb : chainDb.firstStatus "test" = some .failed ∧
    .failed ∈ TERMINAL_JOB_STATES ∧ chainDb.PropagatesExactly "test" .failed :=
  ⟨rfl, by decide, (propagatesExactly_iff rfl (by decide)).2
    (RunDb.straight_of_single (by decide) (by decide) (by decide) (by decide))⟩

/-- A job has failed; two wait for it, and one for both of them. -/
def diamondDb : RunDb where
  executionJobs := ⟨[{ jobId := "1", jobName := "build", status := .failed, needsSatisfied := true },
    { jobId := "2", jobName := "lint", status := .pending },
      { jobId := "3", jobName := "test", status := .pending },
    { jobId := "4", jobName := "deploy", status := .pending }], by decide⟩
  executionJobNeeds :=
    ⟨[⟨"lint", "build", runOnJson SUCCESS_ONLY_RUN_ON⟩,
      ⟨"test", "build", runOnJson SUCCESS_ONLY_RUN_ON⟩,
    ⟨"deploy", "lint", runOnJson SUCCESS_ONLY_RUN_ON⟩,
      ⟨"deploy", "test", runOnJson SUCCESS_ONLY_RUN_ON⟩], by decide⟩

/-- The last one is a target twice. -/
theorem exists_target_twice : ¬ ∀ (db : RunDb) (failedJobName : JsString) (status : ExecutionJobStatus),
    db.firstStatus failedJobName = some status → status ∈ TERMINAL_JOB_STATES →
      db.PropagatesExactly failedJobName status := by
  intro h
  obtain ⟨targets, htargets, hnodup, -⟩ := h diamondDb "build" .failed rfl (by decide)
    diamondDb.edgesTo fun _ => .refl _
  have htwice : diamondDb.getFailurePropagationTargets diamondDb.edgesTo "build" =
      some (["lint", "test", "deploy", "deploy"] : List JsString) := by decide
  obtain rfl := Option.some.inj (htwice.symm.trans htargets)
  exact absurd hnodup (by decide)

end Kici
