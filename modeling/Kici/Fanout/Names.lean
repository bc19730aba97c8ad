import Kici.Fanout.Combinations
import Kici.Fanout.Materialize
import Mathlib.Data.List.Pairwise

/-!
# Names of children

Whether the children of different jobs may have one name (`fanoutComplete_iff`), and those of one
job on different agents (`FanoutRuntime.hostNamesUnique_iff`).
-/

namespace Kici

open List Except MaterializedJob ResolvedHostAgent

/-!
## The names of a fan-out

Fan-outs are complete (`FanoutComplete`): the children of each job have the combinations
of its matrix, each of them once, with their places in the fan-out, and are found under
the name of the job; but different jobs may have children of the same name. They do not
if and only if no name of a job reads as the name of a child of another
(`fanoutComplete_iff`), of which nothing takes care (`exists_names_collide`).
-/

section

open JsObject

/-- The values of the static matrix of a job, that has one. -/
def LockJob.staticValues (lockJob : LockJob) : Option Json :=
  match lockJob.matrix with
  | some (.static values) => values
  | _ => none

/-- The children of a job in a fan-out of jobs of different names. -/
def FanoutResult.childrenOf (result : FanoutResult) (lockJob : LockJob) : List MaterializedJob :=
  result.jobs.filter fun child => child.baseName = lockJob.name

/-- The fan-out of the jobs: different names, the children of each job under its name,
the combinations of each matrix, and the places of several children. -/
structure FanoutComplete (rt : FanoutRuntime) (staticJobs : List LockJob) (result : FanoutResult) :
    Prop where
  names : (result.jobs.map expandedName).Nodup
  expansionMap : ∀ lockJob ∈ staticJobs, result.expansionMap.get lockJob.name =
    some ((result.childrenOf lockJob).map expandedName)
  combinations : ∀ lockJob ∈ staticJobs, ∀ values, lockJob.staticValues = some values →
    ∃ matrix combos, rt.normalizeMatrixInput values = .ok matrix ∧
      (result.childrenOf lockJob).map variantValues = combos.map some ∧
      Once combos ∧ ∀ c, (∃ d ∈ combos, d.SameValues c) ↔
        IsCombination matrix.toObject c ∧ ¬Excluded (lockJob.excluded.getD []) c ∨
          Included (lockJob.included.getD []) c
  positions : ∀ lockJob ∈ staticJobs, 1 < (result.childrenOf lockJob).length →
    ((result.childrenOf lockJob).map fanoutIndex).Perm
        ((range (result.childrenOf lockJob).length).map some) ∧
      ∀ child ∈ result.childrenOf lockJob,
        child.fanoutTotal = some (result.childrenOf lockJob).length

namespace FanoutRuntime

variable (rt : FanoutRuntime)

/-- The combinations of a static matrix, after its excludes and includes. -/
def combinations (lockJob : LockJob) : List MatrixValues :=
  match lockJob.staticValues with
  | none => []
  | some values =>
    match rt.expandValues lockJob.name values with
    | .error _ => []
    | .ok expanded => rt.applyIncludeExclude expanded lockJob.included lockJob.excluded

/-- No job without a matrix is named as a child of another, `${name} (${suffix})`; and
where the name of a job with a matrix goes on from that of another after ` (`, the
suffixes of the other do not go on in the same way. -/
structure NamesApart (staticJobs : List LockJob) : Prop where
  plain : ∀ j ∈ staticJobs, ∀ c ∈ rt.combinations j, ∀ k ∈ staticJobs,
    k.staticValues = none → k.name ≠ j.name ++ " (" ++ formatMatrixSuffix c ++ ")"
  matrix : ∀ j ∈ staticJobs, ∀ c ∈ rt.combinations j, ∀ k ∈ staticJobs,
    ∀ rest, k.name = j.name ++ " (" ++ rest → ∀ d ∈ rt.combinations k,
      formatMatrixSuffix c ≠ rest ++ " (" ++ formatMatrixSuffix d

variable {rt} {keyOf : MaterializedJob → JsString} {children : List MaterializedJob}
  {lockJob : LockJob} {values : Json} {expanded : List MatrixValues} {staticJobs : List LockJob}
  {result res : FanoutResult}

/-! ### Places in the fan-out -/

/-- What does not depend on the places is left alone. -/
theorem map_assignFanoutPositions {α : Type} {f : MaterializedJob → α}
    (hf : ∀ child i n, f { child with fanoutIndex := i, fanoutTotal := n } = f child) :
    (rt.assignFanoutPositions keyOf children).map f = children.map f := by
  rw [assignFanoutPositions]
  split
  · rfl
  · refine ext_getElem (by simp) fun i hi hi' => ?_
    simp [hf]

/-- The ranks of several children are their places in some order. -/
theorem perm_assignFanoutPositions (h : 1 < children.length) :
    ((rt.assignFanoutPositions keyOf children).map fanoutIndex).Perm
      ((range children.length).map some) := by
  rw [assignFanoutPositions, if_neg h.not_ge]
  set order := (rt.sortByLocale (fun child => keyOf child.1) children.zipIdx).map Prod.snd with horder
  have hperm : order.Perm (range children.length) := by
    have hsnd : children.zipIdx.map Prod.snd = range children.length := by
      rw [zipIdx_map_snd, range_eq_range']
    rw [← hsnd]
    exact perm_sortByLocale.map Prod.snd
  have hnodup : order.Nodup := hperm.nodup_iff.2 nodup_range
  have hranks : order.map order.idxOf = range children.length := by
    refine ext_getElem (by simpa using hperm.length_eq) fun i hi hi' => ?_
    rw [getElem_map, getElem_range, hnodup.idxOf_getElem]
  have hindices : (children.mapIdx fun i child => { child with
      fanoutIndex := some (order.idxOf i), fanoutTotal := some children.length }).map
        fanoutIndex = (range children.length).map fun i =>
          some (order.idxOf i) := by
    refine ext_getElem (by simp) fun i hi hi' => ?_
    simp
  rw [hindices]
  calc ((range children.length).map fun i => some (order.idxOf i))
    _ |>.Perm (order.map fun i => some (order.idxOf i)) := (hperm.map _).symm
    _ = (order.map order.idxOf).map some := map_map.symm
    _ = _ := by rw [hranks]

theorem fanoutTotal_assignFanoutPositions (h : 1 < children.length) :
    ∀ child ∈ rt.assignFanoutPositions keyOf children,
      child.fanoutTotal = some children.length := by
  rw [assignFanoutPositions, if_neg h.not_ge]
  intro child hchild
  obtain ⟨i, hi, rfl⟩ := mem_mapIdx.1 hchild
  rfl

/-! ### The children of a job -/

/-- The job itself, where it has no static matrix, and its combinations otherwise. -/
theorem materializeJob_cases (h : rt.materializeJob lockJob = .ok children) :
    (lockJob.staticValues = none ∧ ∃ pending, children = [{
      lockJob, baseName := lockJob.name, expandedName := lockJob.name,
      pendingDynamicMatrix := pending }]) ∨
    ∃ values, lockJob.staticValues = some values ∧
      rt.materializeMatrix lockJob values = .ok children := by
  obtain ⟨name, matrix, included, excluded⟩ := lockJob
  match matrix with
  | none =>
    obtain rfl := ok.inj h
    exact .inl ⟨rfl, none, rfl⟩
  | some .dynamic =>
    obtain rfl := ok.inj h
    exact .inl ⟨rfl, some true, rfl⟩
  | some (.static none) => cases h
  | some (.static (some values)) =>
    refine .inr ⟨values, rfl, ?_⟩
    rw [materializeJob] at h
    simp only at h
    split at h
    · exact h
    · cases h

/-- No combination has the key of an earlier one. -/
theorem findDuplicateCombination_eq_none {combos : List MatrixValues}
    {keyOf : MatrixValues → JsString} :
    findDuplicateCombination combos keyOf = none ↔ (combos.map keyOf).Nodup := by
  have hfrom : ∀ (combos : List MatrixValues) (seen : List JsString),
      findDuplicateFrom keyOf seen combos = none ↔
        (combos.map keyOf).Nodup ∧ ∀ c ∈ combos, keyOf c ∉ seen := by
    intro combos
    induction combos with
    | nil => simp [findDuplicateFrom]
    | cons combo combos ih =>
      intro seen
      rw [findDuplicateFrom]
      split
      next hseen => simp [hseen]
      next hnew =>
        rw [ih, map_cons, nodup_cons, forall_mem_cons]
        simp only [mem_cons, not_or, mem_map, not_exists, not_and]
        constructor
        · rintro ⟨hnodup, hlater⟩
          exact ⟨⟨fun c hc => (hlater c hc).1, hnodup⟩, hnew, fun c hc => (hlater c hc).2⟩
        · rintro ⟨⟨hhere, hnodup⟩, -, hlater⟩
          exact ⟨hnodup, fun c hc => ⟨hhere c hc, hlater c hc⟩⟩
  rw [findDuplicateCombination, hfrom]
  simp

/-- The children of a static matrix are those of its combinations, with their places. -/
theorem materializeMatrix_cases (hvalues : lockJob.staticValues = some values)
    (h : rt.materializeMatrix lockJob values = .ok children) :
    (∃ expanded, rt.expandValues lockJob.name values = .ok expanded ∧ rt.combinations lockJob =
      rt.applyIncludeExclude expanded lockJob.included lockJob.excluded) ∧
    ((rt.combinations lockJob).map (formatExpandedJobName lockJob.name)).Nodup ∧
    children = rt.assignFanoutPositions variantLabelOf
      ((rt.combinations lockJob).map (matrixChild lockJob)) := by
  rw [materializeMatrix] at h
  cases hexpand : rt.expandValues lockJob.name values with
  | error err =>
    rw [hexpand] at h
    cases h
  | ok expanded =>
    have hcombos : rt.combinations lockJob =
        rt.applyIncludeExclude expanded lockJob.included lockJob.excluded := by
      rw [combinations, hvalues]
      simp only [hexpand]
    rw [hexpand] at h
    simp only [bind, Except.bind, ← hcombos] at h
    split at h
    · cases h
    · split at h
      · cases h
      · split at h
        · cases h
        next hnone =>
          refine ⟨⟨expanded, rfl, hcombos⟩, findDuplicateCombination_eq_none.1 hnone, ?_⟩
          exact (ok.inj h).symm

theorem expandValues_cases {jobName : JsString} (h : rt.expandValues jobName values = .ok expanded) :
    ∃ matrix, rt.normalizeMatrixInput values = .ok matrix ∧
      expanded = rt.expandMultiDimension matrix.toObject := by
  rw [expandValues] at h
  split at h
  · cases h
  · split at h
    · cases h
    · split at h
      · cases h
      next combos hcombos =>
        obtain rfl := ok.inj h
        exact expandMatrix_cases hcombos

/-! ### The fan-out, job by job -/

variable (rt) in
/-- The children of a job that is accepted. -/
def jobChildren (lockJob : LockJob) : List MaterializedJob :=
  match rt.materializeJob lockJob with
  | .error _ => []
  | .ok children => children

/-- The jobs are accepted one by one, and their children follow on each other. -/
theorem materializeFrom_cases (h : rt.materializeFrom result staticJobs = .ok res) :
    (∀ lockJob ∈ staticJobs, rt.materializeJob lockJob = .ok (rt.jobChildren lockJob)) ∧
    res.jobs = result.jobs ++ staticJobs.flatMap rt.jobChildren ∧
    ∀ key, (∀ lockJob ∈ staticJobs, lockJob.name ≠ key) →
      res.expansionMap.get key = result.expansionMap.get key := by
  induction staticJobs generalizing result with
  | nil =>
    obtain rfl := ok.inj h
    simp
  | cons lockJob staticJobs ih =>
    rw [materializeFrom] at h
    cases hjob : rt.materializeJob lockJob with
    | error err =>
      rw [hjob] at h
      cases h
    | ok children =>
      rw [hjob] at h
      have hchildren : rt.jobChildren lockJob = children := by rw [jobChildren, hjob]
      obtain ⟨haccepted, hjobs, hmap⟩ := ih h
      refine ⟨?_, ?_, fun key hkey => ?_⟩
      · rw [forall_mem_cons]
        exact ⟨hjob.trans (by rw [hchildren]), haccepted⟩
      · rw [hjobs, flatMap_cons, hchildren, append_assoc]
      · rw [forall_mem_cons] at hkey
        rw [hmap key hkey.2, get_set, if_neg hkey.1.symm]

/-- The names of the children are found under the name of the job. -/
theorem get_expansionMap (h : rt.materializeFrom result staticJobs = .ok res)
    (hnames : (staticJobs.map LockJob.name).Nodup) : ∀ lockJob ∈ staticJobs,
    res.expansionMap.get lockJob.name =
      some ((rt.jobChildren lockJob).map expandedName) := by
  induction staticJobs generalizing result with
  | nil => simp
  | cons lockJob staticJobs ih =>
    have hjob := (materializeFrom_cases h).1 lockJob mem_cons_self
    rw [materializeFrom, hjob] at h
    rw [map_cons, nodup_cons] at hnames
    rw [forall_mem_cons]
    refine ⟨?_, ih h hnames.2⟩
    -- No later job has the name.
    have hlater : ∀ lockJob' ∈ staticJobs, lockJob'.name ≠ lockJob.name := fun lockJob' hmem heq =>
      hnames.1 (heq ▸ mem_map_of_mem hmem)
    rw [(materializeFrom_cases h).2.2 _ hlater, get_set, if_pos rfl]

/-- Children have the name of their job. -/
theorem baseName_of_mem (h : rt.materializeJob lockJob = .ok children) :
    ∀ child ∈ children, child.baseName = lockJob.name := by
  have hnames : ∀ names : List JsString, children.map baseName = names →
      (∀ name ∈ names, name = lockJob.name) → ∀ child ∈ children, child.baseName = lockJob.name :=
    fun names hnames hall child hchild => hall _ (hnames ▸ mem_map_of_mem hchild)
  obtain ⟨-, pending, rfl⟩ | ⟨values, hvalues, h⟩ := materializeJob_cases h
  · simp
  · obtain ⟨-, -, rfl⟩ := materializeMatrix_cases hvalues h
    refine hnames _ (map_assignFanoutPositions fun _ _ _ => rfl) ?_
    simp [matrixChild]

/-- The children of a job are found in the fan-out by its name. -/
theorem childrenOf_eq (h : rt.materializeFanout staticJobs = .ok res)
    (hnames : (staticJobs.map LockJob.name).Nodup) (hmem : lockJob ∈ staticJobs) :
    res.childrenOf lockJob = rt.jobChildren lockJob := by
  obtain ⟨haccepted, hjobs, -⟩ := materializeFrom_cases h
  rw [FanoutResult.childrenOf, hjobs, nil_append]
  clear h hjobs
  induction staticJobs with
  | nil => cases hmem
  | cons first staticJobs ih =>
    rw [forall_mem_cons] at haccepted
    rw [map_cons, nodup_cons] at hnames
    rw [flatMap_cons, filter_append]
    rcases mem_cons.1 hmem with rfl | hlater
    · have hown : (rt.jobChildren lockJob).filter (fun child => child.baseName = lockJob.name) =
          rt.jobChildren lockJob :=
        filter_eq_self.2 fun child hchild =>
          decide_eq_true (baseName_of_mem haccepted.1 child hchild)
      have hother : (staticJobs.flatMap rt.jobChildren).filter
          (fun child => child.baseName = lockJob.name) = [] := by
        refine filter_eq_nil_iff.2 fun child hchild hname => hnames.1 ?_
        obtain ⟨other, hother, hchild⟩ := mem_flatMap.1 hchild
        rw [← of_decide_eq_true hname, baseName_of_mem (haccepted.2 other hother) child hchild]
        exact mem_map_of_mem hother
      rw [hown, hother, append_nil]
    · have hother : (rt.jobChildren first).filter (fun child => child.baseName = lockJob.name) =
          [] := by
        refine filter_eq_nil_iff.2 fun child hchild hname => hnames.1 ?_
        rw [← baseName_of_mem haccepted.1 child hchild, of_decide_eq_true hname]
        exact mem_map_of_mem hlater
      rw [hother, nil_append]
      exact ih hnames.2 hlater haccepted.2

/-! ### Names -/

theorem combinations_eq_nil (h : lockJob.staticValues = none) : rt.combinations lockJob = [] := by
  rw [combinations, h]

/-- The names of the children of a job. -/
theorem expandedNames_eq (h : rt.materializeJob lockJob = .ok children) :
    (lockJob.staticValues = none ∧ children.map expandedName = [lockJob.name]) ∨
    ((rt.combinations lockJob).map (formatExpandedJobName lockJob.name)).Nodup ∧
      children.map expandedName =
        (rt.combinations lockJob).map (formatExpandedJobName lockJob.name) := by
  obtain ⟨hplain, pending, rfl⟩ | ⟨values, hvalues, h⟩ := materializeJob_cases h
  · exact .inl ⟨hplain, rfl⟩
  · obtain ⟨-, hnodup, rfl⟩ := materializeMatrix_cases hvalues h
    refine .inr ⟨hnodup, ?_⟩
    rw [map_assignFanoutPositions fun _ _ _ => rfl, map_map]
    rfl

theorem nodup_expandedNames (h : rt.materializeJob lockJob = .ok children) :
    (children.map expandedName).Nodup := by
  obtain ⟨-, hnames⟩ | ⟨hnodup, hnames⟩ := expandedNames_eq h
  · rw [hnames]
    exact nodup_singleton _
  · rwa [hnames]

theorem mem_expandedNames (h : rt.materializeJob lockJob = .ok children) {name : JsString} :
    name ∈ children.map expandedName ↔
      (lockJob.staticValues = none ∧ name = lockJob.name) ∨
        ∃ c ∈ rt.combinations lockJob, name = formatExpandedJobName lockJob.name c := by
  obtain ⟨hplain, pending, rfl⟩ | ⟨values, hvalues, hmatrix⟩ := materializeJob_cases h
  · simp [hplain, combinations_eq_nil hplain]
  · obtain ⟨hplain, -⟩ | ⟨-, hnames⟩ := expandedNames_eq h
    · rw [hvalues] at hplain
      cases hplain
    · simp [hnames, hvalues, eq_comm]

/-- Where children of jobs of different names have the same name, the name of one job goes
on from that of the other. -/
theorem formatExpandedJobName_cases {a b : JsString} {c d : MatrixValues} (hne : a ≠ b)
    (h : formatExpandedJobName a c = formatExpandedJobName b d) :
    (∃ rest, b = a ++ " (" ++ rest ∧ formatMatrixSuffix c = rest ++ " (" ++ formatMatrixSuffix d) ∨
      ∃ rest, a = b ++ " (" ++ rest ∧
        formatMatrixSuffix d = rest ++ " (" ++ formatMatrixSuffix c := by
  have hgoes_on : ∀ {a b rest s t : JsString}, a ≠ b → b = a ++ rest →
      js " (" ++ s = rest ++ (js " (" ++ t) →
        ∃ rest, b = a ++ " (" ++ rest ∧ s = rest ++ " (" ++ t := by
    intro a b rest s t hne hb hs
    have hparen : js " (" = [0x20, 0x28] := rfl
    rw [hparen] at hs ⊢
    match rest with
    | [] => exact absurd (by rw [hb, append_nil]) hne
    | [x] => simp at hs
    | x :: y :: rest =>
      obtain ⟨rfl, rfl, rfl⟩ : 0x20 = x ∧ 0x28 = y ∧ s = rest ++ ([0x20, 0x28] ++ t) := by
        simpa using hs
      exact ⟨rest, by simpa using hb, by simp⟩
  have hcut : a ++ (js " (" ++ formatMatrixSuffix c) = b ++ (js " (" ++ formatMatrixSuffix d) := by
    rw [formatExpandedJobName, formatExpandedJobName] at h
    simpa using append_cancel_right h
  obtain ⟨rest, hb, hs⟩ | ⟨rest, ha, hs⟩ := append_eq_append_iff.1 hcut
  · exact .inl (hgoes_on hne hb hs)
  · exact .inr (hgoes_on hne.symm ha hs)

/-- The name of a child differs from that of its job. -/
theorem ne_append {a rest : JsString} : a ++ " (" ++ rest ≠ a := fun h => by
  have hlength := congrArg length h
  simp [show js " (" = [0x20, 0x28] from rfl] at hlength

/-- The names of the children are different if and only if no name of a job reads as that
of a child of another. -/
theorem nodup_names_iff (h : rt.materializeFanout staticJobs = .ok res)
    (hnames : (staticJobs.map LockJob.name).Nodup) :
    (res.jobs.map expandedName).Nodup ↔ rt.NamesApart staticJobs := by
  obtain ⟨haccepted, hjobs, -⟩ := materializeFrom_cases h
  rw [hjobs, nil_append, map_flatMap, nodup_flatMap]
  constructor
  · rintro ⟨-, hdisjoint⟩
    have hsymm : Std.Symm (Function.onFun List.Disjoint fun lockJob =>
        (rt.jobChildren lockJob).map expandedName) :=
      ⟨fun _ _ hd _ hmem hmem' => hd hmem' hmem⟩
    have hcommon : ∀ j ∈ staticJobs, ∀ k ∈ staticJobs, j.name ≠ k.name → ∀ name,
        name ∈ (rt.jobChildren j).map expandedName →
        name ∉ (rt.jobChildren k).map expandedName := by
      intro j hj k hk hne name hmem hmem'
      have hne' : j ≠ k := fun heq => hne (heq ▸ rfl)
      exact hdisjoint.forall hj hk hne' hmem hmem'
    constructor
    · intro j hj c hc k hk hplain hname
      refine hcommon j hj k hk (fun heq => ?_) k.name ?_ ?_
      · rw [append_assoc, ← heq] at hname
        exact ne_append hname.symm
      · exact (mem_expandedNames (haccepted j hj)).2 (.inr ⟨c, hc, hname⟩)
      · exact (mem_expandedNames (haccepted k hk)).2 (.inl ⟨hplain, rfl⟩)
    · intro j hj c hc k hk rest hname d hd hsuffix
      refine hcommon j hj k hk (fun heq => ?_) (formatExpandedJobName j.name c) ?_ ?_
      · rw [← heq] at hname
        exact ne_append hname.symm
      · exact (mem_expandedNames (haccepted j hj)).2 (.inr ⟨c, hc, rfl⟩)
      · refine (mem_expandedNames (haccepted k hk)).2 (.inr ⟨d, hd, ?_⟩)
        simp [formatExpandedJobName, hname, hsuffix]
  · intro hapart
    refine ⟨fun j hj => nodup_expandedNames (haccepted j hj), ?_⟩
    refine (pairwise_map.1 hnames).imp_of_mem fun {j k} hj hk hne name hmem hmem' => ?_
    rcases (mem_expandedNames (haccepted j hj)).1 hmem with ⟨hplain, rfl⟩ | ⟨c, hc, rfl⟩
    · rcases (mem_expandedNames (haccepted k hk)).1 hmem' with ⟨-, hname⟩ | ⟨d, hd, hname⟩
      · exact hne hname
      · exact hapart.plain k hk d hd j hj hplain hname
    · rcases (mem_expandedNames (haccepted k hk)).1 hmem' with ⟨hplain, hname⟩ | ⟨d, hd, hname⟩
      · exact hapart.plain j hj c hc k hk hplain hname.symm
      · obtain ⟨rest, hrest, hsuffix⟩ | ⟨rest, hrest, hsuffix⟩ :=
          formatExpandedJobName_cases hne hname
        · exact hapart.matrix j hj c hc k hk rest hrest d hd hsuffix
        · exact hapart.matrix k hk d hd j hj rest hrest c hc hsuffix

/-- Names of jobs without ` (` do not read as those of children. -/
theorem namesApart_of_not_infix (h : ∀ lockJob ∈ staticJobs, ¬js " (" <:+: lockJob.name) :
    rt.NamesApart staticJobs := by
  constructor
  · intro j _ c _ k hk _ hname
    refine h k hk ⟨j.name, formatMatrixSuffix c ++ ")", ?_⟩
    rw [hname, append_assoc _ (formatMatrixSuffix c)]
  · intro j _ c _ k hk rest hname
    exact absurd ⟨j.name, rest, hname.symm⟩ (h k hk)

/-! ### Completeness -/

/-- The children of a job have the combinations of its matrix, each of them once. -/
theorem combinations_exact (hvalues : lockJob.staticValues = some values)
    (h : rt.materializeJob lockJob = .ok children) :
    ∃ matrix combos, rt.normalizeMatrixInput values = .ok matrix ∧
      children.map variantValues = combos.map some ∧
      Once combos ∧ ∀ c, (∃ d ∈ combos, d.SameValues c) ↔
        IsCombination matrix.toObject c ∧ ¬Excluded (lockJob.excluded.getD []) c ∨
          Included (lockJob.included.getD []) c := by
  obtain ⟨hplain, -⟩ | ⟨values', hvalues', h⟩ := materializeJob_cases h
  · rw [hvalues] at hplain
    cases hplain
  obtain rfl := Option.some.inj (hvalues'.symm.trans hvalues)
  obtain ⟨⟨expanded, hexpanded, hcombos⟩, hnodup, rfl⟩ := materializeMatrix_cases hvalues h
  obtain ⟨matrix, hmatrix, rfl⟩ := expandValues_cases hexpanded
  refine ⟨matrix, rt.combinations lockJob, hmatrix, ?_, ?_, fun c => ?_⟩
  · rw [map_assignFanoutPositions fun _ _ _ => rfl, map_map]
    rfl
  · have hdifferent := hnodup.of_map
    rw [hcombos] at hdifferent ⊢
    exact once_applyIncludeExclude hdifferent
  · rw [hcombos, exists_applyIncludeExclude, exists_expandMultiDimension]

/-- Several children have the places in their fan-out. -/
theorem positions_exact (h : rt.materializeJob lockJob = .ok children)
    (hlength : 1 < children.length) :
    (children.map fanoutIndex).Perm ((range children.length).map some) ∧
      ∀ child ∈ children, child.fanoutTotal = some children.length := by
  obtain ⟨-, pending, rfl⟩ | ⟨values, hvalues, h⟩ := materializeJob_cases h
  · simp at hlength
  · obtain ⟨-, -, rfl⟩ := materializeMatrix_cases hvalues h
    have hcount : ∀ children : List MaterializedJob,
        (rt.assignFanoutPositions variantLabelOf children).length = children.length := by
      intro children
      have hsame : (rt.assignFanoutPositions variantLabelOf children).map (fun _ => ()) =
          children.map fun _ => () := map_assignFanoutPositions fun _ _ _ => rfl
      simpa using congrArg length hsame
    rw [hcount] at hlength ⊢
    exact ⟨perm_assignFanoutPositions hlength, fanoutTotal_assignFanoutPositions hlength⟩

/-- A fan-out of jobs of different names is complete, with different names if and only if
no name of a job reads as that of a child of another. -/
theorem fanoutComplete_iff (h : rt.materializeFanout staticJobs = .ok res)
    (hnames : (staticJobs.map LockJob.name).Nodup) :
    FanoutComplete rt staticJobs res ↔ rt.NamesApart staticJobs := by
  rw [← nodup_names_iff h hnames]
  refine ⟨FanoutComplete.names, fun hnodup => ?_⟩
  have haccepted := (materializeFrom_cases h).1
  refine ⟨hnodup, fun lockJob hmem => ?_, fun lockJob hmem values hvalues => ?_,
    fun lockJob hmem hlength => ?_⟩
  · rw [childrenOf_eq h hnames hmem]
    exact get_expansionMap h hnames lockJob hmem
  · rw [childrenOf_eq h hnames hmem]
    exact combinations_exact hvalues (haccepted lockJob hmem)
  · rw [childrenOf_eq h hnames hmem] at hlength ⊢
    exact positions_exact (haccepted lockJob hmem) hlength

end FanoutRuntime

/-! ### Names that collide -/

/-- The runtime, on strings of lowercase letters. -/
def lowercaseFanoutRuntime : FanoutRuntime where
  stringify
    | .str s => "\"" ++ s ++ "\""
    | _ => "null"
  toStr
    | .bool true => "true"
    | .bool false => "false"
    | _ => "null"
  localeLe a b := a ≤ b

/-- A job that runs once on each of the systems. -/
def systemsJob (name : JsString) (systems : List JsString) : LockJob where
  name
  matrix := some (.static (some (.arr (systems.map .str))))

/-- A job next to one with a matrix. -/
theorem fanoutComplete_pair : ∃ res, lowercaseFanoutRuntime.materializeFanout
      [{ name := "lint" }, systemsJob "test" ["linux", "macos"]] = .ok res ∧
    FanoutComplete lowercaseFanoutRuntime
      [{ name := "lint" }, systemsJob "test" ["linux", "macos"]] res := by
  refine ⟨_, rfl, (FanoutRuntime.fanoutComplete_iff rfl (by decide)).2 ?_⟩
  exact FanoutRuntime.namesApart_of_not_infix (by decide)

/-- A job is named as the child of another. -/
theorem exists_names_collide : ∃ staticJobs res,
    (staticJobs.map LockJob.name).Nodup ∧
    lowercaseFanoutRuntime.materializeFanout staticJobs = .ok res ∧
    ¬FanoutComplete lowercaseFanoutRuntime staticJobs res := by
  refine ⟨[systemsJob "build" ["linux"], { name := "build (linux)" }], _, by decide, rfl, ?_⟩
  intro h
  exact absurd h.names (by decide)

end

/-!
## The names of a host fan-out

A job that runs on all hosts gets a child for each agent, which is pinned to the agent but named
after its host (`hostChild`). What other jobs need of it is looked up by that name. The fan-out of a
matrix refuses two children of one name; that of hosts does not look, and so its names differ if and
only if the agents are on different hosts (`hostNamesUnique_iff`). Two agents on one host share a
name (`exists_host_name_shared`).
-/

section

open JsObject

namespace FanoutRuntime

variable {rt : FanoutRuntime} {lockJob : LockJob} {agents : List ResolvedHostAgent} {maxHosts : ℕ}
  {result : FanoutResult}

/-- The children of a job on its hosts, unless there is no host or too many. -/
theorem materializeResolvedHosts_cases
    (h : rt.materializeResolvedHosts lockJob agents maxHosts = .ok result) :
    agents ≠ [] ∧ agents.length ≤ maxHosts ∧
      result.jobs = rt.assignFanoutPositions (fun child => child.pinnedAgentId.getD [])
      (agents.map (hostChild lockJob))
      ∧ result.expansionMap = JsObject.empty.set lockJob.name (result.jobs.map expandedName) := by
  rw [materializeResolvedHosts] at h
  split at h
  · cases h
  · rename_i hlength
    split at h
    · cases h
    · rename_i hcap
      obtain rfl := ok.inj h
      exact ⟨fun hnil => hlength (by simp [hnil]), not_lt.1 hcap, rfl, rfl⟩

/-- A list of agents that is neither empty nor too long is accepted. -/
theorem exists_materializeResolvedHosts (rt : FanoutRuntime) (lockJob : LockJob) (hne : agents ≠ [])
    (hcap : agents.length ≤ maxHosts) : ∃ result,
    rt.materializeResolvedHosts lockJob agents maxHosts = .ok result := by
  have hlength : ¬agents.length = 0 := fun h => hne (length_eq_zero_iff.1 h)
  exact ⟨_, by rw [materializeResolvedHosts, if_neg hlength, if_neg hcap.not_gt]; rfl⟩

/-- The children are named after the hosts, in the order of the agents. -/
theorem expandedNames_of_hosts (h : rt.materializeResolvedHosts lockJob agents maxHosts = .ok result) :
    result.jobs.map expandedName =
      agents.map fun agent => lockJob.name ++ " (" ++ agent.host ++ ")" := by
  obtain ⟨-, -, hjobs, -⟩ := materializeResolvedHosts_cases h
  rw [hjobs, map_assignFanoutPositions fun _ _ _ => rfl, map_map]
  rfl

/-- A name tells the host. -/
theorem hostName_injective (name : JsString) :
    Function.Injective fun host : JsString => name ++ " (" ++ host ++ ")" := by
  intro host host' h
  exact append_cancel_left (append_cancel_right h)

/-- The children of an accepted fan-out have different names if and only if the agents are on
different hosts. -/
theorem nodup_hostNames_iff (h : rt.materializeResolvedHosts lockJob agents maxHosts = .ok result) :
    (result.jobs.map expandedName).Nodup ↔ (agents.map ResolvedHostAgent.host).Nodup := by
  have hnames : (agents.map fun agent => lockJob.name ++ " (" ++ agent.host ++ ")") =
      (agents.map ResolvedHostAgent.host).map fun host => lockJob.name ++ " (" ++ host ++ ")" := by
    rw [map_map]
    rfl
  rw [expandedNames_of_hosts h, hnames]
  exact nodup_map_iff (hostName_injective lockJob.name)

/-- A fan-out over hosts is refused or names its children differently, if and only if the agents are
on different hosts. -/
theorem hostNamesUnique_iff (rt : FanoutRuntime) (lockJob : LockJob) (agents : List ResolvedHostAgent)
    (maxHosts : ℕ)
    (hne : agents ≠ []) (hids : (agents.map agentId).Nodup) (hcap : agents.length ≤ maxHosts) :
    (∀ result, rt.materializeResolvedHosts lockJob agents maxHosts = .ok result →
      (result.jobs.map expandedName).Nodup) ↔ (agents.map ResolvedHostAgent.host).Nodup := by
  obtain ⟨result, hresult⟩ := exists_materializeResolvedHosts rt lockJob hne hcap
  exact ⟨fun h => (nodup_hostNames_iff hresult).1 (h result hresult), fun h _ hok =>
    (nodup_hostNames_iff hok).2 h⟩

end FanoutRuntime

/-- Two agents on the host `runner`. -/
def runnerAgents : List ResolvedHostAgent :=
  [{ agentId := "a", host := "runner" }, { agentId := "b", host := "runner" }]

/-- Agents on hosts of their own get names of their own. -/
theorem hostNamesUnique_pair :
    (∀ result, lowercaseFanoutRuntime.materializeResolvedHosts { name := "deploy" }
        [{ agentId := "a", host := "runner" }, { agentId := "b", host := "b" }] 1024 = .ok result →
      (result.jobs.map expandedName).Nodup) ↔
    ([{ agentId := "a", host := "runner" }, { agentId := "b", host := "b" }].map
      ResolvedHostAgent.host).Nodup :=
  FanoutRuntime.hostNamesUnique_iff lowercaseFanoutRuntime { name := "deploy" }
    [{ agentId := "a", host := "runner" }, { agentId := "b", host := "b" }] 1024 (by simp)
      (by decide) (by simp)

/-- Agents on one host share a name, and so do an agent without a host name and the host that is
named as its id. -/
theorem exists_host_name_shared :
    (∃ result, lowercaseFanoutRuntime.materializeResolvedHosts { name := "deploy" }
      runnerAgents 1024 = .ok result ∧ (runnerAgents.map agentId).Nodup ∧
      ¬(result.jobs.map expandedName).Nodup) ∧
    ∃ result, lowercaseFanoutRuntime.materializeResolvedHosts { name := "deploy" }
        [{ agentId := "a", host := "a" }, { agentId := "b", host := "a" }] 1024 = .ok result ∧
      ¬(result.jobs.map expandedName).Nodup := by
  refine ⟨⟨_, rfl, by decide, by decide⟩, ⟨_, rfl, by decide⟩⟩

end

end Kici
