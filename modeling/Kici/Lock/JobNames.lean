import Kici.Foundation.Except
import Kici.Lock.Validator
import Mathlib.Data.List.Nodup

/-!
# The names of jobs

A job that the author gives no name has a random id for its name, a fresh one whenever its module is
evaluated (`WorkflowSource.evaluate`). The compiler numbers these jobs (`transformJobs`), and an
agent looks for the steps of a job by the name in the lock (`extractSteps`).

What another job needs always has, in the lock, the name of the job that it refers to
(`names_needs`). But names are distinct, and the agent finds the steps of every static job, if and
only if the author names every job, and none like an id (`namesIdentify_iff`): a job without a name
is not found under its number, or another job is (`exists_job_not_found`).
-/

namespace Kici.Lock

open List Option JobOrFactory Function

variable {lockJob : LockJob}

/-! ## What is written -/

/-- The name of a job where another refers to it: as text, or as that of the object. -/
inductive NameSource
  | text (name : JsString)
  | nameOf (ref : ℕ)

inductive NeedSource
  | name (source : NameSource)
  | job (ref : ℕ)
  | groupRef (group : JsString) (when? : Option NeedsWhenInput)
  | entry (source : NameSource) (when? : Option NeedsWhenInput)
  | groupEntry (group : JsString) (when? : Option NeedsWhenInput)

/-- A call of `job`, with a name or without; the name and the needs of its options are not used. -/
structure JobSource where
  name? : Option JsString := none
  needs : Option (List NeedSource) := none
  options : Job

structure DynamicJobSource where
  group : Option JsString := none
  needs : Option (List NeedSource) := none
  gitCredentials : Option Json := none

/-- A job object, or a function. -/
inductive EntrySource
  | static (ref : ℕ)
  | dynamic (fn : DynamicJobSource)

/-- What a module says of a workflow: the calls of `job` that its job objects come from, and its
entries. -/
structure WorkflowSource where
  name : JsString
  objects : ℕ → JobSource
  entries : List EntrySource

/-! ## Evaluation -/

namespace WorkflowSource

variable (source : WorkflowSource) (ids : ℕ → JsString)

/-- `job`: the name that is given, or a random id. -/
def jobName (ref : ℕ) : JsString := (source.objects ref).name?.getD (ids ref)

def evaluateName : NameSource → JsString
  | .text name => name
  | .nameOf ref => source.jobName ids ref

def evaluateNeed : NeedSource → Need
  | .name name => .text (source.evaluateName ids name)
  | .job ref => .job (source.jobName ids ref)
  | .groupRef group when? => .groupRef group when?
  | .entry name when? => .entry (source.evaluateName ids name) when?
  | .groupEntry group when? => .groupEntry group when?

def job (ref : ℕ) : Job :=
  { (source.objects ref).options with
    name := source.jobName ids ref
    needs := (source.objects ref).needs.map (·.map (source.evaluateNeed ids)) }

def evaluateEntry : EntrySource → JobOrFactory
  | .static ref => .static (source.job ids ref)
  | .dynamic fn => .dynamic {
    group := fn.group
    needs := fn.needs.map (·.map (source.evaluateNeed ids))
    gitCredentials := fn.gitCredentials }

def evaluate : Workflow := ⟨source.name, source.entries.map (source.evaluateEntry ids)⟩

end WorkflowSource

/-! ## The compiler -/

def isHexDigit (c : UInt16) : Bool :=
  (0x30 ≤ c && c ≤ 0x39) || (0x41 ≤ c && c ≤ 0x46) || (0x61 ≤ c && c ≤ 0x66)

def isDash (c : UInt16) : Bool := c = 0x2D

/-- The characters of a text, one by one. -/
def matchesEach : List (UInt16 → Bool) → JsString → Bool
  | [], [] => true
  | p :: ps, c :: text => p c && matchesEach ps text
  | [], _ :: _ | _ :: _, [] => false

/-- Whether the text is a UUID. -/
def UUID_PATTERN (text : JsString) : Bool :=
  matchesEach (replicate 8 isHexDigit ++ isDash :: replicate 4 isHexDigit ++ isDash ::
    replicate 4 isHexDigit ++ isDash :: replicate 4 isHexDigit ++ isDash :: replicate 12 isHexDigit) text

def countedName (n : ℕ) : JsString := js "job-" ++ js (toString n)

structure LockDynamicJobFn where
  file : JsString
  index : ℕ
  group : Option JsString := none
  needs : Option (List LockNeed) := none
  resultAware : Option Bool := none
  gitCredentials : Option Json := none

inductive LockJobOrFactory
  | static (job : LockJob)
  | dynamic (fn : LockDynamicJobFn)

def LockJobOrFactory.needs : LockJobOrFactory → List LockNeed
  | static job => job.needs
  | dynamic fn => fn.needs.getD []

/-- The first pass: the numbers of the jobs without a name. -/
def uuidToNameFrom (counter : ℕ) (names : JsString → Option JsString) : List JobOrFactory → JsString →
    Option JsString
  | [] => names
  | .dynamic _ :: jobs => uuidToNameFrom counter names jobs
  | .static job :: jobs =>
    if UUID_PATTERN job.name then
      uuidToNameFrom (counter + 1) (update names job.name (some (countedName (counter + 1)))) jobs
    else uuidToNameFrom counter names jobs

def transformDynamicJobFn (configPath : JsString) (index : ℕ) (uuidToName : JsString → Option JsString)
    (fn : DynamicJobFn) : LockDynamicJobFn :=
  { file := configPath
    index
    group := fn.group.filter (· ≠ [])
    needs := fn.needs.map fun needs => (resolveNeedsForLock uuidToName (some needs)).1
    resultAware := fn.needs.map fun _ => true
    gitCredentials := fn.gitCredentials }

section
variable (host : CompilerHost) (labels : LabelHost) (objects : StepObjects) (configPath : JsString)

/-- The second pass. -/
def transformJobsFrom (uuidToName : JsString → Option JsString) (counter index : ℕ) :
    List JobOrFactory → Except CompilerError (List LockJobOrFactory)
  | [] => .ok []
  | .dynamic fn :: jobs => do
    let entries ← transformJobsFrom uuidToName counter (index + 1) jobs
    .ok (.dynamic (transformDynamicJobFn configPath index uuidToName fn) :: entries)
  | .static job :: jobs => do
    let counter' := if UUID_PATTERN job.name then counter + 1 else counter
    let name := if UUID_PATTERN job.name then countedName (counter + 1) else job.name
    let lockJob ← transformJob host labels objects configPath index uuidToName { job with name }
    let entries ← transformJobsFrom uuidToName counter' (index + 1) jobs
    .ok (.static lockJob :: entries)

def transformJobs (jobs : List JobOrFactory) : Except CompilerError (List LockJobOrFactory) :=
  transformJobsFrom host labels objects configPath (uuidToNameFrom 0 (fun _ => none) jobs) 0 0 jobs

end

/-! ## The agent -/

/-- The steps of the first static job of a name. -/
def extractSteps (workflow : Workflow) (jobName : JsString) : Except JsString (List StepInput) :=
  match workflow.staticJobs.find? (·.name = jobName) with
  | some job => .ok job.steps
  | none => .error (js "Static job '" ++ jobName ++ js "' not found in workflow '" ++
    workflow.name ++ js "'")

/-! ## What names identify -/

def NeedSource.group? : NeedSource → Option JsString
  | groupRef group _ | groupEntry group _ => some group
  | name _ | job _ | entry _ _ => none

def LockNeed.name? : LockNeed → Option JsString
  | name target | entry target _ => some target
  | group _ _ => none

/-- The name that the author gave the job, or that of its object. -/
def NameSource.RefersTo (objects : ℕ → JobSource) (ref : ℕ) : NameSource → Prop
  | text target => (objects ref).name? = some target
  | nameOf ref' => ref' = ref

def NeedSource.RefersTo (objects : ℕ → JobSource) (ref : ℕ) : NeedSource → Prop
  | name source | entry source _ => source.RefersTo objects ref
  | job ref' => ref' = ref
  | groupRef _ _ | groupEntry _ _ => False

def EntrySource.needs (objects : ℕ → JobSource) : EntrySource → List NeedSource
  | static ref => (objects ref).needs.getD []
  | dynamic fn => fn.needs.getD []

/-- Static jobs have distinct names in the lock, their needs have the names of the jobs they refer
to, and an agent that evaluates the module with other ids finds the steps of every static job under
its name. -/
structure NamesIdentify (source : WorkflowSource) (ids' : ℕ → JsString)
    (lock : List LockJobOrFactory) : Prop where
  distinct : ∀ (p q : ℕ) job job', lock[p]? = some (.static job) → lock[q]? = some (.static job') →
    job.name = job'.name → p = q
  needs : ∀ (i : ℕ) entry lockEntry (k : ℕ) lockNeed, source.entries[i]? = some entry →
    lock[i]? = some lockEntry →
    lockEntry.needs[k]? = some lockNeed → ∃ need, (entry.needs source.objects)[k]? = some need ∧
      lockNeed.group? = need.group? ∧
      ∀ (p : ℕ) ref job, source.entries[p]? = some (.static ref) → lock[p]? = some (.static job) →
        need.RefersTo source.objects ref → lockNeed.name? = some job.name
  steps : ∀ (p : ℕ) ref job, source.entries[p]? = some (.static ref) → lock[p]? = some (.static job) →
    extractSteps (source.evaluate ids') job.name = .ok (source.job ids' ref).steps

/-! ### The names in the lock -/

def JobOrFactory.needs : JobOrFactory → Option (List Need)
  | static job => job.needs
  | dynamic fn => fn.needs

def LockJobOrFactory.name? : LockJobOrFactory → Option JsString
  | static job => some job.name
  | dynamic _ => none

/-- The names of the entries that are written. -/
def lockNames (counter : ℕ) : List JobOrFactory → List (Option JsString)
  | [] => []
  | .dynamic _ :: jobs => none :: lockNames counter jobs
  | .static job :: jobs =>
    if UUID_PATTERN job.name then some (countedName (counter + 1)) :: lockNames (counter + 1) jobs
    else some job.name :: lockNames counter jobs

variable {host : CompilerHost} {labels : LabelHost} {objects : StepObjects} {configPath : JsString}
  {uuidToName names : JsString → Option JsString} {counter index p : ℕ} {jobs : List JobOrFactory}
    {job : Job}
  {lock : List LockJobOrFactory}

theorem transformJob_ok
    (h : transformJob host labels objects configPath index uuidToName job = .ok lockJob) :
    lockJob.name = job.name ∧ lockJob.needs = (resolveNeedsForLock uuidToName job.needs).1 := by
  obtain ⟨-, -, h⟩ := bind_eq_ok h
  obtain ⟨-, -, h⟩ := bind_eq_ok h
  obtain ⟨runsOn, -, h⟩ := bind_eq_ok h
  obtain ⟨runsOnAll, -, h⟩ := bind_eq_ok h
  obtain ⟨steps, -, h⟩ := bind_eq_ok h
  obtain ⟨approval, -, h⟩ := bind_eq_ok h
  cases h
  exact ⟨rfl, rfl⟩

theorem transformJobsFrom_ok
    (h : transformJobsFrom host labels objects configPath uuidToName counter index jobs = .ok lock) :
    lock.map (·.name?) = lockNames counter jobs ∧
      lock.map (·.needs) = jobs.map fun entry => (resolveNeedsForLock uuidToName entry.needs).1 := by
  induction jobs generalizing counter index lock with
  | nil =>
    cases h
    exact ⟨rfl, rfl⟩
  | cons entry jobs ih =>
    cases entry with
    | dynamic fn =>
      obtain ⟨entries, hentries, h⟩ := bind_eq_ok h
      cases h
      obtain ⟨hnames, hneeds⟩ := ih hentries
      refine ⟨congrArg (none :: ·) hnames, ?_⟩
      rw [map_cons, map_cons, hneeds]
      cases hfn : fn.needs with
      | none => simp [LockJobOrFactory.needs, transformDynamicJobFn, JobOrFactory.needs, hfn,
        resolveNeedsForLock]
      | some needs => simp [LockJobOrFactory.needs, transformDynamicJobFn, JobOrFactory.needs, hfn]
    | static job =>
      obtain ⟨lockJob, hjob, h⟩ := bind_eq_ok h
      obtain ⟨entries, hentries, h⟩ := bind_eq_ok h
      cases h
      obtain ⟨hnames, hneeds⟩ := ih hentries
      obtain ⟨hname, hjobNeeds⟩ := transformJob_ok hjob
      rw [map_cons, map_cons, map_cons, hnames, hneeds, lockNames, LockJobOrFactory.name?, hname]
      refine ⟨?_, congrArg (· :: _) hjobNeeds⟩
      split <;> rfl

/-- A job with a name keeps it. -/
theorem lockNames_of_named (hget : jobs[p]? = some (.static job)) (h : UUID_PATTERN job.name = false) :
    (lockNames counter jobs)[p]? = some (some job.name) := by
  induction jobs generalizing counter p with
  | nil => cases hget
  | cons entry jobs ih =>
    cases p with
    | zero =>
      cases hget
      rw [lockNames, if_neg (by rw [h]; decide)]
      rfl
    | succ p =>
      cases entry with
      | dynamic fn => exact ih hget
      | static job' =>
        rw [lockNames]
        split <;> exact ih hget

/-- One without gets a number. -/
theorem lockNames_of_uuid (hget : jobs[p]? = some (.static job)) (h : UUID_PATTERN job.name) :
    ∃ k, (lockNames counter jobs)[p]? = some (some (countedName k)) := by
  induction jobs generalizing counter p with
  | nil => cases hget
  | cons entry jobs ih =>
    cases p with
    | zero =>
      cases hget
      rw [lockNames, if_pos h]
      exact ⟨_, rfl⟩
    | succ p =>
      cases entry with
      | dynamic fn => exact ih hget
      | static job' =>
        rw [lockNames]
        split <;> exact ih hget

/-! ### Needs -/

theorem uuidToNameFrom_of_not_mem {name : JsString} (h : name ∉ (jobs.filterMap (·.job?)).map (·.name)) :
    uuidToNameFrom counter names jobs name = names name := by
  induction jobs generalizing counter names with
  | nil => rfl
  | cons entry jobs ih =>
    cases entry with
    | dynamic fn => exact ih h
    | static job =>
      have hcons : name ∉ job.name :: (jobs.filterMap (·.job?)).map (·.name) := h
      obtain ⟨hne, hrest⟩ := not_or.1 (mt mem_cons.2 hcons)
      rw [uuidToNameFrom]
      split
      · rw [ih hrest, update_of_ne hne]
      · exact ih hrest

/-- The map takes the name of a job to its name in the lock. -/
theorem uuidToNameFrom_name {lockName : JsString}
    (hnodup : ((jobs.filterMap (·.job?)).map (·.name)).Nodup)
    (hnames : ∀ name ∈ (jobs.filterMap (·.job?)).map (·.name), names name = none)
    (hget : jobs[p]? = some (.static job))
    (hlock : (lockNames counter jobs)[p]? = some (some lockName)) :
    (uuidToNameFrom counter names jobs job.name).getD job.name = lockName := by
  induction jobs generalizing counter names p with
  | nil => cases hget
  | cons entry jobs ih =>
    cases entry with
    | dynamic fn =>
      cases p with
      | zero => cases hget
      | succ p => exact ih hnodup hnames hget hlock
    | static job' =>
      have hcons : ((static job' :: jobs).filterMap (·.job?)).map (·.name) =
        job'.name :: (jobs.filterMap (·.job?)).map (·.name) := rfl
      rw [hcons] at hnodup hnames
      obtain ⟨hnew, hnodup⟩ := nodup_cons.1 hnodup
      obtain ⟨hnone, hnames⟩ := forall_mem_cons.1 hnames
      rw [uuidToNameFrom]
      rw [lockNames] at hlock
      cases p with
      | zero =>
        cases hget
        split at hlock
        · cases hlock
          rw [if_pos ‹_›, uuidToNameFrom_of_not_mem hnew, update_self]
          rfl
        · cases hlock
          rw [if_neg ‹_›, uuidToNameFrom_of_not_mem hnew, hnone]
          rfl
      | succ p =>
        split at hlock
        · rw [if_pos ‹_›]
          refine ih hnodup (fun name hmem => ?_) hget hlock
          -- The number of this job is under another name.
          have hne : name ≠ job'.name := fun heq => hnew (heq ▸ hmem)
          rw [update_of_ne hne]
          exact hnames name hmem
        · rw [if_neg ‹_›]
          exact ih hnodup hnames hget hlock

variable {source : WorkflowSource} {ids ids' : ℕ → JsString}

open WorkflowSource

/-- A need that refers to a job has the name that the map gives for it. -/
theorem name_resolveNeedForLock {need : NeedSource} {ref : ℕ} (h : need.RefersTo source.objects ref) :
    (resolveNeedForLock uuidToName (source.evaluateNeed ids need)).name? =
      some ((uuidToName (source.jobName ids ref)).getD (source.jobName ids ref)) := by
  have hname : ∀ name : NameSource, name.RefersTo source.objects ref →
      source.evaluateName ids name = source.jobName ids ref := by
    intro name h
    cases name with
    | text target =>
      have hsome : (source.objects ref).name? = some target := h
      rw [jobName, hsome]
      rfl
    | nameOf ref' =>
      have heq : ref' = ref := h
      rw [heq]
      rfl
  cases need with
  | name name =>
    rw [← hname name h]
    rfl
  | entry name when? =>
    rw [← hname name h]
    rfl
  | job ref' =>
    have heq : ref' = ref := h
    rw [heq]
    rfl
  | groupRef | groupEntry => exact absurd h id

theorem group_resolveNeedForLock (need : NeedSource) :
    (resolveNeedForLock uuidToName (source.evaluateNeed ids need)).group? = need.group? := by
  cases need <;> rfl

theorem getElem?_evaluate {entry : EntrySource} (h : source.entries[p]? = some entry) :
    (source.evaluate ids).jobs[p]? = some (source.evaluateEntry ids entry) := by
  rw [evaluate, getElem?_map, h]
  rfl

theorem lockNames_of_static
    (h : transformJobs host labels objects configPath jobs = .ok lock)
    (hget : lock[p]? = some (.static lockJob)) :
    (lockNames 0 jobs)[p]? = some (some lockJob.name) := by
  rw [← (transformJobsFrom_ok h).1, getElem?_map, hget]
  rfl

variable {lockEntry : LockJobOrFactory}

/-- The needs of an entry that is written. -/
theorem needs_of_entry {entry : EntrySource} {i : ℕ}
    (h : transformJobs host labels objects configPath (source.evaluate ids).jobs = .ok lock)
    (hentry : source.entries[i]? = some entry) (hget : lock[i]? = some lockEntry) :
    lockEntry.needs = (entry.needs source.objects).map fun need => resolveNeedForLock
      (uuidToNameFrom 0 (fun _ => none) (source.evaluate ids).jobs) (source.evaluateNeed ids need) := by
  have hneeds := congrArg (·[i]?) (transformJobsFrom_ok h).2
  rw [getElem?_map, getElem?_map, hget, getElem?_evaluate hentry, map_some, map_some,
    some.injEq] at hneeds
  rw [hneeds, resolveNeedsForLock]
  cases entry with
  | static ref =>
    rw [EntrySource.needs, evaluateEntry, needs, job]
    cases (source.objects ref).needs with
    | none => rfl
    | some needs => exact map_map
  | dynamic fn =>
    rw [EntrySource.needs, evaluateEntry, needs]
    cases fn.needs with
    | none => rfl
    | some needs => exact map_map

/-- Where static jobs have distinct names, what an entry needs has the name in the lock of the job
it refers to. -/
theorem names_needs (hnodup : ((source.evaluate ids).staticJobs.map (·.name)).Nodup)
    (h : transformJobs host labels objects configPath (source.evaluate ids).jobs = .ok lock) {i k : ℕ}
    {entry : EntrySource} {lockNeed : LockNeed}
    (hentry : source.entries[i]? = some entry) (hget : lock[i]? = some lockEntry)
    (hneed : lockEntry.needs[k]? = some lockNeed) :
    ∃ need, (entry.needs source.objects)[k]? = some need ∧ lockNeed.group? = need.group? ∧
      ∀ (p : ℕ) ref job, source.entries[p]? = some (.static ref) → lock[p]? = some (.static job) →
        need.RefersTo source.objects ref → lockNeed.name? = some job.name := by
  rw [needs_of_entry h hentry hget, getElem?_map] at hneed
  obtain ⟨need, hsource, rfl⟩ := map_eq_some_iff.1 hneed
  refine ⟨need, hsource, group_resolveNeedForLock need, fun p ref job hstatic hlock hrefers => ?_⟩
  have hname := uuidToNameFrom_name hnodup (fun _ _ => rfl) (getElem?_evaluate hstatic)
    (lockNames_of_static h hlock)
  rw [name_resolveNeedForLock hrefers]
  exact congrArg some hname

/-! ### Steps -/

/-- Where static jobs have distinct names, the agent finds the steps of each. -/
theorem extractSteps_of_nodup {workflow : Workflow} (hnodup : (workflow.staticJobs.map (·.name)).Nodup)
    (hmem : job ∈ workflow.staticJobs) : extractSteps workflow job.name = .ok job.steps := by
  have hfind : workflow.staticJobs.find? (·.name = job.name) = some job := by
    have hsome : (workflow.staticJobs.find? (·.name = job.name)).isSome :=
      find?_isSome.2 ⟨job, hmem, by simp⟩
    obtain ⟨job', hfound⟩ := isSome_iff_exists.1 hsome
    have hname : job'.name = job.name := by simpa using find?_some hfound
    rw [hfound, inj_on_of_nodup_map hnodup (mem_of_find?_eq_some hfound) hmem hname]
  rw [extractSteps, hfind]

/-- The agent finds steps only under the name of a static job. -/
theorem exists_of_extractSteps {workflow : Workflow} {jobName : JsString} {steps : List StepInput}
    (h : extractSteps workflow jobName = .ok steps) : ∃ job ∈ workflow.staticJobs,
    job.name = jobName := by
  rw [extractSteps] at h
  split at h
  next job hfound =>
    have hname : job.name = jobName := by simpa using find?_some hfound
    exact ⟨job, mem_of_find?_eq_some hfound, hname⟩
  next => cases h

theorem mem_staticJobs_evaluate : job ∈ (source.evaluate ids).staticJobs ↔
    ∃ ref, .static ref ∈ source.entries ∧ source.job ids ref = job := by
  rw [Workflow.staticJobs, mem_filterMap]
  refine ⟨fun ⟨entry, hentry, hjob⟩ => ?_, fun ⟨ref, hmem, heq⟩ => ?_⟩
  · obtain ⟨entrySource, hmem, rfl⟩ := mem_map.1 hentry
    cases entrySource with
    | static ref => exact ⟨ref, hmem, some.inj hjob⟩
    | dynamic fn => cases hjob
  · exact ⟨.static job, mem_map.2 ⟨.static ref, hmem, congrArg static heq⟩, rfl⟩

/-! ### The result -/

/-- The author names every static job, and none like an id. -/
def WorkflowSource.Named (source : WorkflowSource) : Prop :=
  ∀ ref, .static ref ∈ source.entries → ∃ name, (source.objects ref).name? = some name ∧
    UUID_PATTERN name = false

theorem WorkflowSource.Named.jobName_eq {ref : ℕ} (h : source.Named) (ids ids' : ℕ → JsString)
    (hmem : .static ref ∈ source.entries) :
    source.jobName ids ref = source.jobName ids' ref ∧
    UUID_PATTERN (source.jobName ids ref) = false := by
  obtain ⟨name, hsome, hname⟩ := h ref hmem
  rw [jobName, jobName, hsome]
  exact ⟨rfl, hname⟩

/-- The static jobs of a module that names them have the same names whenever it is evaluated. -/
theorem WorkflowSource.Named.names_eq (h : source.Named) (ids ids' : ℕ → JsString) :
    (source.evaluate ids').staticJobs.map (·.name) = (source.evaluate ids).staticJobs.map (·.name) := by
  rw [Workflow.staticJobs, Workflow.staticJobs, evaluate, evaluate, filterMap_map,
    filterMap_map, map_filterMap, map_filterMap]
  refine filterMap_congr fun entry hmem => ?_
  cases entry with
  | dynamic fn => rfl
  | static ref => exact congrArg some (h.jobName_eq _ _ hmem).1

theorem not_uuid_countedName (k : ℕ) : UUID_PATTERN (countedName k) = false := by
  have hjob : js "job-" = 0x6A :: js "ob-" := by decide
  rw [countedName, hjob]
  rfl

theorem eq_of_nodup_names {q : ℕ} {job' : Job} (hnodup : ((jobs.filterMap (·.job?)).map (·.name)).Nodup)
    (hp : jobs[p]? = some (.static job)) (hq : jobs[q]? = some (.static job'))
    (heq : job.name = job'.name) : p = q := by
  induction jobs generalizing p q with
  | nil => cases hp
  | cons entry jobs ih =>
    have hmem : ∀ {i : ℕ} {job : Job}, jobs[i]? = some (.static job) →
        job.name ∈ (jobs.filterMap (·.job?)).map (·.name) := fun hget =>
      mem_map_of_mem (mem_filterMap.2 ⟨_, mem_of_getElem? hget, rfl⟩)
    cases entry with
    | dynamic fn =>
      cases p with
      | zero => cases hp
      | succ p =>
        cases q with
        | zero => cases hq
        | succ q => rw [ih hnodup hp hq]
    | static first =>
      have hcons : ((static first :: jobs).filterMap (·.job?)).map (·.name) =
        first.name :: (jobs.filterMap (·.job?)).map (·.name) := rfl
      rw [hcons] at hnodup
      obtain ⟨hnew, hnodup⟩ := nodup_cons.1 hnodup
      cases p with
      | zero =>
        cases hp
        cases q with
        | zero => rfl
        | succ q => exact absurd (heq ▸ hmem hq) hnew
      | succ p =>
        cases q with
        | zero =>
          cases hq
          exact absurd (heq ▸ hmem hp) hnew
        | succ q => rw [ih hnodup hp hq]

/-- A name is that of a static job. -/
theorem exists_static {name : JsString} (h : (lockNames counter jobs)[p]? = some (some name)) :
    ∃ job, jobs[p]? = some (.static job) := by
  induction jobs generalizing counter p with
  | nil => cases h
  | cons entry jobs ih =>
    cases entry with
    | dynamic fn =>
      cases p with
      | zero => cases h
      | succ p => exact ih h
    | static job =>
      cases p with
      | zero => exact ⟨job, rfl⟩
      | succ p =>
        rw [lockNames] at h
        split at h <;> exact ih h

/-- A static job of the lock was one of the module. -/
theorem exists_ref
    (h : transformJobs host labels objects configPath (source.evaluate ids).jobs = .ok lock)
    (hget : lock[p]? = some (.static lockJob)) : ∃ ref, source.entries[p]? = some (.static ref) := by
  obtain ⟨job, hjob⟩ := exists_static (lockNames_of_static h hget)
  rw [evaluate, getElem?_map] at hjob
  obtain ⟨entry, hentry, heq⟩ := map_eq_some_iff.1 hjob
  cases entry with
  | static ref => exact ⟨ref, hentry⟩
  | dynamic fn => cases heq

/-- A name that is written is that of a static job in the lock. -/
theorem exists_lockJob {name : JsString}
    (h : transformJobs host labels objects configPath jobs = .ok lock)
    (hname : (lockNames 0 jobs)[p]? = some (some name)) : ∃ job, lock[p]? = some (.static job) ∧
    job.name = name := by
  rw [← (transformJobsFrom_ok h).1, getElem?_map] at hname
  obtain ⟨entry, hentry, heq⟩ := map_eq_some_iff.1 hname
  cases entry with
  | static job => exact ⟨job, hentry, some.inj heq⟩
  | dynamic fn => cases heq

/-- Where every job is named, the lock has the names of the author. -/
theorem WorkflowSource.Named.namesIdentify (hnamed : source.Named)
    (hnodup : ((source.evaluate ids).staticJobs.map (·.name)).Nodup)
    (h : transformJobs host labels objects configPath (source.evaluate ids).jobs = .ok lock) :
    NamesIdentify source ids' lock := by
  have hname : ∀ {p : ℕ} {ref : ℕ} {lockJob : LockJob}, source.entries[p]? = some (.static ref) →
      lock[p]? = some (.static lockJob) → lockJob.name = source.jobName ids ref := by
    intro p ref lockJob hentry hlock
    have hlockName := lockNames_of_static h hlock
    rw [lockNames_of_named (getElem?_evaluate hentry)
      (hnamed.jobName_eq ids ids (mem_of_getElem? hentry)).2] at hlockName
    exact (some.inj (some.inj hlockName)).symm
  refine ⟨fun p q job job' hp hq heq => ?_, fun i entry lockEntry k lockNeed hentry hget hneed =>
    names_needs hnodup h hentry hget hneed, fun p ref job hentry hlock => ?_⟩
  · obtain ⟨ref, href⟩ := exists_ref h hp
    obtain ⟨ref', href'⟩ := exists_ref h hq
    rw [hname href hp, hname href' hq] at heq
    exact eq_of_nodup_names hnodup (getElem?_evaluate href) (getElem?_evaluate href') heq
  · have hmem := mem_of_getElem? hentry
    have hfresh : ((source.evaluate ids').staticJobs.map (·.name)).Nodup :=
      hnamed.names_eq ids ids' ▸ hnodup
    rw [hname hentry hlock, (hnamed.jobName_eq ids ids' hmem).1]
    exact extractSteps_of_nodup hfresh (mem_staticJobs_evaluate.2 ⟨ref, hmem, rfl⟩)

/-- A job under a number is not found, or the one that is found has its name too. -/
theorem NamesIdentify.named (hnames : NamesIdentify source ids' lock)
    (hids : ∀ ref, UUID_PATTERN (ids ref)) (hids' : ∀ ref, UUID_PATTERN (ids' ref))
    (h : transformJobs host labels objects configPath (source.evaluate ids).jobs = .ok lock) :
    source.Named := by
  intro ref hmem
  obtain ⟨p, hp⟩ := getElem?_of_mem hmem
  rcases Bool.eq_false_or_eq_true (UUID_PATTERN (source.jobName ids ref)) with huuid | hname
  · exfalso
    obtain ⟨k, hk⟩ := lockNames_of_uuid (getElem?_evaluate hp) huuid
    obtain ⟨lockJob, hlockJob, hlockName⟩ := exists_lockJob h hk
    have hsteps := hnames.steps p ref lockJob hp hlockJob
    rw [hlockName] at hsteps
    obtain ⟨job, hjob, hjobName⟩ := exists_of_extractSteps hsteps
    obtain ⟨ref', hmem', rfl⟩ := mem_staticJobs_evaluate.1 hjob
    -- The job that is found is not one without a name.
    have hsource : source.jobName ids ref' = countedName k := by
      have hfresh : source.jobName ids' ref' = countedName k := hjobName
      rw [jobName] at hfresh ⊢
      cases hname? : (source.objects ref').name? with
      | some name =>
        rw [hname?] at hfresh
        exact hfresh
      | none =>
        rw [hname?] at hfresh
        have hnot := not_uuid_countedName k
        rw [← hfresh] at hnot
        exact absurd ((hids' ref').symm.trans hnot) (by decide)
    obtain ⟨q, hq⟩ := getElem?_of_mem hmem'
    have hnot : UUID_PATTERN (source.jobName ids ref') = false := hsource ▸ not_uuid_countedName k
    obtain ⟨lockJob', hlockJob', hlockName'⟩ :=
      exists_lockJob h (lockNames_of_named (getElem?_evaluate hq) hnot)
    obtain rfl := hnames.distinct p q lockJob lockJob' hlockJob hlockJob'
      (hlockName.trans (hsource.symm.trans hlockName'.symm))
    rw [hp] at hq
    cases hq
    exact absurd (huuid.symm.trans hnot) (by decide)
  · rw [jobName] at hname
    cases hname? : (source.objects ref).name? with
    | some name =>
      rw [hname?] at hname
      exact ⟨name, rfl, hname⟩
    | none =>
      rw [hname?] at hname
      exact absurd ((hids ref).symm.trans hname) (by decide)

/-- For a workflow that is accepted and written, whatever ids its jobs get at the compiler and at
the agent: a name in the lock identifies one job everywhere if and only if the author names every
job, and none like an id. -/
theorem namesIdentify_iff {workflows : List Workflow} (hids : ∀ ref, UUID_PATTERN (ids ref))
    (hids' : ∀ ref, UUID_PATTERN (ids' ref)) (hmem : source.evaluate ids ∈ workflows)
    (hvalid : validateConfig workflows = .valid)
    (h : transformJobs host labels objects configPath (source.evaluate ids).jobs = .ok lock) :
    NamesIdentify source ids' lock ↔ source.Named :=
  ⟨fun hnames => hnames.named hids hids' h, fun hnamed =>
    hnamed.namesIdentify (nodup_of_valid hvalid hmem) h⟩

/-- Ids of one evaluation, and of another. -/
def compileIds : ℕ → JsString := fun _ => js "1b9d6bcd-bbfd-4b2d-9b5d-ab8dfbbd4bed"

def agentIds : ℕ → JsString := fun _ => js "9f1a3c52-0d4e-4f7b-8a6c-2e5d7b9c1f30"

def bareJob : Job :=
  { name := [], runsOn := some (.short (.one (.text "linux"))), steps := [.flat .bare] }

/-- A job, and another that needs it. -/
def namedSource : WorkflowSource where
  name := js "ci"
  objects ref :=
    if ref = 0 then { name? := some (js "build"), options := bareJob }
    else { name? := some (js "test"), needs := some [.job 0], options := bareJob }
  entries := [.static 0, .static 1]

theorem namesIdentify_iff_named : ∃ lock,
    transformJobs plainHost plainLabels (fun _ => { name := [] }) []
    (namedSource.evaluate compileIds).jobs = .ok lock ∧
    NamesIdentify namedSource agentIds lock := by
  have hcompile : UUID_PATTERN (compileIds 0) := by decide
  have hagent : UUID_PATTERN (agentIds 0) := by decide
  have hids : ∀ ref, UUID_PATTERN (compileIds ref) := fun _ => hcompile
  have hvalid : validateConfig [namedSource.evaluate compileIds] = .valid := by decide
  have h : transformJobs plainHost plainLabels (fun _ => { name := [] }) []
    (namedSource.evaluate compileIds).jobs =
      .ok _ := rfl
  refine ⟨_, h, (namesIdentify_iff hids (fun _ => hagent) mem_cons_self hvalid h).2 ?_⟩
  intro ref hmem
  rcases mem_cons.1 hmem with heq | hmem
  · cases heq
    exact ⟨js "build", rfl, by decide⟩
  · cases mem_singleton.1 hmem
    exact ⟨js "test", rfl, by decide⟩

/-- One job, to which the author gives no name. -/
def unnamedSource : WorkflowSource where
  name := js "ci"
  objects _ := { options := bareJob }
  entries := [.static 0]

/-- The workflow is accepted, its job is written as the first one, and the agent does not find it. -/
theorem exists_job_not_found : validateConfig [unnamedSource.evaluate compileIds] = .valid ∧ ∃ lock,
    transformJobs plainHost plainLabels (fun _ => { name := [] }) []
    (unnamedSource.evaluate compileIds).jobs =
      .ok lock ∧ lock.map (·.name?) = [some (js "job-1")] ∧
    extractSteps (unnamedSource.evaluate agentIds) (js "job-1") =
      .error (js "Static job 'job-1' not found in workflow 'ci'") ∧
    ¬ NamesIdentify unnamedSource agentIds lock := by
  refine ⟨by decide, _, rfl, by decide, by decide, fun h => ?_⟩
  have hsteps := h.steps 0 0 _ rfl rfl
  exact absurd hsteps (by decide)

end Kici.Lock
