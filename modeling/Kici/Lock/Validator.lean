import Kici.Lock.Jobs

/-!
# What the compiler accepts

A workflow is a list of jobs and of functions that generate jobs (`Workflow`). Before any of it is
written, workflows are checked (`validateConfig`): names are distinct, needs are without cycles and
refer to what there is (`validateDag`), static matrices are not too large, and invoke gates have an
event and no steps. Where an error stands, and what is suggested, are left out.

The sort of a graph takes every node at most once, so that as many rounds as there are nodes are
enough (`queue_kahn`).
-/

namespace Kici.Lock

open List CompilerError Function

/-! ## Workflows -/

structure DynamicJobFn where
  group : Option JsString := none
  needs : Option (List Need) := none
  gitCredentials : Option Json := none

inductive JobOrFactory
  | static (job : Job)
  | dynamic (fn : DynamicJobFn)

structure Workflow where
  name : JsString
  jobs : List JobOrFactory

def JobOrFactory.job? : JobOrFactory → Option Job
  | static job => some job
  | dynamic _ => none

/-- The group of a function that has one; an empty name is none. -/
def JobOrFactory.group? : JobOrFactory → Option JsString
  | static _ => none
  | dynamic fn => fn.group.filter (· ≠ [])

def Workflow.staticJobs (workflow : Workflow) : List Job := workflow.jobs.filterMap (·.job?)

/-! ## Graphs -/

structure DagNode where
  id : JsString
  needs : List JsString

inductive DagValidationResult
  | valid (sortedOrder : List JsString)
  | cycle (nodesInCycle : List JsString)
  | selfReference (nodeId : JsString)
  | missingDependency (nodeId missingDep : JsString)

section
variable (nodes : List DagNode)

/-- The ids in the order in which they come first. -/
def nodeIds : List JsString := (nodes.map (·.id)).eraseDups

/-- The nodes that need one, each as often as it does. -/
def adjacencyList (id : JsString) : List JsString :=
  nodes.flatMap fun node => (node.needs.filter (· = id)).map fun _ => node.id

structure KahnState where
  inDegree : JsString → ℤ
  queue : List JsString
  sortedOrder : List JsString

/-- A neighbour of the node that was taken. -/
def KahnState.release (s : KahnState) (neighbor : JsString) : KahnState :=
  let newDegree := s.inDegree neighbor - 1
  { s with
    inDegree := update s.inDegree neighbor newDegree
    queue := if newDegree = 0 then s.queue ++ [neighbor] else s.queue }

def KahnState.take (s : KahnState) (current : JsString) (queue : List JsString) : KahnState :=
  (adjacencyList nodes current).foldl KahnState.release
    { s with queue, sortedOrder := s.sortedOrder ++ [current] }

def KahnState.loop : ℕ → KahnState → KahnState
  | 0, s => s
  | rounds + 1, s =>
    match s.queue with
    | [] => s
    | current :: queue => (s.take nodes current queue).loop rounds

def initialDegree (id : JsString) : ℤ := ((nodes.filter (·.id = id)).flatMap (·.needs)).length

def kahn : KahnState :=
  KahnState.loop nodes (nodeIds nodes).length {
    inDegree := initialDegree nodes
    queue := (nodeIds nodes).filter fun id => initialDegree nodes id = 0
    sortedOrder := [] }

/-- What is left after one pass over the ids: those with a successor that is left. -/
def peelPass : (ids residual : List JsString) → List JsString
  | [], residual => residual
  | id :: ids, residual =>
    if (adjacencyList nodes id).any (· ∈ residual) then peelPass ids residual
      else peelPass ids (residual.erase id)

/-- Passes, as long as they change what is left. -/
def peel (residual : List JsString) : List JsString :=
  if (peelPass nodes residual residual).length < residual.length then peel
    (peelPass nodes residual residual)
  else residual
termination_by residual.length

def missingDependency? : Option (JsString × JsString) :=
  nodes.findSome? fun node => (node.needs.find? (· ∉ nodes.map (·.id))).map fun dep => (node.id, dep)

def validateDag : DagValidationResult :=
  if nodes.isEmpty then .valid []
  else match nodes.find? fun node => node.id ∈ node.needs with
    | some node => .selfReference node.id
    | none =>
      match missingDependency? nodes with
      | some (nodeId, missingDep) => .missingDependency nodeId missingDep
      | none =>
        if (kahn nodes).sortedOrder.length ≠ nodes.length then
          .cycle (peel nodes ((nodeIds nodes).filter fun id => 0 < (kahn nodes).inDegree id))
        else .valid (kahn nodes).sortedOrder

end

/-! ### The sort ends -/

section
variable {nodes : List DagNode} {ids : List JsString} {s : KahnState}

/-- How many nodes are still to be taken or to be released. -/
def KahnState.open (ids : List JsString) (s : KahnState) : ℕ :=
  ids.countP (fun id => 0 < s.inDegree id) + s.queue.length

theorem countP_update_le (f : JsString → ℤ) (id : JsString) {n : ℤ} (h : n ≤ f id)
    (ids : List JsString) :
    ids.countP (fun id' => 0 < update f id n id') ≤ ids.countP (fun id' => 0 < f id') :=
  countP_mono_left fun id' _ hpos => by
    rw [decide_eq_true_eq] at hpos ⊢
    rcases eq_or_ne id' id with rfl | hne
    · rw [update_self] at hpos
      omega
    · rwa [update_of_ne hne] at hpos

/-- A node of degree one is the one that leaves those with a degree. -/
theorem countP_update_lt {f : JsString → ℤ} {id : JsString} (h : f id = 1) (hmem : id ∈ ids) :
    ids.countP (fun id' => 0 < update f id 0 id') + 1 ≤ ids.countP (fun id' => 0 < f id') := by
  obtain ⟨before, after, rfl⟩ := append_of_mem hmem
  have hle : 0 ≤ f id := by rw [h]; decide
  have hbefore := countP_update_le f id hle before
  have hafter := countP_update_le f id hle after
  rw [countP_append, countP_append, countP_cons_of_neg (by rw [update_self]; decide),
    countP_cons_of_pos (by rw [h]; decide)]
  omega

theorem open_release {neighbor : JsString} (hmem : neighbor ∈ ids) :
    (s.release neighbor).open ids ≤ s.open ids := by
  rw [KahnState.open, KahnState.open, KahnState.release]
  dsimp only
  split
  next hzero =>
    have hcount := countP_update_lt (f := s.inDegree) (Int.eq_of_sub_eq_zero hzero) hmem
    rw [hzero, length_append, length_singleton]
    omega
  next =>
    have hcount := countP_update_le s.inDegree neighbor (Int.sub_le_self _ Int.one_nonneg) ids
    omega

theorem open_releases {neighbors : List JsString} (hmem : ∀ id ∈ neighbors, id ∈ ids) :
    (neighbors.foldl KahnState.release s).open ids ≤ s.open ids := by
  induction neighbors generalizing s with
  | nil => exact le_rfl
  | cons neighbor neighbors ih =>
    exact (ih fun id h => hmem id (mem_cons_of_mem _ h)).trans (open_release (hmem _ mem_cons_self))

theorem mem_nodeIds_of_adjacent {neighbor : JsString} (nodes : List DagNode) (id : JsString)
    (h : neighbor ∈ adjacencyList nodes id) : neighbor ∈ nodeIds nodes := by
  obtain ⟨node, hnode, hmem⟩ := mem_flatMap.1 h
  obtain ⟨_, -, rfl⟩ := List.mem_map.1 hmem
  exact mem_eraseDups.2 (List.mem_map_of_mem hnode)

theorem queue_loop {rounds : ℕ} (h : s.open (nodeIds nodes) ≤ rounds) :
    (KahnState.loop nodes rounds s).queue = [] := by
  induction rounds generalizing s with
  | zero =>
    rw [KahnState.open] at h
    have hlength : s.queue.length = 0 := by omega
    exact eq_nil_of_length_eq_zero hlength
  | succ rounds ih =>
    rw [KahnState.loop]
    split
    next hqueue => exact hqueue
    next current queue hqueue =>
      refine ih ?_
      have htake := open_releases (s := { s with queue, sortedOrder := s.sortedOrder ++ [current] })
        fun _ => mem_nodeIds_of_adjacent nodes current
      rw [KahnState.open, hqueue, length_cons] at h
      rw [KahnState.open] at htake
      rw [KahnState.take]
      rw [KahnState.open] at htake ⊢
      dsimp only at htake
      omega

/-- The sort ends with an empty queue. -/
theorem queue_kahn (nodes : List DagNode) : (kahn nodes).queue = [] := by
  refine queue_loop ?_
  rw [KahnState.open]
  dsimp only
  rw [← countP_eq_length_filter]
  have hparts := length_eq_countP_add_countP (l := nodeIds nodes) (fun id => 0 < initialDegree nodes id)
  have hzero : (nodeIds nodes).countP (fun id => initialDegree nodes id = 0) ≤
      (nodeIds nodes).countP (fun id => decide ¬decide (0 < initialDegree nodes id)) :=
    countP_mono_left fun id _ hid => by
      rw [of_decide_eq_true hid]
      rfl
  omega

end

/-! ## Checks -/

/-- The most jobs a static matrix may give. -/
def MAX_STATIC_MATRIX_JOBS : ℕ := 256

/-- The node that stands for a group. -/
def groupNode (group : JsString) : JsString := js "__group:" ++ group

/-- What needs refer to. -/
def resolveNeeds (needs : Option (List Need)) : List JsString :=
  (needs.getD []).map fun need => match need with
    | .text name | .job name | .entry name _ => name
    | .groupRef group _ | .groupEntry group _ => groupNode group

/-- The names that are in the list before, or come a second time. -/
def repeatedNames (seen : List JsString) : List JsString → List JsString
  | [] => []
  | name :: names =>
    if name ∈ seen then name :: repeatedNames seen names else repeatedNames (name :: seen) names

def validateJobDag (jobs : List Job) (workflowName : JsString) (dynamicGroupNames : List JsString) :
    List CompilerError :=
  let dagNodes := (jobs.map fun job => DagNode.mk job.name (resolveNeeds job.needs)) ++
    dynamicGroupNames.map fun groupName => DagNode.mk (groupNode groupName) []
  match validateDag dagNodes with
  | .valid _ => []
  | .cycle nodesInCycle =>
    [mk (some .E102) (js "Circular dependency in workflow \"" ++ workflowName ++ js "\": " ++
      JsString.join nodesInCycle (js ", "))]
  | .selfReference nodeId =>
    [mk (some .E103) (js "Job \"" ++ nodeId ++ js "\" in workflow \"" ++ workflowName ++
      js "\" depends on itself")]
  | .missingDependency nodeId missingDep =>
    [mk (some .E101) (js "Job \"" ++ nodeId ++ js "\" in workflow \"" ++ workflowName ++
      js "\" depends on non-existent job \"" ++ missingDep ++ js "\"")]

/-- How many jobs a matrix gives, those that are excluded among them. -/
def expansionCount (values : MatrixValues) (included : Option (List Json)) : ℕ :=
  (match values with
    | .array values => values.length
    | .object dimensions => dimensions.foldl (fun count dimension => count * dimension.2.length) 1) +
    (included.getD []).length

def validateStaticMatrix (job : Job) (workflowName : JsString) : List CompilerError :=
  match job.matrix with
  | none | some (.function _) => []
  | some (.value values) =>
    if MAX_STATIC_MATRIX_JOBS < expansionCount values job.included then
      [mk (some .E104) (js "Static matrix for job \"" ++ job.name ++ js "\" in workflow \"" ++
        workflowName ++ js "\" would generate " ++ js (toString (expansionCount values job.included)) ++
        js " jobs (max: " ++ js (toString MAX_STATIC_MATRIX_JOBS) ++ js ")")]
    else []

def validateInvokeJob (job : Job) : List CompilerError :=
  match job.invoke with
  | none => []
  | some invoke =>
    (if job.steps = [] then [] else
      [mk (some .E125) (js "job '" ++ job.name ++ js "': 'invoke' cannot be combined with 'steps'")]) ++
    if invoke.event.all JsString.isWhiteSpace then
      [mk (some .E126) (js "job '" ++ job.name ++ js "': invoke.event must be a non-empty event name")]
    else []

def validateWorkflow (workflow : Workflow) : List CompilerError :=
  (repeatedNames [] (workflow.staticJobs.map (·.name))).map (fun name =>
    mk (some .E106) (js "Duplicate job name \"" ++ name ++ js "\" in workflow \"" ++ workflow.name ++
      js "\"")) ++
  validateJobDag workflow.staticJobs workflow.name (workflow.jobs.filterMap (·.group?)).eraseDups ++
  workflow.staticJobs.flatMap (validateStaticMatrix · workflow.name) ++
  workflow.staticJobs.flatMap validateInvokeJob

inductive ValidationResult
  | valid
  | invalid (errors : List CompilerError)
  deriving DecidableEq

def validateConfig (workflows : List Workflow) : ValidationResult :=
  let errors := (repeatedNames [] (workflows.map (·.name))).map (fun name =>
      mk (some .E107) (js "Duplicate workflow name: \"" ++ name ++ js "\"")) ++
    workflows.flatMap validateWorkflow
  if errors = [] then .valid else .invalid errors

/-! ### What is accepted -/

theorem repeatedNames_eq_nil {seen names : List JsString} (h : repeatedNames seen names = []) :
    names.Nodup ∧ ∀ name ∈ names, name ∉ seen := by
  induction names generalizing seen with
  | nil => exact ⟨nodup_nil, nofun⟩
  | cons name names ih =>
    rw [repeatedNames] at h
    split at h
    · cases h
    next hnew =>
      obtain ⟨hnodup, hseen⟩ := ih h
      refine ⟨nodup_cons.2 ⟨fun hmem => hseen name hmem mem_cons_self, hnodup⟩, fun name' hmem => ?_⟩
      rcases mem_cons.1 hmem with rfl | hmem
      · exact hnew
      · exact fun hold => hseen name' hmem (mem_cons_of_mem _ hold)

/-- The static jobs of a workflow that is accepted have distinct names. -/
theorem nodup_of_valid {workflows : List Workflow} {workflow : Workflow}
    (h : validateConfig workflows = .valid)
    (hmem : workflow ∈ workflows) : (workflow.staticJobs.map (·.name)).Nodup := by
  rw [validateConfig] at h
  split at h
  next hnil =>
    have hworkflow := flatMap_eq_nil_iff.1 (append_eq_nil_iff.1 hnil).2 workflow hmem
    rw [validateWorkflow, append_assoc, append_assoc] at hworkflow
    exact (repeatedNames_eq_nil (map_eq_nil_iff.1 (append_eq_nil_iff.1 hworkflow).1)).1
  · cases h

end Kici.Lock
