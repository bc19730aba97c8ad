import Kici.Foundation.Lists
import Kici.Lock.Validator
import Mathlib.Data.Fintype.Pigeonhole
import Mathlib.Data.Set.Finite.List
import Mathlib.Logic.Relation
import Mathlib.Order.Monotone.Basic

/-!
# What the check of a graph decides

The graph of the needs of jobs (`NeededBy`) is to be accepted exactly if it has no fault, with an
order in which every node follows what it needs, and a graph whose only fault is cycles is to be
refused with the nodes that lie on some cycle (`Decides`).

The sort takes a node once all it needs is taken (`Sorting`), so that what it leaves lies below a
cycle. Then nodes without a successor that is left are peeled off. The comment of the peeling says
that this leaves exactly the members of the cycles; it leaves what lies between two cycles as well
(`mem_peel_iff`), so that the check decides what it is to decide if and only if nothing but members
of cycles lies there (`decides_iff`).
-/

namespace Kici.Lock

open List Relation

variable {sortedOrder : List JsString} {ids left : List JsString}

/-! ## Cycles of a relation -/

section
variable {α : Type*} {r : α → α → Prop} {l : List α} {a : α}

/-- Among finitely many, each of which has one of them before it, all lie below a cycle. -/
theorem exists_cycle (h : ∀ a ∈ l, ∃ b ∈ l, r b a) (ha : a ∈ l) : ∃ c, TransGen r c c ∧
    TransGen r c a := by
  have hbefore : ∀ x : {x // x ∈ l}, ∃ y : {x // x ∈ l}, r y x := fun x =>
    let ⟨b, hb, hr⟩ := h x x.2
    ⟨⟨b, hb⟩, hr⟩
  choose before hr using hbefore
  let walk : ℕ → {x // x ∈ l} := fun n => before^[n] ⟨a, ha⟩
  have hwalk : ∀ {i j}, i < j → TransGen r (walk j) (walk i) := fun {i j} hlt =>
    Nat.rel_of_forall_rel_succ_of_lt (fun x y : {x // x ∈ l} => TransGen r y x) (f := walk)
      (fun n => by
        rw [show walk (n + 1) = before (walk n) from Function.iterate_succ_apply' before n _]
        exact .single (hr _)) hlt
  -- the walk up from the element comes back to where it was
  have : Finite {x // x ∈ l} := l.finite_toSet
  obtain ⟨i, j, hne, heq⟩ := Finite.exists_ne_map_eq_of_infinite walk
  wlog hlt : i < j generalizing i j
  · exact this j i hne.symm heq.symm (lt_of_le_of_ne (not_lt.1 hlt) hne.symm)
  refine ⟨walk j, ?_, hwalk (j := j) (i := 0) (by omega)⟩
  have hcycle := hwalk hlt
  rwa [heq] at hcycle

theorem not_transGen_of_acc (h : Acc r a) : ¬ TransGen r a a := fun hcycle => by
  have hacc := h.transGen
  induction hacc with
  | intro a _ ih => exact ih a hcycle (h.inv_of_transGen hcycle) hcycle

end

/-! ## What is to be decided -/

section
variable (nodes : List DagNode)

/-- The second id needs the first one. -/
def NeededBy (dep id : JsString) : Prop := ∃ node ∈ nodes, node.id = id ∧ dep ∈ node.needs

instance (dep id : JsString) : Decidable (NeededBy nodes dep id) :=
  inferInstanceAs (Decidable (∃ node ∈ nodes, node.id = id ∧ dep ∈ node.needs))

def OnCycle (id : JsString) : Prop := TransGen (NeededBy nodes) id id

/-- It lies on a path from a cycle to a cycle. -/
def BetweenCycles (id : JsString) : Prop :=
  ∃ above below, OnCycle nodes above ∧ OnCycle nodes below ∧ TransGen (NeededBy nodes) above id ∧
    TransGen (NeededBy nodes) id below

/-- No node needs itself, and every need names a node. -/
structure WellReferenced : Prop where
  irrefl : ∀ node ∈ nodes, node.id ∉ node.needs
  exist : ∀ node ∈ nodes, ∀ dep ∈ node.needs, dep ∈ nodes.map (·.id)

structure Decides : Prop where
  valid_iff : (∃ sortedOrder, validateDag nodes = .valid sortedOrder) ↔
    WellReferenced nodes ∧ ∀ id, ¬ OnCycle nodes id
  perm : ∀ sortedOrder, validateDag nodes = .valid sortedOrder → sortedOrder ~ nodes.map (·.id)
  follows : ∀ before id after, validateDag nodes = .valid (before ++ id :: after) →
    ∀ dep, NeededBy nodes dep id → dep ∈ before
  cycle : WellReferenced nodes → (∃ id, OnCycle nodes id) →
    ∃ nodesInCycle, validateDag nodes = .cycle nodesInCycle ∧ ∀ id, id ∈ nodesInCycle ↔ OnCycle nodes id

/-- The needs of the nodes with an id. -/
def needsOf (id : JsString) : List JsString := (nodes.filter (·.id = id)).flatMap (·.needs)

end

section
variable {nodes : List DagNode} {id dep current neighbor : JsString} {s : KahnState}

theorem mem_needsOf : dep ∈ needsOf nodes id ↔ NeededBy nodes dep id := by
  simp only [needsOf, mem_flatMap, mem_filter, decide_eq_true_eq, NeededBy, and_assoc]

theorem count_adjacencyList (nodes : List DagNode) (id current : JsString) :
    (adjacencyList nodes current).count id = (needsOf nodes id).count current := by
  induction nodes with
  | nil => rfl
  | cons node nodes ih =>
    rw [adjacencyList] at ih
    rw [adjacencyList, flatMap_cons, count_append, ih, needsOf, needsOf, map_const',
      count_replicate, filter_cons]
    by_cases heq : node.id = id
    · rw [if_pos (beq_iff_eq.2 heq), if_pos (decide_eq_true heq), flatMap_cons, count_append]
      rw [count_eq_length_filter (l := node.needs), filter_congr fun dep _ =>
        (beq_eq_decide dep current).symm]
    · rw [if_neg (by simpa using heq), if_neg (by simpa using heq), Nat.zero_add]

theorem mem_adjacencyList : id ∈ adjacencyList nodes current ↔ NeededBy nodes current id := by
  rw [← mem_needsOf, ← count_pos_iff, count_adjacencyList, count_pos_iff]

/-! ## What the sort takes -/

theorem inDegree_release (s : KahnState) (neighbor id : JsString) :
    (s.release neighbor).inDegree id = s.inDegree id - if neighbor = id then 1 else 0 := by
  dsimp only [KahnState.release]
  split
  next heq => rw [heq, Function.update_self]
  next hne => rw [Function.update_of_ne (Ne.symm hne), sub_zero]

theorem inDegree_releases (neighbors : List JsString) (s : KahnState) (id : JsString) :
    (neighbors.foldl KahnState.release s).inDegree id = s.inDegree id - neighbors.count id := by
  induction neighbors generalizing s with
  | nil => exact (sub_zero _).symm
  | cons neighbor neighbors ih =>
    rw [foldl_cons, ih, inDegree_release, count_cons]
    simp only [beq_iff_eq]
    split <;> omega

theorem sortedOrder_releases (neighbors : List JsString) (s : KahnState) :
    (neighbors.foldl KahnState.release s).sortedOrder = s.sortedOrder := by
  induction neighbors generalizing s with
  | nil => rfl
  | cons neighbor neighbors ih => exact ih _

/-- An id comes into the queue when its degree becomes zero. -/
theorem count_queue_release (h : neighbor = id → 0 < s.inDegree id) :
    (s.release neighbor).queue.count id + (if s.inDegree id = 0 then 1 else 0) =
      s.queue.count id + if (s.release neighbor).inDegree id = 0 then 1 else 0 := by
  rw [inDegree_release]
  dsimp only [KahnState.release]
  rcases eq_or_ne neighbor id with rfl | hne
  · have hpos := h rfl
    rw [if_pos rfl, if_neg (c := s.inDegree neighbor = 0) (by omega), Nat.add_zero]
    split
    · rw [count_append, count_singleton_self]
    · rfl
  · rw [if_neg hne, sub_zero]
    split
    · rw [count_append, count_singleton, if_neg (by simpa using hne), Nat.add_zero]
    · rfl

theorem count_queue_releases {neighbors : List JsString} (h : neighbors.count id ≤ s.inDegree id) :
    (neighbors.foldl KahnState.release s).queue.count id + (if s.inDegree id = 0 then 1 else 0) =
      s.queue.count id + if (neighbors.foldl KahnState.release s).inDegree id = 0 then 1 else 0 := by
  induction neighbors generalizing s with
  | nil => rfl
  | cons neighbor neighbors ih =>
    have hdegree := inDegree_release s neighbor id
    simp only [count_cons, beq_iff_eq] at h
    have hpos : neighbor = id → 0 < s.inDegree id := fun heq => by
      rw [if_pos heq] at h
      omega
    have hfirst := count_queue_release hpos
    have hlater := ih (s := s.release neighbor) (by rw [hdegree]; split_ifs at h ⊢ <;> omega)
    rw [foldl_cons]
    omega

variable (nodes) in
/-- The degree of an id counts its needs that are not sorted yet, and what has none has come into
the queue once. -/
structure Sorting (s : KahnState) : Prop where
  degree : ∀ id, s.inDegree id = (needsOf nodes id).countP (· ∉ s.sortedOrder)
  count : ∀ id, (s.sortedOrder ++ s.queue).count id = if id ∈ nodeIds nodes ∧
    s.inDegree id = 0 then 1 else 0
  follows : ∀ before id after, s.sortedOrder = before ++ id :: after → ∀ dep ∈ needsOf nodes id,
    dep ∈ before
  acc : ∀ id ∈ s.sortedOrder, Acc (NeededBy nodes) id

theorem needsOf_eq_nil (h : id ∉ nodeIds nodes) : needsOf nodes id = [] := by
  rw [needsOf, filter_eq_nil_iff.2 fun node hnode heq => h ?_, flatMap_nil]
  exact mem_eraseDups.2 (List.mem_map.2 ⟨node, hnode, of_decide_eq_true heq⟩)

theorem mem_nodeIds : id ∈ nodeIds nodes ↔ id ∈ nodes.map (·.id) := mem_eraseDups

theorem NeededBy.mem (h : NeededBy nodes dep id) : id ∈ nodes.map (·.id) :=
  let ⟨_, hnode, heq, _⟩ := h
  heq ▸ List.mem_map_of_mem hnode

/-- One sort less needed of each id that needs the one that is taken. -/
theorem countP_concat {sorted : List JsString} (h : current ∉ sorted) (deps : List JsString) :
    deps.countP (· ∉ sorted ++ [current]) + deps.count current = deps.countP (· ∉ sorted) := by
  induction deps with
  | nil => rfl
  | cons dep deps ih =>
    simp only [countP_cons, count_cons, mem_append, mem_singleton, beq_iff_eq, decide_eq_true_eq] at ih ⊢
    rcases eq_or_ne dep current with rfl | hne
    · simp only [or_true, not_true_eq_false, if_false, if_true, h, not_false_eq_true]
      omega
    · simp only [hne, or_false, if_false]
      omega

theorem Sorting.start (nodes : List DagNode) : Sorting nodes {
    inDegree := initialDegree nodes
    queue := (nodeIds nodes).filter fun id => initialDegree nodes id = 0
    sortedOrder := [] } where
  degree id := by
    rw [countP_eq_length.2 fun _ _ => decide_eq_true not_mem_nil]
    rfl
  count id := by
    rw [nil_append]
    dsimp only
    split
    next hmem =>
      exact (count_filter (p := fun id => initialDegree nodes id = 0) (decide_eq_true hmem.2)).trans
        (count_eq_one_of_mem (nodup_eraseDups _) hmem.1)
    next hmem =>
      exact count_eq_zero.2 fun h => hmem ⟨(mem_filter.1 h).1, of_decide_eq_true (mem_filter.1 h).2⟩
  follows before id after h := absurd h (by simp)
  acc := nofun

theorem Sorting.take {queue : List JsString} (h : Sorting nodes s)
    (hqueue : s.queue = current :: queue) : Sorting nodes (s.take nodes current queue) := by
  have hnew : current ∉ s.sortedOrder := fun hmem => by
    have hcount := h.count current
    rw [hqueue, count_append, count_cons_self] at hcount
    have hpos := count_pos_iff.2 hmem
    split at hcount <;> omega
  have hmem : current ∈ nodeIds nodes ∧ s.inDegree current = 0 := by
    have hcount := h.count current
    rw [hqueue, count_append, count_cons_self] at hcount
    by_contra hnot
    rw [if_neg hnot] at hcount
    omega
  have hneeds : ∀ dep ∈ needsOf nodes current, dep ∈ s.sortedOrder := fun dep hdep => by
    have hzero := (h.degree current).symm.trans hmem.2
    rw [Int.natCast_eq_zero, countP_eq_zero] at hzero
    simpa using hzero dep hdep
  have hsorted : (s.take nodes current queue).sortedOrder = s.sortedOrder ++ [current] :=
    sortedOrder_releases _ _
  have hdegree : ∀ id, (s.take nodes current queue).inDegree id =
      s.inDegree id - (needsOf nodes id).count current := fun id => by
    rw [KahnState.take, inDegree_releases, count_adjacencyList]
  have hcountP := fun id => countP_concat hnew (needsOf nodes id)
  refine ⟨fun id => ?_, fun id => ?_, fun before id after heq dep hdep => ?_, fun id hid => ?_⟩
  · rw [hdegree, h.degree, hsorted, ← hcountP]
    omega
  · have hle : (adjacencyList nodes current).count id ≤ s.inDegree id := by
      rw [count_adjacencyList, h.degree, ← hcountP]
      omega
    have hqueued := count_queue_releases
      (s := { s with queue, sortedOrder := s.sortedOrder ++ [current] }) hle
    have hcount := h.count id
    rw [hqueue, count_append, count_cons] at hcount
    rw [hsorted, count_append, count_append, count_singleton]
    change _ + (s.take nodes current queue).queue.count id = _
    change (s.take nodes current queue).queue.count id + (if s.inDegree id = 0 then 1 else 0) =
      queue.count id + (if (s.take nodes current queue).inDegree id = 0 then 1 else 0) at hqueued
    by_cases hid : id ∈ nodeIds nodes
    · simp only [hid, true_and] at hcount ⊢
      omega
    · have hzero := h.degree id
      have hzero' := hdegree id
      rw [needsOf_eq_nil hid] at hzero hzero'
      simp only [countP_nil, count_nil, Int.natCast_zero] at hzero hzero'
      simp only [hid, false_and, if_false, hzero, hzero', sub_zero, if_true] at hcount hqueued ⊢
      omega
  · rw [hsorted] at heq
    rcases eq_nil_or_concat after with rfl | ⟨after, last, rfl⟩
    · obtain ⟨rfl, hlast⟩ := append_inj' heq rfl
      obtain rfl := (singleton_inj.1 hlast).symm
      exact hneeds dep hdep
    · rw [concat_eq_append, ← cons_append, ← append_assoc] at heq
      exact h.follows before id after (append_inj' heq rfl).1 dep hdep
  · rw [hsorted] at hid
    rcases mem_append.1 hid with hid | hid
    · exact h.acc id hid
    · rw [mem_singleton.1 hid]
      exact ⟨_, fun dep hdep => h.acc dep (hneeds dep (mem_needsOf.2 hdep))⟩

theorem Sorting.loop {rounds : ℕ} (h : Sorting nodes s) : Sorting nodes (s.loop nodes rounds) := by
  induction rounds generalizing s with
  | zero => exact h
  | succ rounds ih =>
    rw [KahnState.loop]
    split
    · exact h
    next hqueue => exact ih (h.take hqueue)

theorem sorting_kahn (nodes : List DagNode) : Sorting nodes (kahn nodes) := (Sorting.start nodes).loop

theorem count_sortedOrder (nodes : List DagNode) (id : JsString) :
    (kahn nodes).sortedOrder.count id = if id ∈ nodeIds nodes ∧ (kahn nodes).inDegree id = 0 then 1
    else 0 := by
  have hcount := (sorting_kahn nodes).count id
  rwa [queue_kahn, append_nil] at hcount

theorem nodup_sortedOrder (nodes : List DagNode) : (kahn nodes).sortedOrder.Nodup :=
  nodup_iff_count_le_one.2 fun id => by
    rw [count_sortedOrder]
    split <;> omega

theorem mem_sortedOrder : id ∈ (kahn nodes).sortedOrder ↔ id ∈ nodeIds nodes ∧
    (kahn nodes).inDegree id = 0 := by
  rw [← count_pos_iff, count_sortedOrder]
  split
  next hmem => exact iff_of_true one_pos hmem
  next hmem => exact iff_of_false (lt_irrefl 0) hmem

/-- The ids that are not sorted. -/
def residual (nodes : List DagNode) : List JsString :=
  (nodeIds nodes).filter fun id => 0 < (kahn nodes).inDegree id

theorem mem_residual : id ∈ residual nodes ↔ id ∈ nodeIds nodes ∧ id ∉ (kahn nodes).sortedOrder := by
  have hdegree := (sorting_kahn nodes).degree id
  rw [residual, mem_filter, mem_sortedOrder, decide_eq_true_eq, hdegree]
  generalize (needsOf nodes id).countP _ = left
  by_cases hid : id ∈ nodeIds nodes
  · simp only [hid, true_and]
    omega
  · simp only [hid, false_and]

/-- What is not sorted needs something that is not. -/
theorem exists_mem_residual (hrefs : WellReferenced nodes) (h : id ∈ residual nodes) :
    ∃ dep ∈ residual nodes, NeededBy nodes dep id := by
  have hpos := of_decide_eq_true (mem_filter.1 h).2
  rw [(sorting_kahn nodes).degree, Int.natCast_pos, countP_pos_iff] at hpos
  obtain ⟨dep, hdep, hunsorted⟩ := hpos
  obtain ⟨node, hnode, heq, hmem⟩ := mem_needsOf.1 hdep
  exact ⟨dep, mem_residual.2 ⟨mem_nodeIds.2 (hrefs.exist node hnode dep hmem),
    of_decide_eq_true hunsorted⟩, node, hnode, heq, hmem⟩

/-- What lies below a cycle is not sorted. -/
theorem mem_residual_of_below {above : JsString} (hcycle : OnCycle nodes above)
    (h : TransGen (NeededBy nodes) above id) : id ∈ residual nodes := by
  obtain ⟨_, _, hneeded⟩ := TransGen.tail'_iff.1 h
  refine mem_residual.2 ⟨mem_nodeIds.2 hneeded.mem, fun hmem => ?_⟩
  exact not_transGen_of_acc (((sorting_kahn nodes).acc id hmem).inv_of_transGen h) hcycle

/-! ## What peeling leaves -/

theorem peelPass_sublist (nodes : List DagNode) (ids left : List JsString) :
    peelPass nodes ids left <+ left := by
  induction ids generalizing left with
  | nil => exact Sublist.refl left
  | cons id ids ih =>
    rw [peelPass]
    split
    · exact ih left
    · exact (ih _).trans erase_sublist

/-- A pass that takes nothing away finds a successor for all that is left. -/
theorem exists_successor_of_length_le (h : left.length ≤ (peelPass nodes ids left).length) :
    ∀ id ∈ ids, id ∈ left → ∃ successor ∈ left, NeededBy nodes id successor := by
  induction ids with
  | nil => exact nofun
  | cons first ids ih =>
    intro id hid hleft
    rw [peelPass] at h
    split at h
    next hany =>
      rcases mem_cons.1 hid with rfl | hid
      · obtain ⟨successor, hadjacent, hmem⟩ := any_eq_true.1 hany
        exact ⟨successor, of_decide_eq_true hmem, mem_adjacencyList.1 hadjacent⟩
      · exact ih h id hid hleft
    next =>
      by_cases hfirst : first ∈ left
      · have hle := (peelPass_sublist nodes ids (left.erase first)).length_le
        have hlt := length_erase_of_mem hfirst
        have hpos := length_pos_of_mem hfirst
        omega
      · rw [erase_of_not_mem hfirst] at h
        rcases mem_cons.1 hid with rfl | hid
        · exact absurd hleft hfirst
        · exact ih h id hid hleft

/-- Where everything has a successor, nothing is peeled off. -/
theorem subset_peelPass {kept : Set JsString}
    (hkept : ∀ id ∈ kept, ∃ successor ∈ kept, NeededBy nodes id successor)
    (h : ∀ id ∈ kept, id ∈ left) : ∀ id ∈ kept, id ∈ peelPass nodes ids left := by
  induction ids generalizing left with
  | nil => exact h
  | cons first ids ih =>
    rw [peelPass]
    split
    next => exact ih h
    next hnone =>
      refine ih fun id hid => (mem_erase_of_ne ?_).2 (h id hid)
      rintro rfl
      obtain ⟨successor, hsuccessor, hneeded⟩ := hkept id hid
      exact hnone (any_eq_true.2
        ⟨successor, mem_adjacencyList.2 hneeded, decide_eq_true (h successor hsuccessor)⟩)

theorem subset_peel {kept : Set JsString}
    (hkept : ∀ id ∈ kept, ∃ successor ∈ kept, NeededBy nodes id successor)
    {left : List JsString} (h : ∀ id ∈ kept, id ∈ left) : ∀ id ∈ kept, id ∈ peel nodes left := by
  fun_induction peel nodes left with
  | case1 left hless ih => exact ih (subset_peelPass hkept h)
  | case2 left hsame => exact h

theorem peel_sublist (nodes : List DagNode) (left : List JsString) : peel nodes left <+ left := by
  fun_induction peel nodes left with
  | case1 left hless ih => exact ih.trans (peelPass_sublist nodes left left)
  | case2 left hsame => exact Sublist.refl left

theorem exists_successor (nodes : List DagNode) (left : List JsString) :
    ∀ id ∈ peel nodes left, ∃ successor ∈ peel nodes left, NeededBy nodes id successor := by
  fun_induction peel nodes left with
  | case1 left hless ih => exact ih
  | case2 left hsame => exact fun id hid => exists_successor_of_length_le (not_lt.1 hsame) id hid hid

/-- Peeling leaves what lies between cycles. -/
theorem mem_peel_iff (hrefs : WellReferenced nodes) : id ∈ peel nodes (residual nodes) ↔
    BetweenCycles nodes id := by
  constructor
  · intro h
    obtain ⟨above, habove, hdown⟩ := exists_cycle (fun _ => exists_mem_residual hrefs)
      ((peel_sublist nodes _).mem h)
    obtain ⟨below, hbelow, hup⟩ := exists_cycle (r := Function.swap (NeededBy nodes))
      (fun id hid => exists_successor nodes _ id hid) h
    exact ⟨above, below, habove, transGen_swap.1 hbelow, hdown, transGen_swap.1 hup⟩
  · refine fun h => @subset_peel nodes {id | BetweenCycles nodes id} ?_ _ ?_ id h
    · rintro id ⟨above, below, habove, hbelow, hdown, hup⟩
      obtain ⟨successor, hneeded, hrest⟩ := TransGen.head'_iff.1 hup
      exact ⟨successor, ⟨above, below, habove, hbelow, hdown.tail hneeded, hbelow.trans_right hrest⟩,
        hneeded⟩
    · rintro id ⟨above, _, habove, -, hdown, -⟩
      exact mem_residual_of_below habove hdown

/-! ## What is decided -/

theorem wellReferenced_of_not_fault (hself : nodes.find? (fun node => node.id ∈ node.needs) = none)
    (hmissing : missingDependency? nodes = none) : WellReferenced nodes where
  irrefl node hnode hmem := find?_eq_none.1 hself node hnode (decide_eq_true hmem)
  exist node hnode dep hdep := by
    have hnone := findSome?_eq_none_iff.1 hmissing node hnode
    rw [Option.map_eq_none_iff, find?_eq_none] at hnone
    simpa using hnone dep hdep

theorem validateDag_of_wellReferenced (h : WellReferenced nodes) :
    validateDag nodes = if (kahn nodes).sortedOrder.length ≠ nodes.length then .cycle
    (peel nodes (residual nodes))
      else .valid (kahn nodes).sortedOrder := by
  have hself : nodes.find? (fun node => node.id ∈ node.needs) = none :=
    find?_eq_none.2 fun node hnode hmem => h.irrefl node hnode (of_decide_eq_true hmem)
  have hmissing : missingDependency? nodes = none := findSome?_eq_none_iff.2 fun node hnode => by
    rw [Option.map_eq_none_iff, find?_eq_none]
    exact fun dep hdep hmem => of_decide_eq_true hmem (h.exist node hnode dep hdep)
  rw [validateDag, hself, hmissing]
  split
  next hempty =>
    obtain rfl := isEmpty_iff.1 hempty
    rfl
  next => rfl

/-- All are sorted exactly if there is no cycle. -/
theorem length_sortedOrder_iff (hnodup : (nodes.map (·.id)).Nodup) (hrefs : WellReferenced nodes) :
    (kahn nodes).sortedOrder.length = nodes.length ↔ ∀ id, ¬ OnCycle nodes id := by
  have hsubperm : (kahn nodes).sortedOrder <+~ nodes.map (·.id) :=
    (nodup_sortedOrder nodes).subperm fun id hid => mem_nodeIds.1 (mem_sortedOrder.1 hid).1
  constructor
  · intro hlength id hcycle
    have hperm := hsubperm.perm_of_length_le (by rw [hlength, length_map])
    obtain ⟨hid, hunsorted⟩ := mem_residual.1 (mem_residual_of_below hcycle hcycle)
    exact hunsorted (hperm.mem_iff.2 (mem_nodeIds.1 hid))
  · intro hacyclic
    have hperm : (kahn nodes).sortedOrder ~ nodes.map (·.id) :=
      (perm_ext_iff_of_nodup (nodup_sortedOrder nodes) hnodup).2 fun id =>
        ⟨fun hid => mem_nodeIds.1 (mem_sortedOrder.1 hid).1, fun hid => by
          by_contra hunsorted
          obtain ⟨above, habove, -⟩ := exists_cycle (fun _ => exists_mem_residual hrefs)
            (mem_residual.2 ⟨mem_nodeIds.2 hid, hunsorted⟩)
          exact hacyclic above habove⟩
    rw [hperm.length_eq, length_map]

/-- A graph whose only fault is cycles is refused with what lies between them. -/
theorem exists_cycle_result (hnodup : (nodes.map (·.id)).Nodup) (hrefs : WellReferenced nodes)
    (hcycle : ∃ id, OnCycle nodes id) : ∃ nodesInCycle, validateDag nodes = .cycle nodesInCycle ∧
      ∀ id, id ∈ nodesInCycle ↔ BetweenCycles nodes id := by
  refine ⟨_, ?_, fun id => mem_peel_iff hrefs⟩
  rw [validateDag_of_wellReferenced hrefs, if_pos]
  rw [ne_eq, length_sortedOrder_iff hnodup hrefs, not_forall_not]
  exact hcycle

theorem wellReferenced_of_valid (h : validateDag nodes = .valid sortedOrder) :
    WellReferenced nodes := by
  rw [validateDag] at h
  split at h
  next hempty =>
    obtain rfl := isEmpty_iff.1 hempty
    exact wellReferenced_of_not_fault rfl rfl
  next =>
    split at h
    · cases h
    next hself =>
      split at h
      · cases h
      next hmissing => exact wellReferenced_of_not_fault hself hmissing

theorem sortedOrder_of_valid (h : validateDag nodes = .valid sortedOrder) :
    sortedOrder = (kahn nodes).sortedOrder ∧ sortedOrder.length = nodes.length := by
  rw [validateDag_of_wellReferenced (wellReferenced_of_valid h)] at h
  split at h
  · cases h
  next hlength =>
    cases h
    exact ⟨rfl, not_not.1 hlength⟩

/-- The check decides what it is to decide if and only if the only ids between cycles are members of
cycles, or there is another fault. -/
theorem decides_iff (hnodup : (nodes.map (·.id)).Nodup) :
    Decides nodes ↔ (WellReferenced nodes → ∀ id, BetweenCycles nodes id → OnCycle nodes id) := by
  constructor
  · intro h hrefs id hbetween
    have ⟨above, _, habove, _⟩ := hbetween
    obtain ⟨ids, hids, hexact⟩ := h.cycle hrefs ⟨above, habove⟩
    obtain ⟨ids', hids', hbetweens⟩ := exists_cycle_result hnodup hrefs ⟨above, habove⟩
    cases hids.symm.trans hids'
    exact (hexact id).1 ((hbetweens id).2 hbetween)
  · refine fun h => ⟨⟨?_, fun ⟨hrefs, hacyclic⟩ => ?_⟩, fun order horder => ?_,
      fun before id after horder dep hdep => ?_, fun hrefs hcycle => ?_⟩
    · rintro ⟨order, horder⟩
      obtain ⟨rfl, hlength⟩ := sortedOrder_of_valid horder
      have hrefs := wellReferenced_of_valid horder
      exact ⟨hrefs, (length_sortedOrder_iff hnodup hrefs).1 hlength⟩
    · exact ⟨_, by rw [validateDag_of_wellReferenced hrefs,
        if_neg (not_not.2 ((length_sortedOrder_iff hnodup hrefs).2 hacyclic))]⟩
    · obtain ⟨rfl, hlength⟩ := sortedOrder_of_valid horder
      exact ((nodup_sortedOrder nodes).subperm fun id hid =>
        mem_nodeIds.1 (mem_sortedOrder.1 hid).1).perm_of_length_le
        (by rw [hlength, length_map])
    · exact (sorting_kahn nodes).follows before id after (sortedOrder_of_valid horder).1.symm dep
        (mem_needsOf.2 hdep)
    · obtain ⟨ids, hids, hbetweens⟩ := exists_cycle_result hnodup hrefs hcycle
      refine ⟨ids, hids, fun id => (hbetweens id).trans ⟨h hrefs id, fun honCycle => ?_⟩⟩
      exact ⟨id, id, honCycle, honCycle, honCycle, honCycle⟩

end

/-- Two cycles, of `a` and `b` and of `c` and `d`, and `m` between them. -/
def bridgedCycles : List DagNode :=
  [⟨js "a", [js "b"]⟩, ⟨js "b", [js "a"]⟩, ⟨js "m", [js "a"]⟩, ⟨js "c", [js "m", js "d"]⟩,
    ⟨js "d", [js "c"]⟩]

theorem decides_iff_bridged : Decides bridgedCycles ↔
    (WellReferenced bridgedCycles → ∀ id, BetweenCycles bridgedCycles id → OnCycle bridgedCycles id) :=
  decides_iff (by decide)

/-- The node between the two cycles is named as one on a cycle. -/
theorem exists_between_named : ¬ Decides bridgedCycles := by
  intro h
  have hrefs : WellReferenced bridgedCycles := ⟨by decide, by decide⟩
  have hbetween : BetweenCycles bridgedCycles (js "m") :=
    ⟨js "a", js "c", .tail (b := js "b") (.single (by decide)) (by decide),
      .tail (b := js "d") (.single (by decide)) (by decide), .single (by decide), .single (by decide)⟩
  have ⟨above, _, habove, _⟩ := hbetween
  obtain ⟨ids, hids, hexact⟩ := h.cycle hrefs ⟨_, habove⟩
  obtain ⟨ids', hids', hbetweens⟩ := exists_cycle_result (by decide) hrefs ⟨_, habove⟩
  cases hids.symm.trans hids'
  have hnamed := (hexact (js "m")).1 ((hbetweens _).2 hbetween)
  -- nothing but the second cycle needs what lies between
  have hdown : ∀ id, TransGen (NeededBy bridgedCycles) (js "m") id → id ∈ [js "c", js "d"] :=
    fun id hid => by
    induction hid with
    | single hneeded =>
      obtain ⟨node, hnode, rfl, hdep⟩ := hneeded
      revert node
      decide
    | tail _ hneeded ih =>
      obtain ⟨node, hnode, rfl, hdep⟩ := hneeded
      have hneeds : ∀ node ∈ bridgedCycles, ∀ dep ∈ [js "c", js "d"], dep ∈ node.needs →
          node.id ∈ [js "c", js "d"] := by decide
      exact hneeds node hnode _ ih hdep
  exact absurd (hdown _ hnamed) (by decide)

end Kici.Lock
