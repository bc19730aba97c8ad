import Kici.Foundation.Extremes
import Kici.Js.Str
import Mathlib.Data.Finset.Card

/-!
# Labels of scalers

To which label set a job is routed (`findBackendForLabels_exact`), and from which ones it may be
(`picks_eligible_iff`).
-/

namespace Kici.Scaler

open List Option

/-!
## Label sets of scalers

A job is routed to a label set of a scaler by its labels (`findBackendForLabels`): to the smallest
one that it *qualifies* for (`Qualifies`), the first of these in the order of the configuration. The
gate of the set is among the labels of the job, these are among those of the set, and none of the
labels that the job excludes is.

A job that names no label goes to the first set without a gate instead (`rank`), and what it
excludes is not looked at: the routing is exact (`findBackendForLabels_exact`) unless that first set
carries a label that is excluded.
-/

section

structure ScalerEntry where
  name : JsString
  labelSets : List (List JsString)
  /-- One gate for each label set. -/
  labelSetMandatoryLabels : Option (List (List JsString))
  deriving DecidableEq

structure BackendMatch where
  scalerName : JsString
  labelSetIndex : ℕ
  deriving DecidableEq

/-- The gate of a label set; none of the sets of a scaler has one if there is not one for each. -/
def gateForLabelSet (scaler : ScalerEntry) (index : ℕ) : Option (List JsString) :=
  match scaler.labelSetMandatoryLabels with
  | none => some []
  | some perSet => if perSet.length ≠ scaler.labelSets.length then none
    else some (perSet[index]?.getD [])

/-- The label sets of the scalers, in the order of the configuration. -/
def entries (scalers : List ScalerEntry) : List (ScalerEntry × ℕ) :=
  scalers.flatMap fun scaler => (List.range scaler.labelSets.length).map fun i => (scaler, i)

def matchOf (entry : ScalerEntry × ℕ) : BackendMatch where
  scalerName := entry.1.name
  labelSetIndex := entry.2

def ungated (entry : ScalerEntry × ℕ) : Bool :=
  decide ((gateForLabelSet entry.1 entry.2).map List.length = some 0)

section

variable (toLowerCase : JsString → JsString)

def lowercased (labels : List JsString) : Finset JsString := (labels.map toLowerCase).toFinset

/-- The labels of a label set. -/
def carried (entry : ScalerEntry × ℕ) : Finset JsString :=
  lowercased toLowerCase (entry.1.labelSets[entry.2]?.getD [])

def acceptingLabelSet (entry : ScalerEntry × ℕ) (target : Finset JsString) : Option (Finset JsString) :=
  match gateForLabelSet entry.1 entry.2 with
  | none => none
  | some mandatory =>
    if !mandatory.all fun m => toLowerCase m ∈ target then none
    else if ∀ label ∈ target, label ∈ carried toLowerCase entry then some (carried toLowerCase entry)
    else none

/-- What the scan of the label sets keeps: the best so far with its size. -/
def considerEntry (target : Finset JsString) (excludeLabels : List JsString)
    (bestMatch : Option (BackendMatch × ℕ)) (entry : ScalerEntry × ℕ) : Option (BackendMatch × ℕ) :=
  match acceptingLabelSet toLowerCase entry target with
  | none => bestMatch
  | some scalerLabels =>
    if excludeLabels.any fun e => toLowerCase e ∈ scalerLabels then bestMatch
    else
      match bestMatch with
      | none => some (matchOf entry, scalerLabels.card)
      | some best => if scalerLabels.card < best.2 then some (matchOf entry, scalerLabels.card)
        else some best

def findBackendForLabels (labels : List JsString) (scalers : List ScalerEntry)
    (excludeLabels : List JsString) : Option BackendMatch :=
  let targetLabels := lowercased toLowerCase labels
  if targetLabels.card = 0 then ((entries scalers).find? ungated).map matchOf
  else ((entries scalers).foldl (considerEntry toLowerCase targetLabels excludeLabels) none).map Prod.fst

/-- The job may go to the label set: the gate of the set is among its labels, these are carried by
the set, and none that it excludes is. -/
def Qualifies (labels excludeLabels : List JsString) (entry : ScalerEntry × ℕ) : Prop :=
  (∃ mandatory, gateForLabelSet entry.1 entry.2 = some mandatory ∧
    ∀ m ∈ mandatory, toLowerCase m ∈ lowercased toLowerCase labels) ∧
  (∀ label ∈ labels, toLowerCase label ∈ carried toLowerCase entry) ∧
  ∀ e ∈ excludeLabels, toLowerCase e ∉ carried toLowerCase entry

instance (labels excludeLabels : List JsString) (entry : ScalerEntry × ℕ) :
    Decidable (Qualifies toLowerCase labels excludeLabels entry) :=
  have : Decidable (∃ mandatory, gateForLabelSet entry.1 entry.2 = some mandatory ∧
      ∀ m ∈ mandatory, toLowerCase m ∈ lowercased toLowerCase labels) :=
    match gateForLabelSet entry.1 entry.2 with
    | none => .isFalse fun ⟨_, h, _⟩ => nomatch h
    | some mandatory => decidable_of_iff (∀ m ∈ mandatory, toLowerCase m ∈ lowercased toLowerCase labels)
        ⟨fun h => ⟨mandatory, rfl, h⟩, fun ⟨_, h, hall⟩ => some.inj h ▸ hall⟩
  inferInstanceAs (Decidable (_ ∧ _ ∧ _))

/-- The number of labels of a label set. -/
def size (entry : ScalerEntry × ℕ) : ℕ := (carried toLowerCase entry).card

/-- What the label sets are compared by: the sets that a job without labels may go to are all
alike. -/
def rank (labels : List JsString) (entry : ScalerEntry × ℕ) : ℕ :=
  if labels = [] then 0 else size toLowerCase entry

/-- The result is the first of the smallest sets that the job qualifies for, if there is one. -/
structure RoutesExactly (labels excludeLabels : List JsString) (scalers : List ScalerEntry)
    (rank : ScalerEntry × ℕ → ℕ) (result : Option BackendMatch) : Prop where
  found : ∀ found, result = some found ↔ ∃ entry, FirstSmallest
    (fun entry => decide (Qualifies toLowerCase labels excludeLabels entry)) rank
      (entries scalers) entry ∧
      matchOf entry = found
  missing : result = none ↔ ∀ entry ∈ entries scalers, ¬Qualifies toLowerCase labels excludeLabels entry

end

variable {toLowerCase : JsString → JsString} {labels excludeLabels : List JsString}
  {scalers : List ScalerEntry} {entry : ScalerEntry × ℕ}

theorem mem_lowercased {x : JsString} :
    x ∈ lowercased toLowerCase labels ↔ ∃ label ∈ labels, toLowerCase label = x := by
  simp [lowercased]

theorem lowercased_card_eq_zero : (lowercased toLowerCase labels).card = 0 ↔ labels = [] := by
  simp [lowercased]

theorem carried_of_target : (∀ x ∈ lowercased toLowerCase labels, x ∈ carried toLowerCase entry) ↔
    ∀ label ∈ labels, toLowerCase label ∈ carried toLowerCase entry := by
  refine ⟨fun h label hmem => h _ (mem_lowercased.2 ⟨label, hmem, rfl⟩), fun h x hx => ?_⟩
  obtain ⟨label, hmem, rfl⟩ := mem_lowercased.1 hx
  exact h label hmem

/-- A label set is accepted if and only if it is one that the job qualifies for, its exclusions
apart. -/
theorem acceptingLabelSet_eq (toLowerCase : JsString → JsString) (labels : List JsString)
    (entry : ScalerEntry × ℕ) :
    acceptingLabelSet toLowerCase entry (lowercased toLowerCase labels) =
      if Qualifies toLowerCase labels [] entry then some (carried toLowerCase entry) else none := by
  cases hgate : gateForLabelSet entry.1 entry.2 with
  | none => simp [acceptingLabelSet, Qualifies, hgate]
  | some mandatory =>
    by_cases hall : ∀ m ∈ mandatory, toLowerCase m ∈ lowercased toLowerCase labels
    · have hgates : (mandatory.all fun m => decide (toLowerCase m ∈ lowercased toLowerCase labels)) := by
        simpa using hall
      have hiff : Qualifies toLowerCase labels [] entry ↔
          ∀ label ∈ lowercased toLowerCase labels, label ∈ carried toLowerCase entry := by
        rw [carried_of_target]
        exact ⟨fun h => h.2.1, fun h => ⟨⟨mandatory, hgate, hall⟩, h, nofun⟩⟩
      simp only [acceptingLabelSet, hgate, hgates, hiff, Bool.not_true, Bool.false_eq_true, if_false]
    · have hgates : (mandatory.all fun m => decide (toLowerCase m ∈ lowercased toLowerCase labels)) =
        false := by
        simpa using hall
      have hnot : ¬Qualifies toLowerCase labels [] entry := by
        rintro ⟨⟨gate, heq, hmem⟩, -⟩
        rw [hgate] at heq
        exact hall (some.inj heq ▸ hmem)
      simp [acceptingLabelSet, hgate, hgates, hnot]

theorem qualifies_iff : Qualifies toLowerCase labels excludeLabels entry ↔
    Qualifies toLowerCase labels [] entry ∧ ∀ e ∈ excludeLabels,
    toLowerCase e ∉ carried toLowerCase entry := by
  simp [Qualifies, and_assoc]

/-- The best match with its size. -/
def withSize (toLowerCase : JsString → JsString) (entry : ScalerEntry × ℕ) : BackendMatch × ℕ :=
  (matchOf entry, size toLowerCase entry)

/-- The scan keeps the smaller one of the sets that the job qualifies for. -/
theorem considerEntry_eq (best : Option (ScalerEntry × ℕ)) (entry : ScalerEntry × ℕ) :
    considerEntry toLowerCase (lowercased toLowerCase labels) excludeLabels
    (best.map (withSize toLowerCase)) entry =
      (keepSmaller (fun entry => decide (Qualifies toLowerCase labels excludeLabels entry))
        (size toLowerCase) best entry).map (withSize toLowerCase) := by
  rw [considerEntry, acceptingLabelSet_eq]
  by_cases haccept : Qualifies toLowerCase labels [] entry
  · by_cases hexclude : ∀ e ∈ excludeLabels, toLowerCase e ∉ carried toLowerCase entry
    · have hq : Qualifies toLowerCase labels excludeLabels entry := qualifies_iff.2 ⟨haccept, hexclude⟩
      have hany : (excludeLabels.any fun e => decide (toLowerCase e ∈ carried toLowerCase entry)) =
        false := by
        simpa using hexclude
      rw [if_pos haccept]
      cases best with
      | none =>
        rw [keepSmaller_none (by simpa using hq)]
        simp [hany, withSize, size]
      | some best =>
        rw [keepSmaller_some (by simpa using hq)]
        by_cases hlt : (carried toLowerCase entry).card < (carried toLowerCase best).card
        · simp [hany, withSize, size, hlt]
        · simp [hany, withSize, size, hlt]
    · have hq : ¬Qualifies toLowerCase labels excludeLabels entry := fun h =>
        hexclude (qualifies_iff.1 h).2
      have hany : (excludeLabels.any fun e => decide (toLowerCase e ∈ carried toLowerCase entry)) := by
        simpa using hexclude
      rw [keepSmaller_of_false (by simpa using hq), if_pos haccept]
      simp [hany]
  · have hq : ¬Qualifies toLowerCase labels excludeLabels entry := fun h => haccept (qualifies_iff.1 h).1
    rw [keepSmaller_of_false (by simpa using hq), if_neg haccept]

theorem foldl_considerEntry (best : Option (ScalerEntry × ℕ)) (l : List (ScalerEntry × ℕ)) :
    l.foldl (considerEntry toLowerCase (lowercased toLowerCase labels) excludeLabels)
        (best.map (withSize toLowerCase)) =
      (l.foldl (keepSmaller (fun entry => decide (Qualifies toLowerCase labels excludeLabels entry))
        (size toLowerCase)) best).map (withSize toLowerCase) := by
  induction l generalizing best with
  | nil => rfl
  | cons entry l ih => rw [foldl_cons, foldl_cons, considerEntry_eq, ih]

/-- A job that names labels goes to what the scan finds. -/
theorem findBackendForLabels_of_ne_nil (h : labels ≠ []) :
    findBackendForLabels toLowerCase labels scalers excludeLabels =
      (smallest (fun entry => decide (Qualifies toLowerCase labels excludeLabels entry))
        (rank toLowerCase labels) (entries scalers)).map matchOf := by
  have hrank : rank toLowerCase labels = size toLowerCase := funext fun entry => if_neg h
  have hcard : ¬(lowercased toLowerCase labels).card = 0 := fun hcard =>
    h (lowercased_card_eq_zero.1 hcard)
  rw [findBackendForLabels, if_neg hcard, hrank]
  have hfold : (entries scalers).foldl
    (considerEntry toLowerCase (lowercased toLowerCase labels) excludeLabels) none =
      (smallest (fun entry => decide (Qualifies toLowerCase labels excludeLabels entry))
        (size toLowerCase)
        (entries scalers)).map (withSize toLowerCase) := foldl_considerEntry none (entries scalers)
  rw [hfold, Option.map_map]
  rfl

/-- A job without labels qualifies for the sets without a gate that do not carry what it excludes. -/
theorem qualifies_nil_iff : Qualifies toLowerCase [] excludeLabels entry ↔
    ungated entry ∧ ∀ e ∈ excludeLabels, toLowerCase e ∉ carried toLowerCase entry := by
  cases hgate : gateForLabelSet entry.1 entry.2 with
  | none => simp [Qualifies, ungated, hgate]
  | some mandatory =>
    cases mandatory with
    | nil => simp [Qualifies, ungated, hgate]
    | cons m mandatory =>
      have hnot : ¬Qualifies toLowerCase [] excludeLabels entry := by
        rintro ⟨⟨gate, heq, hall⟩, -⟩
        rw [hgate] at heq
        cases heq
        simpa [lowercased] using hall m mem_cons_self
      simp [ungated, hgate, hnot]

/-- A job without labels goes to the first set that it qualifies for, unless it excludes what an
earlier one without a gate carries. -/
theorem findBackendForLabels_nil (h : ∀ entry, (entries scalers).find? ungated = some entry →
      ∀ e ∈ excludeLabels, toLowerCase e ∉ carried toLowerCase entry) :
    findBackendForLabels toLowerCase [] scalers excludeLabels =
      (smallest (fun entry => decide (Qualifies toLowerCase [] excludeLabels entry))
        (rank toLowerCase []) (entries scalers)).map matchOf := by
  have hrank : rank toLowerCase [] = fun _ => 0 := funext fun entry => if_pos rfl
  rw [findBackendForLabels, if_pos (lowercased_card_eq_zero.2 rfl), hrank, smallest_const]
  refine congrArg (Option.map matchOf) (find?_eq_find?_of_imp (fun entry hq => ?_) fun entry hfind => ?_)
  · exact (qualifies_nil_iff.1 (of_decide_eq_true hq)).1
  · exact decide_eq_true (qualifies_nil_iff.2 ⟨find?_some hfind, h entry hfind⟩)

/-- The first of the smallest sets that the job qualifies for is the exact result. -/
theorem routesExactly_smallest (rank : ScalerEntry × ℕ → ℕ) :
    RoutesExactly toLowerCase labels excludeLabels scalers rank
      ((smallest (fun entry => decide (Qualifies toLowerCase labels excludeLabels entry)) rank
        (entries scalers)).map matchOf) where
  found found := by
    rw [map_eq_some_iff]
    exact exists_congr fun entry => and_congr_left fun _ => smallest_eq_some_iff
  missing := by
    rw [map_eq_none_iff, smallest_eq_none_iff]
    exact forall₂_congr fun entry _ => decide_eq_false_iff_not

/-- A job goes to the smallest label set that it qualifies for, the first of these in the
configuration, or to the first one if it names no label; and nowhere if it qualifies for none. The
first set without a gate may not carry what a job without labels excludes. -/
theorem findBackendForLabels_exact (toLowerCase : JsString → JsString)
    (labels excludeLabels : List JsString)
    (scalers : List ScalerEntry)
    (h : labels = [] → ∀ entry, (entries scalers).find? ungated = some entry →
      ∀ e ∈ excludeLabels, toLowerCase e ∉ carried toLowerCase entry) :
    RoutesExactly toLowerCase labels excludeLabels scalers (rank toLowerCase labels)
      (findBackendForLabels toLowerCase labels scalers excludeLabels) := by
  by_cases hlabels : labels = []
  · subst hlabels
    rw [findBackendForLabels_nil (h rfl)]
    exact routesExactly_smallest _
  · rw [findBackendForLabels_of_ne_nil hlabels]
    exact routesExactly_smallest _

/-- A scaler with two label sets without gates. -/
def plainScaler : ScalerEntry where
  name := js "docker"
  labelSets := [[js "linux", js "docker"], [js "linux"]]
  labelSetMandatoryLabels := none

theorem findBackendForLabels_exact_docker : RoutesExactly id [] [js "gpu"] [plainScaler] (rank id [])
    (findBackendForLabels id [] [plainScaler] [js "gpu"]) :=
  findBackendForLabels_exact id [] [js "gpu"] [plainScaler] fun _ entry hfind => by
    obtain rfl : (plainScaler, 0) = entry := some.inj (hfind ▸ by decide)
    decide

/-- The match names a set that the job does not qualify for, or that is larger than another one. -/
theorem not_routesExactly {rank : ScalerEntry × ℕ → ℕ} {found : BackendMatch}
    (h : ∀ entry ∈ entries scalers, matchOf entry = found →
      Qualifies toLowerCase labels excludeLabels entry →
      ∃ other ∈ entries scalers, Qualifies toLowerCase labels excludeLabels other ∧
      rank other < rank entry) :
    ¬RoutesExactly toLowerCase labels excludeLabels scalers rank (some found) := by
  rintro ⟨hfound, -⟩
  obtain ⟨entry, hfirst, hmatch⟩ := (hfound found).1 rfl
  obtain ⟨other, hmem, hother, hlt⟩ := h entry hfirst.mem hmatch (of_decide_eq_true hfirst.1)
  exact absurd (hfirst.le hmem (decide_eq_true hother)) (not_le_of_gt hlt)

/-- A job that names no label goes to the first set without a gate: though a later one is smaller,
and though it carries a label that is excluded. -/
theorem exists_not_smallest : ¬RoutesExactly id [] [] [plainScaler] (size id)
      (findBackendForLabels id [] [plainScaler] []) ∧
    ¬RoutesExactly id [] [js "docker"] [plainScaler] (size id)
      (findBackendForLabels id [] [plainScaler] [js "docker"]) := by
  have hfirst : findBackendForLabels id [] [plainScaler] [] = some ⟨js "docker", 0⟩ := by decide
  have hexcluded : findBackendForLabels id [] [plainScaler] [js "docker"] = some
    ⟨js "docker", 0⟩ := by decide
  rw [hfirst, hexcluded]
  exact ⟨not_routesExactly (by decide), not_routesExactly (by decide)⟩

end

/-!
## The label sets a job may be spawned from

Before a job is routed it is asked which label sets could take it (`findEligibleBackendsForLabels`):
those that accept the labels of the job. When it is routed it may bring *extra* labels, which its
runtime demands, and so goes to a set that carries these too. Such a set is one of those asked for,
unless an extra label is what its gate asks for: the job alone does not pass that gate
(`GateAmong`), so that the set was left out (`picks_eligible_iff`).
-/

section

section

variable (toLowerCase : JsString → JsString)

/-- Every label set that accepts the labels, in the order of the configuration. -/
def findEligibleBackendsForLabels (labels : List JsString) (scalers : List ScalerEntry) :
    List BackendMatch :=
  let targetLabels := lowercased toLowerCase labels
  (entries scalers).foldl (fun eligible entry =>
    if (acceptingLabelSet toLowerCase entry targetLabels).isSome then eligible ++ [matchOf entry]
      else eligible) []

/-- The gate of the label set is among the labels. -/
def GateAmong (labels : List JsString) (entry : ScalerEntry × ℕ) : Prop :=
  ∃ mandatory, gateForLabelSet entry.1 entry.2 = some mandatory ∧
    ∀ m ∈ mandatory, toLowerCase m ∈ lowercased toLowerCase labels

/-- Of the label sets that the labels with the extra ones qualify for, the first of the smallest has
its gate among the labels alone; or its scaler has a namesake, which they qualify for at the same
index. A job with no label at all may go to sets without a gate only. -/
def GatePassedAlone (labels extraLabels excludeLabels : List JsString) (scalers : List ScalerEntry) :
    Prop :=
  labels ++ extraLabels = [] ∨ ∀ entry,
    FirstSmallest (fun entry =>
      decide (Qualifies toLowerCase (labels ++ extraLabels) excludeLabels entry))
      (size toLowerCase) (entries scalers) entry →
    GateAmong toLowerCase labels entry ∨
      ∃ other ∈ entries scalers, other ≠ entry ∧ matchOf other = matchOf entry ∧
        Qualifies toLowerCase labels [] other

end

variable {toLowerCase : JsString → JsString} {labels extraLabels excludeLabels : List JsString}
  {scalers : List ScalerEntry} {entry : ScalerEntry × ℕ} {found : BackendMatch}

/-- The eligible label sets are those that the labels qualify for. -/
theorem mem_findEligibleBackendsForLabels :
    found ∈ findEligibleBackendsForLabels toLowerCase labels scalers ↔
    ∃ entry ∈ entries scalers, Qualifies toLowerCase labels [] entry ∧ matchOf entry = found := by
  have hfold : ∀ (l : List (ScalerEntry × ℕ)) (eligible : List BackendMatch),
      l.foldl (fun eligible entry =>
        if (acceptingLabelSet toLowerCase entry (lowercased toLowerCase labels)).isSome
        then eligible ++ [matchOf entry] else eligible) eligible =
      eligible ++ (l.filter fun entry => decide (Qualifies toLowerCase labels [] entry)).map
        matchOf := by
    intro l
    induction l with
    | nil => simp
    | cons entry l ih =>
      intro eligible
      rw [foldl_cons, ih, acceptingLabelSet_eq]
      by_cases hq : Qualifies toLowerCase labels [] entry
      · simp [hq]
      · simp [hq]
  rw [findEligibleBackendsForLabels, hfold]
  simp only [nil_append, List.mem_map, mem_filter, decide_eq_true_eq, and_assoc]

/-- What takes the labels with the extra ones takes the labels alone, if these pass its gate. -/
theorem qualifies_of_append (h : Qualifies toLowerCase (labels ++ extraLabels) excludeLabels entry) :
    Qualifies toLowerCase labels [] entry ↔ GateAmong toLowerCase labels entry :=
  ⟨fun hq => hq.1, fun hgate => ⟨hgate, fun label hmem => h.2.1 label (mem_append_left _ hmem),
    nofun⟩⟩

/-- A job without labels is given a set that is eligible. -/
theorem pick_eligible_nil (h : findBackendForLabels toLowerCase [] scalers excludeLabels = some found) :
    found ∈ findEligibleBackendsForLabels toLowerCase [] scalers := by
  rw [findBackendForLabels, if_pos (lowercased_card_eq_zero.2 rfl), map_eq_some_iff] at h
  obtain ⟨entry, hfind, hmatch⟩ := h
  refine mem_findEligibleBackendsForLabels.2 ⟨entry, mem_of_find?_eq_some hfind, ?_, hmatch⟩
  exact qualifies_nil_iff.2 ⟨find?_some hfind, nofun⟩

/-- A job that names labels goes to the first of the smallest sets that it qualifies for. -/
theorem pick_iff (h : labels ≠ []) : findBackendForLabels toLowerCase labels scalers excludeLabels =
    some found ↔
    ∃ entry, FirstSmallest (fun entry => decide (Qualifies toLowerCase labels excludeLabels entry))
    (size toLowerCase)
      (entries scalers) entry ∧ matchOf entry = found := by
  have hrank : rank toLowerCase labels = size toLowerCase := by
    funext entry
    exact if_neg h
  rw [findBackendForLabels_of_ne_nil h, hrank, map_eq_some_iff]
  exact exists_congr fun entry => and_congr_left fun _ => smallest_eq_some_iff

/-- Every set that a job may be given for its labels with some extra ones is eligible for the labels
alone, if and only if the labels alone pass the gate of the one it would be given. -/
theorem picks_eligible_iff (toLowerCase : JsString → JsString)
    (labels extraLabels excludeLabels : List JsString) (scalers : List ScalerEntry) :
    (∀ found, findBackendForLabels toLowerCase (labels ++ extraLabels) scalers excludeLabels =
      some found → found ∈ findEligibleBackendsForLabels toLowerCase labels scalers) ↔
      GatePassedAlone toLowerCase labels extraLabels excludeLabels scalers := by
  by_cases hnil : labels ++ extraLabels = []
  · obtain ⟨rfl, rfl⟩ := append_eq_nil_iff.1 hnil
    exact ⟨fun _ => .inl rfl, fun _ found hfound => pick_eligible_nil hfound⟩
  · constructor
    · intro h
      refine .inr fun entry hfirst => ?_
      have hq := of_decide_eq_true hfirst.1
      obtain ⟨other, hmem, hother, hmatch⟩ :=
        mem_findEligibleBackendsForLabels.1 (h _ ((pick_iff hnil).2 ⟨entry, hfirst, rfl⟩))
      by_cases heq : other = entry
      · exact .inl ((qualifies_of_append hq).1 (heq ▸ hother))
      · exact .inr ⟨other, hmem, heq, hmatch, hother⟩
    · rintro (hempty | h) found hfound
      · exact absurd hempty hnil
      obtain ⟨entry, hfirst, rfl⟩ := (pick_iff hnil).1 hfound
      have hq := of_decide_eq_true hfirst.1
      rcases h entry hfirst with hgate | ⟨other, hmem, -, hmatch, hother⟩
      · exact mem_findEligibleBackendsForLabels.2
          ⟨entry, hfirst.mem, (qualifies_of_append hq).2 hgate, rfl⟩
      · exact mem_findEligibleBackendsForLabels.2 ⟨other, hmem, hother, hmatch⟩

/-- A scaler whose only label set is gated on a label that a job may get from its runtime. -/
def gatedScaler : ScalerEntry where
  name := js "docker"
  labelSets := [[js "linux", js "gpu"]]
  labelSetMandatoryLabels := some [[js "gpu"]]

/-- The extra label opens the gate: the job goes to a set that was not among the eligible ones. -/
theorem exists_pick_not_eligible :
    findBackendForLabels id ([js "linux"] ++ [js "gpu"]) [gatedScaler] [] = some ⟨js "docker", 0⟩ ∧
      (⟨js "docker", 0⟩ : BackendMatch) ∉ findEligibleBackendsForLabels id [js "linux"]
      [gatedScaler] := by
  decide

end

end Kici.Scaler
