import Kici.Js.Str

/-!
# Approval clauses

A requirement to hold work for is a list of clauses, each a team or a user (`ApproverClause`). A
clause is satisfied by an approve of somebody who is eligible for it; the requirement by approves
for all clauses, or by any approve where it has none, unless somebody has rejected (`evaluate`). An
actor may approve who is eligible for a clause that is still open (`canApprove`): when all are
satisfied, nobody may (`canApprove_of_satisfied`).
-/

namespace Kici.Approvals

open List

inductive ApproverClause
  | team (team : JsString)
  | user (user : JsString)
  deriving DecidableEq

structure ApprovalRequirement where
  clauses : List ApproverClause

inductive ApprovalDecision
  | approve
  | reject
  deriving DecidableEq

/-- A row of `held_run_approvals`, as far as it is evaluated. -/
structure RecordedDecision where
  approverUserId : JsString
  decision : ApprovalDecision

/-- The teams, with the ids of their members. -/
abbrev TeamDirectory := List (JsString × List JsString)

/-- The members of a team: the directory is read into a map, in which a later entry of a name
replaces an earlier. -/
def TeamDirectory.getTeamMembers (directory : TeamDirectory) (team : JsString) : List JsString :=
  (directory.reverse.find? fun entry => entry.1 = team).elim [] (·.2)

variable (lookup : TeamDirectory) (decisions : List RecordedDecision)

/-- Team membership or exact user match. -/
def isActorEligibleForClause (actorSub : JsString) : ApproverClause → Bool
  | .team team => (lookup.getTeamMembers team).contains actorSub
  | .user user => user = actorSub

/-- The decision is an approve of somebody who is eligible for the clause. -/
def meets (clause : ApproverClause) (d : RecordedDecision) : Bool :=
  d.decision = .approve && isActorEligibleForClause lookup d.approverUserId clause

/-- The approver who first satisfied a clause, if any. -/
def clauseSatisfiedBy (clause : ApproverClause) : Option JsString :=
  (decisions.find? (meets lookup clause)).map (·.approverUserId)

structure PerClauseResult where
  clause : ApproverClause
  satisfied : Bool
  satisfiedBy : Option JsString

structure EvaluationResult where
  satisfied : Bool
  rejected : Bool
  perClause : List PerClauseResult

/-- What the decisions come to: a single reject fails the element, and without clauses any approve
will do. -/
def evaluate (requirement : ApprovalRequirement) : EvaluationResult :=
  let rejected := decisions.any (·.decision = .reject)
  if requirement.clauses.length = 0 then
    ⟨!rejected && decisions.any (·.decision = .approve), rejected, []⟩
  else
    let perClause := requirement.clauses.map fun clause =>
      let satisfiedBy := clauseSatisfiedBy lookup decisions clause
      ⟨clause, satisfiedBy.isSome, satisfiedBy⟩
    ⟨!rejected && perClause.all (·.satisfied), rejected, perClause⟩

structure CanApproveContext where
  triggererSub : JsString
  allowSelfApproval : Bool

/-- Whether the actor may approve: not the run's own triggerer, unless that is allowed, and only
where it adds to what is satisfied. -/
def canApprove (actorSub : JsString) (requirement : ApprovalRequirement) (ctx : CanApproveContext) :
    Bool :=
  if !ctx.allowSelfApproval && actorSub = ctx.triggererSub then false
  else if requirement.clauses.length = 0 then true
  else (evaluate lookup decisions requirement).perClause.any fun c =>
    !c.satisfied && isActorEligibleForClause lookup actorSub c.clause

variable {lookup decisions} {requirement : ApprovalRequirement} {clause : ApproverClause}
  {d : RecordedDecision}

theorem isSome_clauseSatisfiedBy_iff :
    (clauseSatisfiedBy lookup decisions clause).isSome ↔ ∃ d ∈ decisions, meets lookup clause d := by
  rw [clauseSatisfiedBy, Option.isSome_map, find?_isSome]

/-- The requirement is satisfied: nobody has rejected, and each clause has an approve, or there are
no clauses and there is an approve. -/
theorem satisfied_iff : (evaluate lookup decisions requirement).satisfied ↔
    (∀ d ∈ decisions, d.decision ≠ .reject) ∧
      (requirement.clauses = [] → ∃ d ∈ decisions, d.decision = .approve) ∧
      ∀ clause ∈ requirement.clauses, ∃ d ∈ decisions, meets lookup clause d := by
  have hrejected : (!decisions.any (·.decision = .reject)) ↔ ∀ d ∈ decisions, d.decision ≠ .reject := by
    rw [Bool.not_eq_true', any_eq_false]
    simp only [decide_eq_true_eq, ne_eq]
  rw [evaluate]
  split
  next hnone =>
    rw [length_eq_zero_iff] at hnone
    dsimp only
    rw [Bool.and_eq_true, hrejected, any_eq_true]
    simp [hnone]
  next hsome =>
    have hne : requirement.clauses ≠ [] := fun h => hsome (length_eq_zero_iff.2 h)
    dsimp only
    rw [Bool.and_eq_true, hrejected, all_map, all_eq_true]
    simp only [Function.comp_apply, isSome_clauseSatisfiedBy_iff, hne, false_implies, true_and]

/-- More approves satisfy what fewer do. -/
theorem satisfied_of_subset {decisions' : List RecordedDecision}
    (h : (evaluate lookup decisions requirement).satisfied) (hsub : ∀ d ∈ decisions, d ∈ decisions')
    (hno : ∀ d ∈ decisions', d.decision ≠ .reject) :
    (evaluate lookup decisions' requirement).satisfied := by
  obtain ⟨-, hany, hall⟩ := satisfied_iff.1 h
  refine satisfied_iff.2 ⟨hno, fun hnone => ?_, fun clause hmem => ?_⟩
  · obtain ⟨d, hd, happroves⟩ := hany hnone
    exact ⟨d, hsub d hd, happroves⟩
  · obtain ⟨d, hd, hmeets⟩ := hall clause hmem
    exact ⟨d, hsub d hd, hmeets⟩

/-- When all clauses are satisfied, nobody may approve any more. -/
theorem canApprove_of_satisfied (h : (evaluate lookup decisions requirement).satisfied)
    (hclauses : requirement.clauses ≠ []) (actorSub : JsString) (ctx : CanApproveContext) :
    canApprove lookup decisions actorSub requirement ctx = false := by
  have hlength : ¬ requirement.clauses.length = 0 := fun hzero => hclauses (length_eq_zero_iff.1 hzero)
  rw [canApprove]
  split
  · rfl
  · have hnone : (evaluate lookup decisions requirement).perClause =
      requirement.clauses.map fun clause =>
        ⟨clause, (clauseSatisfiedBy lookup decisions clause).isSome,
          clauseSatisfiedBy lookup decisions clause⟩ := by
      rw [evaluate, if_neg hlength]
    rw [hnone, any_map, any_eq_false]
    intro clause hmem
    have hsatisfied := isSome_clauseSatisfiedBy_iff.2 ((satisfied_iff.1 h).2.2 clause hmem)
    simp [hsatisfied]

end Kici.Approvals
