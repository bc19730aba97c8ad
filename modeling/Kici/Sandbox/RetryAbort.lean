import Kici.Sandbox.StepWalk

/-!
# Retries once the job is over

A job is over when its deadline fires or a message aborts it. `runStepWithRetry` does not ask: it
goes by how the last attempt ended. The deadline ends an attempt as an ordinary failure, and a
message only reaches the body, so that the attempt is retried after the whole delay; and the body of
an attempt starts before the race looks at the signals (`exists_attempt_once_over`).

No attempt starts and no delay is waited out once the job is over if and only if it is over in an
attempt that is not retried, or not before the step is (`stopsOnceOver_iff`).
-/

namespace Kici

inductive JobOver
  | deadline
  /-- A message, or the signal that ends the process. -/
  | abort
  deriving DecidableEq

/-- When the job is over. -/
inductive OverMoment
  | beforeFirst
  | inAttempt (n : ℕ)
  /-- In the delay after the attempt. -/
  | inDelay (n : ℕ)
  deriving DecidableEq

inductive Backoff
  | fixed
  | exponential

/-- What settles the race of an attempt. -/
inductive RaceEnd
  | body (outcome : BodyOutcome)
  | timeout
  | jobDeadline
  | stepAbort

def RaceEnd.status : RaceEnd → ExecutionStepStatus
  | .body outcome => outcome.status
  | .timeout | .jobDeadline => .failed
  | .stepAbort => .cancelled

/-- A step with its policy, and what it meets; attempts are numbered from 1. -/
structure RetryRun where
  step : Step
  delayMs : ℕ := 1000
  backoff : Backoff := .exponential
  maxDelayMs : ℕ := 30000
  retryIf : ℕ → Bool := fun _ => true
  /-- How the body of an attempt settles, if it does before it waits. -/
  settled : ℕ → Option BodyOutcome := fun _ => none
  raceEnd : ℕ → RaceEnd
  /-- Whether the signal of the step is aborted when an attempt starts. -/
  stepAborted : ℕ → Bool := fun _ => false
  cause : JobOver
  moment : OverMoment

inductive RetryEvent
  /-- The body of the step is called. -/
  | start (n : ℕ)
  | finish (n : ℕ) (status : ExecutionStepStatus)
  /-- A delay has been waited out. -/
  | delay (ms : ℕ)
  | jobOver
  deriving DecidableEq

namespace RetryRun

variable (run : RetryRun)

def computeBackoffDelay (attempt : ℕ) : ℕ :=
  match run.backoff with
  | .fixed => run.delayMs
  | .exponential => min (run.delayMs * 2 ^ (attempt - 1)) run.maxDelayMs

/-- Whether the job is over when an attempt starts. -/
def isOver (n : ℕ) : Bool :=
  match run.moment with
  | .beforeFirst => true
  | .inAttempt k | .inDelay k => k < n

/-- An attempt: what is settled already counts in the order of the race. -/
def executeStepInLoop (n : ℕ) : ExecutionStepStatus :=
  match run.settled n with
  | some outcome => outcome.status
  | none =>
    if run.cause = .deadline ∧ run.isOver n = true then .failed
    else if run.stepAborted n = true then .cancelled
    else (run.raceEnd n).status

/-- An attempt is followed by another one. -/
def Retried (n : ℕ) : Prop :=
  run.executeStepInLoop n = .failed ∧ n < run.step.maxAttempts ∧ run.retryIf n = true

instance (n : ℕ) : Decidable (run.Retried n) := inferInstanceAs (Decidable (_ ∧ _))

/-- The end of the job, if this is its moment. -/
def overAt (moment : OverMoment) : List RetryEvent := if run.moment = moment then [.jobOver] else []

/-- What happens from an attempt on, with so many that are allowed. -/
def logFrom : (left n : ℕ) → List RetryEvent
  | 0, _ => []
  | left + 1, n =>
    .start n :: (run.overAt (.inAttempt n) ++ .finish n (run.executeStepInLoop n) ::
      if run.Retried n then run.overAt (.inDelay n) ++ .delay (run.computeBackoffDelay n) ::
        logFrom left (n + 1)
      else [])

def runStepWithRetry : List RetryEvent := run.overAt .beforeFirst ++ run.logFrom run.step.maxAttempts 1

end RetryRun

/-- Once the job is over no attempt starts, and no delay is waited out. -/
def StopsOnceOver : List RetryEvent → Prop
  | [] => True
  | .jobOver :: after => ∀ e ∈ after, (∀ n, e ≠ .start n) ∧ ∀ ms, e ≠ .delay ms
  | _ :: after => StopsOnceOver after

namespace RetryRun

variable {run : RetryRun} {left n : ℕ}

/-- The attempt is made: those before it were retried. -/
def Reached (run : RetryRun) (n : ℕ) : Prop :=
  n ≤ run.step.maxAttempts ∧ ∀ k, 1 ≤ k → k < n → run.Retried k

/-- The attempts end as in the walk of the job. -/
theorem finishes_logFrom (child : IndexedStep) (hchild : child.step = run.step)
    (attempts : List ExecutionStepStatus) (hn : n = attempts.length + 1) :
    attempts ++ (run.logFrom left n).filterMap (fun | .finish _ status => some status | _ => none) =
      child.retryFrom { attempt := run.executeStepInLoop, retryIf := run.retryIf } left attempts := by
  induction left generalizing n attempts with
  | zero => simp [logFrom, IndexedStep.retryFrom]
  | succ left ih =>
    subst hn
    have hover : ∀ moment, (run.overAt moment).filterMap
        (fun | .finish _ status => some status | _ => none) = ([] : List ExecutionStepStatus) := by
      intro moment
      unfold overAt
      split <;> rfl
    rw [logFrom, IndexedStep.retryFrom, hchild]
    by_cases hretried : run.Retried (attempts.length + 1)
    · have hrest := ih (n := attempts.length + 1 + 1)
        (attempts ++ [run.executeStepInLoop (attempts.length + 1)])
        (by simp)
      rw [if_pos hretried]
      refine Eq.trans ?_ (hrest.trans (if_pos hretried).symm)
      simp [hover]
    · rw [if_neg hretried]
      refine Eq.trans ?_ (if_neg hretried).symm
      simp [hover]

theorem stopsOnceOver_logFrom (hleft : left + n = run.step.maxAttempts + 1) :
    StopsOnceOver (run.logFrom left n) ↔ ∀ m, n ≤ m → m ≤ run.step.maxAttempts →
      run.moment = .inAttempt m ∨ run.moment = .inDelay m → (∀ k, n ≤ k → k < m → run.Retried k) →
      ¬run.Retried m := by
  induction left generalizing n with
  | zero => exact iff_of_true trivial fun m hn hm => by omega
  | succ left ih =>
    have hself : ∀ k, n ≤ k → k < n → run.Retried k := fun k hk hlt => absurd hk (not_le.2 hlt)
    by_cases hmoment : run.moment = .inAttempt n ∨ run.moment = .inDelay n
    · -- the job is over in this attempt, or after it
      have honly : ∀ m, run.moment = .inAttempt m ∨ run.moment = .inDelay m → m = n := by
        rintro m (hm | hm) <;> rcases hmoment with h | h <;> rw [hm] at h <;> cases h <;> rfl
      have hstops : StopsOnceOver (run.logFrom (left + 1) n) ↔ ¬run.Retried n := by
        rw [logFrom]
        by_cases hretried : run.Retried n
        · rcases hmoment with h | h <;> simp [overAt, h, hretried, StopsOnceOver]
        · rcases hmoment with h | h <;> simp [overAt, h, hretried, StopsOnceOver]
      rw [hstops]
      constructor
      · intro h m _ _ hm _
        exact honly m hm ▸ h
      · exact fun h => h n le_rfl (by omega) hmoment hself
    · obtain ⟨hattempt, hdelay⟩ := not_or.1 hmoment
      have hstops : StopsOnceOver (run.logFrom (left + 1) n) ↔
          (run.Retried n → StopsOnceOver (run.logFrom left (n + 1))) := by
        rw [logFrom]
        by_cases hretried : run.Retried n <;> simp [overAt, hattempt, hdelay, hretried, StopsOnceOver]
      rw [hstops, ih (by omega)]
      constructor
      · intro h m hn hm hover hbefore
        have hne : n ≠ m := fun heq => hmoment (heq ▸ hover)
        exact h (hbefore n le_rfl (by omega)) m (by omega) hm hover fun k hk => hbefore k (by omega)
      · intro h hretried m hn hm hover hbefore
        refine h m (by omega) hm hover fun k hk hlt => ?_
        rcases hk.eq_or_lt with rfl | hk
        · exact hretried
        · exact hbefore k hk hlt

/-- Nothing of the step begins once the job is over if and only if the job is over in an attempt
that is not retried, or is not over before the step. -/
theorem stopsOnceOver_iff (run : RetryRun) : StopsOnceOver run.runStepWithRetry ↔
    (run.moment = .beforeFirst → run.step.maxAttempts = 0) ∧
      ∀ n, run.moment = .inAttempt n ∨ run.moment = .inDelay n → 1 ≤ n → run.Reached n →
      ¬run.Retried n := by
  rw [runStepWithRetry]
  by_cases hmoment : run.moment = .beforeFirst
  · simp only [overAt, hmoment, if_true, List.singleton_append, StopsOnceOver, true_imp_iff,
      reduceCtorEq, or_self, false_imp_iff, implies_true, and_true]
    constructor
    · intro h
      by_contra hne
      obtain ⟨left, hleft⟩ := Nat.exists_eq_succ_of_ne_zero hne
      rw [hleft, logFrom] at h
      exact (h _ List.mem_cons_self).1 1 rfl
    · intro h
      simp [h, logFrom]
  · rw [overAt, if_neg hmoment, List.nil_append, stopsOnceOver_logFrom rfl]
    constructor
    · exact fun h => ⟨fun heq => absurd heq hmoment, fun n hover hn hreached =>
        h n hn hreached.1 hover hreached.2⟩
    · exact fun h m hm hmax hover hbefore => h.2 m hover hm ⟨hmax, hbefore⟩

/-- The deadline fires in the first of two attempts: the delay is waited out, and the body starts
again. -/
theorem exists_attempt_once_over : ∃ run : RetryRun, run.cause = .deadline ∧ run.runStepWithRetry =
    [.start 1, .jobOver, .finish 1 .failed, .delay 1000, .start 2, .finish 2 .failed] :=
  ⟨{ step := { name := "deploy", retry := some ⟨2⟩ }
     raceEnd := fun _ => .jobDeadline
     cause := .deadline
     moment := .inAttempt 1 }, rfl, by decide⟩

end RetryRun

end Kici
