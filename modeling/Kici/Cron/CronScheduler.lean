import Kici.Foundation.System
import Kici.Foundation.Table

/-!
# The cron scheduler

A leader fires the schedules of the registered workflows (`CronScheduler`). A tick goes through them
one after another: the last time before the clock reading that a schedule is for, as `croner` tells
it, is fired unless the cache of the node knows of one that is not before it. A transaction claims
the fire in `cron_last_fired`, by an upsert that only lets the time go forward (`tryClaimFire`), and
inserts the event (`emitInTx`); both are there once it commits.

Any number of nodes may believe that they lead (`cronSystem`). A node loads its cache from the
database when it comes to lead, when it is told to (`refreshCache`), and at a tick if the first load
has failed. Between two statements of a tick anything may happen: other ticks go on, of this node
and others, a load of this node replaces its cache, a transaction is rolled back, or a process dies,
before its transaction commits or after.
-/

namespace Kici.Cron

/-- The id of a registration, a UUID. -/
structure RegistrationId where
  text : String
  no_space : ' ' ∉ text.toList
  deriving DecidableEq

structure LockScheduleTrigger where
  cronExpression : String
  timezone : String
  deriving DecidableEq

/-- A trigger of the lock file. -/
inductive LockTrigger
  | schedule (trigger : LockScheduleTrigger)
  | other

structure RegisteredWorkflow where
  id : RegistrationId
  workflowName : String
  routingKey : String
  repoIdentifier : String
  commitSha : Option String
  sourceFile : Option String
  triggers : List LockTrigger

def scheduleTriggerKey (cronExpression timezone : String) : String := cronExpression ++ "\n" ++ timezone

def cronCacheKey (registrationId : RegistrationId) (scheduleKey : String) : String :=
  registrationId.text ++ " " ++ scheduleKey

/-- What `croner` tells: the last time before a clock reading that an expression is for, in
milliseconds; `none` where it throws or there is none. It does not go back, and no time zone has a
line break. -/
structure Croner where
  previousRun : LockScheduleTrigger → ℕ → Option ℕ
  mono : ∀ trigger now now' at_, now ≤ now' → previousRun trigger now = some at_ →
    ∃ at', previousRun trigger now' = some at' ∧ at_ ≤ at'
  timezone : ∀ trigger now, '\n' ∈ trigger.timezone.toList → previousRun trigger now = none

/-! ## The database -/

/-- A row of `cron_last_fired`. -/
structure CronLastFired where
  registrationId : RegistrationId
  scheduleKey : String
  lastFiredAt : ℕ

def CronLastFired.key (row : CronLastFired) : RegistrationId × String :=
  (row.registrationId, row.scheduleKey)

/-- The event `__schedule_fire`, with its payload. -/
structure ScheduleFire where
  cronExpression : String
  timezone : String
  registrationId : RegistrationId
  workflowName : String
  routingKey : String
  repoIdentifier : String
  scheduledAt : ℕ
  commitSha : Option String
  sourceFile : Option String
  sourceRepo : String

/-- An empty text is left out of the payload. -/
def unlessEmpty (text : Option String) : Option String := text.filter (· ≠ "")

structure CronDb where
  cronLastFired : Table CronLastFired.key
  /-- The events, in the order of their commits. -/
  events : List ScheduleFire

/-- A cache of a node: the times of the last fires by `cronCacheKey`. -/
abbrev LastFiredCache := Table (Prod.fst : String × ℕ → String)

namespace CronDb

variable (db : CronDb)

def lastFiredAt (registrationId : RegistrationId) (scheduleKey : String) : Option ℕ :=
  (db.cronLastFired.lookup (registrationId, scheduleKey)).map CronLastFired.lastFiredAt

/-- Whether the upsert writes: there is no row, or one with an earlier time. -/
def tryClaimFire (registrationId : RegistrationId) (scheduleKey : String) (firedAt : ℕ) : Bool :=
  (db.lastFiredAt registrationId scheduleKey).all (· < firedAt)

def getAll : LastFiredCache :=
  db.cronLastFired.rows.foldl (fun cache row =>
    cache.put (cronCacheKey row.registrationId row.scheduleKey, row.lastFiredAt)) (.empty _)

end CronDb

/-! ## Nodes and their ticks -/

structure CronNode where
  lastFiredCache : LastFiredCache
  cacheLoadPending : Bool
  isLeader : Bool
  /-- The last reading of the clock. -/
  now : ℕ

/-- A schedule of a registration. -/
structure Schedule where
  registration : RegisteredWorkflow
  trigger : LockScheduleTrigger

namespace Schedule

variable (sched : Schedule)

def scheduleKey : String := scheduleTriggerKey sched.trigger.cronExpression sched.trigger.timezone

def cacheKey : String := cronCacheKey sched.registration.id sched.scheduleKey

def lastFiredAt (db : CronDb) : Option ℕ := db.lastFiredAt sched.registration.id sched.scheduleKey

/-- The event of a fire. -/
def fire (previousRun : ℕ) : ScheduleFire where
  cronExpression := sched.trigger.cronExpression
  timezone := sched.trigger.timezone
  registrationId := sched.registration.id
  workflowName := sched.registration.workflowName
  routingKey := sched.registration.routingKey
  repoIdentifier := sched.registration.repoIdentifier
  scheduledAt := previousRun
  commitSha := unlessEmpty sched.registration.commitSha
  sourceFile := unlessEmpty sched.registration.sourceFile
  sourceRepo := sched.registration.repoIdentifier

end Schedule

/-- The schedules of the registrations, in turn. -/
def schedulesOf (registrations : List RegisteredWorkflow) : List Schedule :=
  registrations.flatMap fun registration => registration.triggers.filterMap fun
    | .schedule trigger => some ⟨registration, trigger⟩
    | .other => none

/-- The rows after a fire. -/
def CronDb.commit (db : CronDb) (sched : Schedule) (previousRun : ℕ) : CronDb where
  cronLastFired := db.cronLastFired.put ⟨sched.registration.id, sched.scheduleKey, previousRun⟩
  events := db.events ++ [sched.fire previousRun]

/-- Who loads the cache. -/
inductive CacheLoad
  | refreshCache
  | reloadCacheAfterFailure
  | onBecomeLeader

/-- How far a tick is. -/
inductive TickPhase
  | loading (load : CacheLoad)
  /-- `getAll` has answered, or failed. -/
  | loaded (load : CacheLoad) (rows : Option LastFiredCache)
  | evaluating
  /-- The transaction has begun. -/
  | claiming (sched : Schedule) (previousRun : ℕ)
  /-- The upsert has answered, and its row is locked if it has written. -/
  | inTx (sched : Schedule) (previousRun : ℕ) (claimed : Bool)
  /-- The transaction has committed. -/
  | committed (sched : Schedule) (previousRun : ℕ)
  | ended

/-- A tick of a node. -/
structure Tick where
  node : ℕ
  phase : TickPhase
  /-- The clock when it took the schedules. -/
  startedAt : ℕ := 0
  schedules : List Schedule := []
  /-- Those still to be evaluated. -/
  todo : List Schedule := []
  /-- Those whose transaction was rolled back. -/
  rolledBack : List Schedule := []
  /-- Cut off: the node does not lead any more, or has died. -/
  cut : Bool := false

structure CronState where
  db : CronDb
  nodes : ℕ → CronNode
  ticks : List Tick

inductive CronAction
  | onBecomeLeader (node : ℕ)
  | onLoseLeadership (node : ℕ)
  | refreshCache (node : ℕ)
  /-- A tick of the interval; the registrations are those of the index. -/
  | evaluate (node now : ℕ) (registrations : List RegisteredWorkflow)
  /-- `getAll` answers, or fails. -/
  | getAll (i : ℕ) (ok : Bool)
  /-- The tick goes on with what `getAll` has answered. -/
  | afterLoad (i now : ℕ) (registrations : List RegisteredWorkflow)
  /-- The next schedule. -/
  | next (i now : ℕ)
  | tryClaimFire (i : ℕ)
  | commit (i : ℕ)
  | rollback (i : ℕ)
  | afterCommit (i : ℕ)
  /-- The process dies, and starts anew. -/
  | die (node : ℕ)

namespace CronState

variable (croner : Croner) (s : CronState)

def setNode (node : ℕ) (f : CronNode → CronNode) : CronState :=
  { s with nodes := fun n => if n = node then f (s.nodes n) else s.nodes n }

def setTick (i : ℕ) (tick : Tick) : CronState := { s with ticks := s.ticks.set i tick }

def addTick (tick : Tick) : CronState := { s with ticks := s.ticks ++ [tick] }

/-- The clock of a node is read. -/
def readClock (node now : ℕ) : CronState := s.setNode node fun n => { n with now }

/-- The tick takes the schedules of the index and begins with them. -/
def start (i : ℕ) (tick : Tick) (now : ℕ) (registrations : List RegisteredWorkflow) : CronState :=
  (s.readClock tick.node now).setTick i { tick with
    phase := .evaluating
    startedAt := now
    schedules := schedulesOf registrations
    todo := schedulesOf registrations
    rolledBack := [] }

/-- What a tick does with what `getAll` has answered. -/
def afterLoad (i : ℕ) (tick : Tick) (now : ℕ) (registrations : List RegisteredWorkflow) :
    CacheLoad → Option LastFiredCache → CronState
  | .refreshCache, some rows =>
    (s.setNode tick.node fun n => { n with lastFiredCache := rows }).setTick i
      { tick with phase := .ended }
  | .refreshCache, none => s.setTick i { tick with phase := .ended }
  | .reloadCacheAfterFailure, some rows | .onBecomeLeader, some rows =>
    (s.setNode tick.node fun n => { n with lastFiredCache := rows, cacheLoadPending := false }).start
      i tick now
      registrations
  | .reloadCacheAfterFailure, none => s.start i tick now registrations
  | .onBecomeLeader, none =>
    (s.setNode tick.node fun n => { n with cacheLoadPending := true }).setTick i
      { tick with phase := .ended }

/-- Evaluate a schedule: it is fired unless the cache knows of a fire that is not before. -/
def evaluateScheduleTrigger (tick : Tick) (now : ℕ) (sched : Schedule) : TickPhase :=
  match croner.previousRun sched.trigger now with
  | none => .evaluating
  | some previousRun =>
    if ((s.nodes tick.node).lastFiredCache.lookup sched.cacheKey).any fun cached =>
      previousRun ≤ cached.2 then
      .evaluating
    else .claiming sched previousRun

/-- The next schedule of a tick, or its end. -/
def next (i : ℕ) (tick : Tick) (now : ℕ) : CronState :=
  match tick.todo with
  | [] => s.setTick i { tick with phase := .ended }
  | sched :: todo =>
    if !(s.nodes tick.node).isLeader then s.setTick i { tick with phase := .ended, cut := true }
    else
      (s.readClock tick.node now).setTick i { tick with
        phase := s.evaluateScheduleTrigger croner tick now sched
        todo }

/-- The row is locked by another transaction, which has written it. -/
def locked (sched : Schedule) : Bool :=
  s.ticks.any fun tick =>
    match tick.phase with
    | .inTx sched' _ claimed =>
      claimed && sched'.registration.id = sched.registration.id && sched'.scheduleKey = sched.scheduleKey
    | _ => false

/-- The next step of a tick. -/
def tickStep (i : ℕ) (tick : Tick) : CronAction → Option CronState
  | .getAll _ ok =>
    match tick.phase with
    | .loading load =>
      some (s.setTick i { tick with phase := .loaded load (if ok then some s.db.getAll else none) })
    | _ => none
  | .afterLoad _ now registrations =>
    match tick.phase with
    | .loaded load rows => some (s.afterLoad i tick now registrations load rows)
    | _ => none
  | .next _ now =>
    match tick.phase with
    | .evaluating => some (s.next croner i tick now)
    | _ => none
  | .tryClaimFire _ =>
    match tick.phase with
    | .claiming sched previousRun =>
      if s.locked sched then none
      else
        some (s.setTick i { tick with
          phase := .inTx sched previousRun
            (s.db.tryClaimFire sched.registration.id sched.scheduleKey previousRun) })
    | _ => none
  | .commit _ =>
    match tick.phase with
    | .inTx sched previousRun claimed =>
      some ({ s with db := if claimed then s.db.commit sched previousRun else s.db }.setTick i
        { tick with
        phase := .committed sched previousRun })
    | _ => none
  | .rollback _ =>
    match tick.phase with
    | .claiming sched _ | .inTx sched _ _ =>
      some (s.setTick i { tick with phase := .evaluating, rolledBack := sched :: tick.rolledBack })
    | _ => none
  | .afterCommit _ =>
    match tick.phase with
    | .committed sched previousRun =>
      some ((s.setNode tick.node fun n =>
        { n with lastFiredCache := n.lastFiredCache.put (sched.cacheKey, previousRun) }).setTick i
          { tick with
          phase := .evaluating })
    | _ => none
  | _ => none

/-- The clock of a node does not go back. -/
def clockOk (node now : ℕ) : Bool := decide ((s.nodes node).now ≤ now)

/-- A tick whose process has died. -/
def killed (node : ℕ) (tick : Tick) : Tick :=
  match tick.phase with
  | .ended => tick
  | _ => if tick.node = node then { tick with phase := .ended, cut := true } else tick

/-- A process that has just started. -/
def restarted (node : CronNode) : CronNode where
  lastFiredCache := .empty _
  cacheLoadPending := false
  isLeader := false
  now := node.now

def step : CronAction → Option CronState
  | .onBecomeLeader node =>
    some ((s.setNode node fun n => { n with isLeader := true }).addTick {
      node
      phase := .loading .onBecomeLeader })
  | .onLoseLeadership node => some (s.setNode node fun n => { n with isLeader := false })
  | .refreshCache node => some (s.addTick { node, phase := .loading .refreshCache })
  | .evaluate node now registrations =>
    if !(s.nodes node).isLeader || !s.clockOk node now then none
    else if (s.nodes node).cacheLoadPending then
      some ((s.readClock node now).addTick { node, phase := .loading .reloadCacheAfterFailure })
    else
      some ((s.readClock node now).addTick {
        node
        phase := .evaluating
        startedAt := now
        schedules := schedulesOf registrations
        todo := schedulesOf registrations })
  | .die node => some { s with
      nodes := fun n => if n = node then restarted (s.nodes n) else s.nodes n
      ticks := s.ticks.map (killed node) }
  | .afterLoad i now registrations =>
    s.ticks[i]?.bind fun tick =>
      if s.clockOk tick.node now then s.tickStep croner i tick (.afterLoad i now registrations) else none
  | .next i now =>
    s.ticks[i]?.bind fun tick => if s.clockOk tick.node now then s.tickStep croner i tick
      (.next i now) else none
  | .getAll i ok => s.ticks[i]?.bind fun tick => s.tickStep croner i tick (.getAll i ok)
  | .tryClaimFire i => s.ticks[i]?.bind fun tick => s.tickStep croner i tick (.tryClaimFire i)
  | .commit i => s.ticks[i]?.bind fun tick => s.tickStep croner i tick (.commit i)
  | .rollback i => s.ticks[i]?.bind fun tick => s.tickStep croner i tick (.rollback i)
  | .afterCommit i => s.ticks[i]?.bind fun tick => s.tickStep croner i tick (.afterCommit i)

/-- The times that the events of a schedule are for, in the order of their commits. -/
def fires (registrationId : RegistrationId) (trigger : LockScheduleTrigger) : List ℕ :=
  (s.db.events.filter fun event =>
    event.registrationId = registrationId && event.cronExpression = trigger.cronExpression &&
      event.timezone = trigger.timezone).map ScheduleFire.scheduledAt

end CronState

/-- Nodes that have just started, with nothing fired. -/
def cronSystem (croner : Croner) : System CronState CronAction where
  init := {s | s.db.cronLastFired = .empty _ ∧ s.db.events = [] ∧ s.ticks = [] ∧
    ∀ n, s.nodes n = CronState.restarted (s.nodes n)}
  step := CronState.step croner

/-- A tick takes registrations, with a clock reading. -/
inductive Begins (s : CronState) (i now : ℕ) (registrations : List RegisteredWorkflow) :
    CronAction → Prop
  | evaluate {node : ℕ} : (s.nodes node).cacheLoadPending = false → i = s.ticks.length →
    Begins s i now registrations (.evaluate node now registrations)
  | reloadCacheAfterFailure {tick : Tick} {rows : Option LastFiredCache} : s.ticks[i]? = some tick →
    tick.phase = .loaded .reloadCacheAfterFailure rows →
    Begins s i now registrations (.afterLoad i now registrations)
  | recoverMissedSchedules {tick : Tick} {rows : LastFiredCache} : s.ticks[i]? = some tick →
    tick.phase = .loaded .onBecomeLeader (some rows) →
    Begins s i now registrations (.afterLoad i now registrations)

/-- The fire that a tick is at. -/
def firing : TickPhase → Option (Schedule × ℕ)
  | .claiming sched previousRun | .inTx sched previousRun _
  | .committed sched previousRun => some (sched, previousRun)
  | _ => none

/-- No transaction of the tick for the schedule is rolled back. -/
def KeepsFire (i : ℕ) (sched : Schedule) (s : CronState) (a : CronAction) : Prop :=
  ∀ tick previousRun, a = .rollback i → s.ticks[i]? = some tick →
    firing tick.phase ≠ some (sched, previousRun)

/-- A schedule fires once per scheduled time. -/
structure FiresOnce (croner : Croner) (s : CronState) : Prop where
  /-- The times of its events rise, so that no two are the same. -/
  rising : ∀ id trigger, (s.fires id trigger).Pairwise (· < ·)
  /-- The time that is stored is that of the last event. -/
  stored : ∀ id trigger, ∀ at_ ∈ (s.fires id trigger).getLast?,
    s.db.lastFiredAt id (scheduleTriggerKey trigger.cronExpression trigger.timezone) = some at_
  /-- A tick that takes registrations leaves none of their schedules behind when it is over, unless
  its transaction was rolled back or the tick was cut off. -/
  complete : ∀ i now registrations a t, Begins s i now registrations a → s.step croner a = some t →
    ∀ registration ∈ registrations, ∀ trigger, .schedule trigger ∈ registration.triggers →
    ∀ u, (cronSystem croner).Path (KeepsFire i ⟨registration, trigger⟩) t u → ∀ tick,
      u.ticks[i]? = some tick →
    tick.phase = .ended → tick.cut = false → ∀ at_, croner.previousRun trigger now = some at_ →
      ∃ last, u.db.lastFiredAt registration.id
        (scheduleTriggerKey trigger.cronExpression trigger.timezone) =
        some last ∧ at_ ≤ last

end Kici.Cron
