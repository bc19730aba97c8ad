import Kici.Cron.CronScheduler
import Kici.Foundation.Escape
import Kici.Foundation.Logs

/-!
# A schedule fires once per scheduled time

The events of a schedule and its row are a log that rises and its last entry (`Inv.logs`), as a
transaction that has claimed a fire holds the row until it ends, with an earlier time in it
(`PhaseOk`, `Inv.locks`). No cache knows of a later fire than the row does (`CacheOk`), so that what
a tick leaves out for its cache was fired (`firesOnce`).
-/

namespace Kici.Cron

open List Option Foundation CronState CronDb System

variable {registrations : List RegisteredWorkflow} {phase : TickPhase}
variable {croner : Croner} {db db' : CronDb} {s t : CronState} {sched sched' : Schedule}
  {cache : LastFiredCache} {time : ℕ}

/-! ## Keys -/

theorem cronCacheKey_inj {id id' : RegistrationId} {key key' : String}
    (h : cronCacheKey id key = cronCacheKey id' key') : id = id' ∧ key = key' := by
  have hlist := congrArg String.toList h
  simp only [cronCacheKey, String.toList_append] at hlist
  have hspace : " ".toList = [' '] := rfl
  rw [hspace, append_assoc, append_assoc, singleton_append, singleton_append] at hlist
  obtain ⟨hid, hkey⟩ := eq_of_append_sep id.no_space id'.no_space hlist
  refine ⟨?_, String.toList_inj.1 hkey⟩
  cases id
  cases id'
  cases String.toList_inj.1 hid
  rfl

/-- No time zone has a line break, so that the last one is before the time zone. -/
theorem scheduleTriggerKey_inj {c c' tz tz' : String} (htz : '\n' ∉ tz.toList) (htz' : '\n' ∉ tz'.toList)
    (h : scheduleTriggerKey c tz = scheduleTriggerKey c' tz') : c = c' ∧ tz = tz' := by
  have hlist := congrArg (fun text => text.toList.reverse) h
  simp only [scheduleTriggerKey, String.toList_append, reverse_append] at hlist
  have hbreak : "\n".toList.reverse = ['\n'] := rfl
  rw [hbreak, singleton_append, singleton_append] at hlist
  obtain ⟨hzone, hexpr⟩ := eq_of_append_sep (by rwa [mem_reverse]) (by rwa [mem_reverse]) hlist
  exact ⟨String.toList_inj.1 (reverse_inj.1 hexpr), String.toList_inj.1 (reverse_inj.1 hzone)⟩

/-! ## What is kept -/

/-- The row of a schedule knows of a fire that is not before. -/
def Covered (db : CronDb) (id : RegistrationId) (key : String) (time : ℕ) : Prop :=
  ∃ last, db.lastFiredAt id key = some last ∧ time ≤ last

/-- Rows only go forward. -/
def CronDb.Le (db db' : CronDb) : Prop :=
  ∀ id key last, db.lastFiredAt id key = some last → ∃ last', db'.lastFiredAt id key = some last' ∧
    last ≤ last'

theorem Covered.mono {id : RegistrationId} {key : String} (h : Covered db id key time)
    (hle : db.Le db') : Covered db' id key time := by
  obtain ⟨last, hlast, htime⟩ := h
  obtain ⟨last', hlast', hle⟩ := hle id key last hlast
  exact ⟨last', hlast', htime.trans hle⟩

/-- The rows know of the fires that a cache knows of. -/
def CacheOk (db : CronDb) (cache : LastFiredCache) : Prop :=
  ∀ entry ∈ cache, ∃ id key, entry.1 = cronCacheKey id key ∧ Covered db id key entry.2

/-- The row that a transaction has locked, as it has written it. -/
def holds : TickPhase → Option (RegistrationId × String)
  | .inTx sched _ true => some (sched.registration.id, sched.scheduleKey)
  | _ => none

/-- The clock reading of an action of a tick. -/
def clockOf : CronAction → Option ℕ
  | .afterLoad _ now _ | .next _ now => some now
  | _ => none

/-- The tick waits for its cache. -/
def isLoading : TickPhase → Bool
  | .loading _ | .loaded _ _ => true
  | _ => false

def PhaseOk (db : CronDb) : TickPhase → Prop
  | .loaded _ (some rows) => CacheOk db rows
  | .claiming sched _ => '\n' ∉ sched.trigger.timezone.toList
  | .inTx sched previousRun true =>
    '\n' ∉ sched.trigger.timezone.toList ∧ ∀ last ∈ sched.lastFiredAt db, last < previousRun
  | .inTx sched previousRun false | .committed sched previousRun =>
    Covered db sched.registration.id sched.scheduleKey previousRun
  | _ => True

/-- No time that the schedule was for when the tick took it is after what is known of it. -/
def DoneBy (croner : Croner) (startedAt : ℕ) (sched : Schedule) (known : ℕ → Prop) : Prop :=
  ∀ time, croner.previousRun sched.trigger startedAt = some time → known time

/-- A schedule of a tick is still to be evaluated, was rolled back, is being fired, or is done. -/
def Progress (croner : Croner) (db : CronDb) (tick : Tick) (sched : Schedule) : Prop :=
  sched ∈ tick.todo ∨ sched ∈ tick.rolledBack ∨
    (∃ previousRun, firing tick.phase = some (sched, previousRun) ∧
      DoneBy croner tick.startedAt sched fun time => time ≤ previousRun) ∨
    DoneBy croner tick.startedAt sched (Covered db sched.registration.id sched.scheduleKey)

structure TickOk (croner : Croner) (db : CronDb) (node : CronNode) (tick : Tick) : Prop where
  startedAt : tick.startedAt ≤ node.now
  phase : PhaseOk db tick.phase
  progress : tick.cut = false → ∀ sched ∈ tick.schedules, Progress croner db tick sched
  ended : isLoading tick.phase ∨ tick.phase = .ended → tick.cut = false → tick.todo = []

/-- The times of the events of a row. -/
def CronDb.firesOf (db : CronDb) (id : RegistrationId) (key : String) : List ℕ :=
  (db.events.filter fun event =>
    event.registrationId = id && scheduleTriggerKey event.cronExpression event.timezone = key).map
      ScheduleFire.scheduledAt

/-- The events of a row rise, and it holds the time of the last one. -/
def CronDb.Logged (db : CronDb) : Prop :=
  ∀ id key, ∃ log : RisingLog ℕ, log.entries = db.firesOf id key ∧ log.last = db.lastFiredAt id key

structure Inv (croner : Croner) (s : CronState) : Prop where
  logs : s.db.Logged
  timezones : ∀ event ∈ s.db.events, '\n' ∉ event.timezone.toList
  caches : ∀ n, CacheOk s.db (s.nodes n).lastFiredCache
  ticks : ∀ tick ∈ s.ticks, TickOk croner s.db (s.nodes tick.node) tick
  locks : ∀ (i j : ℕ) (a b : Tick) row, s.ticks[i]? = some a → s.ticks[j]? = some b →
    holds a.phase = some row →
    holds b.phase = some row → i = j

/-! ## Caches -/

theorem CacheOk.mono (h : CacheOk db cache) (hle : db.Le db') : CacheOk db' cache := by
  intro entry hentry
  obtain ⟨id, key, hkey, hcovered⟩ := h entry hentry
  exact ⟨id, key, hkey, hcovered.mono hle⟩

theorem cacheOk_empty : CacheOk db (.empty _) := nofun

theorem CacheOk.put (h : CacheOk db cache) {id : RegistrationId} {key : String}
    (hcovered : Covered db id key time) : CacheOk db (cache.put (cronCacheKey id key, time)) := by
  intro entry hentry
  rcases Table.mem_put.1 hentry with rfl | ⟨hentry, -⟩
  · exact ⟨id, key, rfl, hcovered⟩
  · exact h entry hentry

/-- A cache as it is loaded. -/
theorem cacheOk_getAll (db : CronDb) : CacheOk db db.getAll := by
  have hfold : ∀ (rows : List CronLastFired) (cache : LastFiredCache),
    (∀ row ∈ rows, row ∈ db.cronLastFired) →
      CacheOk db cache → CacheOk db (rows.foldl (fun cache row =>
        cache.put (cronCacheKey row.registrationId row.scheduleKey, row.lastFiredAt)) cache) := by
    intro rows
    induction rows with
    | nil => exact fun _ _ h => h
    | cons row rows ih =>
      intro cache hrows h
      refine ih _ (fun r hr => hrows r (mem_cons_of_mem row hr)) (h.put ?_)
      have hlookup : db.cronLastFired.lookup (row.registrationId, row.scheduleKey) = some row :=
        Table.lookup_of_mem (hrows row mem_cons_self)
      exact ⟨row.lastFiredAt, by rw [lastFiredAt, hlookup]; rfl, le_rfl⟩
  exact hfold _ _ (fun _ h => h) cacheOk_empty

/-- What the cache knows of a schedule, the row knows of. -/
theorem CacheOk.covered (h : CacheOk db cache)
    (hcached : (cache.lookup sched.cacheKey).any (fun cached => time ≤ cached.2)) :
    Covered db sched.registration.id sched.scheduleKey time := by
  obtain ⟨entry, hentry, htime⟩ := (Option.any_eq_true ..).1 hcached
  obtain ⟨hmem, hkey⟩ := Table.lookup_eq_some.1 hentry
  obtain ⟨id, key, heq, last, hlast, hle⟩ := h entry hmem
  obtain ⟨rfl, rfl⟩ := cronCacheKey_inj (hkey.symm.trans heq)
  exact ⟨last, hlast, (of_decide_eq_true htime).trans hle⟩

/-! ## A commit -/

theorem lastFiredAt_commit (db : CronDb) (sched : Schedule) (time : ℕ) (id : RegistrationId)
    (key : String) : (db.commit sched time).lastFiredAt id key =
      if (id, key) = (sched.registration.id, sched.scheduleKey) then some time
      else db.lastFiredAt id key := by
  rw [lastFiredAt, commit, Table.lookup_put, apply_ite (Option.map CronLastFired.lastFiredAt)]
  rfl

theorem firesOf_commit (db : CronDb) (sched : Schedule) (time : ℕ) (id : RegistrationId) (key : String) :
    (db.commit sched time).firesOf id key = db.firesOf id key ++
      if (id, key) = (sched.registration.id, sched.scheduleKey) then [time] else [] := by
  rw [firesOf, commit, filter_append, map_append, firesOf]
  congr 1
  by_cases heq : (id, key) = (sched.registration.id, sched.scheduleKey)
  · obtain ⟨rfl, rfl⟩ := Prod.mk.inj heq
    rw [if_pos rfl, filter_cons_of_pos]
    · rfl
    · exact Bool.and_eq_true_iff.2 ⟨decide_eq_true rfl, decide_eq_true rfl⟩
  · rw [if_neg heq, filter_cons_of_neg]
    · rfl
    · intro hpos
      obtain ⟨hid, hkey⟩ := Bool.and_eq_true_iff.1 hpos
      exact heq (Prod.ext (of_decide_eq_true hid).symm (of_decide_eq_true hkey).symm)

section Commit

variable {time : ℕ} (hlt : ∀ last ∈ sched.lastFiredAt db, last < time)
include hlt

theorem le_commit : db.Le (db.commit sched time) := by
  intro id key last hlast
  rw [lastFiredAt_commit]
  split
  next heq =>
    obtain ⟨rfl, rfl⟩ := Prod.mk.inj heq
    exact ⟨time, rfl, (hlt last hlast).le⟩
  next => exact ⟨last, hlast, le_rfl⟩

theorem logged_commit (h : db.Logged) : (db.commit sched time).Logged := by
  intro id key
  obtain ⟨log, hentries, hlast⟩ := h id key
  by_cases heq : (id, key) = (sched.registration.id, sched.scheduleKey)
  · obtain ⟨rfl, rfl⟩ := Prod.mk.inj heq
    have hrises : ∀ last ∈ log.last, last < time := by
      rw [hlast]
      exact hlt
    refine ⟨log.push time hrises, ?_, ?_⟩
    · rw [RisingLog.entries_push, hentries, firesOf_commit, if_pos rfl]
    · rw [RisingLog.last_push, lastFiredAt_commit, if_pos rfl]
  · refine ⟨log, ?_, ?_⟩
    · rw [hentries, firesOf_commit, if_neg heq, append_nil]
    · rw [hlast, lastFiredAt_commit, if_neg heq]

end Commit

/-! ## Steps -/

theorem Progress.mono {tick : Tick} (h : Progress croner db tick sched) (hle : db.Le db') :
    Progress croner db' tick sched := by
  rcases h with htodo | hback | hfiring | hdone
  · exact .inl htodo
  · exact .inr (.inl hback)
  · exact .inr (.inr (.inl hfiring))
  · exact .inr (.inr (.inr fun time htime => (hdone time htime).mono hle))

/-- A phase that holds no row is kept as rows go forward. -/
theorem PhaseOk.mono (h : PhaseOk db phase) (hle : db.Le db') (hholds : holds phase = none) :
    PhaseOk db' phase := by
  cases phase with
  | loading | evaluating | ended => trivial
  | loaded load rows =>
    cases rows with
    | none => trivial
    | some rows => exact CacheOk.mono h hle
  | claiming sched previousRun => exact h
  | inTx sched previousRun claimed =>
    cases claimed with
    | true => cases hholds
    | false => exact Covered.mono h hle
  | committed sched previousRun => exact Covered.mono h hle

/-- A phase that holds another row than the one that is committed. -/
theorem PhaseOk.commit (h : PhaseOk db phase) (hlt : ∀ last ∈ sched.lastFiredAt db, last < time)
    (hother : ∀ row, holds phase = some row → row ≠ (sched.registration.id, sched.scheduleKey)) :
    PhaseOk (db.commit sched time) phase := by
  cases hholds : holds phase with
  | none => exact h.mono (le_commit hlt) hholds
  | some row =>
    have hne := hother row hholds
    cases phase with
    | inTx sched' previousRun claimed =>
      cases claimed with
      | false => cases hholds
      | true =>
        cases hholds
        refine ⟨h.1, fun last hlast => h.2 last ?_⟩
        rw [Schedule.lastFiredAt, lastFiredAt_commit, if_neg hne] at hlast
        exact hlast
    | _ => cases hholds

/-- The nodes with their clocks gone on, and caches that are as they should be. -/
structure NodesOk (db : CronDb) (nodes nodes' : ℕ → CronNode) : Prop where
  now : ∀ n, (nodes n).now ≤ (nodes' n).now
  caches : ∀ n, CacheOk db (nodes' n).lastFiredCache

theorem nodesOk_setNode (h : ∀ n, CacheOk db (s.nodes n).lastFiredCache) (node : ℕ)
    {f : CronNode → CronNode} (hnow : (s.nodes node).now ≤ (f (s.nodes node)).now)
    (hcache : CacheOk db (f (s.nodes node)).lastFiredCache) :
    NodesOk db s.nodes (s.setNode node f).nodes := by
  constructor
  · intro n
    rw [setNode]
    dsimp only
    split
    next heq => exact heq ▸ hnow
    next => exact le_rfl
  · intro n
    rw [setNode]
    dsimp only
    split
    next heq => exact heq ▸ hcache
    next => exact h n

theorem TickOk.mono {node node' : CronNode} {tick : Tick} (h : TickOk croner db node tick)
    (hnow : node.now ≤ node'.now) :
    TickOk croner db node' tick :=
  { h with startedAt := h.startedAt.trans hnow }

namespace Inv

variable (h : Inv croner s)
include h

/-- A tick goes on without a commit. -/
theorem setTick {i : ℕ} {tick tick' : Tick} (hi : s.ticks[i]? = some tick) (hdb : t.db = s.db)
    (hnodes : NodesOk s.db s.nodes t.nodes) (hticks : t.ticks = s.ticks.set i tick')
    (hok : TickOk croner s.db (t.nodes tick'.node) tick')
    (hholds : ∀ row, holds tick'.phase = some row → ∀ (j : ℕ) (b : Tick), s.ticks[j]? = some b →
      holds b.phase = some row → j = i) : Inv croner t := by
  have hlt : i < s.ticks.length := (List.getElem?_eq_some_iff.1 hi).1
  refine ⟨hdb ▸ h.logs, hdb ▸ h.timezones, fun n => hdb ▸ hnodes.caches n, fun b hb => ?_,
    fun j k a b row hj hk => ?_⟩
  · rw [hticks] at hb
    rw [hdb]
    rcases mem_or_eq_of_mem_set hb with hb | rfl
    · exact (h.ticks b hb).mono (hnodes.now b.node)
    · exact hok
  · rw [hticks, getElem?_set] at hj hk
    intro ha hb
    by_cases hij : i = j <;> by_cases hik : i = k
    · exact hij.symm.trans hik
    · rw [if_pos hij, if_pos hlt] at hj
      rw [if_neg hik] at hk
      cases hj
      exact hij.symm.trans (hholds row ha k b hk hb).symm
    · rw [if_neg hij] at hj
      rw [if_pos hik, if_pos hlt] at hk
      cases hk
      exact (hholds row hb j a hj ha).trans hik
    · rw [if_neg hij] at hj
      rw [if_neg hik] at hk
      exact h.locks j k a b row hj hk ha hb

/-- A new tick, in a phase that holds no row. -/
theorem addTick {tick : Tick} (hdb : t.db = s.db) (hnodes : NodesOk s.db s.nodes t.nodes)
    (hticks : t.ticks = s.ticks ++ [tick]) (hok : TickOk croner s.db (t.nodes tick.node) tick)
    (hholds : holds tick.phase = none) : Inv croner t := by
  have hold : ∀ (j : ℕ) (b : Tick) row, t.ticks[j]? = some b → holds b.phase = some row →
    s.ticks[j]? = some b := by
    intro j b row hj hb
    rw [hticks] at hj
    rcases Nat.lt_or_ge j s.ticks.length with hlt | hge
    · rwa [getElem?_append_left hlt] at hj
    · rw [getElem?_append_right hge] at hj
      have heq : b = tick := by simpa using mem_of_getElem? hj
      rw [heq, hholds] at hb
      cases hb
  refine ⟨hdb ▸ h.logs, hdb ▸ h.timezones, fun n => hdb ▸ hnodes.caches n, fun b hb => ?_,
    fun j k a b row hj hk ha hb => h.locks j k a b row (hold j a row hj ha) (hold k b row hk hb) ha hb⟩
  rw [hticks, mem_append, mem_singleton] at hb
  rw [hdb]
  rcases hb with hb | rfl
  · exact (h.ticks b hb).mono (hnodes.now b.node)
  · exact hok

/-- A transaction that has claimed a fire commits. -/
theorem commit {i : ℕ} {tick : Tick} {time : ℕ} (hi : s.ticks[i]? = some tick)
    (hphase : tick.phase = .inTx sched time true) (hdb : t.db = s.db.commit sched time)
    (hnodes : t.nodes = s.nodes)
    (hticks : t.ticks = s.ticks.set i { tick with phase := .committed sched time }) : Inv croner t := by
  have htick := h.ticks tick (mem_of_getElem? hi)
  have hok := htick.phase
  rw [hphase] at hok
  obtain ⟨htz, hlt⟩ := hok
  have hle := le_commit hlt
  have hholds : holds tick.phase = some (sched.registration.id, sched.scheduleKey) := by rw [hphase]; rfl
  have hcovered : Covered (s.db.commit sched time) sched.registration.id sched.scheduleKey time :=
    ⟨time, by rw [lastFiredAt_commit, if_pos rfl], le_rfl⟩
  refine ⟨hdb ▸ logged_commit hlt h.logs, fun event hevent => ?_, fun n => ?_, fun b hb => ?_,
    fun j k a b row hj hk => ?_⟩
  · rw [hdb] at hevent
    rcases mem_append.1 hevent with hevent | hevent
    · exact h.timezones event hevent
    · rw [mem_singleton.1 hevent]
      exact htz
  · rw [hdb, hnodes]
    exact (h.caches n).mono hle
  · rw [hticks] at hb
    rw [hdb, hnodes]
    obtain ⟨j, hj⟩ := getElem?_of_mem hb
    by_cases hij : i = j
    · rw [getElem?_set, if_pos hij, if_pos (List.getElem?_eq_some_iff.1 hi).1] at hj
      cases hj
      refine ⟨htick.startedAt, hcovered, fun hcut sched' hmem => ?_, fun hor => ?_⟩
      · refine Progress.mono ?_ hle
        rcases htick.progress hcut sched' hmem with htodo | hback | ⟨previousRun, hfiring, hby⟩ | hdone
        · exact .inl htodo
        · exact .inr (.inl hback)
        · refine .inr (.inr (.inl ⟨previousRun, ?_, hby⟩))
          rw [hphase] at hfiring
          exact hfiring
        · exact .inr (.inr (.inr hdone))
      · exact absurd hor (by simp [isLoading])
    · rw [getElem?_set, if_neg hij] at hj
      have hb := h.ticks b (mem_of_getElem? hj)
      refine ⟨hb.startedAt, hb.phase.commit hlt fun row hrow heq => ?_, fun hcut sched' hmem =>
        (hb.progress hcut sched' hmem).mono hle, hb.ended⟩
      exact hij (h.locks i j tick b row hi hj (heq ▸ hholds) hrow)
  · rw [hticks, getElem?_set] at hj hk
    intro ha hb
    by_cases hij : i = j
    · rw [if_pos hij, if_pos (List.getElem?_eq_some_iff.1 hi).1] at hj
      cases hj
      cases ha
    · by_cases hik : i = k
      · rw [if_pos hik, if_pos (List.getElem?_eq_some_iff.1 hi).1] at hk
        cases hk
        cases hb
      · rw [if_neg hij] at hj
        rw [if_neg hik] at hk
        exact h.locks j k a b row hj hk ha hb

end Inv

namespace TickOk

variable {node : CronNode} {tick : Tick}

/-- A tick in another phase. -/
theorem setPhase (h : TickOk croner db node tick)
    (hfiring : firing tick.phase = none ∨ firing phase = firing tick.phase) (hphase : PhaseOk db phase)
    (hended : isLoading phase ∨ phase = .ended → tick.cut = false → tick.todo = []) :
    TickOk croner db node { tick with phase } := by
  refine ⟨h.startedAt, hphase, fun hcut sched hmem => ?_, hended⟩
  rcases h.progress hcut sched hmem with htodo | hback | ⟨previousRun, hfire, hby⟩ | hdone
  · exact .inl htodo
  · exact .inr (.inl hback)
  · rcases hfiring with hnone | hsame
    · rw [hnone] at hfire
      cases hfire
    · exact .inr (.inr (.inl ⟨previousRun, hsame.trans hfire, hby⟩))
  · exact .inr (.inr (.inr hdone))

/-- A tick that takes its schedules. -/
theorem start {now : ℕ} {schedules : List Schedule} (hnow : now ≤ node.now) :
  TickOk croner db node { tick with
    phase := .evaluating
    startedAt := now
    schedules
    todo := schedules
    rolledBack := [] } :=
  ⟨hnow, trivial, fun _ _ hmem => .inl hmem, fun hor => absurd hor (by simp [isLoading])⟩

/-- What the clock said when the tick took the schedule is not after what it says now. -/
theorem doneBy (h : TickOk croner db node tick) {now previousRun : ℕ} (hnow : node.now ≤ now)
    (hrun : croner.previousRun sched.trigger now = some previousRun) :
    DoneBy croner tick.startedAt sched fun time => time ≤ previousRun := by
  intro time htime
  obtain ⟨time', htime', hle⟩ := croner.mono sched.trigger tick.startedAt now time
    (h.startedAt.trans hnow) htime
  rw [hrun] at htime'
  cases htime'
  exact hle

/-- The next schedule is evaluated. -/
theorem next (h : TickOk croner s.db (s.nodes tick.node) tick) {now : ℕ} {todo : List Schedule}
    {node' : CronNode}
    (hnow : (s.nodes tick.node).now ≤ now) (hphase : tick.phase = .evaluating)
    (htodo : tick.todo = sched :: todo)
    (hcache : CacheOk s.db (s.nodes tick.node).lastFiredCache) (hnode : node'.now = now) :
    TickOk croner s.db node' { tick with
      phase := s.evaluateScheduleTrigger croner tick now sched
      todo } := by
  have hnone : firing tick.phase = none := by rw [hphase]; rfl
  -- What becomes of the schedule itself.
  obtain ⟨hok, hown, hnot⟩ : PhaseOk s.db (s.evaluateScheduleTrigger croner tick now sched) ∧
      ((∃ previousRun, firing (s.evaluateScheduleTrigger croner tick now sched) = some
        (sched, previousRun) ∧
          DoneBy croner tick.startedAt sched fun time => time ≤ previousRun) ∨
        DoneBy croner tick.startedAt sched (Covered s.db sched.registration.id sched.scheduleKey)) ∧
      ¬(isLoading (s.evaluateScheduleTrigger croner tick now sched) ∨
        s.evaluateScheduleTrigger croner tick now sched = .ended) := by
    rw [evaluateScheduleTrigger]
    cases hrun : croner.previousRun sched.trigger now with
    | none =>
      refine ⟨trivial, .inr fun time htime => ?_, by simp [isLoading]⟩
      obtain ⟨time', htime', -⟩ := croner.mono sched.trigger tick.startedAt now time
        (h.startedAt.trans hnow) htime
      rw [hrun] at htime'
      cases htime'
    | some previousRun =>
      have hby := h.doneBy hnow hrun
      dsimp only
      split
      next hcached =>
        obtain ⟨last, hlast, hle⟩ := hcache.covered hcached
        exact ⟨trivial, .inr fun time htime =>
          ⟨last, hlast, (hby time htime).trans hle⟩, by simp [isLoading]⟩
      next =>
        refine ⟨fun htz => ?_, .inl ⟨previousRun, rfl, hby⟩, by simp [isLoading]⟩
        rw [croner.timezone sched.trigger now htz] at hrun
        cases hrun
  refine ⟨(h.startedAt.trans hnow).trans hnode.ge, hok, fun hcut sched' hmem => ?_, fun hor =>
    absurd hor hnot⟩
  rcases h.progress hcut sched' hmem with hin | hback | ⟨previousRun, hfire, -⟩ | hdone
  · rw [htodo] at hin
    rcases mem_cons.1 hin with rfl | hin
    · rcases hown with hfire | hdone
      · exact .inr (.inr (.inl hfire))
      · exact .inr (.inr (.inr hdone))
    · exact .inl hin
  · exact .inr (.inl hback)
  · rw [hnone] at hfire
    cases hfire
  · exact .inr (.inr (.inr hdone))

/-- The fire that a tick is at is rolled back. -/
theorem rollback (h : TickOk croner db node tick) {previousRun : ℕ}
    (hfiring : firing tick.phase = some (sched, previousRun)) :
    TickOk croner db node
    { tick with phase := .evaluating, rolledBack := sched :: tick.rolledBack } := by
  refine ⟨h.startedAt, trivial, fun hcut sched' hmem => ?_, fun hor => absurd hor (by simp [isLoading])⟩
  rcases h.progress hcut sched' hmem with htodo | hback | ⟨previousRun', hfire, -⟩ | hdone
  · exact .inl htodo
  · exact .inr (.inl (mem_cons_of_mem sched hback))
  · rw [hfiring] at hfire
    cases hfire
    exact .inr (.inl mem_cons_self)
  · exact .inr (.inr (.inr hdone))

/-- The fire that a tick is at is over. -/
theorem fired (h : TickOk croner db node tick) {previousRun : ℕ}
    (hphase : tick.phase = .committed sched previousRun) :
    TickOk croner db node { tick with phase := .evaluating } := by
  have hcovered := h.phase
  rw [hphase] at hcovered
  obtain ⟨last, hlast, hle⟩ := hcovered
  refine ⟨h.startedAt, trivial, fun hcut sched' hmem => ?_, fun hor => absurd hor (by simp [isLoading])⟩
  rcases h.progress hcut sched' hmem with htodo | hback | ⟨previousRun', hfire, hby⟩ | hdone
  · exact .inl htodo
  · exact .inr (.inl hback)
  · rw [hphase] at hfire
    cases hfire
    exact .inr (.inr (.inr fun time htime => ⟨last, hlast, (hby time htime).trans hle⟩))
  · exact .inr (.inr (.inr hdone))

end TickOk

namespace Inv

variable (h : Inv croner s) {tick : Tick} {i now : ℕ}
include h

theorem nodesOk : NodesOk s.db s.nodes s.nodes := ⟨fun _ => le_rfl, h.caches⟩

/-- A node reads its clock. -/
theorem nodesOk_readClock {node now : ℕ} (hclock : s.clockOk node now) :
    NodesOk s.db s.nodes (s.readClock node now).nodes :=
  nodesOk_setNode h.caches node (of_decide_eq_true hclock) (h.caches node)

/-- The nodes alone change. -/
theorem setNodes (hdb : t.db = s.db) (hnodes : NodesOk s.db s.nodes t.nodes)
    (hticks : t.ticks = s.ticks) : Inv croner t := by
  refine ⟨hdb ▸ h.logs, hdb ▸ h.timezones, fun n => hdb ▸ hnodes.caches n, fun b hb => ?_,
    hticks ▸ h.locks⟩
  rw [hdb]
  exact (h.ticks b (hticks ▸ hb)).mono (hnodes.now b.node)

/-- A process dies. -/
theorem die (node : ℕ) : Inv croner { s with
    nodes := fun n => if n = node then restarted (s.nodes n) else s.nodes n
    ticks := s.ticks.map (killed node) } := by
  have hkilled : ∀ tick, killed node tick = tick ∨
      killed node tick = { tick with phase := .ended, cut := true } := by
    intro tick
    rw [killed]
    split
    · exact .inl rfl
    · split
      · exact .inr rfl
      · exact .inl rfl
  have hnow : ∀ n, (s.nodes n).now = (if n = node then restarted (s.nodes n) else s.nodes n).now := by
    intro n
    split
    · rfl
    · rfl
  refine ⟨h.logs, h.timezones, fun n => ?_, fun b hb => ?_, fun j k a b row hj hk ha hb => ?_⟩
  · dsimp only
    split
    · exact cacheOk_empty
    · exact h.caches n
  · obtain ⟨tick, htick, rfl⟩ := List.mem_map.1 hb
    have hok := h.ticks tick htick
    rcases hkilled tick with heq | heq
    · rw [heq]
      exact hok.mono (hnow tick.node).le
    · rw [heq]
      exact ⟨hok.startedAt.trans (hnow tick.node).le, trivial, nofun, nofun⟩
  · have hold : ∀ (m : ℕ) (c : Tick), (s.ticks.map (killed node))[m]? = some c →
      holds c.phase = some row →
        s.ticks[m]? = some c := by
      intro m c hm hc
      rw [getElem?_map] at hm
      obtain ⟨tick, htick, rfl⟩ := map_eq_some_iff.1 hm
      rcases hkilled tick with heq | heq
      · rw [heq]
        exact htick
      · rw [heq] at hc
        cases hc
    exact h.locks j k a b row (hold j a hj ha) (hold k b hk hb) ha hb

/-- A tick takes its schedules after its load. -/
theorem start {nodes : ℕ → CronNode} (registrations : List RegisteredWorkflow)
    (hi : s.ticks[i]? = some tick) (hnodes : NodesOk s.db s.nodes nodes)
    (hclock : (nodes tick.node).now ≤ now) :
    Inv croner (start { s with nodes } i tick now registrations) := by
  have hread : NodesOk s.db nodes (readClock { s with nodes } tick.node now).nodes :=
    nodesOk_setNode (s := { s with nodes }) hnodes.caches tick.node hclock (hnodes.caches tick.node)
  refine h.setTick hi rfl ⟨fun n => (hnodes.now n).trans (hread.now n), hread.caches⟩ rfl
    (TickOk.start ?_) nofun
  rw [CronState.start, CronState.setTick, CronState.readClock, CronState.setNode]
  dsimp only
  rw [if_pos rfl]

/-- What a tick does after its load. -/
theorem afterLoad {load : CacheLoad} {rows : Option LastFiredCache}
    (registrations : List RegisteredWorkflow) (hi : s.ticks[i]? = some tick)
    (hphase : tick.phase = .loaded load rows)
    (hclock : s.clockOk tick.node now) :
    Inv croner (s.afterLoad i tick now registrations load rows) := by
  have hok := h.ticks tick (mem_of_getElem? hi)
  have hended : TickOk croner s.db (s.nodes tick.node) { tick with phase := .ended } := by
    refine hok.setPhase (.inl (by rw [hphase]; rfl)) trivial fun _ hcut => hok.ended (.inl ?_) hcut
    rw [hphase]
    rfl
  have hnow := of_decide_eq_true hclock
  cases rows with
  | none =>
    cases load with
    | refreshCache => exact h.setTick hi rfl h.nodesOk rfl hended nofun
    | reloadCacheAfterFailure => exact h.start registrations hi h.nodesOk hnow
    | onBecomeLeader =>
      have hnodes : NodesOk s.db s.nodes
        (s.setNode tick.node fun n => { n with cacheLoadPending := true }).nodes :=
        nodesOk_setNode h.caches tick.node le_rfl (h.caches tick.node)
      exact h.setTick hi rfl hnodes rfl (hended.mono (hnodes.now tick.node)) nofun
  | some rows =>
    have hrows : CacheOk s.db rows := by
      have hph := hok.phase
      rw [hphase] at hph
      exact hph
    cases load with
    | refreshCache =>
      have hnodes : NodesOk s.db s.nodes
        (s.setNode tick.node fun n => { n with lastFiredCache := rows }).nodes :=
        nodesOk_setNode h.caches tick.node le_rfl hrows
      exact h.setTick hi rfl hnodes rfl (hended.mono (hnodes.now tick.node)) nofun
    | reloadCacheAfterFailure | onBecomeLeader =>
      have hnodes : NodesOk s.db s.nodes
          (s.setNode tick.node fun n =>
            { n with lastFiredCache := rows, cacheLoadPending := false }).nodes :=
        nodesOk_setNode h.caches tick.node le_rfl hrows
      exact h.start registrations hi hnodes (by simpa [setNode] using hnow)

/-- The next schedule of a tick. -/
theorem next (hi : s.ticks[i]? = some tick) (hphase : tick.phase = .evaluating)
    (hclock : s.clockOk tick.node now) : Inv croner (s.next croner i tick now) := by
  have hok := h.ticks tick (mem_of_getElem? hi)
  rw [CronState.next]
  split
  next hnil =>
    have hnone : firing tick.phase = none := by rw [hphase]; rfl
    exact h.setTick hi rfl h.nodesOk rfl (hok.setPhase (.inl hnone) trivial fun _ _ => hnil) nofun
  next sched todo htodo =>
    split
    · exact h.setTick hi rfl h.nodesOk rfl ⟨hok.startedAt, trivial, nofun, nofun⟩ nofun
    · refine h.setTick hi rfl (h.nodesOk_readClock hclock) rfl
        (hok.next (of_decide_eq_true hclock) hphase htodo (h.caches tick.node) ?_) ?_
      · rw [CronState.setTick, CronState.readClock, CronState.setNode]
        dsimp only
        rw [if_pos rfl]
      · -- A schedule that is evaluated holds no row yet.
        intro row hrow
        simp only [evaluateScheduleTrigger] at hrow
        split at hrow
        · cases hrow
        · split at hrow <;> cases hrow

/-- A transaction claims its fire, or finds that it was fired. -/
theorem tryClaimFire {i previousRun : ℕ} (hi : s.ticks[i]? = some tick)
    (hphase : tick.phase = .claiming sched previousRun) (hlocked : s.locked sched = false) :
    Inv croner (s.setTick i { tick with
      phase := .inTx sched previousRun
        (s.db.tryClaimFire sched.registration.id sched.scheduleKey previousRun) }) := by
  have hok := h.ticks tick (mem_of_getElem? hi)
  have htz := hok.phase
  rw [hphase] at htz
  have hfiring : ∀ claimed, firing (.inTx sched previousRun claimed) = firing tick.phase :=
    fun _ => by rw [hphase]; rfl
  cases hclaim : s.db.tryClaimFire sched.registration.id sched.scheduleKey previousRun with
  | true =>
    have hlt : ∀ last ∈ sched.lastFiredAt s.db, last < previousRun := fun last hlast => by
      rw [CronDb.tryClaimFire, Option.all_eq_true] at hclaim
      exact of_decide_eq_true (hclaim last hlast)
    refine h.setTick hi rfl h.nodesOk rfl
      (hok.setPhase (.inr (hfiring true)) ⟨htz, hlt⟩ (by simp [isLoading])) ?_
    intro row hrow j b hj hb
    cases hrow
    -- No other transaction holds the row.
    have hnone := List.any_eq_false.1 hlocked b (mem_of_getElem? hj)
    cases hphase' : b.phase with
    | inTx sched' previousRun' claimed =>
      rw [hphase'] at hb hnone
      cases claimed with
      | false => cases hb
      | true =>
        obtain ⟨hid, hkey⟩ := Prod.mk.inj (some.inj hb)
        simp [hid, hkey] at hnone
    | _ =>
      rw [hphase'] at hb
      cases hb
  | false =>
    have hcovered : Covered s.db sched.registration.id sched.scheduleKey previousRun := by
      rw [CronDb.tryClaimFire, Option.all_eq_false] at hclaim
      obtain ⟨last, hlast, hnot⟩ := hclaim
      exact ⟨last, hlast, by simpa using hnot⟩
    exact h.setTick hi rfl h.nodesOk rfl
      (hok.setPhase (.inr (hfiring false)) hcovered (by simp [isLoading])) nofun

/-- A step of a tick. -/
theorem tickStep {i : ℕ} {a : CronAction} (hi : s.ticks[i]? = some tick)
    (hclock : ∀ now ∈ clockOf a, s.clockOk tick.node now) (hstep : s.tickStep croner i tick a = some t) :
    Inv croner t := by
  have hok := h.ticks tick (mem_of_getElem? hi)
  cases a with
  | getAll _ ok =>
    rw [CronState.tickStep] at hstep
    split at hstep
    next load hphase =>
      cases hstep
      refine h.setTick hi rfl h.nodesOk rfl
        (hok.setPhase (.inl (by rw [hphase]; rfl)) ?_ fun _ hcut => hok.ended
        (.inl (by rw [hphase]; rfl)) hcut) nofun
      cases ok with
      | true => exact cacheOk_getAll s.db
      | false => trivial
    next => cases hstep
  | afterLoad _ now registrations =>
    rw [CronState.tickStep] at hstep
    split at hstep
    next load rows hphase =>
      cases hstep
      exact h.afterLoad registrations hi hphase (hclock now rfl)
    next => cases hstep
  | next _ now =>
    rw [CronState.tickStep] at hstep
    split at hstep
    next hphase =>
      cases hstep
      exact h.next hi hphase (hclock now rfl)
    next => cases hstep
  | tryClaimFire _ =>
    rw [CronState.tickStep] at hstep
    split at hstep
    next sched previousRun hphase =>
      split at hstep
      · cases hstep
      next hlocked =>
        cases hstep
        exact h.tryClaimFire hi hphase (Bool.eq_false_iff.2 hlocked)
    next => cases hstep
  | commit _ =>
    rw [CronState.tickStep] at hstep
    split at hstep
    next sched previousRun claimed hphase =>
      cases hstep
      cases claimed with
      | true => exact h.commit hi hphase rfl rfl rfl
      | false =>
        have hcovered := hok.phase
        rw [hphase] at hcovered
        exact h.setTick hi rfl h.nodesOk rfl
          (hok.setPhase (.inr (by rw [hphase]; rfl)) hcovered (by simp [isLoading]))
          nofun
    next => cases hstep
  | rollback _ =>
    rw [CronState.tickStep] at hstep
    split at hstep
    next sched previousRun hphase =>
      cases hstep
      exact h.setTick hi rfl h.nodesOk rfl (hok.rollback (by rw [hphase]; rfl)) nofun
    next sched previousRun claimed hphase =>
      cases hstep
      exact h.setTick hi rfl h.nodesOk rfl (hok.rollback (by rw [hphase]; rfl)) nofun
    next => cases hstep
  | afterCommit _ =>
    rw [CronState.tickStep] at hstep
    split at hstep
    next sched previousRun hphase =>
      cases hstep
      have hcovered := hok.phase
      rw [hphase] at hcovered
      have hnodes : NodesOk s.db s.nodes (s.setNode tick.node fun n =>
          { n with lastFiredCache := n.lastFiredCache.put (sched.cacheKey, previousRun) }).nodes :=
        nodesOk_setNode h.caches tick.node le_rfl ((h.caches tick.node).put hcovered)
      exact h.setTick hi rfl hnodes rfl ((hok.fired hphase).mono (hnodes.now tick.node)) nofun
    next => cases hstep
  | _ => cases hstep

theorem step {a : CronAction} (hstep : s.step croner a = some t) : Inv croner t := by
  have hloading : ∀ (node : ℕ) (load : CacheLoad) (db : CronDb) (n : CronNode),
      TickOk croner db n { node, phase := .loading load } := fun _ _ _ _ =>
    ⟨Nat.zero_le _, trivial, nofun, fun _ _ => rfl⟩
  cases a with
  | onBecomeLeader node =>
    cases hstep
    have hnodes : NodesOk s.db s.nodes (s.setNode node fun n => { n with isLeader := true }).nodes :=
      nodesOk_setNode h.caches node le_rfl (h.caches node)
    exact h.addTick rfl hnodes rfl (hloading ..) rfl
  | onLoseLeadership node =>
    cases hstep
    have hnodes : NodesOk s.db s.nodes (s.setNode node fun n => { n with isLeader := false }).nodes :=
      nodesOk_setNode h.caches node le_rfl (h.caches node)
    exact h.setNodes rfl hnodes rfl
  | refreshCache node =>
    cases hstep
    exact h.addTick rfl h.nodesOk rfl (hloading ..) rfl
  | evaluate node now registrations =>
    rw [CronState.step] at hstep
    split at hstep
    · cases hstep
    next hguard =>
      have hclock : s.clockOk node now := by
        rw [Bool.or_eq_true, not_or] at hguard
        simpa using hguard.2
      split at hstep
      · cases hstep
        exact h.addTick rfl (h.nodesOk_readClock hclock) rfl (hloading ..) rfl
      · cases hstep
        refine h.addTick rfl (h.nodesOk_readClock hclock) rfl
          ⟨?_, trivial, fun _ _ hmem => .inl hmem, ?_⟩ rfl
        · rw [CronState.addTick, CronState.readClock, CronState.setNode]
          dsimp only
          rw [if_pos rfl]
        · exact fun hor => absurd hor (by simp [isLoading])
  | getAll | tryClaimFire | commit | rollback | afterCommit =>
    obtain ⟨tick, hi, hstep⟩ := bind_eq_some_iff.1 hstep
    exact h.tickStep hi (by simp [clockOf]) hstep
  | afterLoad | next =>
    obtain ⟨tick, hi, hstep⟩ := bind_eq_some_iff.1 hstep
    split at hstep
    next hclock => exact h.tickStep hi (fun now' hnow => by cases hnow; exact hclock) hstep
    next => cases hstep
  | die node =>
    cases hstep
    exact h.die node

omit h in
theorem init (hinit : s ∈ (cronSystem croner).init) : Inv croner s := by
  obtain ⟨hrows, hevents, hticks, hnodes⟩ := hinit
  refine ⟨fun id key => ⟨.empty, ?_, ?_⟩, ?_, fun n => ?_, ?_, ?_⟩
  · rw [firesOf, hevents]
    rfl
  · rw [lastFiredAt, hrows]
    rfl
  · rw [hevents]
    exact nofun
  · rw [hnodes n]
    exact cacheOk_empty
  · rw [hticks]
    exact nofun
  · intro i j a b row hi
    rw [hticks, getElem?_nil] at hi
    cases hi

/-- The events of a schedule are those of its row, if there are any. -/
theorem fires_eq (id : RegistrationId) (trigger : LockScheduleTrigger) (hne : s.fires id trigger ≠ []) :
    s.fires id trigger = s.db.firesOf id
    (scheduleTriggerKey trigger.cronExpression trigger.timezone) := by
  have htz : '\n' ∉ trigger.timezone.toList := by
    obtain ⟨time, htime⟩ := exists_mem_of_ne_nil _ hne
    obtain ⟨event, hevent, -⟩ := List.mem_map.1 htime
    obtain ⟨hevent, hmatch⟩ := mem_filter.1 hevent
    rw [← of_decide_eq_true (Bool.and_eq_true_iff.1 hmatch).2]
    exact h.timezones event hevent
  rw [fires, firesOf]
  refine congrArg (List.map _) (filter_congr fun event hevent => ?_)
  rw [Bool.and_assoc]
  refine congrArg (decide (event.registrationId = id) && ·) (Bool.eq_iff_iff.2 ?_)
  rw [Bool.and_eq_true, decide_eq_true_iff, decide_eq_true_iff, decide_eq_true_iff]
  constructor
  · rintro ⟨hexpr, hzone⟩
    rw [hexpr, hzone]
  · exact fun hkey => scheduleTriggerKey_inj (h.timezones event hevent) htz hkey

end Inv

/-! ## What a tick takes -/

theorem mem_schedulesOf {registration : RegisteredWorkflow}
    {trigger : LockScheduleTrigger} (hreg : registration ∈ registrations)
    (htrigger : .schedule trigger ∈ registration.triggers) :
    ⟨registration, trigger⟩ ∈ schedulesOf registrations :=
  mem_flatMap.2 ⟨registration, hreg, mem_filterMap.2 ⟨.schedule trigger, htrigger, rfl⟩⟩

/-- A tick that has taken its schedules keeps them, and a rollback adds the one that it is at to those
that were rolled back. -/
structure GoesOn (a : CronAction) (tick tick' : Tick) : Prop where
  schedules : tick'.schedules = tick.schedules
  startedAt : tick'.startedAt = tick.startedAt
  loading : isLoading tick'.phase = false
  rolledBack : tick'.rolledBack = tick.rolledBack ∨ ∃ i sched previousRun, a = .rollback i ∧
    firing tick.phase = some (sched, previousRun) ∧ tick'.rolledBack = sched :: tick.rolledBack

theorem isLoading_evaluateScheduleTrigger (s : CronState) (tick : Tick) (now : ℕ) (sched : Schedule) :
    isLoading (s.evaluateScheduleTrigger croner tick now sched) = false := by
  rw [evaluateScheduleTrigger]
  split
  · rfl
  · split
    · rfl
    · rfl

theorem ticks_tickStep {i : ℕ} {tick : Tick} {a : CronAction}
    (hstep : s.tickStep croner i tick a = some t) :
    ∃ tick', t.ticks = s.ticks.set i tick' ∧ (isLoading tick.phase = false → GoesOn a tick tick') := by
  rw [tickStep.eq_def] at hstep
  split at hstep
  · split at hstep
    next hphase =>
      cases hstep
      exact ⟨_, rfl, fun hload => by cases hphase ▸ hload⟩
    next => cases hstep
  · split at hstep
    next load rows hphase =>
      cases hstep
      cases load <;> cases rows <;> exact ⟨_, rfl, fun hload => by cases hphase ▸ hload⟩
    next => cases hstep
  · split at hstep
    next hphase =>
      cases hstep
      rw [CronState.next]
      split
      · exact ⟨_, rfl, fun _ => ⟨rfl, rfl, rfl, .inl rfl⟩⟩
      · split
        · exact ⟨_, rfl, fun _ => ⟨rfl, rfl, rfl, .inl rfl⟩⟩
        · exact ⟨_, rfl, fun _ => ⟨rfl, rfl, isLoading_evaluateScheduleTrigger .., .inl rfl⟩⟩
    next => cases hstep
  · split at hstep
    next hphase =>
      split at hstep
      · cases hstep
      · cases hstep
        exact ⟨_, rfl, fun _ => ⟨rfl, rfl, rfl, .inl rfl⟩⟩
    next => cases hstep
  · split at hstep
    next =>
      cases hstep
      exact ⟨_, rfl, fun _ => ⟨rfl, rfl, rfl, .inl rfl⟩⟩
    next => cases hstep
  · split at hstep
    next sched previousRun hphase =>
      cases hstep
      exact ⟨_, rfl, fun _ =>
        ⟨rfl, rfl, rfl, .inr ⟨_, sched, previousRun, rfl, by rw [hphase]; rfl, rfl⟩⟩⟩
    next sched previousRun claimed hphase =>
      cases hstep
      exact ⟨_, rfl, fun _ =>
        ⟨rfl, rfl, rfl, .inr ⟨_, sched, previousRun, rfl, by rw [hphase]; rfl, rfl⟩⟩⟩
    next => cases hstep
  · split at hstep
    next =>
      cases hstep
      exact ⟨_, rfl, fun _ => ⟨rfl, rfl, rfl, .inl rfl⟩⟩
    next => cases hstep
  · cases hstep

/-- A tick has taken schedules, with a clock reading, and one of them was not rolled back. -/
structure Took (i now : ℕ) (schedules : List Schedule) (sched : Schedule) (s : CronState)
    (tick : Tick) : Prop where
  get : s.ticks[i]? = some tick
  schedules : tick.schedules = schedules
  startedAt : tick.startedAt = now
  loading : isLoading tick.phase = false
  rolledBack : sched ∉ tick.rolledBack

theorem took_of_begins {i now : ℕ} {a : CronAction} (sched : Schedule)
    (hbegins : Begins s i now registrations a) (hstep : s.step croner a = some t) :
    ∃ tick, Took i now (schedulesOf registrations) sched t tick := by
  cases hbegins with
  | evaluate hload hi =>
    rw [CronState.step, hload] at hstep
    split at hstep
    · cases hstep
    · cases hstep
      rw [hi]
      exact ⟨_, getElem?_concat_length, rfl, rfl, rfl, not_mem_nil⟩
  | reloadCacheAfterFailure hi hphase =>
    obtain ⟨tick, htick, hstep⟩ := bind_eq_some_iff.1 hstep
    cases hi.symm.trans htick
    rw [ite_none_right_eq_some, tickStep, hphase] at hstep
    obtain ⟨-, ⟨⟩⟩ := hstep
    rename_i rows
    cases rows <;> exact ⟨_, getElem?_set_self (List.getElem?_eq_some_iff.1 hi).1, rfl, rfl,
      rfl, not_mem_nil⟩
  | recoverMissedSchedules hi hphase =>
    obtain ⟨tick, htick, hstep⟩ := bind_eq_some_iff.1 hstep
    cases hi.symm.trans htick
    rw [ite_none_right_eq_some, tickStep, hphase] at hstep
    obtain ⟨-, ⟨⟩⟩ := hstep
    exact ⟨_, getElem?_set_self (List.getElem?_eq_some_iff.1 hi).1, rfl, rfl, rfl, not_mem_nil⟩

namespace Took

variable {i j now : ℕ} {schedules : List Schedule} {tick tick₂ : Tick} {a : CronAction}
  (h : Took i now schedules sched s tick)
include h

/-- A tick makes a step: another one, or this one, whose schedule is not rolled back. -/
theorem tickStep (hj : s.ticks[j]? = some tick₂) (hstep : s.tickStep croner j tick₂ a = some t)
    (hkeeps : j = i → ∀ k, a = .rollback k → ∀ previousRun,
      firing tick₂.phase ≠ some (sched, previousRun)) :
    ∃ tick', Took i now schedules sched t tick' := by
  obtain ⟨tick', hticks, hgoes⟩ := ticks_tickStep hstep
  by_cases hji : j = i
  · subst hji
    cases hj.symm.trans h.get
    have hgo := hgoes h.loading
    refine ⟨tick', ?_, hgo.schedules.trans h.schedules, hgo.startedAt.trans h.startedAt, hgo.loading,
      fun hmem => ?_⟩
    · rw [hticks]
      exact getElem?_set_self (List.getElem?_eq_some_iff.1 hj).1
    · rcases hgo.rolledBack with heq | ⟨k, sched', previousRun, ha, hfiring, heq⟩
      · exact h.rolledBack (heq ▸ hmem)
      · rcases mem_cons.1 (heq ▸ hmem) with rfl | hback
        · exact hkeeps rfl k ha previousRun hfiring
        · exact h.rolledBack hback
  · refine ⟨tick, ?_, h.schedules, h.startedAt, h.loading, h.rolledBack⟩
    rw [hticks, getElem?_set_ne hji]
    exact h.get

theorem addTick {new : Tick} (hticks : t.ticks = s.ticks ++ [new]) : ∃ tick',
    Took i now schedules sched t tick' := by
  refine ⟨tick, ?_, h.schedules, h.startedAt, h.loading, h.rolledBack⟩
  rw [hticks, getElem?_append_left (List.getElem?_eq_some_iff.1 h.get).1]
  exact h.get

theorem step (hkeeps : KeepsFire i sched s a) (hstep : s.step croner a = some t) :
    ∃ tick', Took i now schedules sched t tick' := by
  cases a with
  | onBecomeLeader | refreshCache =>
    cases hstep
    exact h.addTick rfl
  | onLoseLeadership =>
    cases hstep
    exact ⟨tick, h.get, h.schedules, h.startedAt, h.loading, h.rolledBack⟩
  | evaluate node now registrations =>
    rw [CronState.step] at hstep
    split at hstep
    · cases hstep
    · split at hstep
      · cases hstep
        exact h.addTick rfl
      · cases hstep
        exact h.addTick rfl
  | getAll | tryClaimFire | commit | afterCommit =>
    obtain ⟨tick₂, hj, hstep⟩ := bind_eq_some_iff.1 hstep
    exact h.tickStep hj hstep fun _ _ ha => by cases ha
  | rollback j =>
    obtain ⟨tick₂, hj, hstep⟩ := bind_eq_some_iff.1 hstep
    exact h.tickStep hj hstep fun hji _ _ previousRun => hkeeps tick₂ previousRun (hji ▸ rfl) (hji ▸ hj)
  | afterLoad | next =>
    obtain ⟨tick₂, hj, hstep⟩ := bind_eq_some_iff.1 hstep
    obtain ⟨-, hstep⟩ := ite_none_right_eq_some.1 hstep
    exact h.tickStep hj hstep fun _ _ ha => by cases ha
  | die node =>
    cases hstep
    have hkilled : (killed node tick).schedules = tick.schedules ∧
      (killed node tick).startedAt = tick.startedAt ∧
        isLoading (killed node tick).phase = false ∧
          (killed node tick).rolledBack = tick.rolledBack := by
      rw [killed]
      split
      · exact ⟨rfl, rfl, h.loading, rfl⟩
      · split
        · exact ⟨rfl, rfl, rfl, rfl⟩
        · exact ⟨rfl, rfl, h.loading, rfl⟩
    obtain ⟨hschedules, hstarted, hload, hback⟩ := hkilled
    refine ⟨killed node tick, ?_, hschedules.trans h.schedules, hstarted.trans h.startedAt, hload,
      hback ▸ h.rolledBack⟩
    rw [getElem?_map, h.get]
    rfl

end Took

/-- A cron schedule fires once per scheduled time. -/
theorem firesOnce (h : (cronSystem croner).Reachable anyStep s) : FiresOnce croner s := by
  have hreach : ∀ u, (cronSystem croner).Reachable anyStep u → Inv croner u := fun u hu =>
    hu.invariant (fun s hs => Inv.init hs) fun s a t hs _ hstep => Inv.step hs hstep
  have hinv := hreach s h
  refine ⟨fun id trigger => ?_, fun id trigger at_ hat => ?_,
    fun i now registrations a t hbegins hstep registration
    hreg trigger htrigger u hpath tick htick hended hcut at_ hat => ?_⟩
  · by_cases hne : s.fires id trigger = []
    · rw [hne]
      exact .nil
    · obtain ⟨log, hentries, -⟩ :=
        hinv.logs id (scheduleTriggerKey trigger.cronExpression trigger.timezone)
      rw [hinv.fires_eq id trigger hne, ← hentries]
      exact log.rising
  · have hne : s.fires id trigger ≠ [] := fun hnil => by
      rw [hnil] at hat
      cases hat
    obtain ⟨log, hentries, hlast⟩ :=
      hinv.logs id (scheduleTriggerKey trigger.cronExpression trigger.timezone)
    rw [hinv.fires_eq id trigger hne, ← hentries] at hat
    exact hlast.symm.trans hat
  · -- The tick has the schedules of the registrations until it is over.
    obtain ⟨tick', htook⟩ : ∃ tick',
      Took i now (schedulesOf registrations) ⟨registration, trigger⟩ u tick' :=
      hpath.invariant (P := fun u => ∃ tick', Took i now _ _ u tick') (took_of_begins _ hbegins hstep)
        fun _ _ _ ⟨_, hs⟩ hkeeps hstep => hs.step hkeeps hstep
    cases htook.get.symm.trans htick
    have hok := (hreach u ((h.trans (System.Path.refl.tail trivial hstep)).trans
      (hpath.mono fun _ _ _ => trivial))).ticks tick (mem_of_getElem? htick)
    rcases hok.progress hcut _ (htook.schedules ▸ mem_schedulesOf hreg htrigger) with htodo | hrolled |
      ⟨previousRun, hfiring, -⟩ | hdone
    · rw [hok.ended (.inr hended) hcut] at htodo
      cases htodo
    · exact absurd hrolled htook.rolledBack
    · rw [hended] at hfiring
      cases hfiring
    · exact hdone at_ (htook.startedAt ▸ hat)

/-- A schedule for each minute. -/
def eachMinute : LockScheduleTrigger := ⟨"* * * * *", "UTC"⟩

/-- The last full minute before a clock reading. -/
def minuteBefore (now : ℕ) : ℕ := (now - 1) / 60000 * 60000

def minuteCroner : Croner where
  previousRun trigger now := if trigger = eachMinute ∧ 0 < now then some (minuteBefore now) else none
  mono trigger now now' at_ hnow hrun := by
    rw [ite_none_right_eq_some] at hrun
    obtain ⟨⟨htrigger, hpos⟩, hrun⟩ := hrun
    refine ⟨minuteBefore now', if_pos ⟨htrigger, hpos.trans_le hnow⟩, ?_⟩
    rw [← some.inj hrun]
    exact Nat.mul_le_mul_right 60000 (Nat.div_le_div_right (Nat.sub_le_sub_right hnow 1))
  timezone trigger now htz := by
    refine if_neg ?_
    rintro ⟨rfl, -⟩
    exact absurd htz (by decide)

def minutely : RegisteredWorkflow where
  id := ⟨"registration", by decide⟩
  workflowName := "minutely"
  routingKey := "key"
  repoIdentifier := "repo"
  commitSha := none
  sourceFile := none
  triggers := [.schedule eachMinute]

/-- Nodes that have just started. -/
def coldCron : CronState where
  db := ⟨.empty _, []⟩
  nodes _ := ⟨.empty _, false, false, 0⟩
  ticks := []

/-- A second leader, with a cold cache, evaluates the schedule while the first one fires it. -/
def twoLeaders : List CronAction :=
  [.onBecomeLeader 0, .getAll 0 true, .afterLoad 0 70000 [minutely], .next 0 70000, .tryClaimFire 0,
    .onBecomeLeader 1,
    .getAll 1 true, .afterLoad 1 80000 [minutely], .next 1 80000, .commit 0, .tryClaimFire 1,
      .commit 1, .afterCommit 1,
    .next 1 80000, .afterCommit 0, .next 0 90000]

/-- The tick has come to its end. -/
def Tick.isOver (tick : Tick) : Bool :=
  match tick.phase with
  | .ended => !tick.cut
  | _ => false

theorem firesOnce_twoLeaders : ∃ s, (cronSystem minuteCroner).Reachable anyStep s ∧
    s.ticks.countP Tick.isOver = 2 ∧ s.db.events.length = 1 ∧ FiresOnce minuteCroner s := by
  have hrun : (((cronSystem minuteCroner).run (fun _ _ => true) coldCron twoLeaders).any
      fun s => decide (s.ticks.countP Tick.isOver = 2 ∧ s.db.events.length = 1)) := by decide
  obtain ⟨s, hpath, hp⟩ := exists_path_of_run anyStep_of_true _ hrun
  have hreach : (cronSystem minuteCroner).Reachable anyStep s :=
    ⟨coldCron, ⟨rfl, rfl, rfl, fun _ => rfl⟩, hpath⟩
  obtain ⟨hover, hevents⟩ := of_decide_eq_true hp
  exact ⟨s, hreach, hover, hevents, firesOnce hreach⟩

end Kici.Cron
