import Kici.Events.BatchAccumulator
import Kici.Foundation.Lists
import Kici.Foundation.System

/-!
# What becomes of a batch window

Failed runs are appended by any number of calls of `openOrGetBatchWindow` and `appendBatchItem`. A
node that leads ticks from time to time: it selects the windows that have expired, sweeps them one
after the other, and then emits an event for each that has items. Leadership is asked for when a
tick begins and not again, so two nodes may tick at once.

While a tick goes on, what it has swept is in its memory alone. Every item that was appended is
stored, or held by one tick, or counted by one event (`BatchState.places`), and only a tick that
ends early drops what it holds (`places_step`): a sweep or an emit throws, or the node crashes. So a
run is lost where a tick ends that holds items (`exists_run_lost`), and else none is
(`loses_no_run`).
-/

namespace Kici.Events

open List Option BatchStore BatchItem BatchWindow

variable {tick : BatchTick} {k : ℕ}

/-- A failed run on its way into a window. -/
inductive BatchCallPhase
  | inserting
  | selecting
  | appending (windowId : ℕ)
  | done
  | thrown

structure BatchCall where
  input : OpenBatchWindowInput
  run : BatchAccumulatorRun
  phase : BatchCallPhase := .inserting

/-- How far a tick is: the windows that it has yet to sweep and those that it has swept, or those
that it has yet to emit. -/
inductive TickPhase
  | sweeping (expired : List BatchWindow) (swept : List SweptBatchWindow)
  | emitting (swept : List SweptBatchWindow)
  | ended

structure BatchTick where
  node : ℕ
  phase : TickPhase

structure BatchState where
  store : BatchStore
  leads : ℕ → Bool
  calls : List BatchCall := []
  ticks : List BatchTick := []
  /-- All that was ever appended. -/
  appended : List BatchItem := []
  /-- The events that are committed. -/
  events : List BatchEvent := []

inductive BatchAction
  | call (input : OpenBatchWindowInput) (run : BatchAccumulatorRun)
  | callStep (i : ℕ) (now : ℕ)
  | setLeader (node : ℕ) (leads : Bool)
  | beginTick (node : ℕ) (now : ℕ)
  | tickStep (k : ℕ) (skipLocked : Bool)
  /-- What a tick waits for throws; an emit that throws may be committed. -/
  | throw (k : ℕ) (committed : Bool)
  | crash (node : ℕ)

/-- The items of windows that were swept. -/
def itemsOf (swept : List SweptBatchWindow) : List BatchItem := swept.flatMap (·.items)

/-- What `processBatchWindows` emits for a window: nothing if it has no items. -/
def SweptBatchWindow.emitted (swept : SweptBatchWindow) : List BatchEvent :=
  if swept.runs.length = 0 then [] else [swept.event]

namespace TickPhase

/-- What is swept and not yet emitted. -/
def held : TickPhase → List BatchItem
  | .sweeping _ swept | .emitting swept => itemsOf swept
  | .ended => []

/-- The steps that are left of a tick. -/
def remaining : TickPhase → ℕ
  | .sweeping expired swept => 2 * expired.length + swept.length + 1
  | .emitting swept => swept.length
  | .ended => 0

/-- The event that is committed although the emit throws. -/
def committedLate : TickPhase → List BatchEvent
  | .emitting (swept :: _) => swept.emitted
  | _ => []

/-- What is swept, but for the window of the event that is now emitted. -/
def heldBehind : TickPhase → List BatchItem
  | .emitting (_ :: rest) => itemsOf rest
  | phase => phase.held

end TickPhase

/-- A tick when a node crashes. -/
def BatchTick.crashIn (node : ℕ) (tick : BatchTick) : BatchTick :=
  if tick.node = node then { tick with phase := .ended } else tick

namespace BatchState

variable (byExpiry : OrderBy expiresAt) (byCreation : OrderBy createdAt) (s : BatchState)

/-- The next statement of a call. -/
def callStep (i : ℕ) (call : BatchCall) (now : ℕ) : BatchState :=
  match call.phase with
  | .inserting =>
    match s.store.insertWindow call.input now with
    | (store, some windowId) =>
      { s with store, calls := s.calls.set i { call with phase := .appending windowId } }
    | (_, none) => { s with calls := s.calls.set i { call with phase := .selecting } }
  | .selecting =>
    match s.store.existingWindow call.input.registrationId with
    | some windowId => { s with calls := s.calls.set i { call with phase := .appending windowId } }
    | none => { s with calls := s.calls.set i { call with phase := .thrown } }
  | .appending windowId =>
    match s.store.appendBatchItem windowId call.run now with
    | some (store, item) =>
      { s with
        store
        appended := s.appended ++ [item]
        calls := s.calls.set i { call with phase := .done } }
    | none => { s with calls := s.calls.set i { call with phase := .thrown } }
  | .done | .thrown => s

/-- A tick goes on. -/
def tickOn (k : ℕ) (tick : BatchTick) (phase : TickPhase) : BatchState :=
  { s with ticks := s.ticks.set k { tick with phase } }

/-- The next step of a tick. -/
def tickStep (k : ℕ) (tick : BatchTick) (skipLocked : Bool) : Option BatchState :=
  match tick.phase with
  | .sweeping (window :: rest) swept =>
    let (store, result) := s.store.sweepWindow byCreation window skipLocked
    some ({ s with store }.tickOn k tick (.sweeping rest (swept ++ result.toList)))
  | .sweeping [] swept => some (s.tickOn k tick (.emitting swept))
  | .emitting (swept :: rest) =>
    some ({ s with events := s.events ++ swept.emitted }.tickOn k tick (.emitting rest))
  | .emitting [] | .ended => none

def step : BatchAction → Option BatchState
  | .call input run => some { s with calls := s.calls ++ [⟨input, run, .inserting⟩] }
  | .callStep i now => s.calls[i]?.map fun call => s.callStep i call now
  | .setLeader node leads => some { s with leads := fun n => if n = node then leads else s.leads n }
  | .beginTick node now =>
    if s.leads node then
      some { s with ticks := s.ticks ++ [⟨node, .sweeping (s.store.expiredWindows byExpiry now) []⟩] }
    else none
  | .tickStep k skipLocked => s.ticks[k]?.bind fun tick => s.tickStep byCreation k tick skipLocked
  | .throw k committed =>
    s.ticks[k]?.map fun tick =>
      { s with events := s.events ++ if committed then tick.phase.committedLate else [] }.tickOn
        k tick .ended
  | .crash node =>
    some { s with
      leads := fun n => if n = node then false else s.leads n
      ticks := s.ticks.map (.crashIn node) }

/-- What is held by ticks. -/
def held : List BatchItem := s.ticks.flatMap (·.phase.held)

/-- What the committed events count. -/
def counted : List BatchItem := s.events.flatMap (·.counted)

/-- How often an item is stored, held by a tick, or counted by an event. -/
def places (item : BatchItem) : ℕ := s.store.items.count item + s.held.count item + s.counted.count item

/-- What a step drops of what is held. -/
def dropped : BatchAction → List BatchItem
  | .throw k committed =>
    s.ticks[k]?.elim [] fun tick => if committed then tick.phase.heldBehind else tick.phase.held
  | .crash node => (s.ticks.filter (·.node = node)).flatMap (·.phase.held)
  | .call .. | .callStep .. | .setLeader .. | .beginTick .. | .tickStep .. => []

/-- A tick ends early only when it holds nothing. -/
def careful (a : BatchAction) : Bool := (s.dropped a).isEmpty

/-- What a tick holds. -/
def heldBy (k : ℕ) : List BatchItem := s.ticks[k]?.elim [] (·.phase.held)

/-- The steps that are left of a tick. -/
def remaining (k : ℕ) : ℕ := s.ticks[k]?.elim 0 (·.phase.remaining)

end BatchState

/-- The step is one of a tick. -/
def BatchAction.ofTick (k : ℕ) : BatchAction → Bool
  | .tickStep k' _ | .throw k' _ => k' = k
  | .call .. | .callStep .. | .setLeader .. | .beginTick .. | .crash _ => false

open BatchState

/-- The calls and the ticks over one database. -/
def batchSystem (byExpiry : OrderBy expiresAt) (byCreation : OrderBy createdAt) :
    System BatchState BatchAction where
  init := {s | s.store = .empty ∧ s.calls = [] ∧ s.ticks = [] ∧ s.appended = [] ∧ s.events = []}
  step := step byExpiry byCreation

variable {byExpiry : OrderBy expiresAt} {byCreation : OrderBy createdAt}
  {s t : BatchState} {a : BatchAction} {item : BatchItem} {k : ℕ}

/-- The item is in a window that is stored, and nowhere else. -/
def BatchState.Stored (s : BatchState) (item : BatchItem) : Prop :=
  s.store.items.count item = 1 ∧ s.store.hasWindow item.windowId = true ∧ item ∉ s.held ∧
    item ∉ s.counted

/-- One event counts the item, once, and it is nowhere else. -/
def BatchState.CountedOnce (s : BatchState) (item : BatchItem) : Prop :=
  s.counted.count item = 1 ∧ item ∉ s.store.items ∧ item ∉ s.held

/-- A tick holds the item, and nobody else does. It can take its next step, and when it has taken
the steps that are left of it, whatever happens in between, an event counts the item. -/
structure WillBeCounted (byExpiry : OrderBy expiresAt) (byCreation : OrderBy createdAt)
    (s : BatchState) (item : BatchItem) (k : ℕ) : Prop where
  held : item ∈ s.heldBy k
  once : s.held.count item = 1
  not_stored : item ∉ s.store.items
  not_counted : item ∉ s.counted
  goes_on : ∃ a t, a.ofTick k = true ∧ s.careful a = true ∧
    (batchSystem byExpiry byCreation).step s a = some t
  ends : ∀ as t, (batchSystem byExpiry byCreation).run careful s as = some t →
    s.remaining k ≤ as.countP (·.ofTick k) → t.CountedOnce item

/-! ## What a step does to the items -/

theorem itemsOf_append (xs ys : List SweptBatchWindow) : itemsOf (xs ++ ys) = itemsOf xs ++ itemsOf ys :=
  flatMap_append

theorem count_emitted (swept : SweptBatchWindow) (item : BatchItem) :
    (swept.emitted.flatMap (·.counted)).count item = swept.items.count item := by
  rw [SweptBatchWindow.emitted]
  split
  next hempty =>
    have hnil : swept.items = [] := map_eq_nil_iff.1 (length_eq_zero_iff.1 hempty)
    rw [hnil]
    rfl
  · rw [flatMap_singleton]
    rfl

theorem itemsOf_cons (swept : SweptBatchWindow) (rest : List SweptBatchWindow) :
    itemsOf (swept :: rest) = swept.items ++ itemsOf rest := flatMap_cons

theorem nextId_sweepWindow (store : BatchStore) (window : BatchWindow) (skipLocked : Bool) :
    store.nextId ≤ (store.sweepWindow byCreation window skipLocked).1.nextId := by
  rw [sweepWindow]
  split <;> exact le_refl _

/-- What a sweep takes from the store is what it hands on. -/
theorem count_sweepWindow (byCreation : OrderBy createdAt) (store : BatchStore) (window : BatchWindow)
    (skipLocked : Bool) (item : BatchItem) :
    (store.sweepWindow byCreation window skipLocked).1.items.count item +
      (itemsOf (store.sweepWindow byCreation window skipLocked).2.toList).count item =
      store.items.count item := by
  rw [sweepWindow]
  split
  · rfl
  · have hsplit := (byCreation.perm (store.items.filter (·.windowId = window.id))).count_eq item
    have hall : (itemsOf
      [⟨window, byCreation.sort (store.items.filter (·.windowId = window.id))⟩]).count item =
        (store.items.filter (·.windowId = window.id)).count item := by
      rw [itemsOf, flatMap_singleton]
      exact hsplit
    have hparts :=
      (filter_append_perm (fun item : BatchItem => item.windowId = window.id) store.items).count_eq item
    rw [count_append] at hparts
    simp only [deleteWindow, toList_some, hall]
    simp only [decide_not] at hparts ⊢
    omega

/-- Where the items are when a tick goes on. -/
theorem places_of_set (htick : s.ticks[k]? = some tick) (phase : TickPhase)
    (hticks : t.ticks = s.ticks.set k { tick with phase }) (item : BatchItem) :
    t.places item + tick.phase.held.count item + s.store.items.count item + s.counted.count item =
      s.places item + phase.held.count item + t.store.items.count item + t.counted.count item := by
  have hheld : t.held.count item + tick.phase.held.count item = s.held.count item +
    phase.held.count item := by
    rw [held, hticks]
    exact count_flatMap_set (fun tick : BatchTick => tick.phase.held) htick _ item
  rw [places, places]
  omega

/-! ## What a step does -/

/-- Nothing is appended, and the items stay where they are or go on, but for those that are
dropped. -/
structure Moves (s : BatchState) (a : BatchAction) (t : BatchState) : Prop where
  appended : t.appended = s.appended
  nextId : s.store.nextId ≤ t.store.nextId
  places : ∀ item, t.places item + (s.dropped a).count item = s.places item

/-- A new item is appended. -/
structure Appends (s : BatchState) (a : BatchAction) (new : BatchItem) (t : BatchState) : Prop where
  dropped : s.dropped a = []
  id : new.id = s.store.nextId
  nextId : t.store.nextId = s.store.nextId + 1
  appended : t.appended = s.appended ++ [new]
  places : ∀ item, t.places item = s.places item + [new].count item

theorem moves_or_appends_callStep (i : ℕ) (call : BatchCall) (now : ℕ) :
    Moves s (.callStep i now) (s.callStep i call now) ∨
      ∃ new, Appends s (.callStep i now) new (s.callStep i call now) := by
  rw [callStep]
  cases call.phase with
  | inserting =>
    left
    dsimp only
    rw [insertWindow]
    cases s.store.windows.lookup call.input.registrationId with
    | some window => exact ⟨rfl, le_refl _, fun _ => rfl⟩
    | none => exact ⟨rfl, Nat.le_succ _, fun _ => rfl⟩
  | selecting =>
    left
    dsimp only
    cases s.store.existingWindow call.input.registrationId with
    | some | none => exact ⟨rfl, le_refl _, fun _ => rfl⟩
  | appending windowId =>
    dsimp only
    rw [appendBatchItem]
    by_cases hwindow : s.store.hasWindow windowId
    · right
      rw [dif_pos hwindow]
      refine ⟨_, rfl, rfl, rfl, rfl, fun item => ?_⟩
      simp only [places, held, counted, count_append]
      omega
    · left
      rw [dif_neg hwindow]
      exact ⟨rfl, le_refl _, fun _ => rfl⟩
  | done | thrown => exact .inl ⟨rfl, le_refl _, fun _ => rfl⟩

open TickPhase

theorem moves_tickStep {skipLocked : Bool} (htick : s.ticks[k]? = some tick)
    (hstep : s.tickStep byCreation k tick skipLocked = some t) : Moves s (.tickStep k skipLocked) t := by
  rw [tickStep] at hstep
  split at hstep
  next window rest swept hphase =>
    have ht := some.inj hstep
    have hstore : t.store = (s.store.sweepWindow byCreation window skipLocked).1 := by rw [← ht]; rfl
    refine ⟨by rw [← ht]; rfl, by rw [hstore]; exact nextId_sweepWindow s.store window skipLocked,
      fun item => ?_⟩
    have hcounted : t.counted.count item = s.counted.count item := by rw [← ht]; rfl
    have hplaces := places_of_set (t := t) htick
      (.sweeping rest (swept ++ (s.store.sweepWindow byCreation window skipLocked).2.toList))
        (by rw [← ht]; rfl) item
    have hswept := count_sweepWindow byCreation s.store window skipLocked item
    rw [hphase, TickPhase.held, TickPhase.held, itemsOf_append, count_append, hstore] at hplaces
    rw [dropped, count_nil]
    omega
  next swept hphase =>
    have ht := some.inj hstep
    refine ⟨by rw [← ht]; rfl, by rw [← ht]; exact le_refl _, fun item => ?_⟩
    have hstored : t.store.items.count item = s.store.items.count item := by rw [← ht]; rfl
    have hcounted : t.counted.count item = s.counted.count item := by rw [← ht]; rfl
    have hplaces := places_of_set (t := t) htick (.emitting swept) (by rw [← ht]; rfl) item
    rw [hphase, TickPhase.held, TickPhase.held] at hplaces
    rw [dropped, count_nil]
    omega
  next swept rest hphase =>
    have ht := some.inj hstep
    refine ⟨by rw [← ht]; rfl, by rw [← ht]; exact le_refl _, fun item => ?_⟩
    have hstored : t.store.items.count item = s.store.items.count item := by rw [← ht]; rfl
    have hcounted : t.counted.count item = s.counted.count item + swept.items.count item := by
      rw [← ht, ← count_emitted, ← count_append, counted, counted, ← flatMap_append]
      rfl
    have hplaces := places_of_set (t := t) htick (.emitting rest) (by rw [← ht]; rfl) item
    rw [hphase, TickPhase.held, TickPhase.held, itemsOf_cons, count_append] at hplaces
    rw [dropped, count_nil]
    omega
  · cases hstep
  · cases hstep

/-- A tick that throws has emitted at most the window that it was about to. -/
theorem count_committedLate (phase : TickPhase) (item : BatchItem) :
    (phase.committedLate.flatMap (·.counted)).count item + phase.heldBehind.count item =
    phase.held.count item := by
  rcases phase with _ | ⟨_ | ⟨swept, rest⟩⟩ | _
  · exact Nat.zero_add _
  · rfl
  · rw [TickPhase.committedLate, TickPhase.heldBehind, TickPhase.held, itemsOf_cons, count_append,
      count_emitted]
  · rfl

theorem moves_throw {committed : Bool} (htick : s.ticks[k]? = some tick)
    (hstep : (batchSystem byExpiry byCreation).step s (.throw k committed) = some t) :
    Moves s (.throw k committed) t := by
  have ht : { s with events := s.events ++ if committed then tick.phase.committedLate else [] }.tickOn
    k tick .ended =
      t := by
    rw [batchSystem] at hstep
    simp only [step, htick, map_some] at hstep
    exact some.inj hstep
  refine ⟨by rw [← ht]; rfl, by rw [← ht]; exact le_refl _, fun item => ?_⟩
  have hstored : t.store.items.count item = s.store.items.count item := by rw [← ht]; rfl
  have hplaces := places_of_set (t := t) htick .ended (by rw [← ht]; rfl) item
  rw [TickPhase.held, count_nil] at hplaces
  rw [dropped, htick, elim_some]
  cases committed with
  | true =>
    have hlate := count_committedLate tick.phase item
    have hcounted : t.counted.count item =
        s.counted.count item + (tick.phase.committedLate.flatMap (·.counted)).count item := by
      rw [← ht, ← count_append, counted, counted, ← flatMap_append]
      rfl
    rw [if_pos rfl]
    omega
  | false =>
    have hcounted : t.counted.count item = s.counted.count item := by
      rw [← ht, counted, counted]
      exact congrArg (fun events => (events.flatMap BatchEvent.counted).count item) (append_nil s.events)
    rw [if_neg Bool.false_ne_true]
    omega

/-- A node that crashes drops what its ticks hold. -/
theorem count_held_crashIn (node : ℕ) (ticks : List BatchTick) (item : BatchItem) :
    ((ticks.map (BatchTick.crashIn node)).flatMap fun tick => tick.phase.held).count item +
      ((ticks.filter (·.node = node)).flatMap fun tick => tick.phase.held).count item =
      (ticks.flatMap fun tick => tick.phase.held).count item := by
  induction ticks with
  | nil => rfl
  | cons tick ticks ih =>
    rw [map_cons, flatMap_cons, flatMap_cons, count_append, count_append, filter_cons,
      BatchTick.crashIn]
    by_cases hnode : tick.node = node
    · rw [if_pos hnode, if_pos (decide_eq_true hnode), flatMap_cons, count_append]
      have hended : (ended.held).count item = 0 := rfl
      dsimp only
      omega
    · rw [if_neg hnode, if_neg (by simpa using hnode)]
      omega

theorem moves_crash {node : ℕ}
    (hstep : (batchSystem byExpiry byCreation).step s (.crash node) = some t) :
    Moves s (.crash node) t := by
  have ht : { s with
      leads := fun n => if n = node then false else s.leads n
      ticks := s.ticks.map (BatchTick.crashIn node) } = t := some.inj hstep
  refine ⟨by rw [← ht], by rw [← ht], fun item => ?_⟩
  have hheld : t.held.count item + (s.dropped (.crash node)).count item = s.held.count item := by
    rw [← ht]
    exact count_held_crashIn node s.ticks item
  have hstored : t.store.items.count item = s.store.items.count item := by rw [← ht]
  have hcounted : t.counted.count item = s.counted.count item := by
    rw [← ht]
    rfl
  rw [places, places]
  omega

theorem moves_beginTick {node now : ℕ}
    (hstep : (batchSystem byExpiry byCreation).step s (.beginTick node now) = some t) :
    Moves s (.beginTick node now) t := by
  rw [batchSystem] at hstep
  simp only [step, ite_none_right_eq_some] at hstep
  have ht := some.inj hstep.2
  refine ⟨by rw [← ht], by rw [← ht], fun item => ?_⟩
  have hheld : t.held.count item = s.held.count item := by
    rw [← ht, BatchState.held, flatMap_append, count_append]
    rfl
  have hstored : t.store.items.count item = s.store.items.count item := by rw [← ht]
  have hcounted : t.counted.count item = s.counted.count item := by
    rw [← ht]
    rfl
  rw [places, places, dropped, count_nil]
  omega

/-- What a step does to the items. -/
theorem moves_or_appends (hstep : (batchSystem byExpiry byCreation).step s a = some t) :
    Moves s a t ∨ ∃ new, Appends s a new t := by
  cases a with
  | call | setLeader =>
    cases hstep
    exact .inl ⟨rfl, le_refl _, fun _ => rfl⟩
  | callStep i now =>
    obtain ⟨call, -, rfl⟩ := map_eq_some_iff.1 hstep
    exact moves_or_appends_callStep i call now
  | beginTick node now => exact .inl (moves_beginTick hstep)
  | tickStep k skipLocked =>
    obtain ⟨tick, htick, hnext⟩ := bind_eq_some_iff.1 hstep
    exact .inl (moves_tickStep htick hnext)
  | throw k committed =>
    obtain ⟨tick, htick, -⟩ := map_eq_some_iff.1 hstep
    exact .inl (moves_throw htick hstep)
  | crash node => exact .inl (moves_crash hstep)

/-! ## Where the items are -/

/-- An id that is not drawn yet is that of no item. -/
def Fresh (s : BatchState) : Prop :=
  ∀ item, s.store.nextId ≤ item.id → s.places item = 0 ∧ item ∉ s.appended

theorem Fresh.step (h : Fresh s) (hstep : (batchSystem byExpiry byCreation).step s a = some t) :
    Fresh t := by
  intro item hid
  rcases moves_or_appends hstep with hmoves | ⟨new, happends⟩
  · obtain ⟨hplaces, hmem⟩ := h item (hmoves.nextId.trans hid)
    have hitem := hmoves.places item
    rw [hmoves.appended]
    exact ⟨by omega, hmem⟩
  · rw [happends.nextId] at hid
    obtain ⟨hplaces, hmem⟩ := h item (by omega)
    have hne : item ≠ new := by
      rintro rfl
      have := happends.id
      omega
    rw [happends.places, happends.appended, count_singleton, if_neg (by simpa using hne.symm), hplaces]
    refine ⟨rfl, fun hnew => ?_⟩
    rcases mem_append.1 hnew with hold | hnew
    · exact hmem hold
    · exact hne (mem_singleton.1 hnew)

theorem fresh_init (hinit : s ∈ (batchSystem byExpiry byCreation).init) : Fresh s := by
  obtain ⟨hstore, -, hticks, happended, hevents⟩ := hinit
  intro item _
  rw [BatchState.places, BatchState.held, BatchState.counted, hstore, hticks, happended, hevents]
  exact ⟨rfl, not_mem_nil⟩

/-- What was appended before, a step drops or leaves somewhere. -/
theorem places_step (hfresh : Fresh s) (hmem : item ∈ s.appended)
    (hstep : (batchSystem byExpiry byCreation).step s a = some t) :
    item ∈ t.appended ∧ t.places item + (s.dropped a).count item = s.places item := by
  rcases moves_or_appends hstep with hmoves | ⟨new, happends⟩
  · exact ⟨hmoves.appended ▸ hmem, hmoves.places item⟩
  · have hne : item ≠ new := by
      rintro rfl
      exact (hfresh item (ge_of_eq happends.id)).2 hmem
    refine ⟨happends.appended ▸ mem_append_left _ hmem, ?_⟩
    rw [happends.dropped, happends.places, count_singleton, if_neg (by simpa using hne.symm)]
    rfl

/-- Every item that was appended is in one place. -/
theorem Fresh.once (hfresh : Fresh s) (h : ∀ item ∈ s.appended, s.places item = 1)
    (hcareful : s.careful a)
    (hstep : (batchSystem byExpiry byCreation).step s a = some t) : ∀ item ∈ t.appended,
    t.places item = 1 := by
  intro item hmem
  rcases moves_or_appends hstep with hmoves | ⟨new, happends⟩
  · have hitem := hmoves.places item
    rw [List.isEmpty_iff.1 hcareful, count_nil] at hitem
    exact hitem.trans (h item (hmoves.appended ▸ hmem))
  · rw [happends.appended] at hmem
    rw [happends.places]
    rcases mem_append.1 hmem with hold | hnew
    · have hne : new ≠ item := by
        rintro rfl
        exact (hfresh new (ge_of_eq happends.id)).2 hold
      rw [h item hold, count_singleton, if_neg (by simpa using hne)]
    · obtain rfl := mem_singleton.1 hnew
      rw [(hfresh item (ge_of_eq happends.id)).1, count_singleton_self]

/-! ## A tick that holds an item -/

/-- A tick that holds something has steps left. -/
theorem remaining_pos {phase : TickPhase} (hheld : item ∈ phase.held) : 0 < phase.remaining := by
  rcases phase with ⟨expired, swept⟩ | ⟨_ | ⟨swept, rest⟩⟩ | _
  · exact Nat.succ_pos _
  · cases hheld
  · exact Nat.succ_pos _
  · cases hheld

theorem exists_tick_of_heldBy (hheld : item ∈ s.heldBy k) :
    ∃ tick, s.ticks[k]? = some tick ∧ item ∈ tick.phase.held := by
  rw [heldBy] at hheld
  cases htick : s.ticks[k]? with
  | none =>
    rw [htick] at hheld
    cases hheld
  | some tick =>
    rw [htick] at hheld
    exact ⟨tick, rfl, hheld⟩

theorem ticks_callStep (i : ℕ) (call : BatchCall) (now : ℕ) :
    (s.callStep i call now).ticks = s.ticks ∧ (s.callStep i call now).events = s.events := by
  rw [callStep]
  repeat' split
  all_goals exact ⟨rfl, rfl⟩

/-- The steps of others leave a tick as it is, unless the node crashes. -/
theorem tick_of_step (htick : s.ticks[k]? = some tick) (hheld : item ∈ tick.phase.held)
    (hother : a.ofTick k = false) (hcareful : s.careful a)
    (hstep : (batchSystem byExpiry byCreation).step s a = some t) : t.ticks[k]? = some tick := by
  cases a with
  | call | setLeader =>
    cases hstep
    exact htick
  | callStep i now =>
    obtain ⟨call, -, rfl⟩ := map_eq_some_iff.1 hstep
    rw [(ticks_callStep i call now).1]
    exact htick
  | beginTick node now =>
    rw [batchSystem] at hstep
    simp only [step, ite_none_right_eq_some] at hstep
    rw [← some.inj hstep.2]
    exact (getElem?_append_left (List.getElem?_eq_some_iff.1 htick).1).trans htick
  | tickStep k' skipLocked =>
    obtain ⟨tick', -, hnext⟩ := bind_eq_some_iff.1 hstep
    have hne : k' ≠ k := of_decide_eq_false hother
    have hset : ∃ phase, t.ticks = s.ticks.set k' { tick' with phase } := by
      rw [tickStep] at hnext
      split at hnext
      all_goals
        cases hnext
        try exact ⟨_, rfl⟩
    obtain ⟨phase, hset⟩ := hset
    rw [hset, getElem?_set_ne hne]
    exact htick
  | throw k' committed =>
    obtain ⟨tick', -, rfl⟩ := map_eq_some_iff.1 hstep
    have hne : k' ≠ k := of_decide_eq_false hother
    exact (getElem?_set_ne hne).trans htick
  | crash node =>
    cases hstep
    have hnode : tick.node ≠ node := by
      intro heq
      have hdropped : item ∈ s.dropped (.crash node) :=
        mem_flatMap.2 ⟨tick, mem_filter.2 ⟨mem_of_getElem? htick, decide_eq_true heq⟩, hheld⟩
      rw [List.isEmpty_iff.1 hcareful] at hdropped
      cases hdropped
    rw [getElem?_map, htick, map_some, BatchTick.crashIn, if_neg hnode]

theorem length_toList_le {α : Type} (o : Option α) : o.toList.length ≤ 1 := by
  cases o with
  | none => exact Nat.zero_le 1
  | some a => exact le_refl 1

theorem mem_emitted (swept : SweptBatchWindow) (item : BatchItem) :
    item ∈ swept.emitted.flatMap (·.counted) ↔ item ∈ swept.items := by
  rw [← count_pos_iff, count_emitted, count_pos_iff]

theorem mem_counted_append {events new : List BatchEvent} (h : item ∈ new.flatMap (·.counted)) :
    item ∈ (events ++ new).flatMap (·.counted) := by
  rw [flatMap_append]
  exact mem_append_right _ h

/-- A step of a tick that holds an item brings it nearer to an event. -/
theorem counted_or_held_own (htick : s.ticks[k]? = some tick)
    (hheld : item ∈ tick.phase.held) (hown : a.ofTick k) (hcareful : s.careful a)
    (hstep : (batchSystem byExpiry byCreation).step s a = some t) :
    item ∈ t.counted ∨ ∃ phase, t.ticks[k]? = some { tick with phase } ∧ item ∈ phase.held ∧
      phase.remaining + 1 ≤ tick.phase.remaining := by
  have hget : ∀ phase, (s.ticks.set k { tick with phase })[k]? = some { tick with phase } :=
    fun phase => getElem?_set_self (List.getElem?_eq_some_iff.1 htick).1
  cases a with
  | tickStep k' skipLocked =>
    obtain rfl : k' = k := of_decide_eq_true hown
    obtain ⟨tick', htick', hnext⟩ := bind_eq_some_iff.1 hstep
    obtain rfl := some.inj (htick'.symm.trans htick)
    rw [tickStep] at hnext
    split at hnext
    next window rest swept hphase =>
      cases hnext
      refine .inr ⟨.sweeping rest
        (swept ++ (s.store.sweepWindow byCreation window skipLocked).2.toList), hget _, ?_, ?_⟩
      · rw [hphase] at hheld
        rw [TickPhase.held, itemsOf_append]
        exact mem_append_left _ hheld
      · have hlength := length_toList_le (s.store.sweepWindow byCreation window skipLocked).2
        rw [hphase, TickPhase.remaining, TickPhase.remaining, length_append, length_cons]
        omega
    next swept hphase =>
      cases hnext
      rw [hphase] at hheld ⊢
      exact .inr ⟨_, hget _, hheld, by rw [TickPhase.remaining, TickPhase.remaining]; omega⟩
    next swept rest hphase =>
      cases hnext
      rw [hphase, TickPhase.held, itemsOf_cons] at hheld
      rcases mem_append.1 hheld with hfirst | hrest
      · exact .inl (mem_counted_append ((mem_emitted swept item).2 hfirst))
      · refine .inr ⟨_, hget _, hrest, ?_⟩
        rw [hphase]
        exact le_refl _
    · cases hnext
    · cases hnext
  | throw k' committed =>
    obtain rfl : k' = k := of_decide_eq_true hown
    obtain ⟨tick', htick', rfl⟩ := map_eq_some_iff.1 hstep
    obtain rfl := some.inj (htick'.symm.trans htick)
    have hnone := List.isEmpty_iff.1 hcareful
    rw [dropped, htick, elim_some] at hnone
    cases committed with
    | false =>
      rw [if_neg Bool.false_ne_true] at hnone
      rw [hnone] at hheld
      cases hheld
    | true =>
      -- Nothing is behind the window that is emitted, so the item is of that window.
      rw [if_pos rfl] at hnone
      have hlate := count_committedLate tick'.phase item
      rw [hnone, count_nil] at hlate
      have hpos := count_pos_iff.2 hheld
      have hin : item ∈ tick'.phase.committedLate.flatMap (·.counted) := count_pos_iff.1 (by omega)
      exact .inl (mem_counted_append hin)
  | call | callStep | setLeader | beginTick | crash => cases hown

theorem counted_or_held (hheld : item ∈ s.heldBy k) (hcareful : s.careful a)
    (hstep : (batchSystem byExpiry byCreation).step s a = some t) :
    item ∈ t.counted ∨ item ∈ t.heldBy k ∧ t.remaining k + (a.ofTick k).toNat ≤ s.remaining k := by
  obtain ⟨tick, htick, hmem⟩ := exists_tick_of_heldBy hheld
  cases hown : a.ofTick k with
  | true =>
    rcases counted_or_held_own htick hmem hown hcareful hstep with hcounted | ⟨phase, hphase, hin, hle⟩
    · exact .inl hcounted
    · rw [BatchState.heldBy, BatchState.remaining, BatchState.remaining, htick, hphase]
      exact .inr ⟨hin, hle⟩
  | false =>
    have hkept := tick_of_step htick hmem hown hcareful hstep
    rw [BatchState.heldBy, BatchState.remaining, BatchState.remaining, htick, hkept]
    exact .inr ⟨hmem, le_refl _⟩

/-- An event that is committed stays. -/
theorem counted_step (hcounted : item ∈ s.counted)
    (hstep : (batchSystem byExpiry byCreation).step s a = some t) : item ∈ t.counted := by
  obtain ⟨new, hnew⟩ : ∃ new, t.events = s.events ++ new := by
    cases a with
    | callStep i now =>
      obtain ⟨call, -, rfl⟩ := map_eq_some_iff.1 hstep
      exact ⟨[], (ticks_callStep i call now).2.trans (append_nil _).symm⟩
    | beginTick node now =>
      rw [batchSystem] at hstep
      simp only [step, ite_none_right_eq_some] at hstep
      rw [← some.inj hstep.2]
      exact ⟨[], (append_nil _).symm⟩
    | tickStep k' skipLocked =>
      obtain ⟨tick, -, hnext⟩ := bind_eq_some_iff.1 hstep
      rw [tickStep] at hnext
      split at hnext
      next =>
        cases hnext
        exact ⟨[], (append_nil _).symm⟩
      next =>
        cases hnext
        exact ⟨[], (append_nil _).symm⟩
      next =>
        cases hnext
        exact ⟨_, rfl⟩
      · cases hnext
      · cases hnext
    | throw k' committed =>
      obtain ⟨tick, -, rfl⟩ := map_eq_some_iff.1 hstep
      exact ⟨_, rfl⟩
    | call | setLeader | crash =>
      cases hstep
      exact ⟨[], (append_nil _).symm⟩
  rw [counted, hnew, flatMap_append]
  exact mem_append_left _ hcounted

/-- Whatever happens in between, an item that a tick holds is counted when the tick has taken the
steps that are left. -/
theorem counted_of_run {as : List BatchAction} (hfresh : Fresh s)
    (honce : ∀ item ∈ s.appended, s.places item = 1) (hmem : item ∈ s.appended)
    (hitem : item ∈ s.counted ∨ item ∈ s.heldBy k ∧ s.remaining k ≤ as.countP (·.ofTick k))
    (hrun : (batchSystem byExpiry byCreation).run careful s as = some t) :
    item ∈ t.counted ∧ t.places item = 1 := by
  induction as generalizing s with
  | nil =>
    cases hrun
    refine ⟨hitem.resolve_right fun hheld => ?_, honce item hmem⟩
    obtain ⟨tick, htick, hin⟩ := exists_tick_of_heldBy hheld.1
    have hpos := remaining_pos hin
    have hle := hheld.2
    rw [BatchState.remaining, htick] at hle
    exact absurd hle (Nat.not_le.2 hpos)
  | cons a as ih =>
    rw [System.run, ite_none_right_eq_some] at hrun
    obtain ⟨hcareful, hrun⟩ := hrun
    obtain ⟨u, hstep, hrest⟩ := bind_eq_some_iff.1 hrun
    refine ih (hfresh.step hstep) (hfresh.once honce hcareful hstep)
      (places_step hfresh hmem hstep).1 ?_ hrest
    rcases hitem with hcounted | ⟨hheld, hle⟩
    · exact .inl (counted_step hcounted hstep)
    · rw [countP_cons] at hle
      rcases counted_or_held hheld hcareful hstep with hcounted | ⟨hin, hless⟩
      · exact .inl hcounted
      · refine .inr ⟨hin, ?_⟩
        cases hown : a.ofTick k with
        | true =>
          rw [hown] at hless hle
          have : Bool.toNat true = 1 := rfl
          rw [if_pos rfl] at hle
          omega
        | false =>
          rw [hown] at hless hle
          have : Bool.toNat false = 0 := rfl
          rw [if_neg Bool.false_ne_true] at hle
          omega

/-! ## The results -/

theorem not_mem_of_count {l : List BatchItem} (h : l.count item = 0) : item ∉ l := count_eq_zero.1 h

/-- A tick that holds an item can go on. -/
theorem exists_step_of_heldBy (hheld : item ∈ s.heldBy k) :
    ∃ a t, a.ofTick k ∧ s.careful a ∧ (batchSystem byExpiry byCreation).step s a = some t := by
  obtain ⟨tick, htick, hin⟩ := exists_tick_of_heldBy hheld
  obtain ⟨t, ht⟩ : ∃ t, s.tickStep byCreation k tick false = some t := by
    rw [tickStep]
    rcases hphase : tick.phase with ⟨_ | ⟨window, rest⟩, swept⟩ | ⟨_ | ⟨swept, rest⟩⟩ | _
    · exact ⟨_, rfl⟩
    · exact ⟨_, rfl⟩
    · rw [hphase] at hin
      cases hin
    · exact ⟨_, rfl⟩
    · rw [hphase] at hin
      cases hin
  exact ⟨.tickStep k false, t, decide_eq_true rfl, rfl, bind_eq_some_iff.2 ⟨tick, htick, ht⟩⟩

theorem countedOnce_of_places (hin : item ∈ s.counted) (hplaces : s.places item = 1) :
    s.CountedOnce item := by
  have hpos := count_pos_iff.2 hin
  rw [places] at hplaces
  exact ⟨by omega, not_mem_of_count (by omega), not_mem_of_count (by omega)⟩

theorem placed_of_careful (h : (batchSystem byExpiry byCreation).Reachable (fun s a => s.careful a) s) :
    Fresh s ∧ ∀ item ∈ s.appended, s.places item = 1 := by
  refine h.invariant (P := fun s => Fresh s ∧ ∀ item ∈ s.appended, s.places item = 1) ?_ ?_
  · intro s hinit
    refine ⟨fresh_init hinit, fun item hmem => ?_⟩
    rw [hinit.2.2.2.1] at hmem
    cases hmem
  · intro s a t hs hcareful hstep
    exact ⟨hs.1.step hstep, hs.1.once hs.2 hcareful hstep⟩

/-- What is nowhere stays nowhere. -/
theorem gone_of_path (hfresh : Fresh s) (hmem : item ∈ s.appended) (hgone : s.places item = 0)
    (hpath : (batchSystem byExpiry byCreation).Path System.anyStep s t) : t.places item = 0 := by
  have hkept : Fresh t ∧ item ∈ t.appended ∧ t.places item = 0 := by
    refine hpath.invariant (P := fun t => Fresh t ∧ item ∈ t.appended ∧ t.places item = 0)
      ⟨hfresh, hmem, hgone⟩ ?_
    intro s a t hs _ hstep
    obtain ⟨hin, hplaces⟩ := places_step hs.1 hs.2.1 hstep
    have hzero := hs.2.2
    exact ⟨hs.1.step hstep, hin, by omega⟩
  exact hkept.2.2

/-- As long as no tick ends early that holds something, every failed run that was appended is in a
window that is stored, or is counted by one event, or is held by a tick that will have it
counted. -/
theorem loses_no_run (h : (batchSystem byExpiry byCreation).Reachable (fun s a => s.careful a) s) :
    ∀ item ∈ s.appended,
      s.Stored item ∨ s.CountedOnce item ∨ ∃ k, WillBeCounted byExpiry byCreation s item k := by
  obtain ⟨hfresh, honce⟩ := placed_of_careful h
  intro item hmem
  have hplaces := honce item hmem
  rw [places] at hplaces
  by_cases hcounted : item ∈ s.counted
  · exact .inr (.inl (countedOnce_of_places hcounted (honce item hmem)))
  have hnone := count_eq_zero.2 hcounted
  by_cases hheld : item ∈ s.held
  · have hpos := count_pos_iff.2 hheld
    obtain ⟨tick, htick, hin⟩ := mem_flatMap.1 hheld
    obtain ⟨k, hk⟩ := getElem?_of_mem htick
    have hby : item ∈ s.heldBy k := by
      rw [heldBy, hk]
      exact hin
    refine .inr (.inr ⟨k, hby, by omega, not_mem_of_count (by omega), hcounted,
      exists_step_of_heldBy hby, ?_⟩)
    intro as t hrun hle
    obtain ⟨hin, honce'⟩ := counted_of_run hfresh honce hmem (.inr ⟨hby, hle⟩) hrun
    exact countedOnce_of_places hin honce'
  · have hzero := count_eq_zero.2 hheld
    have hstored : s.store.items.count item = 1 := by omega
    obtain ⟨window, hwindow, hid⟩ := s.store.references item (count_pos_iff.1 (by omega))
    exact .inl ⟨hstored, List.any_eq_true.2 ⟨window, hwindow, decide_eq_true hid⟩, hheld, hcounted⟩

/-! ### An emit that throws -/

def failedRun (runId : JsString) : BatchAccumulatorRun := ⟨runId, js "acme/app", js "test", none, none⟩

/-- Two workflows that collect the failures of a minute. -/
def listenerWindow (registrationId : JsString) : OpenBatchWindowInput :=
  ⟨registrationId, js "acme", js "github:acme", js "acme/app", 60000⟩

def quietBatches : BatchState where
  store := .empty
  leads _ := false

/-- A run fails that both collect. -/
def twoFailures : List BatchAction :=
  [.call (listenerWindow (js "a")) (failedRun (js "r1")), .callStep 0 0, .callStep 0 0,
    .call (listenerWindow (js "b")) (failedRun (js "r1")), .callStep 1 0, .callStep 1 0]

/-- A minute later, a tick sweeps both windows. -/
def sweepBoth : List BatchAction :=
  [.setLeader 1 true, .beginTick 1 60000, .tickStep 0 false, .tickStep 0 false, .tickStep 0 false]

abbrev smallBatches : System BatchState BatchAction := batchSystem (.insertionSort _) (.insertionSort _)

theorem quietBatches_mem_init : quietBatches ∈ smallBatches.init := ⟨rfl, rfl, rfl, rfl, rfl⟩

/-- Both runs are counted in the end. -/
theorem loses_no_run_both : ∃ s, s.appended.length = 2 ∧ s.events.length = 2 ∧
    ∀ item ∈ s.appended, s.Stored item ∨ s.CountedOnce item ∨
      ∃ k, WillBeCounted (.insertionSort _) (.insertionSort _) s item k := by
  have hrun : (smallBatches.run careful quietBatches
      (twoFailures ++ sweepBoth ++ [.tickStep 0 false, .tickStep 0 false])).any
        (fun s => decide (s.appended.length = 2 ∧ s.events.length = 2)) := by decide
  obtain ⟨s, hpath, hlengths⟩ := System.exists_path_of_run (fun _ _ h => h) _ hrun
  obtain ⟨happended, hevents⟩ := of_decide_eq_true hlengths
  exact ⟨s, happended, hevents, loses_no_run ⟨quietBatches, quietBatches_mem_init, hpath⟩⟩

/-- The first of two events is not emitted: the run of the other window is nowhere, and never will
be. -/
theorem exists_run_lost : ∃ s, smallBatches.Reachable System.anyStep s ∧ ∃ item ∈ s.appended,
    ∀ t, smallBatches.Path System.anyStep s t →
      item ∉ t.store.items ∧ item ∉ t.held ∧ item ∉ t.counted := by
  have hrun : (smallBatches.run (fun _ _ => true) quietBatches
      (twoFailures ++ sweepBoth ++ [BatchAction.throw 0 false])).any
        (fun s => s.appended.any fun item => s.places item = 0) := by decide
  obtain ⟨s, hpath, hlost⟩ := System.exists_path_of_run System.anyStep_of_true _ hrun
  obtain ⟨item, hmem, hgone⟩ := List.any_eq_true.1 hlost
  have hfresh : Fresh s := hpath.invariant (fresh_init quietBatches_mem_init) fun s a t hs _ hstep =>
    hs.step hstep
  refine ⟨s, ⟨quietBatches, quietBatches_mem_init, hpath⟩, item, hmem, fun t ht => ?_⟩
  have hplaces := gone_of_path hfresh hmem (of_decide_eq_true hgone) ht
  rw [places] at hplaces
  exact ⟨not_mem_of_count (by omega), not_mem_of_count (by omega), not_mem_of_count (by omega)⟩

end Kici.Events
