import Kici.Foundation.Lists
import Kici.Sandbox.Timeline

/-!
# Handles that do not outlive their steps

A handle is disposed once, before the iteration or the hook is over that created it, and nothing is
left then of what was mounted or exposed with it (`HandlesContained`), in every run in which no
context is created under an index whose slot is taken, no completion hook runs, and files are
mounted in the directory of a handle that is open, not two at once while it has none yet
(`handles_contained_of_contained`). A slot is taken when an
observer hook has run in the same iteration: a hook before a step loses its handle to the context of
the step, and that is lost to a hook after it. Completion hooks never dispose theirs
(`exists_handle_left`).
-/

namespace Kici

open Function List Option

namespace SecretsHandle

variable {handle handle' : SecretsHandle} {event : MountEvent}

/-- A file is mounted with a handle that is open, not while another one waits for the directory, and
not outside of it. -/
def mounts (handle : SecretsHandle) : MountEvent → Bool
  | .call => handle.disposals = 0 && none ∉ handle.calls
  | .writeFile _ outside _ => !outside
  | _ => true

/-- All files are in the one directory, or will be. -/
structure Tidy (handle : SecretsHandle) : Prop where
  calls : ∀ dir ∈ handle.calls, dir = none ∨ dir = handle.stepTmpHandle
  waiting : none ∈ handle.calls → handle.stepTmpHandle = none ∧ handle.calls = [none]
  files : ∀ dir ∈ handle.mountedFiles, dir ≠ none ∧ dir = handle.stepTmpHandle

theorem Tidy.mount (h : handle.Tidy) (hmounts : handle.mounts event)
    (hmount : handle.mount event = some handle') : handle'.Tidy := by
  cases event with
  | call =>
    cases hmount
    obtain ⟨-, hnone⟩ := Bool.and_eq_true_iff.1 hmounts
    have hnone := of_decide_eq_true hnone
    refine ⟨fun dir hdir => ?_, fun hwaiting => ?_, h.files⟩
    · rcases mem_append.1 hdir with hold | hnew
      · exact h.calls dir hold
      · exact .inr (mem_singleton.1 hnew)
    · have htmp := mem_singleton.1 ((mem_append.1 hwaiting).resolve_left hnone)
      have hcalls : handle.calls = [] := eq_nil_iff_forall_not_mem.2 fun dir hdir => by
        have hdir' : dir = none := (h.calls dir hdir).elim id fun heq => heq.trans htmp.symm
        exact hnone (hdir' ▸ hdir)
      exact ⟨htmp.symm, by rw [hcalls, ← htmp]; rfl⟩
  | makeTempDir i =>
    obtain ⟨hcall, hmount⟩ := ite_none_right_eq_some.1 hmount
    cases hmount
    obtain ⟨htmp, hcalls⟩ := h.waiting (mem_of_getElem? hcall)
    have hzero : i = 0 := by
      rw [hcalls, getElem?_singleton, ite_none_right_eq_some] at hcall
      exact hcall.1
    refine ⟨fun dir hdir => ?_, fun hwaiting => ?_, fun dir hdir => ?_⟩
    · rw [hcalls, hzero] at hdir
      exact .inr (mem_singleton.1 hdir)
    · rw [hcalls, hzero] at hwaiting
      cases mem_singleton.1 hwaiting
    · obtain ⟨hsome, heq⟩ := h.files dir hdir
      exact absurd (heq.trans htmp) hsome
  | writeFile i outside envVar =>
    rw [SecretsHandle.mount] at hmount
    split at hmount
    next dir hcall =>
      obtain ⟨-, hmount⟩ := ite_none_right_eq_some.1 hmount
      cases hmount
      have htmp := (h.calls _ (mem_of_getElem? hcall)).resolve_left (some_ne_none dir)
      refine ⟨fun dir' hdir => h.calls dir' (mem_of_mem_eraseIdx hdir), fun hwaiting => ?_,
        fun dir' hdir => ?_⟩
      · exact absurd (htmp.trans (h.waiting (mem_of_mem_eraseIdx hwaiting)).1) (some_ne_none dir)
      · rcases mem_append.1 hdir with hold | hnew
        · exact h.files dir' hold
        · have hinside : outside = false := by simpa [mounts] using hmounts
          rw [hinside] at hnew
          rw [mem_singleton.1 hnew]
          exact ⟨some_ne_none dir, htmp⟩
    next => cases hmount
  | fails i =>
    obtain ⟨hlt, hmount⟩ := ite_none_right_eq_some.1 hmount
    cases hmount
    refine ⟨fun dir hdir => h.calls dir (mem_of_mem_eraseIdx hdir), fun hwaiting => ?_, h.files⟩
    obtain ⟨-, hcalls⟩ := h.waiting (mem_of_mem_eraseIdx hwaiting)
    dsimp only at hwaiting
    rw [hcalls, length_singleton, Nat.lt_one_iff] at hlt
    rw [hcalls, hlt] at hwaiting
    cases hwaiting

/-- A mount leaves the handle what it is. -/
theorem frame_mount (hmount : handle.mount event = some handle') :
    handle'.disposals = handle.disposals ∧ handle'.stepIndex = handle.stepIndex ∧
    handle'.owner = handle.owner := by
  cases event with
  | call => cases hmount; exact ⟨rfl, rfl, rfl⟩
  | makeTempDir i | fails i =>
    obtain ⟨-, hmount⟩ := ite_none_right_eq_some.1 hmount
    cases hmount
    exact ⟨rfl, rfl, rfl⟩
  | writeFile i outside envVar =>
    rw [SecretsHandle.mount] at hmount
    split at hmount
    · obtain ⟨-, hmount⟩ := ite_none_right_eq_some.1 hmount
      cases hmount
      exact ⟨rfl, rfl, rfl⟩
    · cases hmount

/-- Nothing is mounted with a handle that is disposed, and no longer mounts anything. -/
theorem mount_eq_none (hcalls : handle.calls = []) (hopen : handle.disposals ≠ 0)
    (hmounts : handle.mounts event) : handle.mount event = none := by
  cases event with
  | call => exact absurd (of_decide_eq_true (Bool.and_eq_true_iff.1 hmounts).1) hopen
  | makeTempDir i | writeFile i outside envVar | fails i => simp [SecretsHandle.mount, hcalls]

/-- A handle is disposed that mounts nothing any more. -/
theorem Tidy.mountedFiles_dispose (h : handle.Tidy) : (handle.dispose true).mountedFiles = [] := by
  refine filter_eq_nil_iff.2 fun dir hdir => ?_
  simp [(h.files dir hdir).1, (h.files dir hdir).2.symm]

end SecretsHandle

namespace TimelineRun

/-- Every handle is disposed at most once, and is disposed, with nothing left of it, when what
created it is over. -/
structure HandlesContained (s : TimelineRun) : Prop where
  once : ∀ handle ∈ s.handles, handle.disposals ≤ 1
  ended : ∀ handle ∈ s.handles, (∀ unit ∈ s.inFlight, unit.id ≠ handle.owner) →
    handle.disposals = 1 ∧ handle.mountedFiles = [] ∧ handle.exposedVars = []

/-- A context is created in an empty slot; directories are removed, and none while a file is mounted
with the handle; no completion hook runs; and files are mounted as they should be. -/
def Contained (s : TimelineRun) : TimelineAction → Prop
  | .op place removed _ => removed = true ∧ ∀ unit ∈ s.inFlight[place]?, ∀ op rest,
    unit.ops = op :: rest →
      match op with
      | .context _ => s.registry unit.stepIndex = none
      | .dispose => ∀ ref ∈ s.registry unit.stepIndex, ∀ handle ∈ s.handles[ref]?, handle.calls = []
      | _ => True
  | .mount ref event => ∀ handle ∈ s.handles[ref]?, handle.mounts event
  | .completionHook => False
  | _ => True

/-! ## The invariant -/

/-- A handle that is open is in its slot, and what created it goes on; any other is disposed, and
empty. -/
def HandleSound (s : TimelineRun) (ref : ℕ) (handle : SecretsHandle) : Prop :=
  (handle.disposals = 0 ∧ s.registry handle.stepIndex = some ref ∧
    (∃ unit ∈ s.inFlight, unit.id = handle.owner ∧ unit.stepIndex = handle.stepIndex) ∧ handle.Tidy) ∨
  (handle.disposals = 1 ∧ handle.mountedFiles = [] ∧ handle.exposedVars = [] ∧ handle.calls = [])

structure Sound (s : TimelineRun) : Prop where
  handle : ∀ ref handle, s.handles[ref]? = some handle → s.HandleSound ref handle
  slot : ∀ stepIndex ref, s.registry stepIndex = some ref →
    ∃ handle, s.handles[ref]? = some handle ∧ handle.stepIndex = stepIndex ∧ handle.disposals = 0
  /-- Units dispose in the end, and only then. -/
  ends : ∀ unit ∈ s.inFlight, ∃ before, unit.ops = before ++ [.dispose] ∧ UnitOp.dispose ∉ before

variable {job : TimelineJob} {s t : TimelineRun} {unit : TimelineUnit} {place : ℕ}

/-- What is not about handles and slots does not matter, as long as units go on under their ids and
indices. -/
theorem Sound.of_eq (h : s.Sound) (hhandles : t.handles = s.handles)
    (hregistry : t.registry = s.registry)
    (hunits : ∀ unit ∈ s.inFlight, ∃ unit' ∈ t.inFlight, unit'.id = unit.id ∧
      unit'.stepIndex = unit.stepIndex)
    (hends : ∀ unit ∈ t.inFlight, ∃ before, unit.ops = before ++ [.dispose] ∧ UnitOp.dispose ∉ before) :
    t.Sound where
  handle ref handle hget := by
    rw [hhandles] at hget
    refine (h.handle ref handle hget).imp
      (fun ⟨hopen, hslot, ⟨unit, hunit, hid, hindex⟩, htidy⟩ => ?_) id
    obtain ⟨unit', hunit', hid', hindex'⟩ := hunits unit hunit
    exact ⟨hopen, hregistry ▸ hslot, ⟨unit', hunit', hid'.trans hid, hindex'.trans hindex⟩, htidy⟩
  slot := by
    rw [hhandles, hregistry]
    exact h.slot
  ends := hends

/-- An iteration disposes in the end. -/
theorem ends_stepIteration (hooks : JobHooks) (step : TimelineStep) (outcome : IterationOutcome) :
    ∃ before, stepIteration hooks step outcome = before ++ [.dispose] ∧ UnitOp.dispose ∉ before := by
  cases outcome with
  | runs saves =>
    refine ⟨_, rfl, fun hmem => ?_⟩
    simp only [mem_append, mem_replicate, mem_singleton, reduceCtorEq, and_false, or_false] at hmem
    rcases hmem with hmem | hmem <;> split at hmem <;> simp at hmem
  | _ => exact ⟨[_], rfl, by simp⟩

/-- A unit begins. -/
theorem Sound.launch (h : s.Sound) {stepIndex : ℕ} {isStep : Bool} {ops : List UnitOp}
    (hends : ∃ before, ops = before ++ [.dispose] ∧ UnitOp.dispose ∉ before) :
    (s.launch stepIndex isStep ops).Sound := by
  refine h.of_eq rfl rfl (fun unit hunit => ⟨unit, mem_append_left _ hunit, rfl, rfl⟩)
    fun unit hunit => ?_
  rcases mem_append.1 hunit with hunit | hunit
  · exact h.ends unit hunit
  · rw [mem_singleton.1 hunit]
    exact hends

/-- A body mounts a file as it should be. -/
theorem Sound.mount {ref : ℕ} {event : MountEvent} {handle handle' : SecretsHandle} (h : s.Sound)
    (hhandle : s.handles[ref]? = some handle) (hmounts : handle.mounts event)
    (hmount : handle.mount event = some handle') :
    Sound { s with handles := s.handles.set ref handle' } := by
  obtain ⟨hdisposals, hindex, howner⟩ := SecretsHandle.frame_mount hmount
  have hlt := (List.getElem?_eq_some_iff.1 hhandle).1
  obtain ⟨hopen, hslot, hunit, htidy⟩ := (h.handle ref handle hhandle).resolve_right fun hclosed => by
    rw [SecretsHandle.mount_eq_none hclosed.2.2.2 (by omega) hmounts] at hmount
    cases hmount
  refine ⟨fun ref' other hget => ?_, fun stepIndex ref' hslot' => ?_, h.ends⟩
  · by_cases hsame : ref = ref'
    · subst hsame
      obtain rfl := some.inj ((getElem?_set_self hlt).symm.trans hget)
      exact .inl ⟨hdisposals.trans hopen, hindex ▸ hslot, by rw [howner, hindex]; exact hunit,
        htidy.mount hmounts hmount⟩
    · exact h.handle ref' other ((getElem?_set_ne hsame).symm.trans hget)
  · obtain ⟨old, hold, hindex', hopen'⟩ := h.slot stepIndex ref' hslot'
    by_cases hsame : ref = ref'
    · subst hsame
      obtain rfl := some.inj (hhandle.symm.trans hold)
      exact ⟨handle', getElem?_set_self hlt, hindex.trans hindex', hdisposals.trans hopen'⟩
    · exact ⟨old, (getElem?_set_ne hsame).trans hold, hindex', hopen'⟩

/-- A context is created in an empty slot. -/
theorem Sound.createStepContext (h : s.Sound) (hunit : unit ∈ s.inFlight)
    (hempty : s.registry unit.stepIndex = none) :
    (s.createStepContext unit.id unit.stepIndex).Sound where
  handle ref handle hget := by
    rcases Nat.lt_or_ge ref s.handles.length with hlt | hge
    · have hold := (getElem?_append_left hlt).symm.trans hget
      refine (h.handle ref handle hold).imp (fun ⟨hopen, hslot, howner⟩ => ⟨hopen, ?_, howner⟩) id
      -- the slot of an open handle is taken, so it is another one
      have hother : handle.stepIndex ≠ unit.stepIndex := fun heq => by
        rw [heq, hempty] at hslot
        cases hslot
      exact (update_of_ne hother _ _).trans hslot
    · have hnew := (getElem?_append_right hge).symm.trans hget
      rw [getElem?_singleton, ite_none_right_eq_some] at hnew
      obtain ⟨hzero, hnew⟩ := hnew
      cases hnew
      have hlast : s.handles.length = ref := by omega
      exact .inl ⟨rfl, (update_self _ _ _).trans (congrArg some hlast),
        ⟨unit, hunit, rfl, rfl⟩, by constructor <;> simp⟩
  slot stepIndex ref hslot := by
    change Function.update s.registry unit.stepIndex (some s.handles.length) stepIndex =
      some ref at hslot
    by_cases hsame : stepIndex = unit.stepIndex
    · rw [hsame, update_self] at hslot
      cases hslot
      exact ⟨_, getElem?_concat_length, hsame.symm, rfl⟩
    · rw [update_of_ne hsame] at hslot
      obtain ⟨handle, hget, hhandle⟩ := h.slot stepIndex ref hslot
      exact ⟨handle, (getElem?_append_left (List.getElem?_eq_some_iff.1 hget).1).trans hget, hhandle⟩
  ends := h.ends

/-- The handle in a slot is disposed, and its directory removed. -/
theorem Sound.disposeStepResources (h : s.Sound) (stepIndex : ℕ)
    (hcalls : ∀ ref ∈ s.registry stepIndex, ∀ handle ∈ s.handles[ref]?, handle.calls = []) :
    (s.disposeStepResources stepIndex true).Sound := by
  rw [TimelineRun.disposeStepResources]
  split
  next => exact h
  next ref hslot =>
    obtain ⟨disposed, hdisposed, hindex, hopen⟩ := h.slot stepIndex ref hslot
    refine ⟨fun ref' handle' hget => ?_, fun stepIndex' ref' hslot' => ?_, h.ends⟩
    · obtain ⟨handle, hold, rfl⟩ := eq_of_getElem?_modify hget
      split
      next heq =>
        obtain rfl : handle = disposed := some.inj ((heq ▸ hold).symm.trans hdisposed)
        obtain ⟨-, -, -, htidy⟩ := (h.handle ref handle hdisposed).resolve_right fun hclosed => by omega
        exact .inr ⟨congrArg (· + 1) hopen, htidy.mountedFiles_dispose, rfl,
          hcalls ref hslot handle hdisposed⟩
      next hne =>
        refine (h.handle ref' handle hold).imp (fun ⟨hopen', hslot', howner⟩ => ⟨hopen', ?_, howner⟩) id
        -- it is in a slot of its own
        have hother : handle.stepIndex ≠ stepIndex := fun heq =>
          hne (some.inj (hslot.symm.trans (heq ▸ hslot')))
        exact (update_of_ne hother _ _).trans hslot'
    · change Function.update s.registry stepIndex none stepIndex' = some ref' at hslot'
      by_cases hsame : stepIndex' = stepIndex
      · rw [hsame, update_self] at hslot'
        cases hslot'
      · rw [update_of_ne hsame] at hslot'
        obtain ⟨handle, hget, hindex', hopen'⟩ := h.slot stepIndex' ref' hslot'
        have hne : ref ≠ ref' := fun heq => by
          subst heq
          exact hsame (hindex'.symm.trans (some.inj (hget.symm.trans hdisposed) ▸ hindex))
        refine ⟨handle, ?_, hindex', hopen'⟩
        exact (getElem?_modify_ne _ _ hne).trans hget

theorem registry_disposeStepResources (s : TimelineRun) (stepIndex : ℕ) (removed : Bool) :
    (s.disposeStepResources stepIndex removed).registry stepIndex = none := by
  rw [disposeStepResources]
  split
  next hslot => exact hslot
  next => exact update_self _ _ _

theorem inFlight_disposeStepResources (s : TimelineRun) (stepIndex : ℕ) (removed : Bool) :
    (s.disposeStepResources stepIndex removed).inFlight = s.inFlight := by
  rw [disposeStepResources]
  split <;> rfl

section

variable (h : s.Sound) (hunit : s.inFlight[place]? = some unit)
include h hunit

/-- The unit at a place goes on with what is left of it. -/
theorem Sound.set {rest : List UnitOp}
    (hends : ∃ before, rest = before ++ [.dispose] ∧ UnitOp.dispose ∉ before) :
    Sound { s with inFlight := s.inFlight.set place { unit with ops := rest } } := by
  refine h.of_eq rfl rfl (fun other hother => ?_) fun other hother => ?_
  · obtain ⟨i, hi⟩ := getElem?_of_mem hother
    by_cases hsame : place = i
    · subst hsame
      obtain rfl := some.inj (hi.symm.trans hunit)
      exact ⟨_, mem_set (List.getElem?_eq_some_iff.1 hunit).1 _, rfl, rfl⟩
    · exact ⟨other, mem_of_getElem? ((getElem?_set_ne hsame).trans hi), rfl, rfl⟩
  · rcases mem_or_eq_of_mem_set hother with hother | rfl
    · exact h.ends other hother
    · exact hends

/-- The unit at a place is over, and its slot is empty. -/
theorem Sound.eraseIdx
    (hempty : s.registry unit.stepIndex = none) (heq : t.handles = s.handles ∧ t.registry = s.registry)
    (hunits : t.inFlight = s.inFlight.eraseIdx place) : t.Sound where
  handle ref handle hget := by
    rw [heq.1] at hget
    refine (h.handle ref handle hget).imp
      (fun ⟨hopen, hslot, ⟨other, hother, hid, hindex⟩, htidy⟩ => ?_) id
    refine ⟨hopen, heq.2 ▸ hslot, ⟨other, ?_, hid, hindex⟩, htidy⟩
    obtain ⟨i, hi⟩ := getElem?_of_mem hother
    rw [hunits, mem_eraseIdx_iff_getElem?]
    refine ⟨i, fun hsame => ?_, hi⟩
    subst hsame
    obtain rfl := some.inj (hi.symm.trans hunit)
    rw [hindex, hslot] at hempty
    cases hempty
  slot := by
    rw [heq.1, heq.2]
    exact h.slot
  ends other hother := h.ends other (mem_of_mem_eraseIdx (hunits ▸ hother))

/-- A unit goes on: its operation is the last one only where it disposes. -/
theorem Sound.op {op : UnitOp} {rest : List UnitOp} {result : UnitResult} (hops : unit.ops = op :: rest)
    (hempty : ∀ row, op = .context row → s.registry unit.stepIndex = none)
    (hcalls : op = .dispose → ∀ ref ∈ s.registry unit.stepIndex, ∀ handle ∈ s.handles[ref]?,
      handle.calls = []) :
    ((s.perform unit true op).proceed place unit rest result).Sound := by
  have hmem := mem_of_getElem? hunit
  obtain ⟨before, hbefore, hdispose⟩ := h.ends unit hmem
  rw [hops] at hbefore
  cases before with
  | nil =>
    cases hbefore
    rw [perform, proceed]
    have hunit' := (congrArg (·[place]?) (inFlight_disposeStepResources s unit.stepIndex true)).trans
      hunit
    exact (h.disposeStepResources unit.stepIndex (hcalls rfl)).eraseIdx hunit'
      (registry_disposeStepResources s _ _) ⟨rfl, rfl⟩ rfl
  | cons first before =>
    obtain ⟨rfl, hrest⟩ := List.cons.inj hbefore
    have hends : ∃ before', rest = before' ++ [UnitOp.dispose] ∧ UnitOp.dispose ∉ before' :=
      ⟨before, hrest, fun hlater => hdispose (mem_cons_of_mem _ hlater)⟩
    obtain ⟨next, later, rfl⟩ := exists_cons_of_ne_nil (l := rest) (by simp [hrest])
    rw [proceed_cons]
    cases op with
    | context row =>
      have hcreated := h.createStepContext hmem (hempty row rfl)
      exact Sound.set (s := (s.createStepContext unit.id unit.stepIndex).addRow row)
        ⟨hcreated.handle, hcreated.slot, hcreated.ends⟩ hunit hends
    | report row => exact Sound.set (s := s.addRow row) ⟨h.handle, h.slot, h.ends⟩ hunit hends
    | cache => exact Sound.set (s := s.addCacheRow _) ⟨h.handle, h.slot, h.ends⟩ hunit hends
    | dispose => exact absurd mem_cons_self hdispose

end

theorem Sound.step {a : TimelineAction} (h : s.Sound) (hcontained : s.Contained a)
    (hstep : s.step job a = some t) : t.Sound := by
  have hsame {u : TimelineRun} (hhandles : u.handles = s.handles) (hregistry : u.registry = s.registry)
      (hunits : u.inFlight = s.inFlight) : u.Sound :=
    h.of_eq hhandles hregistry (fun unit hunit => ⟨unit, hunits ▸ hunit, rfl, rfl⟩) (hunits ▸ h.ends)
  cases a with
  | op place removed result =>
    obtain ⟨unit, op, rest, hunit, hops, rfl⟩ := op_cases hstep
    obtain ⟨rfl, hcontained⟩ := hcontained
    have hop := hcontained unit hunit op rest hops
    refine h.op hunit hops (fun row heq => ?_) fun heq => ?_
    · rw [heq] at hop
      exact hop
    · rw [heq] at hop
      exact hop
  | begin outcome =>
    obtain ⟨step, waiting, -, rfl⟩ := begin_cases hstep
    exact Sound.launch (s := { s with waiting }) (hsame rfl rfl rfl) (ends_stepIteration _ _ _)
  | cancelHook =>
    obtain ⟨results, run, left, -, rfl⟩ := cancelHook_cases hstep
    exact Sound.launch (s := { s with stage := .cancelling results (run + 1) left }) (hsame rfl rfl rfl)
      ⟨[_], rfl, by simp⟩
  | completionHook => exact hcontained.elim
  | mount ref event =>
    obtain ⟨handle, hhandle, hstep⟩ := bind_eq_some_iff.1 hstep
    obtain ⟨handle', hmount, rfl⟩ := map_eq_some_iff.1 hstep
    exact h.mount hhandle (hcontained handle hhandle) hmount
  | restoreJobCache | saveJobCache | beginWalk | endWalk =>
    obtain ⟨-, hstep⟩ := ite_none_right_eq_some.1 hstep
    cases hstep
    exact hsame rfl rfl rfl
  | nextNode =>
    obtain ⟨node, nodes, -, -, -, rfl⟩ := nextNode_cases hstep
    exact hsame rfl rfl rfl
  | skip =>
    obtain ⟨step, waiting, -, rfl⟩ := skip_cases hstep
    exact hsame rfl rfl rfl
  | abort =>
    cases hstep
    exact hsame rfl rfl rfl
  | endCompletion =>
    obtain ⟨run, -, rfl⟩ := endCompletion_cases hstep
    exact hsame rfl rfl rfl
  | endSaving force =>
    obtain ⟨succeeded, -, rfl⟩ := endSaving_cases hstep
    exact hsame rfl rfl rfl

theorem Sound.handlesContained (h : s.Sound) : s.HandlesContained where
  once handle hhandle := by
    obtain ⟨ref, href⟩ := getElem?_of_mem hhandle
    rcases h.handle ref handle href with ⟨hopen, -⟩ | ⟨hdisposed, -⟩
    · omega
    · exact hdisposed.le
  ended handle hhandle hended := by
    obtain ⟨ref, href⟩ := getElem?_of_mem hhandle
    obtain ⟨honce, hfiles, hvars, -⟩ := (h.handle ref handle href).resolve_left
      fun ⟨_, _, ⟨unit, hunit, hid, _⟩, _⟩ => hended unit hunit hid
    exact ⟨honce, hfiles, hvars⟩

end TimelineRun

open TimelineRun

variable {job : TimelineJob} {s : TimelineRun}

/-- In every run whose contexts are created in empty slots, whose directories are removed, that runs
no completion hook and mounts files as it should, no handle outlives what created it. -/
theorem handles_contained_of_contained (h : (timelineSystem job).Reachable Contained s) :
    s.HandlesContained := by
  refine Sound.handlesContained (h.invariant ?_ fun s a t hs hcontained hstep =>
    hs.step hcontained hstep)
  rintro s ⟨forceInitialFailure, rfl⟩
  refine ⟨fun ref handle hget => ?_, fun stepIndex ref hslot => ?_, fun unit hunit => ?_⟩
  · cases hget
  · cases hslot
  · cases hunit

/-! ## Two runs -/

/-- Whether a step is contained. -/
def TimelineRun.contained (s : TimelineRun) : TimelineAction → Bool
  | .op place removed _ => removed && s.inFlight[place]?.all fun unit =>
    match unit.ops with
    | .context _ :: _ => s.registry unit.stepIndex = none
    | .dispose :: _ => (s.registry unit.stepIndex).all fun ref => s.handles[ref]?.all (·.calls = [])
    | _ => true
  | .mount ref event => s.handles[ref]?.all (·.mounts event)
  | .completionHook => false
  | _ => true

theorem contained_of_test (s : TimelineRun) (a : TimelineAction) (h : s.contained a) :
    s.Contained a := by
  cases a with
  | op place removed result =>
    obtain ⟨hremoved, hempty⟩ := Bool.and_eq_true_iff.1 h
    refine ⟨hremoved, fun unit hunit op rest hops => ?_⟩
    rw [Option.mem_def.1 hunit, all_some, hops] at hempty
    cases op with
    | context row => exact of_decide_eq_true hempty
    | dispose =>
      intro ref href handle hhandle
      exact of_decide_eq_true ((all_eq_true _ _).1 ((all_eq_true _ _).1 hempty ref href) handle hhandle)
    | _ => trivial
  | mount ref event =>
    intro handle hhandle
    rw [TimelineRun.contained, Option.mem_def.1 hhandle] at h
    exact h
  | completionHook => cases h
  | _ => trivial

/-- A job of two steps, and its hooks. -/
def twoSteps (hooks : JobHooks) : TimelineJob where
  nodes := [{ children := [{ stepIndex := 0 }] }, { children := [{ stepIndex := 1 }] }]
  hooks
  indices := rfl

/-- The first step mounts a file, the job is cancelled, and its hook runs: both handles are
disposed. -/
theorem handles_contained_of_contained_cancel : ∃ s : TimelineRun, s.handles.length = 2 ∧
    s.inFlight = [] ∧ s.HandlesContained := by
  obtain ⟨s, hpath, hend⟩ := (timelineSystem (twoSteps { onCancel := true })).exists_path_of_run
    contained_of_test
    (s := { nodes := (twoSteps { onCancel := true }).nodes, failed := false })
    (p := fun s => s.handles.length = 2 && s.inFlight = [])
    [.beginWalk, .nextNode, .begin (.runs 0), .op 0 true .passed, .mount 0 .call,
      .mount 0 (.makeTempDir 0),
      .mount 0 .call, .mount 0 (.writeFile 0 false (some "KUBECONFIG")),
        .mount 0 (.writeFile 0 false none), .abort,
      .op 0 true .passed, .endWalk, .endSaving false, .cancelHook, .op 0 true .passed,
        .op 0 true .passed] (by decide)
  obtain ⟨hlength, hunits⟩ := Bool.and_eq_true_iff.1 hend
  exact ⟨s, of_decide_eq_true hlength, of_decide_eq_true hunits,
    handles_contained_of_contained ⟨_, ⟨false, rfl⟩, hpath⟩⟩

/-- A hook before the first step mounts a file and exposes it: when the second step begins, the
handle is left, with the file and the variable. -/
theorem exists_handle_left : ∃ s : TimelineRun,
    (timelineSystem (twoSteps { beforeStep := true })).Reachable System.anyStep s ∧
    s.handles[0]?.map (fun handle => (handle.disposals, handle.mountedFiles, handle.exposedVars)) =
      some (0, [some 0], ["KUBECONFIG"]) ∧ s.inFlight.map (·.stepIndex) = [1] ∧
      ¬ s.HandlesContained := by
  obtain ⟨s, hpath, hend⟩ := (timelineSystem (twoSteps { beforeStep := true })).exists_path_of_run
    System.anyStep_of_true (s := { nodes := (twoSteps { beforeStep := true }).nodes, failed := false })
    (p := fun s => decide (s.handles[0]?.map (fun handle : SecretsHandle =>
        (handle.disposals, handle.mountedFiles, handle.exposedVars)) = some
          (0, [some 0], ["KUBECONFIG"]) ∧
      s.inFlight.map (·.stepIndex) = [1] ∧ s.handles[0]?.map SecretsHandle.owner = some 0 ∧
        s.inFlight.map (·.id) = [1]))
    [.beginWalk, .nextNode, .begin (.runs 0), .op 0 true .passed, .mount 0 .call,
      .mount 0 (.makeTempDir 0),
      .mount 0 (.writeFile 0 false (some "KUBECONFIG")), .op 0 true .passed,
        .op 0 true .passed, .nextNode,
      .begin (.runs 0)] (by decide)
  obtain ⟨hleft, hindices, howner, hids⟩ := of_decide_eq_true hend
  refine ⟨s, ⟨_, ⟨false, rfl⟩, hpath⟩, hleft, hindices, fun h => ?_⟩
  obtain ⟨handle, hhandle, hfields⟩ := map_eq_some_iff.1 hleft
  rw [hhandle] at howner
  have hended : ∀ unit ∈ s.inFlight, unit.id ≠ handle.owner := fun unit hunit => by
    have hid := List.mem_map_of_mem (f := (·.id)) hunit
    rw [hids, mem_singleton] at hid
    rw [some.inj howner]
    omega
  have honce := (h.ended handle (mem_of_getElem? hhandle) hended).1
  cases honce.symm.trans (congrArg Prod.fst hfields)

end Kici
