import Kici.Scaler.LedgerLock
import Kici.Scaler.Reservations
import Mathlib.Algebra.GroupWithZero.Nat
import Mathlib.Algebra.Order.Group.Nat

/-!
# Safety of the machine ledger

In the runs whose steps are safe, at most one call is in the critical section, the ledger
has every reservation of a running process that was not released, and its sums are within
the cap (`ledgerSafe_of_stepSafe`): what a call is about to write is up to date, as no
other can write while it is inside (`LedgerState.LedgerInv`).

Other runs admit two calls at once, and lose a reservation (`exists_reservation_lost`):
two calls find the lock of a crashed process stale, and the second to remove it removes
the lock of a call that has come in between.
-/

namespace Kici

open Function Option List

variable {ι κ α : Type*} [AddZeroClass α] [LinearOrder α]

/-- What the call is about to write or to publish, and then to return. -/
def CallPhase.Writes (p : CallPhase α) (ledger : LedgerFile α) (result : LedgerResult α) : Prop :=
  ∃ lock, p = .writeLedger lock ledger result ∨ p = .rename lock ledger result

namespace LedgerState

variable {host : LedgerHost ι κ α} {s t : LedgerState ι κ α} {c : ι} {err : Option String}
  {alive : ℕ → Bool} {ledger : LedgerFile α} {result : LedgerResult α}

variable (s) in
/-- The rows of the file. -/
def rows : List (ReservationRow α) := s.file.elim [] LedgerFile.reservations

variable (s) in
def Running (process : κ) : Prop := s.status process = .running

variable (host s) in
/-- Mutual exclusion, and what it is for. -/
structure LedgerSafe : Prop where
  /-- At most one call is in the critical section. -/
  exclusive : ∀ c c', s.Inside host c → s.Inside host c' → c = c'
  /-- No reservation of a running process is lost. -/
  noneLost : Covers s.Running (outstanding s.log) s.rows
  withinCap : ∀ ledger, s.file = some ledger → ledger.WithinCap

/-! ## The invariant of the ledger -/

variable (host s) in
/-- What a call is about to write is up to date. -/
structure Pending (c : ι) (ledger : LedgerFile α) (result : LedgerResult α) : Prop where
  covers : Covers s.Running ((eventOf host c result).foldl LedgerEvent.apply (outstanding s.log))
    ledger.reservations
  withinCap : ledger.WithinCap
  owns : ∀ row, result = .granted row → (ledgerOf host c).Owns row

variable (host s) in
/-- What holds of the ledger in the runs whose steps are safe. -/
structure LedgerInv : Prop where
  /-- The reservations are of processes that have started. -/
  known : ∀ e ∈ outstanding s.log, s.status e.1 ≠ .notStarted ∧ (host.ledgers e.1).Owns e.2
  covers : Covers s.Running (outstanding s.log) s.rows
  withinCap : ∀ ledger, s.file = some ledger → ledger.WithinCap
  pending : ∀ c ledger result, s.Inside host c → (s.phase c).Writes ledger result →
    s.Pending host c ledger result
  /-- The copy that a call is about to rename is its own. -/
  copies : ∀ c lock ledger result, s.Inside host c → s.phase c = .rename lock ledger result →
    s.copies (ledgerOf host c).pid = some ledger

theorem running_eq (hstatus : t.status = s.status) : t.Running = s.Running := by
  funext process
  rw [Running, Running, hstatus]

/-- What a call is about to write does not depend on where it is. -/
theorem Pending.congr (h : s.Pending host c ledger result) (hstatus : t.status = s.status)
    (hlog : t.log = s.log) : t.Pending host c ledger result := by
  refine ⟨?_, h.withinCap, h.owns⟩
  rw [running_eq hstatus, hlog]
  exact h.covers

section

variable (hs : s.LedgerInv host)
  (hlawful : s.Lawful host (.advance c err alive))
  (hboot : ∀ process, s.Running process → (host.ledgers process).bootId = (ledgerOf host c).bootId)
include hs hlawful hboot

/-- The rows of running processes are not taken for those of dead ones. -/
theorem LedgerInv.keepsRow :
    ∀ e ∈ outstanding s.log, s.Running e.1 → (ledgerOf host c).keepsRow alive e.2 := by
  intro e he hrunning
  obtain ⟨-, hinstance, hpid, hbootId⟩ := hs.known e he
  rw [MachineLedger.keepsRow, decide_eq_true_eq, hbootId, hinstance, hpid]
  refine ⟨hboot e.1 hrunning, ?_⟩
  by_cases heq : (host.ledgers e.1).instanceId = (ledgerOf host c).instanceId
  · exact .inr (hlawful e.1 hrunning heq)
  · exact .inl heq

/-- What an operation makes of the ledger that was read is up to date. -/
theorem LedgerInv.pending_of_read [AddLeftMono α] [AddRightMono α]
    (hread : (s.file = none ∧ ledger.reservations = []) ∨ s.file = some ledger)
    {written : LedgerFile α}
    (hwrites : (host.op c).Writes (ledgerOf host c) alive ledger written result) :
    s.Pending host c written result := by
  have hrows : s.rows = ledger.reservations := by
    obtain ⟨hfile, hnil⟩ | hfile := hread
    · rw [rows, hfile, hnil]
      rfl
    · rw [rows, hfile]
      rfl
  have hcap : ledger.WithinCap := by
    obtain ⟨-, hnil⟩ | hfile := hread
    · exact LedgerFile.withinCap_of_nil hnil
    · exact hs.withinCap ledger hfile
  refine ⟨?_, hwrites.withinCap hcap, ?_⟩
  · refine hwrites.covers ?_ (hs.keepsRow hlawful hboot)
    rw [← hrows]
    exact hs.covers
  · rintro row rfl
    generalize host.op c = op at hwrites
    cases hwrites with
    | granted _ _ _ _ hrow => exact hrow

end

/-- Where no call takes a step, and those inside were inside before, the ledger stays. -/
theorem LedgerInv.of_eq (hs : s.LedgerInv host) (hphase : t.phase = s.phase) (hfile : t.file = s.file)
    (hcopies : t.copies = s.copies) (hlog : t.log = s.log)
    (hinside : ∀ c, t.Inside host c → s.Inside host c)
    (hstarted : ∀ process, s.status process ≠ .notStarted → t.status process ≠ .notStarted)
    (hrunning : ∀ process, s.status process ≠ .notStarted → t.Running process → s.Running process) :
    t.LedgerInv host := by
  refine ⟨fun e he => ?_, ?_, ?_, fun c ledger result hin hwrites => ?_,
    fun c lock ledger result hin hrename => ?_⟩
  · rw [hlog] at he
    exact ⟨hstarted e.1 (hs.known e he).1, (hs.known e he).2⟩
  · rw [hlog, rows, hfile]
    exact hs.covers.mono fun e he => hrunning e.1 (hs.known e he).1
  · rw [hfile]
    exact hs.withinCap
  · rw [hphase] at hwrites
    have hpending := hs.pending c ledger result (hinside c hin) hwrites
    refine ⟨?_, hpending.withinCap, hpending.owns⟩
    rw [hlog]
    refine hpending.covers.mono fun e he hrun => ?_
    rcases mem_foldl_eventOf he with he | ⟨row, -, rfl⟩
    · exact hrunning e.1 (hs.known e he).1 hrun
    · exact (hinside c hin).1
  · rw [hphase] at hrename
    rw [hcopies]
    exact hs.copies c lock ledger result (hinside c hin) hrename

/-! ## What a step of a call does to the ledger -/

variable [DecidableEq ι]

variable (host s c alive) in
/-- The phase that a step of a call leads to, and what becomes of the ledger. -/
inductive LedgerEffect (t : LedgerState ι κ α) : CallPhase α → Prop
  | keep (p : CallPhase α) (hp : ∀ ledger result, ¬p.Writes ledger result)
      (hfile : t.file = s.file) (hcopies : t.copies = s.copies) (hlog : t.log = s.log) :
      LedgerEffect t p
  /-- An operation was done on the ledger as it was read. -/
  | perform (lock : LockDir) (ledger written : LedgerFile α) (result : LedgerResult α)
      (hphase : s.phase c = .readLedger lock)
      (hread : (s.file = none ∧ ledger.reservations = []) ∨ s.file = some ledger)
      (hwrites : (host.op c).Writes (ledgerOf host c) alive ledger written result)
      (hfile : t.file = s.file) (hcopies : t.copies = s.copies) (hlog : t.log = s.log) :
      LedgerEffect t (.writeLedger lock written result)
  | copy (lock : LockDir) (ledger : LedgerFile α) (result : LedgerResult α)
      (hphase : s.phase c = .writeLedger lock ledger result) (hfile : t.file = s.file)
      (hcopies : t.copies = Function.update s.copies (ledgerOf host c).pid (some ledger))
      (hlog : t.log = s.log) : LedgerEffect t (.rename lock ledger result)
  | publish (lock : LockDir) (ledger copy : LedgerFile α) (result : LedgerResult α)
      (hphase : s.phase c = .rename lock ledger result)
      (hcopy : s.copies (ledgerOf host c).pid = some copy) (hfile : t.file = some copy)
      (hlog : t.log = s.log ++ eventOf host c result) :
      LedgerEffect t (.leave lock (.ok result))

theorem callStep_ledgerEffect (h : s.callStep host c err alive = some t) :
    ∃ p, LedgerEffect host s c alive t p ∧ t.phase = Function.update s.phase c p ∧
      t.status = s.status := by
  have hkeep : ∀ {p : CallPhase α} {t : LedgerState ι κ α},
      (∀ lock ledger result, p ≠ .writeLedger lock ledger result ∧ p ≠ .rename lock ledger result) →
      t.file = s.file → t.copies = s.copies → t.log = s.log → LedgerEffect host s c alive t p := by
    intro p t hp hfile hcopies hlog
    refine .keep p ?_ hfile hcopies hlog
    rintro ledger result ⟨lock, hw | hw⟩
    · exact (hp lock ledger result).1 hw
    · exact (hp lock ledger result).2 hw
  rw [callStep] at h
  split at h
  next hphase =>
    cases h
    exact ⟨_, hkeep (by simp) rfl rfl rfl, rfl, rfl⟩
  next attempt backoff hphase =>
    split at h <;> cases h <;> refine ⟨_, ?_, rfl, rfl⟩ <;>
      exact hkeep (by simp) rfl rfl rfl
  next attempt backoff hphase =>
    split at h <;> cases h <;> refine ⟨_, ?_, rfl, rfl⟩ <;>
      exact hkeep (by simp) rfl rfl rfl
  next attempt backoff info hphase =>
    split at h <;> cases h <;> refine ⟨_, ?_, rfl, rfl⟩ <;>
      exact hkeep (by simp) rfl rfl rfl
  next attempt backoff info hphase =>
    cases h
    exact ⟨_, hkeep (by simp) rfl rfl rfl, rfl, rfl⟩
  next attempt backoff wakeAt hphase =>
    split at h
    · cases h
    · split at h <;> cases h <;> refine ⟨_, ?_, rfl, rfl⟩ <;>
        exact hkeep (by simp) rfl rfl rfl
  next lock hphase =>
    -- readLedger
    split at h
    case h_1 | h_2 =>
      cases h
      exact ⟨_, hkeep (by simp) rfl rfl rfl, rfl, rfl⟩
    next ledger hread =>
      split at h
      · cases h
        exact ⟨_, hkeep (by simp) rfl rfl rfl, rfl, rfl⟩
      next written result hperform =>
        cases h
        refine ⟨_, ?_, rfl, rfl⟩
        exact .perform lock ledger written result hphase (MachineLedger.readLedger_cases hread)
          (LedgerOp.perform_writes hperform) rfl rfl rfl
  next lock ledger result hphase =>
    -- writeLedger
    split at h
    · cases h
      exact ⟨_, hkeep (by simp) rfl rfl rfl, rfl, rfl⟩
    · cases h
      exact ⟨_, .copy lock ledger result hphase rfl rfl rfl, rfl, rfl⟩
  next lock ledger result hphase =>
    -- rename
    split at h
    case h_1 | h_2 =>
      cases h
      exact ⟨_, hkeep (by simp) rfl rfl rfl, rfl, rfl⟩
    next copy hcopy =>
      cases h
      exact ⟨_, .publish lock ledger copy result hphase hcopy rfl rfl, rfl, rfl⟩
  next lock result hphase =>
    cases h
    exact ⟨_, hkeep (by simp) rfl rfl rfl, rfl, rfl⟩
  · cases h

/-! ## The invariant is kept -/

variable [AddLeftMono α] [AddRightMono α]

theorem LedgerInv.callStep (hs : s.LedgerInv host) (hlock : s.LockInv host)
    (hrunning : s.status (host.processOf c) = .running)
    (hlawful : s.Lawful host (.advance c err alive)) (hsafe : s.StepSafe host (.advance c err alive))
    (h : s.callStep host c err alive = some t) : t.LedgerInv host := by
  obtain ⟨p, heffect, hphase, hstatus⟩ := callStep_ledgerEffect h
  have hrun : t.Running = s.Running := running_eq hstatus
  have hother : ∀ c', c' ≠ c → t.phase c' = s.phase c' := fun c' hne => by
    rw [hphase, update_of_ne hne]
  have hself : t.phase c = p := by rw [hphase, update_self]
  have hinside : ∀ c', c' ≠ c → t.Inside host c' → s.Inside host c' := fun c' hne hin => by
    rwa [Inside, hstatus, hother c' hne] at hin
  -- While the call is in the critical section, no other is.
  have halone : (s.phase c).Critical → ∀ c', t.Inside host c' → c' = c := fun hcritical c' hin =>
    of_not_not fun hne => hne (hlock.exclusive (hinside c' hne hin) ⟨hrunning, hcritical⟩)
  cases heffect with
  | keep _ hp hfile hcopies hlog =>
    refine ⟨?_, ?_, ?_, fun c' ledger result hin hwrites => ?_,
      fun c' lock ledger result hin hrename => ?_⟩
    · rw [hlog, hstatus]
      exact hs.known
    · rw [hrun, hlog, rows, hfile]
      exact hs.covers
    · rw [hfile]
      exact hs.withinCap
    · have hne : c' ≠ c := by
        rintro rfl
        exact hp ledger result (hself ▸ hwrites)
      rw [hother c' hne] at hwrites
      exact (hs.pending c' ledger result (hinside c' hne hin) hwrites).congr hstatus hlog
    · have hne : c' ≠ c := by
        rintro rfl
        exact hp ledger result ⟨lock, .inr (hself.symm.trans hrename)⟩
      rw [hother c' hne] at hrename
      rw [hcopies]
      exact hs.copies c' lock ledger result (hinside c' hne hin) hrename
  | perform lock ledger written result hread_phase hread hwrites hfile hcopies hlog =>
    have hcritical : (s.phase c).Critical := by rw [hread_phase]; trivial
    have hboot : ∀ process, s.Running process →
        (host.ledgers process).bootId = (ledgerOf host c).bootId := by
      simp only [StepSafe, hread_phase] at hsafe
      exact hsafe
    refine ⟨?_, ?_, ?_, fun c' ledger' result' hin hwrites' => ?_,
      fun c' lock' ledger' result' hin hrename => ?_⟩
    · rw [hlog, hstatus]
      exact hs.known
    · rw [hrun, hlog, rows, hfile]
      exact hs.covers
    · rw [hfile]
      exact hs.withinCap
    · obtain rfl := halone hcritical c' hin
      rw [hself] at hwrites'
      obtain ⟨lock', hw | hw⟩ := hwrites'
      · obtain ⟨-, rfl, rfl⟩ := CallPhase.writeLedger.inj hw
        exact (hs.pending_of_read hlawful hboot hread hwrites).congr hstatus hlog
      · cases hw
    · obtain rfl := halone hcritical c' hin
      rw [hself] at hrename
      cases hrename
  | copy lock ledger result hwrite hfile hcopies hlog =>
    have hcritical : (s.phase c).Critical := by rw [hwrite]; trivial
    have hpending := hs.pending c ledger result ⟨hrunning, hcritical⟩ ⟨lock, .inl hwrite⟩
    refine ⟨?_, ?_, ?_, fun c' ledger' result' hin hwrites' => ?_,
      fun c' lock' ledger' result' hin hrename => ?_⟩
    · rw [hlog, hstatus]
      exact hs.known
    · rw [hrun, hlog, rows, hfile]
      exact hs.covers
    · rw [hfile]
      exact hs.withinCap
    · obtain rfl := halone hcritical c' hin
      rw [hself] at hwrites'
      obtain ⟨lock', hw | hw⟩ := hwrites'
      · cases hw
      · obtain ⟨-, rfl, rfl⟩ := CallPhase.rename.inj hw
        exact hpending.congr hstatus hlog
    · obtain rfl := halone hcritical c' hin
      rw [hself] at hrename
      obtain ⟨-, rfl, rfl⟩ := CallPhase.rename.inj hrename
      rw [hcopies, update_self]
  | publish lock ledger copy result hrename hcopy hfile hlog =>
    have hcritical : (s.phase c).Critical := by rw [hrename]; trivial
    have hin : s.Inside host c := ⟨hrunning, hcritical⟩
    have hpending := hs.pending c ledger result hin ⟨lock, .inr hrename⟩
    -- The copy is the one that the call has written.
    obtain rfl : ledger = copy :=
      some.inj ((hs.copies c lock ledger result hin hrename).symm.trans hcopy)
    refine ⟨fun e he => ?_, ?_, fun ledger' hledger' => ?_, fun c' ledger' result' hin hwrites' => ?_,
      fun c' lock' ledger' result' hin hrename' => ?_⟩
    · rw [hlog, outstanding_append] at he
      rw [hstatus]
      rcases mem_foldl_eventOf he with he | ⟨row, hrow, rfl⟩
      · exact hs.known e he
      · refine ⟨?_, hpending.owns row hrow⟩
        rw [hrunning]
        simp
    · rw [hrun, hlog, outstanding_append, rows, hfile]
      exact hpending.covers
    · obtain rfl := some.inj (hfile.symm.trans hledger')
      exact hpending.withinCap
    · obtain rfl := halone hcritical c' hin
      rw [hself] at hwrites'
      obtain ⟨lock', hw | hw⟩ := hwrites' <;> cases hw
    · obtain rfl := halone hcritical c' hin
      rw [hself] at hrename'
      cases hrename'

variable [DecidableEq κ]

/-- A lawful and safe step keeps the invariant. -/
theorem LedgerInv.step (hs : s.LedgerInv host) (hlock : s.LockInv host) {a : LedgerAction ι κ}
    (hlawful : s.Lawful host a) (hsafe : s.StepSafe host a) (h : s.step host a = some t) :
    t.LedgerInv host := by
  cases a with
  | spawn process =>
    obtain ⟨hnew, h⟩ := ite_none_right_eq_some.1 h
    cases h
    have hold : ∀ process', process' ≠ process →
        (s.setStatus process .running).status process' = s.status process' :=
      fun _ hne => update_of_ne hne ..
    have hne : ∀ process', s.status process' ≠ .notStarted → process' ≠ process := by
      rintro process' hstarted rfl
      exact hstarted hnew
    refine hs.of_eq rfl rfl rfl rfl (fun c hin => ?_) (fun process' hstarted => ?_)
      fun process' hstarted hrun => ?_
    · have hne : host.processOf c ≠ process := by
        rintro rfl
        have hcritical : (s.phase c).Critical := hin.2
        rw [hlock.idle c hnew] at hcritical
        exact hcritical
      exact ⟨(hold _ hne).symm.trans hin.1, hin.2⟩
    · rwa [hold process' (hne process' hstarted)]
    · exact (hold process' (hne process' hstarted)).symm.trans hrun
  | crash process =>
    obtain ⟨hrunning, h⟩ := ite_none_right_eq_some.1 h
    cases h
    have hstill : ∀ process', (s.setStatus process .crashed).status process' = .running →
        s.status process' = .running := by
      intro process' hrun
      have hne : process' ≠ process := by
        rintro rfl
        cases (update_self ..).symm.trans hrun
      exact (update_of_ne hne ..).symm.trans hrun
    refine hs.of_eq rfl rfl rfl rfl (fun c hin => ⟨hstill _ hin.1, hin.2⟩)
      (fun process' hstarted => ?_) fun process' _ hrun => hstill process' hrun
    by_cases heq : process' = process
    · subst heq
      have hcrashed : (s.setStatus process' .crashed).status process' = .crashed :=
        update_self ..
      rw [hcrashed]
      simp
    · exact fun h => hstarted ((update_of_ne heq ..).symm.trans h)
  | tick now =>
    obtain ⟨-, h⟩ := ite_none_right_eq_some.1 h
    cases h
    exact hs.of_eq rfl rfl rfl rfl (fun _ hin => hin) (fun _ hstarted => hstarted)
      fun _ _ hrun => hrun
  | advance c err alive =>
    obtain ⟨hrunning, h⟩ := ite_none_right_eq_some.1 h
    exact hs.callStep hlock hrunning hlawful hsafe h

omit [AddLeftMono α] [AddRightMono α] in
/-- There is no ledger at first. -/
theorem LedgerInv.init (hs : s ∈ (ledgerSystem host).init) : s.LedgerInv host := by
  obtain ⟨-, hphase, -, hfile, hlog⟩ := hs
  refine ⟨?_, ?_, ?_, fun c ledger result hin => ?_, fun c lock ledger result hin => ?_⟩
  · simp [hlog, outstanding]
  · rw [hlog]
    rintro l hl -
    rw [sublist_nil.1 hl]
    exact nil_sublist _
  · simp [hfile]
  · have hcritical := hin.2
    rw [hphase] at hcritical
    exact hcritical.elim
  · have hcritical := hin.2
    rw [hphase] at hcritical
    exact hcritical.elim

end LedgerState

/-- In a lawful run whose steps are safe, at most one call is in the critical section, no
reservation of a running process is lost, and the sums are within the cap. -/
theorem ledgerSafe_of_stepSafe [DecidableEq ι] [DecidableEq κ] [AddLeftMono α] [AddRightMono α]
    {host : LedgerHost ι κ α} {s : LedgerState ι κ α}
    (h : (ledgerSystem host).Reachable (fun s a => s.Lawful host a ∧ s.StepSafe host a) s) :
    s.LedgerSafe host := by
  obtain ⟨hlock, hledger⟩ : s.LockInv host ∧ s.LedgerInv host := by
    refine h.invariant (P := fun s => s.LockInv host ∧ s.LedgerInv host)
      (fun s hs => ⟨.init hs, .init hs⟩) fun s a t ⟨hlock, hledger⟩ hok hstep => ?_
    exact ⟨hlock.step hok.1 hok.2 hstep, hledger.step hlock hok.1 hok.2 hstep⟩
  exact ⟨fun c c' => hlock.exclusive, hledger.covers, hledger.withinCap⟩

/-! ## Runs of four processes -/

def orchestratorName : Fin 4 → String
  | 0 => "a"
  | 1 => "b"
  | 2 => "c"
  | 3 => "d"

/-- Four orchestrators that share a pool of four cores, of which each reserves one. -/
def fourOrchestrators : LedgerHost (Fin 4) (Fin 4) ℕ where
  poolName := "pool"
  lock := "/var/lib/kici/scaler-ledger/pool.lock"
  stringify _ := "\x7b\"maxCpu\":4\x7d"
  processOf c := c
  op c := .tryReserve (orchestratorName c) ⟨1, Nat.zero_le _⟩ ⟨0, Nat.zero_le _⟩
  ledgers process := {
    instanceId := orchestratorName process
    pid := 100 + process
    bootId := "boot"
    expectedCap := some { maxCpu := some ⟨4, Nat.zero_le _⟩ } }

/-- The host before the processes start. -/
def freshHost : LedgerState (Fin 4) (Fin 4) ℕ where
  now := 0
  status _ := .notStarted
  phase _ := .idle
  lockDir := none
  nextIno := 0
  file := none
  copies _ := none
  log := []

theorem freshHost_mem_init : freshHost ∈ (ledgerSystem fourOrchestrators).init :=
  ⟨fun _ => rfl, fun _ => rfl, rfl, rfl, rfl⟩

/-- The next step of a call, that works, where every process is found. -/
def next (c : Fin 4) : LedgerAction (Fin 4) (Fin 4) := .advance c none fun _ => true

/-- A test for lawful steps. -/
def lawfulTest (s : LedgerState (Fin 4) (Fin 4) ℕ) : LedgerAction (Fin 4) (Fin 4) → Bool
  | .tick now => ∀ c, s.Inside fourOrchestrators c → ∀ lock ∈ (s.phase c).lock?,
      now ≤ lock.mtimeMs + STALE_LOCK_MS
  | .advance _ _ alive => ∀ process, alive (fourOrchestrators.ledgers process).pid = true
  | _ => true

theorem lawful_of_test (s : LedgerState (Fin 4) (Fin 4) ℕ) (a : LedgerAction (Fin 4) (Fin 4))
    (h : lawfulTest s a) : s.Lawful fourOrchestrators a := by
  cases a with
  | tick now => exact fun c hin lock hlock => of_decide_eq_true h c hin lock hlock
  | advance c err alive => exact fun process _ _ => of_decide_eq_true h process
  | spawn | crash => trivial

/-- A test for steps that remove no lock directory but the own one. -/
def removesOwn (s : LedgerState (Fin 4) (Fin 4) ℕ) : LedgerAction (Fin 4) (Fin 4) → Bool
  | .advance c _ _ =>
    match s.phase c with
    | .forceRelease .. => false
    | .leave lock _ => s.lockDir = some lock
    | _ => true
  | _ => true

theorem stepSafe_of_test (s : LedgerState (Fin 4) (Fin 4) ℕ) (a : LedgerAction (Fin 4) (Fin 4))
    (h : (lawfulTest s a && removesOwn s a)) :
    s.Lawful fourOrchestrators a ∧ s.StepSafe fourOrchestrators a := by
  rw [Bool.and_eq_true] at h
  refine ⟨lawful_of_test s a h.1, ?_⟩
  cases a with
  | advance c err alive =>
    have hown := h.2
    rw [removesOwn] at hown
    rw [LedgerState.StepSafe]
    cases hphase : s.phase c with
    | forceRelease =>
      rw [hphase] at hown
      cases hown
    | leave lock result =>
      rw [hphase] at hown
      exact fun lock' hlock' => .inl (some.inj (hlock'.symm.trans (of_decide_eq_true hown)))
    | readLedger => exact fun _ _ => rfl
    | _ => trivial
  | _ => trivial

/-- One orchestrator reserves a core, and another after it. -/
theorem ledgerSafe_two_reservations : ∃ s : LedgerState (Fin 4) (Fin 4) ℕ,
    (outstanding s.log).length = 2 ∧ s.LedgerSafe fourOrchestrators := by
  obtain ⟨s, hpath, hs⟩ := (ledgerSystem fourOrchestrators).exists_path freshHost
      (fun s => (outstanding s.log).length = 2) stepSafe_of_test
      (.spawn 0 :: .spawn 1 :: replicate 6 (next 0) ++ replicate 6 (next 1)) (by decide)
  exact ⟨s, hs, ledgerSafe_of_stepSafe ⟨freshHost, freshHost_mem_init, hpath⟩⟩

/-- A lawful run that admits two calls to the critical section, of which one loses the
reservation of the other. The process of call `0` crashes inside; `1` and `2` find its
lock stale; `1` removes it, and `3` comes in; then `2` removes the lock of `3`. -/
theorem exists_reservation_lost : ∃ s t : LedgerState (Fin 4) (Fin 4) ℕ,
    (ledgerSystem fourOrchestrators).Reachable (fun s a => s.Lawful fourOrchestrators a) s ∧
    (s.Inside fourOrchestrators 2 ∧ s.Inside fourOrchestrators 3) ∧
    (ledgerSystem fourOrchestrators).Path (fun s a => s.Lawful fourOrchestrators a) s t ∧
    ¬Covers t.Running (outstanding t.log) t.rows := by
  obtain ⟨s, t, hs, ht, hlost⟩ : ∃ s t,
      (ledgerSystem fourOrchestrators).Path (fun s a => s.Lawful fourOrchestrators a) freshHost s ∧
      (ledgerSystem fourOrchestrators).Path (fun s a => s.Lawful fourOrchestrators a) s t ∧
      decide ((s.Inside fourOrchestrators 2 ∧ s.Inside fourOrchestrators 3) ∧
        ((outstanding t.log).length = 2 ∧ t.rows.length = 1 ∧
          ∀ e ∈ outstanding t.log, t.status e.1 = .running)) :=
    System.exists_paths_of_run lawful_of_test
      (.spawn 0 :: .spawn 1 :: .spawn 2 :: .spawn 3 :: replicate 2 (next 0) ++
        .crash 0 :: .tick 30001 :: replicate 4 (next 1) ++ replicate 4 (next 2) ++
        next 1 :: next 3 :: next 3 :: next 2 :: .tick 30006 :: replicate 2 (next 2))
      [next 2, next 3, next 2, next 2, next 3, next 3] (by decide)
  obtain ⟨hinside, hheld, hrows, hrunning⟩ := of_decide_eq_true hlost
  refine ⟨s, t, ⟨freshHost, freshHost_mem_init, hs⟩, hinside, ht, fun hcovers => ?_⟩
  -- Two reservations are held, and the ledger has one.
  have hlength := (hcovers (outstanding t.log) (Sublist.refl _) hrunning).length_le
  rw [length_map, hheld, hrows] at hlength
  exact absurd hlength (by decide)

end Kici
