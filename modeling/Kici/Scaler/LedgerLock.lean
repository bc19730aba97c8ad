import Kici.Foundation.TokenLock
import Kici.Scaler.LedgerHost

/-!
# The lock of the machine ledger

The lock directory is a lock by a token, as long as no removal takes away that of a call
in the critical section (`LedgerState.LockInv.move_callStep`): a call that forces a stale lock finds
the directory it found stale, and one that leaves finds its own, or else the directory is
that of no call inside (`LedgerState.StepSafe`). Then at most one call is in the critical
section (`LedgerState.LockInv.exclusive`).

The code does not see to this: it removes whatever directory is at the path.
-/

namespace Kici

open Function Option

variable {status : ProcessStatus}

namespace LedgerState

variable {ι κ α : Type*} [AddZeroClass α] [LinearOrder α]
  {host : LedgerHost ι κ α} {s t : LedgerState ι κ α} {c : ι} {err : Option String}
  {alive : ℕ → Bool}

variable (host s) in
/-- The directory at the path is this one, or that of no call in the critical section. -/
def Removable (dir : LockDir) : Prop := ∀ lock, s.lockDir = some lock →
  lock = dir ∨ ∀ c, s.Inside host c → (s.phase c).lock? ≠ some lock

variable (host s) in
/-- The directory that is removed is the one that was found stale or made, or that of no
call in the critical section; and the processes that run have a boot id in common. -/
def StepSafe : LedgerAction ι κ → Prop
  | .advance c _ _ =>
    match s.phase c with
    | .forceRelease _ _ info => s.Removable host info
    | .leave lock _ => s.Removable host lock
    | .readLedger _ => ∀ process, s.status process = .running →
        (host.ledgers process).bootId = (ledgerOf host c).bootId
    | _ => True
  | _ => True

/-! ## The lock directory as a token -/

instance : Decidable (s.Inside host c) := inferInstanceAs (Decidable (_ ∧ _))

variable (host s) in
/-- The lock directory as a token, those in the critical section as its holders. -/
def tokenLock : TokenLock ι LockDir where
  present := s.lockDir
  held c := if s.Inside host c then (s.phase c).lock? else none

variable {p : CallPhase α}

theorem exists_lock_of_critical (h : p.Critical) : ∃ lock, p.lock? = some lock := by
  cases p with
  | readLedger lock | writeLedger lock | rename lock => exact ⟨lock, rfl⟩
  | _ => exact h.elim

theorem held_eq_some {lock : LockDir} : (s.tokenLock host).held c = some lock ↔
    s.Inside host c ∧ (s.phase c).lock? = some lock := ite_none_right_eq_some

theorem held_ne_none (h : s.Inside host c) : (s.tokenLock host).held c ≠ none := by
  obtain ⟨lock, hlock⟩ := exists_lock_of_critical h.2
  rw [held_eq_some.2 ⟨h, hlock⟩]
  exact some_ne_none lock

theorem held_eq_none (h : ¬(s.phase c).Critical) : (s.tokenLock host).held c = none :=
  if_neg fun hinside => h hinside.2

theorem held_eq_lock (hrunning : s.status (host.processOf c) = .running)
    (h : (s.phase c).Critical) : (s.tokenLock host).held c = (s.phase c).lock? := if_pos ⟨hrunning, h⟩

/-- A call that stays with its directory, or has none, holds what it held or nothing. -/
theorem held_stay (hrunning : s.status (host.processOf c) = .running)
    (hlock : p.lock? = none ∨ p.lock? = (s.phase c).lock?)
    (hcritical : p.Critical → (s.phase c).Critical) :
    (if p.Critical then p.lock? else none) = (s.tokenLock host).held c ∨
      (if p.Critical then p.lock? else none) = none := by
  split
  next h =>
    rw [held_eq_lock hrunning (hcritical h)]
    exact hlock.symm
  · exact .inr rfl

/-! ## The invariant of the lock -/

variable (host s) in
/-- What holds in the runs whose steps are safe. -/
structure LockInv : Prop where
  /-- A call in the critical section has its directory at the path, and is the only one. -/
  sound : (s.tokenLock host).Sound
  /-- The directories that calls made are different. -/
  unique : ∀ c c' lock, (s.phase c).lock? = some lock → (s.phase c').lock? = some lock → c = c'
  fresh : ∀ c lock, (s.phase c).lock? = some lock → lock.ino < s.nextIno
  /-- The directory of a call in the critical section is not stale. -/
  timely : ∀ c lock, (s.tokenLock host).held c = some lock → s.now ≤ lock.mtimeMs + STALE_LOCK_MS
  stale : ∀ c attempt backoff info, s.phase c = .forceRelease attempt backoff info →
    info.mtimeMs + STALE_LOCK_MS < s.now
  idle : ∀ c, s.status (host.processOf c) = .notStarted → s.phase c = .idle

/-- At most one call is in the critical section. -/
theorem LockInv.exclusive (hs : s.LockInv host) {c c' : ι} (h : s.Inside host c)
    (h' : s.Inside host c') : c = c' :=
  hs.sound.exclusive c c' (held_ne_none h) (held_ne_none h')

/-- The directory that is removed is that of no call in the critical section. -/
theorem LockInv.ne_of_remove (hs : s.LockInv host) (hsafe : s.StepSafe host (.advance c err alive))
    {dir : LockDir} (hphase : (∃ attempt backoff, s.phase c = .forceRelease attempt backoff dir) ∨
      ∃ result, s.phase c = .leave dir result) (c' : ι) (lock : LockDir)
    (hheld : (s.tokenLock host).held c' = some lock) : s.lockDir ≠ some lock := by
  intro hdir
  obtain ⟨hinside, hlock⟩ := held_eq_some.1 hheld
  have hremovable : s.Removable host dir := by
    obtain ⟨attempt, backoff, hphase⟩ | ⟨result, hphase⟩ := hphase <;>
      simpa only [StepSafe, hphase] using hsafe
  obtain rfl := (hremovable lock hdir).resolve_right fun h => h c' hinside hlock
  obtain ⟨attempt, backoff, hphase⟩ | ⟨result, hphase⟩ := hphase
  · -- It was found stale, when those inside have new directories.
    exact absurd (hs.timely c' lock hheld) (hs.stale c attempt backoff lock hphase).not_ge
  · -- It is the own one, and the call has left the critical section.
    obtain rfl := hs.unique c c' lock (by rw [hphase]; rfl) hlock
    have hcritical := hinside.2
    rw [hphase] at hcritical
    exact hcritical

/-! ## What a step of a call does to the lock -/

variable [DecidableEq ι]

variable (s c) in
/-- The phase that a step of a call leads to, and what becomes of the lock directory. -/
inductive LockEffect (t : LedgerState ι κ α) : CallPhase α → Prop
  /-- The directory stays; the call has the one it had, or none. -/
  | stay (p : CallPhase α) (hlock : p.lock? = none ∨ p.lock? = (s.phase c).lock?)
      (hcritical : p.Critical → (s.phase c).Critical)
      (hstale : ∀ attempt backoff info, p = .forceRelease attempt backoff info →
        info.mtimeMs + STALE_LOCK_MS < s.now)
      (hdir : t.lockDir = s.lockDir) (hino : t.nextIno = s.nextIno) : LockEffect t p
  /-- A new directory is made where none is. -/
  | acquire (hfree : s.lockDir = none) (hphase : (s.phase c).lock? = none)
      (hdir : t.lockDir = some ⟨s.nextIno, s.now⟩) (hino : t.nextIno = s.nextIno + 1) :
      LockEffect t (.readLedger ⟨s.nextIno, s.now⟩)
  /-- The directory is removed: the one found stale, or the own one. -/
  | remove (p : CallPhase α) (dir : LockDir)
      (hphase : (∃ attempt backoff, s.phase c = .forceRelease attempt backoff dir) ∨
        ∃ result, s.phase c = .leave dir result)
      (hlock : p.lock? = none)
      (hforce : ∀ attempt backoff info, p ≠ .forceRelease attempt backoff info)
      (hdir : t.lockDir = none) (hino : t.nextIno = s.nextIno) : LockEffect t p

/-- A step of a call changes the phase of no other, no process and not the time. -/
theorem callStep_effect (h : s.callStep host c err alive = some t) :
    ∃ p, LockEffect s c t p ∧ t.phase = update s.phase c p ∧ t.status = s.status ∧
      t.now = s.now := by
  have hstay : ∀ {p : CallPhase α}, p.lock? = none → ¬p.Critical →
      (∀ attempt backoff info, p ≠ .forceRelease attempt backoff info) →
      LockEffect s c (s.goTo c p) p := fun hlock hcritical hforce =>
    .stay _ (.inl hlock) (fun h => absurd h hcritical)
      (fun _ _ _ heq => absurd heq (hforce _ _ _)) rfl rfl
  have hinside : ∀ {p : CallPhase α} {t : LedgerState ι κ α}, (s.phase c).Critical →
      p.lock? = (s.phase c).lock? → (∀ attempt backoff info, p ≠ .forceRelease attempt backoff info) →
      t.lockDir = s.lockDir → t.nextIno = s.nextIno → LockEffect s c t p :=
    fun hcritical hlock hforce hdir hino =>
      .stay _ (.inr hlock) (fun _ => hcritical) (fun _ _ _ heq => absurd heq (hforce _ _ _)) hdir hino
  rw [callStep] at h
  split at h
  next hphase =>
    -- idle
    cases h
    exact ⟨_, hstay rfl id (by simp), rfl, rfl, rfl⟩
  next attempt backoff hphase =>
    -- mkdir
    split at h
    case h_1 | h_2 =>
      cases h
      exact ⟨_, hstay rfl id (by simp), rfl, rfl, rfl⟩
    next hfree =>
      cases h
      exact ⟨_, .acquire hfree (by rw [hphase]; rfl) rfl rfl, rfl, rfl, rfl⟩
  next attempt backoff hphase =>
    -- stat
    split at h <;> cases h <;>
      exact ⟨_, hstay rfl id (by simp), rfl, rfl, rfl⟩
  next attempt backoff info hphase =>
    -- checkAge
    split at h
    next hold =>
      cases h
      refine ⟨_, .stay (.forceRelease attempt backoff info) (.inl rfl) ?_ ?_ rfl rfl, rfl, rfl, rfl⟩
      · exact False.elim
      intro attempt' backoff' info' heq
      obtain ⟨-, -, rfl⟩ := CallPhase.forceRelease.inj heq
      omega
    · cases h
      exact ⟨_, hstay rfl id (by simp), rfl, rfl, rfl⟩
  next attempt backoff info hphase =>
    -- forceRelease
    cases h
    cases err with
    | none => exact ⟨_, .remove _ info (.inl ⟨_, _, hphase⟩) rfl (by simp) rfl rfl, rfl, rfl, rfl⟩
    | some message => exact ⟨_, hstay rfl id (by simp), rfl, rfl, rfl⟩
  next attempt backoff wakeAt hphase =>
    -- delay
    split at h
    · cases h
    · split at h <;> cases h <;>
        exact ⟨_, hstay rfl id (by simp), rfl, rfl, rfl⟩
  next lock hphase =>
    -- readLedger
    have hcritical : (s.phase c).Critical := by rw [hphase]; trivial
    have hlock : (s.phase c).lock? = some lock := by rw [hphase]; rfl
    split at h
    case h_1 | h_2 =>
      cases h
      refine ⟨_, ?_, rfl, rfl, rfl⟩
      exact hinside hcritical hlock.symm (by simp) rfl rfl
    · split at h <;> cases h <;> refine ⟨_, ?_, rfl, rfl, rfl⟩ <;>
        exact hinside hcritical hlock.symm (by simp) rfl rfl
  next lock ledger result hphase =>
    -- writeLedger
    have hcritical : (s.phase c).Critical := by rw [hphase]; trivial
    have hlock : (s.phase c).lock? = some lock := by rw [hphase]; rfl
    split at h <;> cases h <;> refine ⟨_, ?_, rfl, rfl, rfl⟩ <;>
      exact hinside hcritical hlock.symm (by simp) rfl rfl
  next lock ledger result hphase =>
    -- rename
    have hcritical : (s.phase c).Critical := by rw [hphase]; trivial
    have hlock : (s.phase c).lock? = some lock := by rw [hphase]; rfl
    split at h <;> cases h <;> refine ⟨_, ?_, rfl, rfl, rfl⟩ <;>
      exact hinside hcritical hlock.symm (by simp) rfl rfl
  next lock result hphase =>
    -- leave
    cases h
    cases err with
    | none => exact ⟨_, .remove _ lock (.inr ⟨_, hphase⟩) rfl (by simp) rfl rfl, rfl, rfl, rfl⟩
    | some message => exact ⟨_, hstay rfl id (by simp), rfl, rfl, rfl⟩
  · cases h

/-! ## Mutual exclusion -/

/-- Only the call that takes a step changes what it holds. -/
theorem held_update (hrunning : s.status (host.processOf c) = .running)
    (hphase : t.phase = update s.phase c p) (hstatus : t.status = s.status) :
    (t.tokenLock host).held =
      update (s.tokenLock host).held c (if p.Critical then p.lock? else none) := by
  funext c'
  by_cases heq : c' = c
  · subst heq
    simp [tokenLock, Inside, hphase, hstatus, hrunning]
  · rw [update_of_ne heq]
    ext lock
    rw [held_eq_some, held_eq_some, Inside, Inside, hphase, hstatus, update_of_ne heq]

section

variable (hs : s.LockInv host)
  (hrunning : s.status (host.processOf c) = .running)
  (hsafe : s.StepSafe host (.advance c err alive))
  (h : s.callStep host c err alive = some t)
include hs hrunning hsafe h

/-- A step of a call moves the lock by its rules. -/
theorem LockInv.move_callStep :
    (s.tokenLock host).Move (t.tokenLock host) := by
  obtain ⟨p, heffect, hphase, hstatus, -⟩ := callStep_effect h
  have hheld := held_update hrunning hphase hstatus
  have htoken : t.tokenLock host = ⟨t.lockDir, (t.tokenLock host).held⟩ := rfl
  rw [htoken, hheld]
  cases heffect with
  | stay _ hlock hcritical _ hdir _ =>
    rw [hdir]
    refine .letGo _ fun i => ?_
    by_cases heq : i = c
    · subst heq
      rw [update_self]
      exact held_stay hrunning hlock hcritical
    · exact .inl (update_of_ne heq ..)
  | acquire hfree _ hdir _ =>
    rw [hdir]
    exact .acquire c _ hfree
  | remove _ dir hremoved hlock _ hdir _ =>
    have hnone : (s.tokenLock host).held c = none := by
      refine held_eq_none ?_
      obtain ⟨attempt, backoff, hforce⟩ | ⟨result, hleave⟩ := hremoved
      · rw [hforce]
        exact id
      · rw [hleave]
        exact id
    rw [hdir, hlock, ite_self, update_eq_self_iff.2 hnone.symm]
    exact .remove (hs.ne_of_remove hsafe hremoved)

theorem LockInv.callStep :
    t.LockInv host := by
  have hmove := hs.move_callStep hrunning hsafe h
  obtain ⟨p, heffect, hphase, hstatus, hnow⟩ := callStep_effect h
  have hheld := held_update hrunning hphase hstatus
  -- A call has the directory it had, or the new one.
  have hlocks : ∀ c' lock, (t.phase c').lock? = some lock → (s.phase c').lock? = some lock ∨
      c' = c ∧ lock = ⟨s.nextIno, s.now⟩ ∧ t.nextIno = s.nextIno + 1 := by
    intro c' lock hlock
    rw [hphase] at hlock
    by_cases heq : c' = c
    · subst heq
      rw [update_self] at hlock
      cases heffect with
      | stay _ hsame =>
        refine .inl (hsame.resolve_left ?_ ▸ hlock)
        rw [hlock]
        exact some_ne_none lock
      | acquire _ _ _ hino => exact .inr ⟨rfl, (some.inj hlock).symm, hino⟩
      | remove _ _ _ hnone =>
        rw [hnone] at hlock
        cases hlock
    · rw [update_of_ne heq] at hlock
      exact .inl hlock
  have hino : s.nextIno ≤ t.nextIno := by
    cases heffect with
    | stay _ _ _ _ _ hino | remove _ _ _ _ _ _ hino => exact hino.ge
    | acquire _ _ _ hino => exact hino ▸ Nat.le_succ _
  refine ⟨hs.sound.move hmove, fun c₁ c₂ lock h₁ h₂ => ?_, fun c' lock hlock => ?_,
    fun c' lock hlock => ?_, fun c' attempt backoff info hforce => ?_, fun c' hidle => ?_⟩
  · rcases hlocks c₁ lock h₁ with h₁ | ⟨rfl, hnew₁, -⟩ <;>
      rcases hlocks c₂ lock h₂ with h₂ | ⟨rfl, hnew₂, -⟩
    · exact hs.unique c₁ c₂ lock h₁ h₂
    · exact absurd (hs.fresh c₁ lock h₁) (by rw [hnew₂]; exact lt_irrefl _)
    · exact absurd (hs.fresh c₂ lock h₂) (by rw [hnew₁]; exact lt_irrefl _)
    · rfl
  · rcases hlocks c' lock hlock with hlock | ⟨rfl, rfl, hnext⟩
    · exact (hs.fresh c' lock hlock).trans_le hino
    · rw [hnext]
      exact Nat.lt_succ_self _
  · rw [hnow]
    rw [hheld] at hlock
    by_cases heq : c' = c
    · subst heq
      rw [update_self] at hlock
      cases heffect with
      | stay _ hsame hcritical =>
        rcases held_stay hrunning hsame hcritical with hold | hnone
        · exact hs.timely c' lock (hold.symm.trans hlock)
        · rw [hnone] at hlock
          cases hlock
      | acquire =>
        cases hlock
        exact Nat.le_add_right ..
      | remove _ _ _ hnone =>
        rw [hnone, ite_self] at hlock
        cases hlock
    · rw [update_of_ne heq] at hlock
      exact hs.timely c' lock hlock
  · rw [hnow]
    rw [hphase] at hforce
    by_cases heq : c' = c
    · subst heq
      rw [update_self] at hforce
      cases heffect with
      | stay _ _ _ hstale => exact hstale attempt backoff info hforce
      | acquire => cases hforce
      | remove _ _ _ _ hnot => exact absurd hforce (hnot attempt backoff info)
    · rw [update_of_ne heq] at hforce
      exact hs.stale c' attempt backoff info hforce
  · rw [hstatus] at hidle
    have hne : c' ≠ c := by
      rintro rfl
      rw [hrunning] at hidle
      cases hidle
    rw [hphase, update_of_ne hne]
    exact hs.idle c' hidle

end

/-- Where no call takes a step, calls may only cease to be inside, and directories age. -/
theorem LockInv.of_letGo (hs : s.LockInv host) (hphase : t.phase = s.phase)
    (hdir : t.lockDir = s.lockDir) (hino : t.nextIno = s.nextIno) (hnow : s.now ≤ t.now)
    (hheld : ∀ c, (t.tokenLock host).held c = (s.tokenLock host).held c ∨
      (t.tokenLock host).held c = none)
    (htimely : ∀ c lock, (t.tokenLock host).held c = some lock →
      t.now ≤ lock.mtimeMs + STALE_LOCK_MS)
    (hidle : ∀ c, t.status (host.processOf c) = .notStarted → s.phase c = .idle) :
    t.LockInv host := by
  have hmove : (s.tokenLock host).Move (t.tokenLock host) := by
    have htoken : t.tokenLock host = ⟨s.lockDir, (t.tokenLock host).held⟩ := by
      rw [← hdir]
      rfl
    rw [htoken]
    exact .letGo _ hheld
  refine ⟨hs.sound.move hmove, ?_, ?_, htimely, ?_, ?_⟩
  · rw [hphase]
    exact hs.unique
  · rw [hphase, hino]
    exact hs.fresh
  · rw [hphase]
    exact fun c attempt backoff info hforce => (hs.stale c attempt backoff info hforce).trans_le hnow
  · rw [hphase]
    exact hidle

variable [DecidableEq κ]

omit [DecidableEq ι] in
/-- The calls of other processes hold what they held. -/
theorem held_setStatus {process : κ} (hne : host.processOf c ≠ process) :
    ((s.setStatus process status).tokenLock host).held c = (s.tokenLock host).held c := by
  have hstatus : (s.setStatus process status).status (host.processOf c) =
      s.status (host.processOf c) := update_of_ne hne ..
  ext lock
  rw [held_eq_some, held_eq_some, Inside, Inside, hstatus]
  rfl

omit [DecidableEq ι] in
theorem held_setStatus_of_ne (hne : status ≠ .running) :
    ((s.setStatus (host.processOf c) status).tokenLock host).held c = none := by
  refine if_neg fun h => hne ?_
  exact (update_self ..).symm.trans h.1

/-- A lawful and safe step keeps the invariant. -/
theorem LockInv.step (hs : s.LockInv host) {a : LedgerAction ι κ} (hlawful : s.Lawful host a)
    (hsafe : s.StepSafe host a) (h : s.step host a = some t) : t.LockInv host := by
  cases a with
  | spawn process =>
    obtain ⟨hnew, h⟩ := ite_none_right_eq_some.1 h
    cases h
    have hheld : ∀ c, ((s.setStatus process .running).tokenLock host).held c =
        (s.tokenLock host).held c := by
      intro c
      by_cases heq : host.processOf c = process
      · -- The calls of the process are idle.
        subst heq
        have hidle : ¬(s.phase c).Critical := by
          rw [hs.idle c hnew]
          exact id
        rw [held_eq_none hidle]
        exact held_eq_none hidle
      · exact held_setStatus heq
    refine hs.of_letGo rfl rfl rfl le_rfl (fun c => .inl (hheld c)) (fun c lock hlock => ?_)
      fun c hidle => ?_
    · exact hs.timely c lock ((hheld c).symm.trans hlock)
    · by_cases heq : host.processOf c = process
      · rw [← heq] at hnew
        exact hs.idle c hnew
      · exact hs.idle c ((update_of_ne heq ..).symm.trans hidle)
  | crash process =>
    obtain ⟨hrunning, h⟩ := ite_none_right_eq_some.1 h
    cases h
    have hheld : ∀ c, ((s.setStatus process .crashed).tokenLock host).held c =
        (s.tokenLock host).held c ∨
          ((s.setStatus process .crashed).tokenLock host).held c = none := by
      intro c
      by_cases heq : host.processOf c = process
      · subst heq
        exact .inr (held_setStatus_of_ne (by simp))
      · exact .inl (held_setStatus heq)
    refine hs.of_letGo rfl rfl rfl le_rfl hheld (fun c lock hlock => ?_) fun c hidle => ?_
    · rcases hheld c with hsame | hnone
      · exact hs.timely c lock (hsame.symm.trans hlock)
      · rw [hnone] at hlock
        cases hlock
    · have hne : host.processOf c ≠ process := by
        rintro rfl
        cases (update_self ..).symm.trans hidle
      exact hs.idle c ((update_of_ne hne ..).symm.trans hidle)
  | tick now =>
    obtain ⟨hnow, h⟩ := ite_none_right_eq_some.1 h
    cases h
    refine hs.of_letGo rfl rfl rfl hnow (fun c => .inl rfl) (fun c lock hlock => ?_) hs.idle
    obtain ⟨hinside, hlock⟩ := held_eq_some.1 hlock
    exact hlawful c hinside lock hlock
  | advance c err alive =>
    obtain ⟨hrunning, h⟩ := ite_none_right_eq_some.1 h
    exact hs.callStep hrunning hsafe h

/-- Nobody is inside at first. -/
theorem LockInv.init (hs : s ∈ (ledgerSystem host).init) : s.LockInv host := by
  obtain ⟨-, hphase, -⟩ := hs
  have hheld : ∀ c, (s.tokenLock host).held c = none := fun c =>
    held_eq_none (by rw [hphase]; exact id)
  have hlock : ∀ c, (s.phase c).lock? = none := fun c => by
    rw [hphase]
    rfl
  refine ⟨⟨?_, ?_⟩, ?_, ?_, ?_, ?_, fun c _ => hphase c⟩
  · simp [hheld]
  · simp [hheld]
  · simp [hlock]
  · simp [hlock]
  · simp [hheld]
  · simp [hphase]

end LedgerState

end Kici
