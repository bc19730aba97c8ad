import Kici.Sandbox.ConcurrencyAck

/-!
# Acks that reach their waits

An ack that is dispatched while no waiter is armed is lost, and so is one that is still on its way
when the timer of its wait fires. In runs in which neither happens (`Steady`), every ack is
delivered to its wait: the first to the first wait, the second to the second; and a job that is told
to proceed in time does (`acks_delivered_of_steady`).

That an ack is dispatched without a waiter does happen: `exists_slot_lost` is a run in which `wait`
and `proceed` come in one chunk, so that the job fails after the whole time it may wait.
-/

namespace Kici

open List Option Ipc HandshakePoint Handshake

variable {result : Except JsString ConcurrencyAck} {chunk : List AgentToRunnerMessage}
  {first second : ConcurrencyAck}

namespace Handshake

variable {ack : ConcurrencyAck}

/-- The acks that are on their way to the runner. -/
def inFlight (s : Handshake) : List ConcurrencyAck := acksOf (s.chunk ++ s.stdin)

/-- An ack is dispatched when a waiter is armed, and a timer fires when no ack is on its way, and
not before its time. -/
def Steady (s : Handshake) : HandshakeAction → Prop
  | .dispatch => ∀ ack chunk, s.chunk = .concurrencyAck ack :: chunk → s.pendingConcurrencyAck.isSome
  | .expire => s.inFlight = [] ∧ ∀ waiter ∈ s.pendingConcurrencyAck, waiter.timeoutMs ≤ TIMEOUT_MAX
  | _ => True

/-- The acks were sent in time, each before the budget of its wait was over. -/
structure InBudget (timeouts : ConcurrencyTimeouts) (s : Handshake) : Prop where
  first : ∀ answer ∈ s.answers[0]?, ∀ wait ∈ s.waits[0]?, answer.2 < wait + timeouts.concurrencyTimeoutMs
  second : ∀ answer ∈ s.answers[1]?, ∀ wait ∈ s.waits[1]?, answer.2 < wait + timeouts.waitCapMs

/-- The event loop of the runner has nothing left to do. -/
structure Idle (s : Handshake) : Prop where
  stdin : s.stdin = []
  chunk : s.chunk = []
  settled : s.settled = none

/-- Acks reach their waits: none is dropped, they are delivered in the order in which they were
sent, the first to the first wait and the second to the second; after two acks that were sent in
time nothing is left to be delivered once the runner is idle, and if the second says so, the job
proceeds. -/
structure AcksDelivered (timeouts : ConcurrencyTimeouts) (s : Handshake) : Prop where
  dropped : s.dropped = []
  places : s.delivered.map Prod.fst <+: [.firstAck, .secondAck]
  order : s.delivered.map Prod.snd <+: s.answers.map Prod.fst
  reached : ∀ first second, s.answers.map Prod.fst = [first, second] → s.InBudget timeouts → s.Idle →
    s.delivered = [(.firstAck, first), (.secondAck, second)]
  proceeds : ∀ first second, s.answers.map Prod.fst = [first, second] → second.action = .proceed →
    s.InBudget timeouts → s.point ≠ .exited ∧ (s.Idle → s.point = .proceeded)

/-! ## The invariant -/

/-- The ack that the first wait ended with, in the second. -/
structure Earlier where
  ack : Option ConcurrencyAck
  wait : ∀ a ∈ ack, a.action = .wait

namespace Earlier

variable (earlier : Earlier)

def point : HandshakePoint := if earlier.ack.isNone then .firstAck else .secondAck

def budget (timeouts : ConcurrencyTimeouts) : ℕ :=
  if earlier.ack.isNone then timeouts.concurrencyTimeoutMs else timeouts.waitCapMs

def delivered : List (HandshakePoint × ConcurrencyAck) := earlier.ack.toList.map fun a => (.firstAck, a)

end Earlier

/-- Where the handshake is, and what has become of the acks that were sent. -/
inductive Phase (timeouts : ConcurrencyTimeouts) (s : Handshake) : Prop
  | group (hpoint : s.point = .group) (hpending : s.pendingConcurrencyAck = none)
    (hsettled : s.settled = none)
      (hdelivered : s.delivered = []) (hanswers : s.answers = []) (hwaits : s.waits = [])
        (hflight : s.inFlight = [])
  | waiting (earlier : Earlier) (waiter : AckWaiter) (hpoint : s.point = earlier.point)
      (hpending : s.pendingConcurrencyAck = some waiter) (hsettled : s.settled = none)
      (hdelivered : s.delivered = earlier.delivered)
      (hanswers : s.answers.map Prod.fst = s.delivered.map Prod.snd ++ s.inFlight)
      (hwaits : s.waits.length = s.delivered.length + 1)
      (hbudget : waiter.timeoutMs = earlier.budget timeouts)
      (hdeadline : ∀ wait ∈ s.waits[s.delivered.length]?, waiter.timeoutMs ≤ TIMEOUT_MAX →
        wait + waiter.timeoutMs ≤ waiter.deadline)
  | acked (earlier : Earlier) (ack : ConcurrencyAck) (hpoint : s.point = earlier.point)
      (hpending : s.pendingConcurrencyAck = none) (hsettled : s.settled = some (.ok ack))
      (hdelivered : s.delivered = earlier.delivered ++ [(earlier.point, ack)])
      (hanswers : s.answers.map Prod.fst = s.delivered.map Prod.snd ++ s.inFlight)
      (hwaits : s.waits.length = s.delivered.length)
  | expired (earlier : Earlier) (message : JsString)
      (hpoint : s.point = earlier.point ∧ s.settled = some (.error message) ∨ s.point = .exited ∧
        s.settled = none)
      (hpending : s.pendingConcurrencyAck = none) (hdelivered : s.delivered = earlier.delivered)
      (hanswers : s.delivered.map Prod.snd <+: s.answers.map Prod.fst)
      (hwaits : s.waits.length = s.delivered.length + 1)
      (hover : ∀ wait ∈ s.waits[s.delivered.length]?, wait + earlier.budget timeouts ≤ s.now ∧
        ∀ answer ∈ s.answers.drop s.delivered.length, wait + earlier.budget timeouts ≤ answer.2)
  | ended (hpending : s.pendingConcurrencyAck = none) (hsettled : s.settled = none)
      (hanswers : s.answers.map Prod.fst = s.delivered.map Prod.snd)
      (hplaces : s.delivered.map Prod.fst <+: [.firstAck, .secondAck])
      (hend : ∀ ack, s.answerable ack = false)
      (hpoint : s.point = .proceeded ∨ s.point = .exited ∧
        ∀ ack ∈ (s.answers.map Prod.fst).getLast?, ack.action ≠ .proceed)

/-- The acks of the orchestrator: one, or `wait` and one that ends the wait. -/
def answersShape (s : Handshake) : Prop :=
  ∀ first second rest, s.answers.map Prod.fst = first :: second :: rest →
    first.action = .wait ∧ second.action ≠ .wait ∧ rest = []

structure Sound (timeouts : ConcurrencyTimeouts) (s : Handshake) : Prop where
  dropped : s.dropped = []
  shape : s.answersShape
  phase : s.Phase timeouts

variable {timeouts : ConcurrencyTimeouts} {s t : Handshake}

/-- What becomes of the acks does not depend on how they are split into chunks. -/
theorem Phase.of_eq (h : s.Phase timeouts) (hpoint : t.point = s.point)
    (hpending : t.pendingConcurrencyAck = s.pendingConcurrencyAck) (hsettled : t.settled = s.settled)
    (hdelivered : t.delivered = s.delivered) (hanswers : t.answers = s.answers)
    (hwaits : t.waits = s.waits)
    (hflight : t.inFlight = s.inFlight) (hnow : s.now ≤ t.now) : t.Phase timeouts := by
  cases h with
  | group =>
    exact .group (by rw [hpoint]; assumption) (by rw [hpending]; assumption)
      (by rw [hsettled]; assumption)
      (by rw [hdelivered]; assumption) (by rw [hanswers]; assumption) (by rw [hwaits]; assumption)
      (by rw [hflight]; assumption)
  | waiting earlier waiter =>
    exact .waiting earlier waiter (by rw [hpoint]; assumption)
      (by rw [hpending]; assumption) (by rw [hsettled]; assumption) (by rw [hdelivered]; assumption)
      (by rw [hanswers, hdelivered, hflight]; assumption) (by rw [hwaits, hdelivered]; assumption)
        (by assumption)
      (by rw [hwaits, hdelivered]; assumption)
  | acked earlier ack =>
    exact .acked earlier ack (by rw [hpoint]; assumption) (by rw [hpending]; assumption)
      (by rw [hsettled]; assumption) (by rw [hdelivered]; assumption)
      (by rw [hanswers, hdelivered, hflight]; assumption) (by rw [hwaits, hdelivered]; assumption)
  | expired earlier message _ _ _ _ _ hover =>
    refine .expired earlier message (by rw [hpoint, hsettled]; assumption) (by rw [hpending]; assumption)
      (by rw [hdelivered]; assumption) (by rw [hanswers, hdelivered]; assumption)
      (by rw [hwaits, hdelivered]; assumption) ?_
    rw [hwaits, hdelivered, hanswers]
    exact fun wait hwait => ⟨(hover wait hwait).1.trans hnow, (hover wait hwait).2⟩
  | ended _ _ _ _ hend =>
    exact .ended (by rw [hpending]; assumption) (by rw [hsettled]; assumption)
      (by rw [hanswers, hdelivered]; assumption) (by rw [hdelivered]; assumption)
      (fun ack => by rw [answerable, hanswers, hwaits]; exact hend ack)
      (by rw [hpoint, hanswers]; assumption)

theorem inFlight_append (msgs : List AgentToRunnerMessage) :
    inFlight { s with stdin := s.stdin ++ msgs } = s.inFlight ++ acksOf msgs := by
  rw [inFlight, inFlight, ← append_assoc, acksOf, filterMap_append]
  rfl

theorem inFlight_read (n : ℕ) (h : s.chunk = []) :
    inFlight { s with chunk := s.stdin.take n, stdin := s.stdin.drop n } = s.inFlight := by
  rw [inFlight, inFlight, take_append_drop, h, nil_append]

theorem inFlight_of_chunk {msg : AgentToRunnerMessage}
    (h : s.chunk = msg :: chunk) : s.inFlight = acksOf [msg] ++ inFlight { s with chunk } := by
  rw [inFlight, inFlight, h, acksOf, acksOf, cons_append, ← singleton_append, filterMap_append]
  rfl

/-- Only the acks matter of what is on its way. -/
theorem Sound.of_eq (h : s.Sound timeouts) (hdropped : t.dropped = s.dropped)
    (hpoint : t.point = s.point)
    (hpending : t.pendingConcurrencyAck = s.pendingConcurrencyAck) (hsettled : t.settled = s.settled)
    (hdelivered : t.delivered = s.delivered) (hanswers : t.answers = s.answers)
    (hwaits : t.waits = s.waits)
    (hflight : t.inFlight = s.inFlight) (hnow : s.now ≤ t.now) : t.Sound timeouts where
  dropped := by rw [hdropped, h.dropped]
  shape := by
    rw [answersShape, hanswers]
    exact h.shape
  phase := h.phase.of_eq hpoint hpending hsettled hdelivered hanswers hwaits hflight hnow

/-! ## Steps -/

theorem Earlier.point_mem (earlier : Earlier) : earlier.point ∈ [firstAck, .secondAck] := by
  rw [Earlier.point]
  split
  · exact mem_cons_self
  · exact mem_cons_of_mem _ mem_cons_self

/-- Before the group function settles nothing has happened. -/
theorem Sound.of_group (h : s.Sound timeouts) (hpoint : s.point = .group) :
    s.pendingConcurrencyAck = none ∧ s.delivered = [] ∧ s.answers = [] ∧ s.waits = [] ∧
    s.inFlight = [] := by
  have hnot : ∀ earlier : Earlier, s.point ≠ earlier.point := fun earlier heq =>
    absurd (heq ▸ earlier.point_mem) (by rw [hpoint]; decide)
  cases h.phase with
  | group _ hpending _ hdelivered hanswers hwaits hflight =>
    exact ⟨hpending, hdelivered, hanswers, hwaits, hflight⟩
  | waiting earlier _ hearlier => exact absurd hearlier (hnot earlier)
  | acked earlier _ hearlier => exact absurd hearlier (hnot earlier)
  | expired earlier _ hearlier =>
    rcases hearlier with ⟨hearlier, -⟩ | ⟨hexited, -⟩
    · exact absurd hearlier (hnot earlier)
    · cases hpoint.symm.trans hexited
  | ended _ _ _ _ _ hover =>
    rcases hover with hproceeded | ⟨hexited, -⟩
    · cases hpoint.symm.trans hproceeded
    · cases hpoint.symm.trans hexited

/-! ## The first answer and the second -/

theorem answerable_eq_false_of_nil (hanswers : s.answers = []) (hwaits : s.waits = []) :
    s.answerable ack = false := by
  simp [answerable, hanswers, hwaits]

/-- After an ack that does not have the runner wait the orchestrator sends none. -/
theorem answerable_eq_false_of_singleton {first ack : ConcurrencyAck}
    (hanswers : s.answers.map Prod.fst = [first])
    (hwait : first.action ≠ .wait) : s.answerable ack = false := by
  obtain ⟨⟨_, time⟩, hsent, rfl⟩ := map_eq_singleton_iff.1 hanswers
  rw [answerable, hsent]
  exact decide_eq_false fun h => hwait h.1

theorem answerable_eq_false_of_pair {first second ack : ConcurrencyAck}
    (hanswers : s.answers.map Prod.fst = [first, second]) : s.answerable ack = false := by
  obtain ⟨⟨_, time⟩, rest, hanswers, rfl, hrest⟩ := map_eq_cons_iff.1 hanswers
  obtain ⟨answer, rfl, -⟩ := map_eq_singleton_iff.1 hrest
  rw [answerable, hanswers]

/-- An ack of the orchestrator keeps to the shape of its acks. -/
theorem answersShape_answer (h : s.answerable ack) (stdin : List AgentToRunnerMessage) :
    answersShape { s with answers := s.answers ++ [(ack, s.now)], stdin } := by
  intro first second rest hshape
  rw [map_append] at hshape
  match hanswers : s.answers with
  | [] =>
    rw [hanswers] at hshape
    cases hshape
  | [(first', time)] =>
    rw [hanswers] at hshape
    obtain ⟨rfl, rfl, rfl⟩ : first' = first ∧ ack = second ∧ rest = [] := by simpa using hshape
    rw [answerable, hanswers] at h
    exact ⟨(of_decide_eq_true h).1, (of_decide_eq_true h).2, rfl⟩
  | _ :: _ :: _ =>
    rw [answerable, hanswers] at h
    cases h

/-! ## Steps -/

theorem le_timerDelay {ms : ℕ} (h : ms ≤ TIMEOUT_MAX) : ms ≤ timerDelay ms := by
  rw [timerDelay]
  split
  next hout => omega
  · exact le_rfl

section

variable (h : s.Sound timeouts)
include h

/-- The group function settles. -/
theorem Sound.evaluated (hpoint : s.point = .group) (result : Except JsString JsString) :
    (s.evaluated timeouts result).Sound timeouts := by
  obtain ⟨hpending, hdelivered, hanswers, hwaits, hflight⟩ := h.of_group hpoint
  have hshape : s.answersShape := h.shape
  cases result with
  | ok groupKey =>
    refine ⟨h.dropped, hshape, .waiting ⟨none, by simp⟩
      ⟨timeouts.concurrencyTimeoutMs, s.now + timerDelay timeouts.concurrencyTimeoutMs⟩
        rfl rfl rfl hdelivered ?_ ?_
      rfl ?_⟩
    · change s.answers.map Prod.fst = s.delivered.map Prod.snd ++ s.inFlight
      rw [hanswers, hdelivered, hflight]
      rfl
    · change (s.waits ++ [s.now]).length = s.delivered.length + 1
      rw [hwaits, hdelivered]
      rfl
    · change ∀ wait ∈ (s.waits ++ [s.now])[s.delivered.length]?, _
      rw [hwaits, hdelivered]
      rintro wait ⟨⟩ hmax
      exact Nat.add_le_add_left (le_timerDelay hmax) _
  | error message =>
    refine ⟨h.dropped, hshape, .ended hpending rfl ?_ ?_ (fun ack => ?_) (.inr ⟨rfl, ?_⟩)⟩
    · change s.answers.map Prod.fst = s.delivered.map Prod.snd
      rw [hanswers, hdelivered]
      rfl
    · change s.delivered.map Prod.fst <+: _
      rw [hdelivered]
      exact nil_prefix
    · exact answerable_eq_false_of_nil hanswers hwaits
    · change ∀ ack ∈ (s.answers.map Prod.fst).getLast?, ack.action ≠ .proceed
      rw [hanswers]
      exact fun ack hack => absurd hack (not_mem_none ack)

/-- The orchestrator sends an ack. -/
theorem Sound.answer (hanswer : s.answerable ack) :
    Sound timeouts { s with answers := s.answers ++ [(ack, s.now)], stdin := s.stdin ++
      [.concurrencyAck ack] } := by
  refine ⟨h.dropped, answersShape_answer hanswer _, ?_⟩
  have hflight : inFlight
    { s with answers := s.answers ++ [(ack, s.now)], stdin := s.stdin ++ [.concurrencyAck ack] } =
      s.inFlight ++ [ack] := inFlight_append _
  have hsent : (s.answers ++ [(ack, s.now)]).map Prod.fst = s.answers.map Prod.fst ++ [ack] := map_append
  cases h.phase with
  | group _ _ _ _ hanswers hwaits =>
    rw [answerable_eq_false_of_nil hanswers hwaits] at hanswer
    cases hanswer
  | waiting earlier waiter hpoint hpending hsettled hdelivered hanswers hwaits hbudget hdeadline =>
    refine .waiting earlier waiter hpoint hpending hsettled hdelivered ?_ hwaits hbudget hdeadline
    rw [hflight, hsent, hanswers, append_assoc]
  | acked earlier ack' hpoint hpending hsettled hdelivered hanswers hwaits =>
    refine .acked earlier ack' hpoint hpending hsettled hdelivered ?_ hwaits
    rw [hflight, hsent, hanswers, append_assoc]
  | expired earlier message hpoint hpending hdelivered hanswers hwaits hover =>
    refine .expired earlier message hpoint hpending hdelivered ?_ hwaits fun wait hwait =>
      ⟨(hover wait hwait).1, ?_⟩
    · rw [hsent]
      exact hanswers.trans (prefix_append _ _)
    · -- The ack is late, as the time is over.
      have hle : s.delivered.length ≤ s.answers.length := by simpa using hanswers.length_le
      rw [drop_append_of_le_length hle]
      intro answer hmem
      rcases mem_append.1 hmem with hold | hnew
      · exact (hover wait hwait).2 answer hold
      · rw [mem_singleton.1 hnew]
        exact (hover wait hwait).1
  | ended _ _ _ _ hend =>
    rw [hend ack] at hanswer
    cases hanswer

/-- An ack is dispatched to the waiter. -/
theorem Sound.dispatchAck
    (hchunk : s.chunk = .concurrencyAck ack :: chunk) (hwaiter : s.pendingConcurrencyAck.isSome) :
    (dispatchAck { s with chunk } ack).Sound timeouts := by
  obtain ⟨waiter, hwaiter⟩ := isSome_iff_exists.1 hwaiter
  have hne : s.pendingConcurrencyAck ≠ none := by
    rw [hwaiter]
    exact some_ne_none waiter
  have heq : Handshake.dispatchAck { s with chunk } ack = { s with
      chunk
      pendingConcurrencyAck := none
      settled := some (.ok ack)
      delivered := s.delivered ++ [(s.point, ack)] } := by
    rw [Handshake.dispatchAck]
    dsimp only
    rw [hwaiter]
  rw [heq]
  cases h.phase with
  | group _ hpending => exact absurd hpending hne
  | acked _ _ _ hpending => exact absurd hpending hne
  | expired _ _ _ hpending => exact absurd hpending hne
  | ended hpending => exact absurd hpending hne
  | waiting earlier _ hpoint _ _ hdelivered hanswers hwaits =>
    refine ⟨h.dropped, h.shape, .acked earlier ack hpoint rfl rfl ?_ ?_ ?_⟩
    · rw [hdelivered, hpoint]
    · change s.answers.map Prod.fst = (s.delivered ++ [(s.point, ack)]).map Prod.snd ++ _
      rw [hanswers, inFlight_of_chunk hchunk, map_append, append_assoc]
      rfl
    · change s.waits.length = (s.delivered ++ [(s.point, ack)]).length
      rw [hwaits, length_append]
      rfl

/-- The timer of the waiter fires, when no ack is on its way. -/
theorem Sound.expire {waiter : AckWaiter} (hwaiter : s.pendingConcurrencyAck = some waiter)
    (hflight : s.inFlight = []) (hmax : waiter.timeoutMs ≤ TIMEOUT_MAX)
    (hnow : waiter.deadline ≤ s.now) : (s.expire waiter).Sound timeouts := by
  have hne : s.pendingConcurrencyAck ≠ none := by
    rw [hwaiter]
    exact some_ne_none waiter
  refine ⟨h.dropped, h.shape, ?_⟩
  cases h.phase with
  | group _ hpending => exact absurd hpending hne
  | acked _ _ _ hpending => exact absurd hpending hne
  | expired _ _ _ hpending => exact absurd hpending hne
  | ended hpending => exact absurd hpending hne
  | waiting earlier waiter' hpoint hpending _ hdelivered hanswers hwaits hbudget hdeadline =>
    obtain rfl : waiter = waiter' := some.inj (hwaiter.symm.trans hpending)
    rw [hflight, append_nil] at hanswers
    refine .expired earlier _ (.inl ⟨hpoint, rfl⟩) rfl hdelivered ?_ hwaits fun wait hwait => ?_
    · change s.delivered.map Prod.snd <+: s.answers.map Prod.fst
      rw [hanswers]
    · -- Every ack that was sent is delivered, so that those to come are late.
      have hlength : s.answers.length = s.delivered.length := by
        simpa using congrArg List.length hanswers
      rw [← hbudget]
      refine ⟨(hdeadline wait hwait hmax).trans hnow, fun answer hmem => ?_⟩
      change answer ∈ s.answers.drop s.delivered.length at hmem
      rw [← hlength, drop_length] at hmem
      cases hmem

/-- The job fails after the wait has timed out. -/
theorem Sound.exit_of_expired {message : JsString} (hsettled : s.settled = some (.error message))
    (line error : JsString) : (s.exit line error).Sound timeouts := by
  refine ⟨h.dropped, h.shape, ?_⟩
  cases h.phase with
  | group _ _ hnone => cases hnone.symm.trans hsettled
  | waiting _ _ _ _ hnone => cases hnone.symm.trans hsettled
  | acked _ _ _ _ hok => cases hok.symm.trans hsettled
  | ended _ hnone => cases hnone.symm.trans hsettled
  | expired earlier message' _ hpending hdelivered hanswers hwaits hover =>
    exact .expired earlier message' (.inr ⟨rfl, rfl⟩) hpending hdelivered hanswers hwaits hover

/-- What is known when the code goes on with an ack. -/
theorem Sound.of_settled (hsettled : s.settled = some (.ok ack)) :
    ∃ earlier : Earlier, s.point = earlier.point ∧ s.pendingConcurrencyAck = none ∧
      s.delivered = earlier.delivered ++ [(earlier.point, ack)] ∧
      s.answers.map Prod.fst = s.delivered.map Prod.snd ++ s.inFlight ∧
      s.waits.length = s.delivered.length := by
  cases h.phase with
  | group _ _ hnone => cases hnone.symm.trans hsettled
  | waiting _ _ _ _ hnone => cases hnone.symm.trans hsettled
  | ended _ hnone => cases hnone.symm.trans hsettled
  | expired _ _ hpoint =>
    rcases hpoint with ⟨-, herror⟩ | ⟨-, hnone⟩
    · cases herror.symm.trans hsettled
    · cases hnone.symm.trans hsettled
  | acked earlier ack' hpoint hpending hok hdelivered hanswers hwaits =>
    obtain rfl : ack' = ack := by simpa using hok.symm.trans hsettled
    exact ⟨earlier, hpoint, hpending, hdelivered, hanswers, hwaits⟩

/-- The handshake ends with an ack, the first or the second, that does not have the runner wait. -/
theorem Sound.finish (hsettled : s.settled = some (.ok ack))
    (hlast : s.point = .firstAck → ack.action ≠ .wait) {point : HandshakePoint}
    {sent : List RunnerToAgentMessage}
    (hpoint : point = .proceeded ∨ point = .exited ∧ ack.action ≠ .proceed) :
    Sound timeouts { s with point, settled := none, sent } := by
  obtain ⟨earlier, hearlier, hpending, hdelivered, hanswers, -⟩ := h.of_settled hsettled
  have hlate : ∀ acks : List ConcurrencyAck, acks.getLast? = some ack →
      point = .proceeded ∨ point = .exited ∧ ∀ last ∈ acks.getLast?, last.action ≠ .proceed :=
        fun acks hacks =>
    hpoint.imp id fun hexited => ⟨hexited.1, fun last hlast => by
      rw [hacks] at hlast
      exact some.inj hlast ▸ hexited.2⟩
  cases hack : earlier.ack with
  | none =>
    have hfirst : s.delivered = [(.firstAck, ack)] := by
      rw [hdelivered, Earlier.delivered, Earlier.point, hack]
      rfl
    have hsent : s.answers.map Prod.fst = [ack] := by
      rw [hanswers, hfirst]
      cases hflight : s.inFlight with
      | nil => rfl
      | cons second rest =>
        -- A second ack comes after `wait` only.
        rw [hfirst, hflight] at hanswers
        refine absurd (h.shape ack second rest hanswers).1 (hlast ?_)
        rw [hearlier, Earlier.point, hack]
        rfl
    refine ⟨h.dropped, h.shape, .ended hpending rfl ?_ ?_ (fun ack' => ?_) (hlate _ ?_)⟩
    · change s.answers.map Prod.fst = s.delivered.map Prod.snd
      rw [hsent, hfirst]
      rfl
    · change s.delivered.map Prod.fst <+: _
      rw [hfirst]
      exact ⟨[.secondAck], rfl⟩
    · have hwait : ack.action ≠ .wait := by
        refine hlast ?_
        rw [hearlier, Earlier.point, hack]
        rfl
      exact answerable_eq_false_of_singleton (s := { s with point, settled := none, sent }) hsent hwait
    · change (s.answers.map Prod.fst).getLast? = some ack
      rw [hsent]
      rfl
  | some first =>
    have hboth : s.delivered = [(.firstAck, first), (.secondAck, ack)] := by
      rw [hdelivered, Earlier.delivered, Earlier.point, hack]
      rfl
    have hsent : s.answers.map Prod.fst = [first, ack] := by
      rw [hboth] at hanswers
      have hrest := (h.shape first ack s.inFlight hanswers).2.2
      rw [hanswers, hrest]
      rfl
    refine ⟨h.dropped, h.shape, .ended hpending rfl ?_ ?_ (fun ack' => ?_) (hlate _ ?_)⟩
    · change s.answers.map Prod.fst = s.delivered.map Prod.snd
      rw [hsent, hboth]
      rfl
    · change s.delivered.map Prod.fst <+: _
      rw [hboth]
      exact prefix_rfl
    · exact answerable_eq_false_of_pair (s := { s with point, settled := none, sent }) hsent
    · change (s.answers.map Prod.fst).getLast? = some ack
      rw [hsent]
      rfl

/-- The code after the first wait goes on. -/
theorem Sound.afterFirst (hpoint : s.point = .firstAck)
    (hsettled : s.settled = some result) : (s.afterFirst timeouts result).Sound timeouts := by
  cases result with
  | error message => exact h.exit_of_expired hsettled _ _
  | ok ack =>
    rw [afterFirst.eq_def]
    dsimp only
    cases hact : ack.action with
    | proceed => exact h.finish hsettled (fun _ => by rw [hact]; decide) (.inl rfl)
    | cancel =>
      exact h.finish hsettled (fun _ => by rw [hact]; decide) (.inr ⟨rfl, by rw [hact]; decide⟩)
    | wait =>
      obtain ⟨earlier, hearlier, -, hdelivered, hanswers, hwaits⟩ := h.of_settled hsettled
      have hnone : earlier.ack = none := by
        cases hack : earlier.ack with
        | none => rfl
        | some first =>
          rw [hpoint, Earlier.point, hack] at hearlier
          cases hearlier
      refine ⟨h.dropped, h.shape, .waiting ⟨some ack, ?_⟩
        ⟨timeouts.waitCapMs, s.now + timerDelay timeouts.waitCapMs⟩ rfl rfl rfl ?_ hanswers ?_ rfl ?_⟩
      · rintro a ⟨⟩
        exact hact
      · change s.delivered = _
        rw [hdelivered, Earlier.delivered, Earlier.point, hnone]
        rfl
      · change (s.waits ++ [s.now]).length = s.delivered.length + 1
        rw [length_append, hwaits]
        rfl
      · change ∀ wait ∈ (s.waits ++ [s.now])[s.delivered.length]?, _
        rw [← hwaits, getElem?_concat_length]
        rintro wait ⟨⟩ hmax
        exact Nat.add_le_add_left (le_timerDelay hmax) _

/-- The code after the second wait goes on. -/
theorem Sound.afterSecond (hpoint : s.point = .secondAck)
    (hsettled : s.settled = some result) :
    (s.afterSecond timeouts result).Sound timeouts := by
  cases result with
  | error message => exact h.exit_of_expired hsettled _ _
  | ok ack =>
    have hlast : s.point = .firstAck → ack.action ≠ .wait := fun hfirst => by
      cases hpoint.symm.trans hfirst
    rw [afterSecond.eq_def]
    dsimp only
    cases hact : ack.action with
    | proceed => exact h.finish hsettled hlast (.inl rfl)
    | cancel | wait => exact h.finish hsettled hlast (.inr ⟨rfl, by rw [hact]; decide⟩)

/-- Every step keeps track of the acks, if none is lost with it. -/
theorem Sound.step {a : HandshakeAction} (hsteady : s.Steady a)
    (hstep : s.step timeouts a = some t) : t.Sound timeouts := by
  rw [step.eq_def] at hstep
  cases a with
  | evaluated result =>
    obtain ⟨hpoint, heq⟩ := ite_none_right_eq_some.1 hstep
    exact some.inj heq ▸ h.evaluated hpoint result
  | answer ack =>
    obtain ⟨hanswer, heq⟩ := ite_none_right_eq_some.1 hstep
    exact some.inj heq ▸ h.answer hanswer
  | other =>
    cases hstep
    refine h.of_eq rfl rfl rfl rfl rfl rfl rfl ?_ le_rfl
    rw [inFlight_append]
    exact append_nil _
  | read n =>
    obtain ⟨hidle, heq⟩ := ite_none_right_eq_some.1 hstep
    exact some.inj heq ▸ h.of_eq rfl rfl rfl rfl rfl rfl rfl (inFlight_read n hidle.1) le_rfl
  | dispatch =>
    dsimp only at hstep
    cases hchunk : s.chunk with
    | nil =>
      rw [hchunk] at hstep
      cases hstep
    | cons msg chunk =>
      rw [hchunk] at hstep
      cases hstep
      cases msg with
      | concurrencyAck ack => exact h.dispatchAck hchunk (hsteady ack chunk hchunk)
      | other => exact h.of_eq rfl rfl rfl rfl rfl rfl rfl (inFlight_of_chunk hchunk).symm le_rfl
  | resume =>
    dsimp only at hstep
    obtain ⟨-, hstep⟩ := ite_none_right_eq_some.1 hstep
    split at hstep
    case h_1 result hsettled hpoint => exact some.inj hstep ▸ h.afterFirst hpoint hsettled
    case h_2 result hsettled hpoint => exact some.inj hstep ▸ h.afterSecond hpoint hsettled
    case h_3 => cases hstep
  | expire =>
    dsimp only at hstep
    cases hwaiter : s.pendingConcurrencyAck with
    | none =>
      rw [hwaiter] at hstep
      cases hstep
    | some waiter =>
      rw [hwaiter] at hstep
      obtain ⟨hdue, heq⟩ := ite_none_right_eq_some.1 hstep
      exact some.inj heq ▸ h.expire hwaiter hsteady.1 (hsteady.2 waiter hwaiter) hdue.2.2
  | elapse ms =>
    cases hstep
    exact h.of_eq rfl rfl rfl rfl rfl rfl rfl rfl (Nat.le_add_right _ _)

end

/-! ## Runs -/

/-- A wait whose time is over had no ack in time. -/
theorem not_inBudget_of_expired (earlier : Earlier)
    (hdelivered : s.delivered = earlier.delivered) (hanswers : s.answers.map Prod.fst = [first, second])
    (hwaits : s.waits.length = s.delivered.length + 1)
    (hover : ∀ wait ∈ s.waits[s.delivered.length]?, wait + earlier.budget timeouts ≤ s.now ∧
      ∀ answer ∈ s.answers.drop s.delivered.length, wait + earlier.budget timeouts ≤ answer.2) :
    ¬ s.InBudget timeouts := by
  intro hbudget
  obtain ⟨a, rest, hcons, -, hrest⟩ := map_eq_cons_iff.1 hanswers
  obtain ⟨b, rfl, -⟩ := map_eq_singleton_iff.1 hrest
  have hwait : s.delivered.length < s.waits.length := by omega
  have hlate := (hover _ (getElem?_eq_getElem hwait)).2
  rw [hcons] at hlate
  cases hack : earlier.ack with
  | none =>
    have hlength : s.delivered.length = 0 := by rw [hdelivered, Earlier.delivered, hack]; rfl
    have hin := hbudget.first a (by rw [hcons]; rfl) _ (getElem?_eq_getElem (hlength ▸ hwait))
    have hout := hlate a (by rw [hlength]; exact mem_cons_self)
    rw [Earlier.budget, hack] at hout
    simp only [hlength] at hout
    exact absurd hin (Nat.not_lt.2 hout)
  | some earlierAck =>
    have hlength : s.delivered.length = 1 := by rw [hdelivered, Earlier.delivered, hack]; rfl
    have hin := hbudget.second b (by rw [hcons]; rfl) _ (getElem?_eq_getElem (hlength ▸ hwait))
    have hout := hlate b (by rw [hlength]; exact mem_cons_self)
    rw [Earlier.budget, hack] at hout
    simp only [hlength] at hout
    exact absurd hin (Nat.not_lt.2 hout)

theorem Earlier.delivered_prefix (earlier : Earlier) :
    earlier.delivered.map Prod.fst <+: [.firstAck, .secondAck] := by
  rw [Earlier.delivered]
  cases earlier.ack with
  | none => exact nil_prefix
  | some ack => exact ⟨[.secondAck], rfl⟩

theorem Sound.places (h : s.Sound timeouts) : s.delivered.map Prod.fst <+: [.firstAck, .secondAck] := by
  cases h.phase with
  | group _ _ _ hdelivered => exact hdelivered ▸ nil_prefix
  | waiting earlier _ _ _ _ hdelivered => exact hdelivered ▸ earlier.delivered_prefix
  | expired earlier _ _ _ hdelivered => exact hdelivered ▸ earlier.delivered_prefix
  | ended _ _ _ hplaces => exact hplaces
  | acked earlier ack _ _ _ hdelivered =>
    rw [hdelivered, Earlier.delivered, Earlier.point]
    cases earlier.ack with
    | none => exact ⟨[.secondAck], rfl⟩
    | some first => exact prefix_rfl

theorem Sound.order (h : s.Sound timeouts) : s.delivered.map Prod.snd <+: s.answers.map Prod.fst := by
  cases h.phase with
  | group _ _ _ hdelivered => exact hdelivered ▸ nil_prefix
  | waiting _ _ _ _ _ _ hanswers => exact ⟨s.inFlight, hanswers.symm⟩
  | acked _ _ _ _ _ _ hanswers => exact ⟨s.inFlight, hanswers.symm⟩
  | expired _ _ _ _ _ hanswers => exact hanswers
  | ended _ _ hanswers => exact hanswers ▸ prefix_rfl

/-- After two acks that were sent in time the runner is busy with them, or the handshake is over. -/
theorem Sound.of_pair (h : s.Sound timeouts)
    (hanswers : s.answers.map Prod.fst = [first, second]) (hbudget : s.InBudget timeouts) :
    (s.point ∈ [firstAck, .secondAck] ∧ ¬ s.Idle) ∨ (s.answers.map Prod.fst = s.delivered.map Prod.snd ∧
      (s.point = .proceeded ∨ s.point = .exited ∧ second.action ≠ .proceed)) := by
  cases h.phase with
  | group _ _ _ _ hnone =>
    rw [hnone] at hanswers
    cases hanswers
  | waiting earlier _ hpoint _ _ hdelivered hsent =>
    refine .inl ⟨hpoint ▸ earlier.point_mem, fun hidle => ?_⟩
    -- Nothing is on its way, so that at most one ack was sent.
    have hflight : s.inFlight = [] := by
      rw [inFlight, hidle.stdin, hidle.chunk]
      rfl
    rw [hflight, append_nil, hdelivered, Earlier.delivered, hanswers] at hsent
    cases hack : earlier.ack <;> rw [hack] at hsent <;> cases hsent
  | acked earlier _ hpoint _ hsettled =>
    exact .inl ⟨hpoint ▸ earlier.point_mem, fun hidle => by cases hidle.settled.symm.trans hsettled⟩
  | expired earlier _ _ _ hdelivered _ hwaits hover =>
    exact absurd hbudget (not_inBudget_of_expired earlier hdelivered hanswers hwaits hover)
  | ended _ _ hsent _ _ hpoint =>
    refine .inr ⟨hsent, hpoint.imp id fun hexited => ⟨hexited.1, hexited.2 second ?_⟩⟩
    rw [hanswers]
    rfl

theorem Sound.acksDelivered (h : s.Sound timeouts) : s.AcksDelivered timeouts where
  dropped := h.dropped
  places := h.places
  order := h.order
  reached first second hanswers hbudget hidle := by
    rcases h.of_pair hanswers hbudget with ⟨-, hbusy⟩ | ⟨hsent, -⟩
    · exact absurd hidle hbusy
    · obtain ⟨⟨place, _⟩, rest, hcons, rfl, hrest⟩ := map_eq_cons_iff.1 (hsent.symm.trans hanswers)
      obtain ⟨⟨place', _⟩, rfl, rfl⟩ := map_eq_singleton_iff.1 hrest
      have hplaces := (h.places.eq_of_length (by rw [hcons]; rfl)).symm
      rw [hcons] at hplaces ⊢
      obtain ⟨rfl, rfl⟩ : firstAck = place ∧ secondAck = place' := by simpa using hplaces
      rfl
  proceeds first second hanswers hproceed hbudget := by
    rcases h.of_pair hanswers hbudget with ⟨hpoint, hbusy⟩ | ⟨-, hpoint⟩
    · refine ⟨fun hexited => ?_, fun hidle => absurd hidle hbusy⟩
      rw [hexited] at hpoint
      exact absurd hpoint (by decide)
    · have hproceeded := hpoint.resolve_right fun hexited => hexited.2 hproceed
      exact ⟨by rw [hproceeded]; decide, fun _ => hproceeded⟩

end Handshake

open Handshake

variable {timeouts : ConcurrencyTimeouts} {s : Handshake}

/-- In every run in which no ack is dispatched without a waiter, nor overtaken by a timer, acks
reach their waits. -/
theorem acks_delivered_of_steady (h : (handshakeSystem timeouts).Reachable Steady s) :
    s.AcksDelivered timeouts := by
  refine Sound.acksDelivered (h.invariant ?_ fun s a t hs hsteady hstep => hs.step hsteady hstep)
  rintro s ⟨hasGroup, rfl⟩
  refine ⟨rfl, fun _ _ _ hanswers => ?_, ?_⟩
  · cases hanswers
  · cases hasGroup with
    | true => exact .group rfl rfl rfl rfl rfl rfl rfl
    | false => exact .ended rfl rfl rfl nil_prefix (fun ack => rfl) (.inl rfl)

/-! ## Two runs -/

/-- Whether a step is steady. -/
def Handshake.steady (s : Handshake) : HandshakeAction → Bool
  | .dispatch =>
    match s.chunk with
    | .concurrencyAck _ :: _ => s.pendingConcurrencyAck.isSome
    | _ => true
  | .expire => s.inFlight = [] && s.pendingConcurrencyAck.all (·.timeoutMs ≤ TIMEOUT_MAX)
  | _ => true

theorem steady_of_test (s : Handshake) (a : HandshakeAction) (h : s.steady a) : s.Steady a := by
  cases a with
  | dispatch =>
    intro ack chunk hchunk
    rwa [steady, hchunk] at h
  | expire =>
    obtain ⟨hflight, hwaiter⟩ := Bool.and_eq_true_iff.1 h
    refine ⟨of_decide_eq_true hflight, fun waiter hmem => ?_⟩
    rw [Option.mem_def.1 hmem] at hwaiter
    exact of_decide_eq_true hwaiter
  | _ => trivial

/-- The timeouts as they are by default: thirty seconds, and an hour. -/
def defaultTimeouts : ConcurrencyTimeouts := ⟨30000, 3600000⟩

def waitAck : ConcurrencyAck := ⟨.wait, none⟩

def proceedAck : ConcurrencyAck := ⟨.proceed, none⟩

/-- The answers of a run in which the slot is free at once. -/
def slotFreed (s : Handshake) : Bool :=
  s.answers = [(waitAck, 0), (proceedAck, 0)] && s.waits = [0, 0]

/-- The two acks come in two chunks, and the job proceeds. -/
theorem acks_delivered_of_steady_wait : ∃ s : Handshake, slotFreed s ∧ s.point = .proceeded ∧
    s.AcksDelivered defaultTimeouts := by
  obtain ⟨s, hpath, hend⟩ := (handshakeSystem defaultTimeouts).exists_path_of_run steady_of_test
    (s := { point := .group }) (p := fun s => slotFreed s && s.point = .proceeded)
    [.evaluated (.ok (js "deploy-main")), .answer waitAck, .answer proceedAck, .read 1, .dispatch,
      .resume, .read 1, .dispatch, .resume] (by decide)
  obtain ⟨hfreed, hpoint⟩ := Bool.and_eq_true_iff.1 hend
  exact ⟨s, hfreed, of_decide_eq_true hpoint, acks_delivered_of_steady ⟨_, ⟨true, rfl⟩, hpath⟩⟩

/-- The two acks come in one chunk: the second is dropped, and the job fails after an hour. -/
theorem exists_slot_lost : ∃ s : Handshake,
    (handshakeSystem defaultTimeouts).Reachable System.anyStep s ∧
    slotFreed s ∧ s.dropped = [proceedAck] ∧ s.point = .exited ∧ ¬ s.AcksDelivered defaultTimeouts := by
  obtain ⟨s, hpath, hend⟩ := (handshakeSystem defaultTimeouts).exists_path_of_run System.anyStep_of_true
    (s := { point := .group })
    (p := fun s => slotFreed s && (s.dropped = [proceedAck] && s.point = .exited))
    [.evaluated (.ok (js "deploy-main")), .answer waitAck, .answer proceedAck, .read 2, .dispatch,
      .dispatch, .resume, .elapse 3600000, .expire, .resume] (by decide)
  obtain ⟨hfreed, hlost⟩ := Bool.and_eq_true_iff.1 hend
  obtain ⟨hdropped, hexited⟩ := Bool.and_eq_true_iff.1 hlost
  have hdropped := of_decide_eq_true hdropped
  refine ⟨s, ⟨_, ⟨true, rfl⟩, hpath⟩, hfreed, hdropped, of_decide_eq_true hexited, fun h => ?_⟩
  cases hdropped.symm.trans h.dropped

end Kici
