import Kici.Worker.SpawnRetryBudget

/-!
# The retry budget is kept

The gate of a job is freed when the job is delivered, or when an agent fails while the scaler has
not named the one it spawns; the request that took the gate may wait for the scaler still, and its
answer is then taken for that of the attempt that holds the gate. The budget is kept in every run
that does without (`SpawnState.careful`): no request is let through while one waits whose gate was
freed, such a request is not put off to before the end of a pause, and the job does not go back to
the queue while the gate is held for an agent that is no longer on its way (`budgetHonoured`).

What is kept (`Sound`, `GateHeld`): the gate is held by the one request that waits, or for the agent
that it has named, and a pause that has not ended has a timer.
-/

namespace Kici.Worker

open List Option

/-- The condition on the steps. -/
def SpawnState.careful (s : SpawnState) : SpawnAction → Bool
  | .offer => beginAttempt s.entry s.isPending s.now != .begun || s.requests.all fun r =>
    s.owner == some r.agentId
  | .answer agentId (.skipped (some retryAfterMs)) =>
    s.owner == some agentId || s.entry.all fun entry => entry.backoffUntil ≤ s.now + retryAfterMs
  | .requeue => s.owner.all fun agentId => !s.ended.contains agentId
  | _ => true

/-- What is kept of the budget and of who holds the gate. -/
structure GateHeld (policy : RerouteSpawnRetry) (s : SpawnState) (entry : Entry) : Prop where
  policy_eq : entry.policy = policy
  inFlight_eq : entry.inFlight = s.owner.isSome
  owner_of_holder : ∀ agentId, entry.holder = some agentId → s.owner = some agentId
  waits_or_named : ∀ agentId, s.owner = some agentId →
    (∃ r ∈ s.requests, r.agentId = agentId) ∨ entry.holder = some agentId
  only : ∀ agentId, s.owner = some agentId → ∀ r ∈ s.requests, r.agentId = agentId
  begun : ∀ r ∈ s.requests, r.gate = .begun
  not_failed : ∀ agentId, s.owner = some agentId → agentId ∉ entry.failedAgents
  failed_lt : ∀ agentId ∈ entry.failedAgents, agentId < s.made
  backoff_le : entry.inFlight = true → entry.backoffUntil ≤ s.now
  timer_of_lt : s.now < entry.backoffUntil → entry.timer = true
  length_relayed : s.relayed.length = entry.failedAgents.length
  given_back : policy.maxAttempts ≤ entry.failedAgents.length → s.stopped = true ∨ s.place = .gone

/-- What every step keeps. -/
structure Sound (policy : RerouteSpawnRetry) (s : SpawnState) : Prop where
  held : ∀ entry, s.entry = some entry → GateHeld policy s entry
  owner_none : s.entry = none → s.owner = none
  not_ended : s.isPending = true → ∀ agentId, s.owner = some agentId → agentId ∉ s.ended
  ended_lt : ∀ agentId ∈ s.ended, agentId < s.made
  one_request : (s.requests.filter (·.gate = .begun)).length ≤ 1
  pauses_le : ∀ t ∈ s.pauses, t ≤ s.now ∨ ∃ entry, s.entry = some entry ∧ t ≤ entry.backoffUntil
  not_early : s.early = []
  length_relayed_le : s.relayed.length ≤ policy.maxAttempts
  final_iff : ∀ i final, s.relayed[i]? = some final → (final = true ↔ i + 1 = policy.maxAttempts)

variable {policy : RerouteSpawnRetry} {s t : SpawnState} {entry : Entry} {agentId : ℕ}

theorem isPending_iff : s.isPending ↔ s.place = .pending ∧ s.stopped = false := by
  simp [SpawnState.isPending]

namespace Entry

/-- Naming an agent changes the holder only. -/
theorem setHolder_eq (entry : Entry) (agentId : ℕ) :
    entry.setHolder agentId = { entry with holder := (entry.setHolder agentId).holder } := by
  rw [setHolder]
  split <;> rfl

/-- The agent that is named holds the gate, if no other does. -/
theorem setHolder_holder (hin : entry.inFlight) (hholder : ∀ a, entry.holder = some a → a = agentId)
    (hfailed : agentId ∉ entry.failedAgents) : (entry.setHolder agentId).holder = some agentId := by
  cases h : entry.holder with
  | none => simp [setHolder, hin, h, hfailed]
  | some a => simp [setHolder, h, hholder a h]

variable {now : ℕ}

theorem charge_policy : (entry.charge now agentId).policy = entry.policy := by
  rw [charge]
  split <;> rfl

theorem charge_failedAgents : (entry.charge now agentId).failedAgents = entry.failedAgents ++
    [agentId] := by
  rw [charge]
  split <;> rfl

theorem charge_timer (h : now < entry.backoffUntil → entry.timer)
    (hlt : now < (entry.charge now agentId).backoffUntil) : (entry.charge now agentId).timer := by
  rw [charge] at hlt ⊢
  split at hlt
  next hle =>
    rw [if_pos hle]
    exact h hlt
  next hle =>
    rw [if_neg hle]
    rfl

theorem charge_inFlight : (entry.charge now agentId).inFlight = false := by
  rw [charge]
  split <;> rfl

theorem charge_holder : (entry.charge now agentId).holder = none := by
  rw [charge]
  split <;> rfl

end Entry

namespace GateHeld

/-- The one that holds the gate is the one that waits, if one does. -/
theorem owner_eq (h : GateHeld policy s entry) {r : ScaleRequest} (hr : r ∈ s.requests) :
    s.owner = none ∨ s.owner = some r.agentId := by
  cases howner : s.owner with
  | none => exact .inl rfl
  | some a => exact .inr (congrArg some (h.only a howner r hr).symm)

theorem holder_none (h : GateHeld policy s entry) (howner : s.owner = none) : entry.holder = none := by
  cases hholder : entry.holder with
  | none => rfl
  | some a =>
    rw [h.owner_of_holder a hholder] at howner
    cases howner

theorem inFlight_false (h : GateHeld policy s entry) (howner : s.owner = none) :
    entry.inFlight = false := by
  rw [h.inFlight_eq, howner]
  rfl

/-- A budget whose gate is free. -/
theorem free (hpolicy : entry.policy = policy) (hinFlight : entry.inFlight = false)
    (hholder : entry.holder = none)
    (howner : s.owner = none) (hbegun : ∀ r ∈ s.requests, r.gate = .begun)
    (hfailed : ∀ agentId ∈ entry.failedAgents, agentId < s.made)
    (htimer : s.now < entry.backoffUntil → entry.timer)
    (hrelayed : s.relayed.length = entry.failedAgents.length)
    (hback : policy.maxAttempts ≤ entry.failedAgents.length → s.stopped ∨ s.place = .gone) :
    GateHeld policy s entry where
  policy_eq := hpolicy
  inFlight_eq := by rw [hinFlight, howner]; rfl
  owner_of_holder a ha := by rw [hholder] at ha; cases ha
  waits_or_named a ha := by rw [howner] at ha; cases ha
  only a ha := by rw [howner] at ha; cases ha
  begun := hbegun
  not_failed a ha := by rw [howner] at ha; cases ha
  failed_lt := hfailed
  backoff_le h := by rw [hinFlight] at h; cases h
  timer_of_lt := htimer
  length_relayed := hrelayed
  given_back := hback

/-- Nothing that the gate depends on changes. -/
theorem mono (h : GateHeld policy s entry) (howner : t.owner = s.owner)
    (hrequests : t.requests = s.requests)
    (hmade : t.made = s.made) (hnow : s.now ≤ t.now) (hrelayed : t.relayed = s.relayed)
    (hback : s.stopped ∨ s.place = .gone → t.stopped ∨ t.place = .gone) : GateHeld policy t entry where
  policy_eq := h.policy_eq
  inFlight_eq := howner ▸ h.inFlight_eq
  owner_of_holder := howner ▸ h.owner_of_holder
  waits_or_named := by
    rw [howner, hrequests]
    exact h.waits_or_named
  only := by
    rw [howner, hrequests]
    exact h.only
  begun := hrequests ▸ h.begun
  not_failed := howner ▸ h.not_failed
  failed_lt := hmade ▸ h.failed_lt
  backoff_le hin := Nat.le_trans (h.backoff_le hin) hnow
  timer_of_lt hlt := h.timer_of_lt (Nat.lt_of_le_of_lt hnow hlt)
  length_relayed := hrelayed ▸ h.length_relayed
  given_back hle := hback (h.given_back hle)

end GateHeld

/-- A failure without a budget. -/
theorem fail_of_none (hentry : s.entry = none) :
    s.fail agentId = { s with ended := agentId :: s.ended } := by
  rw [SpawnState.fail, hentry]
  rfl

/-- A failure that is reported again, or is not one of the spawn that holds the gate, or comes when
an agent has taken the job. -/
theorem fail_of_not_charged (hentry : s.entry = some entry) (hnot : ¬(s.isPending ∧
      entry.failedAgents.contains agentId = false ∧ entry.holdsGate agentId)) :
    s.fail agentId = { s with ended := agentId :: s.ended } := by
  rw [SpawnState.fail, hentry, recordFailure]
  cases hpending : s.isPending with
  | false => rfl
  | true =>
    cases hdup : entry.failedAgents.contains agentId with
    | true => rfl
    | false =>
      cases hholds : entry.holdsGate agentId with
      | false => rfl
      | true => exact absurd ⟨hpending, hdup, hholds⟩ hnot

theorem fail_of_charged (hentry : s.entry = some entry) (hpending : s.isPending)
    (hnew : entry.failedAgents.contains agentId = false) (hholds : entry.holdsGate agentId) :
    s.fail agentId = { s with
      entry := some (entry.charge s.now agentId)
      owner := none
      ended := agentId :: s.ended
      relayed := s.relayed ++
        [decide (entry.policy.maxAttempts ≤ (entry.charge s.now agentId).failedAgents.length)]
      stopped := s.stopped ||
        decide (entry.policy.maxAttempts ≤ (entry.charge s.now agentId).failedAgents.length)
      pauses :=
        if decide (entry.policy.maxAttempts ≤ (entry.charge s.now agentId).failedAgents.length) then
          s.pauses
        else (entry.charge s.now agentId).backoffUntil :: s.pauses } := by
  have hown : s.ownerOf (entry.charge s.now agentId) = none := by
    rw [SpawnState.ownerOf, Entry.charge_inFlight]
    rfl
  rw [SpawnState.fail, hentry, hpending, recordFailure, hnew, hholds, ← hown]
  rfl

/-- An offer that is refused changes nothing. -/
theorem offer_of_refused (hentry : s.entry = some entry) (hnot : ¬(s.isPending ∧ entry.inFlight = false ∧
    entry.backoffUntil ≤ s.now)) : s.offer = s := by
  rw [SpawnState.offer, hentry]
  cases hpending : s.isPending with
  | false => rfl
  | true =>
    cases hin : entry.inFlight with
    | true => simp [beginAttempt, hin]
    | false =>
      have hlt : s.now < entry.backoffUntil := Nat.lt_of_not_le fun hle => hnot ⟨hpending, hin, hle⟩
      simp [beginAttempt, hin, hlt]

namespace Sound

variable {r : ScaleRequest}

/-- A budget that is offered is not used up. -/
theorem length_lt (h : Sound policy s) (hentry : s.entry = some entry) (hpending : s.isPending) :
    entry.failedAgents.length < policy.maxAttempts := by
  obtain ⟨hplace, hstopped⟩ := isPending_iff.1 hpending
  refine Nat.lt_of_not_le fun hle => ?_
  rcases (h.held entry hentry).given_back hle with hstop | hgone
  · rw [hstopped] at hstop
    cases hstop
  · rw [hplace] at hgone
    cases hgone

theorem init (hs : s ∈ (spawnSystem policy).init) : Sound policy s := by
  obtain ⟨hentry, hplace, hstopped, hmade, hrequests, hrelayed, howner, hended, hpauses, hearly⟩ := hs
  refine ⟨fun entry he => ?_, fun _ => howner, fun _ a ha => ?_, fun a ha => ?_, ?_, fun t ht => ?_,
    hearly, ?_, ?_⟩
  · rw [hentry] at he
    cases he
    refine .free rfl rfl rfl howner (fun r hr => ?_) (fun a ha => absurd ha not_mem_nil)
      (fun hlt => ?_) ?_
      fun hle => ?_
    · rw [hrequests] at hr
      cases hr
    · exact absurd hlt (Nat.not_lt_zero _)
    · rw [hrelayed]
      rfl
    · exact absurd policy.one_le (Nat.not_le_of_lt (Nat.lt_of_le_of_lt hle Nat.one_pos))
  · rw [howner] at ha
    cases ha
  · rw [hended] at ha
    cases ha
  · rw [hrequests]
    exact Nat.zero_le 1
  · rw [hpauses] at ht
    cases ht
  · rw [hrelayed]
    exact Nat.zero_le _
  · rw [hrelayed]
    intro i final h
    cases h

section

variable (h : Sound policy s)
include h

/-- The job goes to another place. -/
theorem move (place : JobPlace) (stopped : Bool) (ended : List ℕ)
    (hback : s.stopped ∨ s.place = .gone → stopped ∨ place = .gone)
    (hended : ∀ agentId ∈ ended, agentId < s.made)
    (hnot : place = .pending → stopped = false → ∀ agentId, s.owner = some agentId → agentId ∉ ended) :
    Sound policy { s with place, stopped, ended } where
  held entry hentry := (h.held entry hentry).mono rfl rfl rfl le_rfl rfl hback
  owner_none := h.owner_none
  not_ended hpending := hnot (isPending_iff.1 hpending).1 (isPending_iff.1 hpending).2
  ended_lt := hended
  one_request := h.one_request
  pauses_le := h.pauses_le
  not_early := h.not_early
  length_relayed_le := h.length_relayed_le
  final_iff := h.final_iff

theorem claim (hpending : s.isPending) {agentId : Option ℕ}
    (hlt : agentId.all (· < s.made)) :
    Sound policy { s with place := .dispatched, ended := agentId.toList ++ s.ended } := by
  obtain ⟨hplace, hstopped⟩ := isPending_iff.1 hpending
  refine h.move _ s.stopped _ (fun hback => ?_) (fun a ha => ?_) nofun
  · rw [hstopped, hplace] at hback
    exact hback.elim (nofun) nofun
  · rcases mem_append.1 ha with ha | ha
    · rw [mem_toList.1 ha] at hlt
      exact of_decide_eq_true hlt
    · exact h.ended_lt a ha

theorem requeue (hplace : s.place = .dispatched) (hstopped : s.stopped = false)
    (hcareful : s.careful .requeue) : Sound policy { s with place := .pending } := by
  refine h.move _ s.stopped s.ended (fun hback => ?_) h.ended_lt fun _ _ a ha => ?_
  · rw [hstopped, hplace] at hback
    exact hback.elim (nofun) nofun
  · rw [SpawnState.careful, ha] at hcareful
    simpa using hcareful

theorem drop : Sound policy { s with place := .gone, stopped := false } :=
  h.move _ _ s.ended (fun _ => .inr rfl) h.ended_lt nofun

theorem stop : Sound policy { s with stopped := true } :=
  h.move s.place _ s.ended (fun _ => .inl rfl) h.ended_lt nofun

theorem tick (ms : ℕ) : Sound policy { s with now := s.now + ms } where
  held entry hentry := (h.held entry hentry).mono rfl rfl rfl (Nat.le_add_right _ _) rfl id
  owner_none := h.owner_none
  not_ended := h.not_ended
  ended_lt := h.ended_lt
  one_request := h.one_request
  pauses_le t ht := (h.pauses_le t ht).imp_left fun hle => Nat.le_add_right_of_le hle
  not_early := h.not_early
  length_relayed_le := h.length_relayed_le
  final_iff := h.final_iff

theorem release : Sound policy { s with entry := none, owner := none, pauses := [] } where
  held _ hentry := nomatch hentry
  owner_none _ := rfl
  not_ended _ _ ha := nomatch ha
  ended_lt := h.ended_lt
  one_request := h.one_request
  pauses_le := nofun
  not_early := h.not_early
  length_relayed_le := h.length_relayed_le
  final_iff := h.final_iff

theorem fire (hentry : s.entry = some entry) :
    Sound policy { s with
      entry := some entry.fire
      pauses := s.pauses.filter (entry.backoffUntil < ·) } where
  held entry' hentry' := by
    cases hentry'
    have hgate := h.held entry hentry
    exact { hgate with
      backoff_le := fun _ => Nat.zero_le _
      timer_of_lt := fun hlt => absurd hlt (Nat.not_lt_zero _) }
  owner_none hnone := nomatch hnone
  not_ended := h.not_ended
  ended_lt := h.ended_lt
  one_request := h.one_request
  pauses_le t ht := by
    obtain ⟨ht, hlt⟩ := mem_filter.1 ht
    -- What the timer does not end has ended already.
    rcases h.pauses_le t ht with hle | ⟨entry', hentry', hle⟩
    · exact .inl hle
    · rw [hentry] at hentry'
      cases hentry'
      exact absurd (of_decide_eq_true hlt) (Nat.not_lt.2 hle)
  not_early := h.not_early
  length_relayed_le := h.length_relayed_le
  final_iff := h.final_iff

/-- The gate is freed, and a pause may begin. -/
theorem freed (hentry : s.entry = some entry) {entry' : Entry} {requests : List ScaleRequest}
    {pauses : List ℕ} (hpolicy : entry'.policy = entry.policy) (hinFlight : entry'.inFlight = false)
    (hholder : entry'.holder = none) (hfailed : entry'.failedAgents = entry.failedAgents)
    (hsub : requests.Sublist s.requests)
    (htimer : s.now < entry'.backoffUntil → entry'.timer)
    (hpauses : ∀ t ∈ pauses, t ≤ s.now ∨ t ≤ entry'.backoffUntil) :
    Sound policy { s with entry := some entry', owner := none, requests, pauses } := by
  have hgate := h.held entry hentry
  refine ⟨fun e he => ?_, fun _ => rfl, fun _ _ ha => (nomatch ha), h.ended_lt, ?_, fun t ht =>
    ?_, h.not_early, h.length_relayed_le, h.final_iff⟩
  · cases he
    refine .free (hpolicy.trans hgate.policy_eq) hinFlight hholder rfl
      (fun r hr => hgate.begun r (hsub.subset hr)) ?_
      htimer ?_ ?_
    · rw [hfailed]
      exact hgate.failed_lt
    · rw [hfailed]
      exact hgate.length_relayed
    · rw [hfailed]
      exact hgate.given_back
  · exact (hsub.filter _).length_le.trans h.one_request
  · exact (hpauses t ht).imp_right fun hle => ⟨entry', rfl, hle⟩

/-- The pauses there are have ended or last no longer than the one of the budget. -/
theorem pause_le (hentry : s.entry = some entry) {t : ℕ} (ht : t ∈ s.pauses) :
    t ≤ s.now ∨ t ≤ entry.backoffUntil := by
  refine (h.pauses_le t ht).imp_right fun ⟨entry', hentry', hle⟩ => ?_
  rw [hentry] at hentry'
  exact some.inj hentry' ▸ hle

theorem delivered (hentry : s.entry = some entry) :
    Sound policy (s.withEntry entry.abortAttempt) :=
  h.freed hentry rfl rfl rfl rfl (List.Sublist.refl _) (h.held entry hentry).timer_of_lt fun _ ht =>
    h.pause_le hentry ht

/-- A request that spawned an agent names it. -/
theorem named (hentry : s.entry = some entry) (hr : r ∈ s.requests) :
    Sound policy { s.withEntry (entry.setHolder r.agentId) with requests := s.requests.erase r } := by
  have hgate := h.held entry hentry
  have hsub : (s.requests.erase r).Sublist s.requests := erase_sublist
  rcases hgate.owner_eq hr with howner | howner
  · -- The gate was freed: the name is of no use.
    have hin := hgate.inFlight_false howner
    have hset : entry.setHolder r.agentId = entry := by rw [Entry.setHolder, hin]; rfl
    have hnone : s.ownerOf entry = none := by rw [SpawnState.ownerOf, hin]; rfl
    rw [SpawnState.withEntry, hset, hnone]
    exact h.freed hentry rfl hin (hgate.holder_none howner) rfl hsub hgate.timer_of_lt
      fun t ht => h.pause_le hentry ht
  · have hin : entry.inFlight := by rw [hgate.inFlight_eq, howner]; rfl
    have hholder : (entry.setHolder r.agentId).holder = some r.agentId :=
      Entry.setHolder_holder hin (fun a ha => some.inj ((hgate.owner_of_holder a ha).symm.trans howner))
        (hgate.not_failed _ howner)
    rw [SpawnState.withEntry, Entry.setHolder_eq, hholder]
    have hown : s.ownerOf { entry with holder := some r.agentId } = s.owner := if_pos hin
    rw [hown]
    refine ⟨fun e he => ?_, fun hnone => (nomatch hnone), h.not_ended, h.ended_lt, ?_, fun t ht =>
      ?_, h.not_early, h.length_relayed_le, h.final_iff⟩
    · cases he
      exact { hgate with
        owner_of_holder := fun a ha => some.inj ha ▸ howner
        waits_or_named := fun a ha => .inr (howner.symm.trans ha)
        only := fun a ha q hq => hgate.only a ha q (hsub.subset hq)
        begun := fun q hq => hgate.begun q (hsub.subset hq) }
    · exact (hsub.filter _).length_le.trans h.one_request
    · exact (h.pause_le hentry ht).imp_right fun hle => ⟨_, rfl, hle⟩

/-- A request that spawned nothing frees the gate. -/
theorem aborted (hentry : s.entry = some entry) (r : ScaleRequest) :
    Sound policy { s.withEntry entry.abortAttempt with requests := s.requests.erase r } :=
  h.freed hentry rfl rfl rfl rfl erase_sublist (h.held entry hentry).timer_of_lt fun _ ht =>
    h.pause_le hentry ht

/-- A request that is put off frees the gate, and a pause begins. -/
theorem deferred (hentry : s.entry = some entry) (hr : r ∈ s.requests)
    {retryAfterMs : ℕ} (hcareful : s.careful (.answer r.agentId (.skipped (some retryAfterMs)))) :
    Sound policy { s.withEntry (entry.deferAttempt s.now retryAfterMs) with
      requests := s.requests.erase r
      pauses := (s.now + retryAfterMs) :: s.pauses } := by
  have hgate := h.held entry hentry
  refine h.freed hentry rfl rfl rfl rfl erase_sublist (fun _ => rfl) fun t ht => ?_
  rcases mem_cons.1 ht with rfl | ht
  · exact .inr le_rfl
  · rcases h.pause_le hentry ht with hle | hle
    · exact .inl hle
    · -- The pause there was ends before the new one.
      have hbackoff : entry.backoffUntil ≤ s.now + retryAfterMs := by
        rcases hgate.owner_eq hr with howner | howner
        · rw [SpawnState.careful, howner, hentry] at hcareful
          simpa using hcareful
        · have hin : entry.inFlight := by rw [hgate.inFlight_eq, howner]; rfl
          exact Nat.le_add_right_of_le (hgate.backoff_le hin)
      exact .inr (hle.trans hbackoff)

/-- The request goes on with its answer. -/
theorem resume (hr : r ∈ s.requests) {result : ScaleAnswer}
    (hcareful : s.careful (.answer r.agentId result)) : Sound policy (s.resume r result) := by
  cases hentry : s.entry with
  | none =>
    have hstate : s.resume r result = { s with requests := s.requests.erase r } := by
      rw [SpawnState.resume]
      split
      next hsome => rw [hentry] at hsome; cases hsome
      · rfl
    rw [hstate]
    refine ⟨fun e he => ?_, h.owner_none, h.not_ended, h.ended_lt, ?_, h.pauses_le, h.not_early,
      h.length_relayed_le, h.final_iff⟩
    · rw [hentry] at he
      cases he
    · exact (erase_sublist.filter _).length_le.trans h.one_request
  | some entry =>
    have hbegun := (h.held entry hentry).begun r hr
    have hstate : s.resume r result = { s.withEntry (SpawnState.settle entry s.now r.agentId result) with
        requests := s.requests.erase r
        pauses := SpawnState.pausesOf s.pauses s.now result } := by
      rw [SpawnState.resume]
      split
      next e _ hsome =>
        rw [hentry] at hsome
        cases hsome
        rfl
      next hnot => exact absurd hentry (hnot entry hbegun)
    rw [hstate]
    cases result with
    | spawning => exact h.named hentry hr
    | atCapacity | noBackend | failed | threw => exact h.aborted hentry r
    | skipped retryAfterMs =>
      cases retryAfterMs with
      | none => exact h.aborted hentry r
      | some retryAfterMs => exact h.deferred hentry hr hcareful

/-- The failure of an agent that the budget does not charge. -/
theorem ended (hlt : agentId < s.made) (hnot : s.isPending → s.owner ≠ some agentId) :
    Sound policy { s with ended := agentId :: s.ended } := by
  refine h.move s.place s.stopped _ id (fun a ha => ?_) fun hplace hstopped a ha hmem => ?_
  · rcases mem_cons.1 ha with rfl | ha
    · exact hlt
    · exact h.ended_lt a ha
  · have hpending := isPending_iff.2 ⟨hplace, hstopped⟩
    rcases mem_cons.1 hmem with rfl | hmem
    · exact hnot hpending ha
    · exact h.not_ended hpending a ha hmem

/-- A failure that is charged. -/
theorem charged (hentry : s.entry = some entry) (hpending : s.isPending)
    (hlt : agentId < s.made) (hin : entry.inFlight) {final : Bool}
    (hfinal : final ↔ policy.maxAttempts ≤ entry.failedAgents.length + 1) :
    Sound policy { s with
      entry := some (entry.charge s.now agentId)
      owner := none
      ended := agentId :: s.ended
      relayed := s.relayed ++ [final]
      stopped := s.stopped || final
      pauses := if final then s.pauses else (entry.charge s.now agentId).backoffUntil :: s.pauses } := by
  have hgate := h.held entry hentry
  have hcount := h.length_lt hentry hpending
  have hlength : (s.relayed ++ [final]).length = (entry.charge s.now agentId).failedAgents.length := by
    rw [Entry.charge_failedAgents, length_append, length_append, hgate.length_relayed]
    rfl
  refine ⟨fun e he => ?_, fun hnone => (nomatch hnone), fun _ _ ha => (nomatch ha), fun a ha =>
    ?_, h.one_request, fun t ht => ?_, h.not_early, ?_, fun i f hf => ?_⟩
  · cases he
    refine .free (Entry.charge_policy.trans hgate.policy_eq) Entry.charge_inFlight Entry.charge_holder
      rfl hgate.begun
      (fun a ha => ?_) (Entry.charge_timer hgate.timer_of_lt) hlength fun hle => .inl ?_
    · rw [Entry.charge_failedAgents, mem_append, mem_singleton] at ha
      rcases ha with ha | rfl
      · exact hgate.failed_lt a ha
      · exact hlt
    · rw [Entry.charge_failedAgents, length_append] at hle
      exact Bool.or_eq_true_iff.2 (.inr (hfinal.2 hle))
  · rcases mem_cons.1 ha with rfl | ha
    · exact hlt
    · exact h.ended_lt a ha
  · -- The attempt began behind all earlier pauses.
    have hold : ∀ t ∈ s.pauses, t ≤ s.now := fun t ht =>
      (h.pause_le hentry ht).elim id fun hle => hle.trans (hgate.backoff_le hin)
    cases final with
    | true => exact .inl (hold t ht)
    | false =>
      rcases mem_cons.1 ht with rfl | ht
      · exact .inr ⟨_, rfl, le_rfl⟩
      · exact .inl (hold t ht)
  · rw [length_append, hgate.length_relayed]
    exact hcount
  · have hlen := hgate.length_relayed
    rcases Nat.lt_or_ge i s.relayed.length with hi | hi
    · exact h.final_iff i f (by rwa [getElem?_append_left hi] at hf)
    · rw [getElem?_append_right hi, getElem?_singleton] at hf
      split at hf
      · cases hf
        rw [hfinal]
        omega
      · cases hf

theorem fail (hlt : agentId < s.made) : Sound policy (s.fail agentId) := by
  cases hentry : s.entry with
  | none =>
    rw [fail_of_none hentry]
    refine h.ended hlt fun _ ha => ?_
    rw [h.owner_none hentry] at ha
    cases ha
  | some entry =>
    have hgate := h.held entry hentry
    by_cases hcharged : s.isPending ∧ entry.failedAgents.contains agentId = false ∧
        entry.holdsGate agentId
    · obtain ⟨hpending, hnew, hholds⟩ := hcharged
      rw [fail_of_charged hentry hpending hnew hholds]
      refine h.charged hentry hpending hlt (Bool.and_eq_true_iff.1 hholds).1 ?_
      rw [decide_eq_true_iff, Entry.charge_failedAgents, hgate.policy_eq, length_append]
      rfl
    · rw [fail_of_not_charged hentry hcharged]
      -- The agent that the gate is held for would have been charged.
      refine h.ended hlt fun hpending ha => hcharged ⟨hpending, ?_, ?_⟩
      · simpa using hgate.not_failed agentId ha
      · have hin : entry.inFlight := by rw [hgate.inFlight_eq, ha]; rfl
        cases hholder : entry.holder with
        | none => simp [Entry.holdsGate, hin, hholder]
        | some a =>
          have heq : a = agentId := some.inj ((hgate.owner_of_holder a hholder).symm.trans ha)
          simp [Entry.holdsGate, hin, hholder, heq]

/-- A request that is let through is the only one that waits. -/
theorem begins (hentry : s.entry = some entry)
    (hin : entry.inFlight = false) (hbackoff : entry.backoffUntil ≤ s.now)
    (hcareful : ∀ r ∈ s.requests, s.owner = some r.agentId) :
    Sound policy { s with
      entry := some entry.begin
      made := s.made + 1
      requests := ⟨s.made, .begun⟩ :: s.requests
      owner := some s.made
      early := if s.pauses.any (s.now < ·) then s.made :: s.early else s.early } := by
  have hgate := h.held entry hentry
  have howner : s.owner = none := by
    have hnone := hgate.inFlight_eq
    rw [hin] at hnone
    simpa using hnone.symm
  have hrequests : s.requests = [] := by
    refine eq_nil_iff_forall_not_mem.2 fun r hr => ?_
    have hr' := hcareful r hr
    rw [howner] at hr'
    cases hr'
  have hpauses : s.pauses.any (s.now < ·) = false := by
    refine List.any_eq_false.2 fun t ht => ?_
    have hle : t ≤ s.now := (h.pause_le hentry ht).elim id fun hle => hle.trans hbackoff
    simpa using hle
  rw [hpauses, hrequests]
  refine ⟨fun e he => ?_, fun hnone => (nomatch hnone), fun _ a ha hmem => ?_, fun a ha => ?_, le_rfl,
    fun t ht => ?_, h.not_early, h.length_relayed_le, h.final_iff⟩
  · cases he
    refine ⟨hgate.policy_eq, rfl, fun a ha => ?_, fun a ha => ?_, fun a ha r hr => ?_, fun r hr => ?_,
      fun a ha hmem => ?_, fun a ha => ?_, fun _ => hbackoff, hgate.timer_of_lt, hgate.length_relayed,
        hgate.given_back⟩
    · have hholder : entry.holder = some a := ha
      rw [hgate.holder_none howner] at hholder
      cases hholder
    · exact .inl ⟨_, mem_cons_self, some.inj ha⟩
    · rw [mem_singleton.1 hr]
      exact some.inj ha
    · rw [mem_singleton.1 hr]
    · have hlt := hgate.failed_lt a hmem
      rw [← some.inj ha] at hlt
      exact Nat.lt_irrefl _ hlt
    · exact Nat.lt_succ_of_lt (hgate.failed_lt a ha)
  · have hlt := h.ended_lt a hmem
    rw [← some.inj ha] at hlt
    exact Nat.lt_irrefl _ hlt
  · exact Nat.lt_succ_of_lt (h.ended_lt a ha)
  · exact (h.pause_le hentry ht).imp_right fun hle => ⟨_, rfl, hle⟩

theorem offer (hcareful : s.careful .offer) : Sound policy s.offer := by
  cases hentry : s.entry with
  | none =>
    have hstate : s.offer = { s with
        made := s.made + 1
        requests := ⟨s.made, .untracked⟩ :: s.requests } := by
      rw [SpawnState.offer, hentry]
      rfl
    rw [hstate]
    refine ⟨fun e he => ?_, h.owner_none, h.not_ended, fun a ha =>
      Nat.lt_succ_of_lt (h.ended_lt a ha), h.one_request,
      h.pauses_le, h.not_early, h.length_relayed_le, h.final_iff⟩
    rw [hentry] at he
    cases he
  | some entry =>
    by_cases hbegun : s.isPending ∧ entry.inFlight = false ∧ entry.backoffUntil ≤ s.now
    · obtain ⟨hpending, hin, hbackoff⟩ := hbegun
      have hgate : beginAttempt s.entry s.isPending s.now = .begun := by
        rw [hentry, hpending]
        simp [beginAttempt, hin, hbackoff]
      have hall : ∀ r ∈ s.requests, s.owner = some r.agentId := by
        rw [SpawnState.careful, hgate] at hcareful
        simpa using hcareful
      rw [SpawnState.offer, hgate, hentry]
      exact h.begins hentry hin hbackoff hall
    · rw [offer_of_refused hentry hbegun]
      exact h

theorem step {a : SpawnAction} (hcareful : s.careful a) (hstep : spawnStep s a = some t) :
    Sound policy t := by
  cases a with
  | offer => exact some.inj hstep ▸ h.offer hcareful
  | answer agentId result =>
    rw [spawnStep] at hstep
    split at hstep
    next r hfind =>
      obtain rfl : r.agentId = agentId := by simpa using find?_some hfind
      exact some.inj hstep ▸ h.resume (mem_of_find?_eq_some hfind) hcareful
    · cases hstep
  | fail agentId =>
    rw [spawnStep, ite_none_right_eq_some] at hstep
    exact some.inj hstep.2 ▸ h.fail hstep.1
  | claim agentId =>
    rw [spawnStep, ite_none_right_eq_some] at hstep
    obtain ⟨hpending, hlt⟩ := Bool.and_eq_true_iff.1 hstep.1
    exact some.inj hstep.2 ▸ h.claim hpending hlt
  | delivered =>
    rw [spawnStep, ite_none_right_eq_some] at hstep
    obtain ⟨-, hstep⟩ := hstep
    split at hstep
    next entry hentry => exact some.inj hstep ▸ h.delivered hentry
    · exact some.inj hstep ▸ h
  | requeue =>
    rw [spawnStep, ite_none_right_eq_some] at hstep
    obtain ⟨hplace, hstep⟩ := hstep
    split at hstep
    · exact some.inj hstep ▸ h.drop
    next hstopped => exact some.inj hstep ▸ h.requeue hplace (by simpa using hstopped) hcareful
  | fire =>
    rw [spawnStep] at hstep
    split at hstep
    next entry hentry =>
      rw [ite_none_right_eq_some] at hstep
      exact some.inj hstep.2 ▸ h.fire hentry
    · cases hstep
  | tick ms => exact some.inj hstep ▸ h.tick ms
  | stop =>
    rw [spawnStep, ite_none_left_eq_some] at hstep
    exact some.inj hstep.2 ▸ h.stop
  | remove => exact some.inj hstep ▸ h.drop
  | release => exact some.inj hstep ▸ h.release

/-- A gate that is not free is held for an agent on its way, as no request waits. -/
theorem honoured : BudgetHonoured policy s where
  one_request := h.one_request
  not_early := h.not_early
  length_relayed_le := h.length_relayed_le
  final_iff := h.final_iff
  offered entry hentry hpending _ hrequests := by
    have hgate := h.held entry hentry
    cases howner : s.owner with
    | none =>
      -- The gate is free, and where a pause keeps it the timer is set.
      rcases Nat.lt_or_ge s.now entry.backoffUntil with hlt | hge
      · exact .inr (.inl (hgate.timer_of_lt hlt))
      · exact .inl ⟨hgate.inFlight_false howner, hge⟩
    | some agentId =>
      rcases hgate.waits_or_named agentId howner with ⟨r, hr, -⟩ | hholder
      · rw [hrequests] at hr
        cases hr
      · exact .inr (.inr ⟨agentId, hholder, h.not_ended hpending agentId howner⟩)

end

end Sound

/-- In every run in which no request is let through while one waits whose gate was freed, no such
request is put off to before the end of a pause, and no job goes back while the gate is held for an
agent that is over, the budget is kept in each state. -/
theorem budgetHonoured (policy : RerouteSpawnRetry) (s : SpawnState)
    (h : (spawnSystem policy).Reachable (fun s a => s.careful a) s) : BudgetHonoured policy s :=
  (h.invariant (P := Sound policy) (fun _ hs => .init hs) fun _ _ _ hsound hcareful hstep =>
    hsound.step hcareful hstep).honoured

/-- Two attempts, five seconds apart. -/
def twoAttempts : RerouteSpawnRetry := ⟨2, 5000, by decide⟩

def rerouted (policy : RerouteSpawnRetry) : SpawnState where
  entry := some (.new policy)
  now := 0
  place := .pending
  stopped := false
  made := 0
  requests := []
  relayed := []
  owner := none
  ended := []
  pauses := []
  early := []

theorem rerouted_mem_init (policy : RerouteSpawnRetry) : rerouted policy ∈ (spawnSystem policy).init :=
  ⟨rfl, rfl, rfl, rfl, rfl, rfl, rfl, rfl, rfl, rfl⟩

/-- The first agent fails before the scaler has named it, and the second one takes the job. -/
def retriedRun : List SpawnAction :=
  [.offer, .fail 0, .answer 0 .spawning, .tick 5000, .fire, .offer, .answer 1 .spawning,
    .claim (some 1), .delivered]

theorem budgetHonoured_twoAttempts : ∃ s,
    (spawnSystem twoAttempts).Reachable (fun s a => s.careful a) s ∧
    s.relayed = [false] ∧ BudgetHonoured twoAttempts s := by
  have hrun : (((spawnSystem twoAttempts).run SpawnState.careful (rerouted twoAttempts) retriedRun).any
      fun s => decide (s.relayed = [false])) := by decide
  obtain ⟨s, hpath, hp⟩ := System.exists_path_of_run (fun _ _ h => h) _ hrun
  have hreach : (spawnSystem twoAttempts).Reachable (fun s a => s.careful a) s :=
    ⟨_, rerouted_mem_init twoAttempts, hpath⟩
  exact ⟨s, hreach, of_decide_eq_true hp, budgetHonoured twoAttempts s hreach⟩

/-- An idle agent takes the job while a request for it waits, and gives it back: a second request is
let through. -/
def overlapRun : List SpawnAction := [.offer, .claim none, .delivered, .requeue, .offer]

theorem exists_two_requests : ∃ s, (spawnSystem twoAttempts).Reachable System.anyStep s ∧
    ¬BudgetHonoured twoAttempts s := by
  have hrun : (((spawnSystem twoAttempts).run (fun _ _ => true) (rerouted twoAttempts) overlapRun).any
      fun s => decide (1 < (s.requests.filter (·.gate = .begun)).length)) := by decide
  obtain ⟨s, hpath, hp⟩ := System.exists_path_of_run System.anyStep_of_true _ hrun
  refine ⟨s, ⟨_, rerouted_mem_init twoAttempts, hpath⟩, fun h => ?_⟩
  exact absurd h.one_request (Nat.not_le_of_lt (of_decide_eq_true hp))

end Kici.Worker
