import Kici.Agent.ClaimEffects
import Kici.Queue.QueueSystem

/-!
# Agents that are going away

An agent that drains gets no new jobs, and neither does one whose host is about to reboot. The flags
live in different places, and a call that looks for an agent reads them at different times.

* An agent is found only if it does not drain, but for one that a job is pinned to (`dispatchPinned`,
  `redrivePinned`), and for the one that was started for a job (`dispatchBoundJob`).
* The roster is asked about the agents that are found, but not by `dispatchBoundJob` and `redispatch`.

So no job is claimed for an agent that was going away when it was found, if these paths find none
(`ChoosesStaying`). Between an agent being found and its slot being taken the call waits for the
roster, and an agent that starts to go away then is chosen all the same: none that is going away is
chosen if none starts to while a call has found it (`LeavesFound`).
-/

namespace Kici

open List Option

/-- A flag is not set, or not before the step `n`. -/
def NotBefore (n : ℕ) (since : Option ℕ) : Prop := ∀ t ∈ since, n ≤ t

/-- The agent was draining, or its host about to reboot, before the step `n`, and has been since. -/
def Claimed.GoingAwaySince (c : Claimed) (n : ℕ) : Prop :=
  (∃ t ∈ c.drainingSince, t < n) ∨ ∃ t ∈ c.rebootPendingSince, t < n

/-- The call has found the agent, and not yet chosen it. -/
def ClaimCall.Considers (agentId : String) : ClaimCall → Prop
  | .filterRebootPending _ _ rest passed => agentId ∈ rest ++ passed
  | .isRebootPending _ _ found _ _ => agentId = found
  | _ => False

/-- The roster has told the call that the host of the agent is not about to reboot. -/
def ClaimCall.Passes (agentId : String) : ClaimCall → Prop
  | .filterRebootPending _ _ _ passed => agentId ∈ passed
  | .isRebootPending _ _ found _ answer => agentId = found ∧ answer = some false
  | _ => False

/-- The paths that do not look at a flag are taken only where it is not set. -/
structure ChoosesStaying (s : ClaimState) (a : ClaimAction) : Prop where
  /-- A job is pinned to an agent that does not drain. -/
  pinned : ∀ selectors agentId, a = .dispatchPinned selectors agentId → s.drainingSince agentId = none
  redriven : ∀ agentId now, a = .redrivePinned agentId now → s.drainingSince agentId = none
  /-- An agent that was started for a job stays. -/
  bound : ∀ agentId now, a = .dispatchBoundJob agentId now →
    s.drainingSince agentId = none ∧ s.rebootPendingSince agentId = none
  /-- A job that was put back goes to no agent whose host is about to reboot. -/
  redispatched : ∀ selectors agentId now, a = .redispatch selectors agentId now →
    s.rebootPendingSince agentId = none

/-- No agent starts to drain that a call has found, and no host is about to reboot that has passed. -/
structure LeavesFound (s : ClaimState) (a : ClaimAction) : Prop where
  draining : ∀ agentId, a = .markDraining agentId ∨ a = .markDrainReported agentId →
    ∀ call ∈ s.calls, ¬call.Considers agentId
  rebooting : ∀ agentId, a = .setRebootPending agentId → ∀ call ∈ s.calls, ¬call.Passes agentId

/-- A flag as it is while a call has found an agent at the step `n`: not set before, and where
agents that are found stay, not set. -/
structure Fresh (stay : Prop) (n : ℕ) (since : Option ℕ) : Prop where
  notBefore : NotBefore n since
  none_of_stay : stay → since = none

/-- How a flag changes in a step: not at all, it is cleared, or it is set now, where it may be. -/
def FlagStep (clock : ℕ) (may : Prop) (since since' : Option ℕ) : Prop :=
  since' = since ∨ since' = none ∨ since' = since.or (some clock) ∧ may

/-- What was chosen does not go away before it was found, and where agents that are found stay, not
before it was chosen. -/
def ChosenStaying (stay : Prop) (foundAt takenAt : ℕ) (drainingSince rebootPendingSince : Option ℕ) :
    Prop :=
  ∀ n, n = foundAt ∨ stay ∧ n = takenAt → NotBefore n drainingSince ∧ NotBefore n rebootPendingSince

/-- The flags of the agents a call has found or chosen. -/
def ClaimCall.Stays (stay : Prop) (s : ClaimState) : ClaimCall → Prop
  | .filterRebootPending _ foundAt rest passed => foundAt ≤ s.clock ∧
    (∀ agentId ∈ rest ++ passed, Fresh stay foundAt (s.drainingSince agentId)) ∧
      ∀ agentId ∈ passed, Fresh stay foundAt (s.rebootPendingSince agentId)
  | .isRebootPending _ foundAt agentId _ answer => foundAt ≤ s.clock ∧
    Fresh stay foundAt (s.drainingSince agentId) ∧
      (answer = some false → Fresh stay foundAt (s.rebootPendingSince agentId))
  | .claim _ foundAt takenAt agentId => foundAt ≤ s.clock ∧ takenAt ≤ s.clock ∧
    ChosenStaying stay foundAt takenAt (s.drainingSince agentId) (s.rebootPendingSince agentId)
  | _ => True

section
variable {stay may : Prop} {n m clock : ℕ} {since since' : Option ℕ}

theorem notBefore_none : NotBefore n none := by
  intro t ht
  cases ht

theorem fresh_none : Fresh stay n none := ⟨notBefore_none, fun _ => rfl⟩

theorem FlagStep.notBefore (h : FlagStep clock may since since') (hn : n ≤ clock)
    (hsince : NotBefore n since) : NotBefore n since' := by
  rcases h with rfl | rfl | ⟨rfl, -⟩
  · exact hsince
  · exact notBefore_none
  · cases since with
    | none =>
      intro t ht
      cases ht
      exact hn
    | some t => exact hsince

/-- A flag that may not be set while agents stay is as fresh as before. -/
theorem FlagStep.fresh {found : Prop} (h : FlagStep clock (stay → ¬found) since since') (hn : n ≤ clock)
    (hfound : found) (hsince : Fresh stay n since) : Fresh stay n since' where
  notBefore := h.notBefore hn hsince.notBefore
  none_of_stay hstay := by
    rcases h with rfl | rfl | ⟨-, hmay⟩
    · exact hsince.none_of_stay hstay
    · rfl
    · exact absurd hfound (hmay hstay)

theorem chosenStaying_of_fresh {drainingSince rebootPendingSince : Option ℕ}
    (hdraining : Fresh stay n drainingSince) (hrebooting : Fresh stay n rebootPendingSince) :
    ChosenStaying stay n m drainingSince rebootPendingSince := by
  rintro k (rfl | ⟨hstay, rfl⟩)
  · exact ⟨hdraining.notBefore, hrebooting.notBefore⟩
  · rw [hdraining.none_of_stay hstay, hrebooting.none_of_stay hstay]
    exact ⟨notBefore_none, notBefore_none⟩

theorem ChosenStaying.not_since {c : Claimed}
    (h : ChosenStaying stay c.foundAt c.takenAt c.drainingSince c.rebootPendingSince)
    (hn : n = c.foundAt ∨ stay ∧ n = c.takenAt) : ¬c.GoingAwaySince n := by
  obtain ⟨hdraining, hrebooting⟩ := h n hn
  rintro (⟨t, ht, hlt⟩ | ⟨t, ht, hlt⟩)
  · exact absurd (hdraining t ht) (by omega)
  · exact absurd (hrebooting t ht) (by omega)

end

namespace ClaimState

variable {js : JsRuntime} {s t : ClaimState} {agentId other : String} {a : ClaimAction} {stay : Prop}
  {call : ClaimCall} {path : ClaimPath}

/-- A call that has found or chosen agents still has, however the flags change. -/
theorem stays_of_flagStep (hclock : s.clock ≤ t.clock)
    (hdraining : ∀ agentId,
      FlagStep s.clock (stay → ¬call.Considers agentId) (s.drainingSince agentId)
      (t.drainingSince agentId))
    (hrebooting : ∀ agentId,
      FlagStep s.clock (stay → ¬call.Passes agentId) (s.rebootPendingSince agentId)
      (t.rebootPendingSince agentId))
    (h : call.Stays stay s) : call.Stays stay t := by
  cases call with
  | filterRebootPending path foundAt rest passed =>
    obtain ⟨hle, hfound, hpassed⟩ := h
    exact ⟨hle.trans hclock, fun agentId hmem =>
      (hdraining agentId).fresh hle hmem (hfound agentId hmem),
      fun agentId hmem => (hrebooting agentId).fresh hle hmem (hpassed agentId hmem)⟩
  | isRebootPending path foundAt agentId agent answer =>
    obtain ⟨hle, hfound, hpassed⟩ := h
    exact ⟨hle.trans hclock, (hdraining agentId).fresh hle rfl hfound,
      fun hanswer => (hrebooting agentId).fresh hle ⟨rfl, hanswer⟩ (hpassed hanswer)⟩
  | claim path foundAt takenAt agentId =>
    obtain ⟨hfound, htaken, hchosen⟩ := h
    refine ⟨hfound.trans hclock, htaken.trans hclock, fun n hn => ?_⟩
    have hle : n ≤ s.clock := by
      rcases hn with rfl | ⟨-, rfl⟩
      · exact hfound
      · exact htaken
    exact ⟨(hdraining agentId).notBefore hle (hchosen n hn).1,
      (hrebooting agentId).notBefore hle (hchosen n hn).2⟩
  | _ => trivial

theorem stays_of_plain (h : call.Plain) : call.Stays stay s := by
  cases call with
  | filterRebootPending | isRebootPending | claim => cases h
  | _ => trivial

/-! ## The agents that calls have found -/

/-- No call has found, chosen or claimed a job for an agent that was going away. -/
structure FoundStaying (stay : Prop) (s : ClaimState) : Prop where
  registered : s.WellRegistered
  calls : ∀ call ∈ s.calls, call.Stays stay s
  claimed : ∀ c ∈ s.claimed, ChosenStaying stay c.foundAt c.takenAt c.drainingSince c.rebootPendingSince

/-- What takes no slot keeps it. -/
theorem FoundStaying.of_quiet (h : FoundStaying stay s) (hquiet : s.Quiet t) : FoundStaying stay t where
  registered := hquiet.registered h.registered
  calls x hx := by
    rcases hquiet.calls x hx with hold | hplain
    · exact stays_of_flagStep hquiet.clock.ge (fun agentId => (hquiet.draining agentId).imp_right .inl)
        (fun agentId => (hquiet.rebooting agentId).imp_right .inl) (h.calls x hold)
    · exact stays_of_plain hplain
  claimed := hquiet.claimed ▸ h.claimed

/-- A flag that is set now is set before no agent was found, and set for none that calls have found
where these stay. -/
theorem FoundStaying.of_flagStep (h : FoundStaying stay s) (hregistered : t.WellRegistered)
    (hclock : t.clock = s.clock) (hcalls : t.calls = s.calls) (hclaimed : t.claimed = s.claimed)
    (hdraining : ∀ call ∈ s.calls, ∀ agentId,
      FlagStep s.clock (stay → ¬call.Considers agentId) (s.drainingSince agentId)
      (t.drainingSince agentId))
    (hrebooting : ∀ call ∈ s.calls, ∀ agentId, FlagStep s.clock (stay → ¬call.Passes agentId)
      (s.rebootPendingSince agentId) (t.rebootPendingSince agentId)) : FoundStaying stay t where
  registered := hregistered
  calls x hx := by
    rw [hcalls] at hx
    exact stays_of_flagStep hclock.ge (hdraining x hx) (hrebooting x hx) (h.calls x hx)
  claimed := hclaimed ▸ h.claimed

/-- An agent that starts to drain. -/
theorem FoundStaying.mark (h : FoundStaying stay s) {f : AgentEntry → AgentEntry}
    (hid : ∀ e, (f e).agentId = e.agentId)
    (hf : ∀ e, (f e).drainingSince = e.drainingSince.or (some s.clock))
    (hleaves : stay → ∀ call ∈ s.calls, ¬call.Considers agentId) :
    FoundStaying stay (s.modify agentId f) := by
  refine h.of_flagStep (h.registered.modify hid) modify_clock modify_calls modify_claimed ?_
    fun _ _ other => .inl (congrFun modify_rebootPendingSince other)
  intro call hcall other
  by_cases hsame : other = agentId
  · subst hsame
    rw [drainingSince, drainingSince, get_modify_self]
    cases s.get other with
    | none => exact .inl rfl
    | some e => exact .inr (.inr ⟨hf e, fun hstay => hleaves hstay call hcall⟩)
  · refine .inl ?_
    rw [drainingSince, h.registered.get_modify_of_ne hsame, drainingSince]

theorem drainingSince_incrementActiveJobs :
    (s.incrementActiveJobs agentId).drainingSince other = s.drainingSince other :=
  drainingSince_modify fun _ => rfl

/-- An agent that gets a slot taken. -/
theorem FoundStaying.take (h : FoundStaying stay s) :
    FoundStaying stay (s.incrementActiveJobs agentId) :=
  h.of_flagStep (h.registered.modify fun _ => rfl) modify_clock modify_calls modify_claimed
    (fun _ _ _ => .inl drainingSince_incrementActiveJobs)
    fun _ _ other => .inl (congrFun modify_rebootPendingSince other)

/-- The calls may be others, if they have found no agent that was going away. -/
theorem FoundStaying.of_calls (h : FoundStaying stay s) {calls : List ClaimCall}
    (hcalls : ∀ x ∈ calls, x ∈ s.calls ∨ x.Stays stay s) : FoundStaying stay { s with calls } where
  registered := h.registered
  calls x hx := (hcalls x hx).elim (h.calls x) id
  claimed := h.claimed

theorem FoundStaying.claim (h : FoundStaying stay s) {c : Claimed}
    (hc : ChosenStaying stay c.foundAt c.takenAt c.drainingSince c.rebootPendingSince) :
    FoundStaying stay { s with claimed := s.claimed ++ [c] } where
  registered := h.registered
  calls := h.calls
  claimed x hx := by
    rcases mem_append.1 hx with hold | hnew
    · exact h.claimed x hold
    · obtain rfl := mem_singleton.1 hnew
      exact hc

theorem stays_claim {foundAt : ℕ} (hfound : foundAt ≤ s.clock)
    (hdraining : Fresh stay foundAt (s.drainingSince agentId))
    (hrebooting : Fresh stay foundAt (s.rebootPendingSince agentId)) :
    ClaimCall.Stays stay (s.incrementActiveJobs agentId) (.claim path foundAt s.clock agentId) := by
  refine ⟨hfound.trans modify_clock.ge, modify_clock.ge, ?_⟩
  rw [drainingSince_incrementActiveJobs, incrementActiveJobs, modify_rebootPendingSince]
  exact chosenStaying_of_fresh hdraining hrebooting

/-- What the answer to a statement does, and the call then. -/
theorem FoundStaying.answered (h : FoundStaying stay s) {answer : ClaimAnswer} {next : Option ClaimCall}
    (hcall : call ∈ s.calls) (hanswered : s.Answered call answer t next) :
    FoundStaying stay t ∧ ∀ x ∈ next, x.Stays stay t := by
  cases hanswered with
  | quiet hquiet hnext => exact ⟨h.of_quiet hquiet, fun x hx => stays_of_plain (hnext x hx)⟩
  | @readFound path foundAt agentId rest passed =>
    refine ⟨h, fun x hx => ?_⟩
    cases hx
    obtain ⟨hle, hfound, hpassed⟩ := h.calls _ hcall
    cases hflag : s.rebootPendingSince agentId with
    | some since =>
      refine ⟨hle, fun other hother => hfound other ?_, fun other hother => hpassed other ?_⟩
      · simpa using .inr (mem_append.1 hother)
      · simpa using hother
    | none =>
      refine ⟨hle, fun other hother => hfound other ?_, fun other hother => ?_⟩
      · simp only [isSome_none, Bool.false_eq_true, if_false, mem_append,
          mem_cons] at hother ⊢
        tauto
      · simp only [isSome_none, Bool.false_eq_true, if_false, mem_append,
          mem_singleton] at hother
        rcases hother with hother | rfl
        · exact hpassed other hother
        · rw [hflag]
          exact fresh_none
  | @readPinned path foundAt agentId agent =>
    refine ⟨h, fun x hx => ?_⟩
    cases hx
    obtain ⟨hle, hfound, -⟩ := h.calls _ hcall
    refine ⟨hle, hfound, fun hanswer => ?_⟩
    have hflag : s.rebootPendingSince agentId = none := by simpa using hanswer
    rw [hflag]
    exact fresh_none
  | takeFound hmem hfree =>
    refine ⟨h.take, fun x hx => ?_⟩
    cases hx
    obtain ⟨hle, hfound, hpassed⟩ := h.calls _ hcall
    exact stays_claim hle (hfound _ (mem_append_right _ hmem)) (hpassed _ hmem)
  | takePinned he hfree =>
    refine ⟨h.take, fun x hx => ?_⟩
    cases hx
    obtain ⟨hle, hfound, hpassed⟩ := h.calls _ hcall
    exact stays_claim hle hfound (hpassed rfl)
  | claim hnext hquiet =>
    obtain ⟨-, -, hchosen⟩ := h.calls _ hcall
    exact ⟨(h.claim (c := { .. }) hchosen).of_quiet hquiet, fun x hx => stays_of_plain (hnext x hx)⟩

/-- A step keeps it that no agent is claimed for that was going away. -/
theorem FoundStaying.act (h : FoundStaying stay s) (hchooses : ChoosesStaying s a)
    (hleaves : stay → LeavesFound s a) (hacted : s.Acted a t) : FoundStaying stay t := by
  cases hacted with
  | quiet hquiet => exact h.of_quiet hquiet
  | markDraining => exact h.mark (fun _ => rfl) (fun _ => rfl) fun hstay =>
    (hleaves hstay).draining _ (.inl rfl)
  | markDrainReported =>
    exact h.mark (fun _ => rfl) (fun _ => rfl) fun hstay => (hleaves hstay).draining _ (.inr rfl)
  | @setRebootPending agentId =>
    refine h.of_flagStep h.registered rfl rfl rfl (fun _ _ _ => .inl rfl) fun call hcall other => ?_
    by_cases hsame : other = agentId
    · subst hsame
      exact .inr (.inr ⟨Function.update_self .., fun hstay =>
        (hleaves hstay).rebooting other rfl call hcall⟩)
    · exact .inl (Function.update_of_ne hsame ..)
  | find hfound =>
    refine h.of_calls fun x hx => (mem_append.1 hx).imp_right fun hnew => ?_
    obtain rfl := mem_singleton.1 hnew
    refine ⟨le_rfl, fun agentId hmem => ?_, fun agentId hmem => by cases hmem⟩
    rw [hfound agentId (by simpa using hmem)]
    exact fresh_none
  | @findPinned _ path agentId agent hagent hpinned =>
    have hdraining : s.drainingSince agentId = none := by
      rcases hpinned with ⟨selectors, rfl⟩ | ⟨now, rfl⟩ | hdraining
      · exact hchooses.pinned selectors agentId rfl
      · exact hchooses.redriven agentId now rfl
      · exact hdraining
    refine h.of_calls fun x hx => (mem_append.1 hx).imp_right fun hnew => ?_
    obtain rfl := mem_singleton.1 hnew
    refine ⟨le_rfl, ?_, fun hanswer => by cases hanswer⟩
    rw [hdraining]
    exact fresh_none
  | @take _ path agentId now hfree hpath =>
    have hflags : s.drainingSince agentId = none ∧ s.rebootPendingSince agentId = none := by
      rcases hpath with rfl | ⟨⟨selectors, rfl⟩, hdraining⟩
      · exact hchooses.bound agentId now rfl
      · exact ⟨hdraining, hchooses.redispatched selectors agentId now rfl⟩
    refine h.take.of_calls fun x hx => (mem_append.1 hx).imp_right fun hnew => ?_
    obtain rfl := mem_singleton.1 hnew
    refine stays_claim le_rfl ?_ ?_
    · rw [hflags.1]
      exact fresh_none
    · rw [hflags.2]
      exact fresh_none
  | next hcall hanswered =>
    obtain ⟨ht, hnext⟩ := h.answered (mem_of_getElem? hcall) hanswered
    refine ht.of_calls fun x hx => (mem_or_mem_of_replaced hx).imp_right fun hnew => ?_
    exact hnext x (mem_toList.1 hnew)

theorem FoundStaying.step (h : FoundStaying stay s) (hchooses : ChoosesStaying s a)
    (hleaves : stay → LeavesFound s a) (hstep : (claimSystem js).step s a = some t) :
    FoundStaying stay t := by
  obtain ⟨u, hu, rfl⟩ := map_eq_some_iff.1 hstep
  have hacted := acted_act hu
  have hact := h.act hchooses hleaves hacted
  exact {
    registered := hact.registered
    calls := fun x hx => stays_of_flagStep (hacted.clock.le.trans (Nat.le_succ _)) (fun _ => .inl rfl)
      (fun _ => .inl rfl) (hact.calls x hx)
    claimed := hact.claimed }

theorem foundStaying_of_reachable
    (h : (claimSystem js).Reachable (fun s a => ChoosesStaying s a ∧ (stay → LeavesFound s a)) s) :
    FoundStaying stay s := by
  refine h.invariant ?_ fun s a t hs hok hstep => hs.step hok.1 hok.2 hstep
  rintro s rfl
  exact {
    registered := fun _ _ hagent => by cases hagent
    calls := fun _ hcall => by cases hcall
    claimed := fun _ hclaimed => by cases hclaimed }

end ClaimState

open ClaimState

/-- While the paths that do not look at a flag are taken only where it is not set, no job is claimed
for an agent that was going away when it was found; and none for one that was when it was chosen, if
none starts to while a call has found it. -/
theorem not_goingAwaySince {js : JsRuntime} {s : ClaimState} :
    ((claimSystem js).Reachable ChoosesStaying s → ∀ c ∈ s.claimed, ¬c.GoingAwaySince c.foundAt) ∧
      ((claimSystem js).Reachable (fun s a => ChoosesStaying s a ∧ LeavesFound s a) s →
        ∀ c ∈ s.claimed, ¬c.GoingAwaySince c.takenAt) := by
  constructor
  · intro h c hc
    have hstaying : FoundStaying False s := foundStaying_of_reachable
      (h.mono fun _ _ hok => ⟨hok, False.elim⟩)
    exact (hstaying.claimed c hc).not_since (.inl rfl)
  · intro h c hc
    have hstaying : FoundStaying True s := foundStaying_of_reachable
      (h.mono fun _ _ hok => ⟨hok.1, fun _ => hok.2⟩)
    exact (hstaying.claimed c hc).not_since (.inr ⟨trivial, rfl⟩)

/-- The steps of a coordinator that dispatches by labels alone. -/
def dispatchesByLabels (_ : ClaimState) : ClaimAction → Bool
  | .register _ | .dispatch _ _ | .next _ _ => true
  | _ => false

theorem choosesStaying_of_dispatchesByLabels (s : ClaimState) (a : ClaimAction)
    (h : dispatchesByLabels s a) : ChoosesStaying s a ∧ LeavesFound s a := by
  constructor
  · constructor
    · rintro selectors agentId rfl
      cases h
    · rintro agentId now rfl
      cases h
    · rintro agentId now rfl
      cases h
    · rintro selectors agentId now rfl
      cases h
  · constructor
    · rintro agentId (rfl | rfl)
      · cases h
      · cases h
    · rintro agentId rfl
      cases h

/-- A job that is claimed for an agent that stays. -/
theorem not_goingAwaySince_dispatch : ∃ s : ClaimState,
    (claimSystem lowercaseRuntime).Reachable ChoosesStaying s ∧ s.claimed.length = 1 ∧
      ∀ c ∈ s.claimed, ¬c.GoingAwaySince c.foundAt ∧ ¬c.GoingAwaySince c.takenAt := by
  obtain ⟨s, hpath, hs⟩ := (claimSystem lowercaseRuntime).exists_path {} (fun s => s.claimed.length = 1)
    choosesStaying_of_dispatchesByLabels [
      .register { agentId := "builder", labels := ["linux"] },
      .dispatch { requiredLabels := ["linux"] } 0,
      .next 0 .read,
      .next 0 (.select "builder" 0),
      .next 0 (.job "build")] (by decide)
  have h : (claimSystem lowercaseRuntime).Reachable
    (fun s a => ChoosesStaying s a ∧ LeavesFound s a) s :=
    ⟨{}, rfl, hpath⟩
  have hchooses : (claimSystem lowercaseRuntime).Reachable ChoosesStaying s :=
    h.mono fun _ _ hok => hok.1
  exact ⟨s, hchooses, hs, fun c hc =>
    ⟨not_goingAwaySince.1 hchooses c hc, not_goingAwaySince.2 h c hc⟩⟩

/-- A run in which a job is pinned to an agent that drains, and claimed for it. -/
theorem exists_goingAwaySince : ∃ s : ClaimState,
    (claimSystem lowercaseRuntime).Reachable System.anyStep s ∧
    ∃ c ∈ s.claimed, c.GoingAwaySince c.foundAt ∧ c.GoingAwaySince c.takenAt := by
  obtain ⟨s, hpath, hs⟩ := (claimSystem lowercaseRuntime).exists_path {}
      (fun s => s.claimed.any fun c => c.drainingSince.any fun t => t < c.foundAt ∧ t < c.takenAt)
    System.anyStep_of_true [
      .register { agentId := "builder", labels := ["linux"] },
      .markDraining "builder",
      .dispatchPinned { requiredLabels := ["linux"] } "builder",
      .next 0 .read,
      .next 0 (.resume 0),
      .next 0 (.job "build")] (by decide)
  obtain ⟨c, hc, hdraining⟩ := List.any_eq_true.1 hs
  obtain ⟨t, ht, hlt⟩ := (any_eq_true _ _).1 hdraining
  obtain ⟨hfound, htaken⟩ := of_decide_eq_true hlt
  exact ⟨s, ⟨{}, rfl, hpath⟩, c, hc, .inl ⟨t, ht, hfound⟩, .inl ⟨t, ht, htaken⟩⟩

end Kici
