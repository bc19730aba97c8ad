import Kici.Cluster.JoinToken

/-!
# A join token serves one instance

All claims of a token that succeed are of one instance, whatever calls of whichever coordinators
come in between (`serves_one_instance`). A row that is consumed stays so, and keeps its instance,
its expiry, its role and its routing (`Row.Becomes`): the instance that an update writes is the one
that every later read finds. A claim returns the role and the routing of the columns of the row,
whatever stands in the token (`StoredIn`).
-/

namespace Kici.JoinToken

open List Option

variable {claimed : ClaimedJoinToken} {now : ℤ}

/-! ## What a row stores -/

/-- The role is that of the column `role`, and the routing that of the column `routing_info`, which
is an object or the text of one. -/
structure StoredIn (host : Host) (row : Row) (claimed : ClaimedJoinToken) : Prop where
  tokenHash : claimed.tokenHash = row.tokenHash
  role : claimed.role.text = row.role ∧ claimed.routing.role = claimed.role
  routing : ∃ raw, (row.routingInfo = raw ∨
      ∃ text, row.routingInfo = .str text ∧ host.jsonParse text = some raw) ∧
    raw.prop (js "orgId") = .str claimed.routing.orgId ∧
    raw.prop (js "routingKey") = .str claimed.routing.routingKey ∧
    raw.prop (js "expiry") = .num claimed.routing.expiry

theorem eq_str_of_nonemptyString {value : Json} {s : JsString} (h : nonemptyString value = some s) :
    value = .str s := by
  cases value with
  | str text =>
    rw [nonemptyString] at h
    split at h
    · cases h
    · rw [Option.some.inj h]
  | _ => cases h

theorem prop_of_parseRoutingClaim {raw : Json} {claim : JoinRoutingClaim}
    (h : parseRoutingClaim raw = some claim) :
    raw.prop (js "orgId") = .str claim.orgId ∧ raw.prop (js "routingKey") = .str claim.routingKey ∧
      raw.prop (js "expiry") = .num claim.expiry := by
  cases raw with
  | obj entries =>
    obtain ⟨orgId, horg, h⟩ := bind_eq_some_iff.1 h
    obtain ⟨routingKey, hkey, h⟩ := bind_eq_some_iff.1 h
    split at h
    next expiry hexpiry =>
      cases h
      exact ⟨eq_str_of_nonemptyString horg, eq_str_of_nonemptyString hkey, hexpiry⟩
    next => cases h
  | _ => cases h

/-- A claim returns what the row stores. -/
theorem storedIn_of_claimed {host : Host} {row : Row}
    (h : row.claimed host = .ok claimed) : StoredIn host row claimed := by
  obtain ⟨tokenHash, routingInfo, role⟩ := row
  rw [Row.claimed, routingFromRow] at h
  split at h
  next claim rowRole hclaim hrole =>
    cases h
    obtain ⟨raw, hraw, hclaim⟩ := bind_eq_some_iff.1 hclaim
    refine ⟨rfl, ⟨OrchRole.text_of_parse hrole, rfl⟩, raw, ?_, prop_of_parseRoutingClaim hclaim⟩
    rw [rawRouting.eq_def] at hraw
    split at hraw
    next text htext => exact .inr ⟨text, htext, hraw⟩
    next => exact .inl (Option.some.inj hraw)
  next => cases h

/-! ## What becomes of a row -/

/-- A later version of a row: what a token is stays, and who consumed it. -/
structure Row.Becomes (row row' : Row) : Prop where
  tokenHash : row'.tokenHash = row.tokenHash
  routingInfo : row'.routingInfo = row.routingInfo
  role : row'.role = row.role
  expiresAt : row'.expiresAt = row.expiresAt
  consumed : row.consumedAt ≠ none → row'.consumedAt ≠ none ∧
    row'.consumedByInstance = row.consumedByInstance

variable {host : Host} {row row' row'' : Row} {tokens tokens' : Tokens} {s t : State} {call : ClaimCall}

theorem Row.Becomes.refl (row : Row) : row.Becomes row := ⟨rfl, rfl, rfl, rfl, fun h => ⟨h, rfl⟩⟩

theorem Row.Becomes.trans (h : row.Becomes row') (h' : row'.Becomes row'') : row.Becomes row'' where
  tokenHash := h'.tokenHash.trans h.tokenHash
  routingInfo := h'.routingInfo.trans h.routingInfo
  role := h'.role.trans h.role
  expiresAt := h'.expiresAt.trans h.expiresAt
  consumed := fun hconsumed => by
    obtain ⟨hthen, hinstance⟩ := h.consumed hconsumed
    obtain ⟨hlast, hinstance'⟩ := h'.consumed hthen
    exact ⟨hlast, hinstance'.trans hinstance⟩

/-- A claim returns the same of each version. -/
theorem Row.Becomes.claimed_eq (h : row.Becomes row') : row'.claimed host = row.claimed host := by
  rw [claimed, claimed, h.routingInfo, h.role, h.tokenHash]

/-- The update leaves a row that is consumed alone. -/
theorem Row.becomes_consume (row : Row) (tokenHash consumedBy consumerInstanceId : JsString)
    (consumedAt now : ℤ) :
    row.Becomes ((consume tokenHash consumedBy consumerInstanceId consumedAt now).apply row) := by
  by_cases hguard : (consume tokenHash consumedBy consumerInstanceId consumedAt now).guard row
  · rw [Update.apply_of_guard hguard]
    obtain ⟨-, hnot, -⟩ := of_decide_eq_true hguard
    exact ⟨rfl, rfl, rfl, rfl, fun h => absurd hnot h⟩
  · rw [Update.apply_of_not_guard (Bool.eq_false_iff.2 hguard)]
    exact .refl row

/-- Every row has a later version. -/
def TokensBecome (tokens tokens' : Tokens) : Prop := ∀ row ∈ tokens, ∃ row' ∈ tokens', row.Becomes row'

theorem TokensBecome.refl (tokens : Tokens) : TokensBecome tokens tokens :=
  fun row hmem => ⟨row, hmem, .refl row⟩

theorem tokensBecome_consume (tokens : Tokens) (tokenHash consumedBy consumerInstanceId : JsString)
    (consumedAt now : ℤ) :
    TokensBecome tokens
    (tokens.execute (consume tokenHash consumedBy consumerInstanceId consumedAt now)) :=
  fun row hmem => ⟨_, List.mem_map_of_mem hmem, row.becomes_consume _ _ _ _ _⟩

/-! ## What holds of a claim -/

/-- A claim that succeeded: a row was consumed by its instance and not expired when the claim read
the clock. -/
structure Succeeded (host : Host) (s : State) (call : ClaimCall) (readAt : ℤ)
    (claimed : ClaimedJoinToken) : Prop where
  since : call.begun ≤ readAt
  upTo : readAt ≤ s.clocks call.coordinator
  row : ∃ row ∈ s.tokens, row.tokenHash = call.tokenHash ∧ row.claimed host = .ok claimed ∧
    row.consumedAt ≠ none ∧
    row.consumedByInstance = some call.consumerInstanceId ∧ readAt < row.expiresAt

/-- What holds of a claim that is suspended, or has ended. -/
def Holds (host : Host) (s : State) (call : ClaimCall) : ClaimPoint → Prop
  | .update _ now => call.begun ≤ now ∧ now ≤ s.clocks call.coordinator
  | .select | .decide none => call.begun ≤ s.clocks call.coordinator
  | .decide (some row) => call.begun ≤ s.clocks call.coordinator ∧ row.tokenHash = call.tokenHash ∧
      ∃ row' ∈ s.tokens, row.Becomes row'
  | .ended readAt (.ok claimed) => Succeeded host s call readAt claimed
  | .ended _ (.error _) => True

/-- It holds later as well. -/
theorem Holds.mono {point : ClaimPoint} (h : Holds host s call point)
    (htokens : TokensBecome s.tokens t.tokens)
    (hclocks : ∀ coordinator, s.clocks coordinator ≤ t.clocks coordinator) :
    Holds host t call point := by
  cases point with
  | update consumedAt now => exact ⟨h.1, h.2.trans (hclocks _)⟩
  | select => exact le_trans h (hclocks _)
  | decide found =>
    cases found with
    | none => exact le_trans h (hclocks _)
    | some row =>
      obtain ⟨hbegun, hhash, row', hmem, hrow⟩ := h
      obtain ⟨row'', hmem', hrow'⟩ := htokens row' hmem
      exact ⟨hbegun.trans (hclocks _), hhash, row'', hmem', hrow.trans hrow'⟩
  | ended readAt result =>
    cases result with
    | error e => trivial
    | ok claimed =>
      obtain ⟨hsince, hupTo, row, hmem, hhash, hclaimed, hconsumed, hinstance, halive⟩ := h
      obtain ⟨row', hmem', hrow⟩ := htokens row hmem
      obtain ⟨hconsumed', hinstance'⟩ := hrow.consumed hconsumed
      exact ⟨hsince, hupTo.trans (hclocks _), row', hmem', hrow.tokenHash.trans hhash,
        hrow.claimed_eq.trans hclaimed,
        hconsumed', hinstance'.trans hinstance, hrow.expiresAt ▸ halive⟩

/-- A row that is read decides for the instance that consumed it, and before its expiry. -/
theorem decideClaim_ok {found : Option Row}
    (h : State.decideClaim host call now found = .ok claimed) :
    ∃ row, found = some row ∧ now < row.expiresAt ∧ row.consumedAt ≠ none ∧
      row.consumedByInstance = some call.consumerInstanceId ∧ row.claimed host = .ok claimed := by
  cases found with
  | none => cases h
  | some row =>
    rw [State.decideClaim] at h
    split at h
    · cases h
    next halive =>
      split at h
      next hconsumed =>
        split at h
        next hinstance => exact ⟨row, rfl, not_le.1 halive, isSome_iff_ne_none.1 hconsumed, hinstance, h⟩
        next => cases h
      next => cases h

/-- What the next statement of a claim does. -/
theorem holds_claimStep {point point' : ClaimPoint} (h : Holds host s call point)
    (hstep : s.claimStep host call point = some (tokens', point')) :
    TokensBecome s.tokens tokens' ∧ Holds host { s with tokens := tokens' } call point' := by
  cases point with
  | update consumedAt now =>
    simp only [State.claimStep] at hstep
    split at hstep
    next row rows hrows =>
      -- The update has consumed the row.
      cases hstep
      have hbecome :=
        tokensBecome_consume s.tokens call.tokenHash call.consumedBy call.consumerInstanceId
          consumedAt now
      refine ⟨hbecome, ?_⟩
      obtain ⟨before, hmem, hguard, hset⟩ := Table.mem_returning.1 (hrows ▸ mem_cons_self)
      obtain ⟨hhash, hnot, halive⟩ := of_decide_eq_true hguard
      cases hclaimed : row.claimed host with
      | error e => trivial
      | ok claimed =>
        have hrow : row ∈ s.tokens.execute
            (consume call.tokenHash call.consumedBy call.consumerInstanceId consumedAt now) := by
          rw [← hset, ← Update.apply_of_guard hguard]
          exact List.mem_map_of_mem hmem
        refine ⟨h.1, h.2, row, hrow, ?_, hclaimed, ?_, ?_, ?_⟩
        · rw [← hset]
          exact hhash
        · rw [← hset]
          exact some_ne_none _
        · rw [← hset]
          rfl
        · rw [← hset]
          exact halive
    next =>
      cases hstep
      exact ⟨.refl _, h.1.trans h.2⟩
  | select =>
    cases hstep
    refine ⟨.refl _, ?_⟩
    cases hfound : s.tokens.lookup call.tokenHash with
    | none => exact h
    | some row =>
      obtain ⟨hmem, hhash⟩ := Table.lookup_eq_some.1 hfound
      exact ⟨h, hhash, row, hmem, .refl row⟩
  | decide found =>
    cases hstep
    refine ⟨.refl _, ?_⟩
    cases hresult : State.decideClaim host call (s.clocks call.coordinator) found with
    | error e => trivial
    | ok claimed =>
      -- The row as it is now has the instance that it had when it was read.
      obtain ⟨row, rfl, halive, hconsumed, hinstance, hclaimed⟩ := decideClaim_ok hresult
      obtain ⟨hbegun, hhash, row', hmem, hrow⟩ := h
      obtain ⟨hconsumed', hinstance'⟩ := hrow.consumed hconsumed
      exact ⟨hbegun, le_rfl, row', hmem, hrow.tokenHash.trans hhash, hrow.claimed_eq.trans hclaimed,
        hconsumed', hinstance'.trans hinstance, hrow.expiresAt ▸ halive⟩
  | ended readAt result => cases hstep

/-! ## Every run -/

/-- What holds of every claim. -/
def ClaimsHold (host : Host) (s : State) : Prop := ∀ call ∈ s.claims, Holds host s call call.point

theorem le_clockAt {coordinator : ℕ} (h : s.clocks coordinator ≤ now) (other : ℕ) :
    s.clocks other ≤ s.clockAt coordinator now other := by
  rw [State.clockAt]
  by_cases hsame : other = coordinator
  · rw [hsame, Function.update_self]
    exact h
  · rw [Function.update_of_ne hsame]

/-- A new claim holds what the others do. -/
theorem ClaimsHold.claimByHash {coordinator : ℕ} {tokenHash consumedBy consumerInstanceId : JsString}
    (h : ClaimsHold host s)
    (hstep : s.claimByHash coordinator tokenHash consumedBy consumerInstanceId now = some t) :
    ClaimsHold host t := by
  rw [State.claimByHash] at hstep
  split at hstep
  next hclock =>
    cases hstep
    intro call hmem
    rcases mem_append.1 hmem with hold | hnew
    · exact (h call hold).mono (.refl _) (le_clockAt hclock)
    · rw [mem_singleton.1 hnew]
      exact ⟨hclock, (Function.update_self coordinator now s.clocks).ge⟩
  next => cases hstep

theorem ClaimsHold.step {a : Action} (h : ClaimsHold host s) (hstep : (system host).step s a = some t) :
    ClaimsHold host t := by
  cases a with
  | tick coordinator now =>
    rw [system] at hstep
    simp only [State.step] at hstep
    split at hstep
    next hclock =>
      cases hstep
      exact fun call hmem => (h call hmem).mono (.refl _) (le_clockAt hclock)
    next => cases hstep
  | claimByHash coordinator tokenHash consumedBy consumerInstanceId now => exact h.claimByHash hstep
  | validateAndConsumeToken coordinator token consumedBy peerInstanceId now =>
    rw [system] at hstep
    simp only [State.step] at hstep
    split at hstep
    · exact h.claimByHash hstep
    · cases hstep
      exact h
  | resolveLiveTokenByRouting coordinator claimed accepts =>
    cases hstep
    exact fun call hmem => (h call hmem).mono (.refl _) fun _ => le_rfl
  | nextClaim k =>
    obtain ⟨call, hcall, hstep⟩ := bind_eq_some_iff.1 hstep
    obtain ⟨⟨tokens, point⟩, hclaim, rfl⟩ := map_eq_some_iff.1 hstep
    obtain ⟨hbecome, hpoint⟩ := holds_claimStep (h call (mem_of_getElem? hcall)) hclaim
    intro other hmem
    rcases mem_or_eq_of_mem_set hmem with hold | rfl
    · exact (h other hold).mono hbecome fun _ => le_rfl
    · cases hpt : point with
      | ended readAt result =>
        rw [hpt] at hpoint
        cases result with
        | error e => trivial
        | ok claimed => exact ⟨hpoint.since, hpoint.upTo, hpoint.row⟩
      | update | select =>
        rw [hpt] at hpoint
        exact hpoint
      | decide found =>
        rw [hpt] at hpoint
        cases found with
        | none => exact hpoint
        | some row => exact hpoint
  | nextLookup k =>
    obtain ⟨call, -, hstep⟩ := bind_eq_some_iff.1 hstep
    obtain ⟨point, -, rfl⟩ := map_eq_some_iff.1 hstep
    exact fun call hmem => (h call hmem).mono (.refl _) fun _ => le_rfl

/-- The claims of each token that succeeded: they are of one instance, and each of them read a
clock, while it went on, that was before the expiry of the row, and returned the role and the
routing of the row. -/
structure ServesOneInstance (host : Host) (s : State) : Prop where
  one : ∀ call ∈ s.claims, ∀ call' ∈ s.claims, ∀ readAt claimed readAt' claimed',
    call.point = .ended readAt (.ok claimed) → call'.point = .ended readAt' (.ok claimed') →
      call.tokenHash = call'.tokenHash → call.consumerInstanceId = call'.consumerInstanceId
  alive : ∀ call ∈ s.claims, ∀ readAt claimed, call.point = .ended readAt (.ok claimed) →
    call.begun ≤ readAt ∧ readAt ≤ s.clocks call.coordinator ∧ ∃ row ∈ s.tokens,
      row.tokenHash = call.tokenHash ∧
      readAt < row.expiresAt ∧ StoredIn host row claimed

/-- A join token serves one instance. -/
theorem serves_one_instance (h : (system host).Reachable System.anyStep s) :
    ServesOneInstance host s := by
  have hholds : ClaimsHold host s := by
    refine h.invariant ?_ fun s a t hs _ hstep => hs.step hstep
    rintro s ⟨hnone, -⟩ call hmem
    rw [hnone] at hmem
    cases hmem
  constructor
  · intro call hmem call' hmem' readAt claimed readAt' claimed' hpoint hpoint' hhash
    have hcall := hholds call hmem
    have hcall' := hholds call' hmem'
    rw [hpoint] at hcall
    rw [hpoint'] at hcall'
    obtain ⟨-, -, row, hrow, hrowHash, -, -, hinstance, -⟩ := hcall
    obtain ⟨-, -, row', hrow', hrowHash', -, -, hinstance', -⟩ := hcall'
    -- There is one row of the hash.
    have hsame : row = row' := inj_on_of_nodup_map s.tokens.nodup hrow hrow'
      (hrowHash.trans (hhash.trans hrowHash'.symm))
    rw [hsame] at hinstance
    exact some.inj (hinstance.symm.trans hinstance')
  · intro call hmem readAt claimed hpoint
    have hcall := hholds call hmem
    rw [hpoint] at hcall
    obtain ⟨hsince, hupTo, row, hrow, hhash, hclaimed, -, -, halive⟩ := hcall
    exact ⟨hsince, hupTo, row, hrow, hhash, halive, storedIn_of_claimed hclaimed⟩

/-! ### A token that is used again -/

/-- Rows in the order of their creation, the last first; every text is the one of a routing that is
not stored. -/
def plainHost : Host where
  jsonParse _ := some (.obj [(js "orgId", .str (js "evil")), (js "routingKey", .str (js "github:evil")),
    (js "expiry", .num 99)])
  fromBase64url s := s
  tokenHashOf s := s
  numberText _ := []
  newestFirst rows := rows.insertionSort fun row row' => row'.createdAt ≤ row.createdAt
  newestFirst_perm rows := perm_insertionSort _ rows
  newestFirst_sorted rows := by
    have htotal : Std.Total fun row row' : Row => row'.createdAt ≤ row.createdAt :=
      ⟨fun _ _ => le_total _ _⟩
    have htrans : IsTrans Row fun row row' => row'.createdAt ≤ row.createdAt :=
      ⟨fun _ _ _ h h' => le_trans h' h⟩
    exact pairwise_insertionSort _ rows

/-- A token of a worker that expires at 10. -/
def freshToken : Row where
  tokenHash := js "9f86d081"
  routingInfo := .obj [(js "orgId", .str (js "acme")), (js "routingKey", .str (js "github:acme")),
    (js "expiry", .num 10), (js "role", .str (js "coordinator"))]
  role := js "worker"
  createdAt := 0
  expiresAt := 10
  consumedAt := none
  consumedBy := none
  consumedByInstance := none

/-- The claims that succeeded, with the times that they read, and the role, the organization and
the routing key that they returned. -/
def State.successes (s : State) : List (JsString × ℤ × List JsString) :=
  s.claims.filterMap fun call =>
    match call.point with
    | .ended readAt (.ok claimed) => some (call.consumerInstanceId, readAt,
        [claimed.role.text, claimed.routing.orgId, claimed.routing.routingKey])
    | _ => none

def workerAtAcme : List JsString := [js "worker", js "acme", js "github:acme"]

/-- A token with another routing in it is presented; another instance fails to claim the row, and
the first one has it again. -/
theorem serves_one_instance_again : ∃ s : State, (system plainHost).Reachable System.anyStep s ∧
    s.successes = [(js "peer-1", 5, workerAtAcme), (js "peer-1", 7, workerAtAcme)] ∧
      ServesOneInstance plainHost s := by
  obtain ⟨s, hpath, hs⟩ := (system plainHost).exists_path
      ⟨.singleton Row.tokenHash freshToken, fun _ => 4, [], []⟩
      (fun s => s.successes = [(js "peer-1", 5, workerAtAcme), (js "peer-1", 7, workerAtAcme)])
      System.anyStep_of_true
      [.validateAndConsumeToken 0 (js "kici_join_v1.e30.9f86d081") (js "orch-0") (js "peer-1") 5,
        .claimByHash 1 (js "9f86d081") (js "orch-1") (js "peer-2") 6,
        .nextClaim 0, .nextClaim 1, .nextClaim 1, .nextClaim 1,
        .claimByHash 1 (js "9f86d081") (js "orch-1") (js "peer-1") 7,
        .nextClaim 2, .nextClaim 2, .nextClaim 2] (by decide)
  have hreach : (system plainHost).Reachable System.anyStep s := ⟨_, ⟨rfl, rfl⟩, hpath⟩
  exact ⟨s, hreach, hs, serves_one_instance hreach⟩

end Kici.JoinToken
