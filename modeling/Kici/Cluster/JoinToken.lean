import Kici.Foundation.System
import Kici.Foundation.Table
import Kici.Js.Json

/-!
# Join tokens

An instance joins a cluster with a token. The database keeps a row for the hash of its secret; the
routing that stands in the token is only used to look the row up (`resolveLiveTokenByRouting`), and
a claim returns the role and the routing of the row (`routingFromRow`).

A claim (`claimByHash`) is an update that consumes the row if it is not consumed and not expired. If
it changes no row, the row is read, and the instance that consumed it may have it again as long as
it is not expired. Between the reading of the clock, the update, the read and the second reading of
the clock (`ClaimPoint`) anything may happen: other calls of any coordinator over the same database,
each with a clock of its own.
-/

namespace Kici

inductive OrchRole
  | coordinator
  | worker

namespace OrchRole

/-- The role of a text: `OrchRole.parse`. -/
def parse (s : JsString) : Option OrchRole :=
  if s = js "coordinator" then some coordinator else if s = js "worker" then some worker else none

/-- The text of a role. -/
def text : OrchRole → JsString
  | coordinator => js "coordinator"
  | worker => js "worker"

theorem text_of_parse {s : JsString} {role : OrchRole} (h : parse s = some role) : role.text = s := by
  rw [parse] at h
  split at h
  next hs =>
    cases h
    exact hs.symm
  next =>
    split at h
    next hs =>
      cases h
      exact hs.symm
    next => cases h

end OrchRole

namespace JoinToken

structure TokenRouting where
  orgId : JsString
  routingKey : JsString
  expiry : Rat
  role : OrchRole

/-- The routing fields a presented token claims. -/
structure JoinRoutingClaim where
  orgId : JsString
  routingKey : JsString
  expiry : Rat

structure ClaimedJoinToken where
  tokenHash : JsString
  routing : TokenRouting
  role : OrchRole

/-- A row of `join_tokens`. -/
structure Row where
  tokenHash : JsString
  routingInfo : Json
  role : JsString
  createdAt : ℤ
  expiresAt : ℤ
  consumedAt : Option ℤ
  consumedBy : Option JsString
  consumedByInstance : Option JsString

abbrev Tokens := Table Row.tokenHash

inductive JoinError
  | thrown (message : JsString)
  /-- What a parser or a schema throws. -/
  | malformed

/-- Parsing, hashing, numbers as texts, and the order in which the database returns rows. -/
structure Host where
  jsonParse : JsString → Option Json
  fromBase64url : JsString → JsString
  tokenHashOf : JsString → JsString
  numberText : Rat → JsString
  newestFirst : List Row → List Row
  newestFirst_perm : ∀ rows, (newestFirst rows).Perm rows
  newestFirst_sorted : ∀ rows, (newestFirst rows).Pairwise fun row row' => row'.createdAt ≤ row.createdAt

def TOKEN_PREFIX : JsString := js "kici_join_v1"

def TOKEN_ALREADY_USED_MESSAGE : JsString :=
  js "Join token has already been used. Create a new token with: kici-admin peer create-token"

def TOKEN_EXPIRED_MESSAGE : JsString :=
  js "Join token has expired. Create a new token with: kici-admin peer create-token"

def INVALID_JOIN_TOKEN_MESSAGE : JsString := js "Invalid join token"

def JOIN_TOKEN_ROUTING_CANDIDATE_CAP : ℕ := 16

/-! ## Rows and tokens -/

section
variable (host : Host)

/-- A text that is not empty. -/
def nonemptyString : Json → Option JsString
  | .str s => if s = [] then none else some s
  | _ => none

/-- `joinRoutingClaimSchema.parse`. -/
def parseRoutingClaim (raw : Json) : Option JoinRoutingClaim :=
  match raw with
  | .obj _ => do
    let orgId ← nonemptyString (raw.prop (js "orgId"))
    let routingKey ← nonemptyString (raw.prop (js "routingKey"))
    match raw.prop (js "expiry") with
    | .num expiry => some ⟨orgId, routingKey, expiry⟩
    | _ => none
  | _ => none

/-- The value of the column `routing_info`, which may be a text. -/
def rawRouting : Json → Option Json
  | .str s => host.jsonParse s
  | value => some value

/-- The role and the routing of the columns of a row. -/
def routingFromRow (routingInfo : Json) (role : JsString) : Except JoinError (TokenRouting × OrchRole) :=
  match (rawRouting host routingInfo).bind parseRoutingClaim, OrchRole.parse role with
  | some claim, some rowRole => .ok (⟨claim.orgId, claim.routingKey, claim.expiry, rowRole⟩, rowRole)
  | _, _ => .error .malformed

/-- What a claim of a row returns. -/
def Row.claimed (row : Row) : Except JoinError ClaimedJoinToken :=
  (routingFromRow host row.routingInfo row.role).map fun (routing, role) =>
    ⟨row.tokenHash, routing, role⟩

/-- The secret of a token. -/
def parseToken (token : JsString) : Except JoinError JsString :=
  match token.splitOn 0x2E with
  | [first, routingB64, secretHex] =>
    if first ≠ TOKEN_PREFIX then
      .error (.thrown (js "Invalid join token format. Expected: kici_join_v1.<routing>.<secret>"))
    else
      match host.jsonParse (host.fromBase64url routingB64) with
      | none => .error .malformed
      | some routing =>
        if routing.isNullish then .error .malformed
        else if (routing.prop (js "orgId")).truthy && (routing.prop (js "routingKey")).truthy &&
            (routing.prop (js "expiry")).truthy then
          .ok secretHex
        else .error (.thrown (js "Invalid join token routing data"))
  | _ => .error (.thrown (js "Invalid join token format. Expected: kici_join_v1.<routing>.<secret>"))

/-! ## Statements -/

/-- A field of the routing of a row as a text: `routing_info->>'key'`. -/
def Row.routingText (row : Row) (key : JsString) : Option JsString :=
  match row.routingInfo.prop key with
  | .str s => some s
  | .num x => some (host.numberText x)
  | .bool b => some (if b then js "true" else js "false")
  | _ => none

/-- The rows of a routing, the newest first. -/
def routingCandidates (tokens : Tokens) (claimed : JoinRoutingClaim) : List Row :=
  (host.newestFirst (tokens.rows.filter fun row =>
    row.routingText host (js "orgId") = some claimed.orgId ∧
      row.routingText host (js "routingKey") = some claimed.routingKey ∧
        row.routingText host (js "expiry") = some (host.numberText claimed.expiry))).take
    JOIN_TOKEN_ROUTING_CANDIDATE_CAP

inductive ResolvedJoinToken
  | live (tokenHash : JsString)
  | expired
  | unknown

/-- The first row whose proof is accepted. -/
def resolve (accepts : JsString → Bool) (now : ℤ) : List Row → ResolvedJoinToken
  | [] => .unknown
  | row :: rows =>
    if accepts row.tokenHash then if now < row.expiresAt then .live row.tokenHash else .expired
    else resolve accepts now rows

end

/-- The update that consumes a row. -/
def consume (tokenHash consumedBy consumerInstanceId : JsString) (consumedAt now : ℤ) :
    Update Row.tokenHash where
  guard row := row.tokenHash = tokenHash ∧ row.consumedAt = none ∧ now < row.expiresAt
  set row :=
    { row with
      consumedAt := some consumedAt
      consumedBy := some consumedBy
      consumedByInstance := some consumerInstanceId }

/-! ## Calls -/

/-- Where a call of `claimByHash` is suspended. -/
inductive ClaimPoint
  /-- The update was sent, with two readings of the clock. -/
  | update (consumedAt now : ℤ)
  | select
  /-- The row was read. -/
  | decide (row : Option Row)
  /-- The call returned or threw; `readAt` is the last time it read. -/
  | ended (readAt : ℤ) (result : Except JoinError ClaimedJoinToken)

structure ClaimCall where
  coordinator : ℕ
  tokenHash : JsString
  consumedBy : JsString
  consumerInstanceId : JsString
  /-- The time when it was called, by the clock of its coordinator. -/
  begun : ℤ
  point : ClaimPoint

inductive LookupPoint
  | rows (candidates : List Row)
  | ended (readAt : ℤ) (result : ResolvedJoinToken)

structure LookupCall where
  coordinator : ℕ
  accepts : JsString → Bool
  point : LookupPoint

structure State where
  tokens : Tokens
  clocks : ℕ → ℤ
  claims : List ClaimCall := []
  lookups : List LookupCall := []

inductive Action
  /-- The clock of a coordinator goes on. -/
  | tick (coordinator : ℕ) (now : ℤ)
  /-- `now` is the second reading of the clock. -/
  | claimByHash (coordinator : ℕ) (tokenHash consumedBy consumerInstanceId : JsString) (now : ℤ)
  | validateAndConsumeToken (coordinator : ℕ) (token consumedBy peerInstanceId : JsString) (now : ℤ)
  | resolveLiveTokenByRouting (coordinator : ℕ) (claimed : JoinRoutingClaim) (accepts : JsString → Bool)
  /-- A claim goes on to its next suspension. -/
  | nextClaim (k : ℕ)
  | nextLookup (k : ℕ)

namespace State

variable (host : Host) (s : State)

/-- The clock of a coordinator, when it has gone on to a time. -/
def clockAt (coordinator : ℕ) (now : ℤ) : ℕ → ℤ := Function.update s.clocks coordinator now

def claimByHash (coordinator : ℕ) (tokenHash consumedBy consumerInstanceId : JsString) (now : ℤ) :
    Option State :=
  if s.clocks coordinator ≤ now then
    some { s with
      clocks := s.clockAt coordinator now
      claims := s.claims ++ [{
        coordinator
        tokenHash
        consumedBy
        consumerInstanceId
        begun := s.clocks coordinator
        point := .update (s.clocks coordinator) now }] }
  else none

/-- The claim where the row that was read decides. -/
def decideClaim (call : ClaimCall) (now : ℤ) : Option Row → Except JoinError ClaimedJoinToken
  | none => .error (.thrown INVALID_JOIN_TOKEN_MESSAGE)
  | some row =>
    if row.expiresAt ≤ now then .error (.thrown TOKEN_EXPIRED_MESSAGE)
    else if row.consumedAt.isSome then
      if row.consumedByInstance = some call.consumerInstanceId then row.claimed host
      else .error (.thrown TOKEN_ALREADY_USED_MESSAGE)
    else .error (.thrown INVALID_JOIN_TOKEN_MESSAGE)

/-- The tokens after the next statement of a claim, and where it is suspended then. -/
def claimStep (call : ClaimCall) : ClaimPoint → Option (Tokens × ClaimPoint)
  | .update consumedAt now =>
    let u := consume call.tokenHash call.consumedBy call.consumerInstanceId consumedAt now
    match s.tokens.returning u with
    | row :: _ => some (s.tokens.execute u, .ended now (row.claimed host))
    | [] => some (s.tokens, .select)
  | .select => some (s.tokens, .decide (s.tokens.lookup call.tokenHash))
  | .decide row =>
    some (s.tokens, .ended (s.clocks call.coordinator)
      (decideClaim host call (s.clocks call.coordinator) row))
  | .ended _ _ => none

def lookupStep (call : LookupCall) : LookupPoint → Option LookupPoint
  | .rows candidates =>
    some (.ended (s.clocks call.coordinator)
      (resolve call.accepts (s.clocks call.coordinator) candidates))
  | .ended _ _ => none

def step : Action → Option State
  | .tick coordinator now =>
    if s.clocks coordinator ≤ now then some { s with clocks := s.clockAt coordinator now } else none
  | .claimByHash coordinator tokenHash consumedBy consumerInstanceId now =>
    s.claimByHash coordinator tokenHash consumedBy consumerInstanceId now
  | .validateAndConsumeToken coordinator token consumedBy peerInstanceId now =>
    match parseToken host token with
    | .ok secretHex =>
      s.claimByHash coordinator (host.tokenHashOf secretHex) consumedBy peerInstanceId now
    | .error _ => some s
  | .resolveLiveTokenByRouting coordinator claimed accepts =>
    some { s with lookups := s.lookups ++
      [⟨coordinator, accepts, .rows (routingCandidates host s.tokens claimed)⟩] }
  | .nextClaim k =>
    s.claims[k]?.bind fun call => (s.claimStep host call call.point).map fun (tokens, point) =>
      { s with tokens, claims := s.claims.set k { call with point } }
  | .nextLookup k =>
    s.lookups[k]?.bind fun call => (s.lookupStep call call.point).map fun point =>
      { s with lookups := s.lookups.set k { call with point } }

end State

/-- Any number of coordinators over one table of tokens. -/
def system (host : Host) : System State Action where
  init := {s | s.claims = [] ∧ s.lookups = []}
  step := State.step host

end JoinToken

end Kici
