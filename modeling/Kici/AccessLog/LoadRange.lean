import Kici.ColdStore.ReadThrough
import Kici.Foundation.Keyset

/-!
# Loading a range of the access log

The access log is read in pages, the newest row first. A page is filled from the table (the hot
rows); if the table gives fewer rows than the page may hold, the page goes on with the rows that
were archived and are older than the warm cutoff (`loadAccessLogRange`). The cursor of the next page
says in which of the two the page ended, and holds the instant and the id of its last row.

The table keeps instants in microseconds. An item has an ISO text with milliseconds, and so has the
cursor (`AccessLogRow.createdMs`); such a text stands here as the instant it says. The table
compares instants in microseconds and ids with those of the cursor (`AccessLogCursor.hotBound`).
-/

namespace Kici.AccessLog

open ColdStore

/-! ## Rows and items -/

/-- A row, of the table or of a chunk. -/
structure AccessLogRow where
  /-- The UUID, as a number. -/
  id : ℕ
  orgId : Option JsString
  routingKey : Option JsString
  actorType : JsString
  actorId : JsString
  actorMeta : Option Json
  action : JsString
  targetType : Option JsString
  targetId : Option JsString
  requestId : Option JsString
  source : JsString
  outcome : JsString
  errorMessage : Option JsString
  agentLabel : Option JsString
  /-- In microseconds. -/
  createdAt : ℤ

structure AccessLogItem where
  id : ℕ
  orgId : Option JsString
  routingKey : Option JsString
  actorType : JsString
  actorId : JsString
  actorMeta : Option Json
  action : JsString
  targetType : Option JsString
  targetId : Option JsString
  requestId : Option JsString
  source : JsString
  outcome : JsString
  errorMessage : Option JsString
  agentLabel : Option JsString
  /-- In milliseconds. -/
  createdAt : ℤ

namespace AccessLogRow

variable (row : AccessLogRow)

/-- The instant that the driver gives, in milliseconds. -/
def createdMs : ℤ := row.createdAt / 1000

/-- `ORDER BY created_at DESC, id DESC` puts the greatest first. -/
def key : ℤ ×ₗ ℕ := toLex (row.createdAt, row.id)

end AccessLogRow

def toAccessLogItem (row : AccessLogRow) : AccessLogItem where
  id := row.id
  orgId := row.orgId
  routingKey := row.routingKey
  actorType := row.actorType
  actorId := row.actorId
  actorMeta := row.actorMeta
  action := row.action
  targetType := row.targetType
  targetId := row.targetId
  requestId := row.requestId
  source := row.source
  outcome := row.outcome
  errorMessage := row.errorMessage
  agentLabel := row.agentLabel
  createdAt := row.createdMs

def AccessLogItem.key (item : AccessLogItem) : ℤ ×ₗ ℕ := toLex (item.createdAt, item.id)

/-! ## Cursors -/

inductive PageSource
  | hot
  | cold
  deriving DecidableEq

structure AccessLogCursor where
  source : PageSource
  /-- In milliseconds. -/
  createdAt : ℤ
  id : ℕ

namespace AccessLogCursor

variable (cursor : AccessLogCursor)

/-- The instant and the id with which those of the table are compared. -/
def hotBound : ℤ ×ₗ ℕ := toLex (1000 * cursor.createdAt, cursor.id)

/-- The instant and the id with which those of archived rows are compared. -/
def coldBound : ℤ ×ₗ ℕ := toLex (cursor.createdAt, cursor.id)

end AccessLogCursor

def buildHotCursor (item : AccessLogItem) : AccessLogCursor where
  source := .hot
  createdAt := item.createdAt
  id := item.id

def buildColdCursor (item : AccessLogItem) : AccessLogCursor where
  source := .cold
  createdAt := item.createdAt
  id := item.id

/-- Whether the page goes on in the archived rows, and reads nothing of the table. -/
def resumesCold : Option AccessLogCursor → Bool
  | some cursor => cursor.source = .cold
  | none => false

/-! ## Filters -/

/-- What the database and the runtime do with texts. -/
structure TextHost where
  /-- Whether a text matches a pattern with `ILIKE`. -/
  ilike : (text pattern : JsString) → Bool
  toLowerCase : JsString → JsString

/-- The instants are in milliseconds. -/
structure AccessLogFilter where
  orgId : Option JsString
  actorType : Option JsString
  actorId : Option JsString
  action : Option JsString
  source : Option JsString
  outcome : Option JsString
  targetType : Option JsString
  targetId : Option JsString
  fromTimestamp : Option ℤ
  toTimestamp : Option ℤ
  q : Option JsString
  agentLabel : Option JsString
  agentOnly : Bool

/-- A condition that is made only of a text that is given, and not empty. -/
def whenGiven (wanted : Option JsString) (condition : JsString → Bool) : Bool :=
  match wanted with
  | none => true
  | some text => text.isEmpty || condition text

def SYNTHETIC_ORCH_TENANT : JsString := js "__orchestrator__"

namespace AccessLogFilter

variable (host : TextHost) (filter : AccessLogFilter) (row : AccessLogRow)

/-- The conditions of the query of the table. -/
def hotWhere : Bool :=
  filter.orgId.all (fun orgId => row.orgId = some orgId) &&
  whenGiven filter.actorType (fun actorType => row.actorType = actorType) &&
  whenGiven filter.actorId (fun actorId => row.actorId = actorId) &&
  whenGiven filter.action (fun action => row.action = action) &&
  whenGiven filter.source (fun source => row.source = source) &&
  whenGiven filter.outcome (fun outcome => row.outcome = outcome) &&
  whenGiven filter.targetType (fun targetType => row.targetType = some targetType) &&
  whenGiven filter.targetId (fun targetId => row.targetId = some targetId) &&
  whenGiven filter.agentLabel (fun agentLabel => row.agentLabel = some agentLabel) &&
  (!filter.agentOnly || row.agentLabel.isSome) &&
  whenGiven filter.q (fun q => row.errorMessage.any (host.ilike · (js "%" ++ q ++ js "%"))) &&
  filter.fromTimestamp.all (fun fromTs => 1000 * fromTs ≤ row.createdAt) &&
  filter.toTimestamp.all (fun toTs => row.createdAt < 1000 * toTs)

/-- The conditions on an archived row, other than its tenant and the range. -/
def coldMatches : Bool :=
  whenGiven filter.actorType (fun actorType => row.actorType = actorType) &&
  whenGiven filter.actorId (fun actorId => row.actorId = actorId) &&
  whenGiven filter.action (fun action => row.action = action) &&
  whenGiven filter.source (fun source => row.source = source) &&
  whenGiven filter.outcome (fun outcome => row.outcome = outcome) &&
  whenGiven filter.targetType (fun targetType => row.targetType = some targetType) &&
  whenGiven filter.targetId (fun targetId => row.targetId = some targetId) &&
  whenGiven filter.agentLabel (fun agentLabel => row.agentLabel = some agentLabel) &&
  (!filter.agentOnly || row.agentLabel.isSome) &&
  whenGiven filter.q fun q =>
    JsString.includes (host.toLowerCase (row.errorMessage.getD [])) (host.toLowerCase q)

/-- The tenant whose chunks are read. -/
def tenantToScan : JsString := filter.orgId.getD SYNTHETIC_ORCH_TENANT

/-- Where the archived rows begin. -/
def coldFromTs : ℤ := filter.fromTimestamp.getD 0

/-- Where the archived rows end, given the warm cutoff. -/
def coldToTs (warmCutoff : ℤ) : ℤ :=
  match filter.toTimestamp with
  | none => warmCutoff
  | some toTs => if toTs < warmCutoff then toTs else warmCutoff

/-- The read of the archived rows. -/
def coldRange (warmCutoff : ℤ) : FetchRangeArgs where
  tenantId := filter.tenantToScan
  fromTs := filter.coldFromTs
  toTs := filter.coldToTs warmCutoff
  order := .desc

end AccessLogFilter

/-! ## The page -/

/-- What a read of archived rows gives, and how it ends. -/
structure ColdStream where
  rows : List AccessLogRow
  error : Option ColdStoreError

/-- The cold store, at the time of a page. -/
structure ColdSide where
  warmCutoff : ℤ
  fetchRange : FetchRangeArgs → ColdStream

section
variable (host : TextHost) (db : List AccessLogRow) (coldStore : Option ColdSide)
  (filter : AccessLogFilter) (limit : ℕ) (cursor : Option AccessLogCursor)

/-- The condition that the cursor adds to the query of the table. -/
def belowHotCursor (row : AccessLogRow) : Bool := cursor.all fun cursor => row.key < cursor.hotBound

/-- The query of the table, which is left out where the cursor goes on in the archived rows. -/
def hotRows : List AccessLogRow :=
  if resumesCold cursor then []
  else (Latest.sort AccessLogRow.key
    (db.filter fun row => filter.hotWhere host row && belowHotCursor cursor row)).take (limit + 1)

def hotHasMore : Bool := limit < (hotRows host db filter limit cursor).length

def hotItems : List AccessLogItem :=
  (if hotHasMore host db filter limit cursor then (hotRows host db filter limit cursor).take limit
    else hotRows host db filter limit cursor).map toAccessLogItem

/-- The page without archived rows. -/
def hotPage : Page AccessLogCursor AccessLogItem where
  items := hotItems host db filter limit cursor
  nextCursor :=
    if hotHasMore host db filter limit cursor then (hotItems host db filter limit cursor).getLast?.map
      buildHotCursor
    else none

def wantCold : Bool :=
  resumesCold cursor ||
    !hotHasMore host db filter limit cursor && (hotItems host db filter limit cursor).length < limit

def beforeCursor (item : AccessLogItem) : Bool :=
  cursor.all fun cursor => cursor.source ≠ .cold || item.key < cursor.coldBound

/-- The items of a stream, up to the end of the page, with the rows of its last instant; and whether
the reading stopped there. -/
def scanCold (coldRemaining : ℕ) (coldItems : List AccessLogItem) : List AccessLogRow →
    List AccessLogItem × Bool
  | [] => (coldItems, false)
  | row :: rows =>
    if !filter.coldMatches host row then scanCold coldRemaining coldItems rows
    else if !beforeCursor cursor (toAccessLogItem row) then scanCold coldRemaining coldItems rows
    else if pageDone AccessLogItem.createdAt coldRemaining coldItems (toAccessLogItem row) then
      (coldItems, true)
    else scanCold coldRemaining (coldItems ++ [toAccessLogItem row]) rows

/-- A page from what the table and the stream gave. -/
def mergedPage (hotPage : Page AccessLogCursor AccessLogItem) (hotHasMore : Bool) (coldRemaining : ℕ)
    (coldItems : List AccessLogItem) (stoppedEarly : Bool) : Page AccessLogCursor AccessLogItem :=
  let coldPage := (Latest.sort AccessLogItem.key coldItems).take coldRemaining
  let coldHasMore := stoppedEarly || coldRemaining < coldItems.length
  { items := hotPage.items ++ coldPage
    nextCursor :=
      if coldHasMore && !coldPage.isEmpty then coldPage.getLast?.map buildColdCursor
      else if hotHasMore && coldPage.isEmpty then hotPage.items.getLast?.map buildHotCursor
      else none }

/-- The page, once the archived rows are read. A page that goes on in them fails with the read; any
other is then what the table gave. -/
def readCold (hotPage : Page AccessLogCursor AccessLogItem) (hotHasMore : Bool) (coldRemaining : ℕ)
    (stream : ColdStream) : Except ColdStoreError (Page AccessLogCursor AccessLogItem) :=
  match scanCold host filter cursor coldRemaining [] stream.rows, stream.error with
  | (_, false), some error => if resumesCold cursor then .error error else .ok hotPage
  | (coldItems, stoppedEarly), _ =>
    .ok (mergedPage hotPage hotHasMore coldRemaining coldItems stoppedEarly)

def loadAccessLogRange : Except ColdStoreError (Page AccessLogCursor AccessLogItem) :=
  match coldStore with
  | none => .ok (hotPage host db filter limit cursor)
  | some coldStore =>
    if !wantCold host db filter limit cursor || coldStore.warmCutoff ≤ filter.coldFromTs then
      .ok (hotPage host db filter limit cursor)
    else
      readCold host filter cursor (hotPage host db filter limit cursor)
        (hotHasMore host db filter limit cursor)
        (limit - (hotItems host db filter limit cursor).length)
        (coldStore.fetchRange (filter.coldRange coldStore.warmCutoff))

end

end Kici.AccessLog
