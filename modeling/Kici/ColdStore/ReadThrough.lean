import Kici.ColdStore.Chunk
import Kici.Foundation.MapConcurrent
import Kici.Foundation.System
import Mathlib.Data.List.Sort

/-!
# Reading through

Rows of a tenant and a range of time are read from the cold store: the manifests under the tenant's
prefix are listed, those of days outside the range are left out by their keys, the others are
fetched, those that do not overlap the range are left out, and the chunks of each day are loaded
(`fetchRange`). At most sixteen loads are in flight for the manifests and for each day, and at most
sixteen days are loaded ahead of the one that is read. Which load ends next is a choice of the
environment (`FetchAction`).

The order in which manifests are sorted is left to the runtime where two begin at the same instant,
as the comparison never calls them equal; it is any order here (`ReadHost.sortManifests`).
-/

namespace Kici.ColdStore

open ChunkKeyArgs

/-! ## What is stored -/

/-- The objects of a table: the manifests and the bodies under their keys. -/
structure ObjectStore (Body : Type) where
  manifests : List (JsString × ChunkManifest)
  bodies : List (JsString × Body)

namespace ObjectStore

variable {Body : Type} (objects : ObjectStore Body)

def keys : List JsString := objects.manifests.map Prod.fst ++ objects.bodies.map Prod.fst

/-- What lies under a key. -/
def lookup {α : Type} (l : List (JsString × α)) (key : JsString) : Option α :=
  (l.find? (·.1 = key)).map Prod.snd

end ObjectStore

inductive ColdStoreError
  /-- The storage has no such key. -/
  | noSuchKey (key : JsString)
  | thrown (message : JsString)

/-! ## The parts of a read -/

structure ReadHost (Row Body : Type) where
  codec : ChunkCodec Row Body
  adapter : RowAdapter Row
  sortManifests : List ChunkManifest → List ChunkManifest
  sortManifests_perm : ∀ manifests, (sortManifests manifests).Perm manifests

inductive ReadOrder
  | asc
  | desc

/-- The arguments of a read. -/
structure FetchRangeArgs where
  tenantId : JsString
  fromTs : ℤ
  /-- Exclusive. -/
  toTs : ℤ
  order : ReadOrder

def READ_THROUGH_CONCURRENCY : ℕ := 16

section
variable {Row Body : Type} (host : ReadHost Row Body) (store : TableStore) (objects : ObjectStore Body)
  (args : FetchRangeArgs)

/-- The day at the beginning of a key below a tenant: `<YYYY>/<MM>/<DD>/`. -/
def daySegment : JsString → Option JsString
  | y₁ :: y₂ :: y₃ :: y₄ :: s₁ :: m₁ :: m₂ :: s₂ :: d₁ :: d₂ :: s₃ :: _ =>
    if [y₁, y₂, y₃, y₄, m₁, m₂, d₁, d₂].all digit ∧ [s₁, s₂, s₃].all (· = slash) then
      some [y₁, y₂, y₃, y₄, hyphen, m₁, m₂, hyphen, d₁, d₂]
    else none
  | _ => none

def manifestKeys : List JsString :=
  objects.keys.filter fun key =>
    key.startsWith (store.tenantPrefix args.tenantId) && key.endsWith ChunkObjectKind.manifest.suffix

/-- Whether the day of a key is in the range; a key without a day is not left out here. -/
def dayInRange (key : JsString) : Bool :=
  match daySegment (key.drop (store.tenantPrefix args.tenantId).length) with
  | none => true
  | some day => (utcDay args.fromTs).Before day ∧ day.Before (utcDay (args.toTs - 1))

/-- The keys of the manifests that are fetched. -/
def candidateKeys : List JsString :=
  if (utcDay args.fromTs).Before (utcDay (args.toTs - 1)) then
    (manifestKeys store objects args).filter (dayInRange store args)
  else []

def getManifest (key : JsString) : Except ColdStoreError ChunkManifest :=
  match ObjectStore.lookup objects.manifests key with
  | some manifest => .ok manifest
  | none => .error (.noSuchKey key)

def getChunkData (key expectedHash : JsString) : Except ColdStoreError Body :=
  match ObjectStore.lookup objects.bodies key with
  | none => .error (.noSuchKey key)
  | some body =>
    if host.codec.sha256 body ≠ expectedHash then
      .error (.thrown (js "cold-store: chunk content-hash mismatch for " ++ key ++ js " (got " ++
        host.codec.sha256 body ++ js ", expected " ++ expectedHash ++ js ")"))
    else .ok body

/-- Whether a chunk overlaps the range. -/
def overlaps (manifest : ChunkManifest) : Bool :=
  ¬ manifest.maxTimestamp < args.fromTs ∧ ¬ args.toTs ≤ manifest.minTimestamp

/-- The manifests that overlap the range, of those that were fetched. -/
def relevantManifests (fetched : List ChunkManifest) : List ChunkManifest :=
  host.sortManifests (fetched.filter (overlaps args))

def inRange (row : Row) : Bool :=
  ¬ host.adapter.rowTimestamp row < args.fromTs ∧ ¬ args.toTs ≤ host.adapter.rowTimestamp row

/-- The rows of a chunk that are in the range. -/
def loadChunk (manifest : ChunkManifest) : Except ColdStoreError (List Row) :=
  match (store.keyArgs args.tenantId manifest.partitionDate manifest.bucket manifest.chunkId
    .data).chunkObjectKey with
  | .error message => .error (.thrown message)
  | .ok dataKey => do
    let gzipped ← getChunkData host objects dataKey manifest.contentHash
    .ok ((host.codec.decode gzipped).filter (inRange host args))

/-- The days of the manifests, in the order in which they are read. -/
def dayOrder (manifests : List ChunkManifest) : List JsString :=
  let days := ((manifests.map (·.partitionDate)).eraseDups).insertionSort JsString.Before
  match args.order with
  | .asc => days
  | .desc => days.reverse

/-- The manifests of a day, in the order in which they are loaded. -/
def dayManifests (manifests : List ChunkManifest) (day : JsString) : List ChunkManifest :=
  let list := manifests.filter (·.partitionDate = day)
  match args.order with
  | .asc => list
  | .desc => list.reverse

/-- Whether a row may stand before another. -/
def InOrder (order : ReadOrder) (row row' : Row) : Prop :=
  match order with
  | .asc => host.adapter.rowTimestamp row ≤ host.adapter.rowTimestamp row'
  | .desc => host.adapter.rowTimestamp row' ≤ host.adapter.rowTimestamp row

instance : (order : ReadOrder) → DecidableRel (InOrder host order)
  | .asc => fun row row' =>
    inferInstanceAs (Decidable (host.adapter.rowTimestamp row ≤ host.adapter.rowTimestamp row'))
  | .desc => fun row row' =>
    inferInstanceAs (Decidable (host.adapter.rowTimestamp row' ≤ host.adapter.rowTimestamp row))

/-- The rows of a day, sorted. -/
def dayRows (perChunk : List (List Row)) : List Row :=
  perChunk.flatten.insertionSort (InOrder host args.order)

/-! ## The read -/

/-- A day that is loaded. -/
structure DayLoad (Row : Type) where
  manifests : List ChunkManifest
  chunks : MapState (List Row) ColdStoreError

/-- A read: its manifests are fetched, or its days are loaded, or it has thrown. -/
inductive FetchState (Row : Type)
  | manifests (fetched : MapState ChunkManifest ColdStoreError)
  | days (relevant : List ChunkManifest) (nextDay : ℕ) (pending : List (DayLoad Row))
    (yielded : List Row)
  | thrown (error : ColdStoreError)

/-- A load ends, or the reader takes the first day. -/
inductive FetchAction
  | manifest (i : ℕ)
  | chunk (day i : ℕ)
  | consume

def startDay (relevant : List ChunkManifest) (day : JsString) : DayLoad Row where
  manifests := dayManifests args relevant day
  chunks := MapState.start READ_THROUGH_CONCURRENCY (dayManifests args relevant day)

/-- Days are loaded ahead, as far as there is room. -/
def fill (relevant : List ChunkManifest) (nextDay : ℕ) (pending : List (DayLoad Row))
    (yielded : List Row) : FetchState Row :=
  let next := ((dayOrder args relevant).drop nextDay).take (READ_THROUGH_CONCURRENCY - pending.length)
  .days relevant (nextDay + next.length) (pending ++ next.map (startDay args relevant)) yielded

/-- The days begin when all manifests are there. -/
def afterManifest (fetched : MapState ChunkManifest ColdStoreError) : FetchState Row :=
  match fetched.failed with
  | some error => .thrown error
  | none =>
    if fetched.inFlight = [] then fill args (relevantManifests host args (fetched.out.filterMap id))
      0 [] []
    else .manifests fetched

def startManifests : MapState ChunkManifest ColdStoreError :=
  MapState.start READ_THROUGH_CONCURRENCY (candidateKeys store objects args)

def fetchStep : FetchState Row → FetchAction → Option (FetchState Row)
  | .manifests fetched, .manifest i =>
    (fetched.complete (getManifest objects) (candidateKeys store objects args) i).map
      (afterManifest host args)
  | .days relevant nextDay pending yielded, .chunk day i =>
    match pending[day]? with
    | none => none
    | some load =>
      (load.chunks.complete (loadChunk host store objects args) load.manifests i).map fun chunks =>
        .days relevant nextDay (pending.set day { load with chunks }) yielded
  | .days relevant nextDay (load :: pending) yielded, .consume =>
    match load.chunks.failed with
    | some error => some (.thrown error)
    | none =>
      if load.chunks.inFlight = [] then
        some (fill args relevant nextDay pending
          (yielded ++ dayRows host args (load.chunks.out.filterMap id)))
      else none
  | _, _ => none

/-- `fetchRange`. -/
def fetchRange : System (FetchState Row) FetchAction where
  init := {afterManifest host args (startManifests store objects args)}
  step := fetchStep host store objects args

/-- The manifests of a read, which `hasRange` and `countRange` fetch as well. -/
def listRelevantManifests : System (MapState ChunkManifest ColdStoreError) ℕ where
  init := {startManifests store objects args}
  step := fun fetched i => fetched.complete (getManifest objects) (candidateKeys store objects args) i

def hasRange (fetched : MapState ChunkManifest ColdStoreError) : Bool :=
  0 < (relevantManifests host args (fetched.out.filterMap id)).length

def countRange (fetched : MapState ChunkManifest ColdStoreError) : ℕ :=
  (relevantManifests host args (fetched.out.filterMap id)).foldl
    (fun total manifest => total + manifest.rowCount) 0

end

namespace FetchState

variable {Row : Type}

/-- What the reader has been given. -/
def yielded : FetchState Row → List Row
  | days _ _ _ yielded => yielded
  | manifests _ | thrown _ => []

/-- Whether the reader has been given all. -/
def finished : FetchState Row → Bool
  | days _ _ pending _ => pending.isEmpty
  | manifests _ | thrown _ => false

end FetchState

end Kici.ColdStore
