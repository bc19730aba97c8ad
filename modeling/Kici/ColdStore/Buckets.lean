import Kici.ColdStore.Chunk
import Kici.Foundation.Except
import Mathlib.Data.Rat.Floor

/-!
# Rows of like retention

The rows of a table that says how long each is to be kept are put in buckets by that time
(`coldDaysToBucket`), and each bucket becomes a chunk. A bucket is a range of times, and what is
written down of a chunk is the longest of those of its rows (`isLongerColdRetention`), which is thus
as long as each of them (`atLeast_maxColdDays`).

When that time is over is for Postgres to say, which adds days to an instant: calendar days in the
time zone of the session. In UTC they are whole days up to a microsecond (`UtcSession`), and as the
comparison is strict, nothing is over early there (`days_lt_of_dayInterval_lt`).
-/

namespace Kici.ColdStore

open List

variable {addDays : ℤ → Rat → ℤ}

/-- For how many days after it was archived a row is kept. -/
inductive ColdRetention
  | days (n : Rat)
  | forever

namespace ColdRetention

/-- `isLongerColdRetention(a, b)`. -/
def isLonger : ColdRetention → ColdRetention → Bool
  | .forever, .forever => false
  | .forever, .days _ => true
  | .days _, .forever => false
  | .days a, .days b => b < a

/-- Whoever is kept for one of the times is kept for the other. -/
def AtLeast : ColdRetention → ColdRetention → Prop
  | .forever, _ => True
  | .days _, .forever => False
  | .days longer, .days n => n ≤ longer

end ColdRetention

/-- The bucket of a time, with the text of a number. -/
def coldDaysToBucket (numberText : Rat → JsString) : ColdRetention → Except JsString JsString
  | .forever => .ok (js "forever")
  | .days n =>
    if n ≤ 0 then
      .error (js "coldDaysToBucket: invalid retention value " ++ numberText n ++
        js " — expected a positive finite number or 'forever'. " ++
        js "Engine retention policy returned undefined for an unknown action; " ++
        js "ensure the policy has a fallback.")
    else if n ≤ 30 then .ok (js "30d")
    else if n ≤ 180 then .ok (js "180d")
    else if n ≤ 365 then .ok (js "1y")
    else if n ≤ 730 then .ok (js "2y")
    else .ok (numberText n ++ js "d")

def microsecondsPerDay : ℤ := 86400000000

/-- `(days || ' days')::interval`, in microseconds: the nearest number of them, and the even one of
two. -/
def dayInterval (days : Rat) : ℤ :=
  let exact := days * microsecondsPerDay
  let below := exact.floor
  if exact - below < 1 / 2 then below
  else if 1 / 2 < exact - below then below + 1
  else if below % 2 = 0 then below
  else below + 1

/-- The time has passed since the row was archived. -/
def ColdRetention.HasPassed (archivedAt now : ℤ) : ColdRetention → Prop
  | .days n => n * microsecondsPerDay < ((now - archivedAt : ℤ) : Rat)
  | .forever => False

/-- `archived_at + (days || ' days')::interval` in a session whose time zone is UTC. -/
def UtcSession (addDays : ℤ → Rat → ℤ) : Prop :=
  ∀ archivedAt days, addDays archivedAt days = archivedAt + dayInterval days

/-- `max_cold_days != 'forever' AND archived_at + (max_cold_days || ' days')::interval < now()` -/
def ColdRetention.isOver (addDays : ℤ → Rat → ℤ) (archivedAt now : ℤ) : ColdRetention → Bool
  | .days n => addDays archivedAt n < now
  | .forever => false

/-- A map entry of `archivePartitionBucketed`. -/
structure BucketRows (Row : Type) where
  bucket : JsString
  maxColdDays : ColdRetention
  first : Row
  rest : List Row

section
variable {Row : Type}

def BucketRows.rows (entry : BucketRows Row) : List Row := entry.first :: entry.rest

/-- A row goes to the entry of its bucket, or begins one. -/
def bufferInto (bucket : JsString) (ttl : ColdRetention) (row : Row) : List (BucketRows Row) →
    List (BucketRows Row)
  | [] => [⟨bucket, ttl, row, []⟩]
  | entry :: entries =>
    if entry.bucket = bucket then
      { entry with
        rest := entry.rest ++ [row]
        maxColdDays := if ttl.isLonger entry.maxColdDays then ttl else entry.maxColdDays } :: entries
    else entry :: bufferInto bucket ttl row entries

variable (numberText : Rat → JsString) (coldTtlDays : Row → ColdRetention)

/-- The rows in buckets; it throws at the first whose time is invalid. -/
def bufferRows (rows : List Row) : Except JsString (List (BucketRows Row)) :=
  rows.foldlM (fun entries row => do
    let bucket ← coldDaysToBucket numberText (coldTtlDays row)
    return bufferInto bucket (coldTtlDays row) row entries) []

end

/-! ## How long a bucket is kept -/

namespace ColdRetention

variable {a b c : ColdRetention}

theorem atLeast_refl (a : ColdRetention) : a.AtLeast a := by
  cases a with
  | days n => exact le_refl n
  | forever => trivial

theorem AtLeast.trans (hab : a.AtLeast b) (hbc : b.AtLeast c) : a.AtLeast c := by
  cases a with
  | forever => trivial
  | days n =>
    cases b with
    | forever => exact hab.elim
    | days m =>
      cases c with
      | forever => exact hbc.elim
      | days k => exact le_trans hbc hab

theorem atLeast_of_isLonger (h : a.isLonger b) : a.AtLeast b := by
  cases a with
  | forever => trivial
  | days n =>
    cases b with
    | forever => cases h
    | days m => exact le_of_lt (of_decide_eq_true h)

theorem atLeast_of_not_isLonger (h : a.isLonger b = false) : b.AtLeast a := by
  cases b with
  | forever => trivial
  | days m =>
    cases a with
    | forever => cases h
    | days n => exact not_lt.1 (of_decide_eq_false h)

/-- What is over for the longer time is over for the other. -/
theorem HasPassed.of_atLeast {archivedAt now : ℤ} (h : a.HasPassed archivedAt now) (hab : a.AtLeast b) :
    b.HasPassed archivedAt now := by
  cases a with
  | forever => exact h.elim
  | days n =>
    cases b with
    | forever => exact hab.elim
    | days m => exact lt_of_le_of_lt (mul_le_mul_of_nonneg_right hab (by decide)) h

theorem isOver_mono {archivedAt now now' : ℤ}
    (h : a.isOver addDays archivedAt now) (hnow : now ≤ now') :
    a.isOver addDays archivedAt now' := by
  cases a with
  | forever => exact h
  | days n => exact decide_eq_true (lt_of_lt_of_le (of_decide_eq_true h) hnow)

end ColdRetention

/-- An interval is at most half a microsecond short. -/
theorem le_dayInterval (days : Rat) : days * microsecondsPerDay ≤ dayInterval days + 1 / 2 := by
  have hfloor : days * microsecondsPerDay < ((days * microsecondsPerDay).floor : Rat) + 1 :=
    Int.lt_floor_add_one _
  rw [dayInterval]
  split
  · linarith
  · split
    · push_cast
      linarith
    · split
      · linarith
      · push_cast
        linarith

theorem days_lt_of_dayInterval_lt {days : Rat} {elapsed : ℤ} (h : dayInterval days < elapsed) :
    days * microsecondsPerDay < elapsed := by
  have hnext : ((dayInterval days + 1 : ℤ) : Rat) ≤ elapsed := Int.cast_le.2 h
  push_cast at hnext
  linarith [le_dayInterval days]

/-- Postgres finds nothing whose time is not over. -/
theorem hasPassed_of_isOver (hutc : UtcSession addDays)
    {retention : ColdRetention} {archivedAt now : ℤ}
    (h : retention.isOver addDays archivedAt now) : retention.HasPassed archivedAt now := by
  cases retention with
  | forever => cases h
  | days n =>
    refine days_lt_of_dayInterval_lt ?_
    have hlt : addDays archivedAt n < now := of_decide_eq_true h
    rw [hutc] at hlt
    omega

/-! ## What is in the buckets -/

section
variable {Row : Type} {numberText : Rat → JsString} {coldTtlDays : Row → ColdRetention}

theorem perm_bufferInto (bucket : JsString) (ttl : ColdRetention) (row : Row)
    (entries : List (BucketRows Row)) :
    ((bufferInto bucket ttl row entries).flatMap (·.rows)).Perm (entries.flatMap (·.rows) ++ [row]) := by
  induction entries with
  | nil => exact .refl _
  | cons entry entries ih =>
    rw [bufferInto]
    split
    · -- The row goes to the end of this entry, before the rows of the others.
      rw [flatMap_cons, flatMap_cons]
      have hmoved : ((entry.rows ++ [row]) ++ entries.flatMap (·.rows)).Perm
          (entry.rows ++ (entries.flatMap (·.rows) ++ [row])) := by
        rw [append_assoc]
        exact perm_append_comm.append_left _
      rw [append_assoc]
      exact hmoved
    · rw [flatMap_cons, flatMap_cons, append_assoc]
      exact ih.append_left _

/-- The entries are kept for as long as each of their rows, and their buckets have names. -/
structure Covers (coldTtlDays : Row → ColdRetention) (entry : BucketRows Row) : Prop where
  atLeast : ∀ row ∈ entry.rows, entry.maxColdDays.AtLeast (coldTtlDays row)
  bucket : entry.bucket ≠ []

variable {entries : List (BucketRows Row)}

theorem covers_bufferInto {bucket : JsString} (hbucket : bucket ≠ []) {row : Row}
    (h : ∀ entry ∈ entries, Covers coldTtlDays entry) :
    ∀ entry ∈ bufferInto bucket (coldTtlDays row) row entries, Covers coldTtlDays entry := by
  induction entries with
  | nil =>
    intro entry hentry
    rw [mem_singleton.1 hentry]
    refine ⟨fun row' hrow' => ?_, hbucket⟩
    rw [mem_singleton.1 hrow']
    exact ColdRetention.atLeast_refl _
  | cons first entries ih =>
    obtain ⟨hfirst, hentries⟩ := forall_mem_cons.1 h
    rw [bufferInto]
    split
    · refine forall_mem_cons.2 ⟨⟨fun row' hrow' => ?_, hfirst.bucket⟩, hentries⟩
      rcases mem_append.1 (show row' ∈ first.rows ++ [row] from hrow') with hold | hnew
      · have hatLeast := hfirst.atLeast row' hold
        dsimp only
        split
        next hlonger => exact (ColdRetention.atLeast_of_isLonger hlonger).trans hatLeast
        · exact hatLeast
      · rw [mem_singleton.1 hnew]
        dsimp only
        split
        · exact ColdRetention.atLeast_refl _
        next hnot => exact ColdRetention.atLeast_of_not_isLonger (Bool.eq_false_iff.2 hnot)
    · exact forall_mem_cons.2 ⟨hfirst, ih hentries⟩

theorem bucket_ne_nil {ttl : ColdRetention} {bucket : JsString}
    (h : coldDaysToBucket numberText ttl = .ok bucket) : bucket ≠ [] := by
  cases ttl with
  | forever =>
    cases h
    decide
  | days n =>
    rw [coldDaysToBucket] at h
    split at h
    · cases h
    iterate 4
      split at h
      · cases h
        decide
    cases h
    exact append_ne_nil_of_right_ne_nil _ (by decide)

/-- The rows are in the buckets, each once, and each bucket is kept for as long as each of its
rows. -/
theorem bufferRows_spec {rows : List Row}
    (h : bufferRows numberText coldTtlDays rows = .ok entries) :
    (entries.flatMap (·.rows)).Perm rows ∧ ∀ entry ∈ entries, Covers coldTtlDays entry := by
  have hfold : ∀ (rows : List Row) (before entries : List (BucketRows Row)),
      (∀ entry ∈ before, Covers coldTtlDays entry) →
      rows.foldlM (fun entries row => do
        let bucket ← coldDaysToBucket numberText (coldTtlDays row)
        return bufferInto bucket (coldTtlDays row) row entries) before = .ok entries →
      (entries.flatMap (·.rows)).Perm (before.flatMap (·.rows) ++ rows) ∧
        ∀ entry ∈ entries, Covers coldTtlDays entry := by
    intro rows
    induction rows with
    | nil =>
      intro before entries hbefore hfold
      cases hfold
      rw [append_nil]
      exact ⟨.refl _, hbefore⟩
    | cons row rows ih =>
      intro before entries hbefore hfold
      rw [foldlM_cons] at hfold
      obtain ⟨next, hnext, hfold⟩ := bind_eq_ok hfold
      obtain ⟨bucket, hbucket, hnext⟩ := bind_eq_ok hnext
      cases hnext
      obtain ⟨hperm, hcovers⟩ := ih _ _ (covers_bufferInto (bucket_ne_nil hbucket) hbefore) hfold
      refine ⟨hperm.trans ?_, hcovers⟩
      have hmoved := (perm_bufferInto bucket (coldTtlDays row) row before).append_right rows
      rw [append_assoc] at hmoved
      exact hmoved
  exact hfold rows [] entries (fun _ hentry => absurd hentry not_mem_nil) h

end

end Kici.ColdStore
