import Kici.Js.Str
import Mathlib.Algebra.Order.Ring.Int
import Mathlib.Data.List.Lex

/-!
# Days

An instant is a number of milliseconds, and lies in a day of the Gregorian calendar (`yearFromDay`,
`monthDate`), whose text is compared code unit by code unit (`JsString.Before`). A year before 0 or
after 9999 is written with a sign and six digits, so that the first ten code units of a text are the
day only in the years between (`utcDay`).

In these years a later instant has a later day or the same one (`utcDay_mono`). A year after 9999 is
written before any of them, with its sign (`utcDay_of_late`), and so is one before 0
(`utcDay_of_early`).
-/

namespace Kici

open List

variable {d d' : ℤ}

/-! ## The order of texts -/

namespace JsString

/-- `s <= t`: the order of the code units. -/
def Before (s t : JsString) : Prop := s.map UInt16.toNat ≤ t.map UInt16.toNat

instance : DecidableRel Before :=
  fun s t => inferInstanceAs (Decidable (s.map UInt16.toNat ≤ t.map UInt16.toNat))

theorem Before.trans {s t u : JsString} (h : s.Before t) (h' : t.Before u) : s.Before u := le_trans h h'

theorem Before.total (s t : JsString) : s.Before t ∨ t.Before s := le_total _ _

theorem Before.antisymm {s t : JsString} (h : s.Before t) (h' : t.Before s) : s = t :=
  map_injective_iff.2 (fun _ _ => UInt16.toNat_inj.1) (le_antisymm h h')

instance : Std.Total Before := ⟨Before.total⟩

instance : IsTrans JsString Before := ⟨fun _ _ _ => Before.trans⟩

end JsString

/-- Where the first parts are in order, so are the texts. -/
theorem append_lt_append {s t : List ℕ} (hlength : s.length = t.length) (h : s < t) (u v : List ℕ) :
    s ++ u < t ++ v := by
  induction s generalizing t with
  | nil =>
    obtain rfl := eq_nil_of_length_eq_zero hlength.symm
    exact absurd h (lt_irrefl _)
  | cons a s ih =>
    cases t with
    | nil => cases hlength
    | cons b t =>
      rw [cons_append, cons_append]
      rcases cons_lt_cons_iff.1 h with hlt | ⟨rfl, hlt⟩
      · exact cons_lt_cons_iff.2 (.inl hlt)
      · exact cons_lt_cons_iff.2 (.inr ⟨rfl, ih (Nat.succ.inj hlength) hlt⟩)

theorem append_lt_append_left {u v : List ℕ} (s : List ℕ) (h : u < v) : s ++ u < s ++ v := by
  induction s with
  | nil => exact h
  | cons a s ih => exact cons_lt_cons_iff.2 (.inr ⟨rfl, ih⟩)

/-! ## Numbers of a fixed width -/

/-- The digits of a number, with zeros before it. -/
def padded : (width n : ℕ) → List ℕ
  | 0, _ => []
  | width + 1, n => padded width (n / 10) ++ [0x30 + n % 10]

theorem length_padded (width n : ℕ) : (padded width n).length = width := by
  induction width generalizing n with
  | zero => rfl
  | succ width ih => rw [padded, length_append, ih, length_singleton]

theorem padded_lt {width m n : ℕ} (hmn : m < n) (hn : n < 10 ^ width) :
    padded width m < padded width n := by
  induction width generalizing m n with
  | zero => omega
  | succ width ih =>
    rw [padded, padded]
    rcases Nat.lt_or_ge (m / 10) (n / 10) with hlt | hge
    · have hbound : n / 10 < 10 ^ width := by
        rw [pow_succ] at hn
        omega
      exact append_lt_append (by rw [length_padded, length_padded]) (ih hlt hbound) _ _
    · have heq : m / 10 = n / 10 := by omega
      rw [heq]
      refine append_lt_append_left _ (cons_lt_cons_iff.2 (.inl ?_))
      omega

/-! ## The calendar -/

def msPerDay : ℤ := 86400000

/-- The first day of a year. -/
def dayFromYear (y : ℤ) : ℤ := 365 * (y - 1970) + (y - 1969) / 4 - (y - 1901) / 100 + (y - 1601) / 400

theorem dayFromYear_lt {y y' : ℤ} (h : y < y') : dayFromYear y < dayFromYear y' := by
  rw [dayFromYear, dayFromYear]
  omega

/-- The year of a day: the one of its share of four centuries, or one beside it. -/
def yearFromDay (d : ℤ) : ℤ :=
  let y := 1970 + d * 400 / 146097
  if d < dayFromYear y then y - 1 else if d < dayFromYear (y + 1) then y else y + 1

theorem yearFromDay_spec (d : ℤ) : dayFromYear (yearFromDay d) ≤ d ∧
    d < dayFromYear (yearFromDay d + 1) := by
  have hbefore : dayFromYear (1970 + d * 400 / 146097 - 1) ≤ d := by
    rw [dayFromYear]
    omega
  have hafter : d < dayFromYear (1970 + d * 400 / 146097 + 1 + 1) := by
    rw [dayFromYear]
    omega
  rw [yearFromDay]
  split
  next hlt => exact ⟨hbefore, by rwa [Int.sub_add_cancel]⟩
  next hge =>
    split
    next hlt => exact ⟨not_lt.1 hge, hlt⟩
    next hge => exact ⟨not_lt.1 hge, hafter⟩

theorem yearFromDay_mono (h : d ≤ d') : yearFromDay d ≤ yearFromDay d' := by
  by_contra hlt
  have hle : yearFromDay d' + 1 ≤ yearFromDay d := not_le.1 hlt
  have hspec := (yearFromDay_spec d).1
  have hspec' := (yearFromDay_spec d').2
  rcases eq_or_lt_of_le hle with heq | hlt
  · rw [heq] at hspec'
    omega
  · have hyears := dayFromYear_lt hlt
    omega

/-- The lengths of the months of a year, but for the last. -/
def monthLengths (leap : ℤ) : List ℤ := [31, 28 + leap, 31, 30, 31, 30, 31, 31, 30, 31, 30]

/-- The month and the date of a day, counted from the beginning of a month. -/
def monthDate (month : ℕ) (n : ℤ) : List ℤ → ℕ × ℕ
  | [] => (month, (n + 1).toNat)
  | length :: lengths =>
    if n < length then (month, (n + 1).toNat) else monthDate (month + 1) (n - length) lengths

theorem le_monthDate (month : ℕ) (n : ℤ) (lengths : List ℤ) : month ≤ (monthDate month n lengths).1 := by
  induction lengths generalizing month n with
  | nil => exact le_rfl
  | cons length lengths ih =>
    rw [monthDate]
    split
    · exact le_rfl
    · exact (Nat.le_succ month).trans (ih _ _)

/-- A later day has a later month, or the same one and a later date. -/
theorem monthDate_mono {n n' : ℤ} (h : n ≤ n') (month : ℕ) (lengths : List ℤ) :
    (monthDate month n lengths).1 < (monthDate month n' lengths).1 ∨
      (monthDate month n lengths).1 = (monthDate month n' lengths).1 ∧
        (monthDate month n lengths).2 ≤ (monthDate month n' lengths).2 := by
  induction lengths generalizing month n n' with
  | nil => exact .inr ⟨rfl, Int.toNat_le_toNat (by omega)⟩
  | cons length lengths ih =>
    rw [monthDate, monthDate]
    split
    next hlt =>
      split
      next => exact .inr ⟨rfl, Int.toNat_le_toNat (by omega)⟩
      next => exact .inl (Nat.lt_of_succ_le (le_monthDate _ _ _))
    next hge =>
      rw [if_neg (by omega)]
      exact ih (by omega) _

/-- As many months as lengths come before the last, and none has more than 31 days. -/
theorem monthDate_le {n : ℤ} (month : ℕ) {lengths : List ℤ} (hlengths : ∀ length ∈ lengths, length ≤ 31)
    (hn : n < lengths.foldr (· + ·) 31) :
    (monthDate month n lengths).1 ≤ month + lengths.length ∧ (monthDate month n lengths).2 ≤ 31 := by
  induction lengths generalizing month n with
  | nil =>
    rw [foldr_nil] at hn
    refine ⟨le_rfl, ?_⟩
    rw [monthDate]
    omega
  | cons length lengths ih =>
    obtain ⟨hlength, hlengths⟩ := forall_mem_cons.1 hlengths
    rw [foldr_cons] at hn
    rw [monthDate, length_cons]
    split
    next hlt => exact ⟨by omega, by omega⟩
    next hge =>
      obtain ⟨hmonth, hdate⟩ :=
        ih (month + 1) hlengths (by omega : n - length < lengths.foldr (· + ·) 31)
      exact ⟨by omega, hdate⟩

/-- The month and the date of a day within its year. -/
def monthDateFromDay (d : ℤ) : ℕ × ℕ :=
  let y := yearFromDay d
  monthDate 1 (d - dayFromYear y) (monthLengths (dayFromYear (y + 1) - dayFromYear y - 365))

theorem monthDateFromDay_bounds (d : ℤ) : (monthDateFromDay d).1 ≤ 12 ∧ (monthDateFromDay d).2 ≤ 31 := by
  have hspec := (yearFromDay_spec d).2
  have hleap : dayFromYear (yearFromDay d + 1) - dayFromYear (yearFromDay d) - 365 ≤ 1 := by
    rw [dayFromYear, dayFromYear]
    omega
  refine monthDate_le 1 (fun length hmem => ?_) ?_
  · simp only [monthLengths, mem_cons, not_mem_nil, or_false] at hmem
    omega
  · simp only [monthLengths, foldr_cons, foldr_nil]
    omega

/-- Within a year a later day has a later month, or the same one and a later date. -/
theorem monthDateFromDay_mono (h : d ≤ d') (hyear : yearFromDay d = yearFromDay d') :
    (monthDateFromDay d).1 < (monthDateFromDay d').1 ∨
      (monthDateFromDay d).1 = (monthDateFromDay d').1 ∧
      (monthDateFromDay d).2 ≤ (monthDateFromDay d').2 := by
  rw [monthDateFromDay, monthDateFromDay, hyear]
  exact monthDate_mono (Int.sub_le_sub_right h _) _ _

/-! ## Texts of days -/

def hyphenUnit : ℕ := 0x2D

/-- The year of a date: four digits, or a sign and six. -/
def yearText (y : ℤ) : List ℕ :=
  if 0 ≤ y ∧ y ≤ 9999 then padded 4 y.toNat
  else (if y < 0 then hyphenUnit else 0x2B) :: padded 6 y.natAbs

/-- The date of `toISOString()`. -/
def dateText (d : ℤ) : List ℕ :=
  yearText (yearFromDay d) ++ hyphenUnit :: padded 2 (monthDateFromDay d).1 ++
    hyphenUnit :: padded 2 (monthDateFromDay d).2

/-- The year of an instant. -/
def utcYear (t : ℤ) : ℤ := yearFromDay (t / msPerDay)

/-- The first ten code units of an instant. -/
def utcDay (t : ℤ) : JsString := ((dateText (t / msPerDay)).take 10).map Nat.toUInt16

/-- In the years that are written with four digits, the text of a later day is later. -/
theorem dateText_mono (h : d ≤ d') (hd : 0 ≤ yearFromDay d) (hd' : yearFromDay d' ≤ 9999) :
    dateText d ≤ dateText d' := by
  have hyears := yearFromDay_mono h
  have hyear : yearText (yearFromDay d) = padded 4 (yearFromDay d).toNat := if_pos ⟨hd, hyears.trans hd'⟩
  have hyear' : yearText (yearFromDay d') = padded 4 (yearFromDay d').toNat :=
    if_pos ⟨hd.trans hyears, hd'⟩
  obtain ⟨hmonth, hdate⟩ := monthDateFromDay_bounds d'
  have hlength : ∀ width m n, (padded width m).length = (padded width n).length := fun width m n => by
    rw [length_padded, length_padded]
  rw [dateText, dateText, hyear, hyear', append_assoc, append_assoc]
  rcases eq_or_lt_of_le hyears with hsame | hlt
  · -- Within a year the month decides, and within a month the date.
    rw [hsame, cons_append, cons_append]
    rcases monthDateFromDay_mono h hsame with hlt | ⟨heq, hle⟩
    · exact (append_lt_append_left _ (cons_lt_cons_iff.2 (.inr ⟨rfl, append_lt_append (hlength _ _ _)
        (padded_lt hlt (by omega)) _ _⟩))).le
    · rw [heq]
      rcases eq_or_lt_of_le hle with hdates | hlt
      · rw [hdates]
      · exact (append_lt_append_left _ (cons_lt_cons_iff.2 (.inr ⟨rfl, append_lt_append_left _
          (cons_lt_cons_iff.2 (.inr ⟨rfl, padded_lt hlt (by omega)⟩))⟩))).le
  · exact (append_lt_append (hlength _ _ _) (padded_lt (by omega) (by omega)) _ _).le

theorem toNat_of_mem_padded {width n unit : ℕ} (h : unit ∈ padded width n) : 0x30 ≤ unit ∧
    unit < 0x3A := by
  induction width generalizing n with
  | zero => cases h
  | succ width ih =>
    rcases mem_append.1 h with hmem | hmem
    · exact ih hmem
    · rw [mem_singleton.1 hmem]
      omega

/-- The texts of days are of small units. -/
theorem lt_of_mem_dateText {d : ℤ} {unit : ℕ} (h : unit ∈ dateText d) : unit < 0x3A := by
  have hyear : ∀ unit ∈ yearText (yearFromDay d), unit < 0x3A := by
    intro unit hmem
    rw [yearText] at hmem
    split at hmem
    · exact (toNat_of_mem_padded hmem).2
    · rcases mem_cons.1 hmem with rfl | hmem
      · split <;> decide
      · exact (toNat_of_mem_padded hmem).2
  rw [dateText, append_assoc] at h
  rcases mem_append.1 h with hmem | hmem
  · exact hyear unit hmem
  · rcases mem_append.1 hmem with hmem | hmem
    · rcases mem_cons.1 hmem with rfl | hmem
      · decide
      · exact (toNat_of_mem_padded hmem).2
    · rcases mem_cons.1 hmem with rfl | hmem
      · decide
      · exact (toNat_of_mem_padded hmem).2

/-- The numbers of the code units of a day. -/
theorem map_toNat_utcDay (t : ℤ) : (utcDay t).map UInt16.toNat = (dateText (t / msPerDay)).take 10 := by
  rw [utcDay, List.map_map]
  refine (map_congr_left fun unit hmem => ?_).trans (List.map_id _)
  have hlt := lt_of_mem_dateText (mem_of_mem_take hmem)
  have hunit : unit.toUInt16.toNat = unit := by
    rw [Nat.toUInt16_eq, UInt16.toNat_ofNat']
    omega
  exact hunit

theorem yearText_of_four {y : ℤ} (h : 0 ≤ y) (h' : y ≤ 9999) : yearText y = padded 4 y.toNat :=
  if_pos ⟨h, h'⟩

theorem length_dateText {d : ℤ} (h : 0 ≤ yearFromDay d) (h' : yearFromDay d ≤ 9999) :
    (dateText d).length = 10 := by
  rw [dateText, yearText_of_four h h', length_append, length_append, length_cons, length_cons,
    length_padded, length_padded, length_padded]

variable {t t' : ℤ}

/-- A later instant has a later day or the same one. -/
theorem utcDay_mono (h : t ≤ t') (ht : 0 ≤ utcYear t) (ht' : utcYear t' ≤ 9999) :
    (utcDay t).Before (utcDay t') := by
  have hdays : t / msPerDay ≤ t' / msPerDay := Int.ediv_le_ediv (by decide) h
  have hyears : utcYear t ≤ utcYear t' := yearFromDay_mono hdays
  rw [JsString.Before, map_toNat_utcDay, map_toNat_utcDay,
    take_of_length_le (length_dateText ht (hyears.trans ht')).le,
    take_of_length_le (length_dateText (ht.trans hyears) ht').le]
  exact dateText_mono hdays ht ht'

/-- The first code unit of a day: a digit, or a sign. -/
theorem utcDay_head (t : ℤ) : ∃ c rest, utcDay t = c :: rest ∧
    (0 ≤ utcYear t → utcYear t ≤ 9999 → 0x30 ≤ c.toNat) ∧ (utcYear t < 0 → c = 0x2D) ∧
    (9999 < utcYear t → c = 0x2B) := by
  obtain ⟨unit, units, hunits⟩ : ∃ unit units, yearText (utcYear t) = unit :: units := by
    rw [yearText]
    split
    · exact exists_cons_of_ne_nil (ne_nil_of_length_pos (by rw [length_padded]; decide))
    · exact ⟨_, _, rfl⟩
  have hyear : yearText (yearFromDay (t / msPerDay)) = unit :: units := hunits
  refine ⟨unit.toUInt16, _, by rw [utcDay, dateText, hyear]; rfl, fun h h' => ?_, fun h =>
    ?_, fun h => ?_⟩
  · have hmem : unit ∈ padded 4 (utcYear t).toNat := by
      rw [← yearText_of_four h h', hunits]
      exact mem_cons_self
    have hdigit := toNat_of_mem_padded hmem
    rw [Nat.toUInt16_eq, UInt16.toNat_ofNat']
    omega
  · rw [yearText, if_neg (by omega), if_pos h] at hunits
    rw [← (List.cons.inj hunits).1]
    rfl
  · rw [yearText, if_neg (by omega), if_neg (by omega)] at hunits
    rw [← (List.cons.inj hunits).1]
    rfl

theorem before_of_lt {c c' : UInt16} (h : c.toNat < c'.toNat) (s s' : JsString) :
    JsString.Before (c :: s) (c' :: s') ∧ ¬ JsString.Before (c' :: s') (c :: s) := by
  have hlt : (c :: s).map UInt16.toNat < (c' :: s').map UInt16.toNat := cons_lt_cons_iff.2 (.inl h)
  exact ⟨hlt.le, hlt.not_ge⟩

/-- A day before the year 0 is before those of years with four digits. -/
theorem utcDay_of_early (ht : utcYear t < 0) (h : 0 ≤ utcYear t') (h' : utcYear t' ≤ 9999) :
    (utcDay t).Before (utcDay t') := by
  obtain ⟨c, rest, hday, -, hearly, -⟩ := utcDay_head t
  obtain ⟨c', rest', hday', hdigit, -, -⟩ := utcDay_head t'
  rw [hday, hday', hearly ht]
  have hlt : UInt16.toNat 0x2D < c'.toNat := lt_of_lt_of_le (by decide) (hdigit h h')
  exact (before_of_lt hlt rest rest').1

/-- A day after the year 9999 is before all that are not. -/
theorem utcDay_of_late (ht : utcYear t ≤ 9999) (h : 9999 < utcYear t') :
    ¬ (utcDay t).Before (utcDay t') := by
  obtain ⟨c, rest, hday, hdigit, hearly, -⟩ := utcDay_head t
  obtain ⟨c', rest', hday', -, -, hlate⟩ := utcDay_head t'
  rw [hday, hday', hlate h]
  rcases lt_or_ge (utcYear t) 0 with hneg | hpos
  · rw [hearly hneg]
    exact (before_of_lt (by decide) rest' rest).2
  · have hlt : UInt16.toNat 0x2B < c.toNat := lt_of_lt_of_le (by decide) (hdigit hpos ht)
    exact (before_of_lt hlt rest' rest).2

/-- The days of two instants of 2026, and the first that is written with a sign. -/
example : utcDay 1777032000000 = js "2026-04-24" ∧ utcDay 253402300800000 = js "+010000-01" := by decide

end Kici
