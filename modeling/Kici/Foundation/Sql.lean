import Mathlib.Data.List.Basic

/-!
# Conditions of SQL

A condition of SQL is true, false or unknown: a comparison with `NULL` is unknown, and so is what
depends on it. A row is selected if the condition on it is true (`SqlBool.Holds`). When a condition
is false is another question (`SqlBool.Fails`), as `NOT` asks it; both are answered connective by
connective.

A column is an `Option`, of which `none` is `NULL`.
-/

namespace Kici

/-- A truth value of SQL. -/
inductive SqlBool
  | yes
  | no
  | unknown
  deriving DecidableEq

namespace SqlBool

variable {α ρ : Type*}

def ofBool : Bool → SqlBool
  | true => yes
  | false => no

/-- `NOT a`. -/
def not : SqlBool → SqlBool
  | yes => no
  | no => yes
  | unknown => unknown

/-- `a AND b`. -/
def and : SqlBool → SqlBool → SqlBool
  | no, _ | _, no => no
  | yes, yes => yes
  | _, _ => unknown

/-- `a OR b`. -/
def or : SqlBool → SqlBool → SqlBool
  | yes, _ | _, yes => yes
  | no, no => no
  | _, _ => unknown

/-- `a = b`. -/
def eq [DecidableEq α] : Option α → Option α → SqlBool
  | some a, some b => ofBool (a = b)
  | _, _ => unknown

/-- `a IN (values)`, of values that are not `NULL`. -/
def isIn [DecidableEq α] : Option α → List α → SqlBool
  | some a, values => ofBool (a ∈ values)
  | none, _ => unknown

/-- `a IS NULL`. -/
def isNull (a : Option α) : SqlBool := ofBool a.isNone

/-- `EXISTS (SELECT 1 FROM rows WHERE condition)`. -/
def existsRow (rows : List ρ) (condition : ρ → SqlBool) : SqlBool :=
  ofBool (rows.any fun row => condition row = yes)

/-- A row with the condition is selected. -/
def Holds (condition : SqlBool) : Prop := condition = yes

/-- A row with the negated condition is selected. -/
def Fails (condition : SqlBool) : Prop := condition = no

instance (condition : SqlBool) : Decidable condition.Holds := inferInstanceAs (Decidable (_ = _))

variable {a b : SqlBool} {x y : Option α} {values : List α} {rows : List ρ} {condition : ρ → SqlBool}

@[simp]
theorem holds_ofBool {b : Bool} : (ofBool b).Holds ↔ b = true := by cases b <;> simp [ofBool, Holds]

@[simp]
theorem fails_ofBool {b : Bool} : (ofBool b).Fails ↔ b = false := by cases b <;> simp [ofBool, Fails]

@[simp]
theorem holds_not : a.not.Holds ↔ a.Fails := by cases a <;> simp [not, Holds, Fails]

@[simp]
theorem fails_not : a.not.Fails ↔ a.Holds := by cases a <;> simp [not, Holds, Fails]

@[simp]
theorem holds_and : (a.and b).Holds ↔ a.Holds ∧ b.Holds := by cases a <;> cases b <;> decide

@[simp]
theorem fails_and : (a.and b).Fails ↔ a.Fails ∨
    b.Fails := by cases a <;> cases b <;> simp only [Fails] <;> decide

@[simp]
theorem holds_or : (a.or b).Holds ↔ a.Holds ∨ b.Holds := by cases a <;> cases b <;> decide

@[simp]
theorem fails_or : (a.or b).Fails ↔ a.Fails ∧
    b.Fails := by cases a <;> cases b <;> simp only [Fails] <;> decide

section

variable [DecidableEq α]

/-- Nothing is equal to `NULL`. -/
@[simp]
theorem holds_eq : (eq x y).Holds ↔ ∃ v, x = some v ∧ y = some v := by
  rcases x with - | u
  · simp [eq, Holds]
  · rcases y with - | v
    · simp [eq, Holds]
    · simp [eq, eq_comm]

/-- `NULL` is in no list, and is not outside of one either. -/
@[simp]
theorem fails_isIn : (isIn x values).Fails ↔ ∃ v, x = some v ∧ v ∉ values := by
  cases x with
  | none => simp [isIn, Fails]
  | some v => simp [isIn]

end

@[simp]
theorem holds_isNull : (isNull x).Holds ↔ x = none := by simp [isNull]

@[simp]
theorem fails_isNull : (isNull x).Fails ↔ ∃ v, x = some v := by
  rw [isNull, fails_ofBool, Option.isNone_eq_false_iff, Option.isSome_iff_exists]

@[simp]
theorem fails_existsRow : (existsRow rows condition).Fails ↔ ∀ row ∈ rows, ¬ (condition row).Holds := by
  rw [existsRow, fails_ofBool, List.any_eq_false]
  simp [Holds]

end SqlBool

end Kici
