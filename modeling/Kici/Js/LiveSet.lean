import Mathlib.Data.List.Basic

/-!
# Sets that change while they are walked

A `Set` of the JavaScript runtime can be walked while it changes: a value that is deleted leaves a
hole, one that is added comes last, and the walk goes on with the first value from where it is
(`LiveSet.nextFrom`). So what a walk has before it (`LiveSet.Ahead`) are values that were before it
all the time, and those added since.
-/

namespace Kici

open List

/-- The values of a set in the order in which they were added, with holes for those that were
deleted. -/
structure LiveSet (α : Type*) where
  entries : List (Option α) := []

namespace LiveSet

variable {α : Type*} (s : LiveSet α) {i j : ℕ} {a b : α}

instance : Membership α (LiveSet α) := ⟨fun s a => some a ∈ s.entries⟩

/-- The walk has the value before it, as it is at position `i`. -/
def Ahead (i : ℕ) (a : α) : Prop := some a ∈ s.entries.drop i

/-- The first value from among entries, the first of which is at position `i`. -/
def firstOf : List (Option α) → ℕ → Option (ℕ × α)
  | [], _ => none
  | some a :: _, i => some (i, a)
  | none :: entries, i => firstOf entries (i + 1)

/-- The value a walk at position `i` comes to next, with its position. -/
def nextFrom (i : ℕ) : Option (ℕ × α) := firstOf (s.entries.drop i) i

/-- Whether the set has no values. -/
def isEmpty (s : LiveSet α) : Bool := s.entries.all (·.isNone)

variable {s}

theorem ahead_iff : s.Ahead i a ↔ ∃ j, i ≤ j ∧ s.entries[j]? = some (some a) := by
  constructor
  · intro h
    obtain ⟨k, hk⟩ := getElem?_of_mem h
    rw [getElem?_drop] at hk
    exact ⟨i + k, Nat.le_add_right i k, hk⟩
  · rintro ⟨j, hij, hj⟩
    refine mem_of_getElem? (i := j - i) ?_
    rw [getElem?_drop, Nat.add_sub_cancel' hij, hj]

theorem Ahead.mem (h : s.Ahead i a) : a ∈ s := mem_of_mem_drop h

theorem ahead_of_getElem? (h : s.entries[i]? = some (some a)) : s.Ahead i a :=
  ahead_iff.2 ⟨i, Nat.le_refl i, h⟩

/-- As the walk goes on, it has no more values before it. -/
theorem Ahead.mono (h : s.Ahead j a) (hij : i ≤ j) : s.Ahead i a := by
  obtain ⟨k, hjk, hk⟩ := ahead_iff.1 h
  exact ahead_iff.2 ⟨k, Nat.le_trans hij hjk, hk⟩

theorem firstOf_eq_some {entries : List (Option α)} (h : firstOf entries i = some (j, a)) :
    ∃ k, j = i + k ∧ entries[k]? = some (some a) := by
  induction entries generalizing i with
  | nil => cases h
  | cons entry entries ih =>
    cases entry with
    | some b =>
      cases h
      exact ⟨0, rfl, rfl⟩
    | none =>
      obtain ⟨k, rfl, hk⟩ := ih h
      exact ⟨k + 1, by omega, hk⟩

/-- A walk does not go back. -/
theorem le_of_nextFrom (h : s.nextFrom i = some (j, a)) : i ≤ j := by
  obtain ⟨k, rfl, -⟩ := firstOf_eq_some h
  exact Nat.le_add_right i k

theorem not_mem_of_isEmpty (h : s.isEmpty) : a ∉ s := by
  intro hmem
  have hnone := all_eq_true.1 h _ hmem
  cases hnone

variable [DecidableEq α]

instance (s : LiveSet α) (a : α) : Decidable (a ∈ s) := inferInstanceAs (Decidable (some a ∈ s.entries))

instance (s : LiveSet α) (i : ℕ) (a : α) : Decidable (s.Ahead i a) :=
  inferInstanceAs (Decidable (some a ∈ s.entries.drop i))

def add (s : LiveSet α) (a : α) : LiveSet α := if a ∈ s then s else ⟨s.entries ++ [some a]⟩

def delete (s : LiveSet α) (a : α) : LiveSet α :=
  ⟨s.entries.map fun entry => if entry = some a then none else entry⟩

theorem add_of_mem (h : a ∈ s) : s.add a = s := if_pos h

/-- What a deletion leaves before the walk was before it. -/
theorem Ahead.of_delete (h : (s.delete b).Ahead i a) : s.Ahead i a ∧ a ≠ b := by
  obtain ⟨j, hij, hj⟩ := ahead_iff.1 h
  rw [delete, getElem?_map, Option.map_eq_some_iff] at hj
  obtain ⟨entry, hentry, heq⟩ := hj
  split at heq
  · cases heq
  · next hne =>
    subst heq
    exact ⟨ahead_iff.2 ⟨j, hij, hentry⟩, fun hsame => hne (congrArg some hsame)⟩

end LiveSet

end Kici
