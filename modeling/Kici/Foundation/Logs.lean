import Mathlib.Algebra.BigOperators.Group.List.Basic
import Mathlib.Algebra.GroupWithZero.Nat
import Mathlib.Order.Lattice

/-!
# Logs

Logs that only take values greater than all before (`RisingLog`), and accounts of a log that skip
some of its items (`Accounts`).
-/

namespace Kici

open List

/-!
## Logs that rise

A log each entry of which is greater than all before (`RisingLog`). A value may be added that is
greater than the last entry (`RisingLog.push`); the last entry bounds the others
(`RisingLog.le_last`), so that it is all one has to keep to know what may still be added.
-/

section

variable {α : Type*} [LinearOrder α]

/-- The entries, the oldest first. -/
structure RisingLog (α : Type*) [LinearOrder α] where
  entries : List α
  rising : entries.Pairwise (· < ·)

namespace RisingLog

variable (log : RisingLog α) {a b : α}

def empty : RisingLog α := ⟨[], .nil⟩

def last : Option α := log.entries.getLast?

/-- The last entry is greater than the others. -/
theorem le_last (h : log.last = some a) (hb : b ∈ log.entries) : b ≤ a := by
  have hlast : log.entries = log.entries.dropLast ++ [a] :=
    (dropLast_append_getLast? a h).symm
  have hrising := log.rising
  rw [hlast] at hrising hb
  rcases mem_append.1 hb with hb | hb
  · exact ((pairwise_append.1 hrising).2.2 b hb a (mem_singleton_self a)).le
  · exact (mem_singleton.1 hb).le

theorem lt_of_last_lt (h : ∀ c ∈ log.last, c < a) (hb : b ∈ log.entries) : b < a := by
  obtain ⟨c, hc⟩ : ∃ c, log.last = some c :=
    ⟨_, getLast?_eq_some_getLast (List.ne_nil_of_mem hb)⟩
  exact (log.le_last hc hb).trans_lt (h c hc)

/-- Add an entry that is greater than the last one. -/
def push (a : α) (h : ∀ c ∈ log.last, c < a) : RisingLog α where
  entries := log.entries ++ [a]
  rising := pairwise_append.2 ⟨log.rising, pairwise_singleton _ _, fun b hb c hc => by
    rw [mem_singleton.1 hc]
    exact log.lt_of_last_lt h hb⟩

@[simp] theorem last_push (h : ∀ c ∈ log.last, c < a) : (log.push a h).last = some a :=
  getLast?_concat

@[simp] theorem entries_push (h : ∀ c ∈ log.last, c < a) :
    (log.push a h).entries = log.entries ++ [a] := rfl

end RisingLog

end

/-!
## Accounts of a list

A list may be told item by item, with a number in the place of items that are skipped (`Tally`).
Such an account determines how many items there are, and in which order those come that it tells
(`Accounts`). What has not been told yet may still be skipped (`Accounts.skip`).
-/

section

variable {α : Type*}

/-- An item of an account: one of the list, or so many that are skipped. -/
inductive Tally (α : Type*)
  | item (a : α)
  | skipped (count : ℕ)
  deriving DecidableEq

/-- How many items a part of an account stands for. -/
def Tally.weight : Tally α → ℕ
  | item _ => 1
  | skipped count => count

/-- The account tells of the list, in order. -/
inductive Accounts : List (Tally α) → List α → Prop
  | nil : Accounts [] []
  | item {told : List (Tally α)} {as : List α} (a : α) : Accounts told as →
    Accounts (.item a :: told) (a :: as)
  | skipped {told : List (Tally α)} {as : List α} (left : List α) :
    Accounts told as → Accounts (.skipped left.length :: told) (left ++ as)

namespace Accounts

variable {told more : List (Tally α)} {as bs : List α} {a : α}

theorem append (h : Accounts told as) (h' : Accounts more bs) : Accounts (told ++ more) (as ++ bs) := by
  induction h with
  | nil => exact h'
  | item a _ ih => exact ih.item a
  | skipped left _ ih =>
    rw [append_assoc]
    exact ih.skipped left

/-- The first part of an account is one of the first part of the list. -/
theorem exists_of_append (h : Accounts (told ++ more) as) :
    ∃ bs cs, as = bs ++ cs ∧ Accounts told bs ∧ Accounts more cs := by
  induction told generalizing as with
  | nil => exact ⟨[], as, rfl, .nil, h⟩
  | cons t told ih =>
    rcases h with - | ⟨a, h⟩ | ⟨left, h⟩
    · obtain ⟨bs, cs, rfl, hbs, hcs⟩ := ih h
      exact ⟨a :: bs, cs, rfl, hbs.item a, hcs⟩
    · obtain ⟨bs, cs, rfl, hbs, hcs⟩ := ih h
      exact ⟨left ++ bs, cs, (append_assoc _ _ _).symm, hbs.skipped left, hcs⟩

theorem length_eq (h : Accounts told as) : as.length = (told.map Tally.weight).sum := by
  induction h with
  | nil => rfl
  | item a _ ih =>
    rw [length_cons, ih, map_cons, sum_cons, Tally.weight, add_comm]
  | skipped left _ ih => rw [length_append, ih, map_cons, sum_cons, Tally.weight]

/-- The last part of an account is left out, and its items are skipped. -/
theorem skip (h : Accounts (told ++ more) as) :
    Accounts (told ++ [.skipped (more.map Tally.weight).sum]) as := by
  obtain ⟨bs, cs, rfl, hbs, hcs⟩ := h.exists_of_append
  rw [← hcs.length_eq]
  refine hbs.append ?_
  simpa using Accounts.nil.skipped cs

/-- One more item is told. -/
theorem concat (h : Accounts told as) (a : α) : Accounts (told ++ [.item a]) (as ++ [a]) :=
  h.append (nil.item a)

end Accounts

end

end Kici
