import Kici.Foundation.Except
import Mathlib.Algebra.Order.Group.Nat
import Mathlib.Data.List.Nodup

/-!
# A concurrent map

A computation is run for every item of a list, at most so many at a time, and what they give is put
in the places of the items (`MapState`). They may end in any order; whoever ends takes the next
item, if there is one (`complete`). An error of one of them is the error of the map.

* `MapState.Sound`: what holds in every order, kept by `Sound.complete`;
* `MapState.Sound.out_eq`: when nothing is in flight any more, what every computation gives is in
  its place;
* `MapState.remaining`: how many ends are still to come, one less with each.
-/

namespace Kici

open List

/-- A map that goes on: the next item, the items in flight, what has come, and the first error. -/
structure MapState (β ε : Type) where
  next : ℕ
  inFlight : List ℕ
  out : List (Option β)
  failed : Option ε := none

namespace MapState

variable {α β ε : Type}

/-- The first items are taken at once. -/
def start (limit : ℕ) (items : List α) : MapState β ε where
  next := min limit items.length
  inFlight := List.range (min limit items.length)
  out := List.replicate items.length none

/-- The worker of an item that gave a result takes the next item, and ends if there is none. -/
def proceed (items : List α) (s : MapState β ε) (i : ℕ) (b : β) : MapState β ε :=
  { s with
    out := s.out.set i (some b)
    inFlight := if s.next < items.length then s.inFlight.erase i ++ [s.next] else s.inFlight.erase i
    next := if s.next < items.length then s.next + 1 else s.next }

/-- The computation of an item in flight ends. -/
def complete (f : α → Except ε β) (items : List α) (s : MapState β ε) (i : ℕ) : Option (MapState β ε) :=
  if i ∈ s.inFlight then
    match items[i]? with
    | none => none
    | some a =>
      match f a with
      | .ok b => some (s.proceed items i b)
      | .error e => some { s with inFlight := s.inFlight.erase i, failed := s.failed.or (some e) }
  else none

/-- The ends that are still to come. -/
def remaining (items : List α) (s : MapState β ε) : ℕ := items.length - s.next + s.inFlight.length

/-- What holds in every order. -/
structure Sound (f : α → Except ε β) (items : List α) (s : MapState β ε) : Prop where
  length : s.out.length = items.length
  taken : s.next ≤ items.length
  nodup : s.inFlight.Nodup
  lt : ∀ i ∈ s.inFlight, i < s.next
  came : ∀ (i : ℕ) b, s.out[i]? = some (some b) → ∃ a, items[i]? = some a ∧ f a = .ok b
  settled : s.failed = none → ∀ i < s.next, i ∉ s.inFlight → ∃ b, s.out[i]? = some (some b)
  error : ∀ e, s.failed = some e → ∃ a ∈ items, f a = .error e
  busy : s.failed = none → s.next < items.length → s.inFlight ≠ []

variable {f : α → Except ε β} {items : List α} {limit i : ℕ} {s t : MapState β ε}

theorem sound_start (f : α → Except ε β) (items : List α) (hlimit : 0 < limit) :
    Sound f items (start limit items) where
  length := length_replicate
  taken := Nat.min_le_right _ _
  nodup := nodup_range
  lt := fun i hi => mem_range.1 hi
  came := fun i b h => by
    rw [start, getElem?_replicate] at h
    split at h <;> cases h
  settled := fun _ i hi hnot => absurd (mem_range.2 hi) hnot
  error := fun e h => by cases h
  busy := fun _ hnext hempty => by
    have hzero : min limit items.length = 0 := range_eq_nil.1 hempty
    have hlt : min limit items.length < items.length := hnext
    omega

theorem Sound.complete (h : s.Sound f items) (hstep : s.complete f items i = some t) :
    t.Sound f items := by
  rw [MapState.complete] at hstep
  split at hstep
  next hmem =>
    split at hstep
    · cases hstep
    next a ha =>
      have hlt := h.lt i hmem
      split at hstep
      next b hb =>
        cases hstep
        refine ⟨?_, ?_, ?_, fun j hj => ?_, fun j b' hget => ?_, fun hok j hj hnot => ?_, h.error,
          fun hok hnext => ?_⟩
        · exact length_set.trans h.length
        · rw [proceed]
          dsimp only
          split
          next hnext => exact hnext
          next => exact h.taken
        · rw [proceed]
          dsimp only
          split
          next =>
            -- The next item was not in flight.
            refine nodup_append.2 ⟨h.nodup.erase i, nodup_singleton _, fun j hj k hk heq => ?_⟩
            have hlt := h.lt j (mem_of_mem_erase hj)
            rw [heq, mem_singleton.1 hk] at hlt
            exact absurd hlt (lt_irrefl _)
          next => exact h.nodup.erase i
        · rw [proceed] at hj ⊢
          dsimp only at hj ⊢
          split at hj
          next hnext =>
            rw [if_pos hnext]
            rcases mem_append.1 hj with hj | hj
            · exact (h.lt j (mem_of_mem_erase hj)).trans (Nat.lt_succ_self _)
            · rw [mem_singleton.1 hj]
              exact Nat.lt_succ_self _
          next hnext =>
            rw [if_neg hnext]
            exact h.lt j (mem_of_mem_erase hj)
        · rw [proceed] at hget
          dsimp only at hget
          rw [getElem?_set] at hget
          split at hget
          next heq =>
            split at hget
            · cases hget
              exact ⟨a, heq ▸ ha, hb⟩
            · cases hget
          next => exact h.came j b' hget
        · rw [proceed] at hj hnot ⊢
          dsimp only at hj hnot ⊢
          rw [getElem?_set]
          by_cases heq : i = j
          · have hbound : i < s.out.length := by
              rw [h.length]
              exact lt_of_lt_of_le hlt h.taken
            rw [if_pos heq, if_pos hbound]
            exact ⟨b, rfl⟩
          · rw [if_neg heq]
            have herase : j ∉ s.inFlight.erase i → j ∉ s.inFlight := fun hnot hmem =>
              hnot ((mem_erase_of_ne (Ne.symm heq)).2 hmem)
            split at hnot
            next hnext =>
              rw [if_pos hnext] at hj
              obtain ⟨hnot, hne⟩ := not_or.1 (mt mem_append.2 hnot)
              have hlt' : j < s.next := Nat.lt_of_le_of_ne (Nat.le_of_lt_succ hj) fun heq =>
                hne (mem_singleton.2 heq)
              exact h.settled hok j hlt' (herase hnot)
            next hnext =>
              rw [if_neg hnext] at hj
              exact h.settled hok j hj (herase hnot)
        · rw [proceed] at hnext ⊢
          dsimp only at hnext ⊢
          split at hnext
          next hlt =>
            rw [if_pos hlt]
            exact append_ne_nil_of_right_ne_nil _ (cons_ne_nil _ _)
          next hge => exact absurd hnext hge
      next e he =>
        cases hstep
        have hfailed : s.failed.or (some e) ≠ none := by cases s.failed <;> exact Option.some_ne_none _
        refine ⟨h.length, h.taken, h.nodup.erase i, fun j hj => h.lt j (mem_of_mem_erase hj), h.came,
          fun hok => absurd hok hfailed, fun e' he' => ?_, fun hok => absurd hok hfailed⟩
        cases hbefore : s.failed with
        | none =>
          dsimp only at he'
          rw [hbefore] at he'
          cases he'
          exact ⟨a, mem_of_getElem? ha, he⟩
        | some e₀ =>
          dsimp only at he'
          rw [hbefore] at he'
          exact h.error e' (hbefore.trans he')
  · cases hstep

/-- A map none of whose computations fails does not fail. -/
theorem Sound.not_failed {bs : List β} (h : s.Sound f items) (hf : items.map f = bs.map .ok) :
    s.failed = none := by
  cases hfailed : s.failed with
  | none => rfl
  | some e =>
    obtain ⟨a, ha, he⟩ := h.error e hfailed
    have hmem : f a ∈ bs.map .ok := hf ▸ List.mem_map_of_mem ha
    obtain ⟨b, -, hb⟩ := List.mem_map.1 hmem
    rw [he] at hb
    cases hb

/-- At the end what every computation gives is in its place. -/
theorem Sound.out_eq {bs : List β} (h : s.Sound f items) (hf : items.map f = bs.map .ok)
    (hdone : s.inFlight = []) : s.out = bs.map some := by
  have hok := h.not_failed hf
  have hall : s.next = items.length := le_antisymm h.taken (not_lt.1 fun hlt => h.busy hok hlt hdone)
  have hlength : items.length = bs.length := by
    have hlengths := congrArg List.length hf
    rwa [length_map, length_map] at hlengths
  refine ext_getElem? fun i => ?_
  rcases Nat.lt_or_ge i items.length with hlt | hge
  · obtain ⟨b, hb⟩ := h.settled hok i (hall ▸ hlt) (by rw [hdone]; exact not_mem_nil)
    obtain ⟨a, ha, hfa⟩ := h.came i b hb
    have hget := congrArg (·[i]?) hf
    rw [getElem?_map, getElem?_map, ha, Option.map_some, hfa] at hget
    obtain ⟨b', hb', heq⟩ := Option.map_eq_some_iff.1 hget.symm
    cases heq
    rw [hb, getElem?_map, hb', Option.map_some]
  · rw [getElem?_eq_none (h.length.le.trans hge), getElem?_eq_none (by rwa [length_map, ← hlength])]

theorem remaining_start (limit : ℕ) (items : List α) :
    (start limit items : MapState β ε).remaining items = items.length := by
  rw [remaining, start, length_range]
  dsimp only
  omega

/-- Whatever is in flight can end. -/
theorem Sound.exists_complete (h : s.Sound f items) (hmem : i ∈ s.inFlight) : ∃ t,
    s.complete f items i = some t := by
  have hlt : i < items.length := lt_of_lt_of_le (h.lt i hmem) h.taken
  rw [MapState.complete, if_pos hmem, getElem?_eq_getElem hlt]
  dsimp only
  split
  · exact ⟨_, rfl⟩
  · exact ⟨_, rfl⟩

/-- With every end there is one less to come. -/
theorem remaining_complete (hstep : s.complete f items i = some t) :
    t.remaining items + 1 = s.remaining items := by
  rw [MapState.complete] at hstep
  split at hstep
  next hmem =>
    have hlength := length_erase_of_mem hmem
    have hpos := length_pos_of_mem hmem
    split at hstep
    · cases hstep
    · split at hstep
      · cases hstep
        rw [remaining, remaining, proceed]
        dsimp only
        split
        next hnext =>
          rw [length_append, length_singleton]
          omega
        next => omega
      · cases hstep
        rw [remaining, remaining]
        dsimp only
        omega
  · cases hstep

end MapState

end Kici
