import Mathlib.Data.List.Basic

/-!
# Checks that stop at the first that fails

A check passes or fails, records what it saw, may leave a note, and may throw. Checks
in turn (`Check.all`) stop at the first that fails, with what was recorded so far.

A note says that a check passed only provisionally, and is to be decided later. A
check is *settled* by another (`Check.Settles`) if the other passes exactly where the
first one does and its note, if there is one, is decided in favour. Where only one
check of several leaves a note, settling that one settles all of them
(`Check.Settles.andThen_right`, `Check.Settles.andThen_left`).
-/

namespace Kici

open Except

variable {ε τ ν : Type*}

/-- The outcome of a check. -/
structure Checked (τ ν : Type*) where
  passed : Bool
  traces : List τ := []
  note : Option ν := none

/-- Whether `passed` is what an outcome comes to once its note is decided. -/
def Checked.ComesTo (decide : ν → Except ε Bool) (x : Checked τ ν) (passed : Bool) : Prop :=
  if x.passed then
    match x.note with
    | none => passed = true
    | some n => decide n = .ok passed
  else passed = false

/-- An outcome without a note comes to what it is. -/
theorem Checked.comesTo_self {decide : ν → Except ε Bool} {x : Checked τ ν} (h : x.note = none) :
    x.ComesTo decide x.passed := by
  cases hp : x.passed <;> simp [ComesTo, h, hp]

/-- What an outcome comes to is that it passed, with its note decided in favour. -/
theorem Checked.ComesTo.iff {decide : ν → Except ε Bool} {x : Checked τ ν} {passed : Bool}
    (h : x.ComesTo decide passed) :
    passed ↔ x.passed ∧ ∀ n ∈ x.note, decide n = .ok true := by
  rcases x with ⟨_ | _, traces, _ | n⟩ <;> simp only [ComesTo] at h
  · simpa using h
  · simpa using h
  · simpa using h
  · simp [show decide n = .ok passed from h]

abbrev Check (ε τ ν : Type*) := Except ε (Checked τ ν)

open Checked

namespace Check

/-- The check that passes. -/
def pass : Check ε τ ν := .ok { passed := true }

/-- One check, and another where that one passes. -/
def andThen (c d : Check ε τ ν) : Check ε τ ν :=
  c.bind fun x =>
    if x.passed then d.map fun y => ⟨y.passed, x.traces ++ y.traces, y.note.or x.note⟩
    else .ok x

/-- Checks in turn. -/
def all : List (Check ε τ ν) → Check ε τ ν
  | [] => pass
  | c :: cs => c.andThen (all cs)

/-- A check, where a condition asks for it. -/
def when (p : Prop) [Decidable p] (c : Except ε (Checked τ ν)) : Except ε (Checked τ ν) :=
  if p then c else pass

variable {c d c' : Check ε τ ν} {z : Checked τ ν} {p : Prop} [Decidable p]

/-- What two checks in turn can return. -/
theorem andThen_eq_ok (h : c.andThen d = .ok z) : ∃ x, c = .ok x ∧
    (x.passed = false ∧ z = x ∨
      x.passed ∧ ∃ y, d = .ok y ∧ z = ⟨y.passed, x.traces ++ y.traces, y.note.or x.note⟩) := by
  rcases c with err | x
  · cases h
  refine ⟨x, rfl, ?_⟩
  cases hp : x.passed with
  | false =>
    simp only [andThen, Except.bind, hp] at h
    exact .inl ⟨rfl, (ok.inj h).symm⟩
  | true =>
    simp only [andThen, Except.bind, hp, if_true] at h
    rcases d with err | y
    · cases h
    · exact .inr ⟨rfl, y, rfl, (ok.inj h).symm⟩

/-! ## Checks without notes -/

/-- The check leaves no note. -/
def Plain (c : Check ε τ ν) : Prop := ∀ x, c = .ok x → x.note = none

theorem plain_pass : (pass : Check ε τ ν).Plain := by
  rintro x h
  rw [← ok.inj h]

theorem Plain.andThen (hc : c.Plain) (hd : d.Plain) : (c.andThen d).Plain := by
  intro z h
  obtain ⟨x, hx, ⟨-, rfl⟩ | ⟨-, y, hy, rfl⟩⟩ := andThen_eq_ok h
  · exact hc _ hx
  · simp [hc _ hx, hd _ hy]

theorem Plain.all {cs : List (Check ε τ ν)} (h : ∀ c ∈ cs, c.Plain) : (all cs).Plain := by
  induction cs with
  | nil => exact plain_pass
  | cons c cs ih =>
    exact (h c List.mem_cons_self).andThen (ih fun d hd => h d (List.mem_cons_of_mem _ hd))

theorem Plain.bind {α : Type*} {m : Except ε α} {f : α → Except ε (Checked τ ν)}
    (h : ∀ a, Plain (f a)) : Plain (m.bind f) := by
  intro x hx
  rcases m with err | a
  · cases hx
  · exact h a x hx

theorem Plain.when (h : c.Plain) : Plain (when p c) := by
  rw [Check.when]
  split
  · exact h
  · exact plain_pass

/-! ## Settling notes -/

/-- Where neither throws, `d` passes exactly where `c` does and its note, if there is
one, is decided in favour; and `d` leaves no note. -/
structure Settles (decide : ν → Except ε Bool) (d c : Check ε τ ν) : Prop where
  plain : d.Plain
  comesTo : ∀ x y, c = .ok x → d = .ok y → x.ComesTo decide y.passed

variable {decide : ν → Except ε Bool}

/-- A check that leaves no note settles itself. -/
theorem Plain.settles (h : c.Plain) : Settles decide c c where
  plain := h
  comesTo x y hx hy := by
    obtain rfl := ok.inj (hx.symm.trans hy)
    exact comesTo_self (h x hx)

/-- A plain check may stand before a check and before what settles it. -/
theorem Settles.andThen_right (hc : c.Plain) (h : Settles decide c' d) :
    Settles decide (c.andThen c') (c.andThen d) := by
  refine ⟨hc.andThen h.plain, fun z z' hz hz' => ?_⟩
  obtain ⟨x, hx, hcase⟩ := andThen_eq_ok hz
  obtain ⟨x', hx', hcase'⟩ := andThen_eq_ok hz'
  obtain rfl := ok.inj (hx.symm.trans hx')
  rcases hcase with ⟨hf, rfl⟩ | ⟨hp, y, hy, rfl⟩ <;>
    rcases hcase' with ⟨hf', rfl⟩ | ⟨hp', y', hy', rfl⟩
  · exact comesTo_self (hc _ hx)
  · rw [hf] at hp'
    cases hp'
  · rw [hf'] at hp
    cases hp
  · have hnote : y.note.or x.note = y.note := by rw [hc x hx, Option.or_none]
    simp only [ComesTo, hnote]
    exact h.comesTo y y' hy hy'

/-- A plain check may stand after a check and after what settles it. -/
theorem Settles.andThen_left (hd : d.Plain) (h : Settles decide c' c) :
    Settles decide (c'.andThen d) (c.andThen d) := by
  refine ⟨h.plain.andThen hd, fun z z' hz hz' => ?_⟩
  obtain ⟨x, hx, hcase⟩ := andThen_eq_ok hz
  obtain ⟨x', hx', hcase'⟩ := andThen_eq_ok hz'
  have hto : x.ComesTo decide x'.passed := h.comesTo x x' hx hx'
  rcases hcase with ⟨hf, rfl⟩ | ⟨hp, y, hy, rfl⟩ <;>
    rcases hcase' with ⟨hf', rfl⟩ | ⟨hp', y', hy', rfl⟩
  · exact hto
  · -- What settles a check that failed fails.
    simp only [ComesTo, hf, if_false, Bool.false_eq_true] at hto
    rw [hp'] at hto
    cases hto
  · -- The second check is not made, as the first one's note is decided against.
    have hnote : y.note.or x.note = x.note := by rw [hd y hy, Option.none_or]
    simp only [ComesTo, hp, if_true, hf'] at hto
    simp only [ComesTo, hnote, hf']
    split
    · exact hto
    · trivial
  · obtain rfl := ok.inj (hy.symm.trans hy')
    have hnote : y.note.or x.note = x.note := by rw [hd y hy, Option.none_or]
    simp only [ComesTo, hp, if_true, hp'] at hto
    simp only [ComesTo, hnote]
    cases hy : y.passed with
    | true => simpa using hto
    | false => simp

end Check

end Kici
