import Mathlib.Data.List.Count
import Mathlib.Data.List.Nodup

/-!
# Attempts

A computation makes calls, one after the other; a call may fault, and then the computation fails at
once (`Computation`). A call that faults may have been carried out all the same. Computations that
do the next thing whatever faults there are elsewhere (`Oblivious`) make the calls that they make
without faults, up to the first that faults (`runCalls`).

A computation that is tried again until no call faults makes its calls anew each time. Those of a
kind are carried out once in all if and only if each attempt that failed did so ahead of the first
of them (`count_attempts_iff`).
-/

namespace Kici

open List

variable {κ ε α β : Type}

/-- What goes wrong with a call. -/
structure Fault (ε : Type) where
  carriedOut : Bool
  error : ε

abbrev Faults (κ ε : Type) := κ → Option (Fault ε)

/-- The calls that were carried out, and what came of them. -/
structure Attempted (κ ε α : Type) where
  done : List κ
  result : Except ε α

/-- One attempt, and another with what came of it. -/
def Attempted.andThen (x : Attempted κ ε α) (f : α → Attempted κ ε β) : Attempted κ ε β :=
  match x.result with
  | .ok a => ⟨x.done ++ (f a).done, (f a).result⟩
  | .error e => ⟨x.done, .error e⟩

/-- A computation under faults. -/
def Computation (κ ε α : Type) := Faults κ ε → Attempted κ ε α

namespace Computation

instance : Monad (Computation κ ε) where
  pure a := fun _ => ⟨[], .ok a⟩
  bind x f := fun faults => (x faults).andThen fun a => f a faults

/-- A computation that does not call. -/
def ofExcept (result : Except ε α) : Computation κ ε α := fun _ => ⟨[], result⟩

def call (c : κ) : Computation κ ε Unit := fun faults =>
  match faults c with
  | none => ⟨[c], .ok ()⟩
  | some fault => ⟨if fault.carriedOut then [c] else [], .error fault.error⟩

theorem bind_apply (x : Computation κ ε α) (f : α → Computation κ ε β) (faults : Faults κ ε) :
    (x >>= f) faults = (x faults).andThen fun a => f a faults := rfl

end Computation

/-- Calls in turn, up to the first that faults. -/
def runCalls (faults : Faults κ ε) (result : Except ε α) : List κ → Attempted κ ε α
  | [] => ⟨[], result⟩
  | c :: cs =>
    match faults c with
    | none => ⟨c :: (runCalls faults result cs).done, (runCalls faults result cs).result⟩
    | some fault => ⟨if fault.carriedOut then [c] else [], .error fault.error⟩

/-- No call faults. -/
def noFaults : Faults κ ε := fun _ => none

variable {faults : Faults κ ε} {result : Except ε α} {c : κ} {cs cs' : List κ} {a : α}

theorem Attempted.andThen_of_ok {x : Attempted κ ε α} {f : α → Attempted κ ε β} (h : x.result = .ok a) :
    x.andThen f = ⟨x.done ++ (f a).done, (f a).result⟩ := by
  rw [andThen, h]

/-- Without faults, a computation makes these calls and gives this. -/
def Undisturbed (x : Computation κ ε α) (cs : List κ) (a : α) : Prop := x noFaults = ⟨cs, .ok a⟩

theorem undisturbed_pure (a : α) : Undisturbed (pure a : Computation κ ε α) [] a := rfl

theorem undisturbed_call (c : κ) : Undisturbed (Computation.call c : Computation κ ε Unit) [c] () := rfl

open Attempted

variable {x : Computation κ ε α} {f : α → Computation κ ε β}

theorem undisturbed_bind {b : β} (hx : Undisturbed x cs a)
    (hf : Undisturbed (f a) cs' b) : Undisturbed (x >>= f) (cs ++ cs') b := by
  have hok : (x noFaults).result = .ok a := by rw [hx]
  rw [Undisturbed, Computation.bind_apply, andThen_of_ok hok, hx, hf]

/-- A computation that gives something has given it to its second part. -/
theorem bind_result_ok {b : β}
    (h : ((x >>= f) faults).result = .ok b) :
    ∃ a, (x faults).result = .ok a ∧ (f a faults).result = .ok b ∧
      ((x >>= f) faults).done = (x faults).done ++ (f a faults).done := by
  rw [Computation.bind_apply] at h ⊢
  cases hx : (x faults).result with
  | error e =>
    rw [andThen, hx] at h
    cases h
  | ok a =>
    rw [andThen_of_ok hx] at h ⊢
    exact ⟨a, rfl, h, rfl⟩

theorem runCalls_of_none (h : faults c = none) : runCalls faults result (c :: cs) =
    ⟨c :: (runCalls faults result cs).done, (runCalls faults result cs).result⟩ := by
  rw [runCalls, h]

theorem runCalls_of_some {fault : Fault ε} (h : faults c = some fault) :
    runCalls faults result (c :: cs) =
    ⟨if fault.carriedOut then [c] else [], .error fault.error⟩ := by
  rw [runCalls, h]

/-- More calls are made where none of the first ones faults. -/
theorem runCalls_append (faults : Faults κ ε) (a : α) (result : Except ε β) (cs cs' : List κ) :
    runCalls faults result (cs ++ cs') =
      (runCalls faults (.ok a) cs).andThen fun _ => runCalls faults result cs' := by
  induction cs with
  | nil => rfl
  | cons c cs ih =>
    cases hfault : faults c with
    | none =>
      rw [cons_append, runCalls_of_none hfault, runCalls_of_none hfault, ih, andThen, andThen]
      cases (runCalls faults (.ok a) cs).result <;> rfl
    | some fault =>
      rw [cons_append, runCalls_of_some hfault, runCalls_of_some hfault]
      rfl

/-- A computation that makes the calls that it makes without faults, up to the first that faults. -/
def Oblivious (x : Computation κ ε α) : Prop :=
  ∀ faults, x faults = runCalls faults (x noFaults).result (x noFaults).done

theorem oblivious_pure (a : α) : Oblivious (pure a : Computation κ ε α) := fun _ => rfl

theorem oblivious_ofExcept (result : Except ε α) :
    Oblivious (Computation.ofExcept result : Computation κ ε α) :=
  fun _ => rfl

theorem oblivious_call (c : κ) : Oblivious (Computation.call c : Computation κ ε Unit) := by
  intro faults
  have hplain : (Computation.call c : Computation κ ε Unit) noFaults = ⟨[c], .ok ()⟩ := rfl
  rw [hplain]
  dsimp only
  cases hfault : faults c with
  | none =>
    rw [Computation.call, hfault, runCalls_of_none hfault]
    rfl
  | some fault => rw [Computation.call, hfault, runCalls_of_some hfault]

theorem oblivious_bind (hx : Oblivious x)
    (hf : ∀ a, Oblivious (f a)) : Oblivious (x >>= f) := by
  intro faults
  rw [Computation.bind_apply, Computation.bind_apply]
  cases hplain : (x noFaults).result with
  | error e =>
    have hfails : x faults = runCalls faults (.error e) (x noFaults).done := by
      rw [← hplain]
      exact hx faults
    rw [hfails, andThen, andThen, hplain]
    -- Nothing is left to do after a failure.
    have herror : ∀ cs : List κ, ∃ e', (runCalls faults (.error e : Except ε α) cs).result = .error e' ∧
        runCalls faults (.error e : Except ε β) cs =
          ⟨(runCalls faults (.error e : Except ε α) cs).done, .error e'⟩ := by
      intro cs
      induction cs with
      | nil => exact ⟨e, rfl, rfl⟩
      | cons c cs ih =>
        cases hfault : faults c with
        | none =>
          obtain ⟨e', hresult, hall⟩ := ih
          rw [runCalls_of_none hfault, runCalls_of_none hfault, hall]
          exact ⟨e', hresult, rfl⟩
        | some fault =>
          rw [runCalls_of_some hfault, runCalls_of_some hfault]
          exact ⟨_, rfl, rfl⟩
    obtain ⟨e', hresult, hall⟩ := herror (x noFaults).done
    rw [hresult]
    exact hall.symm
  | ok a =>
    have hruns : x faults = runCalls faults (.ok a) (x noFaults).done := by
      rw [← hplain]
      exact hx faults
    have hresult : ∀ (cs : List κ) a', (runCalls faults (.ok a) cs).result = .ok a' → a' = a := by
      intro cs a' h
      induction cs with
      | nil => exact (Except.ok.inj h).symm
      | cons c cs ih =>
        cases hfault : faults c with
        | none =>
          rw [runCalls_of_none hfault] at h
          exact ih h
        | some fault =>
          rw [runCalls_of_some hfault] at h
          cases h
    rw [andThen_of_ok hplain]
    dsimp only
    rw [runCalls_append faults a, hruns, andThen, andThen]
    cases hcalls : (runCalls faults (.ok a) (x noFaults).done).result with
    | error e => rfl
    | ok a' =>
      rw [hresult _ _ hcalls, ← hf a faults]

/-- Calls none of which faults are all made. -/
theorem runCalls_of_ok (h : (runCalls faults result cs).result = .ok a) :
    (runCalls faults result cs).done = cs ∧ result = .ok a := by
  induction cs with
  | nil => exact ⟨rfl, h⟩
  | cons c cs ih =>
    cases hfault : faults c with
    | none =>
      rw [runCalls_of_none hfault] at h ⊢
      obtain ⟨hdone, hresult⟩ := ih h
      exact ⟨congrArg (c :: ·) hdone, hresult⟩
    | some fault =>
      rw [runCalls_of_some hfault] at h
      cases h

/-- Each call of the kind comes after one that faults, or faults itself and is not carried out. -/
def FaultsFirst (faults : Faults κ ε) (kind : κ → Bool) (cs : List κ) : Prop :=
  ∀ before c after, cs = before ++ c :: after → kind c = true →
    (∃ c' ∈ before, faults c' ≠ none) ∨ ∃ fault, faults c = some fault ∧ fault.carriedOut = false

/-- Then none of the kind is carried out. -/
theorem faultsFirst_iff {kind : κ → Bool} :
    FaultsFirst faults kind cs ↔ ∀ c ∈ (runCalls faults result cs).done, kind c = false := by
  induction cs with
  | nil =>
    refine ⟨nofun, fun _ before c after hsplit => ?_⟩
    exact absurd hsplit.symm (append_ne_nil_of_right_ne_nil _ (cons_ne_nil _ _))
  | cons c cs ih =>
    cases hfault : faults c with
    | none =>
      rw [runCalls_of_none hfault]
      constructor
      · intro h
        refine forall_mem_cons.2 ⟨?_, ih.1 fun before c' after hsplit hkind => ?_⟩
        · refine Bool.eq_false_iff.2 fun hkind => ?_
          rcases h [] c cs rfl hkind with ⟨c', hmem, -⟩ | ⟨fault, hsome, -⟩
          · cases hmem
          · rw [hfault] at hsome
            cases hsome
        · rcases h (c :: before) c' after (congrArg (c :: ·) hsplit) hkind with
            ⟨c'', hmem, hsome⟩ | hlost
          · rcases mem_cons.1 hmem with rfl | hmem
            · exact absurd hfault hsome
            · exact .inl ⟨c'', hmem, hsome⟩
          · exact .inr hlost
      · intro h before c' after hsplit hkind
        obtain ⟨hfirst, hrest⟩ := forall_mem_cons.1 h
        cases before with
        | nil =>
          obtain ⟨rfl, -⟩ := List.cons.inj hsplit
          rw [hfirst] at hkind
          cases hkind
        | cons b before =>
          obtain ⟨-, hsplit⟩ := List.cons.inj hsplit
          rcases ih.2 hrest before c' after hsplit hkind with ⟨c'', hmem, hsome⟩ | hlost
          · exact .inl ⟨c'', mem_cons_of_mem _ hmem, hsome⟩
          · exact .inr hlost
    | some fault =>
      rw [runCalls_of_some hfault]
      constructor
      · intro h c' hmem
        cases hcarried : fault.carriedOut with
        | false =>
          rw [hcarried] at hmem
          cases hmem
        | true =>
          rw [hcarried] at hmem
          refine Bool.eq_false_iff.2 fun hkind => ?_
          obtain rfl := mem_singleton.1 hmem
          rcases h [] c' cs rfl hkind with ⟨c'', hmem, -⟩ | ⟨fault', hsome, hlost⟩
          · cases hmem
          · rw [hfault] at hsome
            cases hsome
            rw [hcarried] at hlost
            cases hlost
      · intro h before c' after hsplit hkind
        cases before with
        | nil =>
          obtain ⟨rfl, -⟩ := List.cons.inj hsplit
          refine .inr ⟨fault, hfault, Bool.eq_false_iff.2 fun hcarried => ?_⟩
          rw [h c (by rw [if_pos hcarried]; exact mem_cons_self)] at hkind
          cases hkind
        | cons b before =>
          obtain ⟨rfl, -⟩ := List.cons.inj hsplit
          exact .inl ⟨c, mem_cons_self, by rw [hfault]; exact Option.some_ne_none _⟩

/-- Attempts that fail, and one that does not: the calls of a kind are carried out as often as
without faults if and only if none of them was carried out before. -/
theorem count_attempts_iff [DecidableEq κ] (hx : Oblivious x) (kind : κ → Bool)
    (failed : List (Faults κ ε)) {last : Faults κ ε} (hlast : (x last).result = .ok a) :
    (∀ c, kind c →
      ((failed ++ [last]).flatMap fun faults => (x faults).done).count c = (x noFaults).done.count c) ↔
        ∀ faults ∈ failed, FaultsFirst faults kind (x noFaults).done := by
  have hdone : (x last).done = (x noFaults).done := by
    have hruns := hx last
    rw [hruns] at hlast ⊢
    exact (runCalls_of_ok hlast).1
  have hfirst : ∀ faults, FaultsFirst faults kind (x noFaults).done ↔ ∀ c ∈ (x faults).done,
    kind c = false := by
    intro faults
    rw [hx faults]
    exact faultsFirst_iff
  have hcount : ∀ c, ((failed ++ [last]).flatMap fun faults => (x faults).done).count c =
      (failed.flatMap fun faults => (x faults).done).count c + (x noFaults).done.count c := by
    intro c
    rw [flatMap_append, count_append, flatMap_singleton, hdone]
  constructor
  · intro h faults hmem
    refine (hfirst faults).2 fun c hc => Bool.eq_false_iff.2 fun hkind => ?_
    have hpositive : 0 < (failed.flatMap fun faults => (x faults).done).count c :=
      count_pos_iff.2 (mem_flatMap.2 ⟨faults, hmem, hc⟩)
    have hsame := h c hkind
    rw [hcount] at hsame
    omega
  · intro h c hkind
    have hzero : (failed.flatMap fun faults => (x faults).done).count c = 0 := by
      refine count_eq_zero.2 fun hmem => ?_
      obtain ⟨faults, hmem, hc⟩ := mem_flatMap.1 hmem
      rw [(hfirst faults).1 (h faults hmem) c hc] at hkind
      cases hkind
    rw [hcount, hzero, Nat.zero_add]

end Kici
