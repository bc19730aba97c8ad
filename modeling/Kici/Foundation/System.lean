import Mathlib.Data.Set.Basic

/-!
# Transition systems

A transition system has initial states and an executable step: the state an
action leads to, or `none` where the action is not enabled. Every choice that the
modelled program does not make itself (which message arrives, which timer fires,
which statement a database runs next) is an action.

* `System.run`: the state after a list of actions that pass a test, to evaluate a
  concrete run;
* `System.Path`: a run all of whose steps satisfy a condition on the action and
  the state before it, the form in which results about whole runs are stated;
* `System.Reachable`: the end of such a run from an initial state.

The two induction rules are `Path.invariant` (a property kept by every step) and
`Path.relates` (a preorder respected by every step). `run_isSome_iff` is about a
property that only the steps that pass a test keep.
-/

namespace Kici

open Option

/-- A transition system with states `σ` and actions `α`. -/
structure System (σ α : Type*) where
  /-- The initial states. -/
  init : Set σ
  /-- The state an action leads to, `none` where it is not enabled. -/
  step : σ → α → Option σ

namespace System

variable {σ α : Type*} (M : System σ α) {test : σ → α → Bool} {P : σ → Prop} {as : List α}

/-- The state reached by the actions in turn, if all are enabled and pass the test. -/
def run (test : σ → α → Bool) : σ → List α → Option σ
  | s, [] => some s
  | s, a :: as => if test s a then (M.step s a).bind fun t => run test t as else none

/-- A run from `s` each of whose steps satisfies `ok`, a condition on the action
and the state before it. -/
inductive Path (ok : σ → α → Prop) (s : σ) : σ → Prop
  | refl : Path ok s s
  | tail {t u : σ} {a : α} : Path ok s t → ok t a → M.step t a = some u → Path ok s u

/-- The condition every step satisfies. -/
abbrev anyStep : σ → α → Prop := fun _ _ => True

/-- The states reached from an initial state by steps satisfying `ok`. -/
def Reachable (ok : σ → α → Prop) (t : σ) : Prop := ∃ s ∈ M.init, M.Path ok s t

variable {M} {ok ok' : σ → α → Prop} {s t u : σ}

theorem Path.trans (h : M.Path ok s t) (h' : M.Path ok t u) : M.Path ok s u := by
  induction h' with
  | refl => exact h
  | tail _ hok hstep ih => exact ih.tail hok hstep

/-- A run under a stronger condition is one under a weaker condition. -/
theorem Path.mono (hok : ∀ s a, ok s a → ok' s a) (h : M.Path ok s t) : M.Path ok' s t := by
  induction h with
  | refl => exact .refl
  | tail _ ha hstep ih => exact ih.tail (hok _ _ ha) hstep

/-- A property kept by every step holds at the end of a run it held at the start of. -/
theorem Path.invariant (h : M.Path ok s t) (hs : P s)
    (hstep : ∀ s a t, P s → ok s a → M.step s a = some t → P t) : P t := by
  induction h with
  | refl => exact hs
  | tail _ hok hst ih => exact hstep _ _ _ ih hok hst

/-- A preorder every step respects relates the ends of a run. -/
theorem Path.relates {R : σ → σ → Prop} (h : M.Path ok s t) (hrefl : ∀ s, R s s)
    (htrans : ∀ s t u, R s t → R t u → R s u)
    (hstep : ∀ s a t, ok s a → M.step s a = some t → R s t) : R s t := by
  induction h with
  | refl => exact hrefl _
  | tail _ hok hst ih => exact htrans _ _ _ ih (hstep _ _ _ hok hst)

/-- A property of initial states kept by every step holds of every reachable state. -/
theorem Reachable.invariant (h : M.Reachable ok t) (hinit : ∀ s ∈ M.init, P s)
    (hstep : ∀ s a t, P s → ok s a → M.step s a = some t → P t) : P t := by
  obtain ⟨s, hs, hpath⟩ := h
  exact hpath.invariant (hinit s hs) hstep

theorem Reachable.mono (hok : ∀ s a, ok s a → ok' s a) (h : M.Reachable ok s) : M.Reachable ok' s := by
  obtain ⟨s₀, hs₀, hpath⟩ := h
  exact ⟨s₀, hs₀, hpath.mono hok⟩

theorem Reachable.trans (h : M.Reachable ok s) (h' : M.Path ok s t) : M.Reachable ok t := by
  obtain ⟨s₀, hs₀, hpath⟩ := h
  exact ⟨s₀, hs₀, hpath.trans h'⟩

theorem path_of_run (htest : ∀ s a, test s a → ok s a) (h : M.run test s as = some t) :
    M.Path ok s t := by
  induction as generalizing s with
  | nil =>
    cases h
    exact .refl
  | cons a as ih =>
    rw [run, ite_none_right_eq_some] at h
    obtain ⟨ha, h⟩ := h
    obtain ⟨r, hr, hrest⟩ := bind_eq_some_iff.1 h
    exact (Path.refl.tail (htest s a ha) hr).trans (ih hrest)

/-- A concrete run whose end is as it should be: the form in which runs are evaluated. -/
theorem exists_path_of_run (htest : ∀ s a, test s a → ok s a)
    (as : List α) {p : σ → Bool} (h : (M.run test s as).any p) :
    ∃ t, M.Path ok s t ∧ p t := by
  obtain ⟨t, ht, hp⟩ := (Option.any_eq_true p _).1 h
  exact ⟨t, path_of_run htest ht, hp⟩

/-- The same for a property that can be decided. -/
theorem exists_path (M : System σ α) (s : σ) (p : σ → Prop) [DecidablePred p]
    (htest : ∀ s a, test s a → ok s a)
    (as : List α) (h : (M.run test s as).any (p ·)) : ∃ t, M.Path ok s t ∧ p t := by
  obtain ⟨t, hpath, ht⟩ := exists_path_of_run htest as h
  exact ⟨t, hpath, of_decide_eq_true ht⟩

/-- Two concrete runs in a row, whose ends are as they should be. -/
theorem exists_paths_of_run (htest : ∀ s a, test s a → ok s a) (as bs : List α) {p : σ → σ → Bool}
    (h : ((M.run test s as).any fun t => (M.run test t bs).any (p t))) :
    ∃ t u, M.Path ok s t ∧ M.Path ok t u ∧ p t u := by
  obtain ⟨t, hst, ht⟩ := exists_path_of_run htest as h
  obtain ⟨u, htu, hu⟩ := exists_path_of_run htest bs ht
  exact ⟨t, u, hst, htu, hu⟩

/-- Where a test tells which steps keep a property, the steps of a run pass it if and only if the
property holds of every state on the way. -/
theorem run_isSome_iff (htest : ∀ s a t, P s → M.step s a = some t → (P t ↔ test s a)) (hs : P s)
    (hrun : (M.run (fun _ _ => true) s as).isSome) :
    (M.run test s as).isSome ↔ ∀ bs t, bs <+: as → M.run (fun _ _ => true) s bs = some t → P t := by
  induction as generalizing s with
  | nil =>
    refine ⟨fun _ bs t hbs ht => ?_, fun _ => rfl⟩
    rw [List.prefix_nil.1 hbs, run, some.injEq] at ht
    exact ht ▸ hs
  | cons a as ih =>
    rw [run, if_pos rfl] at hrun
    obtain ⟨u, hrun⟩ := isSome_iff_exists.1 hrun
    obtain ⟨r, hr, hrest⟩ := bind_eq_some_iff.1 hrun
    have hrest : (M.run (fun _ _ => true) r as).isSome := by rw [hrest]; rfl
    rw [run, hr, bind_some]
    constructor
    · intro h bs t hbs ht
      split at h
      · next ha =>
        rcases bs with _ | ⟨b, bs⟩
        · rw [run, some.injEq] at ht
          exact ht ▸ hs
        · obtain ⟨rfl, htail⟩ := List.cons_prefix_cons.1 hbs
          rw [run, if_pos rfl, hr, bind_some] at ht
          exact (ih ((htest s b r hs hr).2 ha) hrest).1 h bs t htail ht
      · cases h
    · intro h
      -- the first step passes, as the property holds after it
      have hr' : P r := h [a] r (by simp) (by rw [run, if_pos rfl, hr]; rfl)
      rw [if_pos ((htest s a r hs hr).1 hr')]
      refine (ih hr' hrest).2 fun bs t hbs ht => h (a :: bs) t (List.cons_prefix_cons.2 ⟨rfl, hbs⟩) ?_
      rw [run, if_pos rfl, hr, bind_some]
      exact ht

/-- Where a test tells which steps keep a property, and what is lost by the others is lost for
good. -/
theorem run_cases {P N : σ → Prop} (hkeep : ∀ s a t, P s → M.step s a = some t → test s a → P t)
    (hlose : ∀ s a t, P s → M.step s a = some t → test s a = false → N t)
    (hstay : ∀ s a t, N s → M.step s a = some t → N t) (hs : P s)
    (hrun : M.run (fun _ _ => true) s as = some t) :
    ((M.run test s as).isSome ∧ P t) ∨ (¬ (M.run test s as).isSome ∧ N t) := by
  induction as generalizing s with
  | nil =>
    cases hrun
    exact .inl ⟨rfl, hs⟩
  | cons a as ih =>
    rw [run, if_pos rfl] at hrun
    obtain ⟨r, hr, hrest⟩ := bind_eq_some_iff.1 hrun
    rw [run, hr, bind_some]
    by_cases ha : test s a
    · rw [if_pos ha]
      exact ih (hkeep s a r hs hr ha) hrest
    · rw [if_neg ha]
      have hpath : M.Path anyStep r t := path_of_run (fun _ _ _ => trivial) hrest
      exact .inr ⟨by simp, hpath.invariant (hlose s a r hs hr (Bool.eq_false_iff.2 ha))
        fun s a t h _ => hstay s a t h⟩

/-- The test every step passes. -/
theorem anyStep_of_true : ∀ (s : σ) (a : α), true → anyStep s a := fun _ _ _ => trivial

end System

end Kici
