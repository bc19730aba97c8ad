import Mathlib.Data.List.Basic

/-!
# Computations that fail

Computations that may fail, on each element of a list (`mapM_eq_ok`, `filterExcept`), and the search
for the first that such a test admits (`firstAdmitted`).
-/

namespace Kici

open List

/-!
## Computations that may fail

* `bind_eq_ok`: a computation in two parts that does not fail;
* `mapM_eq_ok`: one for each element of a list, none of which fails;
* `mapM_eq_some`: one computation for each element of a list, none of which fails;
* `filterExcept`: filter a list by a test that may fail, in the order of the list; it fails with the
  first test that does;
* `List.allM` and `List.anyM`: when they do not fail, and with what;
* tests in turn, each of which may end the computation.
-/

section

variable {α : Type} {ε : Type*} {p : α → Except ε Bool} {a : α} {l kept : List α} {β : Type}
  {f : α → Except ε β}

theorem bind_eq_ok {x : Except ε α} {b : β} (h : x >>= f = .ok b) :
    ∃ a, x = .ok a ∧ f a = .ok b := by
  cases x with
  | error e => cases h
  | ok a => exact ⟨a, rfl, h⟩

theorem ok_bind (a : α) (f : α → Except ε β) : (Except.ok a >>= f) = f a := rfl

theorem error_bind (e : ε) (f : α → Except ε β) : (Except.error e >>= f) = .error e := rfl

theorem pure_ok (a : α) : (pure a : Except ε α) = .ok a := rfl

theorem bind_ok {x : Except ε α} {b : β} (hx : x = .ok a) (hf : f a = .ok b) :
    x >>= f = .ok b := by
  rw [hx]
  exact hf

/-- What the computations give, if each gives what a function does. -/
theorem mapM_eq_ok {g : α → β} {bs : List β} (h : l.mapM f = .ok bs)
    (hf : ∀ a b, f a = .ok b → b = g a) : bs = l.map g := by
  induction l generalizing bs with
  | nil =>
    cases h
    rfl
  | cons a l ih =>
    rw [mapM_cons] at h
    obtain ⟨b, hb, h⟩ := bind_eq_ok h
    obtain ⟨bs', hbs', h⟩ := bind_eq_ok h
    cases h
    rw [map_cons, hf a b hb, ih hbs']

/-- What stands at a place is what the computation of that place gives. -/
theorem getElem?_of_mapM_eq_ok {bs : List β} {b : β} {i : ℕ} (h : l.mapM f = .ok bs)
    (ha : l[i]? = some a) (hb : bs[i]? = some b) : f a = .ok b := by
  induction l generalizing bs i with
  | nil => cases ha
  | cons a' l ih =>
    rw [mapM_cons] at h
    obtain ⟨b', hb', h⟩ := bind_eq_ok h
    obtain ⟨bs', hbs', h⟩ := bind_eq_ok h
    cases h
    cases i with
    | zero =>
      cases ha
      cases hb
      exact hb'
    | succ i => exact ih hbs' ha hb

theorem mapM_eq_some {β : Type*} {f : α → Option β} {fs : List β} (h : l.mapM f = some fs) :
    l.map f = fs.map some := by
  induction l generalizing fs with
  | nil =>
    cases h
    rfl
  | cons a l ih =>
    rw [mapM_cons] at h
    obtain ⟨b, hb, h⟩ := Option.bind_eq_some_iff.1 h
    obtain ⟨bs, hbs, heq⟩ := Option.bind_eq_some_iff.1 h
    cases heq
    rw [map_cons, map_cons, hb, ih hbs]

/-- What the computations give has in common with their elements what each has with its own. -/
theorem map_of_mapM {β γ : Type*} {f : α → Option β} {g : β → γ} {k : α → γ} {fs : List β}
    (h : l.mapM f = some fs) (hf : ∀ a b, f a = some b → g b = k a) : fs.map g = l.map k := by
  have hmap := mapM_eq_some h
  clear h
  induction l generalizing fs with
  | nil => rw [map_eq_nil_iff.1 hmap.symm, map_nil, map_nil]
  | cons a l ih =>
    obtain ⟨b, bs, rfl, hb, hbs⟩ := map_eq_cons_iff.1 hmap.symm
    rw [map_cons, map_cons, hf a b hb.symm, ih hbs.symm]

/-- Keep what passes the test, which may fail. -/
def filterExcept (p : α → Except ε Bool) : List α → Except ε (List α)
  | [] => .ok []
  | a :: l => do
    let keep ← p a
    let rest ← filterExcept p l
    return if keep then a :: rest else rest

theorem filterExcept_cons_eq_ok (h : filterExcept p (a :: l) = .ok kept) :
    ∃ keep rest, p a = .ok keep ∧ filterExcept p l = .ok rest ∧ kept = if keep then a :: rest
    else rest := by
  obtain ⟨keep, hp, h⟩ := bind_eq_ok h
  obtain ⟨rest, hrest, heq⟩ := bind_eq_ok h
  cases heq
  exact ⟨keep, rest, hp, hrest, rfl⟩

/-- What is kept passes the test. -/
theorem mem_filterExcept (h : filterExcept p l = .ok kept) : a ∈ kept ↔ a ∈ l ∧ p a = .ok true := by
  induction l generalizing kept with
  | nil =>
    cases h
    simp
  | cons b l ih =>
    obtain ⟨keep, rest, hp, hrest, rfl⟩ := filterExcept_cons_eq_ok h
    rw [mem_cons, or_and_right, ← ih hrest]
    constructor
    · intro hmem
      cases keep with
      | true => exact (mem_cons.1 hmem).imp_left fun heq => ⟨heq, heq ▸ hp⟩
      | false => exact .inr hmem
    · rintro (⟨rfl, htrue⟩ | hmem)
      · rw [hp] at htrue
        cases htrue
        exact mem_cons_self
      · cases keep with
        | true => exact mem_cons_of_mem _ hmem
        | false => exact hmem

/-- A filter does not fail if no test does. -/
theorem filterExcept_ok (h : ∀ a ∈ l, ∃ b, p a = .ok b) : ∃ kept, filterExcept p l = .ok kept := by
  induction l with
  | nil => exact ⟨[], rfl⟩
  | cons a l ih =>
    obtain ⟨keep, hkeep⟩ := h a mem_cons_self
    obtain ⟨rest, hrest⟩ := ih fun b hb => h b (mem_cons_of_mem _ hb)
    exact ⟨if keep then a :: rest else rest, by rw [filterExcept, hkeep, hrest]; rfl⟩

/-- A filter fails if a test does. -/
theorem filterExcept_ok_iff : (∃ kept, filterExcept p l = .ok kept) ↔ ∀ a ∈ l, ∃ b, p a = .ok b := by
  refine ⟨fun ⟨kept, h⟩ => ?_, filterExcept_ok⟩
  induction l generalizing kept with
  | nil => exact nofun
  | cons a l ih =>
    obtain ⟨keep, rest, hp, hrest, -⟩ := filterExcept_cons_eq_ok h
    exact forall_mem_cons.2 ⟨⟨keep, hp⟩, ih ⟨rest, hrest⟩ rest hrest⟩

/-- What is kept is some of the list, in its order. -/
theorem filterExcept_sublist (h : filterExcept p l = .ok kept) : kept.Sublist l := by
  induction l generalizing kept with
  | nil =>
    cases h
    exact Sublist.refl []
  | cons a l ih =>
    obtain ⟨keep, rest, -, hrest, rfl⟩ := filterExcept_cons_eq_ok h
    cases keep with
    | true => exact (ih hrest).cons_cons a
    | false => exact (ih hrest).cons a

theorem allM_eq_ok_true : l.allM p = .ok true ↔ ∀ a ∈ l, p a = .ok true := by
  induction l with
  | nil => simp [allM, pure_ok]
  | cons a l ih =>
    rw [forall_mem_cons, ← ih, allM]
    rcases p a with e | (_ | _) <;> simp [ok_bind, error_bind, pure_ok]

theorem anyM_eq_ok_false : l.anyM p = .ok false ↔ ∀ a ∈ l, p a = .ok false := by
  induction l with
  | nil => simp [anyM, pure_ok]
  | cons a l ih =>
    rw [forall_mem_cons, ← ih, anyM]
    rcases p a with e | (_ | _) <;> simp [ok_bind, error_bind, pure_ok]

/-- A search succeeds only with an element that passes. -/
theorem exists_of_anyM (h : l.anyM p = .ok true) : ∃ a ∈ l, p a = .ok true := by
  induction l with
  | nil => cases h
  | cons a l ih =>
    rw [anyM] at h
    obtain ⟨b, hb, h⟩ := bind_eq_ok h
    cases b with
    | true => exact ⟨a, mem_cons_self, hb⟩
    | false =>
      obtain ⟨c, hc, hpass⟩ := ih h
      exact ⟨c, mem_cons_of_mem _ hc, hpass⟩

theorem allM_ok (h : ∀ a ∈ l, ∃ b, p a = .ok b) : ∃ b, l.allM p = .ok b := by
  induction l with
  | nil => exact ⟨true, rfl⟩
  | cons a l ih =>
    obtain ⟨b, hb⟩ := h a mem_cons_self
    obtain ⟨rest, hrest⟩ := ih fun a ha => h a (mem_cons_of_mem _ ha)
    cases b with
    | true => exact ⟨rest, by rw [allM, hb]; exact hrest⟩
    | false => exact ⟨false, by rw [allM, hb]; rfl⟩

theorem anyM_ok (h : ∀ a ∈ l, ∃ b, p a = .ok b) : ∃ b, l.anyM p = .ok b := by
  induction l with
  | nil => exact ⟨false, rfl⟩
  | cons a l ih =>
    obtain ⟨b, hb⟩ := h a mem_cons_self
    obtain ⟨rest, hrest⟩ := ih fun a ha => h a (mem_cons_of_mem _ ha)
    cases b with
    | true => exact ⟨true, by rw [anyM, hb]; rfl⟩
    | false => exact ⟨rest, by rw [anyM, hb]; exact hrest⟩

/-- A search in which no test fails succeeds if an element passes. -/
theorem anyM_eq_ok_true (h : ∀ a ∈ l, ∃ b, p a = .ok b) (ha : a ∈ l) (hpass : p a = .ok true) :
    l.anyM p = .ok true := by
  obtain ⟨b, hb⟩ := anyM_ok h
  cases b with
  | true => exact hb
  | false =>
    have hfail := anyM_eq_ok_false.1 hb a ha
    rw [hpass] at hfail
    cases hfail

/-! ### Tests in turn -/

section
variable {ε : Type*} {x rest : Except ε Bool}

theorem ifNot_eq_ok_true :
    (x >>= fun b => if (!b) then pure false else rest) = .ok true ↔ x = .ok true ∧ rest = .ok true := by
  rcases x with e | (_ | _) <;> simp [ok_bind, error_bind, pure_ok]

theorem ifThen_eq_ok_true :
    (x >>= fun b => if b then pure false else rest) = .ok true ↔ x = .ok false ∧ rest = .ok true := by
  rcases x with e | (_ | _) <;> simp [ok_bind, error_bind, pure_ok]

theorem if_eq_ok_true {c : Prop} [Decidable c] :
    (if c then pure false else rest) = .ok true ↔ ¬c ∧ rest = .ok true := by
  split <;> simp_all [pure_ok]

theorem and_eq_ok_true {c : Bool} : (x >>= fun b => pure (b && c)) = .ok true ↔ x = .ok true ∧ c := by
  rcases x with e | (_ | _) <;> simp [ok_bind, error_bind, pure_ok]

theorem not_eq_ok_true : (x >>= fun b => pure !b) = .ok true ↔ x = .ok false := by
  rcases x with e | (_ | _) <;> simp [ok_bind, error_bind, pure_ok]

end

end

/-!
## The first that is admitted

A search through a list for the first element that a test admits, where the test may fail
(`firstAdmitted`). Elements that are refused may be left out (`firstAdmitted_filter`); what is found
comes before all else that is admitted (`eq_or_rel_of_firstAdmitted`).
-/

section

variable {α : Type} {ε : Type}

/-- The first element that the test admits, unless it fails before. -/
def firstAdmitted (admits : α → Except ε Bool) : List α → Except ε (Option α)
  | [] => .ok none
  | a :: l =>
    match admits a with
    | .error e => .error e
    | .ok true => .ok (some a)
    | .ok false => firstAdmitted admits l

variable {f g : α → Except ε Bool} {l : List α} {a : α}

theorem firstAdmitted_cons_true (h : f a = .ok true) : firstAdmitted f (a :: l) = .ok (some a) := by
  rw [firstAdmitted, h]

theorem firstAdmitted_cons_false (h : f a = .ok false) :
    firstAdmitted f (a :: l) = firstAdmitted f l := by
  rw [firstAdmitted, h]

theorem firstAdmitted_cons_error {e : ε} (h : f a = .error e) : firstAdmitted f (a :: l) = .error e := by
  rw [firstAdmitted, h]

/-- What is found is the first element, or is found in the rest after a first one that is refused. -/
theorem firstAdmitted_cons_eq_ok {found : Option α} (h : firstAdmitted f (a :: l) = .ok found) :
    f a = .ok true ∧ found = some a ∨ f a = .ok false ∧ firstAdmitted f l = .ok found := by
  rcases ha : f a with e | (_ | _)
  · rw [firstAdmitted_cons_error ha] at h
    cases h
  · rw [firstAdmitted_cons_false ha] at h
    exact .inr ⟨rfl, h⟩
  · rw [firstAdmitted_cons_true ha] at h
    cases h
    exact .inl ⟨rfl, rfl⟩

/-- What is found is an element. -/
theorem mem_of_firstAdmitted (h : firstAdmitted f l = .ok (some a)) : a ∈ l := by
  induction l with
  | nil => cases h
  | cons b l ih =>
    rcases firstAdmitted_cons_eq_ok h with ⟨-, hfound⟩ | ⟨-, h⟩
    · cases hfound
      exact mem_cons_self
    · exact mem_cons_of_mem b (ih h)

theorem firstAdmitted_congr (h : ∀ a ∈ l, f a = g a) : firstAdmitted f l = firstAdmitted g l := by
  induction l with
  | nil => rfl
  | cons a l ih =>
    rw [firstAdmitted, firstAdmitted, h a mem_cons_self, ih fun b hb => h b (mem_cons_of_mem a hb)]

/-- What is refused may be left out. -/
theorem firstAdmitted_filter (keep : α → Bool) (hout : ∀ a ∈ l, keep a = false → f a = .ok false) :
    firstAdmitted f l = firstAdmitted f (l.filter keep) := by
  induction l with
  | nil => rfl
  | cons a l ih =>
    have hrest := ih fun b hb => hout b (mem_cons_of_mem a hb)
    cases hkeep : keep a with
    | false =>
      rw [filter_cons_of_neg (by simp [hkeep]),
        firstAdmitted_cons_false (hout a mem_cons_self hkeep), hrest]
    | true =>
      rw [filter_cons_of_pos hkeep, firstAdmitted, firstAdmitted, hrest]

theorem admitted_of_firstAdmitted (h : firstAdmitted f l = .ok (some a)) : f a = .ok true := by
  induction l with
  | nil => cases h
  | cons b l ih =>
    rcases firstAdmitted_cons_eq_ok h with ⟨hb, hfound⟩ | ⟨-, h⟩
    · cases hfound
      exact hb
    · exact ih h

/-- What is found comes before all else that is admitted. -/
theorem eq_or_rel_of_firstAdmitted {R : α → α → Prop} (hl : l.Pairwise R)
    (h : firstAdmitted f l = .ok (some a)) {b : α}
    (hb : b ∈ l) (hadmitted : f b = .ok true) : b = a ∨ R a b := by
  induction l with
  | nil => cases h
  | cons c l ih =>
    obtain ⟨hc, hl⟩ := pairwise_cons.1 hl
    rcases firstAdmitted_cons_eq_ok h with ⟨-, hfound⟩ | ⟨hrefused, h⟩
    · cases hfound
      exact (mem_cons.1 hb).imp_right (hc b)
    · rcases mem_cons.1 hb with rfl | hb
      · rw [hrefused] at hadmitted
        cases hadmitted
      · exact ih hl h hb

/-- Where nothing is found, nothing is admitted. -/
theorem refused_of_firstAdmitted (h : firstAdmitted f l = .ok none) {b : α} (hb : b ∈ l) :
    f b = .ok false := by
  induction l with
  | nil => cases hb
  | cons c l ih =>
    rcases firstAdmitted_cons_eq_ok h with ⟨-, hfound⟩ | ⟨hrefused, h⟩
    · cases hfound
    · rcases mem_cons.1 hb with rfl | hb
      · exact hrefused
      · exact ih h hb

end

end Kici
