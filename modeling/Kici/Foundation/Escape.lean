import Mathlib.Data.List.Infix

/-!
# Escaped words and paths

An encoding over one alphabet that keeps the symbols it allows and replaces every other
symbol by its escape, a word of allowed symbols (`escaped`). Nothing marks the escapes off
from the rest, so that a word in which an escape is written out has a second source. The
words without a second source are the `Verbatim` ones: of allowed symbols only, with no
escape written out in them (`verbatim_iff`).

A path (`pathOf`) is a list of words, each behind a separator. It determines its words if
the separator stands in none of them (`pathOf_injective`), and the words of a path that it
goes on from with a separator (`prefix_of_pathOf`).
-/

namespace Kici.Foundation

open List

variable {α : Type*} {allowed : α → Bool} {escape : α → List α} {word source u v : List α} {a : α}

/-- The encoding of a word: an escape for every symbol that is not allowed. -/
def escaped (allowed : α → Bool) (escape : α → List α) (word : List α) : List α :=
  word.flatMap fun a => if allowed a then [a] else escape a

/-- Words of allowed symbols with no escape written out in them. -/
structure Verbatim (allowed : α → Bool) (escape : α → List α) (word : List α) : Prop where
  symbols : ∀ a ∈ word, allowed a
  not_written : ∀ a, ¬ allowed a → ¬ escape a <:+: word

theorem escaped_append :
    escaped allowed escape (u ++ v) = escaped allowed escape u ++ escaped allowed escape v :=
  flatMap_append

theorem escaped_cons_of_not (h : ¬ allowed a) :
    escaped allowed escape (a :: v) = escape a ++ escaped allowed escape v := by
  rw [escaped, flatMap_cons, if_neg h]
  rfl

/-- A word of allowed symbols is left as it is. -/
theorem escaped_eq_self (h : ∀ a ∈ word, allowed a) : escaped allowed escape word = word := by
  induction word with
  | nil => rfl
  | cons a word ih =>
    rw [escaped, flatMap_cons, if_pos (h a mem_cons_self)]
    exact congrArg (a :: ·) (ih fun b hb => h b (mem_cons_of_mem a hb))

/-- A word with a symbol that is not allowed is encoded by its escape, in place. -/
theorem escaped_eq_of_mem (h : ¬ allowed a) (ha : a ∈ word) :
    escape a <:+: escaped allowed escape word := by
  obtain ⟨u, v, rfl⟩ := append_of_mem ha
  rw [escaped_append, escaped_cons_of_not h]
  exact ⟨_, _, append_assoc ..⟩

theorem allowed_of_mem_escaped (hescape : ∀ a, ¬ allowed a → ∀ b ∈ escape a, allowed b)
    (ha : a ∈ escaped allowed escape word) : allowed a := by
  obtain ⟨b, -, hab⟩ := mem_flatMap.1 ha
  split at hab
  case isTrue h => rwa [mem_singleton.1 hab]
  case isFalse h => exact hescape b h a hab

/-- A verbatim word is the encoding of no other word. -/
theorem Verbatim.eq_of_escaped_eq (h : Verbatim allowed escape word)
    (heq : escaped allowed escape source = escaped allowed escape word) : source = word := by
  rw [escaped_eq_self h.symbols] at heq
  have hsource : ∀ a ∈ source, allowed a := by
    intro a ha
    by_contra hna
    -- The escape of `a` would stand in the word.
    exact h.not_written a hna (heq ▸ escaped_eq_of_mem hna ha)
  rwa [escaped_eq_self hsource] at heq

/-- A word is verbatim if and only if no other word has its encoding. -/
theorem verbatim_iff (hescape : ∀ a, ¬ allowed a → ∀ b ∈ escape a, allowed b) :
    Verbatim allowed escape word ↔
      ∀ source, escaped allowed escape source = escaped allowed escape word → source = word := by
  refine ⟨fun h source heq => h.eq_of_escaped_eq heq, fun h => ?_⟩
  have hallowed : ∀ a ∈ word, allowed a := by
    -- The encoding of the word is encoded as itself, so that it is the word.
    have hself : escaped allowed escape word = word :=
      h _ (escaped_eq_self fun a => allowed_of_mem_escaped hescape)
    rw [← hself]
    exact fun a => allowed_of_mem_escaped hescape
  refine ⟨hallowed, fun a ha hwritten => ?_⟩
  obtain ⟨u, v, rfl⟩ := hwritten
  -- The symbol in place of its escape is another source.
  have heq : u ++ a :: v = u ++ escape a ++ v := by
    refine h _ ?_
    rw [escaped_eq_self hallowed, escaped_append, escaped_cons_of_not ha,
      escaped_eq_self fun b hb => hallowed b (by simp [hb]),
      escaped_eq_self fun b hb => hallowed b (by simp [hb]), append_assoc]
  exact ha (hallowed a (heq ▸ by simp))

/-! ## Paths -/

section

variable {sep : α} {us vs : List (List α)} {x y : List α}

/-- The words, each behind a separator. -/
def pathOf (sep : α) (words : List (List α)) : List α := words.flatMap (sep :: ·)

theorem pathOf_cons : pathOf sep (u :: us) = sep :: (u ++ pathOf sep us) := flatMap_cons

/-- A path begins with a separator, if at all. -/
theorem head?_pathOf : ∀ a ∈ (pathOf sep us).head?, a = sep := by
  cases us with
  | nil => exact fun a ha => absurd ha (Option.not_mem_none a)
  | cons u us => exact fun a ha => (Option.some.inj ha).symm

/-- Only the empty word is without the separator and begins with it, if at all. -/
theorem eq_nil_of_head? (hword : sep ∉ word) (h : ∀ a ∈ (word ++ x).head?, a = sep) : word = [] := by
  cases word with
  | nil => rfl
  | cons a word => exact absurd (h a rfl ▸ mem_cons_self) hword

/-- A word without the separator is determined by what goes on from it with a separator, if at all. -/
theorem eq_of_append_eq (hu : sep ∉ u) (hv : sep ∉ v) (hx : ∀ a ∈ x.head?, a = sep)
    (hy : ∀ a ∈ y.head?, a = sep) (h : u ++ x = v ++ y) : u = v ∧ x = y := by
  rcases append_eq_append_iff.1 h with ⟨w, rfl, rfl⟩ | ⟨w, rfl, rfl⟩
  · obtain rfl := eq_nil_of_head? (fun hw => hv (mem_append_right u hw)) hx
    exact ⟨(append_nil u).symm, rfl⟩
  · obtain rfl := eq_nil_of_head? (fun hw => hu (mem_append_right v hw)) hy
    exact ⟨append_nil v, rfl⟩

/-- Two texts with their first separators at the same place. -/
theorem eq_of_append_sep (hu : sep ∉ u) (hv : sep ∉ v) (h : u ++ sep :: x = v ++ sep :: y) :
    u = v ∧ x = y := by
  have hhead : ∀ x : List α, ∀ a ∈ (sep :: x).head?, a = sep := fun x a ha => (Option.some.inj ha).symm
  obtain ⟨heq, hrest⟩ := eq_of_append_eq hu hv (hhead x) (hhead y) h
  exact ⟨heq, (List.cons.inj hrest).2⟩

/-- A path determines its words. -/
theorem pathOf_injective (hus : ∀ u ∈ us, sep ∉ u) (hvs : ∀ v ∈ vs, sep ∉ v)
    (h : pathOf sep us = pathOf sep vs) : us = vs := by
  induction us generalizing vs with
  | nil =>
    cases vs with
    | nil => rfl
    | cons v vs => exact absurd h.symm (cons_ne_nil _ _)
  | cons u us ih =>
    cases vs with
    | nil => exact absurd h (cons_ne_nil _ _)
    | cons v vs =>
      rw [pathOf_cons, pathOf_cons, List.cons.injEq] at h
      obtain ⟨rfl, htail⟩ := eq_of_append_eq (hus u mem_cons_self) (hvs v mem_cons_self) head?_pathOf
        head?_pathOf h.2
      rw [ih (fun u hu => hus u (mem_cons_of_mem _ hu)) (fun v hv => hvs v (mem_cons_of_mem _ hv)) htail]

/-- A path that goes on from another with a separator begins with its words. -/
theorem prefix_of_pathOf (hus : ∀ u ∈ us, sep ∉ u) (hvs : ∀ v ∈ vs, sep ∉ v)
    (h : pathOf sep us ++ sep :: x = pathOf sep vs) : us <+: vs := by
  induction us generalizing vs with
  | nil => exact nil_prefix
  | cons u us ih =>
    cases vs with
    | nil => exact absurd h (cons_ne_nil _ _)
    | cons v vs =>
      rw [pathOf_cons, pathOf_cons, cons_append, append_assoc, List.cons.injEq] at h
      have hhead : ∀ a ∈ (pathOf sep us ++ sep :: x).head?, a = sep := by
        cases us with
        | nil | cons => exact fun a ha => (Option.some.inj ha).symm
      obtain ⟨rfl, htail⟩ := eq_of_append_eq (hus u mem_cons_self) (hvs v mem_cons_self) hhead
        head?_pathOf h.2
      exact (cons_prefix_cons).2 ⟨rfl, ih (fun u hu => hus u (mem_cons_of_mem _ hu))
        (fun v hv => hvs v (mem_cons_of_mem _ hv)) htail⟩

end

end Kici.Foundation
