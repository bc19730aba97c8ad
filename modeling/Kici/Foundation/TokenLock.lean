import Mathlib.Logic.Function.Basic

/-!
# Locks by a token

A lock that is taken by putting a token of one's own where none is, and is free again
once the token is removed: by its holder, or by anyone else who takes it for abandoned.

A token that is removed was not that of a holder at the time (`TokenLock.Move`). Under
this rule the token of a holder is there (`TokenLock.Sound`), so that there is at most
one (`TokenLock.Sound.exclusive`).
-/

namespace Kici

open Function

variable {ι τ : Type*}

/-- A lock: the token that is there, and the tokens of its holders. -/
structure TokenLock (ι τ : Type*) where
  present : Option τ
  held : ι → Option τ

namespace TokenLock

variable {l l' : TokenLock ι τ}

/-- The rules of the lock. -/
inductive Move [DecidableEq ι] (l : TokenLock ι τ) : TokenLock ι τ → Prop
  /-- Someone puts a token where none is, and holds the lock. -/
  | acquire (i : ι) (token : τ) (hfree : l.present = none) :
      Move l ⟨some token, update l.held i (some token)⟩
  /-- Some of those who held the lock do so no longer; their token stays. -/
  | letGo (held : ι → Option τ) (hheld : ∀ i, held i = l.held i ∨ held i = none) :
      Move l ⟨l.present, held⟩
  /-- The token is removed, which is not that of a holder. -/
  | remove (hheld : ∀ i token, l.held i = some token → l.present ≠ some token) :
      Move l ⟨none, l.held⟩

/-- The token of a holder is there, and is that of no other. -/
structure Sound (l : TokenLock ι τ) : Prop where
  present : ∀ i token, l.held i = some token → l.present = some token
  exclusive : ∀ i j, l.held i ≠ none → l.held j ≠ none → i = j

/-- Nobody holds a lock without a token. -/
theorem Sound.held_eq_none (h : l.Sound) (hfree : l.present = none) (i : ι) : l.held i = none := by
  refine Option.eq_none_iff_forall_ne_some.2 fun token hheld => ?_
  have hpresent := h.present i token hheld
  rw [hfree] at hpresent
  cases hpresent

theorem Sound.move [DecidableEq ι] (h : l.Sound) (hmove : l.Move l') : l'.Sound := by
  cases hmove with
  | acquire i token hfree =>
    -- Nobody held the lock, so that the one who takes it is the only holder.
    have hothers : ∀ j, j ≠ i → update l.held i (some token) j = none := fun j hne => by
      rw [update_of_ne hne, h.held_eq_none hfree]
    constructor
    · intro j token' (hheld : update l.held i (some token) j = some token')
      by_cases heq : j = i
      · subst heq
        rwa [update_self] at hheld
      · rw [hothers j heq] at hheld
        cases hheld
    · intro j k hj hk
      have hj' : j = i := of_not_not fun hne => hj (hothers j hne)
      have hk' : k = i := of_not_not fun hne => hk (hothers k hne)
      rw [hj', hk']
  | letGo held hheld =>
    constructor
    · intro i token (hi : held i = some token)
      refine h.present i token ?_
      rcases hheld i with heq | hnone
      · rwa [heq] at hi
      · rw [hnone] at hi
        cases hi
    · have hstill : ∀ i, held i ≠ none → l.held i ≠ none := fun i hi =>
        (hheld i).resolve_right hi ▸ hi
      exact fun i j hi hj => h.exclusive i j (hstill i hi) (hstill j hj)
  | remove hheld =>
    exact ⟨fun i token hi => absurd (h.present i token hi) (hheld i token hi), h.exclusive⟩

end TokenLock

end Kici
