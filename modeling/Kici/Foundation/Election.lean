import Mathlib.Data.Fintype.Card

/-!
# Leader election by votes

Voters move through terms. In each term a voter may stand as a candidate (voting
for itself), grant its vote to another candidate, win with the votes of a quorum,
or *seize* the leadership without one; a newer term ends what it did in the older
one. A voter remembers the vote of its term, and grants none to anyone else while
it does. Two moves lose that memory: moving to a newer term, which is harmless,
and being *deposed* by another leader of the same term, after which the voter
could vote again.

What the rules (`Rules`) allow is a parameter: the quorums, the voters that may
vote at all, and whether a deposition may occur. Two results:

* `Rules.Step.votesUnique`: without depositions, a voter that remembers its votes
  gives at most one in each term;
* `Rules.Steps.safe`: with depositions, but with any two quorums intersecting,
  a term in which nobody seized the leadership has at most one leader, ever. The
  first leader's voters other than deposed candidates are bound to it, and nobody
  is deposed before there is a leader.
-/

namespace Kici.Election

open List Option

variable {ι : Type*}

/-- What a voter holds: its term, the vote it remembers giving in it, and whether
it stands (as a candidate, or as the leader). -/
structure Voter (ι : Type*) where
  term : ℕ
  vote : Option ι
  standing : Bool

/-- What is recorded of an election, for ever. -/
inductive Event (ι : Type*)
  /-- `i` gave its vote in the term to `k`. -/
  | voted (i : ι) (term : ℕ) (k : ι)
  /-- `i` became the leader of the term. -/
  | won (i : ι) (term : ℕ)
  /-- The leadership of the term was taken without a quorum. -/
  | seized (term : ℕ)
  deriving DecidableEq

structure State (ι : Type*) where
  voter : ι → Voter ι
  history : List (Event ι)

/-- What an election allows. -/
structure Rules (ι : Type*) where
  /-- The sets of voters whose votes elect a leader. -/
  quorum : Set (Finset ι)
  /-- The voters that may give votes. -/
  mayVote : Set ι
  /-- Whether a leader or candidate may be deposed within its term. -/
  mayDepose : Prop

/-- A move of the voter `i` in the state `s`: what it holds afterwards, and what is
recorded. -/
inductive Rules.Move (R : Rules ι) (s : State ι) (i : ι) : Voter ι → List (Event ι) → Prop
  | advance {t : ℕ} : (s.voter i).term < t → Move R s i ⟨t, none, false⟩ []
  | campaign : i ∈ R.mayVote → Move R s i ⟨(s.voter i).term + 1, some i, true⟩
      [.voted i ((s.voter i).term + 1) i]
  | grant {k : ι} : i ∈ R.mayVote → (s.voter i).vote = none ∨ (s.voter i).vote = some k →
      Move R s i { s.voter i with vote := some k } [.voted i (s.voter i).term k]
  | win {Q : Finset ι} : (s.voter i).standing → Q ∈ R.quorum →
      (∀ v ∈ Q, .voted v (s.voter i).term i ∈ s.history) →
      Move R s i (s.voter i) [.won i (s.voter i).term]
  | seize : (s.voter i).standing →
      Move R s i (s.voter i) [.seized (s.voter i).term, .won i (s.voter i).term]
  | depose {l : ι} : R.mayDepose → (s.voter i).standing → l ≠ i →
      .won l (s.voter i).term ∈ s.history → Move R s i ⟨(s.voter i).term, none, false⟩ []
  | retire : Move R s i { s.voter i with standing := false } []

variable [DecidableEq ι]

/-- The state after `i` moved to `x`, with `es` recorded. -/
def State.move (s : State ι) (i : ι) (x : Voter ι) (es : List (Event ι)) : State ι :=
  ⟨Function.update s.voter i x, s.history ++ es⟩

@[simp] theorem State.move_voter_self (s : State ι) (i : ι) (x : Voter ι) (es : List (Event ι)) :
    (s.move i x es).voter i = x := Function.update_self ..

theorem State.move_voter_of_ne (s : State ι) {i j : ι} (x : Voter ι) (es : List (Event ι))
    (h : j ≠ i) : (s.move i x es).voter j = s.voter j := Function.update_of_ne h ..

@[simp] theorem State.move_history (s : State ι) (i : ι) (x : Voter ι) (es : List (Event ι)) :
    (s.move i x es).history = s.history ++ es := rfl

@[simp] theorem State.move_move (s : State ι) (i : ι) (x y : Voter ι) (es fs : List (Event ι)) :
    (s.move i x es).move i y fs = s.move i y (es ++ fs) := by
  simp [State.move]

@[simp] theorem State.move_self (s : State ι) (i : ι) : s.move i (s.voter i) [] = s := by
  simp [State.move]

/-- A step of the election: some voter moves. -/
def Rules.Step (R : Rules ι) (s s' : State ι) : Prop :=
  ∃ i x es, R.Move s i x es ∧ s' = s.move i x es

/-- A sequence of steps. -/
abbrev Rules.Steps (R : Rules ι) : State ι → State ι → Prop := Relation.ReflTransGen R.Step

variable {R : Rules ι} {s s' : State ι}

theorem Rules.Move.step {i : ι} {x : Voter ι} {es : List (Event ι)} (h : R.Move s i x es) :
    R.Step s (s.move i x es) := ⟨i, x, es, h, rfl⟩

/-! ## Votes are unique as long as they are remembered -/

/-- `i` remembers the votes it gave: they are of older terms, or the vote of its
term. -/
def State.Remembers (s : State ι) (i : ι) : Prop :=
  ∀ t k, .voted i t k ∈ s.history →
    t < (s.voter i).term ∨ t = (s.voter i).term ∧ (s.voter i).vote = some k

/-- A voter gives its vote in a term to at most one voter. -/
def State.VotesUnique (s : State ι) : Prop :=
  ∀ i t k k', .voted i t k ∈ s.history → .voted i t k' ∈ s.history → k = k'

omit [DecidableEq ι] in
/-- The only votes a move records are the mover's, for the vote it then remembers. -/
theorem Rules.Move.voted {i j k : ι} {t : ℕ} {x : Voter ι} {es : List (Event ι)}
    (h : R.Move s i x es) (hv : .voted j t k ∈ es) :
    j = i ∧ i ∈ R.mayVote ∧ t = x.term ∧ x.vote = some k := by
  cases h with
  | campaign hi =>
    simp only [mem_singleton, Event.voted.injEq] at hv
    obtain ⟨rfl, rfl, rfl⟩ := hv
    exact ⟨rfl, hi, rfl, rfl⟩
  | grant hi _ =>
    simp only [mem_singleton, Event.voted.injEq] at hv
    obtain ⟨rfl, rfl, rfl⟩ := hv
    exact ⟨rfl, hi, rfl, rfl⟩
  | _ => simp at hv

omit [DecidableEq ι] in
/-- Unless deposed, a mover that moves within its term keeps the vote it remembers. -/
theorem Rules.Move.keeps {i k : ι} {x : Voter ι} {es : List (Event ι)} (h : R.Move s i x es)
    (hD : ¬R.mayDepose) (hk : (s.voter i).vote = some k) :
    (s.voter i).term < x.term ∨ x.term = (s.voter i).term ∧ x.vote = some k := by
  cases h with
  | advance ht => exact .inl ht
  | campaign => exact .inl (Nat.lt_succ_self _)
  | grant _ hg =>
    rcases hg with hg | hg
    · rw [hk] at hg
      cases hg
    · exact .inr ⟨rfl, by rw [← hk, hg]⟩
  | win | seize | retire => exact .inr ⟨rfl, hk⟩
  | depose hd => exact absurd hd hD

omit [DecidableEq ι] in
theorem Rules.Move.term_le {i : ι} {x : Voter ι} {es : List (Event ι)} (h : R.Move s i x es) :
    (s.voter i).term ≤ x.term := by
  cases h with
  | advance ht => exact Nat.le_of_lt ht
  | campaign => exact Nat.le_succ _
  | _ => exact Nat.le_refl _

/-- Without depositions, the voters in `A`, among them all that may vote, go on
remembering their votes, which stay unique. -/
theorem Rules.Step.votesUnique (hD : ¬R.mayDepose) {A : Set ι} (hA : R.mayVote ⊆ A)
    (hstep : R.Step s s') (hr : ∀ i ∈ A, s.Remembers i) (hu : s.VotesUnique) :
    (∀ i ∈ A, s'.Remembers i) ∧ s'.VotesUnique := by
  obtain ⟨i, x, es, hm, rfl⟩ := hstep
  -- The mover remembers its old votes, however it moved.
  have hold : i ∈ A → ∀ t k, Event.voted i t k ∈ s.history → t < x.term ∨ t = x.term ∧
    x.vote = some k := by
    intro hi t k hv
    rcases hr i hi t k hv with ht | ⟨rfl, hk⟩
    · exact .inl (Nat.lt_of_lt_of_le ht hm.term_le)
    · rcases hm.keeps hD hk with ht | ⟨ht, hx⟩
      · exact .inl ht
      · exact .inr ⟨ht.symm, hx⟩
  -- So an old vote and a new one in the same term agree.
  have hagree : ∀ j t k k', Event.voted j t k ∈ s.history → Event.voted j t k' ∈ es → k = k' := by
    intro j t k k' hk hk'
    obtain ⟨rfl, hi, rfl, hx⟩ := hm.voted hk'
    rcases hold (hA hi) _ k hk with ht | ⟨_, hx'⟩
    · exact absurd ht (Nat.lt_irrefl _)
    · rw [hx'] at hx
      exact some.inj hx
  constructor
  · intro j hj t k hv
    rw [State.move_history, mem_append] at hv
    by_cases hji : j = i
    · subst hji
      rw [State.move_voter_self]
      rcases hv with hv | hv
      · exact hold hj t k hv
      · obtain ⟨_, _, rfl, hx⟩ := hm.voted hv
        exact .inr ⟨rfl, hx⟩
    · rw [State.move_voter_of_ne _ _ _ hji]
      rcases hv with hv | hv
      · exact hr j hj t k hv
      · exact absurd (hm.voted hv).1 hji
  · intro j t k k' hk hk'
    rw [State.move_history, mem_append] at hk hk'
    rcases hk with hk | hk <;> rcases hk' with hk' | hk'
    · exact hu j t k k' hk hk'
    · exact hagree j t k k' hk hk'
    · exact (hagree j t k' k hk' hk).symm
    · have h := (hm.voted hk).2.2.2
      rw [(hm.voted hk').2.2.2] at h
      exact (some.inj h).symm

/-- Without depositions, a run in which only the voters in `A` vote keeps their
votes remembered and unique. -/
theorem Rules.Steps.votesUnique (hD : ¬R.mayDepose) {A : Set ι} (hA : R.mayVote ⊆ A)
    (hsteps : R.Steps s s') (hr : ∀ i ∈ A, s.Remembers i) (hu : s.VotesUnique) :
    (∀ i ∈ A, s'.Remembers i) ∧ s'.VotesUnique := by
  induction hsteps with
  | refl => exact ⟨hr, hu⟩
  | tail _ hstep ih => exact hstep.votesUnique hD hA ih.1 ih.2

/-! ## Leaders are unique unless the leadership was seized -/

/-- The invariant of an election, whatever depositions occur. -/
structure Rules.Safe (R : Rules ι) (s : State ι) : Prop where
  term_le : ∀ i t k, .voted i t k ∈ s.history → t ≤ (s.voter i).term
  standing : ∀ i, (s.voter i).standing → (s.voter i).vote = some i
  /-- A vote for another binds the voter for the rest of its term. -/
  bound : ∀ i k, .voted i (s.voter i).term k ∈ s.history → k ≠ i → (s.voter i).vote = some k
  /-- A vote for oneself is forgotten only once there is another leader. -/
  deposed : ∀ i, .voted i (s.voter i).term i ∈ s.history →
    (s.voter i).vote = some i ∨ ∃ l ≠ i, .won l (s.voter i).term ∈ s.history
  others : ∀ i t k k', .voted i t k ∈ s.history → .voted i t k' ∈ s.history →
    k ≠ i → k' ≠ i → k = k'
  /-- Who votes for itself and for another did so under another leader. -/
  revoted : ∀ i t k, .voted i t i ∈ s.history → .voted i t k ∈ s.history → k ≠ i →
    ∃ l ≠ i, .won l t ∈ s.history
  elected : ∀ l t, .won l t ∈ s.history → .seized t ∈ s.history ∨
    ∃ Q ∈ R.quorum, ∀ v ∈ Q, .voted v t l ∈ s.history
  unique : ∀ l l' t, .won l t ∈ s.history → .won l' t ∈ s.history →
    .seized t ∈ s.history ∨ l = l'

section Move

variable {i k k' : ι} {t : ℕ} {x : Voter ι} {es : List (Event ι)}

omit [DecidableEq ι] in
/-- A new vote in a term the mover had already voted in was granted against the
vote it remembers. -/
theorem Rules.Move.regrant (h : R.Move s i x es) (hs : R.Safe s) (hnew : .voted i t k ∈ es)
    (hold : .voted i t k' ∈ s.history) :
    t = (s.voter i).term ∧ ((s.voter i).vote = none ∨ (s.voter i).vote = some k) := by
  have ht := hs.term_le i t k' hold
  cases h with
  | campaign =>
    simp only [mem_singleton, Event.voted.injEq] at hnew
    omega
  | grant _ hg =>
    simp only [mem_singleton, Event.voted.injEq] at hnew
    obtain ⟨_, rfl, rfl⟩ := hnew
    exact ⟨rfl, hg⟩
  | _ => simp at hnew

omit [DecidableEq ι] in
/-- A move within the term keeps the vote the mover remembers, unless it deposes it. -/
theorem Rules.Move.keeps_or_deposed (h : R.Move s i x es) (ht : x.term = (s.voter i).term)
    (hk : (s.voter i).vote = some k) :
    x.vote = some k ∨ (s.voter i).standing ∧ ∃ l ≠ i, .won l (s.voter i).term ∈ s.history := by
  cases h with
  | advance hlt => exact absurd ht (Nat.ne_of_gt hlt)
  | campaign => exact absurd ht (Nat.succ_ne_self _)
  | grant _ hg =>
    rcases hg with hg | hg
    · rw [hk] at hg
      cases hg
    · exact .inl (by rw [← hk, hg])
  | win | seize | retire => exact .inl hk
  | depose _ hst hl hwon => exact .inr ⟨hst, _, hl, hwon⟩

omit [DecidableEq ι] in
theorem Rules.Move.standing (h : R.Move s i x es) (hs : R.Safe s) (hx : x.standing) :
    x.vote = some i := by
  cases h with
  | campaign => rfl
  | grant _ hg =>
    have hi := hs.standing i hx
    rcases hg with hg | hg <;> rw [hi] at hg <;> cases hg
    rfl
  | win => exact hs.standing i hx
  | seize => exact hs.standing i hx
  | _ => cases hx

omit [DecidableEq ι] in
/-- A move that makes a leader, by a quorum or by seizing the leadership. -/
theorem Rules.Move.won {l : ι} (h : R.Move s i x es) (hw : .won l t ∈ es) :
    l = i ∧ t = (s.voter i).term ∧ (s.voter i).standing ∧
      (.seized t ∈ es ∨ ∃ Q ∈ R.quorum, ∀ v ∈ Q, .voted v t l ∈ s.history) := by
  cases h with
  | win hst hQ hv =>
    simp only [mem_singleton, Event.won.injEq] at hw
    obtain ⟨rfl, rfl⟩ := hw
    exact ⟨rfl, rfl, hst, .inr ⟨_, hQ, hv⟩⟩
  | seize hst =>
    simp only [mem_cons, not_mem_nil, or_false, reduceCtorEq, false_or,
      Event.won.injEq] at hw
    obtain ⟨rfl, rfl⟩ := hw
    exact ⟨rfl, rfl, hst, .inl mem_cons_self⟩
  | _ => simp at hw

end Move

/-- Two quorums of the same term that share a voter have the same leader, if one
was the only leader before and the other still stands: the shared voter would
have been deposed by a third. -/
theorem Rules.Safe.eq_of_quorums (hs : R.Safe s) {i l v : ι}
    (hi : (s.voter i).standing) (hl : .won l (s.voter i).term ∈ s.history)
    (hone : ∀ l', .won l' (s.voter i).term ∈ s.history → l' = l)
    (hvl : .voted v (s.voter i).term l ∈ s.history)
    (hvi : .voted v (s.voter i).term i ∈ s.history) : l = i := by
  by_contra hne
  by_cases hv : v = i
  · -- The winner stands, so it has voted for itself only.
    subst hv
    have := hs.bound v l hvl hne
    rw [hs.standing v hi] at this
    exact hne (some.inj this).symm
  · by_cases hv' : v = l
    · -- The old leader voted for the winner only after another leader deposed it.
      subst hv'
      obtain ⟨l', hl', hwon⟩ := hs.revoted v _ i hvl hvi (Ne.symm hne)
      exact hl' (hone l' hwon)
    · exact hne (hs.others v _ l i hvl hvi (Ne.symm hv') (Ne.symm hv))

/-- The invariant is kept by every step, if any two quorums intersect. -/
theorem Rules.Step.safe (hR : ∀ Q ∈ R.quorum, ∀ Q' ∈ R.quorum, ∃ v ∈ Q, v ∈ Q')
    (hstep : R.Step s s') (hs : R.Safe s) : R.Safe s' := by
  obtain ⟨i, x, es, hm, rfl⟩ := hstep
  -- An old vote in the mover's new term was given in the term it is still in.
  have hsame : ∀ k, Event.voted i x.term k ∈ s.history → x.term = (s.voter i).term := fun k hk =>
    Nat.le_antisymm (hs.term_le i _ k hk) hm.term_le
  have hseized : ∀ {t}, Event.seized t ∈ s.history → Event.seized t ∈ (s.move i x es).history := fun h =>
    mem_append_left _ h
  have hwon : ∀ {l t}, Event.won l t ∈ s.history → Event.won l t ∈ (s.move i x es).history := fun h =>
    mem_append_left _ h
  constructor
  case term_le =>
    intro j t k hv
    rw [State.move_history, mem_append] at hv
    by_cases hj : j = i
    · subst hj
      rw [State.move_voter_self]
      rcases hv with hv | hv
      · exact Nat.le_trans (hs.term_le j t k hv) hm.term_le
      · exact Nat.le_of_eq (hm.voted hv).2.2.1
    · rw [State.move_voter_of_ne _ _ _ hj]
      rcases hv with hv | hv
      · exact hs.term_le j t k hv
      · exact absurd (hm.voted hv).1 hj
  case standing =>
    intro j hj
    by_cases hji : j = i
    · subst hji
      rw [State.move_voter_self] at hj ⊢
      exact hm.standing hs hj
    · rw [State.move_voter_of_ne _ _ _ hji] at hj ⊢
      exact hs.standing j hj
  case bound =>
    intro j k hv hk
    rw [State.move_history, mem_append] at hv
    by_cases hji : j = i
    · subst hji
      rw [State.move_voter_self] at hv ⊢
      rcases hv with hv | hv
      · have ht := hsame k hv
        rw [ht] at hv
        have hvote := hs.bound j k hv hk
        rcases hm.keeps_or_deposed ht hvote with hx | ⟨hst, _⟩
        · exact hx
        · rw [hs.standing j hst] at hvote
          exact absurd (some.inj hvote).symm hk
      · exact (hm.voted hv).2.2.2
    · rw [State.move_voter_of_ne _ _ _ hji] at hv ⊢
      rcases hv with hv | hv
      · exact hs.bound j k hv hk
      · exact absurd (hm.voted hv).1 hji
  case deposed =>
    intro j hv
    rw [State.move_history, mem_append] at hv
    by_cases hji : j = i
    · subst hji
      rw [State.move_voter_self] at hv ⊢
      rcases hv with hv | hv
      · have ht := hsame j hv
        rw [ht] at hv ⊢
        rcases hs.deposed j hv with hvote | ⟨l, hl, hw⟩
        · rcases hm.keeps_or_deposed ht hvote with hx | ⟨_, l, hl, hw⟩
          · exact .inl hx
          · exact .inr ⟨l, hl, hwon hw⟩
        · exact .inr ⟨l, hl, hwon hw⟩
      · exact .inl (hm.voted hv).2.2.2
    · rw [State.move_voter_of_ne _ _ _ hji] at hv ⊢
      rcases hv with hv | hv
      · exact (hs.deposed j hv).imp_right fun ⟨l, hl, hw⟩ => ⟨l, hl, hwon hw⟩
      · exact absurd (hm.voted hv).1 hji
  case others =>
    -- A new vote in a term the mover was bound in is for whom it was bound to.
    have hbound : ∀ j t k k', Event.voted j t k ∈ s.history → Event.voted j t k' ∈ es →
      k ≠ j → k = k' := by
      intro j t k k' hk hk' hne
      obtain rfl := (hm.voted hk').1
      obtain ⟨rfl, hg⟩ := hm.regrant hs hk' hk
      rw [hs.bound j k hk hne] at hg
      rcases hg with hg | hg
      · cases hg
      · exact some.inj hg
    intro j t k k' hk hk' hne hne'
    rw [State.move_history, mem_append] at hk hk'
    rcases hk with hk | hk <;> rcases hk' with hk' | hk'
    · exact hs.others j t k k' hk hk' hne hne'
    · exact hbound j t k k' hk hk' hne
    · exact (hbound j t k' k hk' hk hne').symm
    · have h := (hm.voted hk).2.2.2
      rw [(hm.voted hk').2.2.2] at h
      exact (some.inj h).symm
  case revoted =>
    intro j t k hj hk hne
    rw [State.move_history, mem_append] at hj hk
    rcases hj with hj | hj <;> rcases hk with hk | hk
    · obtain ⟨l, hl, hw⟩ := hs.revoted j t k hj hk hne
      exact ⟨l, hl, hwon hw⟩
    · -- It voted for itself before, so it grants another only once deposed.
      obtain rfl := (hm.voted hk).1
      obtain ⟨rfl, hg⟩ := hm.regrant hs hk hj
      rcases hs.deposed j hj with hvote | ⟨l, hl, hw⟩
      · rw [hvote] at hg
        rcases hg with hg | hg
        · cases hg
        · exact absurd (some.inj hg).symm hne
      · exact ⟨l, hl, hwon hw⟩
    · -- It was bound to another before, so it does not vote for itself.
      obtain rfl := (hm.voted hj).1
      obtain ⟨rfl, hg⟩ := hm.regrant hs hj hk
      rw [hs.bound j k hk hne] at hg
      rcases hg with hg | hg
      · cases hg
      · exact absurd (some.inj hg) hne
    · have h := (hm.voted hk).2.2.2
      rw [(hm.voted hj).2.2.2] at h
      exact absurd (some.inj h).symm hne
  case elected =>
    intro l t hw
    rw [State.move_history, mem_append] at hw
    rcases hw with hw | hw
    · rcases hs.elected l t hw with h | ⟨Q, hQ, hv⟩
      · exact .inl (hseized h)
      · exact .inr ⟨Q, hQ, fun v hvQ => mem_append_left _ (hv v hvQ)⟩
    · rcases (hm.won hw).2.2.2 with h | ⟨Q, hQ, hv⟩
      · exact .inl (mem_append_right _ h)
      · exact .inr ⟨Q, hQ, fun v hvQ => mem_append_left _ (hv v hvQ)⟩
  case unique =>
    -- An old leader is the new one: their quorums share a voter.
    have hnew : ∀ l l' t, Event.won l t ∈ s.history → Event.won l' t ∈ es →
        Event.seized t ∈ (s.move i x es).history ∨ l = l' := by
      intro l l' t hl hl'
      obtain ⟨rfl, rfl, hst, h⟩ := hm.won hl'
      rcases h with h | ⟨Q', hQ', hv'⟩
      · exact .inl (mem_append_right _ h)
      · by_cases hsz : Event.seized (s.voter l').term ∈ s.history
        · exact .inl (hseized hsz)
        · obtain ⟨Q, hQ, hv⟩ := (hs.elected l _ hl).resolve_left hsz
          obtain ⟨v, hvQ, hvQ'⟩ := hR Q hQ Q' hQ'
          have hone : ∀ l'', Event.won l'' (s.voter l').term ∈ s.history → l'' = l := fun l'' h =>
            (hs.unique l'' l _ h hl).resolve_left hsz
          exact .inr (hs.eq_of_quorums hst hl hone (hv v hvQ) (hv' v hvQ'))
    intro l l' t hl hl'
    rw [State.move_history, mem_append] at hl hl'
    rcases hl with hl | hl <;> rcases hl' with hl' | hl'
    · exact (hs.unique l l' t hl hl').imp_left hseized
    · exact hnew l l' t hl hl'
    · exact (hnew l' l t hl' hl).imp_right Eq.symm
    · exact .inr ((hm.won hl).1.trans (hm.won hl').1.symm)

/-- In a run from a safe state, a term whose leadership nobody seized has at most
one leader, if any two quorums intersect. -/
theorem Rules.Steps.safe (hR : ∀ Q ∈ R.quorum, ∀ Q' ∈ R.quorum, ∃ v ∈ Q, v ∈ Q')
    (hsteps : R.Steps s s') (hs : R.Safe s) : R.Safe s' := by
  induction hsteps with
  | refl => exact hs
  | tail _ hstep ih => exact hstep.safe hR ih

/-! ## Majorities -/

section Majority

variable [Fintype ι]

/-- The sets of more than half of the voters. -/
def majorities (ι : Type*) [Fintype ι] : Set (Finset ι) := {Q | Fintype.card ι / 2 + 1 ≤ Q.card}

/-- Any two majorities share a voter. -/
theorem majorities_intersect : ∀ Q ∈ majorities ι, ∀ Q' ∈ majorities ι, ∃ v ∈ Q, v ∈ Q' := by
  intro Q hQ Q' hQ'
  by_contra hdisj
  push Not at hdisj
  have hcard : (Q ∪ Q').card = Q.card + Q'.card :=
    Finset.card_union_of_disjoint (Finset.disjoint_left.2 hdisj)
  have hle : (Q ∪ Q').card ≤ Fintype.card ι := Finset.card_le_univ _
  simp only [majorities, Set.mem_ofPred_eq] at hQ hQ'
  omega

end Majority

end Kici.Election
