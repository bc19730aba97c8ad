import Mathlib.Data.List.Induction
import Mathlib.Data.List.Nodup
import Mathlib.Data.List.Perm.Subperm
import Mathlib.Order.Nat

/-!
# Breadth-first search

A search takes what is in its queue, unless it was taken before, and puts what comes after it at the
end, unless that was taken before (`Search.next`). What it puts there it also finds
(`Search.found`), so that something is found anew by each one it comes after, until it is taken
itself.

* `Search.run_isSome`: the search ends;
* `Search.mem_found_iff`: it finds what can be reached;
* `Search.nodup_found`: it finds nothing twice if nothing comes after two that are no farther away
  than itself (`OneNear`), in whatever order things come;
* `Search.not_nodup_found`: otherwise it does, if it takes a shortest way to one of the two first.
-/

namespace Kici

open List Nat Relation

variable {α : Type*}

/-- A way of so many steps. -/
inductive Way (step : α → α → Prop) (start : α) : ℕ → α → Prop
  | zero : Way step start 0 start
  | succ {n : ℕ} {a b : α} : Way step start n a → step a b → Way step start (n + 1) b

section

variable {step : α → α → Prop} {start : α} {m n : ℕ} {a b : α} {p : ℕ → α}

/-- The first is no farther away than the second. -/
def Near (step : α → α → Prop) (start a b : α) : Prop :=
  ∃ k, Way step start k a ∧ ∀ m, Way step start m b → k ≤ m

/-- Nothing but the start comes after two others that are no farther away than itself. -/
def OneNear (step : α → α → Prop) (start : α) : Prop :=
  ∀ b ≠ start, ∀ a a', a ≠ b → a' ≠ b → step a b → step a' b → Near step start a b →
    Near step start a' b → a = a'

theorem Way.append (ha : Way step start m a) (hb : Way step a n b) : Way step start (m + n) b := by
  induction hb with
  | zero => exact ha
  | succ _ hstep ih => exact ih.succ hstep

/-- The places that a way goes through. -/
theorem Way.exists_places (h : Way step start n b) :
    ∃ p : ℕ → α, p 0 = start ∧ p n = b ∧ ∀ i < n, step (p i) (p (i + 1)) := by
  induction h with
  | zero => exact ⟨fun _ => start, rfl, rfl, fun i hi => absurd hi (Nat.not_lt_zero i)⟩
  | @succ n a b _ hstep ih =>
    obtain ⟨p, hzero, hlast, hp⟩ := ih
    refine ⟨fun i => if i ≤ n then p i else b, (if_pos (Nat.zero_le n)).trans hzero,
      if_neg (not_succ_le_self n), fun i hi => ?_⟩
    have hle : i ≤ n := Nat.lt_succ_iff.1 hi
    dsimp only
    rw [if_pos hle]
    rcases hle.lt_or_eq with hlt | rfl
    · rw [if_pos (succ_le_of_lt hlt)]
      exact hp i hlt
    · rw [if_neg (not_succ_le_self i), hlast]
      exact hstep

/-- The part of a way between two of its places. -/
theorem way_between (hp : ∀ i < n, step (p i) (p (i + 1))) (i k : ℕ) (hik : i + k ≤ n) :
    Way step (p i) k (p (i + k)) := by
  induction k with
  | zero => exact .zero
  | succ k ih => exact (ih (by omega)).succ (hp (i + k) (by omega))

/-- To each place of a shortest way it is a shortest way. -/
theorem shortest_of_places (hzero : p 0 = start) (hp : ∀ i < n, step (p i) (p (i + 1)))
    (hshort : ∀ m, Way step start m (p n) → n ≤ m) {i : ℕ} (hi : i ≤ n) :
    Way step start i (p i) ∧ ∀ m, Way step start m (p i) → i ≤ m := by
  refine ⟨?_, fun m hm => ?_⟩
  · have hwalk := way_between hp 0 i (by omega)
    rwa [hzero, Nat.zero_add] at hwalk
  · have hrest := way_between hp i (n - i) (by omega)
    rw [Nat.add_sub_cancel' hi] at hrest
    have hle := hshort _ (hm.append hrest)
    omega

/-- A shortest way goes through no place twice. -/
theorem places_injective (hzero : p 0 = start) (hp : ∀ i < n, step (p i) (p (i + 1)))
    (hshort : ∀ m, Way step start m (p n) → n ≤ m) {i j : ℕ} (hi : i ≤ n) (hj : j ≤ n)
    (h : p i = p j) : i = j := by
  obtain ⟨hwalk, hle⟩ := shortest_of_places hzero hp hshort hi
  obtain ⟨hwalk', hle'⟩ := shortest_of_places hzero hp hshort hj
  exact Nat.le_antisymm (hle j (h ▸ hwalk')) (hle' i (h ▸ hwalk))

/-- Something that can be reached is reached by a shortest way. -/
theorem exists_shortest (h : ∃ n, Way step start n a) :
    ∃ n, Way step start n a ∧ ∀ m, Way step start m a → n ≤ m := by
  classical
  exact ⟨Nat.find h, Nat.find_spec h, fun m hm => find_le hm⟩

/-- Otherwise something comes after one on a shortest way to it and after another one that is no
farther away. -/
theorem exists_of_not_oneNear (h : ¬ OneNear step start) : ∃ x n b d c k,
    (∀ m, Way step start m x → n ≤ m) ∧ x ≠ b ∧
    (Way step start d b ∧ ∀ m, Way step start m b → d ≤ m) ∧ d ≤ n ∧ step b x ∧
      Way step start k c ∧ k < n ∧ step c x ∧ c ≠ b := by
  rw [OneNear] at h
  push Not at h
  obtain ⟨x, hx, a, a', hax, hax', hstep, hstep', ⟨i, hi, hia⟩, ⟨i', hi', hia'⟩, hne⟩ := h
  obtain ⟨n, hn, hshort⟩ := exists_shortest ⟨_, hi.succ hstep⟩
  rcases hn with _ | ⟨hc, hcx⟩
  · exact absurd rfl hx
  next k c =>
  -- of the two, one is not the last one on the way
  have hb : ∃ b i, Way step start i b ∧ i ≤ k + 1 ∧ step b x ∧ b ≠ x ∧ c ≠ b := by
    by_cases hca : c = a
    · exact ⟨a', i', hi', hia' _ (hc.succ hcx), hstep', hax', hca ▸ hne⟩
    · exact ⟨a, i, hi, hia _ (hc.succ hcx), hstep, hax, hca⟩
  obtain ⟨b, i, hib, hle, hbx, hbne, hcb⟩ := hb
  obtain ⟨d, hd, hdshort⟩ := exists_shortest ⟨i, hib⟩
  exact ⟨x, k + 1, b, d, c, k, hshort, hbne.symm, ⟨hd, hdshort⟩, (hdshort i hib).trans hle, hbx, hc,
    lt_succ_self k, hcx, hcb⟩

end

/-- A search that goes on. -/
structure Search (α : Type*) where
  queue : List α
  visited : List α
  found : List α

namespace Search

variable [DecidableEq α] (succ : α → List α)

/-- The second comes after the first. -/
abbrev Follows (a b : α) : Prop := b ∈ succ a

/-- What comes after something that is taken, without what was taken before. -/
def after (visited : List α) (a : α) : List α := (succ a).filter (· ∉ a :: visited)

/-- Take the first of the queue. -/
def next (s : Search α) : Option (Search α) :=
  match s.queue with
  | [] => none
  | a :: queue =>
    if a ∈ s.visited then some { s with queue }
    else some ⟨queue ++ after succ s.visited a, a :: s.visited, s.found ++ after succ s.visited a⟩

/-- What a search finds that takes no more than so many times. -/
def run : ℕ → Search α → Option (List α)
  | 0, s => if s.queue = [] then some s.found else none
  | fuel + 1, s =>
    match s.next succ with
    | none => some s.found
    | some t => run fuel t

def start (a : α) : Search α := ⟨[a], [], []⟩

/-- A search goes on from one state to another. -/
abbrev Leads (s t : Search α) : Prop := ReflTransGen (fun s t => s.next succ = some t) s t

variable {succ} {s t : Search α} {a b : α} {fuel : ℕ} {found : List α}

theorem next_eq_none (h : s.next succ = none) : s.queue = [] := by
  rw [next] at h
  split at h
  · next hqueue => exact hqueue
  · split at h <;> cases h

/-- What taking does. -/
theorem next_cases (h : s.next succ = some t) : ∃ a queue, s.queue = a :: queue ∧
    (a ∈ s.visited ∧ t = { s with queue } ∨ a ∉ s.visited ∧
      t = ⟨queue ++ after succ s.visited a, a :: s.visited, s.found ++ after succ s.visited a⟩) := by
  rw [next] at h
  split at h
  · cases h
  · next a queue hqueue =>
    refine ⟨a, queue, hqueue, ?_⟩
    split at h
    · next hmem => exact .inl ⟨hmem, (Option.some.inj h).symm⟩
    · next hmem => exact .inr ⟨hmem, (Option.some.inj h).symm⟩

theorem mem_after {visited : List α} : b ∈ after succ visited a ↔ b ∈ succ a ∧ b ≠ a ∧ b ∉ visited := by
  simp [after]

theorem run_zero : s.run succ 0 = if s.queue = [] then some s.found else none := rfl

theorem run_succ : s.run succ (fuel + 1) =
    match s.next succ with
    | none => some s.found
    | some t => t.run succ fuel := rfl

/-- A search that ends has gone on to the end. -/
theorem leads_of_run (h : s.run succ fuel = some found) : ∃ t, Leads succ s t ∧ t.queue = [] ∧
    t.found = found := by
  induction fuel generalizing s with
  | zero =>
    rw [run_zero] at h
    split at h
    · next hqueue => exact ⟨s, .refl, hqueue, Option.some.inj h⟩
    · cases h
  | succ fuel ih =>
    rw [run_succ] at h
    split at h
    · next hnone => exact ⟨s, .refl, next_eq_none hnone, Option.some.inj h⟩
    · next t hnext =>
      obtain ⟨u, hlead, hqueue, hfound⟩ := ih h
      exact ⟨u, .head hnext hlead, hqueue, hfound⟩

/-- What is on the way to the end is there in the end. -/
theorem run_of_leads (h : Leads succ s t) (hrun : s.run succ fuel = some found) : ∃ fuel,
    t.run succ fuel = some found := by
  induction h with
  | refl => exact ⟨fuel, hrun⟩
  | tail _ hnext ih =>
    obtain ⟨fuel, hfuel⟩ := ih
    rcases fuel with _ | fuel
    · rw [run_zero] at hfuel
      split at hfuel
      · next hqueue =>
        rw [next, hqueue] at hnext
        cases hnext
      · cases hfuel
    · rw [run_succ, hnext] at hfuel
      exact ⟨fuel, hfuel⟩

/-! ## The search ends -/

/-- The edges of the one that is taken are used up. -/
theorem countP_notMem_cons {visited : List α} (edges : List (α × α)) (h : a ∉ visited) :
    edges.countP (fun e => e.1 ∉ a :: visited) + edges.countP (fun e => e.1 = a) =
      edges.countP fun e => e.1 ∉ visited := by
  induction edges with
  | nil => rfl
  | cons e edges ih =>
    rw [countP_cons, countP_cons, countP_cons, ← ih]
    by_cases hea : e.1 = a
    · simp [hea, h]
      omega
    · by_cases hvisited : e.1 ∈ visited
      · simp [hea, hvisited]
      · simp [hea, hvisited]
        omega

/-- A search that has edges enough for what comes after the ones to be taken ends. -/
theorem run_isSome {edges : List (α × α)} (hsucc : ∀ a, (succ a).length ≤ edges.countP fun e => e.1 = a)
    (hfuel : s.queue.length + edges.countP (fun e => e.1 ∉ s.visited) ≤ fuel) :
    (s.run succ fuel).isSome := by
  induction fuel generalizing s with
  | zero =>
    have hqueue : s.queue = [] := length_eq_zero_iff.1 (by omega)
    rw [run_zero, if_pos hqueue]
    rfl
  | succ fuel ih =>
    rw [run_succ]
    split
    · rfl
    · next t hnext =>
      refine ih ?_
      obtain ⟨a, queue, hqueue, ⟨-, rfl⟩ | ⟨hmem, rfl⟩⟩ := next_cases hnext
      · rw [hqueue, length_cons] at hfuel
        dsimp only
        omega
      · have hafter : (after succ s.visited a).length ≤ edges.countP fun e => e.1 = a :=
          (length_filter_le _ _).trans (hsucc a)
        have hused := countP_notMem_cons edges hmem
        rw [hqueue, length_cons] at hfuel
        dsimp only
        rw [length_append]
        omega

/-! ## What it finds -/

section

variable {first : α} {queue : List α}

/-- What holds at any time of a search for what can be reached. -/
structure Sound (succ : α → List α) (first : α) (s : Search α) : Prop where
  nodup : s.visited.Nodup
  reached : ∀ a ∈ s.queue, ReflTransGen (Follows succ) first a
  queued : ∀ a ∈ s.queue, a = first ∨ a ∈ s.found
  begun : first ∈ s.visited ∨ s = start first
  visited : ∀ a ∈ s.visited, a = first ∨ a ∈ s.found
  found : ∀ a ∈ s.found, a ≠ first ∧ ReflTransGen (Follows succ) first a
  closed : ∀ a ∈ s.visited, ∀ b ∈ succ a, b ∈ s.visited ∨ b ∈ s.queue

omit [DecidableEq α] in
theorem sound_start (succ : α → List α) (first : α) : Sound succ first (start first) where
  nodup := nodup_nil
  reached _ ha := mem_singleton.1 ha ▸ .refl
  queued _ ha := .inl (mem_singleton.1 ha)
  begun := .inr rfl
  visited := nofun
  found := nofun
  closed := nofun

omit [DecidableEq α] in
/-- What was taken before is left out. -/
theorem Sound.skip (h : Sound succ first s) (hqueue : s.queue = a :: queue) (hmem : a ∈ s.visited) :
    Sound succ first { s with queue } := by
  have hsub : ∀ b ∈ queue, b ∈ s.queue := fun b hb => hqueue ▸ mem_cons_of_mem a hb
  refine ⟨h.nodup, fun b hb => h.reached b (hsub b hb), fun b hb => h.queued b (hsub b hb), .inl ?_,
    h.visited, h.found, fun b hb c hc => ?_⟩
  · refine h.begun.resolve_right fun hstart => ?_
    rw [hstart] at hmem
    cases hmem
  -- what left the queue is the one that was taken before
  · rcases h.closed b hb c hc with hc | hc
    · exact .inl hc
    · rw [hqueue] at hc
      rcases mem_cons.1 hc with rfl | hc
      · exact .inl hmem
      · exact .inr hc

omit [DecidableEq α] in
theorem Sound.first_mem (h : Sound succ first s) (hqueue : s.queue = a :: queue) :
    first ∈ a :: s.visited := by
  rcases h.begun with hvisited | rfl
  · exact mem_cons_of_mem a hvisited
  · obtain ⟨rfl, -⟩ := List.cons.inj hqueue
    exact mem_cons_self

/-- What is taken puts what comes after it into the queue. -/
theorem Sound.take (h : Sound succ first s) (hqueue : s.queue = a :: queue) (hmem : a ∉ s.visited) :
    Sound succ first ⟨queue ++ after succ s.visited a, a :: s.visited,
      s.found ++ after succ s.visited a⟩ := by
  have hsub : ∀ b ∈ queue, b ∈ s.queue := fun b hb => hqueue ▸ mem_cons_of_mem a hb
  have ha : a ∈ s.queue := hqueue ▸ mem_cons_self
  have hfirst := h.first_mem hqueue
  have hafter : ∀ b ∈ after succ s.visited a, ReflTransGen (Follows succ) first b := fun b hb =>
    (h.reached a ha).tail (mem_after.1 hb).1
  refine ⟨nodup_cons.2 ⟨hmem, h.nodup⟩, fun b hb => ?_, fun b hb => ?_, .inl hfirst, fun b hb => ?_,
    fun b hb => ?_, fun b hb c hc => ?_⟩
  · exact (mem_append.1 hb).elim (fun hb => h.reached b (hsub b hb)) (hafter b)
  · rcases mem_append.1 hb with hb | hb
    · exact (h.queued b (hsub b hb)).imp_right (mem_append_left _)
    · exact .inr (mem_append_right _ hb)
  · rcases mem_cons.1 hb with rfl | hb
    · exact (h.queued b ha).imp_right (mem_append_left _)
    · exact (h.visited b hb).imp_right (mem_append_left _)
  · rcases mem_append.1 hb with hb | hb
    · exact h.found b hb
    · refine ⟨?_, hafter b hb⟩
      rintro rfl
      obtain ⟨-, hne, hnot⟩ := mem_after.1 hb
      exact (mem_cons.1 hfirst).elim hne hnot
  · by_cases hcv : c ∈ a :: s.visited
    · exact .inl hcv
    refine .inr (mem_append.2 ?_)
    rcases mem_cons.1 hb with rfl | hb
    · rw [mem_cons, not_or] at hcv
      exact .inr (mem_after.2 ⟨hc, hcv.1, hcv.2⟩)
    · rcases h.closed b hb c hc with hold | hold
      · exact absurd (mem_cons_of_mem a hold) hcv
      · rw [hqueue] at hold
        exact .inl ((mem_cons.1 hold).resolve_left fun heq => hcv (heq ▸ mem_cons_self))

theorem Sound.next (h : Sound succ first s) (hnext : s.next succ = some t) : Sound succ first t := by
  obtain ⟨a, queue, hqueue, ⟨hmem, rfl⟩ | ⟨hmem, rfl⟩⟩ := next_cases hnext
  · exact h.skip hqueue hmem
  · exact h.take hqueue hmem

theorem Sound.leads (h : Sound succ first s) (hlead : Leads succ s t) : Sound succ first t := by
  induction hlead with
  | refl => exact h
  | tail _ hnext ih => exact ih.next hnext

/-- A search finds what can be reached from the start, but for the start. -/
theorem mem_found_iff (h : (start first).run succ fuel = some found) :
    a ∈ found ↔ a ≠ first ∧ ReflTransGen (Follows succ) first a := by
  obtain ⟨t, hlead, hqueue, rfl⟩ := leads_of_run h
  have hsound := (sound_start succ first).leads hlead
  refine ⟨hsound.found a, ?_⟩
  rintro ⟨hne, hreach⟩
  have hvisited : a ∈ t.visited := by
    induction hreach with
    | refl => exact absurd rfl hne
    | @tail b c hreach hstep ih =>
      have hb : b ∈ t.visited := by
        by_cases hfirst : b = first
        · rw [hfirst]
          refine hsound.begun.resolve_right fun hstart => ?_
          rw [hstart] at hqueue
          cases hqueue
        · exact ih hfirst
      refine (hsound.closed b hb c hstep).resolve_right fun hc => ?_
      rw [hqueue] at hc
      exact not_mem_nil hc
  exact (hsound.visited a hvisited).resolve_left hne

/-! ## How often it finds something -/

theorem Leads.sound (h : Leads succ (start first) s) : Sound succ first s :=
  (sound_start succ first).leads h

/-- What was not taken yet was found once by each one that it comes after. -/
theorem count_found (hsucc : ∀ a, (succ a).Nodup) (h : Leads succ (start first) s) (hb : b ∉ s.visited) :
    s.found.count b = s.visited.countP fun a => b ∈ succ a := by
  induction h with
  | refl => rfl
  | @tail s t _ hnext ih =>
    obtain ⟨a, queue, hqueue, ⟨hmem, rfl⟩ | ⟨hmem, rfl⟩⟩ := next_cases hnext
    · exact ih hb
    · rw [mem_cons, not_or] at hb
      have hnodup : (after succ s.visited a).Nodup := (hsucc a).filter _
      rw [count_append, countP_cons, ih hb.2, hnodup.count]
      simp [mem_after, hb]

/-- What is in the queue comes in two levels; all that is nearer was taken. -/
structure Level (succ : α → List α) (first : α) (n : ℕ) (s : Search α) (now later : List α) : Prop where
  queue_eq : s.queue = now ++ later
  walk : ∀ a ∈ now, Way (Follows succ) first n a
  walk_later : ∀ a ∈ later, Way (Follows succ) first (n + 1) a
  done : ∀ m < n, ∀ a, Way (Follows succ) first m a → a ∈ s.visited
  here : ∀ a, Way (Follows succ) first n a → a ∈ s.visited ∨ a ∈ now
  visited : ∀ a ∈ s.visited, ∃ m ≤ n, Way (Follows succ) first m a

variable {n : ℕ} {now later : List α}

omit [DecidableEq α] in
theorem level_start (succ : α → List α) (first : α) : Level succ first 0 (start first) [first] [] where
  queue_eq := rfl
  walk _ ha := mem_singleton.1 ha ▸ .zero
  walk_later := nofun
  done _ hm := absurd hm (Nat.not_lt_zero _)
  here a ha := by
    cases ha
    exact .inr (mem_singleton_self _)
  visited := nofun

omit [DecidableEq α] in
/-- When a level is over, the next one begins. -/
theorem Level.shift (h : Level succ first n s [] later) (hsound : Sound succ first s) :
    Level succ first (n + 1) s later [] where
  queue_eq := h.queue_eq.trans (append_nil later).symm
  walk := h.walk_later
  walk_later := nofun
  done m hm a ha := by
    rcases (Nat.lt_succ_iff.1 hm).lt_or_eq with hlt | rfl
    · exact h.done m hlt a ha
    · exact (h.here a ha).resolve_right not_mem_nil
  here a ha := by
    rcases ha with _ | ⟨hc, hca⟩
    next c =>
    have hvisited : c ∈ s.visited := (h.here c hc).resolve_right not_mem_nil
    refine (hsound.closed c hvisited a hca).imp_right fun hqueue => ?_
    rw [h.queue_eq] at hqueue
    exact hqueue
  visited a ha := by
    obtain ⟨m, hm, hwalk⟩ := h.visited a ha
    exact ⟨m, hm.trans (le_succ n), hwalk⟩

/-- The first of a level is taken; what comes after it is of the next level. -/
theorem Level.next (h : Level succ first n s (a :: now) later) :
    ∃ t later', s.next succ = some t ∧ Level succ first n t now later' ∧ later <+: later' ∧
      (∀ b, b ∈ t.visited ↔ b = a ∨ b ∈ s.visited) ∧
      (a ∉ s.visited → later' = later ++ after succ s.visited a) := by
  have hqueue : s.queue = a :: (now ++ later) := h.queue_eq
  by_cases hmem : a ∈ s.visited
  · refine ⟨{ s with queue := now ++ later }, later, by rw [Search.next, hqueue]; exact if_pos hmem,
      ⟨rfl, fun b hb => h.walk b (mem_cons_of_mem a hb), h.walk_later, h.done, fun b hb =>
        ?_, h.visited⟩,
      prefix_rfl, fun b => ?_, fun hnot => absurd hmem hnot⟩
    · rcases h.here b hb with hb | hb
      · exact .inl hb
      · rcases mem_cons.1 hb with rfl | hb
        · exact .inl hmem
        · exact .inr hb
    · exact ⟨.inr, fun hb => hb.elim (fun heq => heq ▸ hmem) id⟩
  · refine ⟨⟨now ++ later ++ after succ s.visited a, a :: s.visited, s.found ++ after succ s.visited a⟩,
      later ++ after succ s.visited a, by rw [Search.next, hqueue]; exact if_neg hmem,
      ⟨append_assoc .., fun b hb => h.walk b (mem_cons_of_mem a hb), fun b hb => ?_, fun m hm b hb => ?_,
        fun b hb => ?_, fun b hb => ?_⟩, prefix_append .., fun b => mem_cons, fun _ => rfl⟩
    · rcases mem_append.1 hb with hb | hb
      · exact h.walk_later b hb
      · exact (h.walk a mem_cons_self).succ (mem_after.1 hb).1
    · exact mem_cons_of_mem a (h.done m hm b hb)
    · rcases h.here b hb with hb | hb
      · exact .inl (mem_cons_of_mem a hb)
      · rcases mem_cons.1 hb with rfl | hb
        · exact .inl mem_cons_self
        · exact .inr hb
    · rcases mem_cons.1 hb with rfl | hb
      · exact ⟨n, le_rfl, h.walk b mem_cons_self⟩
      · exact h.visited b hb

omit [DecidableEq α] in
/-- What is taken next is first in its level. -/
theorem exists_level_cons (h : Level succ first n s now later) (hsound : Sound succ first s)
    (hqueue : s.queue = a :: queue) : ∃ n now later, Level succ first n s (a :: now) later := by
  rcases now with _ | ⟨a', now⟩
  · have hnext := h.shift hsound
    have heq : later = a :: queue := by
      rw [← hqueue, h.queue_eq]
      rfl
    exact ⟨n + 1, queue, [], heq ▸ hnext⟩
  · have heq := h.queue_eq.symm.trans hqueue
    obtain ⟨rfl, -⟩ := List.cons.inj heq
    exact ⟨n, now, later, h⟩

theorem exists_level (h : Leads succ (start first) s) : ∃ n now later,
    Level succ first n s now later := by
  induction h with
  | refl => exact ⟨0, _, _, level_start succ first⟩
  | @tail s t hlead hnext ih =>
    obtain ⟨n, now, later, hlevel⟩ := ih
    obtain ⟨a, queue, hqueue, -⟩ := next_cases hnext
    obtain ⟨n, now, later, hlevel⟩ := exists_level_cons hlevel (Leads.sound hlead) hqueue
    obtain ⟨t', later', hnext', hlevel', -⟩ := hlevel.next
    rw [hnext] at hnext'
    cases hnext'
    exact ⟨n, now, later', hlevel'⟩

/-- Where nothing comes after two that are no farther away, nothing is found twice. -/
theorem nodup_found (hsucc : ∀ a, (succ a).Nodup) (honce : OneNear (Follows succ) first)
    (h : Leads succ (start first) s) : s.found.Nodup := by
  induction h with
  | refl => exact nodup_nil
  | @tail s t hlead hnext ih =>
    obtain ⟨a, queue, hqueue, ⟨-, rfl⟩ | ⟨hmem, rfl⟩⟩ := next_cases hnext
    · exact ih
    refine nodup_append.2 ⟨ih, (hsucc a).filter _, fun b hb b' hb' heq => ?_⟩
    subst heq
    obtain ⟨hab, hne, hnot⟩ := mem_after.1 hb'
    -- another one has found it before
    have hcount : 0 < s.visited.countP fun a => b ∈ succ a :=
      count_found hsucc hlead hnot ▸ count_pos_iff.2 hb
    obtain ⟨c, hc, hcb⟩ := countP_pos_iff.1 hcount
    have hsound := Leads.sound hlead
    obtain ⟨n, now, later, hlevel⟩ := exists_level hlead
    obtain ⟨n, now, later, hlevel⟩ := exists_level_cons hlevel hsound hqueue
    -- all that is nearer was taken, and `b` was not
    have hfar : ∀ m, Way (Follows succ) first m b → n ≤ m := fun m hm => by
      by_contra hlt
      exact hnot (hlevel.done m (not_le.1 hlt) b hm)
    have hnear : Near (Follows succ) first a b := ⟨n, hlevel.walk a mem_cons_self, hfar⟩
    have hnear' : Near (Follows succ) first c b := by
      obtain ⟨k, hk, hwalk⟩ := hlevel.visited c hc
      exact ⟨k, hwalk, fun m hm => hk.trans (hfar m hm)⟩
    have hcb' : c ≠ b := fun heq => hnot (heq ▸ hc)
    have hca : a = c := honce b (hsound.found b hb).1 a c hne.symm hcb' hab (of_decide_eq_true hcb)
      hnear hnear'
    exact hmem (hca ▸ hc)

/-- A level is taken as a whole. -/
theorem Level.sweep (h : Level succ first n s now later) :
    ∃ t later', Leads succ s t ∧ Level succ first n t [] later' ∧ later <+: later' ∧
      ∀ b ∈ t.visited, b ∈ s.visited ∨ b ∈ now := by
  induction now generalizing s later with
  | nil => exact ⟨s, later, .refl, h, prefix_rfl, fun b hb => .inl hb⟩
  | cons a now ih =>
    obtain ⟨t, later', hnext, hlevel, hprefix, hvisited, -⟩ := h.next
    obtain ⟨u, later'', hlead, hlevel', hprefix', hvisited'⟩ := ih hlevel
    refine ⟨u, later'', .head hnext hlead, hlevel', hprefix.trans hprefix', fun b hb => ?_⟩
    rcases hvisited' b hb with hb | hb
    · rcases (hvisited b).1 hb with rfl | hb
      · exact .inr mem_cons_self
      · exact .inl hb
    · exact .inr (mem_cons_of_mem a hb)

/-! ## A shortest way taken first -/

/-- The places of a shortest way, each of which comes first after the one before it. -/
structure Foremost (succ : α → List α) (first : α) (p : ℕ → α) (d : ℕ) : Prop where
  zero : p 0 = first
  head : ∀ i < d, (succ (p i)).head? = some (p (i + 1))
  shortest : ∀ m, Way (Follows succ) first m (p d) → d ≤ m

namespace Foremost

variable {p : ℕ → α} {d : ℕ} (h : Foremost succ first p d)

include h

omit [DecidableEq α] in
theorem step (i : ℕ) (hi : i < d) : Follows succ (p i) (p (i + 1)) := mem_of_mem_head? (h.head i hi)

omit [DecidableEq α] in
theorem walk {i : ℕ} (hi : i ≤ d) : Way (Follows succ) first i (p i) :=
  (shortest_of_places h.zero h.step h.shortest hi).1

omit [DecidableEq α] in
theorem shortest_place {i m : ℕ} (hi : i ≤ d) (hm : Way (Follows succ) first m (p i)) : i ≤ m :=
  (shortest_of_places h.zero h.step h.shortest hi).2 m hm

/-- When a level begins, the place of the way is the first of it. -/
theorem exists_level (n : ℕ) : ∃ s now, Leads succ (start first) s ∧ Level succ first n s now [] ∧
    (∀ a ∈ s.visited, ∃ m < n, Way (Follows succ) first m a) ∧ (n ≤ d → now.head? = some (p n)) := by
  induction n with
  | zero =>
    refine ⟨_, _, .refl, level_start succ first, nofun, fun _ => ?_⟩
    rw [h.zero]
    rfl
  | succ n ih =>
    obtain ⟨s, now, hlead, hlevel, hvisited, hhead⟩ := ih
    have hbelow : ∀ {t : Search α}, (∀ b ∈ t.visited, b ∈ s.visited ∨ b ∈ now) →
        ∀ a ∈ t.visited, ∃ m < n + 1, Way (Follows succ) first m a := by
      intro t ht a ha
      rcases ht a ha with ha | ha
      · obtain ⟨m, hm, hwalk⟩ := hvisited a ha
        exact ⟨m, hm.trans (lt_succ_self n), hwalk⟩
      · exact ⟨n, lt_succ_self n, hlevel.walk a ha⟩
    by_cases hn : n + 1 ≤ d
    · -- the place of the way is taken first, so that its successor is the first of the next level
      obtain ⟨now, rfl⟩ : ∃ rest, now = p n :: rest := head?_eq_some_iff.1 (hhead (le_of_succ_le hn))
      have hfresh : p n ∉ s.visited := fun hmem => by
        obtain ⟨m, hm, hwalk⟩ := hvisited _ hmem
        exact absurd (h.shortest_place (le_of_succ_le hn) hwalk) (not_le.2 hm)
      obtain ⟨t, later, hnext, hlevel', -, hvisited', hlater⟩ := hlevel.next
      obtain ⟨u, later', hlead', hlevel'', hprefix, hvisited''⟩ := hlevel'.sweep
      have hlead'' : Leads succ (start first) u := (hlead.tail hnext).trans hlead'
      refine ⟨u, later', hlead'', hlevel''.shift (Leads.sound hlead''), hbelow fun b hb =>
        ?_, fun _ => ?_⟩
      · rcases hvisited'' b hb with hb | hb
        · rcases (hvisited' b).1 hb with rfl | hb
          · exact .inr mem_cons_self
          · exact .inl hb
        · exact .inr (mem_cons_of_mem _ hb)
      · obtain ⟨rest, hrest⟩ := head?_eq_some_iff.1 (h.head n hn)
        have hnew : p (n + 1) ∉ p n :: s.visited := fun hmem => by
          rcases mem_cons.1 hmem with heq | hmem
          · have hle := h.shortest_place hn (heq ▸ h.walk (le_of_succ_le hn))
            omega
          · obtain ⟨m, hm, hwalk⟩ := hvisited _ hmem
            have hle := h.shortest_place hn hwalk
            omega
        have hfirst : later = p (n + 1) :: rest.filter (· ∉ p n :: s.visited) := by
          rw [hlater hfresh, nil_append, after, hrest]
          exact filter_cons_of_pos (decide_eq_true hnew)
        obtain ⟨more, rfl⟩ := hprefix
        rw [hfirst]
        rfl
    · obtain ⟨u, later', hlead', hlevel', -, hvisited'⟩ := hlevel.sweep
      have hlead'' : Leads succ (start first) u := hlead.trans hlead'
      exact ⟨u, later', hlead'', hlevel'.shift (Leads.sound hlead''), hbelow hvisited', fun hle =>
        absurd hle hn⟩

end Foremost

theorem prefix_of_leads (h : Leads succ s t) : s.found <+: t.found := by
  induction h with
  | refl => exact prefix_rfl
  | tail _ hnext ih =>
    obtain ⟨a, queue, -, ⟨-, rfl⟩ | ⟨-, rfl⟩⟩ := next_cases hnext
    · exact ih
    · exact ih.trans (prefix_append _ _)

/-- What comes after two that were taken before it is found twice. -/
theorem two_le_count {c : α} (hsucc : ∀ a, (succ a).Nodup) (h : Leads succ (start first) s)
    (hb : b ∉ s.visited)
    (ha : a ∈ s.visited) (hc : c ∈ s.visited) (hne : c ≠ a) (hab : b ∈ succ a) (hcb : b ∈ succ c) :
    2 ≤ s.found.count b := by
  rw [count_found hsucc h hb, countP_eq_length_filter]
  have hpair : [c, a].Nodup := by simpa using hne
  refine (subperm_of_subset hpair fun x hx => ?_).length_le
  rcases mem_pair.1 hx with rfl | rfl
  · exact mem_filter.2 ⟨hc, decide_eq_true hcb⟩
  · exact mem_filter.2 ⟨ha, decide_eq_true hab⟩

/-- Where something comes after the last place of a shortest way, which is no farther away than
itself, and after another one that is nearer, it is found twice, if the way is taken first. -/
theorem not_nodup_found {p : ℕ → α} {d k n : ℕ} {x c : α} (hsucc : ∀ a, (succ a).Nodup)
    (h : Foremost succ first p d)
    (hx : ∀ m, Way (Follows succ) first m x → n ≤ m) (hxb : x ≠ p d) (hd : d ≤ n) (hbx : x ∈ succ (p d))
    (hc : Way (Follows succ) first k c) (hk : k < n) (hcx : x ∈ succ c) (hne : c ≠ p d)
    (hrun : (start first).run succ fuel = some found) : ¬ found.Nodup := by
  obtain ⟨s, now, hlead, hlevel, hvisited, hhead⟩ := h.exists_level n
  have hxs : x ∉ s.visited := fun hmem => by
    obtain ⟨m, hm, hwalk⟩ := hvisited x hmem
    exact absurd (hx m hwalk) (not_le.2 hm)
  have hcs : c ∈ s.visited := hlevel.done k hk c hc
  have htwice : ∃ t, Leads succ (start first) t ∧ 2 ≤ t.found.count x := by
    by_cases hps : p d ∈ s.visited
    · exact ⟨s, hlead, two_le_count hsucc hlead hxs hps hcs hne hbx hcx⟩
    · -- the way is as long as the shortest one to what is found: its last place is taken now
      obtain rfl : d = n := by
        by_contra hdn
        exact hps (hlevel.done d (lt_of_le_of_ne hd hdn) _ (h.walk le_rfl))
      obtain ⟨now, rfl⟩ : ∃ rest, now = p d :: rest := head?_eq_some_iff.1 (hhead le_rfl)
      obtain ⟨t, -, hnext, -, -, hvisited', -⟩ := hlevel.next
      have hxt : x ∉ t.visited := fun hmem => ((hvisited' x).1 hmem).elim hxb hxs
      exact ⟨t, hlead.tail hnext, two_le_count hsucc (hlead.tail hnext) hxt ((hvisited' _).2 (.inl rfl))
        ((hvisited' _).2 (.inr hcs)) hne hbx hcx⟩
  obtain ⟨t, hleadt, hcount⟩ := htwice
  obtain ⟨fuel', hrun'⟩ := run_of_leads hleadt hrun
  obtain ⟨u, hleadu, -, rfl⟩ := leads_of_run hrun'
  intro hnodup
  have hle := nodup_iff_count_le_one.1 (hnodup.sublist (prefix_of_leads hleadu).sublist) x
  omega

end

end Search

end Kici
