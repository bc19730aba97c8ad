import Kici.Foundation.Table

/-!
# Inverted indexes

An index lists, under every key, the ids of the things that have it (`Index`). It is kept as things
come and go (`insert`, `erase`), and narrows ids down to those that are under all of some keys
(`narrow`).

An index of a table lists its rows under their keys (`Lists`). It does so after a row is deleted,
put or updated, if the index is changed along (`Lists.delete`, `Lists.put`, `Lists.execute`), and
under no key an id twice (`Distinct`).

An index mirrors a map from ids to keys that has every id under its key and no other (`Mirrors`). If
both are changed along, it still does exactly if the id had no other key (`Mirrors.insert_iff`,
`Mirrors.erase_iff`).
-/

namespace Kici

open Function List Table

/-- The ids under a key. -/
abbrev Index (κ ι : Type*) := κ → List ι

namespace Index

variable {κ ι : Type*} [DecidableEq ι]

/-- Those of the ids that are under all keys. -/
def narrow (index : Index κ ι) (ids : List ι) : List κ → List ι
  | [] => ids
  | key :: keys =>
    if index key = [] then []
    else
      let ids := ids.filter (· ∈ index key)
      if ids = [] then [] else narrow index ids keys

theorem mem_narrow {index : Index κ ι} {keys : List κ} {ids : List ι} {id : ι} :
    id ∈ index.narrow ids keys ↔ id ∈ ids ∧ ∀ key ∈ keys, id ∈ index key := by
  induction keys generalizing ids with
  | nil => simp [narrow]
  | cons key keys ih =>
    have hfilter : id ∈ ids.filter (· ∈ index key) ↔ id ∈ ids ∧ id ∈ index key := by simp
    rw [narrow, forall_mem_cons, ← and_assoc, ← hfilter]
    split
    · next hnone => simp [hnone]
    · simp only
      split
      · next hnone => simp [hnone]
      · exact ih

variable [DecidableEq κ] (index : Index κ ι) (keys : List κ) (id : ι)

/-- Put an id under keys. -/
def insert : Index κ ι := fun key =>
  if key ∈ keys ∧ id ∉ index key then index key ++ [id] else index key

/-- Take an id from under keys. -/
def erase : Index κ ι := fun key => if key ∈ keys then (index key).filter (· ≠ id) else index key

variable {index keys id} {key : κ} {other : ι}

theorem mem_insert : other ∈ index.insert keys id key ↔ other ∈ index key ∨ key ∈ keys ∧ other = id := by
  unfold insert
  split
  · next h => simp [h.1]
  · next h =>
    refine ⟨.inl, ?_⟩
    rintro (hmem | ⟨hkey, rfl⟩)
    · exact hmem
    · by_contra hnot
      exact h ⟨hkey, hnot⟩

theorem mem_erase : other ∈ index.erase keys id key ↔ other ∈ index key ∧ (key ∈ keys → other ≠ id) := by
  unfold erase
  split
  · next h => simp [h]
  · next h => simp [h]

/-! ## The index of a table -/

section

variable {ρ : Type*} {idOf : ρ → ι} {keysOf : ρ → List κ} {rows : Table idOf} {r : ρ}

/-- The index lists the rows of the table under their keys. -/
def Lists (index : Index κ ι) (rows : Table idOf) (keysOf : ρ → List κ) : Prop :=
  ∀ key id, id ∈ index key ↔ ∃ r ∈ rows, idOf r = id ∧ key ∈ keysOf r

/-- The index without the row of an id. -/
def without (index : Index κ ι) (rows : Table idOf) (keysOf : ρ → List κ) (id : ι) : Index κ ι :=
  match rows.lookup id with
  | some r => index.erase (keysOf r) id
  | none => index

theorem without_of_some (h : rows.lookup id = some r) :
    index.without rows keysOf id = index.erase (keysOf r) id := by
  rw [without, h]

theorem without_of_none (h : rows.lookup id = none) : index.without rows keysOf id = index := by
  rw [without, h]

theorem Lists.mem_without (h : index.Lists rows keysOf) : other ∈ index.without rows keysOf id key ↔
    ∃ r ∈ rows, (idOf r = other ∧ key ∈ keysOf r) ∧ idOf r ≠ id := by
  rcases hlookup : rows.lookup id with _ | row
  · rw [without_of_none hlookup, h]
    constructor
    · rintro ⟨r, hr, hkey⟩
      refine ⟨r, hr, hkey, ?_⟩
      rintro rfl
      rw [lookup_of_mem hr] at hlookup
      cases hlookup
    · rintro ⟨r, hr, hkey, -⟩
      exact ⟨r, hr, hkey⟩
  · obtain ⟨hmem, rfl⟩ := lookup_eq_some.1 hlookup
    rw [without_of_some hlookup, mem_erase, h]
    constructor
    · rintro ⟨⟨r, hr, rfl, hkey⟩, hother⟩
      refine ⟨r, hr, ⟨rfl, hkey⟩, fun heq => ?_⟩
      have hsame : r = row := inj_on_of_nodup_map rows.nodup hr hmem heq
      exact hother (hsame ▸ hkey) heq
    · rintro ⟨r, hr, ⟨rfl, hkey⟩, hne⟩
      exact ⟨⟨r, hr, rfl, hkey⟩, fun _ => hne⟩

theorem Lists.delete (h : index.Lists rows keysOf) (id : ι) :
    (index.without rows keysOf id).Lists (rows.delete id) keysOf := by
  intro key other
  rw [h.mem_without]
  constructor
  · rintro ⟨r, hr, hkey, hne⟩
    exact ⟨r, mem_delete.2 ⟨hr, hne⟩, hkey⟩
  · rintro ⟨r, hr, hkey⟩
    exact ⟨r, (mem_delete.1 hr).1, hkey, (mem_delete.1 hr).2⟩

theorem Lists.put (h : index.Lists rows keysOf) (r : ρ) :
    ((index.without rows keysOf (idOf r)).insert (keysOf r) (idOf r)).Lists (rows.put r) keysOf := by
  intro key other
  simp only [mem_insert, h.mem_without, mem_put]
  constructor
  · rintro (⟨r', hr', hkey, hne⟩ | ⟨hkey, rfl⟩)
    · exact ⟨r', .inr ⟨hr', hne⟩, hkey⟩
    · exact ⟨r, .inl rfl, rfl, hkey⟩
  · rintro ⟨r', rfl | ⟨hr', hne⟩, rfl, hkey⟩
    · exact .inr ⟨hkey, rfl⟩
    · exact .inl ⟨r', hr', ⟨rfl, hkey⟩, hne⟩

omit [DecidableEq ι] [DecidableEq κ] in
/-- An update that leaves the keys of the rows leaves the index. -/
theorem Lists.execute {u : Update idOf} (h : index.Lists rows keysOf)
    (hkeys : ∀ r, keysOf (u.set r) = keysOf r) : index.Lists (rows.execute u) keysOf := by
  have happly : ∀ r, keysOf (u.apply r) = keysOf r := by
    intro r
    rw [Update.apply]
    split
    · exact hkeys r
    · rfl
  intro key id
  rw [h]
  constructor
  · rintro ⟨r, hr, rfl, hkey⟩
    exact ⟨_, List.mem_map_of_mem hr, Update.key_apply r, (happly r).symm ▸ hkey⟩
  · rintro ⟨_, hmem, rfl, hkey⟩
    obtain ⟨r, hr, rfl⟩ := List.mem_map.1 hmem
    exact ⟨r, hr, (Update.key_apply r).symm, happly r ▸ hkey⟩

/-- No id is twice under a key. -/
def Distinct (index : Index κ ι) : Prop := ∀ key, (index key).Nodup

theorem Distinct.insert (h : index.Distinct) (keys : List κ) (id : ι) :
    (index.insert keys id).Distinct := by
  intro key
  rw [Index.insert]
  split
  next hnew => exact nodup_append.2 ⟨h key, nodup_singleton _, fun a ha b hb =>
    (mem_singleton.1 hb) ▸ fun heq => hnew.2 (heq ▸ ha)⟩
  next => exact h key

theorem Distinct.without (h : index.Distinct) (rows : Table idOf) (keysOf : ρ → List κ) (id : ι) :
    (index.without rows keysOf id).Distinct := by
  intro key
  rcases hlookup : rows.lookup id with _ | row
  · rw [without_of_none hlookup]
    exact h key
  · rw [without_of_some hlookup, Index.erase]
    split
    · exact (h key).filter _
    · exact h key

omit [DecidableEq κ] in
/-- What is narrowed down is some of the ids, in their order. -/
theorem narrow_sublist (index : Index κ ι) (keys : List κ) (ids : List ι) :
    (index.narrow ids keys).Sublist ids := by
  induction keys generalizing ids with
  | nil => exact List.Sublist.refl ids
  | cons key keys ih =>
    rw [narrow]
    split
    · exact nil_sublist ids
    · simp only
      split
      · exact nil_sublist ids
      · exact (ih _).trans filter_sublist

end

/-! ## The index of a map -/

section

variable {keyOf : ι → Option κ}

/-- Every id is under the key that the map has for it, and under no other. -/
def Mirrors (index : Index κ ι) (keyOf : ι → Option κ) : Prop :=
  ∀ key id, id ∈ index key ↔ keyOf id = some key

/-- The id has no key, or this one. -/
def freeFor (keyOf : ι → Option κ) (key : κ) (id : ι) : Bool := (keyOf id).all (· = key)

omit [DecidableEq ι] in
theorem freeFor_eq_false : freeFor keyOf key id = false ↔ ∃ other ≠ key, keyOf id = some other := by
  rcases h : keyOf id with _ | other
  · simp [freeFor, h]
  · simp [freeFor, h, eq_comm]

variable (h : index.Mirrors keyOf)

include h in
theorem Mirrors.insert_iff :
    (index.insert [key] id).Mirrors (Function.update keyOf id (some key)) ↔ freeFor keyOf key id := by
  constructor
  · intro h'
    by_contra hnot
    obtain ⟨other, hne, hother⟩ := freeFor_eq_false.1 (Bool.eq_false_iff.2 hnot)
    -- the id stays under its other key, of which the map says nothing any more
    have hkey := (h' other id).1 (mem_insert.2 (.inl ((h other id).2 hother)))
    rw [update_self, Option.some.injEq] at hkey
    exact hne hkey.symm
  · intro hfree key' id'
    rw [mem_insert, mem_singleton, h]
    by_cases hid : id' = id
    · subst hid
      rw [update_self, Option.some.injEq]
      constructor
      · rintro (hkey | ⟨rfl, -⟩)
        · rw [freeFor, hkey] at hfree
          exact (of_decide_eq_true hfree).symm
        · rfl
      · rintro rfl
        exact .inr ⟨rfl, rfl⟩
    · rw [update_of_ne hid]
      simp [hid]

include h in
theorem Mirrors.erase_iff :
    (index.erase [key] id).Mirrors (Function.update keyOf id none) ↔ freeFor keyOf key id := by
  constructor
  · intro h'
    by_contra hnot
    obtain ⟨other, hne, hother⟩ := freeFor_eq_false.1 (Bool.eq_false_iff.2 hnot)
    have hkey := (h' other id).1
      (mem_erase.2 ⟨(h other id).2 hother, fun hmem => absurd (mem_singleton.1 hmem) hne⟩)
    rw [update_self] at hkey
    cases hkey
  · intro hfree key' id'
    rw [mem_erase, mem_singleton, h]
    by_cases hid : id' = id
    · subst hid
      rw [update_self]
      constructor
      · rintro ⟨hkey, hne⟩
        rw [freeFor, hkey] at hfree
        exact absurd rfl (hne (of_decide_eq_true hfree))
      · rintro ⟨⟩
    · rw [update_of_ne hid]
      simp [hid]

end

end Index

end Kici
