import Mathlib.Data.List.Sort

/-!
# Tables with a primary key

A table is the list of its rows, no two of which have the same key. An update
changes, in place, the rows that meet its condition (SQL's `UPDATE … SET … WHERE …`)
and keeps their keys; as it is one value, what it does to a row can be asked of
that row alone.

* `Table.lookup`: the row of a key;
* `Table.execute`, `Table.returning`: the table after an update, and the rows it
  changed. An update acts on the row of each key (`Table.lookup_execute`);
* `Table.insertNew`: an insertion that leaves an existing row of its key alone;
* `Table.delete`: a deletion of the rows of a key;
* `Table.put`: a row in the place of the one of its key, or a new one;
* `OrderBy`: a way to put rows in ascending order, those of equal rank in any.
-/

namespace Kici

open List

variable {ρ κ : Type*} {key : ρ → κ}

/-- A table with its rows in the order of their insertion. -/
structure Table (key : ρ → κ) where
  rows : List ρ
  nodup : (rows.map key).Nodup

/-- An update of a table: the condition on the rows it changes, and the change,
which keeps the key. -/
structure Update (key : ρ → κ) where
  guard : ρ → Bool
  set : ρ → ρ
  key_set : ∀ r, key (set r) = key r := by intro _; rfl

namespace Update

variable (u : Update key) {r : ρ}

/-- What the update makes of a row. -/
def apply (r : ρ) : ρ := if u.guard r then u.set r else r

variable {u}

theorem apply_of_guard (h : u.guard r) : u.apply r = u.set r := if_pos h

theorem apply_of_not_guard (h : u.guard r = false) : u.apply r = r := by
  rw [apply, h]
  rfl

theorem key_apply (r : ρ) : key (u.apply r) = key r := by
  rw [apply]
  split
  · exact u.key_set r
  · rfl

variable [DecidableEq κ]

/-- Put a row in the place of the one of its key. -/
def replace (r : ρ) : Update key where
  guard r' := key r' = key r
  set r' := if key r' = key r then r else r'
  key_set r' := by
    split
    · next h => exact h.symm
    · rfl

theorem apply_replace {r r' : ρ} : (replace r : Update key).apply r' = if key r' = key r then r
    else r' := by
  by_cases h : key r' = key r <;> simp [apply, replace, h]

end Update

open Update

namespace Table

variable {r' : ρ}

instance : Membership ρ (Table key) := ⟨fun t r => r ∈ t.rows⟩

theorem mem_def {t : Table key} {r : ρ} : r ∈ t ↔ r ∈ t.rows := Iff.rfl

instance {t : Table key} {P : ρ → Prop} [DecidablePred P] : Decidable (∀ r ∈ t, P r) :=
  inferInstanceAs (Decidable (∀ r ∈ t.rows, P r))

/-- The empty table. -/
def empty (key : ρ → κ) : Table key := ⟨[], nodup_nil⟩

/-- The table of one row. -/
def singleton (key : ρ → κ) (r : ρ) : Table key := ⟨[r], nodup_singleton _⟩

/-- The table after an update. -/
def execute (t : Table key) (u : Update key) : Table key where
  rows := t.rows.map u.apply
  nodup := by
    have hkeys : key ∘ u.apply = key := funext fun r => u.key_apply r
    rw [map_map, hkeys]
    exact t.nodup

/-- The rows the update changes, as it leaves them. -/
def returning (t : Table key) (u : Update key) : List ρ := (t.rows.filter u.guard).map u.set

variable {t : Table key} {u : Update key} {r : ρ}

/-- An update keeps a property of all rows that it keeps of the rows it changes. -/
theorem forall_mem_execute {P : ρ → Prop} (h : ∀ r ∈ t, P r)
    (hset : ∀ r ∈ t, u.guard r → P r → P (u.set r)) : ∀ r ∈ t.execute u, P r := by
  intro r' hr'
  obtain ⟨r, hr, rfl⟩ := mem_map.1 hr'
  by_cases hg : u.guard r
  · rw [apply_of_guard hg]
    exact hset r hr hg (h r hr)
  · rw [apply_of_not_guard (Bool.eq_false_iff.2 hg)]
    exact h r hr

theorem mem_returning : r' ∈ t.returning u ↔ ∃ r ∈ t, u.guard r ∧ u.set r = r' := by
  simp [returning, mem_def, and_assoc]

variable [DecidableEq κ]

/-- The row of a key. -/
def lookup (t : Table key) (k : κ) : Option ρ := t.rows.find? fun r => key r = k

/-- Insert a row, unless there is one of its key. -/
def insertNew (t : Table key) (r : ρ) : Table key :=
  if h : key r ∈ t.rows.map key then t
  else
    { rows := t.rows ++ [r]
      nodup := by
        rw [map_append, nodup_append]
        refine ⟨t.nodup, nodup_singleton _, fun k hk k' hk' => ?_⟩
        obtain rfl : k' = key r := by simpa using hk'
        exact fun heq => h (heq ▸ hk) }

/-- Delete the row of a key. -/
def delete (t : Table key) (k : κ) : Table key where
  rows := t.rows.filter fun r => key r ≠ k
  nodup := t.nodup.sublist (filter_sublist.map key)

/-- Put a row in the place of the one of its key, or at the end. -/
def put (t : Table key) (r : ρ) : Table key := (t.execute (.replace r)).insertNew r

variable {k : κ}

theorem mem_delete : r ∈ t.delete k ↔ r ∈ t ∧ key r ≠ k := by
  simp [delete, mem_def]

theorem lookup_eq_some : t.lookup k = some r ↔ r ∈ t ∧ key r = k := by
  constructor
  · intro h
    exact ⟨mem_of_find?_eq_some h, by simpa using find?_some h⟩
  · rintro ⟨hr, rfl⟩
    cases h : t.lookup (key r) with
    | none =>
      have := find?_eq_none.1 h r hr
      simp at this
    | some r' =>
      -- The row found has the same key, so it is the same row.
      have hr' : r' ∈ t := mem_of_find?_eq_some h
      have hk : key r' = key r := by simpa using find?_some h
      rw [inj_on_of_nodup_map t.nodup hr' hr hk]

theorem lookup_of_mem (h : r ∈ t) : t.lookup (key r) = some r := lookup_eq_some.2 ⟨h, rfl⟩

/-- An update acts on the row of each key. -/
theorem lookup_execute : (t.execute u).lookup k = (t.lookup k).map u.apply := by
  simp only [lookup, execute, find?_map, Function.comp_def, key_apply]

/-- A row the update does not apply to stays. -/
theorem lookup_execute_of_not_guard (h : t.lookup k = some r) (hg : u.guard r = false) :
    (t.execute u).lookup k = some r := by
  rw [lookup_execute, h, Option.map_some, apply_of_not_guard hg]

/-- A row the update does apply to is set. -/
theorem lookup_execute_of_guard (h : t.lookup k = some r) (hg : u.guard r) :
    (t.execute u).lookup k = some (u.set r) := by
  rw [lookup_execute, h, Option.map_some, apply_of_guard hg]

theorem mem_insertNew (h : r ∈ t.insertNew r') : r ∈ t ∨ r = r' := by
  rw [insertNew] at h
  split at h
  · exact .inl h
  · simpa [mem_def] using h

/-- An insertion leaves the rows there are. -/
theorem mem_insertNew_of_mem (h : r ∈ t) (r' : ρ) : r ∈ t.insertNew r' := by
  rw [insertNew]
  split
  · exact h
  · exact mem_append_left _ h

/-- There is a row of the key after an insertion. -/
theorem exists_mem_insertNew (t : Table key) (r : ρ) : ∃ r' ∈ t.insertNew r, key r' = key r := by
  rw [insertNew]
  split
  · next h =>
    obtain ⟨r', hr', hkey⟩ := mem_map.1 h
    exact ⟨r', hr', hkey⟩
  · exact ⟨r, mem_append_right _ (mem_singleton_self r), rfl⟩

theorem mem_put : r' ∈ t.put r ↔ r' = r ∨ r' ∈ t ∧ key r' ≠ key r := by
  have hout : ∀ r' ∈ t.put r, r' = r ∨ r' ∈ t ∧ key r' ≠ key r := by
    intro r' hmem
    rcases mem_insertNew hmem with hold | hnew
    · obtain ⟨x, hx, rfl⟩ := mem_map.1 hold
      rw [apply_replace]
      split
      · exact .inl rfl
      · next hne => exact .inr ⟨hx, hne⟩
    · exact .inl hnew
  refine ⟨hout r', ?_⟩
  rintro (rfl | ⟨hmem, hne⟩)
  · obtain ⟨x, hx, hkey⟩ := exists_mem_insertNew (t.execute (.replace r')) r'
    rcases hout x hx with rfl | ⟨-, hne⟩
    · exact hx
    · exact absurd hkey hne
  · refine mem_insertNew_of_mem (mem_map.2 ⟨r', hmem, ?_⟩) r
    rw [apply_replace, if_neg hne]

/-- So a key that has a row keeps it. -/
theorem lookup_insertNew (h : t.lookup k = some r) (r' : ρ) :
    (t.insertNew r').lookup k = some r := by
  rw [insertNew]
  split
  · exact h
  · rw [lookup, find?_append]
    rw [lookup] at h
    rw [h, Option.some_or]

/-- A row with a new key is inserted. -/
theorem lookup_insertNew_self (h : t.lookup (key r) = none) :
    (t.insertNew r).lookup (key r) = some r := by
  obtain ⟨r', hr', hkey⟩ := t.exists_mem_insertNew r
  rcases mem_insertNew hr' with hold | rfl
  · rw [← hkey, lookup_of_mem hold] at h
    cases h
  · exact lookup_of_mem hr'

/-- The rows after the insertion of one with a new key. -/
theorem mem_insertNew_iff (h : t.lookup (key r') = none) : r ∈ t.insertNew r' ↔ r ∈ t ∨ r = r' := by
  refine ⟨mem_insertNew, ?_⟩
  rintro (hr | rfl)
  · exact mem_insertNew_of_mem hr r'
  · exact (lookup_eq_some.1 (lookup_insertNew_self h)).1

/-- The row of a key, once the one of some key is deleted. -/
theorem lookup_delete (t : Table key) (k k' : κ) : (t.delete k').lookup k = if k = k' then none
    else t.lookup k := by
  split
  next h =>
    cases hrow : (t.delete k').lookup k with
    | none => rfl
    | some r =>
      obtain ⟨hmem, hkey⟩ := lookup_eq_some.1 hrow
      exact absurd (hkey.trans h) (mem_delete.1 hmem).2
  next h =>
    cases hrow : t.lookup k with
    | none =>
      refine find?_eq_none.2 fun r hr => ?_
      exact find?_eq_none.1 hrow r (mem_filter.1 hr).1
    | some r =>
      obtain ⟨hmem, rfl⟩ := lookup_eq_some.1 hrow
      exact lookup_eq_some.2 ⟨mem_delete.2 ⟨hmem, h⟩, rfl⟩

/-- The row of a key, once a row is put. -/
theorem lookup_put (t : Table key) (r : ρ) (k : κ) : (t.put r).lookup k = if k = key r then some r
    else t.lookup k := by
  split
  next h => exact lookup_eq_some.2 ⟨mem_put.2 (.inl rfl), h.symm⟩
  next h =>
    cases hrow : t.lookup k with
    | none =>
      refine find?_eq_none.2 fun r' hr' => ?_
      rcases mem_put.1 hr' with rfl | ⟨hr', -⟩
      · simpa [eq_comm] using h
      · exact find?_eq_none.1 hrow r' hr'
    | some r' =>
      obtain ⟨hmem, rfl⟩ := lookup_eq_some.1 hrow
      exact lookup_eq_some.2 ⟨mem_put.2 (.inr ⟨hmem, h⟩), rfl⟩

/-- A row with a new key is put at the end. -/
theorem rows_put_of_fresh (h : ∀ r' ∈ t, key r' ≠ key r) : (t.put r).rows = t.rows ++ [r] := by
  have hsame : (t.execute (.replace r)).rows = t.rows := by
    have hid : ∀ r' ∈ t.rows, (Update.replace r : Update key).apply r' = r' := fun r' hr' => by
      rw [apply_replace, if_neg (h r' hr')]
    exact (map_congr_left hid).trans (map_id' t.rows)
  have hfresh : key r ∉ (t.execute (.replace r)).rows.map key := by
    rw [hsame]
    intro hmem
    obtain ⟨r', hr', hkey⟩ := mem_map.1 hmem
    exact h r' hr' hkey
  rw [put, insertNew, dif_neg hfresh]
  exact congrArg (· ++ [r]) hsame

omit [DecidableEq κ] in
/-- An update of no rows. -/
theorem execute_of_not_guard (h : ∀ r ∈ t, u.guard r = false) : t.execute u = t := by
  have hrows : (t.execute u).rows = t.rows :=
    (map_congr_left fun r hr => apply_of_not_guard (h r hr)).trans (map_id' t.rows)
  obtain ⟨rows, nodup⟩ := t
  exact Table.mk.injEq .. ▸ hrows

end Table

/-- A way to order rows by a rank: the rows of a table in ascending order, those of
equal rank in any order. -/
structure OrderBy (rank : ρ → ℕ) where
  sort : List ρ → List ρ
  perm : ∀ rows, (sort rows).Perm rows
  sorted : ∀ rows, (sort rows).Pairwise fun r s => rank r ≤ rank s

/-- Rows of equal rank in the order of the table. -/
def OrderBy.insertionSort (rank : ρ → ℕ) : OrderBy rank where
  sort := List.insertionSort fun r s => rank r ≤ rank s
  perm _ := perm_insertionSort ..
  sorted rows := by
    have : Std.Total fun r s : ρ => rank r ≤ rank s := ⟨fun _ _ => Nat.le_total ..⟩
    have : IsTrans ρ fun r s => rank r ≤ rank s := ⟨fun _ _ _ => Nat.le_trans⟩
    exact pairwise_insertionSort _ rows

end Kici
