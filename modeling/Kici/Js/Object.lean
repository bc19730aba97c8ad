import Kici.Js.Str
import Mathlib.Data.List.Sort

/-!
# Objects of the JavaScript runtime

An object holds one value for a key. Its entries are enumerated with the keys that are
array indices first, in ascending order, and the others in the order of their creation
(`JsObject.entries`); `assign` writes the entries of one object into another, in this
order.
-/

namespace Kici

open List Option

/-- The array index a key stands for: a number below `2^32 - 1`, without leading zeros. -/
def arrayIndex (key : JsString) : Option ℕ :=
  let value := key.foldl (fun n c => 10 * n + (c.toNat - 0x30)) 0
  if key ≠ [] ∧ key.all (fun c => 0x30 ≤ c ∧ c ≤ 0x39) ∧ (key.head? = some 0x30 → key.length = 1) ∧
      value < 4294967295 then some value
  else none

/-- An object, with its entries in the order of their creation. -/
structure JsObject (α : Type*) where
  created : List (JsString × α)
  nodup : (created.map Prod.fst).Nodup

namespace JsObject

variable {α : Type*}

def empty : JsObject α := ⟨[], nodup_nil⟩

variable (o : JsObject α)

/-- `Object.entries(o)`. -/
def entries : List (JsString × α) :=
  (o.created.filter fun e => (arrayIndex e.1).isSome).insertionSort
      (fun e f => (arrayIndex e.1).getD 0 ≤ (arrayIndex f.1).getD 0) ++
    o.created.filter fun e => (arrayIndex e.1).isNone

/-- `Object.values(o)`. -/
def values : List α := o.entries.map Prod.snd

/-- The value of a key. -/
def get (key : JsString) : Option α := o.created.lookup key

/-- `o[key] = value`: a new key comes last. -/
def set (key : JsString) (value : α) : JsObject α :=
  if h : key ∈ o.created.map Prod.fst then
    { created := o.created.map fun e => if e.1 = key then (key, value) else e
      nodup := by
        have hkeys : (o.created.map fun e => if e.1 = key then (key, value) else e).map Prod.fst =
            o.created.map Prod.fst := by
          rw [List.map_map]
          refine map_congr_left fun e _ => ?_
          simp only [Function.comp_apply]
          split
          next heq => exact heq.symm
          · rfl
        rw [hkeys]
        exact o.nodup }
  else
    { created := o.created ++ [(key, value)]
      nodup := by
        rw [map_append, nodup_append]
        refine ⟨o.nodup, nodup_singleton _, fun k hk k' hk' => ?_⟩
        obtain rfl : k' = key := by simpa using hk'
        exact fun heq => h (heq ▸ hk) }

/-- `Object.assign(o, source)`, for values that are no objects: to write one under
`__proto__` has no effect. -/
def assign (source : JsObject α) : JsObject α :=
  source.entries.foldl (fun o e => if e.1 = js "__proto__" then o else o.set e.1 e.2) o

/-- `Object.fromEntries(entries)`. -/
def fromEntries (entries : List (JsString × α)) : JsObject α :=
  entries.foldl (fun o e => o.set e.1 e.2) empty

variable {o} {key key' : JsString} {value : α}

theorem mem_entries {e : JsString × α} : e ∈ o.entries ↔ e ∈ o.created := by
  rw [entries, mem_append, mem_insertionSort, mem_filter, mem_filter]
  cases h : arrayIndex e.1 <;> simp

/-- An entry is the value of its key. -/
theorem get_eq_some : o.get key = some value ↔ (key, value) ∈ o.created := by
  rw [get]
  obtain ⟨created, hnodup⟩ := o
  simp only
  induction created with
  | nil => simp
  | cons e created ih =>
    rw [map_cons, nodup_cons] at hnodup
    rw [lookup_cons, mem_cons]
    cases heq : key == e.1 with
    | true =>
      obtain rfl : key = e.1 := by simpa using heq
      simp only [some.injEq]
      refine ⟨fun h => .inl (by rw [← h]), ?_⟩
      rintro (h | h)
      · rw [← h]
      · exact absurd (mem_map_of_mem h) hnodup.1
    | false =>
      rw [ih hnodup.2]
      refine ⟨.inr, ?_⟩
      rintro (h | h)
      · rw [← h] at heq
        simp at heq
      · exact h

theorem mem_values : value ∈ o.values ↔ ∃ key, o.get key = some value := by
  simp only [values, List.mem_map, mem_entries, get_eq_some, Prod.exists, exists_eq_right]

theorem get_set : (o.set key value).get key' = if key' = key then some value else o.get key' := by
  ext w
  by_cases hmem : key ∈ o.created.map Prod.fst
  · -- The entry of the key is replaced.
    obtain ⟨e, he, rfl⟩ := mem_map.1 hmem
    rw [get_eq_some, set, dif_pos hmem]
    simp only [List.mem_map]
    split
    next heq =>
      subst heq
      constructor
      · rintro ⟨f, -, hf⟩
        split at hf
        · rw [← (Prod.mk.inj hf).2]
        next hne => exact absurd (by rw [hf]) hne
      · intro hw
        exact ⟨e, he, by rw [if_pos rfl, some.inj hw]⟩
    next hne =>
      rw [get_eq_some]
      constructor
      · rintro ⟨f, hmem, hf⟩
        split at hf
        · exact absurd (Prod.mk.inj hf).1.symm hne
        · rwa [← hf]
      · exact fun hw => ⟨_, hw, if_neg hne⟩
  · rw [get_eq_some, set, dif_neg hmem]
    simp only [mem_append, mem_singleton, Prod.mk.injEq]
    split
    next heq =>
      subst heq
      constructor
      · rintro (h | ⟨-, rfl⟩)
        · exact absurd (mem_map_of_mem h) hmem
        · rfl
      · exact fun hw => .inr ⟨rfl, (some.inj hw).symm⟩
    next hne =>
      rw [get_eq_some]
      exact ⟨fun h => h.resolve_right fun h => hne h.1, .inl⟩

theorem perm_entries : o.entries.Perm o.created := by
  have hsort := (perm_insertionSort
    (fun e f : JsString × α => (arrayIndex e.1).getD 0 ≤ (arrayIndex f.1).getD 0)
    (o.created.filter fun e => (arrayIndex e.1).isSome)).append_right
      (o.created.filter fun e => (arrayIndex e.1).isNone)
  refine hsort.trans ?_
  have hsplit := filter_append_perm (fun e : JsString × α => (arrayIndex e.1).isSome) o.created
  simpa using hsplit

theorem nodup_entries : (o.entries.map Prod.fst).Nodup :=
  (perm_entries.map Prod.fst).nodup_iff.2 o.nodup

theorem length_entries : o.entries.length = o.created.length := perm_entries.length_eq

/-- Every key but `__proto__` has the value of the source, if it has one there. -/
theorem get_assign {source : JsObject α} : (o.assign source).get key =
    if key = js "__proto__" then o.get key else (source.get key).or (o.get key) := by
  have hfold : ∀ (es : List (JsString × α)) (hes : (es.map Prod.fst).Nodup) (o : JsObject α),
      (es.foldl (fun o e => if e.1 = js "__proto__" then o else o.set e.1 e.2) o).get key =
        if key = js "__proto__" then o.get key else (get ⟨es, hes⟩ key).or (o.get key) := by
    intro es
    induction es with
    | nil => simp [get]
    | cons e es ih =>
      intro hes o
      rw [map_cons, nodup_cons] at hes
      rw [foldl_cons, ih hes.2]
      by_cases hkey : key = e.1
      · -- The later entries do not have the key.
        have hlater : get ⟨es, hes.2⟩ key = none := by
          refine eq_none_iff_forall_ne_some.2 fun w hw => hes.1 ?_
          rw [← hkey]
          exact mem_map_of_mem (get_eq_some.1 hw)
        have hhere : get ⟨e :: es, nodup_cons.2 hes⟩ key = some e.2 :=
          get_eq_some.2 (by rw [hkey]; exact mem_cons_self)
        rw [hlater, hhere, ← hkey]
        split
        · rfl
        · rw [get_set, if_pos rfl]
          rfl
      · have hthere : get ⟨e :: es, nodup_cons.2 hes⟩ key = get ⟨es, hes.2⟩ key := by
          ext w
          rw [get_eq_some, get_eq_some, mem_cons]
          exact or_iff_right fun h => hkey (by rw [← h])
        have hset : (if e.1 = js "__proto__" then o else o.set e.1 e.2).get key = o.get key := by
          split
          · rfl
          · rw [get_set, if_neg hkey]
        rw [hthere, hset]
  have hentries : get ⟨source.entries, nodup_entries⟩ key = source.get key := by
    ext w
    rw [get_eq_some, get_eq_some]
    exact mem_entries
  rw [assign, hfold _ nodup_entries, hentries]

theorem get_eq_none : o.get key = none ↔ ∀ e ∈ o.created, e.1 ≠ key := by
  rw [eq_none_iff_forall_ne_some]
  constructor
  · rintro h e he rfl
    exact h e.2 (get_eq_some.2 he)
  · exact fun h w hw => h _ (get_eq_some.1 hw) rfl

variable {es : List (JsString × α)}

/-- Entries of different keys are created as they are. -/
theorem created_fromEntries (h : (es.map Prod.fst).Nodup) :
    (fromEntries es).created = es := by
  have hfold : ∀ (es : List (JsString × α)) (o : JsObject α),
      (o.created.map Prod.fst ++ es.map Prod.fst).Nodup →
      (es.foldl (fun o e => o.set e.1 e.2) o).created = o.created ++ es := by
    intro es
    induction es with
    | nil => simp
    | cons e es ih =>
      intro o hnodup
      have hnew : e.1 ∉ o.created.map Prod.fst := fun hmem =>
        (nodup_append.1 hnodup).2.2 _ hmem _ (by simp) rfl
      have hset : (o.set e.1 e.2).created = o.created ++ [e] := by rw [set, dif_neg hnew]
      rw [foldl_cons, ih _ (by rw [hset]; simpa using hnodup), hset, append_assoc]
      rfl
  rw [fromEntries, hfold es empty (by simpa [empty] using h)]
  rfl

theorem get_fromEntries (h : (es.map Prod.fst).Nodup) :
    (fromEntries es).get key = some value ↔ (key, value) ∈ es := by
  rw [get_eq_some, created_fromEntries h]

/-! ## Objects with the same values -/

/-- The two objects have the same values for the same keys. -/
def SameValues (o o' : JsObject α) : Prop := ∀ key, o.get key = o'.get key

variable {o' o'' : JsObject α}

theorem SameValues.symm (h : o.SameValues o') : o'.SameValues o := fun key => (h key).symm

theorem SameValues.trans (h : o.SameValues o') (h' : o'.SameValues o'') : o.SameValues o'' :=
  fun key => (h key).trans (h' key)

/-- As many entries, all of which are entries of the other, make the same values. -/
theorem sameValues_iff : o.SameValues o' ↔
    o'.created.length = o.created.length ∧ ∀ e ∈ o'.created, o.get e.1 = some e.2 := by
  constructor
  · intro h
    have hmem : ∀ e, e ∈ o.created ↔ e ∈ o'.created := fun e => by
      exact (get_eq_some.symm.trans (by rw [h e.1])).trans get_eq_some
    have hperm : o.created.Perm o'.created :=
      (perm_ext_iff_of_nodup o.nodup.of_map o'.nodup.of_map).2 hmem
    exact ⟨hperm.length_eq.symm, fun e he => get_eq_some.2 ((hmem e).2 he)⟩
  · rintro ⟨hlength, hentries⟩ key
    have hsubset : o'.created ⊆ o.created := fun e he => get_eq_some.1 (hentries e he)
    have hperm : o'.created.Perm o.created :=
      (subperm_of_subset o'.nodup.of_map hsubset).perm_of_length_le hlength.ge
    ext w
    rw [get_eq_some, get_eq_some, hperm.mem_iff]

/-- Objects with the same values whose keys were created in the same order are the same. -/
theorem SameValues.eq (h : o.SameValues o')
    (hkeys : o.created.map Prod.fst = o'.created.map Prod.fst) : o = o' := by
  have hcreated : o.created = o'.created := by
    refine ext_getElem (by simpa using congrArg length hkeys) fun i hi hi' => ?_
    have hkey : o.created[i].1 = o'.created[i].1 := by
      have := getElem_of_eq hkeys (i := i) (by simpa using hi)
      rwa [getElem_map, getElem_map] at this
    have hvalue : o.get o.created[i].1 = some o.created[i].2 := get_eq_some.2 (getElem_mem hi)
    have hvalue' : o'.get o'.created[i].1 = some o'.created[i].2 :=
      get_eq_some.2 (getElem_mem hi')
    rw [h, hkey, hvalue'] at hvalue
    exact Prod.ext hkey (some.inj hvalue).symm
  obtain ⟨created, _⟩ := o
  obtain ⟨created', _⟩ := o'
  obtain rfl : created = created' := hcreated
  rfl

end JsObject

end Kici
