import Kici.Fanout.Expand

/-!
# The combinations of a matrix

What expansion makes of a matrix, as sets of combinations with the same values: those
that choose a value in every dimension (`IsCombination`), less those an exclude applies
to (`Excluded`), and those of the includes (`exists_applyIncludeExclude`); each of them
once, if the children have different names (`once_applyIncludeExclude`).
-/

namespace Kici

open List JsObject

variable {dims : List (JsString × List JsString)} {tuple : List JsString}

/-! ## What is to be expanded -/

/-- The dimensions of a matrix; the one of a list is `value`. -/
def NormalizedMatrix.toObject : NormalizedMatrix → JsObject (List JsString)
  | .array values => fromEntries [("value", values)]
  | .object dimensions => fromEntries dimensions

/-- The combination chooses a value in every dimension, of which there are some. -/
def IsCombination (matrix : JsObject (List JsString)) (c : MatrixValues) : Prop :=
  matrix.created ≠ [] ∧ ∀ key,
    match matrix.get key with
    | some values => ∃ v ∈ values, c.get key = some v
    | none => c.get key = none

/-- An exclude that is not empty applies to the combination. -/
def Excluded (excluded : List (JsObject JsString)) (c : MatrixValues) : Prop :=
  ∃ excl ∈ excluded, excl.created ≠ [] ∧ ∀ key value, excl.get key = some value →
    c.get key = some value

/-- The combination is one of an include that is not empty. -/
def Included (included : List (JsObject JsString)) (c : MatrixValues) : Prop :=
  ∃ incl ∈ included, incl.created ≠ [] ∧ incl.SameValues c

/-- No two of the combinations have the same values. -/
def Once (combos : List MatrixValues) : Prop := combos.Pairwise fun c d => ¬c.SameValues d

namespace FanoutRuntime

variable {α : Type} {rt : FanoutRuntime} {matrix : JsObject (List JsString)} {c d : MatrixValues}
  {combos : List MatrixValues}

theorem perm_sortByLocale {key : α → JsString} {l : List α} :
    (rt.sortByLocale key l).Perm l := perm_insertionSort ..

/-! ## The product -/

theorem mem_cartesianProduct {sets : List (List α)} {tuple : List α} :
    tuple ∈ cartesianProduct sets ↔ Forall₂ (· ∈ ·) tuple sets := by
  have hfold : ∀ (sets : List (List α)) (acc : List (List α)),
      tuple ∈ sets.foldl (fun acc set => acc.flatMap fun t => set.map fun v => t ++ [v]) acc ↔
        ∃ t ∈ acc, ∃ t', Forall₂ (· ∈ ·) t' sets ∧ tuple = t ++ t' := by
    intro sets
    induction sets with
    | nil =>
      intro acc
      simp
    | cons set sets ih =>
      intro acc
      rw [foldl_cons, ih]
      constructor
      · rintro ⟨t, ht, t', ht', rfl⟩
        obtain ⟨t₀, ht₀, ht⟩ := mem_flatMap.1 ht
        obtain ⟨v, hv, rfl⟩ := mem_map.1 ht
        exact ⟨t₀, ht₀, v :: t', .cons hv ht', by simp⟩
      · rintro ⟨t, ht, t', ht', rfl⟩
        cases ht' with
        | cons hv ht' =>
          refine ⟨t ++ [_], mem_flatMap.2 ⟨t, ht, mem_map_of_mem hv⟩, _, ht', ?_⟩
          simp
  rw [cartesianProduct]
  split
  next hempty =>
    -- No value can be chosen of the empty set.
    obtain ⟨set, hset, hlength⟩ := hempty
    refine ⟨nofun, fun h => ?_⟩
    obtain ⟨i, hi, rfl⟩ := getElem_of_mem hset
    have hmem := h.get (by rw [h.length_eq]; exact hi) hi
    rw [get_eq_getElem, get_eq_getElem, eq_nil_of_length_eq_zero hlength] at hmem
    cases hmem
  · rw [hfold]
    simp

/-- The entries of the dimensions with the values that a tuple chooses. -/
theorem mem_zip_of_forall₂
    (h : Forall₂ (· ∈ ·) tuple (dims.map Prod.snd)) :
    (∀ e ∈ (dims.map Prod.fst).zip tuple, ∃ values, (e.1, values) ∈ dims ∧ e.2 ∈ values) ∧
      ∀ dim ∈ dims, ∃ v ∈ dim.2, (dim.1, v) ∈ (dims.map Prod.fst).zip tuple := by
  induction dims generalizing tuple with
  | nil => simp
  | cons dim dims ih =>
    cases h with
    | cons hv htail =>
      obtain ⟨hzip, hdims⟩ := ih htail
      constructor
      · intro e he
        rcases mem_cons.1 he with rfl | he
        · exact ⟨dim.2, mem_cons_self, hv⟩
        · obtain ⟨values, hmem, hval⟩ := hzip e he
          exact ⟨values, mem_cons_of_mem _ hmem, hval⟩
      · intro dim' hdim'
        rcases mem_cons.1 hdim' with rfl | hdim'
        · exact ⟨_, hv, mem_cons_self⟩
        · obtain ⟨v, hval, hmem⟩ := hdims dim' hdim'
          exact ⟨v, hval, mem_cons_of_mem _ hmem⟩

/-- A combination that is expanded has the values of its tuple. -/
theorem mem_expandMultiDimension : c ∈ rt.expandMultiDimension matrix ↔ matrix.created ≠ [] ∧
    ∃ tuple, Forall₂ (· ∈ ·) tuple ((rt.sortByLocale Prod.fst matrix.entries).map Prod.snd) ∧
      c = fromEntries (((rt.sortByLocale Prod.fst matrix.entries).map Prod.fst).zip tuple) := by
  simp only [expandMultiDimension, length_entries, length_eq_zero_iff]
  split
  next hempty => simp [hempty]
  next hsome =>
    rw [mem_map]
    constructor
    · rintro ⟨tuple, htuple, rfl⟩
      exact ⟨hsome, tuple, mem_cartesianProduct.1 htuple, rfl⟩
    · rintro ⟨-, tuple, htuple, rfl⟩
      exact ⟨tuple, mem_cartesianProduct.2 htuple, rfl⟩

theorem nodup_sortByLocale {o : JsObject α} :
    ((rt.sortByLocale Prod.fst o.entries).map Prod.fst).Nodup :=
  (perm_sortByLocale.map Prod.fst).nodup_iff.2 nodup_entries

theorem mem_sortByLocale {o : JsObject α} {e : JsString × α} :
    e ∈ rt.sortByLocale Prod.fst o.entries ↔ e ∈ o.created :=
  perm_sortByLocale.mem_iff.trans mem_entries

/-- The keys of the tuple are those of the dimensions. -/
theorem keys_zip
    (h : Forall₂ (· ∈ ·) tuple (dims.map Prod.snd)) :
    ((dims.map Prod.fst).zip tuple).map Prod.fst = dims.map Prod.fst := by
  have hlength : tuple.length = dims.length := by simpa using h.length_eq
  exact map_fst_zip (by rw [length_map, hlength])

/-- The product has the combinations of the matrix. -/
theorem exists_expandMultiDimension :
    (∃ d ∈ rt.expandMultiDimension matrix, d.SameValues c) ↔ IsCombination matrix c := by
  constructor
  · rintro ⟨d, hd, hsame⟩
    obtain ⟨hsome, tuple, htuple, rfl⟩ := mem_expandMultiDimension.1 hd
    have hkeys : (((rt.sortByLocale Prod.fst matrix.entries).map Prod.fst).zip tuple |>.map
        Prod.fst).Nodup := by
      rw [keys_zip htuple]
      exact nodup_sortByLocale
    obtain ⟨hzip, hdims⟩ := mem_zip_of_forall₂ htuple
    refine ⟨hsome, fun key => ?_⟩
    split
    next values hvalues =>
      obtain ⟨v, hv, hmem⟩ := hdims _ (mem_sortByLocale.2 (get_eq_some.1 hvalues))
      exact ⟨v, hv, (hsame key).symm.trans ((get_fromEntries hkeys).2 hmem)⟩
    next hnone =>
      refine Option.eq_none_iff_forall_ne_some.2 fun v hv => ?_
      obtain ⟨values, hmem, -⟩ := hzip _ ((get_fromEntries hkeys).1 ((hsame key).trans hv))
      exact get_eq_none.1 hnone _ (mem_sortByLocale.1 hmem) rfl
  · rintro ⟨hsome, hkeys⟩
    set dims := rt.sortByLocale Prod.fst matrix.entries with hdims
    have hchoice : ∀ dim ∈ dims, ∃ v ∈ dim.2, c.get dim.1 = some v := fun dim hdim => by
      have hdim' := hkeys dim.1
      rwa [get_eq_some.2 (mem_sortByLocale.1 hdim)] at hdim'
    -- The tuple has the values of the combination.
    let tuple := dims.map fun dim => (c.get dim.1).getD []
    have htuple : Forall₂ (· ∈ ·) tuple (dims.map Prod.snd) := by
      rw [forall₂_map_left_iff, forall₂_map_right_iff, forall₂_same]
      intro dim hdim
      obtain ⟨v, hv, hget⟩ := hchoice dim hdim
      rwa [hget]
    have hzip : (dims.map Prod.fst).zip tuple =
        dims.map fun dim => (dim.1, (c.get dim.1).getD []) := zip_map' ..
    refine ⟨_, mem_expandMultiDimension.2 ⟨hsome, tuple, htuple, rfl⟩, fun key => ?_⟩
    rw [← hdims]
    ext v
    rw [get_fromEntries (by rw [keys_zip htuple]; exact nodup_sortByLocale), hzip, mem_map]
    constructor
    · rintro ⟨dim, hdim, heq⟩
      obtain ⟨v, -, hget⟩ := hchoice dim hdim
      obtain ⟨rfl, rfl⟩ := Prod.mk.inj heq
      rw [hget]
      rfl
    · intro hget
      have hkey := hkeys key
      split at hkey
      next values hvalues =>
        exact ⟨_, mem_sortByLocale.2 (get_eq_some.1 hvalues), by rw [hget]; rfl⟩
      · rw [hget] at hkey
        cases hkey

/-- Combinations of a product with the same values are the same. -/
theorem eq_of_mem_expandMultiDimension (hc : c ∈ rt.expandMultiDimension matrix)
    (hd : d ∈ rt.expandMultiDimension matrix) (h : c.SameValues d) : c = d := by
  have hcreated : ∀ {c}, c ∈ rt.expandMultiDimension matrix → c.created.map Prod.fst =
      (rt.sortByLocale Prod.fst matrix.entries).map Prod.fst := by
    intro c hc
    obtain ⟨-, tuple, htuple, rfl⟩ := mem_expandMultiDimension.1 hc
    rw [created_fromEntries (by rw [keys_zip htuple]; exact nodup_sortByLocale), keys_zip htuple]
  exact h.eq ((hcreated hc).trans (hcreated hd).symm)

/-- A list is a matrix with the dimension `value`. -/
theorem expandSingleDimension_eq (values : List JsString) : expandSingleDimension values =
    rt.expandMultiDimension (NormalizedMatrix.array values).toObject := by
  have hentries : (fromEntries [(js "value", values)]).entries =
      [(js "value", values)] := rfl
  have hproduct : cartesianProduct [values] = values.map fun v => [v] := by
    rw [cartesianProduct]
    split
    next hempty =>
      obtain rfl : values = [] := by simpa using hempty
      rfl
    · simp
  have hsort : rt.sortByLocale Prod.fst [(js "value", values)] = [(js "value", values)] := rfl
  rw [expandMultiDimension, NormalizedMatrix.toObject, hentries, if_neg (by simp), hsort]
  simp only [map_cons, map_nil, hproduct, map_map]
  rfl

/-- What is expanded is the product of the normalized matrix. -/
theorem expandMatrix_cases {input : Json} (h : rt.expandMatrix input = .ok combos) :
    ∃ matrix, rt.normalizeMatrixInput input = .ok matrix ∧
      combos = rt.expandMultiDimension matrix.toObject := by
  rw [expandMatrix] at h
  cases hnormal : rt.normalizeMatrixInput input with
  | error err =>
    rw [hnormal] at h
    cases h
  | ok matrix =>
    rw [hnormal] at h
    refine ⟨matrix, rfl, ?_⟩
    cases matrix with
    | array values => exact (Except.ok.inj h).symm.trans (expandSingleDimension_eq values)
    | object dimensions => exact (Except.ok.inj h).symm

/-! ## Excludes and includes -/

theorem excludes_iff {excl : JsObject JsString} : excludes excl c ↔ excl.created ≠ [] ∧
    ∀ key value, excl.get key = some value → c.get key = some value := by
  simp only [excludes, length_entries, ne_eq, length_eq_zero_iff, mem_entries,
    decide_eq_true_eq, Prod.forall, get_eq_some]

theorem isIncluded_iff {incl : JsObject JsString} : isIncluded incl c ↔ incl.SameValues c := by
  rw [isIncluded, decide_eq_true_eq, length_entries, length_entries]
  simp only [mem_entries]
  exact sameValues_iff.symm.trans ⟨SameValues.symm, SameValues.symm⟩

variable {incl : JsObject JsString} {included excluded : List (JsObject JsString)}
  {result : List MatrixValues}

/-- What an include adds has its values. -/
theorem sameValues_include :
    (fromEntries (rt.sortByLocale Prod.fst incl.entries)).SameValues incl := fun key => by
  ext v
  rw [get_fromEntries nodup_sortByLocale, mem_sortByLocale, get_eq_some]

/-- An include that is not empty is there afterwards, and no other is added. -/
theorem exists_addInclude : (∃ d ∈ rt.addInclude result incl, d.SameValues c) ↔
    (∃ d ∈ result, d.SameValues c) ∨ incl.created ≠ [] ∧ incl.SameValues c := by
  simp only [addInclude, length_entries, length_eq_zero_iff]
  split
  next hempty => simp [hempty]
  next hsome =>
    split
    next hthere =>
      obtain ⟨d, hd, hsame⟩ := hthere
      refine ⟨.inl, ?_⟩
      rintro (h | ⟨-, h⟩)
      · exact h
      · exact ⟨d, hd, (isIncluded_iff.1 hsame).symm.trans h⟩
    · simp only [mem_append, mem_singleton, or_and_right, exists_or, exists_eq_left]
      refine or_congr_right ?_
      exact ⟨fun h => ⟨hsome, sameValues_include.symm.trans h⟩, fun h => sameValues_include.trans h.2⟩

theorem once_addInclude (h : Once result) : Once (rt.addInclude result incl) := by
  simp only [addInclude, length_entries, length_eq_zero_iff]
  split
  · exact h
  · split
    · exact h
    next hnew =>
      refine pairwise_append.2 ⟨h, pairwise_singleton .., fun c hc d hd hsame => ?_⟩
      obtain rfl := mem_singleton.1 hd
      exact hnew ⟨c, hc, isIncluded_iff.2 (hsame.trans sameValues_include).symm⟩

theorem sublist_addInclude : result.Sublist (rt.addInclude result incl) := by
  rw [addInclude]
  split
  · rfl
  · split
    · rfl
    · exact sublist_append_left ..

theorem exists_addIncludes : (∃ d ∈ included.foldl rt.addInclude result, d.SameValues c) ↔
    (∃ d ∈ result, d.SameValues c) ∨ Included included c := by
  induction included generalizing result with
  | nil => simp [Included]
  | cons incl included ih =>
    rw [foldl_cons, ih, exists_addInclude, or_assoc]
    simp [Included]

theorem once_addIncludes (h : Once result) : Once (included.foldl rt.addInclude result) := by
  induction included generalizing result with
  | nil => exact h
  | cons incl included ih => exact ih (once_addInclude h)

theorem sublist_addIncludes : result.Sublist (included.foldl rt.addInclude result) := by
  induction included generalizing result with
  | nil => rfl
  | cons incl included ih => exact sublist_addInclude.trans ih

/-- The excludes do not tell combinations with the same values apart. -/
theorem excluded_congr (h : c.SameValues d) (hc : Excluded excluded c) : Excluded excluded d := by
  obtain ⟨excl, hexcl, hsome, hvalues⟩ := hc
  exact ⟨excl, hexcl, hsome, fun key value hvalue => (h key).symm.trans (hvalues key value hvalue)⟩

/-- Excludes take combinations away, and includes add others. -/
theorem exists_applyIncludeExclude {included excluded : Option (List (JsObject JsString))} :
    (∃ d ∈ rt.applyIncludeExclude combos included excluded, d.SameValues c) ↔
      (∃ d ∈ combos, d.SameValues c) ∧ ¬Excluded (excluded.getD []) c ∨
        Included (included.getD []) c := by
  have hexcluded : ∀ d : MatrixValues, ((excluded.getD []).any fun excl => excludes excl d) ↔
      Excluded (excluded.getD []) d := fun d => by
    rw [any_eq_true]
    simp only [excludes_iff]
    rfl
  rw [applyIncludeExclude, exists_addIncludes]
  refine or_congr_left ?_
  simp only [mem_filter, Bool.not_eq_true', ← Bool.not_eq_true, hexcluded]
  constructor
  · rintro ⟨d, ⟨hd, hkept⟩, hsame⟩
    exact ⟨⟨d, hd, hsame⟩, fun h => hkept (excluded_congr hsame.symm h)⟩
  · rintro ⟨⟨d, hd, hsame⟩, hkept⟩
    exact ⟨d, ⟨hd, fun h => hkept (excluded_congr hsame h)⟩, hsame⟩

/-- Each combination is there once, if those of the product are different. -/
theorem once_applyIncludeExclude {included excluded : Option (List (JsObject JsString))}
    (hnodup : (rt.applyIncludeExclude (rt.expandMultiDimension matrix) included excluded).Nodup) :
    Once (rt.applyIncludeExclude (rt.expandMultiDimension matrix) included excluded) := by
  refine once_addIncludes ?_
  refine (sublist_addIncludes.nodup hnodup).pairwise_of_forall_ne fun c hc d hd hne hsame => hne ?_
  exact eq_of_mem_expandMultiDimension (mem_of_mem_filter hc) (mem_of_mem_filter hd) hsame

end FanoutRuntime

end Kici
