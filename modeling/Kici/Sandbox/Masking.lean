import Kici.Foundation.Coverage
import Kici.Sandbox.LogMasker

/-!
# What the masker leaves

Which secrets of a job are registered (`masksSecrets_iff`), and whether what is registered is masked
whole (`LogMasker.masksWhole_iff`).
-/

/-!
## Which secrets are masked

The secrets of a request are merged by their names before they are registered
(`createSecretMasker`), so that of those with one name the last one is left, and one
named `__proto__` is not (`mem_values_foldl_assign`). What is left is registered, as it
is, line by line and in base64.

All secrets of a job are masked if and only if each is among what is registered for
those that are left (`masksSecrets_iff`).
-/

namespace Kici

open List JsObject

variable {α : Type*} {maps : List (JsObject α)} {value : α}

/-- Whether a value is left of objects that are assigned one after the other: it has a
key that no later object has, and that can be written. -/
def Survives (maps : List (JsObject α)) (value : α) : Prop :=
  ∃ before o after key, maps = before ++ o :: after ∧ o.get key = some value ∧
    key ≠ js "__proto__" ∧ ∀ o' ∈ after, o'.get key = none

namespace JsObject

/-- Every key but `__proto__` has the value of the last object that has it. -/
theorem get_foldl_assign {o : JsObject α} {key : JsString} : (maps.foldl assign o).get key =
    if key = js "__proto__" then o.get key
    else (maps.reverse.findSome? fun m => m.get key).or (o.get key) := by
  induction maps generalizing o with
  | nil => simp
  | cons m maps ih =>
    rw [foldl_cons, ih, get_assign]
    split
    · rfl
    · rw [reverse_cons, findSome?_append, findSome?_singleton, Option.or_assoc]

/-- The values of objects that are assigned one after the other. -/
theorem mem_values_foldl_assign :
    value ∈ (maps.foldl assign empty).values ↔ Survives maps value := by
  rw [mem_values]
  constructor
  · rintro ⟨key, h⟩
    rw [get_foldl_assign] at h
    split at h
    · cases h
    next hkey =>
      have hempty : empty.get key = (none : Option α) := rfl
      rw [hempty, Option.or_none, findSome?_eq_some_iff] at h
      obtain ⟨after, o, before, hmaps, hget, hafter⟩ := h
      refine ⟨before.reverse, o, after.reverse, key, ?_, hget, hkey, fun o' ho' => ?_⟩
      · rw [← reverse_reverse maps, hmaps]
        simp
      · exact hafter o' (mem_reverse.1 ho')
  · rintro ⟨before, o, after, key, rfl, hget, hkey, hafter⟩
    refine ⟨key, ?_⟩
    have hlast : (before ++ o :: after).reverse.findSome? (fun m => m.get key) = some value :=
      findSome?_eq_some_iff.2 ⟨after.reverse, o, before.reverse, by simp, hget,
        fun o' ho' => hafter o' (mem_reverse.1 ho')⟩
    rw [get_foldl_assign, if_neg hkey, hlast]
    rfl

end JsObject

namespace JobExecutionRequest

variable (request : JobExecutionRequest)

/-- The secrets by name, those without a context first. -/
def secretMaps : List (JsObject JsString) :=
  request.secrets.toList ++ (request.namespacedSecrets.map values).getD []

/-- The values of all secrets. -/
def secretValues : List JsString := request.secretMaps.flatMap values

/-- Every secret of the job that is long enough is registered, and in no masked line, if
it has no asterisk. -/
def MasksSecrets : Prop :=
  ∀ v ∈ request.secretValues, MIN_MASK_LENGTH ≤ v.length →
    v ∈ (createSecretMasker request).values ∧
    ∀ line, v <:+: line → (∀ c ∈ v, c ∉ js "*") → ¬v <:+: (createSecretMasker request).mask line

/-- Every secret of the job that is long enough is among what is registered for a secret
that no later one overwrites. -/
def MaskSafe : Prop :=
  ∀ v ∈ request.secretValues, MIN_MASK_LENGTH ≤ v.length →
    ∃ value, Survives request.secretMaps value ∧ v ∈ secretForms value

variable {request}

/-- The masker registers what is left of the secrets. -/
theorem mem_values_createSecretMasker {v : JsString} : v ∈ (createSecretMasker request).values ↔
    ∃ value, Survives request.secretMaps value ∧ v ∈ secretForms value := by
  have hmerged : ((request.namespacedSecrets.map values).getD []).foldl assign
      ((request.secrets.map empty.assign).getD empty) =
        request.secretMaps.foldl assign empty := by
    rw [secretMaps, foldl_append]
    cases request.secrets <;> rfl
  simp only [createSecretMasker, hmerged, LogMasker.registerSecrets, LogMasker.new,
    LogMasker.mem_foldl_add, not_mem_nil, false_or, mem_flatMap,
    mem_values_foldl_assign]

/-- All secrets of a job are masked exactly under the condition on their names. -/
theorem masksSecrets_iff : request.MasksSecrets ↔ request.MaskSafe := by
  constructor
  · intro h v hv hlong
    exact mem_values_createSecretMasker.1 (h v hv hlong).1
  · intro h v hv hlong
    have hmem := mem_values_createSecretMasker.2 (h v hv hlong)
    exact ⟨hmem, fun _ _ hstar => LogMasker.not_infix_mask hmem hstar⟩

end JobExecutionRequest

/-- A request with a secret of one name in each of two contexts. -/
def sameNameRequest : JobExecutionRequest where
  namespacedSecrets := some ⟨[
    ("A", ⟨[("TOKEN", "aaaa")], by decide⟩),
    ("B", ⟨[("TOKEN", "bbbb")], by decide⟩)], by decide⟩

/-- The secret of the first context is in the logs as it is. -/
theorem exists_secret_unmasked :
    ¬sameNameRequest.MasksSecrets ∧ js "aaaa" ∈ sameNameRequest.secretValues ∧
      (createSecretMasker sameNameRequest).mask "token: aaaa" = "token: aaaa" := by
  refine ⟨fun h => ?_, by decide, by decide⟩
  obtain ⟨-, h⟩ := h "aaaa" (by decide) (by decide)
  have hplain : (js "aaaa").all fun c => c ∉ js "*" := by decide
  refine h "token: aaaa" (by decide) (fun c hc => ?_) (by decide)
  exact of_decide_eq_true (List.all_eq_true.1 hplain c hc)

end Kici

/-!
## Values that overlap

A masked line leaves those letters of the line that the expression does not match
(`LogMasker.fates`). None of them is part of a registered value (`MasksWhole`) if and only if a
value starts wherever one goes beyond the end of what is matched (`ContinuesOverlaps`): longer
values are tried first, but only those that start at the same letter. Where one value ends in the
beginning of another, or a shorter one begins before a longer one, the rest of the other is left
(`exists_half_masked`).
-/

namespace Kici.LogMasker

/-- What masking does with the letters of the line. -/
def fates (masker : LogMasker) (line : JsString) : List Fate :=
  match masker.pattern with
  | none => line.map fun _ => .kept
  | some pattern =>
    match alternatives pattern with
    | none => line.map fun _ => .kept
    | some words => Kici.fates words line

/-- None of the letters that are left is part of an occurrence of a registered value. -/
def MasksWhole (masker : LogMasker) (line : JsString) : Prop :=
  CoversWords masker.values line (masker.fates line)

/-- Where an occurrence of a value goes beyond the end of one that is taken, there starts another. -/
def ContinuesOverlaps (values : List JsString) (line : JsString) : Prop :=
  ∀ s e, Taken values line s e → ∀ v ∈ values, ∀ i, OccursAt v line i → i < e → e < i + v.length →
    ∃ next ∈ values, OccursAt next line e

variable {masker : LogMasker} {line : JsString}

theorem fates_nil (line : JsString) : Kici.fates [] line = line.map fun _ => Fate.kept := by
  rw [Kici.fates]
  induction line with
  | nil => rfl
  | cons c line ih => exact congrArg (Fate.kept :: ·) ih

/-- The letters have the fates of the scan for the values, longer ones first. -/
theorem fates_eq : masker.fates line = Kici.fates (byLength masker.values) line := by
  rw [fates, masker.pattern_eq, patternOf]
  split
  next heq =>
    -- Without values there is no expression.
    split at heq
    next hnil => rw [hnil, byLength, List.insertionSort_nil, fates_nil]
    · cases heq
  next pattern heq =>
    split at heq
    · cases heq
    next hne =>
      have hsorted : byLength masker.values ≠ [] := fun hnil => by
        refine hne (List.eq_nil_iff_forall_not_mem.2 fun v hv => ?_)
        rw [← mem_byLength, hnil] at hv
        cases hv
      rw [← Option.some.inj heq, alternatives_join hsorted]

/-- The masked line is made of the letters that are left and of replacements. -/
theorem mask_eq_render (masker : LogMasker) (line : JsString) :
    masker.mask line = render (js "***") (masker.fates line) line := by
  rw [mask_eq, fates_eq]
  exact replaceFrom_eq_render _ _ 0 line

theorem pairwise_byLength (values : List JsString) : (byLength values).Pairwise fun a b =>
    b.length ≤ a.length := by
  have htotal : Std.Total fun a b : JsString => b.length ≤ a.length :=
    ⟨fun a b => Nat.le_total b.length a.length⟩
  have htrans : IsTrans JsString fun a b => b.length ≤ a.length :=
    ⟨fun a b c hab hbc => Nat.le_trans hbc hab⟩
  exact List.pairwise_insertionSort _ values

theorem ne_nil_of_mem {v : JsString} (hv : v ∈ masker.values) : v ≠ [] := by
  have hlong := masker.length_le v hv
  rintro rfl
  simp [MIN_MASK_LENGTH] at hlong

/-- What overlaps is said of the values in whatever order. -/
theorem continuesOverlaps_byLength : ContinuesOverlaps (byLength masker.values) line ↔
    ContinuesOverlaps masker.values line := by
  have htaken : ∀ s e, Taken (byLength masker.values) line s e ↔ Taken masker.values line s e :=
    fun s e =>
    taken_congr fun v => mem_byLength
  simp only [ContinuesOverlaps, mem_byLength, htaken]

/-- The masked line is made of the letters that are left and of replacements, and no value is masked
in part if and only if the values continue each other where they overlap. -/
theorem masksWhole_iff (masker : LogMasker) (line : JsString) :
    masker.mask line = render (js "***") (masker.fates line) line ∧
      (masker.fates line).length = line.length ∧
      (masker.MasksWhole line ↔ ContinuesOverlaps masker.values line) := by
  refine ⟨mask_eq_render masker line, ?_⟩
  rw [MasksWhole, fates_eq, ← continuesOverlaps_byLength]
  refine ⟨length_fatesFrom _ 0 line, ?_⟩
  have hcovers : CoversWords masker.values line (Kici.fates (byLength masker.values) line) ↔
      CoversWords (byLength masker.values) line (Kici.fates (byLength masker.values) line) := by
    simp only [CoversWords, mem_byLength]
  rw [hcovers]
  exact covers_iff (pairwise_byLength masker.values) fun v hv => ne_nil_of_mem (mem_byLength.1 hv)

/-- Two secrets, of which one is part of the other. -/
def overlappingSecrets : JsObject JsString := ⟨[("A", "aab"), ("B", "abxaab")], by decide⟩

/-- The shorter one is matched first where it begins first, and a letter of the longer one is left. -/
theorem exists_half_masked : (new.registerSecrets overlappingSecrets).mask "aabxaab" = "***x***" ∧
    ¬(new.registerSecrets overlappingSecrets).MasksWhole "aabxaab" := by
  refine ⟨by decide, fun h => ?_⟩
  have hoccurs : OccursAt (js "abxaab") (js "aabxaab") 1 := List.isPrefixOf_iff_prefix.1 (by decide)
  exact h 3 (by decide) (js "abxaab") (by decide) 1 hoccurs (by decide) (by decide)

end Kici.LogMasker
