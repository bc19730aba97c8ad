import Kici.Foundation.Replace
import Kici.Js.Object
import Kici.Js.RegExp
import Kici.Js.TextEncoder

/-!
# Masking secrets in logs

A masker holds the values registered so far and one regular expression that matches
them, longer ones first; `LogMasker.mask` replaces what it matches in a line by `***`.
`createSecretMasker` makes the masker of a job from the secrets of its request.

That the expression is the one of the values is part of the masker
(`LogMasker.pattern_eq`), as it matches the values and nothing else
(`LogMasker.mask_eq`).
-/

namespace Kici

open List JsObject

/-- Shorter values are not masked. -/
def MIN_MASK_LENGTH : ℕ := 3

/-- Values in the order in which the masker tries them: by length, the longest first. -/
def byLength (values : List JsString) : List JsString :=
  values.insertionSort fun a b => b.length ≤ a.length

/-- The regular expression of the values, if there are any. -/
def patternOf (values : List JsString) : Option JsString :=
  if values = [] then none else some (JsString.join ((byLength values).map escapeRegExp) "|")

structure LogMasker where
  /-- The values registered, as they are and in base64, in the order of registration. -/
  values : List JsString
  /-- The source of the regular expression, which has the flag `g`. -/
  pattern : Option JsString
  length_le : ∀ v ∈ values, MIN_MASK_LENGTH ≤ v.length
  pattern_eq : pattern = patternOf values

/-- A value as it is and in base64, if it is long enough. -/
def candidateForms (candidate : JsString) : List JsString :=
  if candidate.length < MIN_MASK_LENGTH then []
  else candidate :: if MIN_MASK_LENGTH ≤ (toBase64 candidate).length then [toBase64 candidate] else []

/-- A line without the carriage return that ends it. -/
def stripCarriageReturn (rawLine : JsString) : JsString :=
  if rawLine.getLast? = some 0x0D then rawLine.dropLast else rawLine

/-- What is registered for a secret: the value, and its lines if there are several. -/
def secretForms (value : JsString) : List JsString :=
  candidateForms value ++
    if 0x0A ∈ value then
      (value.splitOn 0x0A).flatMap fun rawLine => candidateForms (stripCarriageReturn rawLine)
    else []

theorem length_le_of_mem_candidateForms {v candidate : JsString} (h : v ∈ candidateForms candidate) :
    MIN_MASK_LENGTH ≤ v.length := by
  rw [candidateForms] at h
  split at h
  · cases h
  next hlong =>
    rcases mem_cons.1 h with rfl | h
    · exact Nat.le_of_not_lt hlong
    · split at h
      · rwa [mem_singleton.1 h]
      · cases h

theorem length_le_of_mem_secretForms {v value : JsString} (h : v ∈ secretForms value) :
    MIN_MASK_LENGTH ≤ v.length := by
  rcases mem_append.1 h with h | h
  · exact length_le_of_mem_candidateForms h
  · split at h
    · obtain ⟨rawLine, -, h⟩ := mem_flatMap.1 h
      exact length_le_of_mem_candidateForms h
    · cases h

namespace LogMasker

/-- A masker without values. -/
def new : LogMasker where
  values := []
  pattern := none
  length_le := by simp
  pattern_eq := rfl

/-- The values with one more, which may be there already. -/
def add (values : List JsString) (v : JsString) : List JsString :=
  if v ∈ values then values else values ++ [v]

theorem mem_add {values : List JsString} {v w : JsString} : w ∈ add values v ↔ w ∈ values ∨ w = v := by
  rw [add]
  split
  next h => exact ⟨.inl, fun hw => hw.elim id fun heq => heq ▸ h⟩
  · simp

theorem mem_foldl_add {values vs : List JsString} {w : JsString} :
    w ∈ vs.foldl add values ↔ w ∈ values ∨ w ∈ vs := by
  induction vs generalizing values with
  | nil => simp
  | cons v vs ih => rw [foldl_cons, ih, mem_add, mem_cons, or_assoc]

variable (masker : LogMasker)

/-- Register the values of secrets, besides those there are. -/
def registerSecrets (secrets : JsObject JsString) : LogMasker where
  values := (secrets.values.flatMap secretForms).foldl add masker.values
  pattern := patternOf ((secrets.values.flatMap secretForms).foldl add masker.values)
  length_le v hv := by
    rcases mem_foldl_add.1 hv with hv | hv
    · exact masker.length_le v hv
    · obtain ⟨value, -, hv⟩ := mem_flatMap.1 hv
      exact length_le_of_mem_secretForms hv
  pattern_eq := rfl

/-- Replace what the regular expression matches. -/
def mask (line : JsString) : JsString :=
  match masker.pattern with
  | none => line
  | some pattern =>
    match alternatives pattern with
    | none => line
    | some words => replaceAll words "***" line

def hasSecrets : Bool := masker.pattern.isSome

end LogMasker

/-- The secrets of a request: by name, and by context and name. -/
structure JobExecutionRequest where
  secrets : Option (JsObject JsString) := none
  namespacedSecrets : Option (JsObject (JsObject JsString)) := none

/-- The masker of the secrets of a request. -/
def createSecretMasker (request : JobExecutionRequest) : LogMasker :=
  let allSecrets := (request.secrets.map empty.assign).getD empty
  let allSecrets := ((request.namespacedSecrets.map values).getD []).foldl assign
    allSecrets
  LogMasker.new.registerSecrets allSecrets

namespace LogMasker

variable {masker : LogMasker} {line v : JsString}

theorem mem_byLength {values : List JsString} : v ∈ byLength values ↔ v ∈ values :=
  mem_insertionSort _

/-- The masker replaces its values, longer ones first. -/
theorem mask_eq : masker.mask line = replaceAll (byLength masker.values) "***" line := by
  rw [mask, masker.pattern_eq, patternOf]
  split
  next heq =>
    -- Without values there is no expression.
    split at heq
    next hnil => rw [hnil, byLength, insertionSort_nil, replaceAll_nil]
    · cases heq
  next pattern heq =>
    split at heq
    · cases heq
    next hne =>
      have hsorted : byLength masker.values ≠ [] := fun hnil => by
        refine hne (eq_nil_iff_forall_not_mem.2 fun v hv => ?_)
        rw [← mem_byLength, hnil] at hv
        cases hv
      rw [← Option.some.inj heq, alternatives_join hsorted]

/-- A value registered is not in a masked line, if it has no asterisk. -/
theorem not_infix_mask (hv : v ∈ masker.values) (hstar : ∀ c ∈ v, c ∉ js "*") :
    ¬v <:+: masker.mask line := by
  rw [mask_eq]
  refine not_infix_replaceAll (mem_byLength.2 hv) ?_ (by decide) fun c hc => ?_
  · have hlong := masker.length_le v hv
    rintro rfl
    simp [MIN_MASK_LENGTH] at hlong
  · have hstars : js "***" = js "*" ++ js "*" ++ js "*" := by decide
    rw [hstars, mem_append, mem_append]
    exact fun h => hstar c hc (h.elim (fun h => h.elim id id) id)

end LogMasker

end Kici
