import Mathlib.Data.List.Basic

/-!
# Labels and label matchers

Runner labels are compared in canonical form: trimmed and lowercased. A job
selects agents by exact labels, and by matchers, which hold an exact label or a
regular expression tested against every label of an agent.

The string functions and the regular expressions are those of the JavaScript
runtime (`JsRuntime`), of which nothing is assumed here; an expression may fail to
compile, which throws.
-/

namespace Kici

/-- What the label code uses of the JavaScript runtime. -/
structure JsRuntime where
  trim : String → String
  toLowerCase : String → String
  /-- `new RegExp(source, flags)` as a test of strings, `none` where it throws. -/
  regExp : (source flags : String) → Option (String → Bool)

/-- A `SyntaxError` of a regular expression. -/
inductive RegExpError
  | syntaxError (source flags : String)
  deriving DecidableEq

inductive LabelMatcher
  | exact (value : String)
  | regex (source flags : String)
  deriving DecidableEq

/-- Drop the flags that make a regular expression stateful. -/
def stripStatefulRegexFlags (flags : String) : String :=
  String.ofList (flags.toList.filter fun c => c ≠ 'g' ∧ c ≠ 'y')

namespace JsRuntime

variable (js : JsRuntime)

def canonicalizeLabel (raw : String) : String := js.toLowerCase (js.trim raw)

def canonicalizeLabels (raw : List String) : List String := raw.map js.canonicalizeLabel

def compileRegexMatcher (source flags : String) : Except RegExpError (String → Bool) :=
  match js.regExp source (stripStatefulRegexFlags flags) with
  | some re => .ok re
  | none => .error (.syntaxError source (stripStatefulRegexFlags flags))

/-- Fold a matcher into the canonical domain: an expression gets the flag `i`. -/
def canonicalizeMatcher : LabelMatcher → LabelMatcher
  | .exact value => .exact (js.canonicalizeLabel value)
  | .regex source flags =>
    let flags := stripStatefulRegexFlags flags
    .regex source (if 'i' ∈ flags.toList then flags else flags ++ "i")

/-- Whether some label satisfies the matcher. -/
def matcherSatisfiedBy (labels : List String) : LabelMatcher → Except RegExpError Bool
  | .exact value => .ok (value ∈ labels)
  | .regex source flags => (js.compileRegexMatcher source flags).map labels.any

/-- What lowercasing makes of a string it leaves as it is, and it makes no white space. -/
structure LowerCases : Prop where
  toLowerCase_toLowerCase : ∀ s, js.toLowerCase (js.toLowerCase s) = js.toLowerCase s
  trim_toLowerCase : ∀ s, js.trim (js.toLowerCase (js.trim s)) = js.toLowerCase (js.trim s)

variable {js} {labels : List String} {m : LabelMatcher} {b : Bool}

theorem LowerCases.canonicalizeLabel (h : js.LowerCases) (label : String) :
    js.canonicalizeLabel (js.canonicalizeLabel label) = js.canonicalizeLabel label := by
  simp only [JsRuntime.canonicalizeLabel, h.trim_toLowerCase, h.toLowerCase_toLowerCase]

/-- Labels in canonical form stay as they are. -/
theorem LowerCases.canonicalizeLabels (h : js.LowerCases) (raw : List String) :
    js.canonicalizeLabels (js.canonicalizeLabels raw) = js.canonicalizeLabels raw := by
  rw [JsRuntime.canonicalizeLabels, JsRuntime.canonicalizeLabels, List.map_map]
  exact List.map_congr_left fun label _ => h.canonicalizeLabel label

/-- Whether a matcher compiles does not depend on the labels. -/
theorem matcherSatisfiedBy_ok (h : js.matcherSatisfiedBy labels m = .ok b) (other : List String) :
    ∃ b, js.matcherSatisfiedBy other m = .ok b := by
  cases m with
  | exact value => exact ⟨_, rfl⟩
  | regex source flags =>
    rw [matcherSatisfiedBy] at h
    cases hcompile : js.compileRegexMatcher source flags with
    | error e =>
      rw [hcompile] at h
      cases h
    | ok re => exact ⟨other.any re, by rw [matcherSatisfiedBy, hcompile]; rfl⟩

end JsRuntime

end Kici
