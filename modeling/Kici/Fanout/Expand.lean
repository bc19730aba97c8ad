import Kici.Js.Json
import Kici.Js.Object

/-!
# Expanding matrices

A matrix is a list of strings or an object of such lists. It is normalized
(`normalizeMatrixInput`) and expanded into combinations, one for each choice of a value
in every dimension (`expandMatrix`); `applyIncludeExclude` drops and adds combinations,
and `formatExpandedJobName` names the child job of one.

The order of strings under a locale, and the string forms of numbers, are those of the
JavaScript runtime (`FanoutRuntime`), of which nothing is assumed here.
-/

namespace Kici

/-- What the expansion uses of the runtime. -/
structure FanoutRuntime where
  /-- `JSON.stringify(value)`. -/
  stringify : Json → JsString
  /-- `String(value)`. -/
  toStr : Json → JsString
  /-- `a.localeCompare(b) <= 0`. -/
  localeLe : JsString → JsString → Bool

/-- The values of a combination, by dimension; the one of a list is `value`. -/
abbrev MatrixValues := JsObject JsString

structure MatrixShapeError where
  message : JsString

inductive NormalizedMatrix
  | array (values : List JsString)
  | object (dimensions : List (JsString × List JsString))

namespace FanoutRuntime

variable (rt : FanoutRuntime)

/-- Sort by a key that is a string, in the order of the locale. -/
def sortByLocale {α : Type} (key : α → JsString) (l : List α) : List α :=
  l.insertionSort fun a b => rt.localeLe (key a) (key b)

/-! ## Normalization -/

/-- Describe a value that was rejected. -/
def describeValue : Json → JsString
  | .null => "null"
  | .undefined => "undefined"
  | .arr _ => "an array"
  | .str s => "a string (" ++ rt.stringify (.str s) ++ ")"
  | .obj _ => "an object"
  | .bool _ => "a boolean"
  | .num _ => "a number"

/-- Coerce an element of a matrix to a string. -/
def coerceElement (value : Json) (place : JsString) : Except MatrixShapeError JsString :=
  match value with
  | .str s => .ok s
  | .num _ | .bool _ => .ok (rt.toStr value)
  | _ => .error ⟨"matrix " ++ place ++ " must contain strings, got " ++ rt.describeValue value⟩

/-- Coerce the elements of a list, from the index `i` on. -/
def coerceElements (place : JsString) (i : ℕ) : List Json → Except MatrixShapeError (List JsString)
  | [] => .ok []
  | v :: values => do
    let s ← rt.coerceElement v (place ++ "[" ++ js (toString i) ++ "]")
    let rest ← coerceElements place (i + 1) values
    return s :: rest

def normalizeDimensions : List (JsString × Json) →
    Except MatrixShapeError (List (JsString × List JsString))
  | [] => .ok []
  | (name, values) :: entries =>
    match values with
    | .arr values => do
      let values ← rt.coerceElements ("dimension \"" ++ name ++ "\"") 0 values
      let rest ← normalizeDimensions entries
      return (name, values) :: rest
    | _ => .error ⟨"matrix dimension \"" ++ name ++ "\" must be an array, got " ++
        rt.describeValue values⟩

/-- Validate and normalize a matrix. -/
def normalizeMatrixInput (input : Json) : Except MatrixShapeError NormalizedMatrix :=
  match input with
  | .arr values => do
    let values ← rt.coerceElements "values" 0 values
    return .array values
  | .obj entries => do
    let dimensions ← rt.normalizeDimensions entries
    return .object (rt.sortByLocale Prod.fst dimensions)
  | .str _ => .error ⟨"matrix must be a string array or an object of string arrays, got " ++
      rt.describeValue input ++
      " — a bare string is read as one dimension per character; split it into an array"⟩
  | _ => .error ⟨"matrix must be a string array or an object of string arrays, got " ++
      rt.describeValue input⟩

/-! ## Expansion -/

/-- The tuples of one value of each set, in row-major order. -/
def cartesianProduct {α : Type} (sets : List (List α)) : List (List α) :=
  if ∃ set ∈ sets, set.length = 0 then []
  else sets.foldl (fun acc set => acc.flatMap fun tuple => set.map fun value => tuple ++ [value]) [[]]

def expandSingleDimension (matrix : List JsString) : List MatrixValues :=
  matrix.map fun value => JsObject.fromEntries [("value", value)]

/-- The combinations of an object; one without dimensions has none. -/
def expandMultiDimension (matrix : JsObject (List JsString)) : List MatrixValues :=
  let dimensions := matrix.entries
  if dimensions.length = 0 then []
  else
    let dimensions := rt.sortByLocale Prod.fst dimensions
    (cartesianProduct (dimensions.map Prod.snd)).map fun combo =>
      JsObject.fromEntries ((dimensions.map Prod.fst).zip combo)

/-- Normalize a matrix, and expand it. -/
def expandMatrix (input : Json) : Except MatrixShapeError (List MatrixValues) := do
  match ← rt.normalizeMatrixInput input with
  | .array values => return expandSingleDimension values
  | .object dimensions => return rt.expandMultiDimension (JsObject.fromEntries dimensions)

/-- How many combinations a matrix would expand to. -/
def matrixCombinationCount (input : Json) : Except MatrixShapeError ℕ := do
  match ← rt.normalizeMatrixInput input with
  | .array values => return values.length
  | .object dimensions =>
    if dimensions.length = 0 then return 0
    return dimensions.foldl (fun acc d => acc * d.2.length) 1

end FanoutRuntime

/-- The first combination with the key of an earlier one, after those with the keys seen. -/
def findDuplicateFrom (keyOf : MatrixValues → JsString) (seen : List JsString) :
    List MatrixValues → Option MatrixValues
  | [] => none
  | combo :: combos =>
    if keyOf combo ∈ seen then some combo
    else findDuplicateFrom keyOf (keyOf combo :: seen) combos

/-- The first combination with the key of an earlier one. -/
def findDuplicateCombination (combos : List MatrixValues) (keyOf : MatrixValues → JsString) :
    Option MatrixValues :=
  findDuplicateFrom keyOf [] combos

/-! ## Includes and excludes -/

/-- Whether an exclude applies: all its dimensions match, of which it has some. -/
def excludes (excl combo : JsObject JsString) : Bool :=
  excl.entries.length ≠ 0 ∧ ∀ e ∈ excl.entries, combo.get e.1 = some e.2

/-- Whether a combination is the one of an include. -/
def isIncluded (incl combo : JsObject JsString) : Bool :=
  incl.entries.length = combo.entries.length ∧ ∀ e ∈ incl.entries, combo.get e.1 = some e.2

namespace FanoutRuntime

variable (rt : FanoutRuntime)

/-- Add an include that is not empty and not there already, with its keys sorted. -/
def addInclude (result : List MatrixValues) (incl : JsObject JsString) : List MatrixValues :=
  if incl.entries.length = 0 then result
  else if ∃ combo ∈ result, isIncluded incl combo then result
  else result ++ [JsObject.fromEntries (rt.sortByLocale Prod.fst incl.entries)]

/-- Apply the excludes, then the includes, to combinations. -/
def applyIncludeExclude (expanded : List MatrixValues)
    (included excluded : Option (List (JsObject JsString))) : List MatrixValues :=
  (included.getD []).foldl rt.addInclude <|
    expanded.filter fun combo => ! (excluded.getD []).any fun excl => excludes excl combo

end FanoutRuntime

/-! ## Names -/

/-- The values of a combination in the name of a job. -/
def formatMatrixSuffix (matrixValues : MatrixValues) : JsString :=
  match matrixValues.entries with
  -- `value` stands for the dimension of a list only where there is no other.
  | [(key, value)] => if key = "value" then value else JsString.join [value] ", "
  | defined => JsString.join (defined.map Prod.snd) ", "

/-- The name of a child job: `${baseName} (${suffix})`. -/
def formatExpandedJobName (baseName : JsString) (matrixValues : MatrixValues) : JsString :=
  baseName ++ " (" ++ formatMatrixSuffix matrixValues ++ ")"

end Kici
