import Kici.Trigger.Types
import Mathlib.Data.List.DropRight

/-!
# Regular expressions, texts and payloads

Regular expressions come from the authors of workflows: those that may take too long
are rejected, with an error (`assertSafeRegex`) or, in text matches, as indeterminate
(`compileSafeRegex`).

* `evaluateTextMatch`: the query of a `commitMessage` filter;
* `matchJsonPath`, `matchJsonPathNot`: JSONPath filters on payloads.
-/

namespace Kici

/-- Whether a string could be matched by `.+`: it is not empty, and on one line. -/
def isLine (s : JsString) : Bool :=
  s ≠ [] ∧ s.all fun c => c ∉ ([0x0A, 0x0D, 0x2028, 0x2029] : JsString)

/-- The pattern and the flags of `/pattern/flags`, with flags among those given. As no
flag is a slash, the flags are what follows the last one. -/
def regexLiteral (flagChars s : JsString) : Option (JsString × JsString) :=
  match s with
  | [] => none
  | c :: rest =>
    let flags := rest.rtakeWhile (· ∉ js "/")
    let pattern := (rest.rdropWhile (· ∉ js "/")).dropLast
    if [c] = js "/" ∧ isLine pattern ∧ flags.all (· ∈ flagChars) then some (pattern, flags) else none

/-- Drop the flags that make a regular expression stateful. -/
def stripStatefulFlags (flags : Option JsString) : JsString :=
  (flags.getD []).filter fun c => c ∉ js "gy"

namespace MatchRuntime

variable (rt : MatchRuntime)

/-- Reject a regular expression that does not compile, or that may take too long. -/
def assertSafeRegex (source flags ctx : JsString) : Except MatchError Unit :=
  match rt.regExp source flags with
  | none => .error (.syntaxError source flags)
  | some _ =>
    if rt.safeRegex source flags then .ok ()
    else .error (.error (ctx ++ ": regex /" ++ source ++ "/" ++ flags ++ " is ReDoS-prone — rejected"))

def newRegExp (source flags : JsString) : Except MatchError (JsString → Bool) :=
  match rt.regExp source flags with
  | none => .error (.syntaxError source flags)
  | some re => .ok re

def getCompiledRegex (pattern : JsString) (flags : Option JsString) (ctx : JsString) :
    Except MatchError (JsString → Bool) := do
  let safeFlags := stripStatefulFlags flags
  rt.assertSafeRegex pattern safeFlags ctx
  rt.newRegExp pattern safeFlags

/-! ## Text matches -/

structure TextMatchResult where
  pass : Bool
  /-- Why the match could not be evaluated. -/
  indeterminate : Option JsString := none

/-- A regular expression `/pattern/flags`, or a pattern, `none` where it is not to be
used. -/
def compileSafeRegex (source : JsString) : Option (JsString → Bool) :=
  let wrapped := regexLiteral "dgimsuvy" source
  let pattern := (wrapped.map Prod.fst).getD source
  let flags := stripStatefulFlags (wrapped.map Prod.snd)
  match rt.regExp pattern flags with
  | none => none
  | some re => if rt.safeRegex pattern flags then some re else none

/-- The populated keys of a text match, for the trace. -/
def describeTextMatch (m : LockTextMatch) : JsString :=
  let listed (key : JsString) (texts : Option (List JsString)) : List JsString :=
    match texts with
    | some (t :: ts) => [key ++ ": [" ++ JsString.join (t :: ts) ", " ++ "]"]
    | _ => []
  let parts := listed "contains" m.contains ++ listed "notContains" m.notContains ++
    listed "matches" m.matches ++ listed "notMatches" m.notMatches ++
    if m.ignoreCase = some true then [js "ignoreCase"] else []
  if parts ≠ [] then JsString.join parts "; " else "(no query)"

def evaluateRegexes (text : JsString) (expectMatch : Bool) : List JsString → TextMatchResult
  | [] => { pass := true }
  | source :: sources =>
    match rt.compileSafeRegex source with
    | none => { pass := false, indeterminate := some ("unsafe or invalid regex: " ++ source) }
    | some re =>
      if re text ≠ expectMatch then { pass := false }
      else evaluateRegexes text expectMatch sources

def evaluateTextMatch (text : JsString) (m : LockTextMatch) : TextMatchResult :=
  let fold (s : JsString) : JsString := if m.ignoreCase = some true then rt.toLowerCase s else s
  let haystack := fold text
  if ∃ needle ∈ m.contains.getD [], haystack.includes (fold needle) = false then { pass := false }
  else if ∃ needle ∈ m.notContains.getD [], haystack.includes (fold needle) then { pass := false }
  else
    let result := rt.evaluateRegexes text true (m.matches.getD [])
    if result.pass = false then result
    else
      let result := rt.evaluateRegexes text false (m.notMatches.getD [])
      if result.pass = false then result else { pass := true }

/-! ## JSONPath filters -/

/-- Strict equality, but a string `/pattern/flags` is tested against a string. -/
def valueEquals (result expected : Json) : Except MatchError Bool :=
  match expected, result with
  | .str e, .str r =>
    match regexLiteral "gimsuy" e with
    | some (pattern, flags) => do
      rt.assertSafeRegex pattern flags "jsonpath match"
      let regex ← rt.newRegExp pattern flags
      return regex r
    | none => .ok (r = e)
  | _, _ => .ok (result.strictEq expected)

def matchValue (results : List Json) (expected : Json) : Except MatchError Bool :=
  match expected with
  | .arr es => results.anyM fun r => es.anyM fun e => rt.valueEquals r e
  | _ => results.anyM fun r => rt.valueEquals r expected

/-- Whether every path resolves to what is expected of it. -/
def matchJsonPath (payload : Json) : PayloadMatch → Except MatchError Bool
  | [] => .ok true
  | (path, expected) :: entries => do
    let results ← rt.jsonPath path payload
    if results = [] then return false
    if ! (← rt.matchValue results expected) then return false
    matchJsonPath payload entries

/-- Whether no path resolves to what is given for it. -/
def matchJsonPathNot (payload : Json) : PayloadMatch → Except MatchError Bool
  | [] => .ok true
  | (path, expected) :: entries => do
    let results ← rt.jsonPath path payload
    if results ≠ [] then
      if ← rt.matchValue results expected then return false
    matchJsonPathNot payload entries

end MatchRuntime

end Kici
