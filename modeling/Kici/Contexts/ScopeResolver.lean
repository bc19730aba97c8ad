import Kici.Foundation.Except
import Kici.Foundation.Table
import Kici.Lock.Jobs
import Mathlib.Data.List.DropRight

/-!
# Bindings of contexts

A binding of a context is for some hosts (`matchHostPattern`) and selects secrets by their scopes
(`resolveSecretsWithProvenance`).
-/

namespace Kici

/-!
## Which hosts a binding is for

A binding of a context has a pattern of hosts: every host, a regular expression, a glob or a text.
It is matched with the agent id of a host, exactly, and with its name and its labels in canonical
form (`matchHostPattern`), and ranks by how specific it is (`hostSpecificity`).

An expression that does not compile, or may take too long, throws, and so does a glob that is no
pattern; one that has been matched with a host does not when it is ranked (`hostSpecificity_eq_ok`).
-/

/-- What matching hosts and scopes uses of the runtime and of its packages. -/
structure ScopeRuntime extends JsRuntime where
  /-- Globs, and the check of expressions. -/
  labels : Lock.LabelHost
  /-- `picomatch.isMatch(scope, pattern)`. -/
  isMatch : (scope pattern : String) → Bool

/-- What matching a host pattern throws. -/
inductive HostPatternError
  | error (message : JsString)
  | regExp (e : RegExpError)

/-- The identity of a child of a fan-out. -/
structure HostFacts where
  agentId : String
  host : String
  labels : List String := []

def matchesAllHosts (pattern : String) : Bool := pattern = "" ∨ pattern = "**"

/-- The source and the flags of `/source/flags`. As no flag is a slash, the flags are what follows
the last one. -/
def asRegexString (pattern : String) : Option (String × String) :=
  match pattern.toList with
  | '/' :: rest =>
    match rest.rdropWhile (· ≠ '/') with
    | [] => none
    | upToSlash => some (String.ofList upToSlash.dropLast, String.ofList (rest.rtakeWhile (· ≠ '/')))
  | _ => none

namespace ScopeRuntime

variable (rt : ScopeRuntime)

/-- A text that is not a regular expression. -/
def toHostMatcher (pattern : String) : Except HostPatternError LabelMatcher :=
  (rt.labels.toLabelMatcher (js ("host_pattern '" ++ pattern ++ "'")) (.text pattern)).mapError .error

/-- Reject an expression that does not compile, or that may take too long. -/
def assertSafeRegex (source flags : String) (ctx : JsString) : Except HostPatternError Unit :=
  match rt.regExp source flags with
  | none => .error (.regExp (.syntaxError source flags))
  | some _ => (rt.labels.assertSafeRegex ctx source flags).mapError .error

def compileHostPattern (pattern : String) : Except HostPatternError LabelMatcher :=
  match asRegexString pattern with
  | some (source, flags) => do
    rt.assertSafeRegex source flags (js ("host_pattern /" ++ source ++ "/" ++ flags))
    .ok (.regex source flags)
  | none => rt.toHostMatcher pattern

def matcherMatches (label : String) : LabelMatcher → Except HostPatternError Bool
  | .exact value => .ok (label = value)
  | .regex source flags => ((rt.compileRegexMatcher source flags).map (· label)).mapError .regExp

/-- The name of a host that is its agent id has been compared with the id. -/
def hostNameMatches (facts : HostFacts) (matcher : LabelMatcher) : Except HostPatternError Bool :=
  if facts.host ≠ facts.agentId then rt.matcherMatches (rt.canonicalizeLabel facts.host) matcher
    else .ok false

def matchHostPattern (facts : HostFacts) (pattern : String) : Except HostPatternError Bool :=
  if matchesAllHosts pattern then .ok true
  else do
    let matcher ← rt.compileHostPattern pattern
    -- the id as it is; the name and the labels in canonical form
    if ← rt.matcherMatches facts.agentId matcher then return true
    let labelMatcher := rt.canonicalizeMatcher matcher
    if ← rt.hostNameMatches facts labelMatcher then return true
    facts.labels.anyM fun label => rt.matcherMatches (rt.canonicalizeLabel label) labelMatcher

/-- How specific a pattern is: a text is more so than a glob or an expression, which is more so than
every host. -/
def hostSpecificity (pattern : String) : Except HostPatternError ℕ :=
  if matchesAllHosts pattern then .ok 0
  else
    match asRegexString pattern with
    | some _ => .ok 1
    | none => do
      match ← rt.toHostMatcher pattern with
      | .regex _ _ => .ok 1
      | .exact _ => .ok 2

variable {rt} {pattern : String}

theorem hostSpecificity_of_matchesAllHosts (h : matchesAllHosts pattern) :
    rt.hostSpecificity pattern = .ok 0 := by
  rw [hostSpecificity, if_pos h]

/-- A pattern that compiles can be ranked. -/
theorem hostSpecificity_of_compileHostPattern {matcher : LabelMatcher}
    (h : rt.compileHostPattern pattern = .ok matcher) :
    ∃ spec, rt.hostSpecificity pattern = .ok spec := by
  rw [hostSpecificity]
  split
  · exact ⟨0, rfl⟩
  rw [compileHostPattern] at h
  split at h
  · next source flags hregex => exact ⟨1, by rw [hregex]⟩
  · next hregex =>
    rw [hregex]
    simp only [h]
    rcases matcher with value | ⟨source, flags⟩
    · exact ⟨2, rfl⟩
    · exact ⟨1, rfl⟩

/-- So can one that has been matched with a host. -/
theorem hostSpecificity_eq_ok {facts : HostFacts} {b : Bool}
    (h : rt.matchHostPattern facts pattern = .ok b) :
    ∃ spec, rt.hostSpecificity pattern = .ok spec := by
  rw [matchHostPattern] at h
  split at h
  · next hall => exact ⟨0, hostSpecificity_of_matchesAllHosts hall⟩
  · obtain ⟨matcher, hmatcher, -⟩ := bind_eq_ok h
    exact hostSpecificity_of_compileHostPattern hmatcher

end ScopeRuntime

/-!
## Which secrets a context has

A binding of a context selects the secrets whose scope matches its pattern (`matchScopePattern`).
For a host, it does so if the host matches its pattern of hosts, and with the identity of the host
for the placeholders of its scope pattern (`substituteScopePattern`); without a host, if it is for
every host and has no placeholders (`bindingScopeForHost`).

Of the secrets of a key that are selected, that of the most specific host pattern wins, then that of
the deepest scope, then the first (`resolveSecretsWithProvenance`).
-/

structure ScopedSecret where
  id : String
  scope : String
  key : String
  encryptedValue : String := ""

structure ContextBinding where
  scopePattern : String
  hostPattern : String

/-! ### Scopes -/

/-- What is before the first colon, and what is after it. -/
def splitAtColon (s : String) : Option (String × String) :=
  match s.toList.dropWhile (· ≠ ':') with
  | [] => none
  | _ :: path => some (String.ofList (s.toList.takeWhile (· ≠ ':')), String.ofList path)

/-- The scope without the name of its backend. -/
def stripScopePrefix (scope : String) : String :=
  match splitAtColon scope with
  | some (_, path) => path
  | none => scope

/-- The number of segments of a scope. -/
def scopeDepth (scope : String) : ℕ := (stripScopePrefix scope).toList.count '/' + 1

/-- A scope matches a pattern: of the same backend if the pattern names one. -/
def ScopeRuntime.matchScopePattern (rt : ScopeRuntime) (scope pattern : String) : Bool :=
  if scope = pattern then true
  else
    match splitAtColon scope, splitAtColon pattern with
    | some (scopeBackend, scopePath), some (patternBackend, patternPath) =>
      if scopeBackend ≠ patternBackend then false
      else if scopePath = patternPath then true else rt.isMatch scopePath patternPath
    | some (_, scopePath), none => if scopePath = pattern then true else rt.isMatch scopePath pattern
    | none, _ => rt.isMatch scope pattern

/-! ### Placeholders -/

inductive Placeholder
  | agentId
  | host
  | label (name : List Char)

/-- The placeholder that a text starts with, and its length. -/
def placeholder? : List Char → Option (Placeholder × ℕ)
  | '$' :: '{' :: rest =>
    let token := rest.takeWhile (· ≠ '}')
    if token.length = rest.length then none
    else if token = "agentId".toList then some (.agentId, token.length + 3)
    else if token = "host".toList then some (.host, token.length + 3)
    else if "label:".toList <+: token ∧ token ≠ "label:".toList then
      some (.label (token.drop "label:".length), token.length + 3)
    else none
  | _ => none

/-- What stands for a placeholder; a label with several values stands for the first of them in
order. -/
def Placeholder.value (facts : HostFacts) : Placeholder → Option String
  | .agentId => some facts.agentId
  | .host => some facts.host
  | .label name =>
    let start := name ++ [':']
    let hits := (facts.labels.filter fun l => start <+: l.toList).map fun l =>
      String.ofList (l.toList.drop start.length)
    (hits.mergeSort fun a b => js a ≤ js b).head?

/-- A value that is a single segment of a scope, and no pattern: not empty, of letters, digits, `.`,
`_` and `-`. -/
def isSafeSegment (value : String) : Bool :=
  value ≠ "" ∧ value.toList.all fun c => c.isAlphanum || c ∈ ['.', '_', '-']

/-- The text behind `skip` letters, with values for its placeholders, unless one has none that is
safe. -/
def substituteFrom (facts : HostFacts) : (skip : ℕ) → List Char → Option (List Char)
  | _, [] => some []
  | skip + 1, _ :: text => substituteFrom facts skip text
  | 0, c :: text =>
    match placeholder? (c :: text) with
    | none => (substituteFrom facts 0 text).map (c :: ·)
    | some (token, length) =>
      match token.value facts with
      | none => none
      | some value =>
        if isSafeSegment value then (substituteFrom facts (length - 1) text).map (value.toList ++ ·)
          else none

/-- A pattern with placeholders. -/
def isTemplate (pattern : String) : Bool := "$\x7b".toList <:+: pattern.toList

def substituteScopePattern (pattern : String) (facts : HostFacts) : Option String :=
  if ¬ isTemplate pattern then some pattern
    else (substituteFrom facts 0 pattern.toList).map String.ofList

/-! ### The secrets that win -/

/-- A secret that a binding selects, and what it is preferred by. -/
structure ResolvedSecretCandidate where
  secret : ScopedSecret
  scopeDepth : ℕ
  hostSpec : ℕ

namespace ResolvedSecretCandidate

def key (c : ResolvedSecretCandidate) : String := c.secret.key

end ResolvedSecretCandidate

def candidateWins (c : ResolvedSecretCandidate) : Option ResolvedSecretCandidate → Bool
  | none => true
  | some existing =>
    if c.hostSpec ≠ existing.hostSpec then existing.hostSpec < c.hostSpec
      else existing.scopeDepth < c.scopeDepth

open ResolvedSecretCandidate

namespace ScopeRuntime

variable (rt : ScopeRuntime) (hostFacts : Option HostFacts)

/-- The scope pattern that a binding contributes for the host, or without one, if any. -/
def bindingScopeForHost (binding : ContextBinding) : Except HostPatternError (Option String) :=
  match hostFacts with
  | some facts => do
    if ← rt.matchHostPattern facts binding.hostPattern then
      return substituteScopePattern binding.scopePattern facts
    else return none
  | none =>
    if binding.hostPattern ≠ "**" ∧ binding.hostPattern ≠ "" then .ok none
    else if isTemplate binding.scopePattern then .ok none else .ok (some binding.scopePattern)

/-- Keep a secret that the pattern selects, if it wins over that of its key. -/
def addSecret (scopePattern : String) (hostSpec : ℕ) (resolved : Table key)
    (secret : ScopedSecret) : Table key :=
  if rt.matchScopePattern secret.scope scopePattern = false then resolved
  else
    let candidate := ⟨secret, Kici.scopeDepth secret.scope, hostSpec⟩
    if candidateWins candidate (resolved.lookup secret.key) then resolved.put candidate else resolved

def addBinding (allSecrets : List ScopedSecret) (resolved : Table key)
    (binding : ContextBinding) : Except HostPatternError (Table key) := do
  match ← rt.bindingScopeForHost hostFacts binding with
  | none => return resolved
  | some scopePattern => do
    let hostSpec ← rt.hostSpecificity binding.hostPattern
    return allSecrets.foldl (rt.addSecret scopePattern hostSpec) resolved

/-- The secret that wins, for each key that has any. -/
def resolveSecretsWithProvenance (bindings : List ContextBinding) (allSecrets : List ScopedSecret) :
    Except HostPatternError (Table key) :=
  bindings.foldlM (rt.addBinding hostFacts allSecrets) (.empty _)

end ScopeRuntime

end Kici
