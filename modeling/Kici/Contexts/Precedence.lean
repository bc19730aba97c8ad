import Kici.Contexts.ScopeResolver
import Kici.Foundation.Extremes
import Mathlib.Data.List.Perm.Basic
import Mathlib.Data.Prod.Lex

/-!
# Which secret wins

The bindings that contribute to a host offer the secrets that they select (`Offered`). A key has a
secret if and only if one is offered, and it is one of the greatest host specificity and, of those,
of the greatest depth (`Precedence`). The order of the bindings and of the secrets decides between
equals alone (`SamePrecedence`).

So it is unless the host pattern of a binding is rejected (`Rejects`): then the call throws,
whatever the other bindings contribute (`resolveSecretsWithProvenance_precedence`).

The loops go through the candidates of all bindings, one after another (`candidates`), and keep the
greatest of each key (`Table.keepGreatest`).
-/

namespace Kici

open List Table ResolvedSecretCandidate

variable {bindings' : List ContextBinding} {secrets' : List ScopedSecret}

/-- What a candidate is preferred by. -/
def ResolvedSecretCandidate.tuple (c : ResolvedSecretCandidate) : ℕ ×ₗ ℕ :=
  toLex (c.hostSpec, c.scopeDepth)

theorem candidateWins_some_iff {c existing : ResolvedSecretCandidate} :
    candidateWins c (some existing) ↔ existing.tuple < c.tuple := by
  rw [candidateWins, tuple, tuple, Prod.Lex.toLex_lt_toLex]
  split
  · next hne =>
    simp only [decide_eq_true_eq]
    exact ⟨.inl, fun h => h.elim id fun heq => absurd heq.1.symm hne⟩
  · next heq =>
    simp only [decide_eq_true_eq]
    have hspec : existing.hostSpec = c.hostSpec := (not_not.1 heq).symm
    exact ⟨fun h => .inr ⟨hspec, h⟩, fun h => h.elim (fun hlt => absurd hspec hlt.ne) And.right⟩

namespace ScopeRuntime

variable (rt : ScopeRuntime) (hostFacts : Option HostFacts) (bindings : List ContextBinding)
  (secrets : List ScopedSecret) {binding : ContextBinding} {c : ResolvedSecretCandidate}

/-- The host pattern of the binding cannot be matched with the host. -/
def Rejects (binding : ContextBinding) : Prop := ∃ e, rt.bindingScopeForHost hostFacts binding = .error e

/-- A binding that contributes a pattern offers a secret whose scope matches it. -/
def Offered (c : ResolvedSecretCandidate) : Prop :=
  ∃ binding ∈ bindings, ∃ scopePattern, rt.bindingScopeForHost hostFacts binding = .ok
    (some scopePattern) ∧
    rt.hostSpecificity binding.hostPattern = .ok c.hostSpec ∧ c.secret ∈ secrets ∧
    rt.matchScopePattern c.secret.scope scopePattern = true ∧
      c.scopeDepth = Kici.scopeDepth c.secret.scope

/-- A key has a candidate if and only if one is offered, and it has one of the greatest. -/
structure Precedence (resolved : Table key) : Prop where
  keys : ∀ key, (∃ c, resolved.lookup key = some c) ↔ ∃ c, rt.Offered hostFacts bindings secrets c ∧
    c.key = key
  greatest : ∀ key c, resolved.lookup key = some c → rt.Offered hostFacts bindings secrets c ∧
    c.key = key ∧
    ∀ c', rt.Offered hostFacts bindings secrets c' → c'.key = key → c'.tuple ≤ c.tuple

/-- The keys and what their candidates are preferred by are the same, and so is the secret of a key
if the candidates that none is preferred to all have the same secret. -/
structure SamePrecedence (resolved resolved' : Table key) : Prop where
  tuple : ∀ key, (resolved'.lookup key).map (·.tuple) = (resolved.lookup key).map (·.tuple)
  secret : ∀ key c, resolved.lookup key = some c →
    (∀ c', rt.Offered hostFacts bindings secrets c' → c'.key = key → c'.tuple = c.tuple →
      c'.secret = c.secret) →
    (resolved'.lookup key).map (·.secret) = some c.secret

/-! ## The candidates in the order of the loops -/

/-- The candidates of a binding, if it contributes. -/
def offers (binding : ContextBinding) : List ResolvedSecretCandidate :=
  match rt.bindingScopeForHost hostFacts binding, rt.hostSpecificity binding.hostPattern with
  | .ok (some scopePattern), .ok hostSpec =>
    (secrets.filter fun s => rt.matchScopePattern s.scope scopePattern).map fun s =>
      ⟨s, Kici.scopeDepth s.scope, hostSpec⟩
  | _, _ => []

def candidates : List ResolvedSecretCandidate := bindings.flatMap (rt.offers hostFacts secrets)

variable {rt hostFacts bindings secrets}

theorem mem_offers :
    c ∈ rt.offers hostFacts secrets binding ↔ ∃ scopePattern,
      rt.bindingScopeForHost hostFacts binding = .ok (some scopePattern) ∧
      rt.hostSpecificity binding.hostPattern = .ok c.hostSpec ∧ c.secret ∈ secrets ∧
      rt.matchScopePattern c.secret.scope scopePattern ∧
      c.scopeDepth = Kici.scopeDepth c.secret.scope := by
  rw [offers]
  split
  · next scopePattern hostSpec hscope hspec =>
    rw [hscope, hspec, List.mem_map]
    constructor
    · rintro ⟨s, hs, rfl⟩
      obtain ⟨hmem, hmatch⟩ := mem_filter.1 hs
      exact ⟨scopePattern, rfl, rfl, hmem, hmatch, rfl⟩
    · rintro ⟨scopePattern', hsame, hspec', hmem, hmatch, hdepth⟩
      obtain rfl : scopePattern = scopePattern' := Option.some.inj (Except.ok.inj hsame)
      refine ⟨c.secret, mem_filter.2 ⟨hmem, hmatch⟩, ?_⟩
      rw [← hdepth, Except.ok.inj hspec']
  · next hnone =>
    refine ⟨nofun, ?_⟩
    rintro ⟨scopePattern, hscope, hspec, -⟩
    exact absurd hspec (hnone scopePattern c.hostSpec hscope)

theorem mem_candidates :
    c ∈ rt.candidates hostFacts bindings secrets ↔ rt.Offered hostFacts bindings secrets c := by
  simp only [candidates, mem_flatMap, mem_offers, Offered]

theorem mem_filter_candidates {key : String} :
    (c ∈ (rt.candidates hostFacts bindings secrets).filter fun c => c.key = key) ↔
      rt.Offered hostFacts bindings secrets c ∧ c.key = key := by
  rw [mem_filter, mem_candidates, decide_eq_true_eq]

/-- In another order there are the same candidates. -/
theorem candidates_perm
    (hbindings : bindings.Perm bindings') (hsecrets : secrets.Perm secrets') :
    (rt.candidates hostFacts bindings secrets).Perm (rt.candidates hostFacts bindings' secrets') := by
  refine List.Perm.flatMap hbindings fun binding _ => ?_
  rw [offers, offers]
  split
  · exact (hsecrets.filter _).map _
  · exact .refl _

/-! ## The loops -/

/-- A candidate that wins is of a greater rank. -/
theorem put_if_candidateWins (resolved : Table key) (c : ResolvedSecretCandidate) :
    (if candidateWins c (resolved.lookup c.key) then resolved.put c else resolved) =
      resolved.keepGreater (·.tuple) c := by
  rw [keepGreater]
  rcases resolved.lookup c.key with _ | old
  · rfl
  · exact if_congr candidateWins_some_iff rfl rfl

theorem addSecret_eq (scopePattern : String) (hostSpec : ℕ) (resolved : Table key)
    (secret : ScopedSecret) : rt.addSecret scopePattern hostSpec resolved secret =
      if rt.matchScopePattern secret.scope scopePattern then
        resolved.keepGreater (·.tuple) ⟨secret, Kici.scopeDepth secret.scope, hostSpec⟩
      else resolved := by
  rw [addSecret, ← put_if_candidateWins]
  rcases rt.matchScopePattern secret.scope scopePattern <;> rfl

/-- The secrets that a pattern selects are candidates, one after another. -/
theorem foldl_addSecret (scopePattern : String) (hostSpec : ℕ) (resolved : Table key) :
    secrets.foldl (rt.addSecret scopePattern hostSpec) resolved =
      ((secrets.filter fun s => rt.matchScopePattern s.scope scopePattern).map fun s =>
        (⟨s, Kici.scopeDepth s.scope, hostSpec⟩ : ResolvedSecretCandidate)).foldl
        (keepGreater (·.tuple)) resolved := by
  induction secrets generalizing resolved with
  | nil => rfl
  | cons s secrets ih =>
    rw [foldl_cons, ih, addSecret_eq, filter_cons]
    split <;> rfl

/-- A pattern that has been matched with the host can be ranked. -/
theorem hostSpecificity_of_bindingScopeForHost {scopePattern : String}
    (h : rt.bindingScopeForHost hostFacts binding = .ok (some scopePattern)) :
    ∃ spec, rt.hostSpecificity binding.hostPattern = .ok spec := by
  rcases hostFacts with _ | facts
  · rw [bindingScopeForHost] at h
    split at h
    · cases h
    · next hall =>
      refine ⟨0, hostSpecificity_of_matchesAllHosts (decide_eq_true ?_)⟩
      rw [not_and_or, not_not, not_not] at hall
      exact hall.symm
  -- the pattern was compiled to be matched
  · obtain ⟨b, hmatch, -⟩ := bind_eq_ok h
    exact hostSpecificity_eq_ok hmatch

theorem addBinding_of_ok {scope : Option String} (resolved : Table key)
    (h : rt.bindingScopeForHost hostFacts binding = .ok scope) :
    rt.addBinding hostFacts secrets resolved binding =
      .ok ((rt.offers hostFacts secrets binding).foldl (keepGreater (·.tuple)) resolved) := by
  rcases scope with _ | scopePattern
  · rw [addBinding, offers, h]
    rfl
  · obtain ⟨spec, hspec⟩ := hostSpecificity_of_bindingScopeForHost h
    rw [addBinding, offers, h, hspec]
    exact congrArg Except.ok (foldl_addSecret scopePattern spec resolved)

theorem addBinding_of_rejects (resolved : Table key)
    (h : rt.Rejects hostFacts binding) : ∃ e, rt.addBinding hostFacts secrets resolved binding =
    .error e := by
  obtain ⟨e, he⟩ := h
  exact ⟨e, by rw [addBinding, he]; rfl⟩

theorem not_rejects_iff :
    ¬ rt.Rejects hostFacts binding ↔ ∃ scope, rt.bindingScopeForHost hostFacts binding = .ok scope := by
  rw [Rejects]
  rcases rt.bindingScopeForHost hostFacts binding with e | scope
  · simp
  · simp

/-- The candidates of the bindings, if no pattern is rejected. -/
theorem foldlM_addBinding (h : ∀ binding ∈ bindings, ¬ rt.Rejects hostFacts binding)
    (resolved : Table key) :
    bindings.foldlM (rt.addBinding hostFacts secrets) resolved =
      .ok ((rt.candidates hostFacts bindings secrets).foldl (keepGreater (·.tuple)) resolved) := by
  induction bindings generalizing resolved with
  | nil => rfl
  | cons binding bindings ih =>
    obtain ⟨hfirst, hrest⟩ := forall_mem_cons.1 h
    obtain ⟨scope, hscope⟩ := not_rejects_iff.1 hfirst
    rw [foldlM_cons, addBinding_of_ok resolved hscope, candidates, flatMap_cons, foldl_append]
    exact ih hrest _

theorem resolveSecretsWithProvenance_eq_ok (h : ∀ binding ∈ bindings, ¬ rt.Rejects hostFacts binding) :
    rt.resolveSecretsWithProvenance hostFacts bindings secrets =
      .ok (keepGreatest (·.tuple) _ (rt.candidates hostFacts bindings secrets)) :=
  foldlM_addBinding h _

/-- The first pattern that is rejected ends the call. -/
theorem foldlM_addBinding_eq_error (hmem : binding ∈ bindings)
    (h : rt.Rejects hostFacts binding) (resolved : Table key) :
    ∃ e, bindings.foldlM (rt.addBinding hostFacts secrets) resolved = .error e := by
  induction bindings generalizing resolved with
  | nil => cases hmem
  | cons first bindings ih =>
    rw [foldlM_cons]
    rcases hadd : rt.addBinding hostFacts secrets resolved first with e | resolved'
    · exact ⟨e, rfl⟩
    · rcases mem_cons.1 hmem with rfl | hmem
      -- the loop has come to the binding without an error
      · obtain ⟨e, he⟩ : ∃ e, rt.addBinding hostFacts secrets resolved binding = .error e :=
          addBinding_of_rejects resolved h
        rw [hadd] at he
        cases he
      · exact ih hmem resolved'

/-! ## The law -/

theorem precedence_keepGreatest : rt.Precedence hostFacts bindings secrets
    (keepGreatest (·.tuple) _ (rt.candidates hostFacts bindings secrets)) where
  keys key := by
    rw [lookup_keepGreatest]
    constructor
    · rintro ⟨c, hc⟩
      exact ⟨c, mem_filter_candidates.1 (argmax_mem hc)⟩
    · rintro ⟨c, hoffered, rfl⟩
      refine Option.ne_none_iff_exists'.1 fun hnone => ?_
      have hmem := mem_filter_candidates.2 ⟨hoffered, rfl⟩
      rw [argmax_eq_none.1 hnone] at hmem
      cases hmem
  greatest key c hc := by
    rw [lookup_keepGreatest] at hc
    obtain ⟨hoffered, hkey⟩ := mem_filter_candidates.1 (argmax_mem hc)
    refine ⟨hoffered, hkey, fun c' hoffered' hkey' => ?_⟩
    exact le_of_mem_argmax (mem_filter_candidates.2 ⟨hoffered', hkey'⟩) hc

theorem samePrecedence_of_perm
    (hbindings : bindings.Perm bindings') (hsecrets : secrets.Perm secrets') :
    rt.SamePrecedence hostFacts bindings secrets
      (keepGreatest (·.tuple) _ (rt.candidates hostFacts bindings secrets))
      (keepGreatest (·.tuple) _ (rt.candidates hostFacts bindings' secrets')) where
  tuple key := by
    rw [lookup_keepGreatest, lookup_keepGreatest]
    exact (rank_argmax_of_perm ((candidates_perm hbindings hsecrets).filter _)).symm
  secret key c hc hsame := by
    rw [lookup_keepGreatest] at hc ⊢
    refine argmax_of_perm ((candidates_perm hbindings hsecrets).filter _) hc fun c' hmem htuple => ?_
    obtain ⟨hoffered, hkey⟩ := mem_filter_candidates.1 hmem
    exact hsame c' hoffered hkey htuple

/-- The call throws if and only if a pattern is rejected. Otherwise the secret of a key is one of
the greatest that are offered, and the order of the bindings and of the secrets decides between
equals alone. -/
theorem resolveSecretsWithProvenance_precedence (rt : ScopeRuntime) (hostFacts : Option HostFacts)
    (bindings : List ContextBinding) (secrets : List ScopedSecret) :
    match rt.resolveSecretsWithProvenance hostFacts bindings secrets with
    | .error _ => ∃ binding ∈ bindings, rt.Rejects hostFacts binding
    | .ok resolved => (∀ binding ∈ bindings, ¬ rt.Rejects hostFacts binding) ∧
      rt.Precedence hostFacts bindings secrets resolved ∧
      ∀ bindings' secrets', bindings.Perm bindings' → secrets.Perm secrets' →
        ∃ resolved', rt.resolveSecretsWithProvenance hostFacts bindings' secrets' = .ok resolved' ∧
          rt.SamePrecedence hostFacts bindings secrets resolved resolved' := by
  by_cases h : ∃ binding ∈ bindings, rt.Rejects hostFacts binding
  · obtain ⟨binding, hmem, hrejects⟩ := h
    obtain ⟨e, he⟩ : ∃ e, bindings.foldlM (rt.addBinding hostFacts secrets) (.empty _) = .error e :=
      foldlM_addBinding_eq_error hmem hrejects (.empty _)
    rw [resolveSecretsWithProvenance, he]
    exact ⟨binding, hmem, hrejects⟩
  · have hok : ∀ binding ∈ bindings, ¬ rt.Rejects hostFacts binding := fun binding hmem hrejects =>
      h ⟨binding, hmem, hrejects⟩
    rw [resolveSecretsWithProvenance_eq_ok hok]
    refine ⟨hok, precedence_keepGreatest, fun bindings' secrets' hbindings hsecrets => ?_⟩
    have hok' : ∀ binding ∈ bindings', ¬ rt.Rejects hostFacts binding := fun binding hmem =>
      hok binding (hbindings.symm.subset hmem)
    exact ⟨_, resolveSecretsWithProvenance_eq_ok hok', samePrecedence_of_perm hbindings hsecrets⟩

/-- A binding for every host offers a secret, and another one has an expression that may take too
long. -/
theorem exists_rejected_host_pattern : ∃ (rt : ScopeRuntime) (hostFacts : Option HostFacts)
    (bindings : List ContextBinding) (secrets : List ScopedSecret) (c : ResolvedSecretCandidate),
    rt.Offered hostFacts bindings secrets c ∧
      ∀ resolved, rt.resolveSecretsWithProvenance hostFacts bindings secrets ≠ .ok resolved := by
  refine ⟨⟨⟨id, id, fun _ _ => some fun _ => false⟩,
    ⟨fun _ => false, fun _ => none, fun source _ => source ≠ "(a+)+$", fun _ => .ok ()⟩,
      fun _ _ => false⟩,
    some ⟨"box-1", "box-1", []⟩, [⟨"prod", "**"⟩, ⟨"prod", "/(a+)+$/"⟩], [⟨"1", "prod", "TOKEN", ""⟩],
    ⟨⟨"1", "prod", "TOKEN", ""⟩, 1, 0⟩, ?_, fun resolved h => ?_⟩
  · exact ⟨⟨"prod", "**"⟩, mem_cons_self, "prod", by rfl, by rfl, mem_cons_self, by rfl, by rfl⟩
  · have hisOk := congrArg Except.isOk h
    rw [show (Except.ok resolved : Except HostPatternError _).isOk from rfl] at hisOk
    revert hisOk
    decide

end ScopeRuntime

end Kici
