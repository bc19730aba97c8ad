import Kici.Sandbox.Masking
import Kici.Sandbox.Messages

/-!
# What leaves the runner of a secret

Of the texts that an operator reads, a sender masks those that the masking names, or none
(`Sender.maskedTexts`, `Sender.bareTexts`). A registered secret stays out of all texts that leave
the runner if and only if it is in none of the bare ones, and, where it has an asterisk itself, does
not come about with the asterisks of the masking (`noSecretLeaves_iff_clean`). Bare are the drift of
a step, the errors in the results of a job, and whatever an approval says (`exists_secret_leaves`).
-/

namespace Kici.Ipc

open List Option

variable {masker : LogMasker} {text v : JsString}

namespace RunnerToAgentMessage

variable {msg : RunnerToAgentMessage}

theorem textsOfError_maskDescribedError (e : DescribedError) :
    textsOfError (maskDescribedError masker e) = (textsOfError e).map masker.mask := by
  rw [textsOfError, textsOfError, maskDescribedError, map_cons]
  cases e.causeMessage <;> rfl

/-- The texts that are named are masked. -/
theorem namedTexts_maskMessageText (h : masker.hasSecrets) :
    (maskMessageText masker msg).namedTexts = msg.namedTexts.map masker.mask := by
  rw [maskMessageText.eq_def, if_pos h]
  cases msg with
  | stepComplete msg => cases herror : msg.error <;> simp [namedTexts, herror]
  | jobComplete msg =>
    cases herror : msg.error <;> cases hdropped : msg.droppedJobs <;> simp [namedTexts, herror, hdropped]
  | depRestoreReport report =>
    cases report with
    | none => rfl
    | some r =>
      simp only [namedTexts, map_some, toList_some, flatMap_singleton, map_append,
        map_flatMap, flatMap_map, toList_map, textsOfError_maskDescribedError]
  | _ => rfl

/-- The other texts stay as they are. -/
theorem otherTexts_maskMessageText (h : masker.hasSecrets) :
    (maskMessageText masker msg).otherTexts = msg.otherTexts := by
  rw [maskMessageText.eq_def, if_pos h]
  cases msg with
  | depRestoreReport report =>
    cases report with
    | none => rfl
    | some r =>
      simp only [otherTexts, map_some, toList_some, flatMap_singleton, flatMap_map,
        toList_map]
      rfl
  | _ => rfl

end RunnerToAgentMessage

namespace Sender

variable (masker) (sender : Sender)

/-- The texts of a sender that are masked. -/
def maskedTexts : List JsString := if sender.masks then sender.messages.flatMap (·.namedTexts) else []

/-- The texts of a sender that leave the runner as they are. -/
def bareTexts : List JsString :=
  sender.messages.flatMap fun msg => if sender.masks then msg.otherTexts else msg.visibleTexts

/-- No registered secret is in a text that leaves the runner and that an operator reads. -/
def NoSecretLeaves : Prop :=
  ∀ msg ∈ sender.leaving masker, ∀ text ∈ msg.visibleTexts, ∀ v ∈ masker.values, ¬ v <:+: text

/-- No registered secret is in a bare text, nor comes about in a text with the asterisks that stand
for the occurrences that are taken. -/
structure Clean : Prop where
  bare : ∀ text ∈ sender.bareTexts, ∀ v ∈ masker.values, ¬ v <:+: text
  starred : ∀ text ∈ sender.maskedTexts, ∀ v ∈ masker.values, (∃ c ∈ v, c ∈ js "*") →
    ¬ v <:+: render (js "***") (masker.fates text) text

variable {masker sender}

theorem hasSecrets_of_mem (hv : v ∈ masker.values) : masker.hasSecrets := by
  rw [LogMasker.hasSecrets, masker.pattern_eq, patternOf, if_neg (List.ne_nil_of_mem hv)]
  rfl

/-- What an operator reads of a sender is masked or bare. -/
theorem exists_visible_iff (h : masker.hasSecrets) :
    (∃ msg ∈ sender.leaving masker, text ∈ msg.visibleTexts) ↔
      (∃ t ∈ sender.maskedTexts, text = masker.mask t) ∨ text ∈ sender.bareTexts := by
  rw [leaving, maskedTexts, bareTexts]
  cases sender.masks with
  | false => simp
  | true =>
    simp only [if_true, List.mem_map, mem_flatMap, RunnerToAgentMessage.visibleTexts]
    constructor
    · rintro ⟨_, ⟨msg, hmsg, rfl⟩, htext⟩
      rw [RunnerToAgentMessage.namedTexts_maskMessageText h,
        RunnerToAgentMessage.otherTexts_maskMessageText h] at htext
      rcases mem_append.1 htext with hnamed | hother
      · obtain ⟨t, ht, rfl⟩ := List.mem_map.1 hnamed
        exact .inl ⟨t, ⟨msg, hmsg, ht⟩, rfl⟩
      · exact .inr ⟨msg, hmsg, hother⟩
    · rintro (⟨t, ⟨msg, hmsg, ht⟩, rfl⟩ | ⟨msg, hmsg, hother⟩)
      · refine ⟨_, ⟨msg, hmsg, rfl⟩, mem_append_left _ ?_⟩
        rw [RunnerToAgentMessage.namedTexts_maskMessageText h]
        exact List.mem_map_of_mem ht
      · refine ⟨_, ⟨msg, hmsg, rfl⟩, mem_append_right _ ?_⟩
        rwa [RunnerToAgentMessage.otherTexts_maskMessageText h]

/-- No secret leaves with the messages of a sender if and only if its bare texts are clean. -/
theorem noSecretLeaves_iff_clean : sender.NoSecretLeaves masker ↔ sender.Clean masker := by
  constructor
  · intro h
    refine ⟨fun text htext v hv => ?_, fun text htext v hv _ => ?_⟩
    · obtain ⟨msg, hmsg, hvisible⟩ := (exists_visible_iff (hasSecrets_of_mem hv)).2 (.inr htext)
      exact h msg hmsg text hvisible v hv
    · obtain ⟨msg, hmsg, hvisible⟩ := (exists_visible_iff (hasSecrets_of_mem hv)).2
        (.inl ⟨text, htext, rfl⟩)
      rw [← LogMasker.mask_eq_render]
      exact h msg hmsg _ hvisible v hv
  · intro h msg hmsg text htext v hv
    rcases (exists_visible_iff (hasSecrets_of_mem hv)).1 ⟨msg, hmsg, htext⟩ with ⟨t, ht, rfl⟩ | hbare
    · by_cases hstar : ∃ c ∈ v, c ∈ js "*"
      · rw [LogMasker.mask_eq_render]
        exact h.starred t ht v hv hstar
      · -- A secret without an asterisk is in no masked text.
        exact LogMasker.not_infix_mask hv fun c hc hmem => hstar ⟨c, hc, hmem⟩
    · exact h.bare text hbare v hv

end Sender

/-- The masker of a job with one secret. -/
def tokenMasker : LogMasker :=
  createSecretMasker { secrets := some ⟨[(js "TOKEN", js "s3cr3t-value")], by decide⟩ }

/-- A step whose drift holds the secret. -/
def driftOfToken : Sender := .maskedSend (.stepComplete {
  stepIndex := 0
  status := .success
  durationMs := 1
  driftSummary := some (js "rotate s3cr3t-value")
  drift := some (.obj [(js "current", .str (js "s3cr3t-value"))]) })

/-- An approval whose reason holds the secret. -/
def approvalOfToken : Sender := .requestStepApproval {
  requestId := js "request"
  stepIndex := 0
  stepName := js "deploy"
  clauses := []
  reason := js "deploy with s3cr3t-value" }

/-- The result of a step that failed with the secret in its error. -/
def resultOfToken : Sender := .maskedSend (.jobComplete {
  status := .failed
  stepResults := [{
    name := js "deploy"
    stepIndex := 0
    status := .failed
    durationMs := 1
    error := some { message := js "token s3cr3t-value rejected" } }] })

/-- A secret leaves with the drift of a step, with an approval, and with the results of a job. -/
theorem exists_secret_leaves : js "s3cr3t-value" ∈ tokenMasker.values ∧
    ∀ sender ∈ [driftOfToken, approvalOfToken, resultOfToken], ∃ text, js "s3cr3t-value" <:+: text ∧
      ∃ msg ∈ sender.leaving tokenMasker, text ∈ msg.visibleTexts := by
  have hsecret : js "s3cr3t-value" ∈ tokenMasker.values := by decide
  refine ⟨hsecret, fun sender hsender => ?_⟩
  -- It is enough that a bare text holds the secret.
  suffices h : ∃ text, js "s3cr3t-value" <:+: text ∧ text ∈ sender.bareTexts by
    obtain ⟨text, hinside, hbare⟩ := h
    exact ⟨text, hinside, (Sender.exists_visible_iff (Sender.hasSecrets_of_mem hsecret)).2 (.inr hbare)⟩
  simp only [mem_cons, not_mem_nil, or_false] at hsender
  rcases hsender with rfl | rfl | rfl
  · exact ⟨js "rotate s3cr3t-value", by decide, by decide⟩
  · exact ⟨js "deploy with s3cr3t-value", by decide, by decide⟩
  · exact ⟨js "token s3cr3t-value rejected", by decide, by decide⟩

end Kici.Ipc
