import Kici.Js.Json
import Kici.Sandbox.LogMasker
import Kici.Sandbox.StepLoop

/-!
# Messages of the runner

What the runner of a job tells its agent (`RunnerToAgentMessage`), and by which way: most senders
mask (`maskMessageText`), some do not (`Sender`). An operator reads the texts of the messages, in
the log, on the timeline of the job, or beside an approval.

Of these texts the masker replaces some (`namedTexts`) and passes the rest (`otherTexts`): the drift
of a step with its summary, the errors in the results of the steps of a job, the concurrency group,
and all of an approval.
-/

namespace Kici

mutual

/-- The strings in a value, with the keys of its objects. -/
def Json.texts : Json → List JsString
  | .str s => [s]
  | .arr values => textsOfValues values
  | .obj entries => textsOfEntries entries
  | .undefined | .null | .bool _ | .num _ => []

def Json.textsOfValues : List Json → List JsString
  | [] => []
  | value :: values => value.texts ++ textsOfValues values

def Json.textsOfEntries : List (JsString × Json) → List JsString
  | [] => []
  | (key, value) :: entries => key :: value.texts ++ textsOfEntries entries

end

namespace Ipc

structure StepError where
  message : JsString
  exitCode : Option ℤ := none
  signal : Option JsString := none

structure SandboxStepResult where
  name : JsString
  stepIndex : ℕ
  status : ExecutionStepStatus
  durationMs : ℕ
  error : Option StepError := none
  outputs : Option Json := none

structure DescribedError where
  message : JsString
  code : Option JsString := none
  causeCode : Option JsString := none
  causeMessage : Option JsString := none

structure DownloadAttempt where
  attempt : ℕ
  resumeFrom : ℕ
  status : Option ℕ := none
  bytesReceived : ℕ
  bytesOnDisk : ℕ
  expectedBytes : Option ℕ := none
  durationMs : ℕ
  error : Option DescribedError := none

inductive DepRestoreOutcome
  | restored
  | downloadFailed
  | hashMismatch
  | extractFailed
  | unsupportedUrl

structure DepRestoreReport where
  outcome : DepRestoreOutcome
  source : JsString
  verified : Bool
  tarballBytes : Option ℕ := none
  attempts : List DownloadAttempt
  downloadMs : Option ℕ := none
  verifyMs : Option ℕ := none
  extractMs : Option ℕ := none
  error : Option DescribedError := none

inductive LogStream
  | stdout
  | stderr

inductive CheckStepOutcome
  | skipped
  | applied
  | declined
  | dryRun
  | noCheck

inductive StepSecretMountKind
  | mountFile
  | exposeFile

structure StepStartMessage where
  stepIndex : ℤ
  stepName : JsString
  stepType : Option JsString := none
  pending : Bool := false
  concurrencyKind : Option JsString := none
  groupId : Option JsString := none

structure StepCompleteMessage where
  stepIndex : ℤ
  status : ExecutionStepStatus
  durationMs : ℕ
  concurrencyKind : Option JsString := none
  groupId : Option JsString := none
  error : Option StepError := none
  outputs : Option Json := none
  stepType : Option JsString := none
  secretsAccessed : Option (List JsString) := none
  data : Option Json := none
  checkOutcome : Option CheckStepOutcome := none
  driftSummary : Option JsString := none
  drift : Option Json := none

structure StepSecretMountMessage where
  stepIndex : ℤ
  sources : List JsString
  target : JsString
  envVar : Option JsString := none
  kind : StepSecretMountKind

inductive JobCompleteStatus
  | success
  | failed
  | skipped

structure JobCompleteMessage where
  status : JobCompleteStatus
  stepResults : List SandboxStepResult := []
  error : Option JsString := none
  outputs : Option Json := none
  secretOutputs : Option Json := none
  droppedJobs : Option (List JsString) := none

inductive ApproverClause
  | team (name : JsString)
  | user (name : JsString)

def ApproverClause.name : ApproverClause → JsString
  | team name | user name => name

structure DriftPayload where
  summaryMarkdown : JsString
  drift : Json

structure StepApprovalRequest where
  requestId : JsString
  stepIndex : ℕ
  stepName : JsString
  clauses : List ApproverClause
  reason : JsString
  timeoutSeconds : Option ℕ := none
  payload : Option DriftPayload := none

/-- The services that the agent relays requests to. -/
inductive RelayedService
  | eventEmit
  | agentApi
  | cache
  | provenance
  | artifacts
  | gitGrant

inductive RunnerToAgentMessage
  | ready
  | stepStart (msg : StepStartMessage)
  | stepComplete (msg : StepCompleteMessage)
  | logLine (stepIndex : ℤ) (line : JsString) (stream : Option LogStream)
  | depRestoreReport (report : Option DepRestoreReport)
  | stepSecretMount (msg : StepSecretMountMessage)
  | jobComplete (msg : JobCompleteMessage)
  | hooksDeclared (declaresCleanup : Bool)
  | completionHooksDone
  | concurrencyReport (group : JsString)
  | approvalRequest (msg : StepApprovalRequest)
  /-- A request that the agent relays, with the fields of the service. -/
  | relay (service : RelayedService) (requestId : JsString) (fields : List (JsString × Json))

/-! ## Masking -/

section

variable (masker : LogMasker)

def maskDescribedError (e : DescribedError) : DescribedError :=
  { e with message := masker.mask e.message, causeMessage := e.causeMessage.map masker.mask }

/-- A message with its texts masked, as far as the kind of the message names them. -/
def maskMessageText (msg : RunnerToAgentMessage) : RunnerToAgentMessage :=
  if masker.hasSecrets then
    match msg with
    | .logLine stepIndex line stream => .logLine stepIndex (masker.mask line) stream
    | .stepComplete msg => .stepComplete
        { msg with error := msg.error.map fun error =>
          { error with message := masker.mask error.message } }
    | .jobComplete msg => .jobComplete
        { msg with
          error := msg.error.map masker.mask
          droppedJobs := msg.droppedJobs.map fun jobs => jobs.map masker.mask }
    | .depRestoreReport report => .depRestoreReport (report.map fun r =>
        { r with
          error := r.error.map (maskDescribedError masker)
          attempts := r.attempts.map fun a =>
            { a with error := a.error.map (maskDescribedError masker) } })
    | msg => msg
  else msg

end

namespace RunnerToAgentMessage

def textsOfError (e : DescribedError) : List JsString := e.message :: e.causeMessage.toList

/-- The texts of a message that are named where messages are masked. -/
def namedTexts : RunnerToAgentMessage → List JsString
  | logLine _ line _ => [line]
  | stepComplete msg => msg.error.toList.map (·.message)
  | jobComplete msg => msg.error.toList ++ msg.droppedJobs.getD []
  | depRestoreReport report => report.toList.flatMap fun r =>
      r.error.toList.flatMap textsOfError ++ r.attempts.flatMap fun a =>
        a.error.toList.flatMap textsOfError
  | _ => []

def codesOfError (e : DescribedError) : List JsString := e.code.toList ++ e.causeCode.toList

/-- The other texts of a message that an operator reads. -/
def otherTexts : RunnerToAgentMessage → List JsString
  | stepStart msg => [msg.stepName]
  | stepComplete msg => msg.driftSummary.toList ++ msg.drift.toList.flatMap Json.texts
  | jobComplete msg => msg.stepResults.flatMap fun r => r.name :: r.error.toList.map (·.message)
  | depRestoreReport report => report.toList.flatMap fun r => r.source ::
      (r.error.toList.flatMap codesOfError ++ r.attempts.flatMap fun a =>
        a.error.toList.flatMap codesOfError)
  | stepSecretMount msg => msg.sources ++ [msg.target] ++ msg.envVar.toList
  | concurrencyReport group => [group]
  | approvalRequest msg => msg.stepName :: msg.reason :: (msg.clauses.map (·.name) ++
      msg.payload.toList.flatMap fun payload => payload.summaryMarkdown :: payload.drift.texts)
  | _ => []

/-- The texts of a message that an operator reads. -/
def visibleTexts (msg : RunnerToAgentMessage) : List JsString := msg.namedTexts ++ msg.otherTexts

end RunnerToAgentMessage

/-! ## Senders -/

/-- What sends messages once the secrets of the job are known. -/
inductive Sender
  /-- A sender that was given the send that masks. -/
  | maskedSend (msg : RunnerToAgentMessage)
  /-- The report of a fatal error, with the masker of the job. -/
  | fatal (message : JsString)
  | requestStepApproval (request : StepApprovalRequest)
  /-- The progress of a clone. -/
  | cloneRepo (line : JsString)
  | applyOverlay (filesApplied filesDeleted : ℕ)
  | restoreSource
  | loadWorkflow (isGlobal : Bool)
  | abortAndExit (jobTimedOutMs : Option ℕ)
  /-- A request of the step context, which is sent as it is. -/
  | relay (service : RelayedService) (requestId : JsString) (fields : List (JsString × Json))

namespace Sender

/-- A line of the job, not of a step. -/
def jobLine (line : JsString) : RunnerToAgentMessage := .logLine (-1) line none

/-- The messages of a sender, before they are masked. -/
def messages : Sender → List RunnerToAgentMessage
  | maskedSend msg => [msg]
  | fatal message => [
      jobLine (js "[workflow-runner] [error] Fatal: " ++ message),
      .jobComplete { status := .failed, error := some message }]
  | requestStepApproval request => [.approvalRequest request]
  | cloneRepo line => [jobLine (js "[workflow-runner] " ++ line)]
  | applyOverlay filesApplied filesDeleted => [
      jobLine (js "[workflow-runner] Applying overlay (uncommitted changes)"),
      jobLine (js "[workflow-runner] Overlay applied: " ++ js (toString filesApplied) ++
        js " files changed, " ++ js (toString filesDeleted) ++ js " files deleted")]
  | restoreSource => [jobLine (js "[workflow-runner] Restoring .kici/ source from cached tarball")]
  | loadWorkflow isGlobal => [
      jobLine (js "[workflow-runner] Loading workflow module" ++
        if isGlobal then js " (global=true, from workflow repo)" else []),
      jobLine (js "[workflow-runner] Workflow module loaded")]
  | abortAndExit jobTimedOutMs => [.jobComplete {
      status := .failed
      error := jobTimedOutMs.map fun ms =>
        js "job_timeout: job exceeded its timeout of " ++ js (toString ms) ++ js "ms" }]
  | relay service requestId fields => [.relay service requestId fields]

/-- Whether a sender masks its messages. -/
def masks : Sender → Bool
  | maskedSend _ | fatal _ => true
  | _ => false

/-- The messages of a sender as they leave the runner. -/
def leaving (masker : LogMasker) (sender : Sender) : List RunnerToAgentMessage :=
  if sender.masks then sender.messages.map (maskMessageText masker) else sender.messages

end Sender
end Ipc
end Kici
