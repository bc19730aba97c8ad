import Kici.Foundation.System
import Mathlib.Data.List.Sort

/-!
# Draining workers

A coordinator that has more workers than its plan allows drains the newest ones
(`WorkerEviction.reconcile`): a worker that is drained gets no new job, and it is disconnected as
soon as the jobs that were rerouted to it are over, or after a while (`drainTimeout`). If the
plan allows the worker again, its drain is cancelled.

That a worker gets no new job is noted in the table of the peers that refused a job
(`nakTracker`), as a back-off that does not end. `attemptPeerRoute` skips the peers that are in
back-off; but the answer of a peer also writes to the table, whenever it comes. The calls of
`attemptPeerRoute` are suspended while they read their settings, wait for the answer of a peer, or
track a job that a peer took (`RoutePoint`); each step of `EvictionState.step` is what happens
between two suspensions.

If no answer of a worker comes while it is drained, it is sent no job then
(`not_mem_draining_of_sent`).
-/

namespace Kici

open List

def NAK_BACKOFF_BASE_MS : ℕ := 1000

def NAK_BACKOFF_MAX_MS : ℕ := 60000

/-- `Number.MAX_SAFE_INTEGER`. -/
def MAX_SAFE_INTEGER : ℕ := 9007199254740991

/-- A time that `Date.now()` tells: a date is at most 100 million days after the epoch. -/
structure DateNow where
  ms : ℕ
  le : ms ≤ 8640000000000000

/-- The refusals of a peer, and until when it is skipped. -/
structure NakEntry where
  count : ℕ
  backoffUntil : ℕ

/-- The entry of a worker that is drained. -/
def NakEntry.permanent : NakEntry := ⟨MAX_SAFE_INTEGER, MAX_SAFE_INTEGER⟩

/-- The entry of a peer after another refusal. -/
def NakEntry.refused (current : Option NakEntry) (now : DateNow) : NakEntry where
  count := (current.elim 0 (·.count)) + 1
  backoffUntil := now.ms + min (NAK_BACKOFF_BASE_MS * Nat.pow 2 (current.elim 0 (·.count) + 1))
    NAK_BACKOFF_MAX_MS

/-- A peer of the registry. -/
structure PeerInfo where
  instanceId : String
  isWorker : Bool
  connected : Bool
  connectedAt : ℕ
  deriving DecidableEq

/-- The workers to drain: the newest ones past the ceiling. -/
def selectEvictionTargets (workers : List PeerInfo) (ceiling : ℕ) : List PeerInfo :=
  (workers.insertionSort fun a b => b.connectedAt ≤ a.connectedAt).take (workers.length - ceiling)

/-- Where a call of `attemptPeerRoute` is suspended. -/
inductive RoutePoint
  /-- It reads its settings; the peers with capacity are known. -/
  | settings (sortedPeers : List String)
  /-- It waits for the answer of a peer, before the peers that are left. -/
  | answer (peerId : String) (rest : List String) (now : DateNow)
  /-- It is about to track the job that the peer took. -/
  | track (peerId : String)

/-- A call of `attemptPeerRoute`. -/
structure RouteAttempt where
  runId : String
  jobId : String
  triedConnections : List String
  point : RoutePoint

/-- A job that a peer has. -/
structure RerouteTracking where
  runId : String
  jobId : String
  peerId : String
  deriving DecidableEq

/-- What a coordinator knows of its peers, with the jobs it sent them, in order. -/
structure EvictionState where
  peers : List PeerInfo := []
  nakTracker : String → Option NakEntry := fun _ => none
  reroutedJobs : List RerouteTracking := []
  /-- The workers that are drained, each with a timer. -/
  draining : List String := []
  /-- The workers whose drain is to be finished when they have no jobs. -/
  evictionIdleCallbacks : List String := []
  attempts : List RouteAttempt := []
  sent : List RerouteTracking := []

inductive EvictionAction
  /-- The registry changes: peers connect, disconnect or become stale. -/
  | setPeers (peers : List PeerInfo)
  | reconcile (ceiling : ℕ) (evictExcess : Bool)
  /-- The timer of a drain fires. -/
  | drainTimeout (instanceId : String)
  /-- A call with the peers that have capacity, most first. -/
  | attemptPeerRoute (runId jobId : String) (triedConnections sortedPeers : List String)
  /-- The settings are read; `link` tells which peers there is a link to. -/
  | settings (k : ℕ) (now : DateNow) (link : String → Bool)
  /-- The peer accepts the job, or it does not in time. -/
  | answer (k : ℕ) (accepted : Bool) (now : DateNow) (link : String → Bool)
  /-- The job is tracked, unless the jobs of its run have been forgotten meanwhile. -/
  | trackReroutedJob (k : ℕ) (kept : Bool)
  /-- A job is over; a worker that is drained is disconnected if it was its last job. -/
  | jobOver (runId jobId : String)
  /-- A job is taken back from its peer. -/
  | forgetJob (runId jobId : String)

namespace EvictionState

variable (s : EvictionState)

def runningJobCount (instanceId : String) : ℕ :=
  (s.reroutedJobs.filter (·.peerId = instanceId)).length

def getConnectedWorkerPeers : List PeerInfo := s.peers.filter fun p => p.connected && p.isWorker

def setNak (peerId : String) (entry : Option NakEntry) : EvictionState :=
  { s with nakTracker := fun id => if id = peerId then entry else s.nakTracker id }

/-! ## Drains -/

def markIneligible (instanceId : String) : EvictionState := s.setNak instanceId (some .permanent)

def clearIneligible (instanceId : String) : EvictionState :=
  { s.setNak instanceId none with
    evictionIdleCallbacks := s.evictionIdleCallbacks.filter (· ≠ instanceId) }

def closePeer (instanceId : String) : EvictionState :=
  { s with peers := s.peers.map fun p =>
    if p.instanceId = instanceId then { p with connected := false } else p }

/-- Finish a drain, unless it is finished or cancelled. -/
def finish (instanceId : String) : EvictionState :=
  if instanceId ∈ s.draining then
    ({ s with draining := s.draining.filter (· ≠ instanceId) }.closePeer instanceId).clearIneligible
      instanceId
  else s

def cancelDrain (instanceId : String) : EvictionState :=
  { s with draining := s.draining.filter (· ≠ instanceId) }.clearIneligible instanceId

def startDrain (instanceId : String) : EvictionState :=
  let marked := s.markIneligible instanceId
  let drained := { marked with draining := marked.draining ++ [instanceId] }
  if marked.runningJobCount instanceId = 0 then drained.finish instanceId
  else { drained with evictionIdleCallbacks := drained.evictionIdleCallbacks ++ [instanceId] }

def reconcile (ceiling : ℕ) (evictExcess : Bool) : EvictionState :=
  let targets := if evictExcess then selectEvictionTargets s.getConnectedWorkerPeers ceiling else []
  let targetIds := targets.map (·.instanceId)
  let kept := (s.draining.filter (· ∉ targetIds)).foldl cancelDrain s
  targetIds.foldl (fun t instanceId => if instanceId ∈ t.draining then t else t.startDrain instanceId)
    kept

def fireIdleIfDrained (instanceId : String) : EvictionState :=
  if instanceId ∈ s.evictionIdleCallbacks ∧ s.runningJobCount instanceId = 0 then
    { s with evictionIdleCallbacks := s.evictionIdleCallbacks.filter (· ≠ instanceId) }.finish instanceId
  else s

/-! ## Routes -/

/-- The next peer to try, and those that are left. -/
def nextPeer (triedConnections : List String) (now : DateNow) (link : String → Bool) :
    List String → Option (String × List String)
  | [] => none
  | peerId :: rest =>
    if peerId ∈ triedConnections then nextPeer triedConnections now link rest
    else if (s.nakTracker peerId).any fun entry => now.ms < entry.backoffUntil then
      nextPeer triedConnections now link rest
    else if !link peerId then nextPeer triedConnections now link rest
    else some (peerId, rest)

/-- Go on with a call: send the job to the next peer, or give up. -/
def routeOn (k : ℕ) (attempt : RouteAttempt) (now : DateNow) (link : String → Bool)
    (peers : List String) : EvictionState :=
  match s.nextPeer attempt.triedConnections now link peers with
  | none => { s with attempts := s.attempts.eraseIdx k }
  | some (peerId, rest) => { s with
      attempts := s.attempts.set k { attempt with point := .answer peerId rest now }
      sent := s.sent ++ [⟨attempt.runId, attempt.jobId, peerId⟩] }

def removeJob (runId jobId : String) : EvictionState :=
  { s with reroutedJobs := s.reroutedJobs.filter fun job => ¬(job.runId = runId ∧ job.jobId = jobId) }

def step : EvictionAction → Option EvictionState
  | .setPeers peers => some { s with peers }
  | .reconcile ceiling evictExcess => some (s.reconcile ceiling evictExcess)
  | .drainTimeout instanceId => if instanceId ∈ s.draining then some (s.finish instanceId) else none
  | .attemptPeerRoute runId jobId triedConnections sortedPeers =>
    some (if sortedPeers = [] then s
      else { s with attempts := s.attempts ++
        [⟨runId, jobId, triedConnections, .settings sortedPeers⟩] })
  | .settings k now link =>
    match s.attempts[k]? with
    | some ⟨runId, jobId, tried, .settings peers⟩ =>
      some (s.routeOn k ⟨runId, jobId, tried, .settings peers⟩ now link peers)
    | _ => none
  | .answer k accepted now' link =>
    match s.attempts[k]? with
    | some ⟨runId, jobId, tried, .answer peerId rest now⟩ =>
      if accepted then some { s.setNak peerId none with
        attempts := s.attempts.set k ⟨runId, jobId, tried, .track peerId⟩ }
      else some ((s.setNak peerId (some (.refused (s.nakTracker peerId) now'))).routeOn k
        ⟨runId, jobId, tried, .answer peerId rest now⟩ now link rest)
    | _ => none
  | .trackReroutedJob k kept =>
    match s.attempts[k]? with
    | some ⟨runId, jobId, _, .track peerId⟩ => some { s.removeJob runId jobId with
        reroutedJobs := (s.removeJob runId jobId).reroutedJobs ++
          (if kept then [⟨runId, jobId, peerId⟩] else [])
        attempts := s.attempts.eraseIdx k }
    | _ => none
  | .jobOver runId jobId =>
    match s.reroutedJobs.find? fun job => job.runId = runId ∧ job.jobId = jobId with
    | some job => some ((s.removeJob runId jobId).fireIdleIfDrained job.peerId)
    | none => none
  | .forgetJob runId jobId => some (s.removeJob runId jobId)

end EvictionState

open EvictionState

def evictionSystem : System EvictionState EvictionAction where
  init := {s | s = {}}
  step

variable {attempt : RouteAttempt}

namespace EvictionState

variable {s t : EvictionState} {instanceId : String} {link : String → Bool} {now : DateNow}

/-! ## What is noted of a worker that is drained -/

/-- Each worker that is drained is skipped for good. -/
def Blocked (s : EvictionState) : Prop := ∀ id ∈ s.draining, s.nakTracker id = some .permanent

theorem Blocked.of_eq (h : s.Blocked) (hdraining : t.draining = s.draining)
    (hnak : t.nakTracker = s.nakTracker) : t.Blocked := by
  intro id hid
  rw [hnak]
  exact h id (hdraining ▸ hid)

theorem Blocked.setNak {entry : Option NakEntry} (h : s.Blocked) (hid : instanceId ∉ s.draining) :
    (s.setNak instanceId entry).Blocked := by
  intro id hmem
  have hne : id ≠ instanceId := fun heq => hid (heq ▸ hmem)
  exact (if_neg hne).trans (h id hmem)

/-- A worker that is not drained any more may be sent jobs. -/
theorem Blocked.cancelDrain (h : s.Blocked) : (s.cancelDrain instanceId).Blocked := by
  intro id hmem
  obtain ⟨hmem, hne⟩ := mem_filter.1 hmem
  exact (if_neg (of_decide_eq_true hne)).trans (h id hmem)

theorem Blocked.finish (h : s.Blocked) : (s.finish instanceId).Blocked := by
  rw [EvictionState.finish]
  split
  · exact h.cancelDrain.of_eq rfl rfl
  · exact h

theorem Blocked.startDrain (h : s.Blocked) : (s.startDrain instanceId).Blocked := by
  have hdrained : ({ s.markIneligible instanceId with
      draining := (s.markIneligible instanceId).draining ++ [instanceId] } : EvictionState).Blocked := by
    intro id hmem
    by_cases heq : id = instanceId
    · exact if_pos heq
    · refine (if_neg heq).trans (h id ?_)
      exact (mem_append.1 hmem).resolve_right fun hlast => heq (mem_singleton.1 hlast)
  rw [EvictionState.startDrain]
  simp only
  split
  · exact hdrained.finish
  · exact hdrained.of_eq rfl rfl

theorem Blocked.reconcile {ceiling : ℕ} {evictExcess : Bool} (h : s.Blocked) :
    (s.reconcile ceiling evictExcess).Blocked := by
  rw [EvictionState.reconcile]
  refine foldlRecOn _ _ (foldlRecOn _ _ h fun t ht id _ => ht.cancelDrain) fun t ht id _ => ?_
  split
  · exact ht
  · exact ht.startDrain

theorem Blocked.fireIdleIfDrained (h : s.Blocked) : (s.fireIdleIfDrained instanceId).Blocked := by
  rw [EvictionState.fireIdleIfDrained]
  split
  · have hforgotten : ({ s with
        evictionIdleCallbacks := s.evictionIdleCallbacks.filter (· ≠ instanceId) } :
          EvictionState).Blocked :=
      h.of_eq rfl rfl
    exact hforgotten.finish
  · exact h

/-! ## What is sent -/

theorem sent_finish : (s.finish instanceId).sent = s.sent := by
  rw [finish]
  split <;> rfl

theorem sent_startDrain : (s.startDrain instanceId).sent = s.sent := by
  rw [startDrain]
  simp only
  split
  · exact sent_finish
  · rfl

theorem sent_reconcile {ceiling : ℕ} {evictExcess : Bool} :
    (s.reconcile ceiling evictExcess).sent = s.sent := by
  rw [reconcile]
  refine foldlRecOn (motive := fun t : EvictionState => t.sent = s.sent) _ _
    (foldlRecOn (motive := fun t : EvictionState => t.sent = s.sent) _ _ rfl fun t ht id _ => ht)
    fun t ht id _ => ?_
  split
  · exact ht
  · exact sent_startDrain.trans ht

theorem sent_fireIdleIfDrained : (s.fireIdleIfDrained instanceId).sent = s.sent := by
  rw [fireIdleIfDrained]
  split
  · exact sent_finish
  · rfl

/-- A peer that is skipped for good is not the next one. -/
theorem not_permanent_of_nextPeer {tried peers rest : List String}
    {peerId : String} (h : s.nextPeer tried now link peers = some (peerId, rest)) :
    s.nakTracker peerId ≠ some .permanent := by
  induction peers with
  | nil => cases h
  | cons id peers ih =>
    rw [nextPeer] at h
    split at h
    · exact ih h
    split at h
    · exact ih h
    next hbackoff =>
    split at h
    · exact ih h
    · cases h
      intro hpermanent
      refine hbackoff ?_
      rw [hpermanent]
      exact decide_eq_true (now.le.trans_lt (by decide))

variable {job : RerouteTracking}

/-- What a call sends as it goes on. -/
theorem sent_routeOn {k : ℕ} {peers : List String}
    (h : (s.routeOn k attempt now link peers).sent = s.sent ++ [job]) :
    s.nakTracker job.peerId ≠ some .permanent := by
  rw [routeOn] at h
  split at h
  · exact absurd h.symm (by simp)
  · next peerId rest hnext =>
    have hjob := append_cancel_left h
    cases hjob
    exact not_permanent_of_nextPeer hnext

theorem Blocked.routeOn {k : ℕ}
    {peers : List String} (h : s.Blocked) : (s.routeOn k attempt now link peers).Blocked := by
  rw [EvictionState.routeOn]
  split <;> exact h.of_eq rfl rfl

/-! ## Runs -/

/-- The peer whose answer comes. -/
def answeredBy (s : EvictionState) : EvictionAction → Option String
  | .answer k _ _ _ =>
    match s.attempts[k]? with
    | some ⟨_, _, _, .answer peerId _ _⟩ => some peerId
    | _ => none
  | _ => none

/-- No worker answers while it is drained. -/
def AnswersInTime (s : EvictionState) (a : EvictionAction) : Prop :=
  ∀ peerId ∈ s.answeredBy a, peerId ∉ s.draining

instance (a : EvictionAction) : Decidable (s.AnswersInTime a) :=
  inferInstanceAs (Decidable (∀ peerId ∈ s.answeredBy a, peerId ∉ s.draining))

theorem Blocked.step {a : EvictionAction} (h : s.Blocked) (hok : s.AnswersInTime a)
    (hstep : s.step a = some t) : t.Blocked := by
  cases a with
  | setPeers | forgetJob => cases hstep; exact h.of_eq rfl rfl
  | reconcile => cases hstep; exact h.reconcile
  | drainTimeout =>
    rw [EvictionState.step] at hstep
    split at hstep <;> cases hstep
    exact h.finish
  | attemptPeerRoute =>
    cases hstep
    split
    · exact h
    · exact h.of_eq rfl rfl
  | settings =>
    rw [EvictionState.step] at hstep
    split at hstep <;> cases hstep
    exact h.routeOn
  | answer k accepted now' link =>
    rw [EvictionState.step] at hstep
    split at hstep
    · next runId jobId tried peerId rest now hget =>
      have hid : peerId ∉ s.draining := hok peerId (by rw [answeredBy, hget]; rfl)
      split at hstep <;> cases hstep
      · exact (h.setNak hid).of_eq rfl rfl
      · exact (h.setNak hid).routeOn
    · cases hstep
  | trackReroutedJob =>
    rw [EvictionState.step] at hstep
    split at hstep <;> cases hstep
    exact h.of_eq rfl rfl
  | jobOver runId jobId =>
    rw [EvictionState.step] at hstep
    split at hstep <;> cases hstep
    have hremoved : (s.removeJob runId jobId).Blocked := h.of_eq rfl rfl
    exact hremoved.fireIdleIfDrained

/-- A step that sends a job goes on with a call, after the answer of a peer or not. -/
theorem exists_routeOn_of_sent {a : EvictionAction} (hstep : s.step a = some t)
    (hsent : t.sent = s.sent ++ [job]) :
    ∃ (s' : EvictionState) (k : ℕ) (attempt : RouteAttempt) (now : DateNow) (link : String → Bool)
      (peers : List String), t = s'.routeOn k attempt now link peers ∧ s'.sent = s.sent ∧
      (s' = s ∨ ∃ peerId entry, s.answeredBy a = some peerId ∧ s' = s.setNak peerId entry) := by
  have hne : s.sent ≠ s.sent ++ [job] := by simp
  cases a with
  | setPeers | forgetJob => cases hstep; exact absurd hsent hne
  | reconcile => cases hstep; exact absurd (sent_reconcile.symm.trans hsent) hne
  | drainTimeout =>
    rw [step] at hstep
    split at hstep <;> cases hstep
    exact absurd (sent_finish.symm.trans hsent) hne
  | attemptPeerRoute =>
    cases hstep
    split at hsent <;> exact absurd hsent hne
  | settings k now link =>
    rw [step] at hstep
    split at hstep <;> cases hstep
    exact ⟨s, k, _, now, link, _, rfl, rfl, .inl rfl⟩
  | answer k accepted now' link =>
    rw [step] at hstep
    split at hstep
    · next runId jobId tried peerId rest now hget =>
      split at hstep <;> cases hstep
      · exact absurd hsent hne
      · refine ⟨s.setNak peerId _, k, _, now, link, rest, rfl, rfl, .inr ⟨peerId, _, ?_, rfl⟩⟩
        rw [answeredBy, hget]
    · cases hstep
  | trackReroutedJob =>
    rw [step] at hstep
    split at hstep <;> cases hstep
    exact absurd hsent hne
  | jobOver =>
    rw [step] at hstep
    split at hstep <;> cases hstep
    exact absurd (sent_fireIdleIfDrained.symm.trans hsent) hne

end EvictionState

section Runs

variable {s t : EvictionState} {a : EvictionAction} {job : RerouteTracking}

/-- If no worker answers while it is drained, none is sent a job while it is drained. -/
theorem not_mem_draining_of_sent (hreach : evictionSystem.Reachable AnswersInTime s)
    (hok : s.AnswersInTime a) (hstep : evictionSystem.step s a = some t)
    (hsent : t.sent = s.sent ++ [job]) : job.peerId ∉ s.draining := by
  have hblocked : s.Blocked := by
    refine hreach.invariant (fun _ hinit => ?_) fun _ _ _ h hok hstep => h.step hok hstep
    cases hinit
    exact nofun
  obtain ⟨s', k, attempt, now, link, peers, rfl, hsame, hs'⟩ := exists_routeOn_of_sent hstep hsent
  have hfree : s'.nakTracker job.peerId ≠ some .permanent := sent_routeOn (hsame ▸ hsent)
  intro hmem
  rcases hs' with rfl | ⟨peerId, entry, hanswered, rfl⟩
  · exact hfree (hblocked _ hmem)
  · exact hfree (hblocked.setNak (hok peerId hanswered) _ hmem)

/-- Two workers, of which the first one is the newer one. -/
def twoWorkers : List PeerInfo := [⟨"worker-1", true, true, 20⟩, ⟨"worker-2", true, true, 10⟩]

def midnight : DateNow := ⟨0, Nat.zero_le _⟩

/-- The first worker takes a job. -/
def takeJob : List EvictionAction := [
  .setPeers twoWorkers, .attemptPeerRoute "run-1" "job-1" [] ["worker-1"],
  .settings 0 midnight fun _ => true, .answer 0 true midnight fun _ => true, .trackReroutedJob 0 true]

/-- A job that is routed while the first worker is drained goes to the other one. -/
theorem not_mem_draining_of_sent_other : ∃ s t : EvictionState,
    evictionSystem.Reachable AnswersInTime s ∧ s.draining = ["worker-1"] ∧
    t.sent = s.sent ++ [⟨"run-1", "job-2", "worker-2"⟩] ∧ "worker-2" ∉ s.draining := by
  obtain ⟨s, hpath, hs⟩ : ∃ s, evictionSystem.Path AnswersInTime {} s ∧
    decide (s.draining = ["worker-1"] ∧
      (evictionSystem.step s (.settings 0 midnight fun _ => true)).any fun t : EvictionState =>
        t.sent = s.sent ++ [⟨"run-1", "job-2", "worker-2"⟩]) :=
    System.exists_path_of_run (fun _ _ => of_decide_eq_true)
      (takeJob ++ [EvictionAction.reconcile 1 true,
      .attemptPeerRoute "run-1" "job-2" [] ["worker-1", "worker-2"]]) (by decide)
  obtain ⟨hdraining, hany⟩ := of_decide_eq_true hs
  obtain ⟨t, hstep, hsent⟩ := (Option.any_eq_true _ _).1 hany
  refine ⟨s, t, ⟨{}, rfl, hpath⟩, hdraining, of_decide_eq_true hsent, ?_⟩
  refine not_mem_draining_of_sent ⟨{}, rfl, hpath⟩ (fun peerId h => ?_) hstep (of_decide_eq_true hsent)
  cases h

/-- The acknowledgement of a worker that comes while it is drained lets it be sent another job. -/
theorem exists_mem_draining_of_sent : ∃ s a t job, evictionSystem.Reachable System.anyStep s ∧
    evictionSystem.step s a = some t ∧ t.sent = s.sent ++ [job] ∧ job.peerId ∈ s.draining := by
  obtain ⟨s, hpath, hs⟩ := evictionSystem.exists_path {}
      (fun s => "worker-1" ∈ s.draining ∧
        (evictionSystem.step s (.settings 1 midnight fun _ => true)).any fun t :
        EvictionState => t.sent = s.sent ++ [⟨"run-1", "job-3", "worker-1"⟩]) System.anyStep_of_true
          (takeJob ++ [
      .attemptPeerRoute "run-1" "job-2" [] ["worker-1"], .settings 0 midnight fun _ => true,
      .reconcile 1 true, .answer 0 true midnight fun _ => true,
      .attemptPeerRoute "run-1" "job-3" [] ["worker-1"]]) (by decide)
  obtain ⟨hdraining, hany⟩ := hs
  obtain ⟨t, hstep, hsent⟩ := (Option.any_eq_true _ _).1 hany
  exact ⟨s, _, t, _, ⟨{}, rfl, hpath⟩, hstep, of_decide_eq_true hsent, hdraining⟩

end Runs

end Kici
