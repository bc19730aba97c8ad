import Kici.Foundation.System
import Kici.Js.Str
import Mathlib.Data.List.DropRight
import Mathlib.Data.List.Nodup
import Mathlib.Logic.Function.Basic

/-!
# What steps write to their environment files

A step has a pair of files, for assignments and for directories, which its commands find by
`KICI_ENV` and `KICI_PATH`. The pair is that of the step, but the variables are those of the
process: a step that begins points them at its own pair, for the commands of all steps
(`envSystem`), and so does an assignment of them that is applied, at any file. When a step ends, its
pair is read, each file once, and what was read is applied, but for assignments of operator secrets.

When all steps are over, all lines that the commands of a step wrote before its end are applied,
each of them once, if and only if each of them was written to a file of its kind that had not been
read, and none assigns `__proto__` (`lossless_iff`). A command of a step may write to the pair of a
step that has ended (`exists_write_lost`).
-/

namespace Kici

open List Option System Function

/-- The files of a step, by the variables that name them. -/
inductive EnvFile
  | KICI_ENV
  | KICI_PATH
  deriving DecidableEq

def EnvFile.name : EnvFile → JsString
  | .KICI_ENV => js "KICI_ENV"
  | .KICI_PATH => js "KICI_PATH"

/-- What a line says. -/
inductive EnvLine
  | assign (key value : JsString)
  | directory (path : JsString)

namespace EnvLine

/-- The line assigns an operator secret. -/
def isRejected (operatorSecretKeys : List JsString) : EnvLine → Bool
  | .assign key _ => key ∈ operatorSecretKeys
  | .directory _ => false

/-- The object that the assignments are collected in has a property `__proto__`, which takes no
string. -/
def isDropped : EnvLine → Bool
  | .assign key _ => key = js "__proto__"
  | .directory _ => false

def isApplied (operatorSecretKeys : List JsString) (line : EnvLine) : Bool :=
  !line.isRejected operatorSecretKeys && !line.isDropped

/-- What the line assigns to the variable. -/
def valueOf (name : JsString) : EnvLine → Option JsString
  | .assign key value => if key = name then some value else none
  | .directory _ => none

end EnvLine

def JsString.trim (s : JsString) : JsString :=
  (s.dropWhile JsString.isWhiteSpace).rdropWhile JsString.isWhiteSpace

/-- What a line of a file of the kind says, if anything. -/
def EnvFile.parseLine (rawLine : JsString) : EnvFile → Option EnvLine
  | .KICI_ENV =>
    let line := JsString.trim rawLine
    -- The key ends at the first equals sign.
    let key := line.takeWhile (· ≠ 0x3D)
    if key = line ∨ JsString.trim key = [] then none
    else some (.assign (JsString.trim key) (line.drop (key.length + 1)))
  | .KICI_PATH => if JsString.trim rawLine = [] then none else some (.directory (JsString.trim rawLine))

/-- A line that a command of a step has written. -/
structure EnvWrite where
  id : ℕ
  step : ℕ
  /-- The variable by which the command found the file. -/
  file : EnvFile
  line : JsString
  /-- The file, if it is of the pair of a step. -/
  target : Option (ℕ × EnvFile)
  /-- The hook after the step of the command had not begun. -/
  inTime : Bool
  /-- The file is of a pair and had not been read. -/
  unread : Bool

structure EnvState where
  /-- The files of pairs that the variables of the process name. -/
  current : EnvFile → Option (ℕ × EnvFile) := fun _ => none
  begun : List ℕ := []
  /-- The steps whose pair is released. -/
  released : List ℕ := []
  /-- The commands, by their step and the files they found. -/
  commands : List (ℕ × (EnvFile → Option (ℕ × EnvFile))) := []
  written : List EnvWrite := []
  /-- What was read of the file of a step. -/
  delta : ℕ × EnvFile → Option (List EnvWrite) := fun _ => none
  ended : List ℕ := []
  /-- What was applied to the environment, as lines of the files they were written to, in this
  order; of two assignments of a key the later one stays. -/
  applied : List EnvWrite := []

inductive EnvAction
  | beforeStepEnvFiles (step : ℕ)
  /-- A command of the step is spawned. -/
  | spawn (step : ℕ)
  | append (command : ℕ) (file : EnvFile) (line : JsString)
  | afterStepApplyEnvFiles (step : ℕ)
  | readFile (step : ℕ) (file : EnvFile)
  | applyEnvDelta (step : ℕ)

variable (operatorSecretKeys : List JsString) (resolve : JsString → Option (ℕ × EnvFile))

/-- The lines of a file that are applied. -/
def appliedOf (file : EnvFile) (lines : List EnvWrite) : List EnvWrite :=
  lines.filter fun w => (file.parseLine w.line).any (·.isApplied operatorSecretKeys)

namespace EnvState

/-- The lines in the file of a step. -/
def content (s : EnvState) (step : ℕ) (file : EnvFile) : List EnvWrite :=
  s.written.filter fun w => w.target = some (step, file)

/-- What a variable names after assignments that were applied; `resolve` tells which file of which
pair a path is, once there is this pair. -/
def repoint (s : EnvState) (assigned : List EnvWrite) (file : EnvFile) : Option (ℕ × EnvFile) :=
  match assigned.reverse.findSome? fun w =>
    (EnvFile.KICI_ENV.parseLine w.line).bind (·.valueOf file.name) with
  | some value => (resolve value).filter fun target => target.1 ∈ s.begun
  | none => s.current file

def step (s : EnvState) : EnvAction → Option EnvState
  | .beforeStepEnvFiles i =>
    if i ∉ s.begun then some { s with begun := s.begun ++ [i], current := fun file => some (i, file) }
      else none
  | .spawn i => if i ∈ s.begun then some { s with commands := s.commands ++ [(i, s.current)] } else none
  | .append command file line =>
    (s.commands[command]?).map fun c => { s with written := s.written ++ [{
      id := s.written.length
      step := c.1
      file
      line
      target := c.2 file
      inTime := c.1 ∉ s.released
      unread := (c.2 file).any fun target => (s.delta target).isNone }] }
  | .afterStepApplyEnvFiles i =>
    if i ∈ s.begun ∧ i ∉ s.released then some { s with released := s.released ++ [i] } else none
  | .readFile i file =>
    if i ∈ s.released ∧ s.delta (i, file) = none then
      some { s with delta := update s.delta (i, file) (some (s.content i file)) }
    else none
  | .applyEnvDelta i =>
    if i ∉ s.ended then
      (s.delta (i, .KICI_ENV)).bind fun env => (s.delta (i, .KICI_PATH)).map fun path =>
        let assigned := appliedOf operatorSecretKeys .KICI_ENV env
        { s with
          current := s.repoint resolve assigned
          ended := s.ended ++ [i]
          applied := s.applied ++ (assigned ++ appliedOf operatorSecretKeys .KICI_PATH path) }
    else none

/-- All lines that were written in time are applied as what they say, but for operator secrets, and
none is applied twice. -/
def Lossless (s : EnvState) : Prop :=
  (∀ w ∈ s.written, w.inTime = true → ∀ line ∈ w.file.parseLine w.line,
    line.isRejected operatorSecretKeys = false →
    w ∈ s.applied ∧ w.target.map Prod.snd = some w.file) ∧ s.applied.Nodup

end EnvState

/-- Any number of steps, side by side. -/
def envSystem : System EnvState EnvAction where
  init := {{}}
  step := EnvState.step operatorSecretKeys resolve

namespace EnvState

variable {operatorSecretKeys : List JsString} {resolve : JsString → Option (ℕ × EnvFile)}
  {s t : EnvState} {a : EnvAction}

/-- What was read of a file are the lines that were written to it before; what was applied are those
of steps that have ended. -/
structure Sound (operatorSecretKeys : List JsString) (s : EnvState) : Prop where
  ids : s.written.map (·.id) = List.range s.written.length
  current : ∀ file, ∀ target ∈ s.current file, target.1 ∈ s.begun
  commands : ∀ c ∈ s.commands, ∀ file, ∀ target ∈ c.2 file, target.1 ∈ s.begun
  targets : ∀ w ∈ s.written, ∀ target ∈ w.target, target.1 ∈ s.begun
  unread : ∀ w ∈ s.written, ∀ target ∈ w.target, s.delta target = none → w.unread = true
  delta : ∀ target lines, s.delta target = some lines →
    lines = s.written.filter fun w => w.target = some target ∧ w.unread = true
  ended : ∀ i ∈ s.ended, ∀ file, s.delta (i, file) ≠ none
  applied : ∀ w, w ∈ s.applied ↔ w ∈ s.written ∧ w.unread = true ∧ ∃ target ∈ w.target,
    target.1 ∈ s.ended ∧
    (target.2.parseLine w.line).any (·.isApplied operatorSecretKeys) = true
  nodup : s.applied.Nodup

namespace Sound

section

variable (h : Sound operatorSecretKeys s)
include h

theorem written_nodup : s.written.Nodup :=
  List.Nodup.of_map _ (h.ids ▸ nodup_range)

/-- A line that is written to a file that was read is not in what was read. -/
theorem append {w : EnvWrite} (hid : w.id = s.written.length)
    (htarget : ∀ target ∈ w.target, target.1 ∈ s.begun)
    (hunread : w.unread = w.target.any fun target => (s.delta target).isNone) :
    Sound operatorSecretKeys { s with written := s.written ++ [w] } where
  ids := by simp [h.ids, hid, range_succ]
  current := h.current
  commands := h.commands
  targets w' hw' := by
    rcases mem_append.1 hw' with hold | hnew
    · exact h.targets w' hold
    · exact mem_singleton.1 hnew ▸ htarget
  unread w' hw' target ht hnone := by
    rcases mem_append.1 hw' with hold | hnew
    · exact h.unread w' hold target ht hnone
    · obtain rfl := mem_singleton.1 hnew
      rw [hunread, mem_def.1 ht, Option.any_some, hnone]
      rfl
  delta target lines hlines := by
    have hlate : ¬(w.target = some target ∧ w.unread) := by
      rintro ⟨htarget, htrue⟩
      rw [hunread, htarget, Option.any_some, hlines] at htrue
      cases htrue
    rw [filter_append, ← h.delta target lines hlines]
    simp [hlate]
  ended := h.ended
  applied w' := by
    rw [h.applied, mem_append, mem_singleton]
    constructor
    · exact fun ⟨hw, hrest⟩ => ⟨.inl hw, hrest⟩
    · rintro ⟨hw | rfl, htrue, target, ht, hended, happlied⟩
      · exact ⟨hw, htrue, target, ht, hended, happlied⟩
      · rw [hunread, mem_def.1 ht, Option.any_some, isNone_iff_eq_none] at htrue
        exact absurd htrue (h.ended _ hended _)
  nodup := h.nodup

theorem readFile {i : ℕ} {file : EnvFile} (hnone : s.delta (i, file) = none) :
    Sound operatorSecretKeys { s with delta := update s.delta (i, file) (some (s.content i file)) } where
  ids := h.ids
  current := h.current
  commands := h.commands
  targets := h.targets
  unread w hw target ht hnone' := by
    by_cases hsame : target = (i, file)
    · exact h.unread w hw target ht (hsame ▸ hnone)
    · exact h.unread w hw target ht ((update_of_ne hsame _ _).symm.trans hnone')
  delta target lines hlines := by
    by_cases hsame : target = (i, file)
    · obtain rfl := hsame
      obtain rfl : s.content i file = lines := by simpa only [update_self, some.injEq] using hlines
      rw [content]
      refine filter_congr fun w hw => ?_
      -- the file has not been read before
      simp only [decide_eq_decide]
      exact ⟨fun ht => ⟨ht, h.unread w hw _ ht hnone⟩, And.left⟩
    · exact h.delta target lines ((update_of_ne hsame _ _).symm.trans hlines)
  ended i' hi' file' := by
    by_cases hsame : (i', file') = (i, file)
    · exact ne_of_eq_of_ne ((congrArg _ hsame).trans (update_self _ _ _)) (some_ne_none _)
    · exact ne_of_eq_of_ne (update_of_ne hsame _ _) (h.ended i' hi' file')
  applied := h.applied
  nodup := h.nodup

/-- The lines that are applied of one file. -/
theorem mem_appliedOf {target : ℕ × EnvFile} {lines : List EnvWrite}
    (hlines : s.delta target = some lines)
    (w : EnvWrite) : w ∈ appliedOf operatorSecretKeys target.2 lines ↔ w ∈ s.written ∧ w.unread ∧
      w.target = some target ∧ (target.2.parseLine w.line).any (·.isApplied operatorSecretKeys) := by
  rw [appliedOf, h.delta _ _ hlines, mem_filter, mem_filter, decide_eq_true_iff]
  tauto

theorem nodup_appliedOf {target : ℕ × EnvFile} {lines : List EnvWrite}
    (hlines : s.delta target = some lines) :
    (appliedOf operatorSecretKeys target.2 lines).Nodup := by
  rw [appliedOf, h.delta _ _ hlines]
  exact (h.written_nodup.filter _).filter _

theorem repoint (assigned : List EnvWrite) (file : EnvFile) :
    ∀ target ∈ s.repoint resolve assigned file, target.1 ∈ s.begun := by
  intro target ht
  rw [EnvState.repoint] at ht
  split at ht
  · exact of_decide_eq_true (mem_filter_iff.1 ht).2
  · exact h.current file target ht

theorem applyEnvDelta {i : ℕ} {env path : List EnvWrite} (hended : i ∉ s.ended)
    (henv : s.delta (i, .KICI_ENV) = some env) (hpath : s.delta (i, .KICI_PATH) = some path) :
    Sound operatorSecretKeys { s with
      current := s.repoint resolve (appliedOf operatorSecretKeys .KICI_ENV env)
      ended := s.ended ++ [i]
      applied := s.applied ++ (appliedOf operatorSecretKeys .KICI_ENV env ++
        appliedOf operatorSecretKeys .KICI_PATH path) } := by
  have hnew : ∀ w, w ∈ appliedOf operatorSecretKeys .KICI_ENV env ++ appliedOf operatorSecretKeys
    .KICI_PATH path ↔
      w ∈ s.written ∧ w.unread ∧ ∃ target ∈ w.target, target.1 = i ∧
        (target.2.parseLine w.line).any (·.isApplied operatorSecretKeys) := by
    intro w
    rw [mem_append, h.mem_appliedOf henv, h.mem_appliedOf hpath]
    constructor
    · rintro (⟨hw, hunread, ht, happlied⟩ | ⟨hw, hunread, ht, happlied⟩)
      · exact ⟨hw, hunread, _, ht, rfl, happlied⟩
      · exact ⟨hw, hunread, _, ht, rfl, happlied⟩
    · rintro ⟨hw, hunread, ⟨_, file⟩, ht, rfl, happlied⟩
      cases file
      · exact .inl ⟨hw, hunread, ht, happlied⟩
      · exact .inr ⟨hw, hunread, ht, happlied⟩
  refine { h with
    current := h.repoint _
    ended := fun j hj file => ?_
    applied := fun w => ?_
    nodup := ?_ }
  · rcases mem_append.1 hj with hold | hnew
    · exact h.ended j hold file
    · rw [mem_singleton.1 hnew]
      cases file
      · exact henv ▸ some_ne_none _
      · exact hpath ▸ some_ne_none _
  · rw [mem_append, h.applied, hnew]
    simp only [mem_append, mem_singleton]
    constructor
    · rintro (⟨hw, hunread, target, ht, hi, happlied⟩ | ⟨hw, hunread, target, ht, hi, happlied⟩)
      · exact ⟨hw, hunread, target, ht, .inl hi, happlied⟩
      · exact ⟨hw, hunread, target, ht, .inr hi, happlied⟩
    · rintro ⟨hw, hunread, target, ht, hi | hi, happlied⟩
      · exact .inl ⟨hw, hunread, target, ht, hi, happlied⟩
      · exact .inr ⟨hw, hunread, target, ht, hi, happlied⟩
  · refine h.nodup.append ((h.nodup_appliedOf henv).append (h.nodup_appliedOf hpath) fun w hw hw' => ?_)
      fun w hold hw => ?_
    · cases ((h.mem_appliedOf henv w).1 hw).2.2.1.symm.trans ((h.mem_appliedOf hpath w).1 hw').2.2.1
    · -- a step ends once
      obtain ⟨-, -, target, ht, hi, -⟩ := (h.applied w).1 hold
      obtain ⟨-, -, target', ht', rfl, -⟩ := (hnew w).1 hw
      exact hended (mem_unique ht ht' ▸ hi)

theorem step (hstep : s.step operatorSecretKeys resolve a = some t) :
    Sound operatorSecretKeys t := by
  cases a with
  | beforeStepEnvFiles i =>
    obtain ⟨-, ⟨⟩⟩ := ite_none_right_eq_some.1 hstep
    exact { h with
      current := fun _ target ht =>
        mem_append_right _ (mem_singleton.2 (congrArg Prod.fst (some.inj ht)).symm)
      commands := fun c hc file target ht => mem_append_left _ (h.commands c hc file target ht)
      targets := fun w hw target ht => mem_append_left _ (h.targets w hw target ht) }
  | spawn i =>
    obtain ⟨-, ⟨⟩⟩ := ite_none_right_eq_some.1 hstep
    refine { h with commands := fun c hc => ?_ }
    rcases mem_append.1 hc with hold | hnew
    · exact h.commands c hold
    · obtain rfl := mem_singleton.1 hnew
      exact h.current
  | append command file line =>
    obtain ⟨c, hc, rfl⟩ := map_eq_some_iff.1 hstep
    exact h.append rfl (h.commands c (mem_of_getElem? hc) file) rfl
  | afterStepApplyEnvFiles i =>
    obtain ⟨-, ⟨⟩⟩ := ite_none_right_eq_some.1 hstep
    exact { h with }
  | readFile i file =>
    obtain ⟨⟨-, hnone⟩, ⟨⟩⟩ := ite_none_right_eq_some.1 hstep
    exact h.readFile hnone
  | applyEnvDelta i =>
    obtain ⟨hended, hstep⟩ := ite_none_right_eq_some.1 hstep
    obtain ⟨env, henv, hstep⟩ := bind_eq_some_iff.1 hstep
    obtain ⟨path, hpath, rfl⟩ := map_eq_some_iff.1 hstep
    exact h.applyEnvDelta hended henv hpath

end

end Sound

/-- Once all steps are over, nothing is lost and nothing applied twice if and only if all that was
written in time, but for operator secrets, went to files of its kind that had not been read, and
`__proto__` was not assigned. -/
theorem lossless_iff (h : (envSystem operatorSecretKeys resolve).Reachable anyStep s)
    (hended : s.begun ⊆ s.ended) :
    s.Lossless operatorSecretKeys ↔ ∀ w ∈ s.written, w.inTime → ∀ line ∈ w.file.parseLine w.line,
      line.isRejected operatorSecretKeys = false →
        w.unread ∧ w.target.map Prod.snd = some w.file ∧ line.isDropped = false := by
  have hsound : Sound operatorSecretKeys s := by
    refine h.invariant ?_ fun s a t hs _ hstep => hs.step hstep
    rintro _ rfl
    constructor <;> simp
  constructor
  · intro hless w hw htime line hline hkept
    obtain ⟨happlied, hkind⟩ := hless.1 w hw htime line hline hkept
    obtain ⟨-, hunread, target, ht, -, happlies⟩ := (hsound.applied w).1 happlied
    rw [mem_def.1 ht] at hkind
    rw [some.inj hkind, mem_def.1 hline] at happlies
    rw [Option.any_some, EnvLine.isApplied, Bool.and_eq_true_iff, Bool.not_eq_true'] at happlies
    exact ⟨hunread, by rw [mem_def.1 ht, hkind.symm.trans rfl], by simpa using happlies.2⟩
  · refine fun hlands => ⟨fun w hw htime line hline hkept => ?_, hsound.nodup⟩
    obtain ⟨hunread, hkind, hdropped⟩ := hlands w hw htime line hline hkept
    obtain ⟨target, ht, hfile⟩ := map_eq_some_iff.1 hkind
    refine ⟨(hsound.applied w).2
      ⟨hw, hunread, target, ht, hended (hsound.targets w hw target ht), ?_⟩, hkind⟩
    rw [hfile, mem_def.1 hline, Option.any_some, EnvLine.isApplied, hkept, hdropped]
    rfl

/-- No path that is assigned names a file of a pair. -/
def noPair (_ : JsString) : Option (ℕ × EnvFile) := none

/-- The second step begins, points the variables at its pair and ends; the first one goes on writing
there. -/
def lateRun : List EnvAction :=
  [.beforeStepEnvFiles 0, .beforeStepEnvFiles 1, .afterStepApplyEnvFiles 1, .readFile 1 .KICI_ENV,
    .readFile 1 .KICI_PATH, .applyEnvDelta 1, .spawn 0, .append 0 .KICI_ENV (js "TAG=v1"),
    .afterStepApplyEnvFiles 0, .readFile 0 .KICI_ENV, .readFile 0 .KICI_PATH, .applyEnvDelta 0]

/-- A step writes one line while its pair is the current one. -/
def earlyRun (line : JsString) : List EnvAction :=
  [.beforeStepEnvFiles 0, .spawn 0, .append 0 .KICI_ENV line, .afterStepApplyEnvFiles 0,
    .readFile 0 .KICI_ENV, .readFile 0 .KICI_PATH, .applyEnvDelta 0]

theorem exists_lost_of_run (as : List EnvAction) (line : JsString)
    (hrun : ((envSystem [] noPair).run (fun _ _ => true) {} as).any fun s =>
      decide (s.begun ⊆ s.ended ∧ s.written.map (·.line) = [line] ∧ s.applied = [] ∧
        ∃ w ∈ s.written, w.inTime ∧ (w.file.parseLine w.line).isSome)) :
    ∃ s, (envSystem [] noPair).Reachable anyStep s ∧ s.begun ⊆ s.ended ∧
    s.written.map (·.line) = [line] ∧
      ¬s.Lossless [] := by
  obtain ⟨s, hpath, hs⟩ := exists_path_of_run anyStep_of_true as hrun
  obtain ⟨hended, hwritten, happlied, w, hw, htime, hline⟩ := of_decide_eq_true hs
  obtain ⟨line, hline⟩ := isSome_iff_exists.1 hline
  refine ⟨s, ⟨{}, rfl, hpath⟩, hended, hwritten, fun hless => ?_⟩
  have hlost := (hless.1 w hw htime line hline (by cases line <;> rfl)).1
  rw [happlied] at hlost
  cases hlost

/-- A line in the pair of a step that has ended is lost, and so is one that assigns `__proto__`. -/
theorem exists_write_lost :
    (∃ s, (envSystem [] noPair).Reachable anyStep s ∧ s.begun ⊆ s.ended ∧
      s.written.map (·.line) = [js "TAG=v1"] ∧ ¬s.Lossless []) ∧
    ∃ s, (envSystem [] noPair).Reachable anyStep s ∧ s.begun ⊆ s.ended ∧
      s.written.map (·.line) = [js "__proto__=v1"] ∧ ¬s.Lossless [] :=
  ⟨exists_lost_of_run lateRun _ (by decide), exists_lost_of_run (earlyRun (js "__proto__=v1"))
    _ (by decide)⟩

theorem lossless_earlyRun : ∃ s, (envSystem [] noPair).Reachable anyStep s ∧ s.written.length = 1 ∧
    s.Lossless [] := by
  obtain ⟨s, hpath, hs⟩ := exists_path_of_run (M := envSystem [] noPair) anyStep_of_true
    (earlyRun (js "TAG=v1"))
    (p := fun s => decide (s.begun ⊆ s.ended ∧ s.written.length = 1 ∧ ∀ w ∈ s.written,
      w.unread ∧ w.target.map Prod.snd = some w.file ∧
        (w.file.parseLine w.line).all fun line : EnvLine => !line.isDropped))
    (s := {}) (by decide)
  obtain ⟨hended, hlength, hlands⟩ := of_decide_eq_true hs
  have hreach : (envSystem [] noPair).Reachable anyStep s := ⟨{}, rfl, hpath⟩
  refine ⟨s, hreach, hlength, (lossless_iff hreach hended).2 fun w hw _ line hline _ => ?_⟩
  obtain ⟨hunread, hkind, hkept⟩ := hlands w hw
  rw [mem_def.1 hline] at hkept
  exact ⟨hunread, hkind, by simpa using hkept⟩

end EnvState

end Kici
