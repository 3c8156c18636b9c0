import MonitorController.Foundation.Codes
import MonitorController.Foundation.Json
import MonitorController.Foundation.Rotation
import MonitorController.Foundation.Words
import MonitorController.Values.Event
import MonitorController.Values.Names
import MonitorController.Values.State

/-! # The audit log

Every decision is appended to a bounded segment which starts with a state, so
that it can be replayed. A record which does not fit opens another segment, and
the oldest one is dropped.
-/

namespace MonitorController

open Codes Rotation

deriving instance DecidableEq for State

section Records

def WakeReason.value : WakeReason → String
  | .startup => "startup"
  | .drmHint => "drm_hint"
  | .timer => "timer"
  | .workerCompleted => "worker_completed"
  | .recovery => "recovery"
  | .dirtyAdmission => "dirty_admission"

/-- `type(event).__name__`. -/
def Event.typeName : Event → String
  | .observationCompleted _ => "ObservationCompleted"
  | .observationFailed _ => "ObservationFailed"
  | .planRequested _ => "PlanRequested"
  | .planCompleted _ => "PlanCompleted"
  | .planFailed _ => "PlanFailed"
  | .timerFired _ => "TimerFired"
  | .drmHintReceived _ => "DrmHintReceived"
  | .admissionDirtied _ => "AdmissionDirtied"
  | .probeDispatched _ => "ProbeDispatched"
  | .probeFinished _ => "ProbeFinished"
  | .applicationDispatched _ => "ApplicationDispatched"
  | .applicationFinished _ => "ApplicationFinished"
  | .preparationDispatched _ => "PreparationDispatched"
  | .preparationFinished _ => "PreparationFinished"
  | .finalizationDispatched _ => "FinalizationDispatched"
  | .finalizationFinished _ => "FinalizationFinished"
  | .dispatchRejected _ => "DispatchRejected"
  | .workerStatusUnknown _ => "WorkerStatusUnknown"
  | .workerTimedOut _ => "WorkerTimedOut"
  | .workerCancellationAcknowledged _ => "WorkerCancellationAcknowledged"
  | .controllerStarted _ => "ControllerStarted"
  | .bootChanged _ => "BootChanged"

/-- `type(effect).__name__`. -/
def Effect.typeName : Effect → String
  | .requestObservation _ => "RequestObservation"
  | .schedule _ => "Schedule"
  | .requestPlan _ => "RequestPlan"
  | .activateProbe _ => "ActivateProbe"
  | .applyProfile _ => "ApplyProfile"
  | .prepareDesktop _ => "PrepareDesktop"
  | .finalizeDesktop _ => "FinalizeDesktop"
  | .stopAction _ => "StopAction"
  | .discardPlan _ _ _ => "DiscardPlan"

/-- How the codec writes the values of a record, and the digest of a state. -/
structure Schema where
  state : State → Json
  event : Event → Json
  effect : Effect → Json
  stateKey : State → String

/-- Monotonic boundaries around reduction and persistence. -/
structure DecisionAuditTiming where
  processingStartedMs : Nat
  reductionFinishedMs : Nat
  persistenceFinishedMs : Nat
  observationDurationMs : Option Nat := none
  commandDurationMs : Option Nat := none
  workerDurationMs : Option Nat := none
  ordered : processingStartedMs ≤ reductionFinishedMs ∧
    reductionFinishedMs ≤ persistenceFinishedMs

inductive WouldDispatchKind where
  | wouldProbe | wouldApply | wouldPrepare | wouldFinalize

def WouldDispatchKind.value : WouldDispatchKind → String
  | .wouldProbe => "WOULD_PROBE"
  | .wouldApply => "WOULD_APPLY"
  | .wouldPrepare => "WOULD_PREPARE"
  | .wouldFinalize => "WOULD_FINALIZE"

def Effect.dispatched : Effect → Option ActionId
  | .activateProbe effect => some effect.actionId
  | .applyProfile effect => some effect.actionId
  | .prepareDesktop effect => some effect.actionId
  | .finalizeDesktop effect => some effect.actionId
  | _ => none

/-- Audit-only representation of one admitted worker intent. -/
structure WouldDispatch where
  kind : WouldDispatchKind
  actionId : ActionId
  effect : Effect
  recordedAtMs : Nat
  matching : effect.dispatched = some actionId

def wakeReason (event : Event) (effects : List Effect) : String :=
  (effects.findSome? fun
    | .requestObservation reason => some reason.value
    | _ => none).getD event.typeName

/-- `_bounded_text`. -/
def boundedLine (value : String) : String :=
  let clean := ([' '].intercalate (Words.words isSpace value.toList)).take 512
  if clean = [] then "unspecified" else String.ofList clean

def replaySchemaVersion : Int := 3

def nullable {α : Type} (encode : α → Json) : Option α → Json
  | none => .null
  | some a => encode a

-- The keys of a record are sorted.
variable (schema : Schema)

def decisionRecord (prior : State) (event : Event) (decision : Decision)
    (timing : DecisionAuditTiming) : Json :=
  let duration := nullable fun n : Nat => Json.int n
  .obj [
    ("audit", .obj [
      ("monotonic_ms", .int event.metadata.processedAtMs),
      ("prior_state_key", .str (schema.stateKey prior)),
      ("resulting_state_key", .str (schema.stateKey decision.state)),
      ("timing", .obj [
        ("command_duration_ms", duration timing.commandDurationMs),
        ("observation_duration_ms", duration timing.observationDurationMs),
        ("persistence_finished_ms", .int timing.persistenceFinishedMs),
        ("processing_started_ms", .int timing.processingStartedMs),
        ("reduction_finished_ms", .int timing.reductionFinishedMs),
        ("worker_duration_ms", duration timing.workerDurationMs)]),
      ("wake_reason", .str (wakeReason event decision.effects))]),
    ("effects", .arr (decision.effects.map fun effect => .obj [
      ("effect", schema.effect effect),
      ("effect_type", .str effect.typeName)])),
    ("event", schema.event event),
    ("event_type", .str event.typeName),
    ("record", .str "decision"),
    ("state", schema.state decision.state)]

def wouldDispatchRecord (record : WouldDispatch) : Json :=
  .obj [
    ("action_id", .str record.actionId.value),
    ("effect", schema.effect record.effect),
    ("effect_type", .str record.effect.typeName),
    ("kind", .str record.kind.value),
    ("record", .str "would_dispatch"),
    ("recorded_at_ms", .int record.recordedAtMs),
    ("schema_version", .int replaySchemaVersion)]

def runtimeFailureRecord (boundary detail : String) (recordedAtMs : Int)
    (actionId : Option String) : Json :=
  .obj [
    ("action_id", nullable .str actionId),
    ("boundary", .str (boundedLine boundary)),
    ("detail", .str (boundedLine detail)),
    ("record", .str "runtime_failure"),
    ("recorded_at_ms", .int recordedAtMs),
    ("schema_version", .int replaySchemaVersion)]

def headerRecord (state : State) : Json :=
  .obj [
    ("initial_state", schema.state state),
    ("record", .str "header"),
    ("schema_version", .int replaySchemaVersion)]

def encodeRecord (record : Json) : List UInt8 := utf8 (record.chars ++ ['\n'])

end Records

section Log

/-- What an append raises. -/
inductive AuditFault where
  | auditWrite (message : String)
  | fileNotFound
  | fileExists
  deriving DecidableEq

/-- The segments in their files, the active one first. -/
structure AuditLog where
  slots : Slots (List UInt8)
  maxBytes : Nat
  maxFiles : Nat
  currentState : State
  maxBytes_pos : 0 < maxBytes
  maxFiles_pos : 0 < maxFiles

abbrev Appended := AuditLog × Except AuditFault Unit

namespace AuditLog

variable (schema : Schema) (log : AuditLog)

def header (state : State) : List UInt8 := encodeRecord (headerRecord schema state)

def rotateFiles : AuditLog := { log with slots := log.slots.rotate log.maxFiles }

def writeNewSegment (state : State) : Appended :=
  if log.maxBytes < (header schema state).length then
    (log, .error (.auditWrite "audit replay header exceeds the segment size limit"))
  else
    match log.slots 0 with
    | some _ => (log, .error .fileExists)
    | none =>
      ({ log with slots := Function.update log.slots 0 (some (header schema state)) }, .ok ())

/-- The end of `_append_record`: the last check, and `_append_bytes`. -/
def appendFitting (encoded : List UInt8) : Appended :=
  match log.slots 0 with
  | none => (log, .error .fileNotFound)
  | some active =>
    if log.maxBytes < active.length + encoded.length then
      (log, .error (.auditWrite "audit header and record cannot fit in one bounded segment"))
    else ({ log with slots := Function.update log.slots 0 (some (active ++ encoded)) }, .ok ())

def appendRecord (record : Json) (segmentState : State) : Appended :=
  let encoded := encodeRecord record
  if log.maxBytes < encoded.length then
    (log, .error (.auditWrite
      ("one audit record exceeds the " ++ toString log.maxBytes ++ "-byte segment limit")))
  else
    match log.slots 0 with
    | none => (log, .error .fileNotFound)
    | some active =>
      let opened :=
        if log.maxBytes < active.length + encoded.length then
          log.rotateFiles.writeNewSegment schema segmentState
        else (log, .ok ())
      match opened.2 with
      | .error fault => (opened.1, .error fault)
      | .ok () => opened.1.appendFitting encoded

def appendDecision (prior : State) (event : Event) (decision : Decision)
    (timing : DecisionAuditTiming) : Appended :=
  if prior ≠ log.currentState then
    (log, .error (.auditWrite "audit prior state does not continue the active replay segment"))
  else
    match log.appendRecord schema (decisionRecord schema prior event decision timing) prior with
    | (log, .error fault) => (log, .error fault)
    | (log, .ok ()) => ({ log with currentState := decision.state }, .ok ())

def appendWouldDispatch (record : WouldDispatch) : Appended :=
  log.appendRecord schema (wouldDispatchRecord schema record) log.currentState

def appendRuntimeFailure (boundary detail : String) (recordedAtMs : Int)
    (actionId : Option String) : Appended :=
  log.appendRecord schema (runtimeFailureRecord boundary detail recordedAtMs actionId)
    log.currentState

end AuditLog

/-- A call of one of the three appends. -/
inductive AuditAppend where
  | decision (prior : State) (event : Event) (result : Decision) (timing : DecisionAuditTiming)
  | wouldDispatch (intent : WouldDispatch)
  | runtimeFailure (boundary detail : String) (recordedAtMs : Int) (actionId : Option String)

namespace AuditAppend

variable (schema : Schema) (log : AuditLog)

def run : AuditAppend → Appended
  | .decision prior event result timing => log.appendDecision schema prior event result timing
  | .wouldDispatch intent => log.appendWouldDispatch schema intent
  | .runtimeFailure boundary detail recordedAtMs actionId =>
    log.appendRuntimeFailure schema boundary detail recordedAtMs actionId

def record : AuditAppend → Json
  | .decision prior event result timing => decisionRecord schema prior event result timing
  | .wouldDispatch intent => wouldDispatchRecord schema intent
  | .runtimeFailure boundary detail recordedAtMs actionId =>
    runtimeFailureRecord boundary detail recordedAtMs actionId

def size (a : AuditAppend) : Nat := (encodeRecord (a.record schema)).length

/-- A decision continues the log if it was made in the state which the log has reached. -/
def Continues : AuditAppend → Prop
  | .decision prior _ _ _ => prior = log.currentState
  | _ => True

/-- The record has room in the active segment, or in a new one. -/
def Fits (a : AuditAppend) : Prop :=
  a.Continues log ∧ ∃ active, log.slots 0 = some active ∧
    (active.length + a.size schema ≤ log.maxBytes ∨
      (AuditLog.header schema log.currentState).length + a.size schema ≤ log.maxBytes)

/-- The segments are as they were, and what had room before still succeeds. -/
def KeepsHistory (a : AuditAppend) : Prop :=
  (a.run schema log).1.slots = log.slots ∧
    ∀ next : AuditAppend, next.Fits schema log → (next.run schema (a.run schema log).1).2 = .ok ()

end AuditAppend

end Log

section Outcomes

variable {schema : Schema} {log : AuditLog} {encoded active : List UInt8} {record : Json}
  {state : State} {message : String}

namespace AuditLog

theorem rotateFiles_zero : log.rotateFiles.slots 0 = none := by
  rw [rotateFiles]
  dsimp only
  rw [Slots.rotate_apply log.maxFiles_pos, if_pos rfl]

theorem writeNewSegment_rotateFiles : log.rotateFiles.writeNewSegment schema state =
    if log.maxBytes < (header schema state).length then
      (log.rotateFiles, .error (.auditWrite "audit replay header exceeds the segment size limit"))
    else
      ({ log with
          slots := Function.update (log.slots.rotate log.maxFiles) 0 (some (header schema state)) },
        .ok ()) := by
  rw [writeNewSegment, rotateFiles_zero]
  rfl

theorem appendFitting_of_active (h : log.slots 0 = some active) : log.appendFitting encoded =
    if log.maxBytes < active.length + encoded.length then
      (log, .error (.auditWrite "audit header and record cannot fit in one bounded segment"))
    else ({ log with slots := Function.update log.slots 0 (some (active ++ encoded)) }, .ok ()) := by
  rw [appendFitting, h]

theorem appendRecord_of_large (h : log.maxBytes < (encodeRecord record).length) :
    log.appendRecord schema record state = (log, .error (.auditWrite
      ("one audit record exceeds the " ++ toString log.maxBytes ++ "-byte segment limit"))) := by
  unfold appendRecord
  exact if_pos h

theorem appendRecord_of_none (h : ¬ log.maxBytes < (encodeRecord record).length)
    (hnone : log.slots 0 = none) :
    log.appendRecord schema record state = (log, .error .fileNotFound) := by
  unfold appendRecord
  dsimp only
  rw [if_neg h, hnone]

theorem appendRecord_of_room (hactive : log.slots 0 = some active)
    (h : active.length + (encodeRecord record).length ≤ log.maxBytes) :
    (log.appendRecord schema record state).2 = .ok () := by
  have hsmall : ¬ log.maxBytes < (encodeRecord record).length := by omega
  unfold appendRecord
  dsimp only
  rw [if_neg hsmall, hactive]
  dsimp only
  rw [if_neg (by omega), appendFitting_of_active hactive, if_neg (by omega)]

/-- Otherwise it needs another segment. -/
theorem appendRecord_of_full (hactive : log.slots 0 = some active)
    (hsmall : (encodeRecord record).length ≤ log.maxBytes)
    (hfull : log.maxBytes < active.length + (encodeRecord record).length) :
    (log.maxBytes < (header schema state).length ∧ log.appendRecord schema record state =
      (log.rotateFiles, .error (.auditWrite "audit replay header exceeds the segment size limit"))) ∨
    ((header schema state).length ≤ log.maxBytes ∧
      log.maxBytes < (header schema state).length + (encodeRecord record).length ∧
      log.appendRecord schema record state =
        ({ log with
            slots := Function.update (log.slots.rotate log.maxFiles) 0 (some (header schema state)) },
          .error (.auditWrite "audit header and record cannot fit in one bounded segment"))) ∨
    ((header schema state).length + (encodeRecord record).length ≤ log.maxBytes ∧
      (log.appendRecord schema record state).2 = .ok ()) := by
  unfold appendRecord
  dsimp only
  rw [if_neg (Nat.not_lt.mpr hsmall), hactive]
  dsimp only
  rw [if_pos hfull, writeNewSegment_rotateFiles]
  by_cases hheader : log.maxBytes < (header schema state).length
  · rw [if_pos hheader]
    exact .inl ⟨hheader, rfl⟩
  · rw [if_neg hheader]
    dsimp only
    have hopened : Function.update (log.slots.rotate log.maxFiles) 0 (some (header schema state)) 0 =
        some (header schema state) := by
      rw [Function.update_self]
    rw [appendFitting_of_active hopened]
    by_cases hfits : log.maxBytes < (header schema state).length + (encodeRecord record).length
    · rw [if_pos hfits]
      exact .inr (.inl ⟨Nat.not_lt.mp hheader, hfits, rfl⟩)
    · rw [if_neg hfits]
      exact .inr (.inr ⟨Nat.not_lt.mp hfits, rfl⟩)

end AuditLog

namespace AuditAppend

open AuditLog

variable {a next : AuditAppend}

theorem run_of_not_continues (h : ¬ a.Continues log) : a.run schema log = (log, .error (.auditWrite
    "audit prior state does not continue the active replay segment")) := by
  cases a with
  | decision prior event result timing => exact if_pos h
  | wouldDispatch intent => exact absurd trivial h
  | runtimeFailure boundary detail recordedAtMs actionId => exact absurd trivial h

theorem run_of_continues (h : a.Continues log) :
    (a.run schema log).2 = (log.appendRecord schema (a.record schema) log.currentState).2 ∧
      ((a.run schema log).2 ≠ .ok () →
        (a.run schema log).1 = (log.appendRecord schema (a.record schema) log.currentState).1) := by
  cases a with
  | wouldDispatch intent => exact ⟨rfl, fun _ => rfl⟩
  | runtimeFailure boundary detail recordedAtMs actionId => exact ⟨rfl, fun _ => rfl⟩
  | decision prior event result timing =>
    have hprior : prior = log.currentState := h
    subst hprior
    simp only [run, appendDecision, record]
    rw [if_neg (not_not.mpr rfl)]
    cases hend : log.appendRecord schema
        (decisionRecord schema log.currentState event result timing) log.currentState with
    | mk after outcome =>
      cases outcome with
      | error fault => exact ⟨rfl, fun _ => rfl⟩
      | ok u => exact ⟨rfl, fun hne => absurd rfl hne⟩

theorem Fits.run (h : next.Fits schema log) : (next.run schema log).2 = .ok () := by
  obtain ⟨hcontinues, active, hactive, hroom⟩ := h
  rw [(run_of_continues hcontinues).1]
  by_cases hlarge : active.length + next.size schema ≤ log.maxBytes
  · exact appendRecord_of_room hactive hlarge
  · have hheader := hroom.resolve_left hlarge
    have hsmall : (encodeRecord (next.record schema)).length ≤ log.maxBytes :=
      Nat.le_trans (Nat.le_add_left _ _) hheader
    obtain ⟨hbig, -⟩ | ⟨-, hbig, -⟩ | ⟨-, hok⟩ :=
      @appendRecord_of_full schema log active _ log.currentState hactive hsmall
        (Nat.not_le.mp hlarge)
    · have hle := Nat.le_trans (Nat.le_add_right _ _) hheader
      omega
    · exact absurd hheader (Nat.not_le.mpr hbig)
    · exact hok

/-- A refused append keeps the history exactly if it is refused before the rotation, or if every
file holds nothing but the header which the rotation writes. -/
theorem refused_keepsHistory_iff
    (h : (a.run schema log).2 = .error (.auditWrite message)) :
    a.KeepsHistory schema log ↔ (¬ a.Continues log ∨ log.maxBytes < a.size schema) ∨
      ((header schema log.currentState).length ≤ log.maxBytes ∧
        ∀ i < log.maxFiles, log.slots i = some (header schema log.currentState)) := by
  have hkeeps : (a.run schema log).1 = log → a.KeepsHistory schema log := by
    intro heq
    rw [KeepsHistory, heq]
    exact ⟨rfl, fun next hfits => hfits.run⟩
  by_cases hcontinues : a.Continues log
  · obtain ⟨hend, hafter⟩ := @run_of_continues schema log a hcontinues
    replace hafter := hafter (by rw [h]; exact nofun)
    by_cases hlarge : log.maxBytes < a.size schema
    · refine iff_of_true (hkeeps ?_) (.inl (.inr hlarge))
      rw [hafter, appendRecord_of_large hlarge]
    · cases hactive : log.slots 0 with
      | none =>
        rw [hend, appendRecord_of_none hlarge hactive] at h
        cases h
      | some active =>
        have hfull : log.maxBytes < active.length + a.size schema := by
          by_contra hroom
          rw [hend, appendRecord_of_room hactive (Nat.not_lt.mp hroom)] at h
          cases h
        obtain ⟨hheader, hrecord⟩ | ⟨hheader, -, hrecord⟩ | ⟨-, hok⟩ :=
          @appendRecord_of_full schema log active _ log.currentState hactive
            (Nat.not_lt.mp hlarge) hfull
        · refine iff_of_false (fun hkept => ?_) ?_
          · have hslots := hkept.1
            rw [hafter, hrecord] at hslots
            have hzero := congrFun hslots 0
            rw [rotateFiles_zero, hactive] at hzero
            cases hzero
          · rintro ((hno | hlt) | ⟨hle, -⟩)
            · exact hno hcontinues
            · exact hlarge hlt
            · omega
        · constructor
          · intro hkept
            have hslots := hkept.1
            rw [hafter, hrecord] at hslots
            exact .inr ⟨hheader, (Slots.update_rotate_eq_iff log.maxFiles_pos).mp hslots⟩
          · rintro ((hno | hlt) | ⟨-, hall⟩)
            · exact absurd hcontinues hno
            · exact absurd hlt hlarge
            · apply hkeeps
              rw [hafter, hrecord]
              dsimp only
              rw [(Slots.update_rotate_eq_iff log.maxFiles_pos).mpr hall]
        · rw [hend, hok] at h
          cases h
  · refine iff_of_true (hkeeps ?_) (.inl (.inl hcontinues))
    rw [run_of_not_continues hcontinues]

theorem run_of_large (hcontinues : a.Continues log) (h : log.maxBytes < a.size schema) :
    (a.run schema log).2 = .error (.auditWrite
      ("one audit record exceeds the " ++ toString log.maxBytes ++ "-byte segment limit")) :=
  (run_of_continues hcontinues).1.trans (congrArg Prod.snd (appendRecord_of_large h))

/-- A record which has no room even in a new segment takes the active one with it. -/
theorem not_keepsHistory_of_full (hcontinues : a.Continues log) (hactive : log.slots 0 = some active)
    (hsmall : a.size schema ≤ log.maxBytes)
    (hfull : log.maxBytes < active.length + a.size schema)
    (hheader : log.maxBytes < (header schema log.currentState).length + a.size schema)
    (hne : (header schema log.currentState).length ≠ active.length) :
    ∃ message, (a.run schema log).2 = .error (.auditWrite message) ∧ ¬ a.KeepsHistory schema log := by
  obtain ⟨hend, hafter⟩ := @run_of_continues schema log a hcontinues
  have hlost : ∀ {slots' : Slots (List UInt8)} {message}, (a.run schema log).2 =
      .error (.auditWrite message) → (log.appendRecord schema (a.record schema) log.currentState).1.slots =
        slots' → slots' 0 ≠ some active → ¬ a.KeepsHistory schema log := by
    intro slots' message hrefused hslots hdiffers hkept
    have hsame := hkept.1
    rw [hafter (by rw [hrefused]; exact nofun), hslots] at hsame
    exact hdiffers (hsame ▸ hactive)
  obtain ⟨-, hrun⟩ | ⟨-, -, hrun⟩ | ⟨hroom, -⟩ :=
    @appendRecord_of_full schema log active _ log.currentState hactive hsmall hfull
  · have hrefused := hend.trans (congrArg Prod.snd hrun)
    refine ⟨_, hrefused, hlost hrefused (congrArg (fun r => r.1.slots) hrun) ?_⟩
    rw [rotateFiles_zero]
    exact nofun
  · have hrefused := hend.trans (congrArg Prod.snd hrun)
    refine ⟨_, hrefused, hlost hrefused (congrArg (fun r => r.1.slots) hrun) ?_⟩
    dsimp only
    rw [Function.update_self]
    exact fun heq => hne (congrArg List.length (Option.some.inj heq))
  · exact absurd hroom (Nat.not_le.mpr hheader)

def nulls : Schema := ⟨fun _ => .null, fun _ => .null, fun _ => .null, fun _ => ""⟩

def initial : State := .initial ⟨0⟩ ⟨0⟩ ⟨⟨":0", by decide⟩⟩ none

/-- A log of two segments, the active one with its header and a failure. -/
def retained : AuditLog :=
  ⟨fun i =>
      if i = 0 then
        some (header nulls initial ++ encodeRecord (runtimeFailureRecord "worker" "lost" 0 none))
      else if i = 1 then some (header nulls initial) else none,
    180, 2, initial, Nat.succ_pos _, Nat.succ_pos _⟩

def detailed : AuditAppend :=
  .runtimeFailure "worker" "more on its standard error than a segment has room for, no result" 0
    none

/-- A record larger than a segment is refused before anything happens. -/
theorem refused_keepsHistory_large : detailed.KeepsHistory nulls retained := by
  have hlarge : retained.maxBytes < detailed.size nulls := by decide +kernel
  have hcontinues : detailed.Continues retained := trivial
  exact (refused_keepsHistory_iff (run_of_large hcontinues hlarge)).mpr (.inl (.inr hlarge))

/-- The second failure, longer by one character, is refused, and the first one is gone. -/
theorem refused_loses_history : ¬ ∃ schema : Schema, ∀ log (a : AuditAppend) message,
    (a.run schema log).2 = .error (.auditWrite message) → a.KeepsHistory schema log := by
  rintro ⟨schema, hkeeps⟩
  let state : State := .initial ⟨0⟩ ⟨0⟩ ⟨⟨":0", by decide⟩⟩ none
  have hfirst : (encodeRecord (runtimeFailureRecord "worker" "lost" 0 none)).length = 120 := by
    decide +kernel
  have hsecond : (runtimeFailure "worker" "lost!" 0 none).size schema = 121 := by
    have hlength : (encodeRecord (runtimeFailureRecord "worker" "lost!" 0 none)).length = 121 := by
      decide +kernel
    exact hlength
  have hheader : ∀ state, 0 < (header schema state).length := by
    intro state
    rw [header, encodeRecord]
    exact List.length_pos_of_ne_nil (utf8_ne_nil (List.concat_ne_nil _ _))
  have hlength :
      (header schema state ++ encodeRecord (runtimeFailureRecord "worker" "lost" 0 none)).length =
        (header schema state).length + 120 := by
    rw [List.length_append, hfirst]
  let log : AuditLog := ⟨fun i => if i = 0 then
      some (header schema state ++ encodeRecord (runtimeFailureRecord "worker" "lost" 0 none)) else none,
    (header schema state).length + 120, 1, state, Nat.succ_pos _, by decide⟩
  have hmax : log.maxBytes = (header schema state).length + 120 := rfl
  have hpos := hheader state
  have hroom : log.maxBytes < (header schema log.currentState).length +
      (runtimeFailure "worker" "lost!" 0 none).size schema := by
    change log.maxBytes < (header schema state).length + _
    omega
  have hne : (header schema log.currentState).length ≠
      (header schema state ++ encodeRecord (runtimeFailureRecord "worker" "lost" 0 none)).length := by
    change (header schema state).length ≠ _
    omega
  obtain ⟨message, hrefused, hlost⟩ := @not_keepsHistory_of_full schema log _
    (.runtimeFailure "worker" "lost!" 0 none) trivial rfl (by omega) (by omega) hroom hne
  exact hlost (hkeeps log _ message hrefused)

end AuditAppend

end Outcomes

end MonitorController
