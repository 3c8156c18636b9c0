import MonitorController.Reducer.Observe
import MonitorController.Reducer.Workers

/-! # The reducer

The acknowledged stop, restarts, boot changes, and `reduce` itself: central
invariants are asserted on entry and by every decision.
-/

namespace MonitorController

theorem WorkerCancellationAcknowledged.not_admitted (e : WorkerCancellationAcknowledged) :
    e.terminalLifecycle ≠ .admitted := by
  intro h
  have ht := e.terminal
  simp [h, ActionLifecycle.terminal] at ht

/-- A worker which failed to stop cleanly: a timed-out stop and a preparation wait for the health
poll, a stop for a topology change looks at the new topology at once. -/
def acknowledgeFailure (s : State) (e : WorkerCancellationAcknowledged) (polled : Bool) :
    Result Decision :=
  if polled then schedule s (e.metadata.processedAtMs + healthPollMs) []
  else reobserve s e.metadata.processedAtMs

/-- `_cancellation_acknowledged` for a stopping probe. -/
def acknowledgeProbe (s : State) (e : WorkerCancellationAcknowledged) (a : ProbeAction) :
    Result Decision :=
  let nowMs := e.metadata.processedAtMs
  if e.terminalLifecycle = .completed then
    probeFinished { s with phase := .probing, probe := some { a with toWorkerAction := a.resume } }
      a.actionId .succeeded (some e.exitStatus) nowMs
  else do
    let worker := a.settle e.terminalLifecycle (some e.exitStatus) e.not_admitted
    let s ← appendTombstone s a.actionId e.terminalLifecycle
    if e.terminalLifecycle.failedLifecycle then
      acknowledgeFailure
        { s with phase := .probeFailed, probe := some { a with toWorkerAction := worker } } e
        a.terminalAfterStop.isSome
    else reobserve { s with phase := .discoverFast, probe := none } nowMs

/-- `_cancellation_acknowledged` for a stopping application. -/
def acknowledgeApplication (s : State) (e : WorkerCancellationAcknowledged)
    (a : ApplicationAction) : Result Decision :=
  let nowMs := e.metadata.processedAtMs
  if e.terminalLifecycle = .completed then
    applicationFinished
      { s with phase := .applying, application := some { a with toWorkerAction := a.resume } }
      a.actionId .succeeded (some e.exitStatus) nowMs
  else do
    let worker := a.settle e.terminalLifecycle (some e.exitStatus) e.not_admitted
    let s ← appendTombstone s a.actionId e.terminalLifecycle
    if e.terminalLifecycle.failedLifecycle then
      acknowledgeFailure
        { s with phase := .applyFailed, application := some { a with toWorkerAction := worker } } e
        a.terminalAfterStop.isSome
    else reobserve { s with phase := .discoverFast, application := none } nowMs

/-- `_cancellation_acknowledged` for a stopping preparation. -/
def acknowledgePreparation (s : State) (e : WorkerCancellationAcknowledged)
    (a : PreparationAction) : Result Decision :=
  let nowMs := e.metadata.processedAtMs
  if e.terminalLifecycle = .completed then
    preparationFinished
      { s with
        preparationState := .preparing
        preparation := some { a with toWorkerAction := a.resume } }
      a.actionId .succeeded (some e.exitStatus) nowMs a.planHash
  else do
    let worker := a.settle e.terminalLifecycle (some e.exitStatus) e.not_admitted
    let s ← appendTombstone s a.actionId e.terminalLifecycle
    if e.terminalLifecycle.failedLifecycle then
      acknowledgeFailure
        { s with
          phase := .discoverFast
          preparationState := .prepareFailed
          preparation := some { a with toWorkerAction := worker } } e true
    else
      schedule
        { s with phase := .discoverFast, preparationState := .prepareIdle, preparation := none }
        nowMs ((s.planning.map (·.discard)).toList ++ [.requestObservation .workerCompleted])

/-- `_cancellation_acknowledged` for a stopping finalization. -/
def acknowledgeFinalization (s : State) (e : WorkerCancellationAcknowledged)
    (a : FinalizationAction) : Result Decision :=
  let nowMs := e.metadata.processedAtMs
  if e.terminalLifecycle = .completed then
    finalizationFinished
      { s with phase := .finalizing, finalization := some { a with toWorkerAction := a.resume } }
      a.actionId .succeeded (some e.exitStatus) nowMs
  else do
    let worker := a.settle e.terminalLifecycle (some e.exitStatus) e.not_admitted
    let s ← appendTombstone s a.actionId e.terminalLifecycle
    if e.terminalLifecycle.failedLifecycle then
      acknowledgeFailure
        { s with
          phase := .finalizeFailed
          finalization := some { a with toWorkerAction := worker } } e a.terminalAfterStop.isSome
    else
      reobserve { s with phase := .discoverFast, finalization := none, verifySinceMs := none } nowMs

def cancellationAcknowledged (s : State) (e : WorkerCancellationAcknowledged) : Result Decision :=
  match s.actionForId e.actionId with
  | none | some (.planning _) => noOp s
  | some (.probe a) => if a.lifecycle = .stopping then acknowledgeProbe s e a else noOp s
  | some (.application a) =>
    if a.lifecycle = .stopping then acknowledgeApplication s e a else noOp s
  | some (.preparation a) =>
    if a.lifecycle = .stopping then acknowledgePreparation s e a else noOp s
  | some (.finalization a) =>
    if a.lifecycle = .stopping then acknowledgeFinalization s e a else noOp s

/-- A worker is running or stopping, so that a restart only waits for it. -/
def workerRuns (s : State) : Prop :=
  (s.phase = .probing ∧ s.probe ≠ none) ∨ (s.phase = .applying ∧ s.application ≠ none) ∨
    ((s.preparationState = .preparing ∨ s.preparationState = .prepareStopping) ∧
      s.preparation ≠ none) ∨
    ((s.phase = .finalizing ∨ s.phase = .finalizeStopping) ∧ s.finalization ≠ none)

instance (s : State) : Decidable (workerRuns s) :=
  inferInstanceAs (Decidable (_ ∨ _))

/-- A restart which neither withdraws a preparation nor retries a finalization. -/
def resumeStarted (s : State) (nowMs : Nat) : Result Decision :=
  let s : State := if s.phase = .verifying then clearProof s else s
  if workerRuns s then schedule s (nowMs + 1000) []
  else schedule s nowMs [.requestObservation .startup]

/-- `_controller_started`. A restart is an explicit, bounded retry of a failed finalization. -/
def controllerStarted (s : State) (event : ControllerStarted) : Result Decision :=
  let nowMs := event.metadata.processedAtMs
  let s := { s with controllerInstance := event.controllerInstance }
  match s.preparationState, s.preparation, s.phase, s.finalization with
  | .preparePending, some a, _, _ => do
    let s ← appendTombstone s a.actionId .cancelled
    let (s, discardEffects) ← discardPlanning
      { s with
        phase := .discoverFast
        preparationState := .prepareIdle
        preparation := none
        verifySinceMs := none }
    schedule s nowMs (discardEffects ++ [.requestObservation .startup])
  | _, _, .finalizeFailed, some _ =>
    schedule { s with phase := .discoverFast, finalization := none, verifySinceMs := none } nowMs
      [.requestObservation .startup]
  | _, _, _, _ => resumeStarted s nowMs

/-- The empty state in which a new boot resumes. Identity marks and tombstones persist, and the
desktop has to be finalized again. -/
def rebooted (s : State) (event : BootChanged) : State :=
  { bootId := event.metadata.bootId
    controllerInstance := s.controllerInstance
    displayIdentity := s.displayIdentity
    graphicalSessionId := s.graphicalSessionId
    physicalEpoch := s.physicalEpoch
    reconcileEpoch := s.reconcileEpoch
    nextTimerMs := some event.metadata.processedAtMs
    desktopFinalizationRequired := true
    actionSequenceHighWater := s.actionSequenceHighWater
    transitionSequenceHighWater := s.transitionSequenceHighWater
    actionTombstones := s.actionTombstones
    requirement := State.requirement_blank }

def bootChanged (s : State) (event : BootChanged) : Result Decision :=
  if event.previousBootId ≠ s.bootId then noOp s
  else
    decision (rebooted s event)
      [.requestObservation .recovery, .schedule event.metadata.processedAtMs]

/-- A failed observation is retried, and a retained stop is repeated. -/
def observationFailed (s : State) (event : ObservationFailed) : Result Decision :=
  schedule s (event.metadata.processedAtMs + observationFailureRetryMs) (stopEffects s)

/-- A timer is honoured only at or after the deadline it was set for. -/
def timerFired (s : State) (event : TimerFired) : Result Decision :=
  let nowMs := event.metadata.processedAtMs
  match s.nextTimerMs with
  | none => noOp s
  | some due =>
    if event.deadlineMs < due ∨ nowMs < event.deadlineMs then noOp s
    else decision { s with nextTimerMs := some nowMs } [.requestObservation .timer, .schedule nowMs]

def dispatchRejected (s : State) (event : DispatchRejected) : Result Decision :=
  match s.actionForId event.actionId with
  | none => noOp s
  | some a =>
    if a.lifecycle ≠ .admitted then noOp s
    else failAction s event.actionId .failed event.metadata.processedAtMs

def workerStatusUnknown (s : State) (event : WorkerStatusUnknown) : Result Decision :=
  match s.actionForId event.actionId with
  | none => noOp s
  | some a =>
    if a.lifecycle ≠ .dispatched ∧ a.lifecycle ≠ .stopping then noOp s
    else stopUncertainMutator s a .unknown event.metadata.processedAtMs

def workerTimedOut (s : State) (event : WorkerTimedOut) : Result Decision :=
  match s.actionForId event.actionId with
  | none => noOp s
  | some a =>
    match a.worker? with
    | none => noOp s
    | some w =>
      if (w.lifecycle ≠ .dispatched ∧ w.lifecycle ≠ .stopping) ∨
          w.workerDeadlineMs ≠ some event.deadlineMs ∨
          (event.managerConfirmed = false ∧
            event.metadata.processedAtMs < event.deadlineMs) then noOp s
      else stopUncertainMutator s a .timedOut event.metadata.processedAtMs

def reduceEvent (s : State) : Event → Result Decision
  | .observationCompleted e => observe s e
  | .observationFailed e => observationFailed s e
  | .planRequested e => planRequested s e
  | .planCompleted e => planCompleted s e
  | .planFailed e => planFailed s e
  | .timerFired e => timerFired s e
  | .drmHintReceived e => drmHint s e
  | .admissionDirtied e => admissionDirtied s e
  | .probeDispatched e => probeDispatched s e
  | .probeFinished e =>
    probeFinished s e.actionId e.outcome e.exitStatus e.metadata.processedAtMs
  | .applicationDispatched e => applicationDispatched s e
  | .applicationFinished e =>
    applicationFinished s e.actionId e.outcome e.exitStatus e.metadata.processedAtMs
  | .preparationDispatched e => preparationDispatched s e
  | .preparationFinished e =>
    preparationFinished s e.actionId e.outcome e.exitStatus e.metadata.processedAtMs e.planHash
  | .finalizationDispatched e => finalizationDispatched s e
  | .finalizationFinished e =>
    finalizationFinished s e.actionId e.outcome e.exitStatus e.metadata.processedAtMs
  | .dispatchRejected e => dispatchRejected s e
  | .workerStatusUnknown e => workerStatusUnknown s e
  | .workerTimedOut e => workerTimedOut s e
  | .workerCancellationAcknowledged e => cancellationAcknowledged s e
  | .controllerStarted e => controllerStarted s e
  | .bootChanged e => bootChanged s e

def reduce (s : State) (event : Event) : Result Decision := do
  assertControllerInvariants s
  match event with
  | .bootChanged e => bootChanged s e
  | event =>
    if event.metadata.bootId ≠ s.bootId then noOp s
    else if s.phase = .recovering ∧ s.recoveryUnits ≠ [] then noOp s
    else reduceEvent s event

end MonitorController
