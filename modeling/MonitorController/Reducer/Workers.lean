import MonitorController.Reducer.Basic

/-! # Hints and workers

DRM hints, dirtied admissions, dispatch acknowledgements, worker results, plan
results and the stop protocol of an uncertain worker.
-/

namespace MonitorController

def probeWorkerTimeoutMs : Nat := 30000
def applicationWorkerTimeoutMs : Nat := 120000
def preparationWorkerTimeoutMs : Nat := 300000
def finalizationWorkerTimeoutMs : Nat := 300000

/-- A hint or a dirtied admission supersedes every proof in progress. -/
def supersedeProofs (s : State) (eventGeneration : EventGeneration) (processedAtMs : Nat) : State :=
  { s with
    eventGeneration := eventGeneration
    lastDrmAtMs := some processedAtMs
    verifySinceMs := none
    unplugProof := none }

/-- A hint withdraws a pending preparation together with its plan. -/
def hintPreparation (s : State) : Result (State × List Effect) :=
  match s.preparationState, s.preparation with
  | .preparePending, some a => do
    let s ← appendTombstone s a.actionId .cancelled
    discardPlanning { s with preparationState := .prepareIdle, preparation := none }
  | _, _ => .ok (s, [])

def hintFinalization (s : State) : Result State :=
  match s.phase, s.finalization with
  | .finalizePending, some a => do
    let s ← appendTombstone s a.actionId .cancelled
    .ok { s with finalization := none }
  | _, _ => .ok s

def reopenedByHint : ControllerPhase → Bool
  | .quiescent | .verifying | .unsupported | .finalizePending => true
  | _ => false

def drmHint (s : State) (event : DrmHintReceived) : Result Decision :=
  let nowMs := event.metadata.processedAtMs
  if event.eventGeneration ≤ s.eventGeneration then noOp s
  else do
    let (s, effects) ← hintPreparation (supersedeProofs s event.eventGeneration nowMs)
    let s ← hintFinalization s
    let s : State := if reopenedByHint s.phase then { s with phase := .discoverFast } else s
    schedule s nowMs (effects ++ [.requestObservation .drmHint])

def workerDeadlineMs (kind : ActionKind) (dispatchedAtMs : Nat) : Result Nat :=
  match kind with
  | .probe => .ok (dispatchedAtMs + probeWorkerTimeoutMs)
  | .application => .ok (dispatchedAtMs + applicationWorkerTimeoutMs)
  | .preparation => .ok (dispatchedAtMs + preparationWorkerTimeoutMs)
  | .finalization => .ok (dispatchedAtMs + finalizationWorkerTimeoutMs)
  | .plan => .error (.value "planning tasks do not have supervisor worker deadlines")

/-- `_dispatched` for a probe. -/
def probeDispatched (s : State) (event : ProbeDispatched) : Result Decision :=
  match s.probe with
  | none => noOp s
  | some a =>
    if h : s.phase = .probePending ∧ a.actionId = event.actionId ∧ a.lifecycle = .admitted then do
      let deadline ← workerDeadlineMs .probe event.metadata.processedAtMs
      let worker := a.dispatch event.unit deadline (event.unit_eq.trans h.2.1.symm) h.2.2
      decision
        { s with
          phase := .probing
          probe := some { a with toWorkerAction := worker }
          attemptedProbeKeys := insert a.key s.attemptedProbeKeys
          nextTimerMs := none } []
    else noOp s

/-- `_dispatched` for an application. -/
def applicationDispatched (s : State) (event : ApplicationDispatched) : Result Decision :=
  match s.application with
  | none => noOp s
  | some a =>
    if h : s.phase = .applyPending ∧ a.actionId = event.actionId ∧ a.lifecycle = .admitted then do
      let deadline ← workerDeadlineMs .application event.metadata.processedAtMs
      let worker := a.dispatch event.unit deadline (event.unit_eq.trans h.2.1.symm) h.2.2
      decision
        { s with
          phase := .applying
          application := some { a with toWorkerAction := worker }
          attemptedApplicationKeys := insert a.key s.attemptedApplicationKeys
          nextTimerMs := none } []
    else noOp s

/-- `_dispatched` for a preparation. -/
def preparationDispatched (s : State) (event : PreparationDispatched) : Result Decision :=
  match s.preparation with
  | none => noOp s
  | some a =>
    if h : s.preparationState = .preparePending ∧ a.actionId = event.actionId ∧
        a.lifecycle = .admitted then do
      let deadline ← workerDeadlineMs .preparation event.metadata.processedAtMs
      let worker := a.dispatch event.unit deadline (event.unit_eq.trans h.2.1.symm) h.2.2
      decision
        { s with
          preparationState := .preparing
          preparation := some { a with toWorkerAction := worker } } []
    else noOp s

/-- `_dispatched` for a finalization. -/
def finalizationDispatched (s : State) (event : FinalizationDispatched) : Result Decision :=
  match s.finalization with
  | none => noOp s
  | some a =>
    if h : s.phase = .finalizePending ∧ a.actionId = event.actionId ∧ a.lifecycle = .admitted then do
      let deadline ← workerDeadlineMs .finalization event.metadata.processedAtMs
      let worker := a.dispatch event.unit deadline (event.unit_eq.trans h.2.1.symm) h.2.2
      decision
        { s with
          phase := .finalizing
          finalization := some { a with toWorkerAction := worker } } []
    else noOp s

/-- The observation which every reported worker result asks for. -/
def reobserve (s : State) (nowMs : Nat) : Result Decision :=
  schedule s nowMs [.requestObservation .workerCompleted]

/-- `_finished` for a probe. -/
def probeFinished (s : State) (actionId : ActionId) (outcome : WorkerOutcome)
    (exitStatus : Option Int) (nowMs : Nat) : Result Decision :=
  match s.probe with
  | none => noOp s
  | some a =>
    if a.actionId ≠ actionId ∨ s.phase ≠ .probing then noOp s
    else if a.lifecycle = .stopping then schedule s (nowMs + 1000) [.stopAction a.actionId]
    else
      match outcome with
      | .succeeded => do
        let s ← appendTombstone s a.actionId .completed
        reobserve { s with phase := .discoverFast, probe := none } nowMs
      | .cancelled => do
        let s ← appendTombstone s a.actionId .cancelled
        reobserve { s with phase := .discoverFast, probe := none } nowMs
      | .failed => do
        let worker := a.settle .failed exitStatus (by decide)
        let s ← appendTombstone s a.actionId .failed
        schedule { s with phase := .probeFailed, probe := some { a with toWorkerAction := worker } }
          (nowMs + healthPollMs) []

/-- `_finished` for an application. -/
def applicationFinished (s : State) (actionId : ActionId) (outcome : WorkerOutcome)
    (exitStatus : Option Int) (nowMs : Nat) : Result Decision :=
  match s.application with
  | none => noOp s
  | some a =>
    if a.actionId ≠ actionId ∨ s.phase ≠ .applying then noOp s
    else if a.lifecycle = .stopping then schedule s (nowMs + 1000) [.stopAction a.actionId]
    else
      match outcome with
      | .succeeded => do
        let s ← appendTombstone s a.actionId .completed
        reobserve { s with phase := .discoverFast, application := none, verifySinceMs := none } nowMs
      | .cancelled => do
        let s ← appendTombstone s a.actionId .cancelled
        reobserve { s with phase := .discoverFast, application := none } nowMs
      | .failed => do
        let worker := a.settle .failed exitStatus (by decide)
        let s ← appendTombstone s a.actionId .failed
        schedule
          { s with phase := .applyFailed, application := some { a with toWorkerAction := worker } }
          (nowMs + healthPollMs) []

/-- `_finished` for a preparation: success must name the admitted plan. -/
def preparationFinished (s : State) (actionId : ActionId) (outcome : WorkerOutcome)
    (exitStatus : Option Int) (nowMs : Nat) (planHash : PlanHash) : Result Decision :=
  match s.preparation with
  | none => noOp s
  | some a =>
    if a.actionId ≠ actionId ∨ (a.lifecycle ≠ .dispatched ∧ a.lifecycle ≠ .stopping) ∨
        (s.preparationState ≠ .preparing ∧ s.preparationState ≠ .prepareStopping) then noOp s
    else if a.lifecycle = .stopping then schedule s (nowMs + 1000) [.stopAction a.actionId]
    else if outcome = .succeeded ∧ planHash = a.planHash then
      let worker := a.settle .resultPending exitStatus (by decide)
      reobserve
        { clearRecoveryUnit s a.actionId with
          preparation := some { a with toWorkerAction := worker } } nowMs
    else if outcome = .cancelled then do
      let s ← appendTombstone s a.actionId .cancelled
      reobserve
        { s with preparationState := .prepareIdle, preparation := none, phase := .discoverFast }
        nowMs
    else do
      let worker := a.settle .failed exitStatus (by decide)
      let s ← appendTombstone s a.actionId .failed
      schedule
        { s with
          preparationState := .prepareFailed
          preparation := some { a with toWorkerAction := worker } } (nowMs + healthPollMs) []

/-- `_finished` for a finalization. -/
def finalizationFinished (s : State) (actionId : ActionId) (outcome : WorkerOutcome)
    (exitStatus : Option Int) (nowMs : Nat) : Result Decision :=
  match s.finalization with
  | none => noOp s
  | some a =>
    if a.actionId ≠ actionId ∨ (a.lifecycle ≠ .dispatched ∧ a.lifecycle ≠ .stopping) ∨
        (s.phase ≠ .finalizing ∧ s.phase ≠ .finalizeStopping) then noOp s
    -- A terminal message does not prove a stopping worker inactive.
    else if a.lifecycle = .stopping then schedule s (nowMs + 1000) [.stopAction a.actionId]
    else
      match outcome with
      | .succeeded =>
        let worker := a.settle .resultPending exitStatus (by decide)
        reobserve
          { clearRecoveryUnit s a.actionId with
            phase := .finalizing
            finalization := some { a with toWorkerAction := worker } } nowMs
      | .cancelled => do
        let s ← appendTombstone s a.actionId .cancelled
        reobserve
          { s with phase := .discoverFast, finalization := none, verifySinceMs := none } nowMs
      | .failed => do
        let worker := a.settle .failed exitStatus (by decide)
        let s ← appendTombstone s a.actionId .failed
        schedule
          { s with
            phase := .finalizeFailed
            finalization := some { a with toWorkerAction := worker } } (nowMs + healthPollMs) []

def planRequested (s : State) (event : PlanRequested) : Result Decision :=
  match s.planning with
  | none => noOp s
  | some a =>
    if s.planningState ≠ .planPending ∨ a.actionId ≠ event.actionId ∨
        a.inputKey ≠ event.inputKey then noOp s
    else
      decision
        { s with planningState := .planning, planning := some { a with lifecycle := .dispatched } } []

def planCompleted (s : State) (event : PlanCompleted) : Result Decision :=
  match s.planning with
  | none => noOp s
  | some a =>
    if s.planningState ≠ .planning ∨ a.actionId ≠ event.actionId ∨
        a.inputKey ≠ event.inputKey then noOp s
    else do
      let s ← appendTombstone s a.actionId .completed
      let a := { a with lifecycle := .completed, planHash := some event.planHash }
      reobserve { s with planningState := .planReady, planning := some a }
        event.metadata.processedAtMs

def planFailed (s : State) (event : PlanFailed) : Result Decision :=
  let nowMs := event.metadata.processedAtMs
  match s.planning with
  | none => noOp s
  | some a =>
    if (s.planningState ≠ .planPending ∧ s.planningState ≠ .planning) ∨
        a.actionId ≠ event.actionId ∨ a.inputKey ≠ event.inputKey then noOp s
    else if event.retryable then do
      let (s, discardEffects) ← discardPlanning s
      schedule { s with phase := .discoverFast, verifySinceMs := none }
        (nowMs + observationFailureRetryMs) discardEffects
    else do
      let s ← appendTombstone s a.actionId .failed
      let a := { a with lifecycle := .failed, exitStatus := event.exitStatus }
      schedule { s with planningState := .planFailed, planning := some a }
        (nowMs + healthPollMs) []

/-- `replace(action, lifecycle=lifecycle)` for any action record. -/
def ActionRecord.withLifecycle (lifecycle : ActionLifecycle) : ActionRecord → Result ActionRecord
  | .planning a => .ok (.planning { a with lifecycle := lifecycle })
  | .probe a => do
    let worker ← a.toWorkerAction.withLifecycle lifecycle
    .ok (.probe
      { a with
        toWorkerAction := worker.1
        kind_probe := (congrArg ActionId.kind worker.2).trans a.kind_probe })
  | .application a => do
    let worker ← a.toWorkerAction.withLifecycle lifecycle
    .ok (.application
      { a with
        toWorkerAction := worker.1
        kind_application := (congrArg ActionId.kind worker.2).trans a.kind_application })
  | .preparation a => do
    let worker ← a.toWorkerAction.withLifecycle lifecycle
    .ok (.preparation
      { a with
        toWorkerAction := worker.1
        kind_preparation := a.kind_renewed worker })
  | .finalization a => do
    let worker ← a.toWorkerAction.withLifecycle lifecycle
    .ok (.finalization
      { a with
        toWorkerAction := worker.1
        kind_finalization := a.kind_renewed worker })

/-- A failed action takes its slot and the failed state of its kind. -/
def failSlot (s : State) : ActionRecord → State
  | .planning a => { s with planningState := .planFailed, planning := some a }
  | .probe a => { s with phase := .probeFailed, probe := some a }
  | .application a => { s with phase := .applyFailed, application := some a }
  | .preparation a => { s with preparationState := .prepareFailed, preparation := some a }
  | .finalization a => { s with phase := .finalizeFailed, finalization := some a }

def failAction (s : State) (actionId : ActionId) (lifecycle : ActionLifecycle) (nowMs : Nat) :
    Result Decision :=
  match s.actionForId actionId with
  | none => noOp s
  | some a =>
    if a.lifecycle ∈ [ActionLifecycle.admitted, .dispatched, .stopping] then do
      let failed ← a.withLifecycle lifecycle
      let s ← appendTombstone s a.actionId lifecycle
      schedule (failSlot s failed) (nowMs + healthPollMs) []
    else noOp s

/-- A dirtied admission of a desktop worker is withdrawn; a probe or an application waits for
the sample which confirms or cancels it. -/
def withdrawDirtied (s : State) : ActionRecord → Result (State × List Effect)
  | .preparation a => do
    let s ← appendTombstone s a.actionId .cancelled
    discardPlanning
      { s with phase := .discoverFast, preparationState := .prepareIdle, preparation := none }
  | .finalization a => do
    let s ← appendTombstone s a.actionId .cancelled
    .ok ({ s with phase := .discoverFast, finalization := none }, [])
  | _ => .ok (s, [])

def admissionDirtied (s : State) (event : AdmissionDirtied) : Result Decision :=
  let nowMs := event.metadata.processedAtMs
  match s.actionForId event.actionId with
  | none => noOp s
  | some a =>
    if a.lifecycle ≠ .admitted ∨ event.eventGeneration ≤ s.eventGeneration then noOp s
    else do
      let (s, effects) ← withdrawDirtied (supersedeProofs s event.eventGeneration nowMs) a
      schedule s nowMs (effects ++ [.requestObservation .dirtyAdmission])

/-- The verdicts which the stop protocol may hold back. -/
inductive UncertainVerdict where
  | unknown | timedOut
  deriving DecidableEq, Repr

def UncertainVerdict.lifecycle : UncertainVerdict → ActionLifecycle
  | .unknown => .unknown
  | .timedOut => .timedOut

theorem UncertainVerdict.post_stop (v : UncertainVerdict) :
    v.lifecycle = .unknown ∨ v.lifecycle = .timedOut := by
  cases v <;> simp [lifecycle]

def stopSlot (s : State) (verdict : UncertainVerdict) : ActionRecord → State
  | .probe a =>
    { s with
      phase := .probing
      probe := some
        { a with toWorkerAction := a.stopUncertain verdict.lifecycle verdict.post_stop } }
  | .application a =>
    { s with
      phase := .applying
      application := some
        { a with toWorkerAction := a.stopUncertain verdict.lifecycle verdict.post_stop } }
  | .preparation a =>
    { s with
      phase := .discoverFast
      preparationState := .prepareStopping
      preparation := some
        { a with toWorkerAction := a.stopUncertain verdict.lifecycle verdict.post_stop }
      verifySinceMs := none }
  | .finalization a =>
    { s with
      phase := .finalizeStopping
      finalization := some
        { a with toWorkerAction := a.stopUncertain verdict.lifecycle verdict.post_stop }
      verifySinceMs := none }
  | .planning _ => s

/-- `_stop_uncertain_mutator`: exclusion is held until the supervisor confirms the stop. -/
def stopUncertainMutator (s : State) (action : ActionRecord) (verdict : UncertainVerdict)
    (nowMs : Nat) : Result Decision :=
  match action with
  | .planning a => failAction s a.actionId verdict.lifecycle nowMs
  | _ =>
    let effects := if action.lifecycle = .stopping then [] else [Effect.stopAction action.actionId]
    schedule (stopSlot s verdict action) (nowMs + 1000) effects

end MonitorController
