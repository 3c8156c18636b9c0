import MonitorController.Values.State

/-! # Events, effects and decisions

The closed union of reducer inputs, each with the checks of its constructor,
and the symbolic outputs. Adapters, never these values, perform I/O.
-/

namespace MonitorController

/-- Shared processing context carried by every reducer event. -/
structure EventMetadata where
  processedAtMs : Nat
  bootId : BootId
  deriving DecidableEq

structure ObservationCompleted where
  metadata : EventMetadata
  observation : CanonicalObservation
  same_boot : observation.bootId = metadata.bootId

structure ObservationFailed where
  metadata : EventMetadata
  reason : Text

structure PlanRequested where
  metadata : EventMetadata
  actionId : ActionId
  inputKey : PlanningInputKey
  kind_plan : actionId.kind = .plan

structure PlanCompleted where
  metadata : EventMetadata
  actionId : ActionId
  inputKey : PlanningInputKey
  planHash : PlanHash
  kind_plan : actionId.kind = .plan

structure PlanFailed where
  metadata : EventMetadata
  actionId : ActionId
  inputKey : PlanningInputKey
  reason : Text
  exitStatus : Option Int := none
  retryable : Bool := false
  kind_plan : actionId.kind = .plan

structure TimerFired where
  metadata : EventMetadata
  deadlineMs : Nat

structure DrmHintReceived where
  metadata : EventMetadata
  eventGeneration : EventGeneration

structure AdmissionDirtied where
  metadata : EventMetadata
  actionId : ActionId
  eventGeneration : EventGeneration

/-- The supervisor accepted a keyed worker of one kind. -/
structure WorkerDispatched (kind : ActionKind) where
  metadata : EventMetadata
  actionId : ActionId
  unit : WorkerUnit
  kind_eq : actionId.kind = kind
  unit_eq : unit.actionId = actionId

/-- A keyed worker of one kind reached a terminal result. -/
structure WorkerFinished (kind : ActionKind) where
  metadata : EventMetadata
  actionId : ActionId
  outcome : WorkerOutcome
  exitStatus : Option Int
  kind_eq : actionId.kind = kind

abbrev ProbeDispatched := WorkerDispatched .probe
abbrev ProbeFinished := WorkerFinished .probe
abbrev ApplicationDispatched := WorkerDispatched .application
abbrev ApplicationFinished := WorkerFinished .application
abbrev PreparationDispatched := WorkerDispatched .preparation
abbrev FinalizationDispatched := WorkerDispatched .finalization
abbrev FinalizationFinished := WorkerFinished .finalization

structure PreparationFinished extends WorkerFinished .preparation where
  planHash : PlanHash

structure DispatchRejected where
  metadata : EventMetadata
  actionId : ActionId
  reason : Text

structure WorkerStatusUnknown where
  metadata : EventMetadata
  actionId : ActionId
  reason : Text

structure WorkerTimedOut where
  metadata : EventMetadata
  actionId : ActionId
  deadlineMs : Nat
  managerConfirmed : Bool := false
  due : managerConfirmed = false → deadlineMs ≤ metadata.processedAtMs

/-- Manager inactivity and the exact terminal transaction result agree. -/
structure WorkerCancellationAcknowledged where
  metadata : EventMetadata
  actionId : ActionId
  terminalLifecycle : ActionLifecycle
  exitStatus : Nat
  terminal : terminalLifecycle.terminal = true
  status_bound : exitStatus ≤ 255
  status_completed : terminalLifecycle = .completed ↔ exitStatus = 0

structure ControllerStarted where
  metadata : EventMetadata
  controllerInstance : ControllerInstanceId

structure BootChanged where
  metadata : EventMetadata
  previousBootId : BootId
  distinct : previousBootId ≠ metadata.bootId

/-- The closed union of reducer inputs. -/
inductive Event where
  | observationCompleted (e : ObservationCompleted)
  | observationFailed (e : ObservationFailed)
  | planRequested (e : PlanRequested)
  | planCompleted (e : PlanCompleted)
  | planFailed (e : PlanFailed)
  | timerFired (e : TimerFired)
  | drmHintReceived (e : DrmHintReceived)
  | admissionDirtied (e : AdmissionDirtied)
  | probeDispatched (e : ProbeDispatched)
  | probeFinished (e : ProbeFinished)
  | applicationDispatched (e : ApplicationDispatched)
  | applicationFinished (e : ApplicationFinished)
  | preparationDispatched (e : PreparationDispatched)
  | preparationFinished (e : PreparationFinished)
  | finalizationDispatched (e : FinalizationDispatched)
  | finalizationFinished (e : FinalizationFinished)
  | dispatchRejected (e : DispatchRejected)
  | workerStatusUnknown (e : WorkerStatusUnknown)
  | workerTimedOut (e : WorkerTimedOut)
  | workerCancellationAcknowledged (e : WorkerCancellationAcknowledged)
  | controllerStarted (e : ControllerStarted)
  | bootChanged (e : BootChanged)

def Event.metadata : Event → EventMetadata
  | .observationCompleted e => e.metadata
  | .observationFailed e => e.metadata
  | .planRequested e => e.metadata
  | .planCompleted e => e.metadata
  | .planFailed e => e.metadata
  | .timerFired e => e.metadata
  | .drmHintReceived e => e.metadata
  | .admissionDirtied e => e.metadata
  | .probeDispatched e => e.metadata
  | .probeFinished e => e.metadata
  | .applicationDispatched e => e.metadata
  | .applicationFinished e => e.metadata
  | .preparationDispatched e => e.metadata
  | .preparationFinished e => e.metadata
  | .finalizationDispatched e => e.metadata
  | .finalizationFinished e => e.metadata
  | .dispatchRejected e => e.metadata
  | .workerStatusUnknown e => e.metadata
  | .workerTimedOut e => e.metadata
  | .workerCancellationAcknowledged e => e.metadata
  | .controllerStarted e => e.metadata
  | .bootChanged e => e.metadata

/-- Compute and stage a pure desktop plan. -/
structure RequestPlan where
  actionId : ActionId
  transitionId : TransitionId
  inputKey : PlanningInputKey
  profile : Text
  kind_plan : actionId.kind = .plan
  deriving DecidableEq

/-- Activate only one admitted preferred mode on one external output. -/
structure ActivateProbe where
  actionId : ActionId
  key : ProbeAttemptKey
  output : Text
  internalOutput : Text
  preferredMode : Text
  admittedEventGeneration : EventGeneration
  observationKey : ObservationKey
  kind_probe : actionId.kind = .probe
  deriving DecidableEq

/-- Explicitly apply one immutable remapped autorandr profile. -/
structure ApplyProfile where
  actionId : ActionId
  key : ApplicationAttemptKey
  profile : Text
  mapping : MappingProof
  admittedEventGeneration : EventGeneration
  observationKey : ObservationKey
  kind_application : actionId.kind = .application
  profile_key : key.profile = profile
  profile_mapping : mapping.profile = profile
  deriving DecidableEq

/-- Apply repeatable desktop preparation from an immutable plan. -/
structure PrepareDesktop where
  actionId : ActionId
  transitionId : TransitionId
  transitionKey : TransitionKey
  profile : Text
  planHash : PlanHash
  admittedEventGeneration : EventGeneration
  observationKey : ObservationKey
  kind_preparation : actionId.kind = .preparation
  deriving DecidableEq

/-- Commit disruptive desktop work from the matching prepared plan. -/
structure FinalizeDesktop where
  actionId : ActionId
  transitionId : TransitionId
  transitionKey : TransitionKey
  profile : Text
  planHash : PlanHash
  admittedEventGeneration : EventGeneration
  observationKey : ObservationKey
  kind_finalization : actionId.kind = .finalization
  deriving DecidableEq

/-- The symbolic reducer outputs. -/
inductive Effect where
  | requestObservation (reason : WakeReason)
  | schedule (deadlineMs : Nat)
  | requestPlan (effect : RequestPlan)
  | activateProbe (effect : ActivateProbe)
  | applyProfile (effect : ApplyProfile)
  | prepareDesktop (effect : PrepareDesktop)
  | finalizeDesktop (effect : FinalizeDesktop)
  | stopAction (actionId : ActionId)
  | discardPlan (actionId : ActionId) (planHash : Option PlanHash) (kind_plan : actionId.kind = .plan)
  deriving DecidableEq

/-- Pure reducer result. -/
structure Decision where
  state : State
  effects : List Effect := []

end MonitorController
