import MonitorController.Values.Action
import MonitorController.Values.Observation

/-! # Controller state

The complete immutable reducer state. A desktop which still requires
finalization can neither retain a completed proof nor be adopted as baseline.
-/

namespace MonitorController

/-- Complete immutable reducer state and recovery identity. -/
structure State where
  bootId : BootId
  controllerInstance : ControllerInstanceId
  displayIdentity : DisplayIdentity
  graphicalSessionId : Option GraphicalSessionId := none
  latestObservation : Option CanonicalObservation := none
  phase : ControllerPhase := .recovering
  planningState : PlanningState := .planIdle
  preparationState : PreparationState := .prepareIdle
  physicalEpoch : Nat := 0
  physicalToken : Option PhysicalToken := none
  reconcileEpoch : Nat := 0
  candidate : Option CandidateSelection := none
  aggressiveDeadlineMs : Option Nat := none
  nextTimerMs : Option Nat := none
  backoffIndex : Nat := 0
  verifySinceMs : Option Nat := none
  lastDrmAtMs : Option Nat := none
  stableXProfile : Option Text := none
  desktopFinalizedProfile : Option Text := none
  desktopFinalizationRequired : Bool := false
  externalIntent : Bool := false
  baselineAdoption : Bool := false
  attemptedProbeKeys : Finset ProbeAttemptKey := ∅
  probe : Option ProbeAction := none
  attemptedApplicationKeys : Finset ApplicationAttemptKey := ∅
  immediateRetryUsedProfiles : Finset Text := ∅
  application : Option ApplicationAction := none
  planning : Option PlanningAction := none
  preparation : Option PreparationAction := none
  finalization : Option FinalizationAction := none
  unknownKey : Option ObservationKey := none
  unknownSinceMs : Option Nat := none
  unplugProof : Option UnplugProof := none
  observationGeneration : ObservationGeneration := 0
  eventGeneration : EventGeneration := 0
  actionSequenceHighWater : Nat := 0
  transitionSequenceHighWater : Nat := 0
  actionTombstones : List ActionTombstone := []
  recoveryUnits : List WorkerUnit := []
  requirement : desktopFinalizationRequired = true →
    desktopFinalizedProfile = none ∧ baselineAdoption = false := by simp

namespace State

theorem requirement_blank : true = true → (none : Option Text) = none ∧ false = false :=
  fun _ => ⟨rfl, rfl⟩

def initial (bootId : BootId) (controllerInstance : ControllerInstanceId)
    (displayIdentity : DisplayIdentity) (graphicalSessionId : Option GraphicalSessionId) : State where
  bootId := bootId
  controllerInstance := controllerInstance
  displayIdentity := displayIdentity
  graphicalSessionId := graphicalSessionId

variable (s : State)

/-- `_actions`: the occupied action slots in their fixed order. -/
def actions : List ActionRecord :=
  (s.probe.map .probe).toList ++ (s.application.map .application).toList ++
    (s.planning.map .planning).toList ++ (s.preparation.map .preparation).toList ++
    (s.finalization.map .finalization).toList

def mutators : List WorkerAction :=
  (s.probe.map (·.toWorkerAction)).toList ++ (s.application.map (·.toWorkerAction)).toList ++
    (s.preparation.map (·.toWorkerAction)).toList ++
    (s.finalization.map (·.toWorkerAction)).toList

def actionForId (actionId : ActionId) : Option ActionRecord :=
  s.actions.find? (·.actionId = actionId)

def stoppingMutator : Option WorkerAction :=
  s.mutators.find? (·.lifecycle = .stopping)

end State

end MonitorController
