import MonitorController.Foundation.Outcome
import MonitorController.Values.Event

/-! # Central fail-closed invariants

The checks every reducer entry and exit makes, with their messages.
-/

namespace MonitorController

/-- `PROFILE_STABILITY_MS`: shared by the reducer and the finalize worker's proof check. -/
def profileStabilityMs : Nat := 4000

def preparationStabilityMs : Nat := 2000

def require (condition : Prop) [Decidable condition] (message : String) : Result PUnit :=
  if condition then .ok ⟨⟩ else .error (.invariant message)

@[simp] theorem require_eq_ok {condition : Prop} [Decidable condition] {message : String} :
    require condition message = .ok ⟨⟩ ↔ condition := by
  unfold require
  split <;> simp_all

def inFlightLifecycles : List ActionLifecycle := [.dispatched, .stopping, .resultPending]

def failedLifecycles : List ActionLifecycle := [.failed, .unknown, .timedOut]

def expectedProbeLifecycles : ControllerPhase → Option (List ActionLifecycle)
  | .probePending => some [.admitted]
  | .probing => some inFlightLifecycles
  | .probeFailed => some failedLifecycles
  | _ => none

def expectedApplicationLifecycles : ControllerPhase → Option (List ActionLifecycle)
  | .applyPending => some [.admitted]
  | .applying => some inFlightLifecycles
  | .applyFailed => some failedLifecycles
  | _ => none

def expectedFinalizationLifecycles : ControllerPhase → Option (List ActionLifecycle)
  | .finalizePending => some [.admitted]
  | .finalizing => some [.dispatched, .resultPending]
  | .finalizeStopping => some [.stopping]
  | .finalizeFailed => some failedLifecycles
  | _ => none

def expectedPlanning : PlanningState → Option (List ActionLifecycle)
  | .planPending => some [.admitted]
  | .planning => some [.dispatched]
  | .planReady => some [.completed]
  | .planFailed => some failedLifecycles
  | .planIdle => none

def expectedPreparation : PreparationState → Option (List ActionLifecycle)
  | .preparePending => some [.admitted]
  | .preparing => some [.dispatched, .resultPending]
  | .prepared => some [.completed]
  | .prepareStopping => some [.stopping]
  | .prepareFailed => some failedLifecycles
  | .prepareIdle => none

/-- A slot is occupied exactly in its own phases, in one of their lifecycles. -/
def checkSlot (action : Option ActionLifecycle) (expected : Option (List ActionLifecycle))
    (unexpected missing mismatch : String) : Result PUnit :=
  match expected with
  | none => require (action = none) unexpected
  | some lifecycles => do
    require (action ≠ none) missing
    require (∃ l ∈ action, l ∈ lifecycles) mismatch

def checkPhaseRelationships (s : State) : Result PUnit :=
  if s.phase = .recovering then .ok ⟨⟩
  else do
    checkSlot (s.probe.map (·.lifecycle)) (expectedProbeLifecycles s.phase)
      "probe identity requires its matching phase"
      "probe phase requires a persisted identity"
      "probe lifecycle does not match controller phase"
    checkSlot (s.application.map (·.lifecycle)) (expectedApplicationLifecycles s.phase)
      "application identity requires its matching phase"
      "application phase requires a persisted identity"
      "application lifecycle does not match controller phase"
    checkSlot (s.finalization.map (·.lifecycle)) (expectedFinalizationLifecycles s.phase)
      "finalization identity requires its matching phase"
      "finalization phase requires a persisted identity"
      "finalization lifecycle does not match controller phase"

def checkPlanningRelationships (s : State) : Result PUnit :=
  if s.phase = .recovering then .ok ⟨⟩
  else do
    checkSlot (s.planning.map (·.lifecycle)) (expectedPlanning s.planningState)
      "idle planning state cannot retain an action"
      "non-idle planning state requires a persisted planning identity"
      "planning lifecycle does not match planning state"
    require (s.planningState = .planReady → ∃ p ∈ s.planning, p.planHash ≠ none)
      "ready planning state requires a staged plan hash"
    checkSlot (s.preparation.map (·.lifecycle)) (expectedPreparation s.preparationState)
      "idle preparation state cannot retain an action"
      "non-idle preparation state requires a persisted identity"
      "preparation lifecycle does not match preparation state"
    require (∀ _a ∈ s.preparation, s.planning ≠ none ∧ s.planningState = .planReady)
      "preparation requires a ready persisted plan"
    require (∀ a ∈ s.preparation, ∃ p ∈ s.planning, some a.planHash = p.planHash)
      "preparation must use the currently completed plan hash"
    require (∀ a ∈ s.preparation, ∃ p ∈ s.planning,
        a.transitionId = p.transitionId ∧ a.profile = p.profile)
      "preparation and planning transition identities must match"
    require (s.baselineAdoption = true →
        s.planningState = .planIdle ∧ s.preparationState = .prepareIdle)
      "startup baseline adoption forbids planning and preparation"

/-- `_check_action_id`: only the current instance's identities are below its mark. -/
def checkActionId (s : State) (actionId : ActionId) : Result PUnit :=
  require (actionId.controllerInstance = s.controllerInstance →
      actionId.sequence ≤ s.actionSequenceHighWater)
    "current-instance action ID exceeds its sequence high-water mark"

def checkTransitionId (s : State) (transitionId : TransitionId) : Result PUnit :=
  require (transitionId.controllerInstance = s.controllerInstance →
      transitionId.sequence ≤ s.transitionSequenceHighWater)
    "current-instance transition ID exceeds its sequence high-water mark"

def State.epitaph (s : State) (actionId : ActionId) : Option ActionLifecycle :=
  (s.actionTombstones.find? (·.actionId = actionId)).map (·.lifecycle)

def checkTombstone (s : State) (action : ActionRecord) : Result PUnit := do
  require (action.lifecycle.terminal = true →
      s.epitaph action.actionId = some action.lifecycle)
    "retained terminal action requires a matching terminal tombstone"
  require (∀ l ∈ s.epitaph action.actionId,
      action.lifecycle.terminal = true ∧ l = action.lifecycle)
    "retained action and tombstone lifecycles must match"

/-- A possibly-live recovery worker is represented by its exact exclusion. -/
def checkRecoveryUnit (s : State) (unit : WorkerUnit) : Result PUnit :=
  require (∃ a ∈ s.actionForId unit.actionId, ∃ w ∈ a.worker?,
      (w.lifecycle = .dispatched ∨ w.lifecycle = .stopping) ∧ w.unit = some unit)
    "possibly-live recovery worker requires its matching exclusion"

def State.transitions (s : State) : List TransitionId :=
  (s.planning.map (·.transitionId)).toList ++ (s.preparation.map (·.transitionId)).toList ++
    (s.finalization.map (·.transitionId)).toList

def checkActionIdentities (s : State) : Result PUnit := do
  let actionIds : List ActionId := s.actions.map (·.actionId)
  let tombstoneIds : List ActionId := s.actionTombstones.map (·.actionId)
  let unitIds : List ActionId := s.recoveryUnits.map (·.actionId)
  require actionIds.Nodup "active action IDs must be unique"
  forM actionIds (checkActionId s)
  require tombstoneIds.Nodup "action tombstone IDs must be unique"
  forM tombstoneIds (checkActionId s)
  forM s.actions (checkTombstone s)
  require unitIds.Nodup "recovery worker unit action IDs must be unique"
  forM unitIds (checkActionId s)
  require (∀ i ∈ unitIds, i ∉ tombstoneIds)
    "possibly-live recovery worker cannot have terminal evidence"
  if s.phase ≠ .recovering then forM s.recoveryUnits (checkRecoveryUnit s)
  forM s.transitions (checkTransitionId s)

def checkAcknowledged (unitMessage deadlineMessage : String) (w : WorkerAction) : Result PUnit := do
  require (w.lifecycle.mutatingInFlight = true → w.unit ≠ none) unitMessage
  require (w.lifecycle.mutatingInFlight = true → w.workerDeadlineMs ≠ none) deadlineMessage

def checkWorkerAcknowledgements (s : State) : Result PUnit := do
  require ((s.mutators.filter (·.lifecycle.mutatingInFlight)).length ≤ 1)
    "more than one display mutation is acknowledged in flight"
  forM s.mutators (checkAcknowledged "acknowledged worker must retain its unit identity"
    "acknowledged worker must retain its absolute deadline")

/-- The phases in which an unresolved external topology needs a wake. -/
def unresolvedPhase : ControllerPhase → Bool
  | .discoverFast | .waitSlow | .probeFailed | .applyFailed => true
  | _ => false

def checkObservationAuthority (s : State) : Result PUnit :=
  match s.latestObservation with
  | none => .ok ⟨⟩
  | some o => do
    require (o.bootId = s.bootId) "latest observation belongs to another boot"
    require (o.observationGeneration ≤ s.observationGeneration)
      "state observation generation precedes its latest observation"
    require (o.endEventGeneration ≤ s.eventGeneration)
      "observation event generation exceeds the controller event generation"
    require (∀ c ∈ s.candidate, c.mapping.physicalEpoch = s.physicalEpoch)
      "candidate mapping proof belongs to another physical epoch"
    require (∀ c ∈ s.candidate, ¬ (o.hasExternalHardware = true ∧ c.scope = .internalOnly))
      "internal-only candidate is forbidden by external hardware evidence"
    require (o.valid = true ∧ o.hasExternalHardware = true ∧ o.exactProfile = none ∧
        unresolvedPhase s.phase = true → s.nextTimerMs ≠ none)
      "unresolved external topology requires a future observation timer"

def checkApplicationAuthorization (s : State) (a : ApplicationAction) : Result PUnit := do
  require (a.admittedEventGeneration ≤ s.eventGeneration)
    "application admission comes from a future event generation"
  require (∀ o ∈ s.latestObservation, ¬ (o.hasExternalHardware = true ∧ a.scope = .internalOnly))
    "internal-only application is forbidden by external hardware evidence"
  if s.phase = .applyPending ∧ a.admittedEventGeneration = s.eventGeneration then do
    require (∃ o ∈ s.latestObservation, o.valid = true ∧ o.observationKey = a.key.observationKey ∧
        o.endEventGeneration = a.admittedEventGeneration)
      "fresh application admission requires matching valid evidence"
    require (a.mapping.physicalEpoch = s.physicalEpoch ∧ a.key.physicalEpoch = s.physicalEpoch)
      "application admission belongs to another physical epoch"

def checkProbeAuthorization (s : State) (a : ProbeAction) : Result PUnit := do
  require (a.admittedEventGeneration ≤ s.eventGeneration)
    "probe admission comes from a future event generation"
  if s.phase = .probePending ∧ a.admittedEventGeneration = s.eventGeneration then do
    require (∃ o ∈ s.latestObservation, o.valid = true ∧ o.observationKey = a.key.observationKey ∧
        o.endEventGeneration = a.admittedEventGeneration)
      "fresh probe admission requires matching valid evidence"
    require (a.key.physicalEpoch = s.physicalEpoch)
      "probe admission belongs to another physical epoch"
    require (∃ o ∈ s.latestObservation, ∃ c ∈ o.probeCandidate, c.profile = a.key.profile ∧
        c.output = a.output ∧ c.internalOutput = a.internalOutput ∧
        c.preferredMode = a.preferredMode)
      "probe admission must match the exact canonical candidate"

def checkPreparationAuthorization (s : State) (a : PreparationAction) : Result PUnit := do
  require (a.admittedEventGeneration ≤ s.eventGeneration)
    "preparation admission comes from a future event generation"
  if s.preparationState = .preparePending ∧ a.admittedEventGeneration = s.eventGeneration then do
    require (∃ o ∈ s.latestObservation, o.valid = true ∧ o.observationKey = a.observationKey ∧
        o.endEventGeneration = a.admittedEventGeneration ∧ o.exactProfile = some a.profile ∧
        a.profile ∈ o.currentProfiles)
      "fresh preparation admission requires exact current evidence"
    require (∃ t ∈ s.verifySinceMs, ∃ o ∈ s.latestObservation,
        t + preparationStabilityMs ≤ o.observedAtMs)
      "preparation requires two seconds of continuous proof"

def checkFinalizationAuthorization (s : State) (a : FinalizationAction) : Result PUnit := do
  require (∃ q ∈ s.preparation, s.preparationState = .prepared ∧ q.lifecycle = .completed)
    "finalization requires matching prepared desktop artifacts"
  require (∃ q ∈ s.preparation, q.transitionId = a.transitionId ∧
      q.transitionKey = a.transitionKey ∧ q.planHash = a.planHash ∧ q.profile = a.profile)
    "finalization and preparation identities must match"
  require (a.admittedEventGeneration ≤ s.eventGeneration)
    "finalization admission comes from a future event generation"
  if s.phase = .finalizePending ∧ a.admittedEventGeneration = s.eventGeneration then do
    require (∃ o ∈ s.latestObservation, o.valid = true ∧ o.observationKey = a.observationKey ∧
        o.endEventGeneration = a.admittedEventGeneration ∧ o.exactProfile = some a.profile ∧
        a.profile ∈ o.currentProfiles)
      "fresh finalization admission requires exact current evidence"
    require (∃ t ∈ s.verifySinceMs, ∃ o ∈ s.latestObservation,
        t + profileStabilityMs ≤ o.observedAtMs)
      "finalization requires full continuous stability proof"
    require (s.baselineAdoption = false)
      "startup baseline adoption cannot authorize finalization"

def checkActionAuthorization (s : State) : Result PUnit := do
  forM s.application.toList (checkApplicationAuthorization s)
  forM s.probe.toList (checkProbeAuthorization s)
  forM s.preparation.toList (checkPreparationAuthorization s)
  forM s.finalization.toList (checkFinalizationAuthorization s)

/-- `_check_numbered_safety_rules`. Attempt keys are sets, so their uniqueness holds by type. -/
def checkNumberedSafetyRules (s : State) : Result PUnit := do
  require (∀ o ∈ s.latestObservation, o.hasExternalHardware = true →
      ∀ c ∈ s.candidate, c.scope ≠ .internalOnly)
    "external hardware forbids an internal-only candidate"
  require (∀ o ∈ s.latestObservation, o.hasExternalHardware = true →
      ∀ a ∈ s.application, a.scope ≠ .internalOnly)
    "external hardware forbids an internal-only application"
  if s.probe ≠ none ∧ s.phase ≠ .recovering then do
    require (s.candidate = none) "probe cannot select a profile candidate"
    require (s.planning = none) "probe cannot authorize desktop planning"
    require (s.preparation = none ∧ s.finalization = none) "probe cannot authorize desktop mutation"
  require (∀ a ∈ s.application, a.profile = a.mapping.profile ∧ a.key.profile = a.profile)
    "application must explicitly load its selected mapped profile"
  require (s.phase = .verifying ∧ s.verifySinceMs ≠ none →
      ∃ o ∈ s.latestObservation, o.valid = true ∧ ∃ c ∈ s.candidate,
        o.exactProfile = some c.profile ∧ c.profile ∈ o.currentProfiles ∧
        o.observationKey = c.observationKey)
    "verification requires continuous exact/current matching evidence"
  forM s.mutators (checkAcknowledged "mutating worker must retain its unit"
    "mutating worker must retain its absolute deadline")
  require (∀ a ∈ s.finalization, some a.profile ≠ s.desktopFinalizedProfile)
    "already-finalized profile cannot be finalized again"
  require (s.unplugProof ≠ none → s.externalIntent = true)
    "unplug proof requires retained external intent"
  require (∀ p ∈ s.unplugProof, 1 ≤ p.observationCount)
    "unplug proof requires at least one observation"

def checkAttemptHistory (s : State) : Result PUnit := do
  require (∀ a ∈ s.probe, a.lifecycle ≠ .admitted → a.unit ≠ none → a.key ∈ s.attemptedProbeKeys)
    "acknowledged probe must retain its attempted key"
  require (∀ a ∈ s.application, a.lifecycle ≠ .admitted → a.unit ≠ none →
      a.key ∈ s.attemptedApplicationKeys)
    "acknowledged application must retain its attempted key"

def assertControllerInvariants (s : State) : Result PUnit := do
  checkPhaseRelationships s
  checkPlanningRelationships s
  checkActionIdentities s
  checkWorkerAcknowledgements s
  checkObservationAuthority s
  checkActionAuthorization s
  checkNumberedSafetyRules s
  checkAttemptHistory s

end MonitorController
