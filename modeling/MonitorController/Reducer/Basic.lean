import MonitorController.Safety.Checks

/-! # Reducer vocabulary

Decisions, identity allocation, tombstones and the derived evidence values on
which the admission and observation rules are written.
-/

namespace MonitorController

def aggressiveBudgetMs : Nat := 30000
def fastDelaysMs : List Nat := [0, 250, 500, 1000, 2000]
def slowDelaysMs : List Nat := [5000, 10000, 20000, 30000]
def eventQuietMs : Nat := 3000
def unknownStabilityMs : Nat := 10000
def unplugStabilityMs : Nat := 3000
def unplugRequiredSamples : Nat := 2
def healthPollMs : Nat := 60000
def displayAsleepPollMs : Nat := 300000
def observationFailureRetryMs : Nat := 1000

/-- `_decision`: no state leaves the reducer unchecked. -/
def decision (s : State) (effects : List Effect) : Result Decision := do
  assertControllerInvariants s
  .ok ⟨s, effects⟩

def noOp (s : State) : Result Decision := decision s []

def schedule (s : State) (deadlineMs : Nat) (effects : List Effect) : Result Decision :=
  decision { s with nextTimerMs := some deadlineMs } (effects ++ [.schedule deadlineMs])

def quiesce (s : State) (effects : List Effect) : Result Decision :=
  decision { s with phase := .quiescent, nextTimerMs := none } effects

/-- The identity which `_allocate_action` hands out. -/
def State.nextActionId (s : State) (kind : ActionKind) : ActionId :=
  ⟨s.controllerInstance, kind, s.actionSequenceHighWater + 1, Nat.succ_pos _⟩

/-- The identity which `_allocate_transition` hands out. -/
def State.nextTransitionId (s : State) : TransitionId :=
  ⟨s.controllerInstance, s.transitionSequenceHighWater + 1, Nat.succ_pos _⟩

/-- `_allocate_action`: the state after `nextActionId` is handed out. -/
def allocateAction (s : State) : State :=
  { s with actionSequenceHighWater := s.actionSequenceHighWater + 1 }

/-- `_allocate_transition`: the state after `nextTransitionId` is handed out. -/
def allocateTransition (s : State) : State :=
  { s with transitionSequenceHighWater := s.transitionSequenceHighWater + 1 }

def clearRecoveryUnit (s : State) (actionId : ActionId) : State :=
  { s with recoveryUnits := s.recoveryUnits.filter (·.actionId ≠ actionId) }

/-- The identities of retained actions, whose tombstones pruning must keep. -/
def State.retains (s : State) (actionId : ActionId) : Bool :=
  s.actions.any (·.actionId = actionId)

def appendTombstone (s : State) (actionId : ActionId) (lifecycle : ActionLifecycle) :
    Result State :=
  if h : lifecycle.terminal = true then do
    let retained := s.actionTombstones.filter (·.actionId ≠ actionId)
    let bounded ← boundActionTombstones s.retains (retained ++ [⟨actionId, lifecycle, h⟩])
    .ok { clearRecoveryUnit s actionId with actionTombstones := bounded }
  else .error (.value "action tombstone must have a terminal lifecycle")

def uniqueTarget (o : CanonicalObservation) : Option ProfileMatch :=
  match o.exactProfile with
  | some profile => o.profileMatch profile
  | none =>
    match o.eligibleProfiles with
    | [m] => some m
    | _ => none

def mappingProof (s : State) (o : CanonicalObservation) (m : ProfileMatch) : MappingProof where
  profile := m.profile
  physicalEpoch := s.physicalEpoch
  observationKey := o.observationKey
  outputs := m.mapping
  outputs_valid := m.mapping_valid

/-- `_candidate`. -/
def candidateFor (s : State) (o : CanonicalObservation) (m : ProfileMatch) :
    CandidateSelection where
  profile := m.profile
  scope := m.scope
  mapping := mappingProof s o m
  observationKey := o.observationKey
  profile_mapping := rfl
  key_mapping := rfl

/-- The attempt history without the current epoch's attempts at a profile. -/
def State.otherAttempts (s : State) (profile : Text) : Finset ApplicationAttemptKey :=
  s.attemptedApplicationKeys.filter fun key =>
    key.physicalEpoch ≠ s.physicalEpoch ∨ key.profile ≠ profile

/-- `_rearm_achieved_application`: one immediate reload after a proven profile regresses. -/
def rearmAchievedApplication (s : State) (profile : Text) : State :=
  if profile ∈ s.immediateRetryUsedProfiles then s
  else if s.otherAttempts profile = s.attemptedApplicationKeys then s
  else
    { s with
      attemptedApplicationKeys := s.otherAttempts profile
      immediateRetryUsedProfiles := insert profile s.immediateRetryUsedProfiles }

/-- `_reset_application_recovery`: a fresh bounded retry cycle after stable profile proof. -/
def resetApplicationRecovery (s : State) (profile : Text) : State :=
  { s with
    attemptedApplicationKeys := s.otherAttempts profile
    immediateRetryUsedProfiles := s.immediateRetryUsedProfiles.erase profile }

/-- How well one mapped output is identified while a preparation runs. -/
inductive OutputIdentity where
  | contradicted | uncertain | proven
  deriving DecidableEq, Repr

inductive PreparationEvidence where
  | exact | identityUncertain
  deriving DecidableEq, Repr

def outputIdentity (o : CanonicalObservation) (profile output : Text) : OutputIdentity :=
  match o.edidIntegrity.reverse.find? (·.output = output) with
  | none => if output ∈ o.kernelExternalOutputs then .contradicted else .proven
  | some evidence =>
    if evidence.integrity = .absent ∧ evidence.baseHash = none then .uncertain
    else if evidence.baseHash = none ∨ output ∉ o.baseMatches profile then .contradicted
    else if evidence.integrity ≠ .complete then .uncertain
    else .proven

/-- `_preparation_observation_status`: exact proof, admitted EDID absence, or contradiction. -/
def preparationObservationStatus (s : State) (o : CanonicalObservation) (a : PreparationAction) :
    Option PreparationEvidence :=
  match s.planning with
  | none => none
  | some planning =>
    let mappedOutputs := planning.inputKey.mapping.map (·.liveOutput)
    if planning.planHash ≠ some a.planHash then none
    else if s.physicalToken ≠ some o.physicalToken ∨
        o.kernelConnectedOutputs.toFinset ≠ mappedOutputs.toFinset ∨
        o.xConnectedOutputs.toFinset ≠ mappedOutputs.toFinset ∨
        o.xActiveOutputs.toFinset ≠ planning.inputKey.activeOutputs.toFinset ∨
        a.profile ∉ o.currentProfiles ∨
        (∃ i ∈ o.connectorIdentities, ∃ x ∈ i.xConnectorId, i.kernelConnectorId ≠ x) then none
    else if o.exactProfile = some a.profile ∧ o.observationKey = a.observationKey then some .exact
    else
      let identities := mappedOutputs.map (outputIdentity o a.profile)
      if .contradicted ∈ identities then none
      else if .uncertain ∈ identities then some .identityUncertain
      else none

theorem transitionKey_nonempty (epoch : Nat) (profile : Text) (key : ObservationKey) :
    nonempty (toString epoch ++ "|" ++ profile.value ++ "|" ++ key.value.value) = true :=
  nonempty_of_mem (c := '|') (by simp) (by decide)

def transitionKey (s : State) (profile : Text) (key : ObservationKey) : TransitionKey :=
  ⟨⟨toString s.physicalEpoch ++ "|" ++ profile.value ++ "|" ++ key.value.value,
    transitionKey_nonempty s.physicalEpoch profile key⟩⟩

/-- The configuration manifest a plan for the profile is bound to. -/
def ProfileMatch.planManifest (m : ProfileMatch) : List ConfigurationContentHash :=
  if m.planningConfigurationHashes = [] then m.configurationHashes
  else m.planningConfigurationHashes

theorem ProfileMatch.planManifest_ne_nil (m : ProfileMatch) : m.planManifest ≠ [] := by
  unfold planManifest
  split
  · exact m.hashes_nonempty
  · assumption

theorem ProfileMatch.planManifest_valid (m : ProfileMatch) : ValidHashes m.planManifest := by
  unfold planManifest
  split
  · exact m.hashes_valid
  · exact m.planning_valid ‹_›

def planningInputKey (s : State) (target : ProfileMatch) (key : ObservationKey) :
    PlanningInputKey where
  physicalEpoch := s.physicalEpoch
  profile := target.profile
  layout := target.layout
  observationKey := key
  mapping := target.mapping
  activeOutputs := target.activeOutputs
  configurationHashes := target.planManifest
  mapping_valid := target.mapping_valid
  active_valid := target.active_valid
  hashes_nonempty := target.planManifest_ne_nil
  hashes_valid := target.planManifest_valid

def clearProof (s : State) : State :=
  { s with verifySinceMs := none }

def PlanningAction.discard (p : PlanningAction) : Effect :=
  .discardPlan p.actionId p.planHash p.kind_plan

def State.withoutDesktop (s : State) : State :=
  { s with
    planningState := .planIdle
    preparationState := .prepareIdle
    planning := none
    preparation := none }

def discardPlanning (s : State) : Result (State × List Effect) :=
  match s.planning with
  | none => .ok (s.withoutDesktop, [])
  | some planning => do
    let s ←
      if planning.lifecycle.terminal then .ok s
      else appendTombstone s planning.actionId .cancelled
    .ok (s.withoutDesktop, [planning.discard])

/-- An action which was admitted but never launched gets a cancellation tombstone. -/
def cancelAdmitted (s : State) (action : Option WorkerAction) : Result State :=
  match action with
  | none => .ok s
  | some w => if w.lifecycle = .admitted then appendTombstone s w.actionId .cancelled else .ok s

def resetForEpoch (s : State) (o : CanonicalObservation) (nowMs : Nat) :
    Result (State × List Effect) := do
  let (s, discardEffects) ← discardPlanning s
  let s ← cancelAdmitted s (s.probe.map (·.toWorkerAction))
  let s ← cancelAdmitted s (s.application.map (·.toWorkerAction))
  let s ← cancelAdmitted s (s.finalization.map (·.toWorkerAction))
  let baseline := s.phase = .recovering && s.desktopFinalizedProfile = none &&
    !s.desktopFinalizationRequired
  .ok ({ s with
    phase := .discoverFast
    physicalEpoch := s.physicalEpoch + 1
    physicalToken := some o.physicalToken
    reconcileEpoch := s.reconcileEpoch + 1
    candidate := none
    aggressiveDeadlineMs := some (nowMs + aggressiveBudgetMs)
    backoffIndex := 0
    verifySinceMs := none
    stableXProfile := none
    attemptedProbeKeys := ∅
    probe := none
    attemptedApplicationKeys := ∅
    immediateRetryUsedProfiles := ∅
    application := none
    finalization := none
    unknownKey := none
    unknownSinceMs := none
    unplugProof := none
    baselineAdoption := baseline
    requirement := fun h => ⟨(s.requirement h).1, by simp [baseline, h]⟩ }, discardEffects)

end MonitorController
