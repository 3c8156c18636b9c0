import MonitorController.Reducer.Classify

/-! # Observations

A fresh sample is recorded, then either withdraws what it can no longer
authorise, stops or settles a running worker, or is classified.
-/

namespace MonitorController

/-- The sample is older than the retained one or than the last reduced hint. -/
def staleObservation (s : State) (o : CanonicalObservation) : Prop :=
  ∃ prior ∈ s.latestObservation, o.observationGeneration ≤ s.observationGeneration ∨
    o.observedAtMs < prior.observedAtMs ∨ o.eventGeneration < s.eventGeneration

instance (s : State) (o : CanonicalObservation) : Decidable (staleObservation s o) :=
  inferInstanceAs (Decidable (∃ prior ∈ s.latestObservation, _))

/-- The profile evidence of a sample is trustworthy enough to dirty the desktop. -/
def canDirtyDesktop (o : CanonicalObservation) : Bool :=
  o.valid || (o.invalidityReason ≠ some .commandTimedOut && o.invalidityReason ≠ some .parseFailed)

/-- A finalized profile returned after trustworthy evidence that it was absent. -/
def finalizedProfileReturned (s : State) (o : CanonicalObservation) : Prop :=
  ∃ finalized ∈ s.desktopFinalizedProfile, canDirtyDesktop o = true ∧
    ∃ prior ∈ s.latestObservation, canDirtyDesktop prior = true ∧
      prior.physicalToken = o.physicalToken ∧ finalized ∈ o.currentProfiles ∧
      finalized ∉ prior.currentProfiles

instance (s : State) (o : CanonicalObservation) : Decidable (finalizedProfileReturned s o) :=
  inferInstanceAs (Decidable (∃ finalized ∈ s.desktopFinalizedProfile, _))

/-- The state which retains a fresh sample. External evidence, valid or not, revokes an
internal-only candidate here, at the one place observations are recorded. -/
def recordObservation (s : State) (o : CanonicalObservation) : State :=
  { s with
    latestObservation := some o
    observationGeneration := max s.observationGeneration o.observationGeneration
    eventGeneration := max s.eventGeneration o.eventGeneration
    desktopFinalizedProfile :=
      if finalizedProfileReturned s o then none else s.desktopFinalizedProfile
    candidate :=
      if o.hasExternalHardware = true ∧ internalCandidate s then none else s.candidate
    requirement := fun h => ⟨by simp [(s.requirement h).1], (s.requirement h).2⟩ }

def stopEffects (s : State) : List Effect :=
  (s.stoppingMutator.map fun w => Effect.stopAction w.actionId).toList

def withdrawProbe (s : State) : Result State :=
  match s.probe with
  | none => .ok s
  | some a =>
    if a.lifecycle = .admitted then do
      let s ← appendTombstone s a.actionId .cancelled
      .ok { s with phase := .discoverFast, probe := none }
    else .ok s

def withdrawApplication (s : State) : Result State :=
  match s.application with
  | none => .ok s
  | some a =>
    if a.lifecycle = .admitted then do
      let s ← appendTombstone s a.actionId .cancelled
      .ok { s with phase := .discoverFast, application := none }
    else .ok s

/-- An admitted preparation is withdrawn together with its plan. -/
def withdrawPreparation (s : State) : Result (State × List Effect) :=
  match s.preparation with
  | none => .ok (s, [])
  | some a =>
    if a.lifecycle = .admitted then do
      let s ← appendTombstone s a.actionId .cancelled
      discardPlanning
        { s with phase := .discoverFast, preparationState := .prepareIdle, preparation := none }
    else .ok (s, [])

def withdrawFinalization (s : State) : Result State :=
  match s.finalization with
  | none => .ok s
  | some a =>
    if a.lifecycle = .admitted then do
      let s ← appendTombstone s a.actionId .cancelled
      .ok { s with phase := .discoverFast, finalization := none }
    else .ok s

/-- The phases an invalid sample leaves alone: a worker runs or has failed. -/
def retainedByInvalid : ControllerPhase → Bool
  | .probing | .probeFailed | .applying | .applyFailed | .finalizing | .finalizeStopping
  | .finalizeFailed => true
  | _ => false

def revokeProofs (s : State) (o : CanonicalObservation) : State :=
  { s with
    externalIntent := s.externalIntent || o.hasExternalHardware
    candidate :=
      if o.hasExternalHardware = true ∧ internalCandidate s then none else s.candidate
    unplugProof := none
    verifySinceMs := none }

/-- External evidence meets an internal-only application which may be running. -/
def internalApplicationRuns (o : CanonicalObservation) (a : ApplicationAction)
    (lifecycles : List ActionLifecycle) : Prop :=
  o.hasExternalHardware = true ∧ a.scope = .internalOnly ∧ a.lifecycle ∈ lifecycles

instance (o : CanonicalObservation) (a : ApplicationAction) (lifecycles : List ActionLifecycle) :
    Decidable (internalApplicationRuns o a lifecycles) :=
  inferInstanceAs (Decidable (_ ∧ _))

/-- An invalid sample which finds no internal-only application to stop. -/
def settleInvalid (s : State) (nowMs : Nat) (invalidEffects : List Effect) : Result Decision :=
  let s : State := if retainedByInvalid s.phase then s else { s with phase := .discoverFast }
  schedule s (nowMs + 1000) (invalidEffects ++ stopEffects s)

/-- The invalid branch of `_observe`. -/
def observeInvalid (s : State) (o : CanonicalObservation) : Result Decision := do
  let s := revokeProofs s o
  let s ← withdrawProbe s
  let s ← withdrawApplication s
  let (s, invalidEffects) ← withdrawPreparation s
  let s ← withdrawFinalization s
  match s.application with
  | some a =>
    if internalApplicationRuns o a [.dispatched, .stopping] then
      let action := { a with toWorkerAction := a.stop }
      schedule { s with application := some action } (o.observedAtMs + 1000)
        (invalidEffects ++ [.stopAction action.actionId])
    else settleInvalid s o.observedAtMs invalidEffects
  | none => settleInvalid s o.observedAtMs invalidEffects

def stopChangedProbe (s : State) (nowMs : Nat) : Option (Result Decision) :=
  match s.phase, s.probe with
  | .probing, some a =>
    if a.lifecycle = .dispatched then
      some <| schedule { s with probe := some { a with toWorkerAction := a.stop } } (nowMs + 1000)
        [.stopAction a.actionId]
    else none
  | _, _ => none

def stopChangedApplication (s : State) (nowMs : Nat) : Option (Result Decision) :=
  match s.phase, s.application with
  | .applying, some a =>
    if a.lifecycle = .dispatched then
      some <| schedule { s with application := some { a with toWorkerAction := a.stop } }
        (nowMs + 1000) [.stopAction a.actionId]
    else none
  | _, _ => none

/-- The result of a finalization is refused by the sample which should confirm it. -/
def failFinalizationResult (s : State) (a : FinalizationAction) : Result State := do
  let worker ← a.withLifecycle .failed
  let s ← appendTombstone s a.actionId .failed
  .ok { s with
    phase := .finalizeFailed
    finalization := some
      { a with
        toWorkerAction := worker.1
        kind_finalization := (congrArg ActionId.kind worker.2).trans a.kind_finalization } }

/-- A running finalization is stopped, or its result refused, by a new topology. -/
def stopChangedFinalization (s : State) (nowMs : Nat) : Option (Result Decision) :=
  match s.phase, s.finalization with
  | .finalizing, some a =>
    if a.lifecycle = .resultPending then
      some do
        let s ← failFinalizationResult s a
        schedule { s with verifySinceMs := none } (nowMs + healthPollMs) []
    else
      some <| schedule
        { s with
          phase := .finalizeStopping
          finalization := some { a with toWorkerAction := a.stop }
          verifySinceMs := none }
        (nowMs + 1000) [.stopAction a.actionId]
  | _, _ => none

def stopPreparation (s : State) (a : PreparationAction) : State :=
  { s with
    phase := .discoverFast
    preparationState := .prepareStopping
    preparation := some { a with toWorkerAction := a.stop }
    verifySinceMs := none }

def stopChangedPreparation (s : State) (nowMs : Nat) : Option (Result Decision) :=
  match s.preparationState, s.preparation with
  | .preparing, some a =>
    some <| schedule (stopPreparation s a) (nowMs + 1000) [.stopAction a.actionId]
  | _, _ => none

def stopChanged (s : State) (nowMs : Nat) : Option (Result Decision) :=
  stopChangedProbe s nowMs <|> stopChangedApplication s nowMs <|>
    stopChangedFinalization s nowMs <|> stopChangedPreparation s nowMs

/-- New evidence leaves slow waiting for a fresh aggressive budget. -/
def leaveSlowWait (s : State) (prior : Option CanonicalObservation) (o : CanonicalObservation) :
    State :=
  if s.phase = .waitSlow ∧ ∃ p ∈ prior, p.observationKey ≠ o.observationKey then
    { s with
      phase := .discoverFast
      aggressiveDeadlineMs := some (o.observedAtMs + aggressiveBudgetMs)
      backoffIndex := 0 }
  else s

/-- A sample while a finalization runs or awaits confirmation. -/
def observeFinalizing (s : State) (o : CanonicalObservation) (a : FinalizationAction)
    (epochEffects : List Effect) : Result Decision :=
  let nowMs := o.observedAtMs
  if a.lifecycle = .resultPending then
    if sameExactFinalization s o then do
      let s ← appendTombstone s a.actionId .completed
      let (s, discardEffects) ← discardPlanning s
      let s := resetApplicationRecovery s a.profile
      quiesce
        { s with
          stableXProfile := some a.profile
          desktopFinalizedProfile := some a.profile
          desktopFinalizationRequired := false
          finalization := none
          requirement := by simp }
        (epochEffects ++ discardEffects)
    else do
      let s ← failFinalizationResult s a
      schedule s (nowMs + healthPollMs) epochEffects
  else if sameExactFinalization s o then schedule s (nowMs + 1000) epochEffects
  else
    schedule
      { s with
        phase := .finalizeStopping
        finalization := some { a with toWorkerAction := a.stop }
        verifySinceMs := none }
      (nowMs + 1000) (epochEffects ++ [.stopAction a.actionId])

/-- The preparation with a terminal verdict on its pending result. -/
def PreparationAction.conclude (a : PreparationAction) (lifecycle : ActionLifecycle) :
    Result PreparationAction := do
  let worker ← a.withLifecycle lifecycle
  .ok { a with
    toWorkerAction := worker.1
    kind_preparation := (congrArg ActionId.kind worker.2).trans a.kind_preparation }

def keepProof (s : State) (nowMs : Nat) : Option Nat :=
  match s.verifySinceMs with
  | none => some nowMs
  | some since => some since

/-- A sample while a preparation runs or awaits confirmation. A confirmed result goes on to
classification; everything else is decided here. -/
def observePreparing (s : State) (o : CanonicalObservation) (a : PreparationAction)
    (epochEffects : List Effect) : Result (State ⊕ Decision) :=
  let nowMs := o.observedAtMs
  let evidence := preparationObservationStatus s o a
  if evidence = some .identityUncertain then
    .inr <$> schedule { s with phase := .discoverFast, verifySinceMs := none }
      (nowMs + 1000) epochEffects
  else if a.lifecycle = .resultPending then
    if evidence = some .exact then do
      let a ← a.conclude .completed
      let s ← appendTombstone s a.actionId .completed
      .ok <| .inl { s with
        phase := .verifying
        verifySinceMs := keepProof s nowMs
        preparationState := .prepared
        preparation := some a }
    else do
      let a ← a.conclude .failed
      let s ← appendTombstone s a.actionId .failed
      .inr <$> schedule
        { s with
          preparationState := .prepareFailed
          preparation := some a
          verifySinceMs := none }
        (nowMs + healthPollMs) epochEffects
  else if evidence ≠ some .exact then
    .inr <$> schedule (stopPreparation s a) (nowMs + 1000)
      (epochEffects ++ [.stopAction a.actionId])
  else
    .inr <$> schedule { s with phase := .verifying, verifySinceMs := keepProof s nowMs }
      (nowMs + 1000) epochEffects

/-- The last part of `_observe`: a classification behind any epoch effects. -/
def classifyBehind (s : State) (o : CanonicalObservation) (epochEffects : List Effect) :
    Result Decision := do
  let d ← classifyObservation classificationDepth s o
  if epochEffects = [] then .ok d else decision d.state (epochEffects ++ d.effects)

/-- The part of `_observe` which a running worker may still keep from classification. -/
def observeCurrent (s : State) (o : CanonicalObservation) (epochEffects : List Effect) :
    Result Decision :=
  let nowMs := o.observedAtMs
  if s.phase = .probing ∧ s.probe ≠ none then schedule s (nowMs + 1000) epochEffects
  else if s.phase = .applying ∧ s.application ≠ none then schedule s (nowMs + 1000) epochEffects
  else
    match s.phase, s.finalization, s.preparationState, s.preparation with
    | .finalizing, some a, _, _ => observeFinalizing s o a epochEffects
    | _, _, .preparing, some a => do
      match ← observePreparing s o a epochEffects with
      | .inl s => classifyBehind s o epochEffects
      | .inr d => .ok d
    | _, _, _, _ => classifyBehind s o epochEffects

/-- The valid branch of `_observe`, after no worker had to be stopped for its scope. -/
def observeUnstopped (s : State) (prior : Option CanonicalObservation)
    (o : CanonicalObservation) : Result Decision :=
  let nowMs := o.observedAtMs
  -- Stopping is a display-mutation exclusion which no observation may erase.
  match s.stoppingMutator with
  | some stopping => schedule s (nowMs + 1000) [.stopAction stopping.actionId]
  | none =>
    if s.physicalToken ≠ some o.physicalToken then
      match stopChanged s nowMs with
      | some stopped => stopped
      | none => do
        let (s, epochEffects) ← resetForEpoch s o nowMs
        observeCurrent s o epochEffects
    else observeCurrent (leaveSlowWait s prior o) o []

/-- The valid branch of `_observe`. -/
def observeValid (s : State) (prior : Option CanonicalObservation) (o : CanonicalObservation) :
    Result Decision :=
  match s.application with
  | some a =>
    if internalApplicationRuns o a [.dispatched] then
      let action := { a with toWorkerAction := a.stop }
      schedule
        { s with
          phase := .applying
          application := some action
          candidate := none
          verifySinceMs := none }
        (o.observedAtMs + 1000) [.stopAction action.actionId]
    else observeUnstopped s prior o
  | none => observeUnstopped s prior o

def observe (s : State) (event : ObservationCompleted) : Result Decision :=
  let o := event.observation
  if staleObservation s o then noOp s
  else
    let recorded := recordObservation s o
    if o.valid then observeValid recorded s.latestObservation o else observeInvalid recorded o

end MonitorController
