import MonitorController.Reducer.Basic

/-! # Admission rules

Waiting with bounded backoff, and the admission of probes, applications, plans,
preparations and finalizations from one classified sample.
-/

namespace MonitorController

def enterWait (s : State) (nowMs : Nat) : Result Decision :=
  let s := clearProof s
  let (s, deadline) :=
    match s.aggressiveDeadlineMs with
    | some deadline => (s, deadline)
    | none =>
      let deadline := nowMs + aggressiveBudgetMs
      ({ s with aggressiveDeadlineMs := some deadline, backoffIndex := 0 }, deadline)
  if nowMs < deadline then
    let index := if s.phase = .discoverFast then s.backoffIndex else 0
    let index := min index (fastDelaysMs.length - 1)
    let delay := min (fastDelaysMs.getD index 0) (deadline - nowMs)
    schedule
      { s with phase := .discoverFast, backoffIndex := min (index + 1) (fastDelaysMs.length - 1) }
      (nowMs + delay) []
  else
    let index := if s.phase = .waitSlow then s.backoffIndex else 0
    let index := min index (slowDelaysMs.length - 1)
    let delay := slowDelaysMs.getD index 0
    schedule
      { s with phase := .waitSlow, backoffIndex := min (index + 1) (slowDelaysMs.length - 1) }
      (nowMs + delay) []

/-- `_defer_while_asleep`: hold new display work while the user has blanked the screens. -/
def deferWhileAsleep (s : State) (nowMs : Nat) : Result Decision :=
  schedule { clearProof s with phase := .waitSlow } (nowMs + displayAsleepPollMs) []

def ProbeAction.activate (a : ProbeAction) (key : ObservationKey) : Effect :=
  .activateProbe
    { actionId := a.actionId
      key := a.key
      output := a.output
      internalOutput := a.internalOutput
      preferredMode := a.preferredMode
      admittedEventGeneration := a.admittedEventGeneration
      observationKey := key
      kind_probe := a.kind_probe }

def ApplicationAction.apply (a : ApplicationAction) (key : ObservationKey) : Effect :=
  .applyProfile
    { actionId := a.actionId
      key := a.key
      profile := a.profile
      mapping := a.mapping
      admittedEventGeneration := a.admittedEventGeneration
      observationKey := key
      kind_application := a.kind_application
      profile_key := a.profile_key
      profile_mapping := a.profile_mapping }

def PreparationAction.prepare (a : PreparationAction) (key : ObservationKey) : Effect :=
  .prepareDesktop
    { actionId := a.actionId
      transitionId := a.transitionId
      transitionKey := a.transitionKey
      profile := a.profile
      planHash := a.planHash
      admittedEventGeneration := a.admittedEventGeneration
      observationKey := key
      kind_preparation := a.kind_preparation }

def FinalizationAction.finalize (a : FinalizationAction) (key : ObservationKey) : Effect :=
  .finalizeDesktop
    { actionId := a.actionId
      transitionId := a.transitionId
      transitionKey := a.transitionKey
      profile := a.profile
      planHash := a.planHash
      admittedEventGeneration := a.admittedEventGeneration
      observationKey := key
      kind_finalization := a.kind_finalization }

def admitProbe (s : State) (o : CanonicalObservation) : Result Decision :=
  match o.probeCandidate with
  | none => enterWait s o.observedAtMs
  | some candidate =>
    let key : ProbeAttemptKey := ⟨s.physicalEpoch, candidate.profile, o.observationKey⟩
    if key ∈ s.attemptedProbeKeys then enterWait s o.observedAtMs
    else do
      let (s, discardEffects) ← discardPlanning s
      let action : ProbeAction :=
        { actionId := s.nextActionId .probe
          key := key
          admittedEventGeneration := o.eventGeneration
          output := candidate.output
          internalOutput := candidate.internalOutput
          preferredMode := candidate.preferredMode
          kind_probe := rfl }
      decision
        { allocateAction s with
          phase := .probePending
          candidate := none
          probe := some action
          baselineAdoption := false
          verifySinceMs := none
          nextTimerMs := some o.observedAtMs
          requirement := fun h => ⟨(s.requirement h).1, rfl⟩ }
        (discardEffects ++ [action.activate o.observationKey])

/-- `_slow_retry_due`: a capped `WAIT_SLOW` tick may repeat an attempted key. -/
def slowRetryDue (s : State) : Bool :=
  s.phase = .waitSlow && slowDelaysMs.length - 1 ≤ s.backoffIndex

def admitApplication (s : State) (o : CanonicalObservation) (target : ProfileMatch) :
    Result Decision :=
  let key : ApplicationAttemptKey := ⟨s.physicalEpoch, target.profile, o.observationKey⟩
  let candidate := candidateFor s o target
  let s : State :=
    { s with
      candidate := some candidate
      baselineAdoption := false
      requirement := fun h => ⟨(s.requirement h).1, rfl⟩ }
  if key ∈ s.attemptedApplicationKeys ∧ ¬ slowRetryDue s then enterWait s o.observedAtMs
  else
    -- A spent key is withdrawn first: an admitted action's key is never in the attempted set.
    let s := { s with attemptedApplicationKeys := s.attemptedApplicationKeys.erase key }
    let action : ApplicationAction :=
      { actionId := s.nextActionId .application
        key := key
        admittedEventGeneration := o.eventGeneration
        profile := target.profile
        scope := target.scope
        mapping := candidate.mapping
        kind_application := rfl
        profile_key := rfl
        profile_mapping := rfl }
    decision
      { allocateAction s with
        phase := .applyPending
        application := some action
        nextTimerMs := some o.observedAtMs }
      [action.apply o.observationKey]

/-- The plan which `_admit_plan` admits. -/
def planFor (s : State) (o : CanonicalObservation) (target : ProfileMatch) : PlanningAction where
  actionId := s.nextActionId .plan
  transitionId := s.nextTransitionId
  inputKey := planningInputKey s target o.observationKey
  profile := target.profile
  kind_plan := rfl
  profile_input := rfl

def PlanningAction.request (p : PlanningAction) : Effect :=
  .requestPlan
    { actionId := p.actionId
      transitionId := p.transitionId
      inputKey := p.inputKey
      profile := p.profile
      kind_plan := p.kind_plan }

def admitPlan (s : State) (o : CanonicalObservation) (target : ProfileMatch) : State :=
  { allocateAction (allocateTransition s) with
    planningState := .planPending
    planning := some (planFor s o target) }

/-- The preparation of a ready plan for the verified candidate. -/
def preparationFor (s : State) (o : CanonicalObservation) (candidate : CandidateSelection)
    (planning : PlanningAction) (planHash : PlanHash) : PreparationAction where
  actionId := s.nextActionId .preparation
  transitionId := planning.transitionId
  transitionKey := transitionKey s candidate.profile candidate.observationKey
  planHash := planHash
  admittedEventGeneration := o.eventGeneration
  observationKey := o.observationKey
  profile := candidate.profile
  kind_preparation := rfl

/-- The preparation is admitted once the plan is ready and the proof two seconds old. -/
def advancePreparation (s : State) (o : CanonicalObservation) (candidate : CandidateSelection)
    (verifySinceMs : Nat) (leadingEffects : List Effect) : State × List Effect :=
  if verifySinceMs + preparationStabilityMs ≤ o.observedAtMs ∧
      s.desktopFinalizedProfile ≠ some candidate.profile ∧ s.baselineAdoption = false ∧
      s.planningState = .planReady ∧ s.preparationState = .prepareIdle then
    match s.planning with
    | none => (s, leadingEffects)
    | some planning =>
      match planning.planHash with
      | none => (s, leadingEffects)
      | some planHash =>
        let action := preparationFor s o candidate planning planHash
        ({ allocateAction s with preparationState := .preparePending, preparation := some action },
          leadingEffects ++ [action.prepare o.observationKey])
  else (s, leadingEffects)

/-- The finalization of a prepared desktop for the verified candidate. -/
def finalizationFor (s : State) (o : CanonicalObservation) (candidate : CandidateSelection)
    (preparation : PreparationAction) : FinalizationAction where
  actionId := s.nextActionId .finalization
  transitionId := preparation.transitionId
  transitionKey := preparation.transitionKey
  planHash := preparation.planHash
  admittedEventGeneration := o.eventGeneration
  observationKey := o.observationKey
  profile := candidate.profile
  kind_finalization := rfl

/-- No DRM hint was processed within the quiet period before the sample. -/
def eventQuiet (s : State) (nowMs : Nat) : Bool :=
  match s.lastDrmAtMs with
  | none => true
  | some last => last + eventQuietMs ≤ nowMs

def advanceVerification (s : State) (o : CanonicalObservation) (leadingEffects : List Effect) :
    Result Decision :=
  match s.verifySinceMs, s.candidate with
  | some verifySinceMs, some candidate =>
    let nowMs := o.observedAtMs
    let profile := candidate.profile
    let (s, leadingEffects) := advancePreparation s o candidate verifySinceMs leadingEffects
    let proofComplete := verifySinceMs + profileStabilityMs ≤ nowMs && eventQuiet s nowMs
    if proofComplete ∧ s.desktopFinalizedProfile = some profile then do
      let (s, discardEffects) ← discardPlanning s
      let s := resetApplicationRecovery s profile
      quiesce
        { s with
          stableXProfile := some profile
          baselineAdoption := false
          requirement := fun h => ⟨(s.requirement h).1, rfl⟩ }
        (leadingEffects ++ discardEffects)
    else if hb : proofComplete ∧ s.baselineAdoption = true then
      let r := resetApplicationRecovery s profile
      quiesce
        { r with
          stableXProfile := some profile
          desktopFinalizedProfile := some profile
          baselineAdoption := false
          requirement := fun h => absurd hb.2 (by simp [(s.requirement h).2]) }
        leadingEffects
    else
      match s.preparation, s.finalization with
      | some preparation, none =>
        if proofComplete ∧ s.preparationState = .prepared then
          let action := finalizationFor s o candidate preparation
          decision
            { allocateAction s with
              phase := .finalizePending
              finalization := some action
              nextTimerMs := some nowMs }
            (leadingEffects ++ [action.finalize o.observationKey])
        else settleVerification s proofComplete nowMs leadingEffects
      | _, _ => settleVerification s proofComplete nowMs leadingEffects
  | _, _ => enterWait s o.observedAtMs
where
  /-- A blocked desktop settles on the health tick, a running proof on its own tick. -/
  settleVerification (s : State) (proofComplete : Bool) (nowMs : Nat)
      (leadingEffects : List Effect) : Result Decision :=
    if proofComplete ∧
        (s.planningState = .planFailed ∨ s.preparationState = .prepareFailed) then
      schedule s (nowMs + healthPollMs) leadingEffects
    else schedule s (nowMs + 1000) leadingEffects

/-- The verification in progress already rests on this profile and evidence. -/
def sameProof (s : State) (o : CanonicalObservation) (target : ProfileMatch) : Prop :=
  s.phase = .verifying ∧
    (∃ c ∈ s.candidate, c.profile = target.profile ∧ c.observationKey = o.observationKey) ∧
    s.verifySinceMs ≠ none

instance (s : State) (o : CanonicalObservation) (target : ProfileMatch) :
    Decidable (sameProof s o target) :=
  inferInstanceAs (Decidable (_ ∧ _))

/-- The retained plan was requested for other inputs. -/
def planningInputsChanged (s : State) (o : CanonicalObservation) (target : ProfileMatch) : Prop :=
  ∃ p ∈ s.planning, p.inputKey ≠ planningInputKey s target o.observationKey

instance (s : State) (o : CanonicalObservation) (target : ProfileMatch) :
    Decidable (planningInputsChanged s o target) :=
  inferInstanceAs (Decidable (∃ p ∈ s.planning, _))

/-- A proof which is not the current one starts at this sample. -/
def restartProof (s : State) (o : CanonicalObservation) (target : ProfileMatch) : State :=
  { s with
    verifySinceMs := some o.observedAtMs
    candidate := some (candidateFor s o target) }

def startVerification (s : State) (o : CanonicalObservation) (target : ProfileMatch) :
    Result Decision := do
  let same : Bool := sameProof s o target
  let (s, discardEffects) ←
    if !same ∨ planningInputsChanged s o target then do
      let (s, discardEffects) ← discardPlanning s
      .ok (if same then s else restartProof s o target, discardEffects)
    else .ok (s, [])
  let s := { s with phase := .verifying }
  if s.desktopFinalizedProfile ≠ some target.profile ∧ s.baselineAdoption = false ∧
      s.planningState = .planIdle then
    advanceVerification (admitPlan s o target) o
      (discardEffects ++ [(planFor s o target).request])
  else advanceVerification s o discardEffects

end MonitorController
