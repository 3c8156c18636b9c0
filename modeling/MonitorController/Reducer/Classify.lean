import MonitorController.Reducer.Admission

/-! # Classification of valid samples

A pending admission is confirmed or cancelled first; then the unplug proof is
accumulated, terminal failures are retained or released, and the sample selects
a probe, an application or a verification.
-/

namespace MonitorController

def sameExactFinalization (s : State) (o : CanonicalObservation) : Prop :=
  ∃ a ∈ s.finalization, s.physicalToken = some o.physicalToken ∧
    o.exactProfile = some a.profile ∧ a.profile ∈ o.currentProfiles ∧
    o.observationKey = a.observationKey

instance (s : State) (o : CanonicalObservation) : Decidable (sameExactFinalization s o) :=
  inferInstanceAs (Decidable (∃ a ∈ s.finalization, _))

/-- The sample carries exactly the pending probe. -/
def confirmsProbe (s : State) (o : CanonicalObservation) (a : ProbeAction) : Prop :=
  ∃ c ∈ o.probeCandidate, s.physicalToken = some o.physicalToken ∧
    a.key.observationKey = o.observationKey ∧ c.profile = a.key.profile ∧ c.output = a.output ∧
    c.internalOutput = a.internalOutput ∧ c.preferredMode = a.preferredMode

instance (s : State) (o : CanonicalObservation) (a : ProbeAction) :
    Decidable (confirmsProbe s o a) :=
  inferInstanceAs (Decidable (∃ c ∈ o.probeCandidate, _))

/-- The sample still selects the pending application. -/
def confirmsApplication (s : State) (o : CanonicalObservation) (a : ApplicationAction) : Prop :=
  ∃ target ∈ uniqueTarget o, s.physicalToken = some o.physicalToken ∧
    target.profile = a.profile ∧ o.observationKey = a.key.observationKey

instance (s : State) (o : CanonicalObservation) (a : ApplicationAction) :
    Decidable (confirmsApplication s o a) :=
  inferInstanceAs (Decidable (∃ target ∈ uniqueTarget o, _))

/-- The sample still proves the pending preparation exactly. -/
def confirmsPreparation (s : State) (o : CanonicalObservation) (a : PreparationAction) : Prop :=
  s.physicalToken = some o.physicalToken ∧ o.exactProfile = some a.profile ∧
    a.profile ∈ o.currentProfiles ∧ o.observationKey = a.observationKey

instance (s : State) (o : CanonicalObservation) (a : PreparationAction) :
    Decidable (confirmsPreparation s o a) :=
  inferInstanceAs (Decidable (_ ∧ _))

def reclassifyCancelledAdmission (classify : State → CanonicalObservation → Result Decision)
    (s : State) (o : CanonicalObservation) : Result Decision := do
  let (s, epochEffects) ←
    if s.physicalToken ≠ some o.physicalToken then resetForEpoch s o o.observedAtMs
    else .ok (s, [])
  let d ← classify s o
  decision d.state (epochEffects ++ d.effects)

def observePendingProbe (classify : State → CanonicalObservation → Result Decision)
    (s : State) (o : CanonicalObservation) (action : ProbeAction) : Result Decision :=
  if confirmsProbe s o action then
    let action := { action with toWorkerAction := action.refresh o.eventGeneration }
    decision { s with probe := some action, nextTimerMs := some o.observedAtMs }
      [action.activate o.observationKey]
  else do
    let s ← appendTombstone s action.actionId .cancelled
    reclassifyCancelledAdmission classify { s with phase := .discoverFast, probe := none } o

def observePendingApplication (classify : State → CanonicalObservation → Result Decision)
    (s : State) (o : CanonicalObservation) (action : ApplicationAction) : Result Decision :=
  if confirmsApplication s o action then
    let action := { action with toWorkerAction := action.refresh o.eventGeneration }
    decision { s with application := some action, nextTimerMs := some o.observedAtMs }
      [action.apply o.observationKey]
  else do
    let s ← appendTombstone s action.actionId .cancelled
    reclassifyCancelledAdmission classify { s with phase := .discoverFast, application := none } o

def observePendingPreparation (classify : State → CanonicalObservation → Result Decision)
    (s : State) (o : CanonicalObservation) (action : PreparationAction) : Result Decision :=
  if confirmsPreparation s o action then
    let action := { action with toWorkerAction := action.refresh o.eventGeneration }
    decision { s with preparation := some action, nextTimerMs := some o.observedAtMs }
      [action.prepare o.observationKey]
  else do
    let s ← appendTombstone s action.actionId .cancelled
    reclassifyCancelledAdmission classify
      { s with preparationState := .prepareIdle, preparation := none, verifySinceMs := none } o

def observePendingFinalization (classify : State → CanonicalObservation → Result Decision)
    (s : State) (o : CanonicalObservation) (action : FinalizationAction) : Result Decision :=
  if sameExactFinalization s o then
    let action := { action with toWorkerAction := action.refresh o.eventGeneration }
    decision { s with finalization := some action, nextTimerMs := some o.observedAtMs }
      [action.finalize o.observationKey]
  else do
    let s ← appendTombstone s action.actionId .cancelled
    reclassifyCancelledAdmission classify
      { s with phase := .discoverFast, finalization := none, verifySinceMs := none } o

def observePendingAction (classify : State → CanonicalObservation → Result Decision)
    (s : State) (o : CanonicalObservation) : Option (Result Decision) :=
  match s.phase, s.probe, s.application, s.preparationState, s.preparation, s.finalization with
  | .probePending, some action, _, _, _, _ => some (observePendingProbe classify s o action)
  | .applyPending, _, some action, _, _, _ => some (observePendingApplication classify s o action)
  | _, _, _, .preparePending, some action, _ =>
    some (observePendingPreparation classify s o action)
  | .finalizePending, _, _, _, _, some action =>
    some (observePendingFinalization classify s o action)
  | _, _, _, _, _, _ => none

/-- The unplug proof extended by one sample; samples may not run backwards. -/
def extendUnplugProof (proof : Option UnplugProof) (o : CanonicalObservation) :
    Result UnplugProof :=
  match proof with
  | none =>
    .ok ⟨o.observationKey, o.observedAtMs, o.observationKey, o.observedAtMs, 1, le_rfl, le_rfl⟩
  | some proof =>
    if h : proof.firstObservedAtMs ≤ o.observedAtMs then
      .ok { proof with
        latestObservationKey := o.observationKey
        latestObservedAtMs := o.observedAtMs
        observationCount := proof.observationCount + 1
        ordered := h
        counted := Nat.le_add_left 1 _ }
    else .error (.value "latest unplug proof cannot precede its first sample")

/-- The unplug proof spans enough samples and time with no hint since the last sample. -/
def unplugComplete (s : State) (o : CanonicalObservation) (proof : UnplugProof) : Prop :=
  unplugRequiredSamples ≤ proof.observationCount ∧
    proof.firstObservedAtMs + unplugStabilityMs ≤ proof.latestObservedAtMs ∧
    o.eventGeneration = s.eventGeneration

instance (s : State) (o : CanonicalObservation) (proof : UnplugProof) :
    Decidable (unplugComplete s o proof) :=
  inferInstanceAs (Decidable (_ ∧ _))

def handleUnplug (s : State) (o : CanonicalObservation) : Result (State × Bool) :=
  if s.externalIntent = false then .ok ({ s with unplugProof := none }, true)
  else do
    let proof ← extendUnplugProof s.unplugProof o
    if unplugComplete s o proof then
      .ok ({ s with externalIntent := false, unplugProof := none }, true)
    else .ok ({ s with unplugProof := some proof, verifySinceMs := none }, false)

/-- External evidence revokes an internal-only candidate. -/
def internalCandidate (s : State) : Prop :=
  ∃ c ∈ s.candidate, c.scope = .internalOnly

instance (s : State) : Decidable (internalCandidate s) :=
  inferInstanceAs (Decidable (∃ c ∈ s.candidate, _))

def acceptExternal (s : State) : State :=
  { s with
    externalIntent := true
    unplugProof := none
    candidate := if internalCandidate s then none else s.candidate
    verifySinceMs := if internalCandidate s then none else s.verifySinceMs }

/-- A terminal failure of the old external topology is released while unplugging. -/
def releaseFailures (s : State) : State :=
  { s with
    phase := .discoverFast
    probe := if s.phase = .probeFailed then none else s.probe
    application := if s.phase = .applyFailed then none else s.application
    finalization := if s.phase = .finalizeFailed then none else s.finalization }

def unplugDeadline (s : State) (nowMs : Nat) : Nat :=
  match s.unplugProof with
  | some proof => max (nowMs + 1) (proof.firstObservedAtMs + unplugStabilityMs)
  | none => nowMs + 1

/-- The failed probe rests on the same evidence. -/
def repeatsFailedProbe (o : CanonicalObservation) (a : ProbeAction) : Prop :=
  ∃ c ∈ o.probeCandidate, c.profile = a.key.profile ∧ o.observationKey = a.key.observationKey

instance (o : CanonicalObservation) (a : ProbeAction) : Decidable (repeatsFailedProbe o a) :=
  inferInstanceAs (Decidable (∃ c ∈ o.probeCandidate, _))

/-- The failed application rests on the same evidence. -/
def repeatsFailedApplication (o : CanonicalObservation) (a : ApplicationAction) : Prop :=
  ∃ target ∈ uniqueTarget o, target.profile = a.profile ∧
    o.observationKey = a.key.observationKey

instance (o : CanonicalObservation) (a : ApplicationAction) :
    Decidable (repeatsFailedApplication o a) :=
  inferInstanceAs (Decidable (∃ target ∈ uniqueTarget o, _))

/-- A terminal failure is retained while its evidence repeats, else released. -/
def retainFailure (s : State) (o : CanonicalObservation) : State × Bool :=
  match s.phase, s.probe, s.application, s.finalization with
  | .probeFailed, some action, _, _ =>
    if repeatsFailedProbe o action then (s, true)
    else ({ s with phase := .discoverFast, probe := none }, false)
  | .applyFailed, _, some action, _ =>
    if repeatsFailedApplication o action then (s, true)
    else ({ s with phase := .discoverFast, application := none }, false)
  | .finalizeFailed, _, _, some _ =>
    if sameExactFinalization s o then (s, true)
    else ({ s with phase := .discoverFast, finalization := none }, false)
  | _, _, _, _ => (s, false)

/-- Every external output carries a complete, identified EDID. -/
def completeUnknown (o : CanonicalObservation) : Prop :=
  let complete := ((o.edidIntegrity.filter (·.integrity = .complete)).map (·.output)).toFinset
  o.externalOutputs ≠ ∅ ∧ o.externalOutputs ⊆ complete ∩ o.identified

instance (o : CanonicalObservation) : Decidable (completeUnknown o) :=
  inferInstanceAs (Decidable (_ ∧ _))

/-- The unknown-monitor clock is cleared by a recognised sample. -/
def clearUnknown (s : State) : State :=
  { s with unknownKey := none, unknownSinceMs := none }

/-- The profile a sample selects; external evidence never selects an internal-only one. -/
def selectTarget (o : CanonicalObservation) : Option ProfileMatch :=
  (uniqueTarget o).filter fun m => !(o.hasExternalHardware && m.scope = .internalOnly)

/-- The verified profile is unchanged and already finalized. -/
def sameStableProfile (s : State) (o : CanonicalObservation) (target : ProfileMatch) : Prop :=
  s.phase = .quiescent ∧ s.stableXProfile = some target.profile ∧
    s.desktopFinalizedProfile = some target.profile ∧
    s.candidate = some (candidateFor s o target)

instance (s : State) (o : CanonicalObservation) (target : ProfileMatch) :
    Decidable (sameStableProfile s o target) :=
  inferInstanceAs (Decidable (_ ∧ _))

/-- A sample without a target waits, or turns unsupported when fully identified. -/
def classifyUnknown (s : State) (o : CanonicalObservation) : Result Decision :=
  let nowMs := o.observedAtMs
  if completeUnknown o then
    let since :=
      match s.unknownSinceMs with
      | some since => if s.unknownKey = some o.observationKey then since else nowMs
      | none => nowMs
    let s : State :=
      { s with
        unknownKey := some o.observationKey
        unknownSinceMs := some since
        verifySinceMs := none }
    if since + unknownStabilityMs ≤ nowMs then
      schedule { s with phase := .unsupported } (nowMs + healthPollMs) []
    else schedule { s with phase := .discoverFast } (nowMs + 1000) []
  else enterWait s nowMs

/-- A sample selects a probe, a verification, an application or none of them. -/
def classifyTarget (s : State) (o : CanonicalObservation) : Result Decision :=
  let nowMs := o.observedAtMs
  let asleep := o.displayPower = .asleep
  if o.probeCandidate ≠ none then
    let s := clearUnknown s
    if asleep then deferWhileAsleep s nowMs else admitProbe s o
  else
    match selectTarget o with
    | some target =>
      if o.exactProfile = some target.profile ∧ target.profile ∈ o.currentProfiles then
        let s := rearmAchievedApplication (clearUnknown s) target.profile
        if sameStableProfile s o target then quiesce s [] else startVerification s o target
      else
        let s := clearUnknown s
        if asleep then deferWhileAsleep s nowMs else admitApplication s o target
    | none => classifyUnknown s o

/-- A sample with settled external intent retains or releases a failure, then selects. -/
def classifySettled (s : State) (o : CanonicalObservation) : Result Decision :=
  let retained := retainFailure s o
  if retained.2 then schedule retained.1 (o.observedAtMs + healthPollMs) []
  else classifyTarget retained.1 o

/-- The part of `_classify_observation` after pending admissions. -/
def classifyUnpending (s : State) (o : CanonicalObservation) : Result Decision :=
  if o.hasExternalHardware then classifySettled (acceptExternal s) o
  else do
    let (s, complete) ← handleUnplug s o
    if complete then classifySettled s o
    else
      let s := releaseFailures s
      schedule s (unplugDeadline s o.observedAtMs) []

/-- `_classify_observation`. Each nested classification has one pending admission less. -/
def classifyObservation : Nat → State → CanonicalObservation → Result Decision
  | 0, _, _ => .error .recursion
  | depth + 1, s, o =>
    match observePendingAction (classifyObservation depth) s o with
    | some pending => pending
    | none => classifyUnpending s o

/-- One classification for each slot which may hold a pending admission, and a last one. -/
def classificationDepth : Nat := 5

end MonitorController
