import MonitorController.Transition.Moves

/-! # The transition relation

Everything one reducer step can do, as a relation between the state before, the
event and the decision. A step follows the reducer's exits; helpers which cannot
fail are already replaced by their results.
-/

namespace MonitorController

/-- A worker record with another lifecycle, exit status or post-stop verdict. -/
structure SameWorker (w v : WorkerAction) : Prop where
  actionId : v.actionId = w.actionId
  admitted : v.admittedEventGeneration = w.admittedEventGeneration
  unit : v.unit = w.unit
  deadline : v.workerDeadlineMs = w.workerDeadlineMs

/-- The same action, further along its lifecycle. -/
inductive Continues : ActionRecord → ActionRecord → Prop
  | probe (a w h) (hw : SameWorker a.toWorkerAction w) :
    Continues (.probe a) (.probe { a with toWorkerAction := w, kind_probe := h })
  | application (a w h) (hw : SameWorker a.toWorkerAction w) :
    Continues (.application a) (.application { a with toWorkerAction := w, kind_application := h })
  | planning (a l x) :
    Continues (.planning a) (.planning { a with lifecycle := l, exitStatus := x })
  | preparation (a w h) (hw : SameWorker a.toWorkerAction w) :
    Continues (.preparation a) (.preparation { a with toWorkerAction := w, kind_preparation := h })
  | finalization (a w h) (hw : SameWorker a.toWorkerAction w) :
    Continues (.finalization a)
      (.finalization { a with toWorkerAction := w, kind_finalization := h })

def Event.finished? : Event → Option ActionId
  | .probeFinished e => some e.actionId
  | .applicationFinished e => some e.actionId
  | .preparationFinished e => some e.actionId
  | .finalizationFinished e => some e.actionId
  | _ => none

/-- A worker's result or its acknowledged stop ends the action. -/
inductive Ends : Event → ActionRecord → ActionLifecycle → Prop
  | finished {e r l} (he : e.finished? = some r.actionId) (hr : r.lifecycle = .dispatched)
    (hl : l ∈ [ActionLifecycle.completed, .failed, .cancelled]) : Ends e r l
  | acknowledged {e r} (he : e.actionId = r.actionId) (hr : r.lifecycle = .stopping) :
    Ends (.workerCancellationAcknowledged e) r e.terminalLifecycle

/-- An event fails the action. -/
inductive Fails : Event → ActionRecord → ActionLifecycle → Prop
  | ended {e r l} (h : Ends e r l) : Fails e r l
  | rejected {e r} (he : e.actionId = r.actionId) (hr : r.lifecycle = .admitted) :
    Fails (.dispatchRejected e) r .failed
  | unknown {e r} (he : e.actionId = r.actionId) (hk : r.kind = .plan)
    (hr : r.lifecycle = .dispatched) : Fails (.workerStatusUnknown e) r .unknown
  | planFailed {e r} (he : e.actionId = r.actionId) (hk : r.kind = .plan)
    (hr : r.lifecycle = .admitted ∨ r.lifecycle = .dispatched) : Fails (.planFailed e) r .failed

/-- An event doubts the action's worker. -/
inductive Doubts : Event → ActionRecord → UncertainVerdict → Prop
  | unknown {e r} (he : e.actionId = r.actionId) : Doubts (.workerStatusUnknown e) r .unknown
  | timedOut {e r} (he : e.actionId = r.actionId) : Doubts (.workerTimedOut e) r .timedOut

/-- A pending desktop admission is withdrawn, a preparation together with its plan. -/
inductive Withdraws (s : State) : ActionRecord → State → List Effect → Prop
  | preparation (a) (ha : s.preparation = some a) :
    Withdraws s (.preparation a)
      { (s.retire (.preparation a) .cancelled).dropPlan with phase := .discoverFast }
      s.planDiscards
  | finalization (a) (ha : s.finalization = some a) :
    Withdraws s (.finalization a) (s.retire (.finalization a) .cancelled) []

/-- A probe or an application is withdrawn by an invalid sample. -/
inductive Revokes (s : State) : ActionRecord → State → List Effect → Prop
  | desktop {r s' es} (h : Withdraws s r s' es) : Revokes s r s' es
  | probe (a) (ha : s.probe = some a) :
    Revokes s (.probe a) (s.retire (.probe a) .cancelled) []
  | application (a) (ha : s.application = some a) :
    Revokes s (.application a) (s.retire (.application a) .cancelled) []

def waiting (s : State) (phase : ControllerPhase) (aggressive : Option Nat) (index t : Nat) :
    State :=
  { s with
    phase := phase
    aggressiveDeadlineMs := aggressive
    backoffIndex := index
    verifySinceMs := none
    nextTimerMs := some t }

/-- The bounded backoff of a sample which selects nothing. -/
inductive Waits (s : State) (nowMs : Nat) : Decision → Prop
  | wait (phase aggressive index t)
    (hp : phase = .discoverFast ∨ phase = .waitSlow)
    (hd : aggressive = s.aggressiveDeadlineMs ∨
      s.aggressiveDeadlineMs = none ∧ aggressive = some (nowMs + aggressiveBudgetMs))
    (hs : enterWait s nowMs =
      decision (waiting s phase aggressive index t) [.schedule t]) :
    Waits s nowMs ⟨waiting s phase aggressive index t, [.schedule t]⟩

def proofComplete (s : State) (o : CanonicalObservation) (since : Nat) : Bool :=
  since + profileStabilityMs ≤ o.observedAtMs && eventQuiet s o.observedAtMs

/-- A running verification advances by one sample. -/
inductive Advances (s : State) (o : CanonicalObservation) (es : List Effect) : Decision → Prop
  | finalized (since candidate) (hv : s.verifySinceMs = some since)
    (hc : s.candidate = some candidate) (hp : proofComplete s o since = true)
    (hf : s.desktopFinalizedProfile = some candidate.profile) :
    Advances s o es
      ⟨{ resetApplicationRecovery s.dropPlan candidate.profile with
          phase := .quiescent
          nextTimerMs := none
          stableXProfile := some candidate.profile
          baselineAdoption := false
          requirement := fun h => ⟨(s.requirement h).1, rfl⟩ }, es ++ s.planDiscards⟩
  | adopted (since candidate) (hv : s.verifySinceMs = some since)
    (hc : s.candidate = some candidate) (hp : proofComplete s o since = true)
    (hb : s.baselineAdoption = true) :
    Advances s o es
      ⟨{ resetApplicationRecovery s candidate.profile with
          phase := .quiescent
          nextTimerMs := none
          stableXProfile := some candidate.profile
          desktopFinalizedProfile := some candidate.profile
          baselineAdoption := false
          requirement := fun h => absurd hb (by simp [(s.requirement h).2]) }, es⟩
  | finalizes (since candidate preparation) (hv : s.verifySinceMs = some since)
    (hc : s.candidate = some candidate) (hp : proofComplete s o since = true)
    (hf : s.desktopFinalizedProfile ≠ some candidate.profile) (hb : s.baselineAdoption = false)
    (hq : s.preparation = some preparation) (hqs : s.preparationState = .prepared)
    (hn : s.finalization = none) :
    Advances s o es
      ⟨{ allocateAction s with
          phase := .finalizePending
          finalization := some (finalizationFor s o candidate preparation)
          nextTimerMs := some o.observedAtMs },
        es ++ [(finalizationFor s o candidate preparation).finalize o.observationKey]⟩
  | prepares (since candidate planning planHash) (hv : s.verifySinceMs = some since)
    (hc : s.candidate = some candidate)
    (hp : since + preparationStabilityMs ≤ o.observedAtMs)
    (hf : s.desktopFinalizedProfile ≠ some candidate.profile) (hb : s.baselineAdoption = false)
    (hl : s.planning = some planning) (hls : s.planningState = .planReady)
    (hh : planning.planHash = some planHash) (hqs : s.preparationState = .prepareIdle) :
    Advances s o es
      ⟨({ allocateAction s with
          preparationState := .preparePending
          preparation := some (preparationFor s o candidate planning planHash) }).timed
          (o.observedAtMs + 1000),
        es ++ [(preparationFor s o candidate planning planHash).prepare o.observationKey] ++
          [.schedule (o.observedAtMs + 1000)]⟩
  | settled (since candidate t) (hv : s.verifySinceMs = some since)
    (hc : s.candidate = some candidate)
    (ht : t = o.observedAtMs + 1000 ∨ t = o.observedAtMs + healthPollMs ∧
      proofComplete s o since = true ∧
      (s.planningState = .planFailed ∨ s.preparationState = .prepareFailed)) :
    Advances s o es ⟨s.timed t, es ++ [.schedule t]⟩

/-- The verification of a target starts or continues. -/
inductive Verifies (s : State) (o : CanonicalObservation) (target : ProfileMatch) :
    State → List Effect → Prop
  | kept (hs : sameProof s o target) (hi : ¬ planningInputsChanged s o target) :
    Verifies s o target s []
  | replanned (hs : sameProof s o target) (hi : planningInputsChanged s o target) :
    Verifies s o target s.dropPlan s.planDiscards
  | restarted (hs : ¬ sameProof s o target) :
    Verifies s o target (restartProof s.dropPlan o target) s.planDiscards

/-- A plan is admitted for a target which is not finalized yet. -/
inductive Plans (s : State) (o : CanonicalObservation) (target : ProfileMatch) :
    State → List Effect → Prop
  | admitted (hf : s.desktopFinalizedProfile ≠ some target.profile)
    (hb : s.baselineAdoption = false) (hp : s.planningState = .planIdle) :
    Plans s o target (admitPlan s o target) [(planFor s o target).request]
  | kept (hk : ¬ (s.desktopFinalizedProfile ≠ some target.profile ∧ s.baselineAdoption = false ∧
      s.planningState = .planIdle)) : Plans s o target s []

/-- The profile which the sample selects is exact and current. -/
def shownExactly (o : CanonicalObservation) (target : ProfileMatch) : Prop :=
  o.exactProfile = some target.profile ∧ target.profile ∈ o.currentProfiles

/-- The sample selects the profile, and no probe comes first. -/
def Targets (o : CanonicalObservation) (target : ProfileMatch) : Prop :=
  o.probeCandidate = none ∧ selectTarget o = some target

/-- A sample selects a probe, a verification, an application or none of them. -/
inductive Selects (s : State) (o : CanonicalObservation) : Decision → Prop
  | deferred (hz : o.displayPower = .asleep)
    (hn : o.probeCandidate ≠ none ∨ ∃ target, Targets o target ∧ ¬ shownExactly o target) :
    Selects s o
      ⟨({ clearProof (clearUnknown s) with phase := .waitSlow }).timed
          (o.observedAtMs + displayAsleepPollMs),
        [.schedule (o.observedAtMs + displayAsleepPollMs)]⟩
  | waits {d} (hw : Waits s o.observedAtMs d) (hc : o.probeCandidate = none)
    (ht : selectTarget o = none) : Selects s o d
  | waitsKnown {d} (hw : Waits (clearUnknown s) o.observedAtMs d) (candidate)
    (hz : o.displayPower ≠ .asleep) (hc : o.probeCandidate = some candidate)
    (hk : ⟨s.physicalEpoch, candidate.profile, o.observationKey⟩ ∈ s.attemptedProbeKeys) :
    Selects s o d
  | waitsSpent (target) {d} (ht : Targets o target)
    (hz : o.displayPower ≠ .asleep)
    (hw : Waits
      { clearUnknown s with
        candidate := some (candidateFor s o target)
        baselineAdoption := false
        requirement := fun h => ⟨(s.requirement h).1, rfl⟩ } o.observedAtMs d)
    (hx : ¬ shownExactly o target)
    (hk : ⟨s.physicalEpoch, target.profile, o.observationKey⟩ ∈ s.attemptedApplicationKeys)
    (hs : slowRetryDue s = false) : Selects s o d
  | probes (candidate) (hz : o.displayPower ≠ .asleep) (hc : o.probeCandidate = some candidate)
    (action : ProbeAction) (ha : action =
      { actionId := s.nextActionId .probe
        key := ⟨s.physicalEpoch, candidate.profile, o.observationKey⟩
        admittedEventGeneration := o.eventGeneration
        output := candidate.output
        internalOutput := candidate.internalOutput
        preferredMode := candidate.preferredMode
        kind_probe := rfl })
    (hk : action.key ∉ s.attemptedProbeKeys) :
    Selects s o
      ⟨{ allocateAction (clearUnknown s).dropPlan with
          phase := .probePending
          candidate := none
          probe := some action
          baselineAdoption := false
          verifySinceMs := none
          nextTimerMs := some o.observedAtMs
          requirement := fun h => ⟨(s.requirement h).1, rfl⟩ },
        s.planDiscards ++ [action.activate o.observationKey]⟩
  | stable (target) (ht : Targets o target) (hx : shownExactly o target)
    (hs : sameStableProfile (rearmAchievedApplication (clearUnknown s) target.profile) o target) :
    Selects s o
      ⟨{ rearmAchievedApplication (clearUnknown s) target.profile with
          phase := .quiescent
          nextTimerMs := none }, []⟩
  | verifies (target s' es s'' fs) {d} (ht : Targets o target) (hx : shownExactly o target)
    (hv : Verifies (rearmAchievedApplication (clearUnknown s) target.profile) o target s' es)
    (hp : Plans { s' with phase := .verifying } o target s'' fs)
    (ha : Advances s'' o (es ++ fs) d) : Selects s o d
  | applies (target) (ht : Targets o target) (hz : o.displayPower ≠ .asleep)
    (hx : ¬ shownExactly o target)
    (action : ApplicationAction) (ha : action =
      { actionId := s.nextActionId .application
        key := ⟨s.physicalEpoch, target.profile, o.observationKey⟩
        admittedEventGeneration := o.eventGeneration
        profile := target.profile
        scope := target.scope
        mapping := mappingProof s o target
        kind_application := rfl
        profile_key := rfl
        profile_mapping := rfl })
    (hk : action.key ∈ s.attemptedApplicationKeys → slowRetryDue s = true) :
    Selects s o
      ⟨{ allocateAction (clearUnknown s) with
          candidate := some (candidateFor s o target)
          baselineAdoption := false
          attemptedApplicationKeys := s.attemptedApplicationKeys.erase action.key
          phase := .applyPending
          application := some action
          nextTimerMs := some o.observedAtMs
          requirement := fun h => ⟨(s.requirement h).1, rfl⟩ },
        [action.apply o.observationKey]⟩
  | unknown (phase since t)
    (hp : phase = .unsupported ∧ t = o.observedAtMs + healthPollMs ∧
        since + unknownStabilityMs ≤ o.observedAtMs ∨
      phase = .discoverFast ∧ t = o.observedAtMs + 1000)
    (hs : s.unknownSinceMs = some since ∧ s.unknownKey = some o.observationKey ∨
      since = o.observedAtMs) (hc : o.probeCandidate = none) (ht : selectTarget o = none) :
    Selects s o
      ⟨({ s with
          phase := phase
          unknownKey := some o.observationKey
          unknownSinceMs := some since
          verifySinceMs := none }).timed t, [.schedule t]⟩

/-- The unplug proof allows or delays the selection of a sample without external hardware. -/
inductive Unplugs (s : State) (o : CanonicalObservation) : State → Bool → Prop
  | unneeded (hi : s.externalIntent = false) : Unplugs s o { s with unplugProof := none } true
  | complete (proof) (hi : s.externalIntent = true)
    (hp : extendUnplugProof s.unplugProof o = .ok proof) (hc : unplugComplete s o proof) :
    Unplugs s o { s with externalIntent := false, unplugProof := none } true
  | incomplete (proof) (hi : s.externalIntent = true)
    (hp : extendUnplugProof s.unplugProof o = .ok proof) (hc : ¬ unplugComplete s o proof) :
    Unplugs s o { s with unplugProof := some proof, verifySinceMs := none } false

/-- The external intent is settled before a selection. -/
inductive Settles (s : State) (o : CanonicalObservation) : State → Prop
  | external (he : o.hasExternalHardware = true) : Settles s o (acceptExternal s)
  | unplugged {s'} (he : o.hasExternalHardware = false) (hu : Unplugs s o s' true) : Settles s o s'

/-- A sample is classified once no admission is pending. -/
inductive Classifies (s : State) (o : CanonicalObservation) : Decision → Prop
  | unplugging (s') (he : o.hasExternalHardware = false) (hu : Unplugs s o s' false) :
    Classifies s o
      ⟨(releaseFailures s').timed (unplugDeadline (releaseFailures s') o.observedAtMs),
        [.schedule (unplugDeadline (releaseFailures s') o.observedAtMs)]⟩
  | retained (s') (hs : Settles s o s') (hr : retainFailure s' o = (s', true)) :
    Classifies s o
      ⟨s'.timed (o.observedAtMs + healthPollMs), [.schedule (o.observedAtMs + healthPollMs)]⟩
  | selected (s' s'') {d} (hs : Settles s o s') (hr : retainFailure s' o = (s'', false))
    (hd : Selects s'' o d) : Classifies s o d

/-- A pending admission which the sample does not confirm is cancelled. -/
inductive Cancels (s : State) (o : CanonicalObservation) : State → Prop
  | probe (a) (ha : s.probe = some a) (hl : a.lifecycle = .admitted)
    (hc : ¬ confirmsProbe s o a) : Cancels s o (s.retire (.probe a) .cancelled)
  | application (a) (ha : s.application = some a) (hl : a.lifecycle = .admitted)
    (hc : ¬ confirmsApplication s o a) : Cancels s o (s.retire (.application a) .cancelled)
  | preparation (a) (ha : s.preparation = some a) (hl : a.lifecycle = .admitted)
    (hc : ¬ confirmsPreparation s o a) :
    Cancels s o { s.retire (.preparation a) .cancelled with verifySinceMs := none }
  | finalization (a) (ha : s.finalization = some a) (hl : a.lifecycle = .admitted)
    (hc : ¬ sameExactFinalization s o) :
    Cancels s o { s.retire (.finalization a) .cancelled with verifySinceMs := none }

/-- Whether an admission is pending or a worker may run. -/
def busy (s : State) : Prop :=
  ∃ w ∈ s.mutators, w.lifecycle.terminal = false

/-- How a fresh valid sample becomes classifiable; `s` already records it. -/
inductive Frees (s : State) (prior : Option CanonicalObservation) (o : CanonicalObservation) :
    State → List Effect → Prop
  | entered (ht : s.physicalToken ≠ some o.physicalToken)
    (hr : ∀ w ∈ s.mutators, w.lifecycle.mutatingInFlight = false) :
    Frees s prior o (s.enterEpoch o o.observedAtMs) s.planDiscards
  | idle (ht : s.physicalToken = some o.physicalToken) (hb : ¬ busy s) :
    Frees s prior o (leaveSlowWait s prior o) []
  | cancelled {s'} (ht : s.physicalToken = some o.physicalToken) (hc : Cancels s o s') :
    Frees s prior o s' []
  | concluded (a b) (ht : s.physicalToken = some o.physicalToken) (ha : s.preparation = some a)
    (hl : a.lifecycle = .resultPending)
    (he : preparationObservationStatus s o a = some .exact)
    (hb : Continues (.preparation a) (.preparation b)) (hbl : b.lifecycle = .completed) :
    Frees s prior o
      { s.bury a.actionId .completed with
        phase := .verifying
        verifySinceMs := keepProof s o.observedAtMs
        preparationState := .prepared
        preparation := some b } []

/-- The retained worker a sample stops: a stop is requested and the slot stays. -/
inductive Stops (s : State) : ActionRecord → State → Prop
  | probe (a) (ha : s.probe = some a) (hl : a.lifecycle = .dispatched) :
    Stops s (.probe a) { s with probe := some { a with toWorkerAction := a.stop } }
  | application (a) (ha : s.application = some a) (hl : a.lifecycle = .dispatched) :
    Stops s (.application a) { s with application := some { a with toWorkerAction := a.stop } }
  | preparation (a) (ha : s.preparation = some a)
    (hl : a.lifecycle = .dispatched ∨ a.lifecycle = .resultPending) :
    Stops s (.preparation a) (stopPreparation s a)
  | finalization (a) (ha : s.finalization = some a) (hl : a.lifecycle = .dispatched) :
    Stops s (.finalization a)
      { s with
        phase := .finalizeStopping
        finalization := some { a with toWorkerAction := a.stop }
        verifySinceMs := none }

/-- The result of a desktop worker is refused by the sample which should confirm it. -/
inductive Refuses (s : State) : State → Prop
  | finalization (a b v) (ha : s.finalization = some a) (hl : a.lifecycle = .resultPending)
    (hb : Continues (.finalization a) (.finalization b)) (hbl : b.lifecycle = .failed)
    (hv : v = none ∨ v = s.verifySinceMs) :
    Refuses s
      { s.bury a.actionId .failed with
        phase := .finalizeFailed
        finalization := some b
        verifySinceMs := v }
  | preparation (a b) (ha : s.preparation = some a) (hl : a.lifecycle = .resultPending)
    (hb : Continues (.preparation a) (.preparation b)) (hbl : b.lifecycle = .failed) :
    Refuses s
      { s.bury a.actionId .failed with
        preparationState := .prepareFailed
        preparation := some b
        verifySinceMs := none }

/-- A pending admission which the sample confirms is emitted again. -/
inductive Confirms (s : State) (o : CanonicalObservation) : State → Effect → Prop
  | probe (a) (ha : s.probe = some a) (hl : a.lifecycle = .admitted) (hc : confirmsProbe s o a) :
    Confirms s o
      { s with probe := some { a with toWorkerAction := a.refresh o.eventGeneration } }
      (ProbeAction.activate { a with toWorkerAction := a.refresh o.eventGeneration }
        o.observationKey)
  | application (a) (ha : s.application = some a) (hl : a.lifecycle = .admitted)
    (hc : confirmsApplication s o a) :
    Confirms s o
      { s with application := some { a with toWorkerAction := a.refresh o.eventGeneration } }
      (ApplicationAction.apply { a with toWorkerAction := a.refresh o.eventGeneration }
        o.observationKey)
  | preparation (a) (ha : s.preparation = some a) (hl : a.lifecycle = .admitted)
    (hc : confirmsPreparation s o a) :
    Confirms s o
      { s with preparation := some { a with toWorkerAction := a.refresh o.eventGeneration } }
      (PreparationAction.prepare { a with toWorkerAction := a.refresh o.eventGeneration }
        o.observationKey)
  | finalization (a) (ha : s.finalization = some a) (hl : a.lifecycle = .admitted)
    (hc : sameExactFinalization s o) :
    Confirms s o
      { s with finalization := some { a with toWorkerAction := a.refresh o.eventGeneration } }
      (FinalizationAction.finalize { a with toWorkerAction := a.refresh o.eventGeneration }
        o.observationKey)

/-- Decisions on a fresh sample; `s` already records it. -/
inductive Observed (s : State) (prior : Option CanonicalObservation) (o : CanonicalObservation) :
    Decision → Prop
  | revoked (r s' es t) (hv : o.valid = false) (hl : r.lifecycle = .admitted)
    (hr : Revokes (revokeProofs s o) r s' es) (ht : t = o.observedAtMs + 1000) :
    Observed s prior o ⟨s'.timed t, es ++ [.schedule t]⟩
  | invalid (phase t) (hv : o.valid = false)
    (hn : ∀ w ∈ s.mutators, w.lifecycle ≠ .admitted)
    (hp : phase = if retainedByInvalid s.phase then s.phase else .discoverFast)
    (ht : t = o.observedAtMs + 1000) :
    Observed s prior o
      ⟨({ revokeProofs s o with phase := phase }).timed t, stopEffects s ++ [.schedule t]⟩
  | invalidInternal (a t) (hv : o.valid = false) (ha : s.application = some a)
    (hi : internalApplicationRuns o a [.dispatched, .stopping]) (ht : t = o.observedAtMs + 1000) :
    Observed s prior o
      ⟨({ revokeProofs s o with
          application := some { a with toWorkerAction := a.stop } }).timed t,
        [.stopAction a.actionId, .schedule t]⟩
  | internal (a t) (hv : o.valid = true) (ha : s.application = some a)
    (hi : internalApplicationRuns o a [.dispatched]) (ht : t = o.observedAtMs + 1000) :
    Observed s prior o
      ⟨({ s with
          phase := .applying
          application := some { a with toWorkerAction := a.stop }
          candidate := none
          verifySinceMs := none }).timed t, [.stopAction a.actionId, .schedule t]⟩
  | stopping (w t) (hv : o.valid = true) (hw : w ∈ s.mutators) (hl : w.lifecycle = .stopping)
    (ht : t = o.observedAtMs + 1000) :
    Observed s prior o ⟨s.timed t, [.stopAction w.actionId, .schedule t]⟩
  | stopped (r s' t) (hv : o.valid = true) (hs : Stops s r s')
    (hi : ∀ a, r = .application a → ¬ internalApplicationRuns o a [.dispatched])
    (hc : s.physicalToken ≠ some o.physicalToken ∨
      (∃ a, r = .finalization a ∧ ¬ sameExactFinalization s o) ∨
      ∃ a, r = .preparation a ∧ a.lifecycle = .dispatched ∧
        preparationObservationStatus s o a = none)
    (ht : t = o.observedAtMs + 1000) :
    Observed s prior o ⟨s'.timed t, [.stopAction r.actionId, .schedule t]⟩
  | refused (s' t) (hv : o.valid = true) (hs : Refuses s s') (ht : t = o.observedAtMs + healthPollMs)
    (hc : s.physicalToken = some o.physicalToken ∧ ¬ sameExactFinalization s o ∨
      s.physicalToken ≠ some o.physicalToken ∧ s.phase = .finalizing)
    (hq : s'.preparation = s.preparation ∨
      ∀ a ∈ s.preparation, preparationObservationStatus s o a ≠ some .exact) :
    Observed s prior o ⟨s'.timed t, [.schedule t]⟩
  | running (t) (hv : o.valid = true) (ht : s.physicalToken = some o.physicalToken)
    (hr : (∃ a ∈ s.probe, a.lifecycle = .dispatched) ∨
      (∃ a ∈ s.application, a.lifecycle = .dispatched ∧
        ¬ internalApplicationRuns o a [.dispatched]) ∨
      ∃ a ∈ s.finalization, a.lifecycle = .dispatched ∧ sameExactFinalization s o)
    (hd : t = o.observedAtMs + 1000) :
    Observed s prior o ⟨s.timed t, [.schedule t]⟩
  | completed (a) (hv : o.valid = true) (ha : s.finalization = some a)
    (hl : a.lifecycle = .resultPending) (he : sameExactFinalization s o) :
    Observed s prior o
      ⟨{ resetApplicationRecovery (s.bury a.actionId .completed).dropPlan a.profile with
          phase := .quiescent
          nextTimerMs := none
          stableXProfile := some a.profile
          desktopFinalizedProfile := some a.profile
          desktopFinalizationRequired := false
          finalization := none
          requirement := by simp }, s.planDiscards⟩
  | uncertain (a t) (hv : o.valid = true) (ht : s.physicalToken = some o.physicalToken)
    (ha : s.preparation = some a)
    (hl : a.lifecycle = .dispatched ∨ a.lifecycle = .resultPending)
    (he : preparationObservationStatus s o a = some .identityUncertain)
    (hd : t = o.observedAtMs + 1000) :
    Observed s prior o
      ⟨({ s with phase := .discoverFast, verifySinceMs := none }).timed t, [.schedule t]⟩
  | preparing (a t) (hv : o.valid = true) (ht : s.physicalToken = some o.physicalToken)
    (ha : s.preparation = some a) (hl : a.lifecycle = .dispatched)
    (he : preparationObservationStatus s o a = some .exact) (hd : t = o.observedAtMs + 1000) :
    Observed s prior o
      ⟨({ s with
          phase := .verifying
          verifySinceMs := keepProof s o.observedAtMs }).timed t, [.schedule t]⟩
  | confirmed (s' eff) (hv : o.valid = true) (ht : s.physicalToken = some o.physicalToken)
    (hc : Confirms s o s' eff) :
    Observed s prior o ⟨s'.timed o.observedAtMs, [eff]⟩
  | classified (s' es d) (hv : o.valid = true) (hf : Frees s prior o s' es)
    (hc : Classifies s' o d) : Observed s prior o ⟨d.state, es ++ d.effects⟩

/-- What a hint changes besides the superseded proofs. -/
inductive Hints (s : State) : State → List Effect → Prop
  | withdrawn {r s' es} (hl : r.lifecycle = .admitted) (h : Withdraws s r s' es) : Hints s s' es
  | reopened (hq : s.preparationState ≠ .preparePending) (hf : s.phase ≠ .finalizePending)
    (hp : reopenedByHint s.phase = true) : Hints s { s with phase := .discoverFast } []
  | kept (hp : reopenedByHint s.phase = false) : Hints s s []

/-- The events which leave the state alone: of another boot, stale, or not addressed to it. -/
def Ignored (s : State) : Event → Prop
  | .bootChanged e => e.previousBootId ≠ s.bootId
  | .observationCompleted e => e.metadata.bootId ≠ s.bootId ∨ staleObservation s e.observation
  | .drmHintReceived e => e.metadata.bootId ≠ s.bootId ∨ e.eventGeneration ≤ s.eventGeneration
  | .admissionDirtied e => e.metadata.bootId ≠ s.bootId ∨ e.eventGeneration ≤ s.eventGeneration ∨
      ∀ r ∈ s.actions, r.actionId = e.actionId → r.lifecycle ≠ .admitted
  | .observationFailed e => e.metadata.bootId ≠ s.bootId
  | .controllerStarted e => e.metadata.bootId ≠ s.bootId
  | _ => True

/-- One step of the reducer. -/
inductive Step (s : State) : Event → Decision → Prop
  | ignored (e) (hi : Ignored s e) : Step s e ⟨s, []⟩
  | observed (e) {d} (hb : e.metadata.bootId = s.bootId)
    (hf : ¬ staleObservation s e.observation)
    (h : Observed (recordObservation s e.observation) s.latestObservation e.observation d) :
    Step s (.observationCompleted e) d
  | observationFailed (e) (t) (ht : t = e.metadata.processedAtMs + observationFailureRetryMs) :
    Step s (.observationFailed e) ⟨s.timed t, stopEffects s ++ [.schedule t]⟩
  | timerFired (e) (t) (ht : t = e.metadata.processedAtMs) :
    Step s (.timerFired e) ⟨s.timed t, [.requestObservation .timer, .schedule t]⟩
  | hinted (e s' es t) (hb : e.metadata.bootId = s.bootId)
    (hg : s.eventGeneration < e.eventGeneration) (ht : t = e.metadata.processedAtMs)
    (h : Hints (supersedeProofs s e.eventGeneration e.metadata.processedAtMs) s' es) :
    Step s (.drmHintReceived e)
      ⟨s'.timed t, es ++ [.requestObservation .drmHint] ++ [.schedule t]⟩
  | dirtied (e r s' es t) (hb : e.metadata.bootId = s.bootId) (hr : r ∈ s.actions)
    (he : r.actionId = e.actionId)
    (hl : r.lifecycle = .admitted) (hg : s.eventGeneration < e.eventGeneration)
    (ht : t = e.metadata.processedAtMs)
    (h : Withdraws (supersedeProofs s e.eventGeneration t) r s' es ∨
      (r.kind = .plan ∨ r.kind = .probe ∨ r.kind = .application) ∧
        s' = supersedeProofs s e.eventGeneration t ∧ es = []) :
    Step s (.admissionDirtied e)
      ⟨s'.timed t, es ++ [.requestObservation .dirtyAdmission] ++ [.schedule t]⟩
  | probeDispatched (e a w) (ha : s.probe = some a) (hl : a.lifecycle = .admitted)
    (hi : a.actionId = e.actionId) (hd : w = a.dispatch e.unit
      (e.metadata.processedAtMs + probeWorkerTimeoutMs) (e.unit_eq.trans hi.symm) hl) :
    Step s (.probeDispatched e)
      ⟨{ s with
          phase := .probing
          probe := some { a with toWorkerAction := w, kind_probe := hd ▸ a.kind_probe }
          attemptedProbeKeys := insert a.key s.attemptedProbeKeys
          nextTimerMs := none }, []⟩
  | applicationDispatched (e a w) (ha : s.application = some a) (hl : a.lifecycle = .admitted)
    (hi : a.actionId = e.actionId) (hd : w = a.dispatch e.unit
      (e.metadata.processedAtMs + applicationWorkerTimeoutMs) (e.unit_eq.trans hi.symm) hl) :
    Step s (.applicationDispatched e)
      ⟨{ s with
          phase := .applying
          application := some { a with toWorkerAction := w, kind_application := hd ▸ a.kind_application }
          attemptedApplicationKeys := insert a.key s.attemptedApplicationKeys
          nextTimerMs := none }, []⟩
  | preparationDispatched (e a w) (ha : s.preparation = some a) (hl : a.lifecycle = .admitted)
    (hi : a.actionId = e.actionId) (hd : w = a.dispatch e.unit
      (e.metadata.processedAtMs + preparationWorkerTimeoutMs) (e.unit_eq.trans hi.symm) hl) :
    Step s (.preparationDispatched e)
      ⟨{ s with
          preparationState := .preparing
          preparation := some
            { a with toWorkerAction := w, kind_preparation := hd ▸ a.kind_preparation } }, []⟩
  | finalizationDispatched (e a w) (ha : s.finalization = some a) (hl : a.lifecycle = .admitted)
    (hi : a.actionId = e.actionId) (hd : w = a.dispatch e.unit
      (e.metadata.processedAtMs + finalizationWorkerTimeoutMs) (e.unit_eq.trans hi.symm) hl) :
    Step s (.finalizationDispatched e)
      ⟨{ s with
          phase := .finalizing
          finalization := some
            { a with toWorkerAction := w, kind_finalization := hd ▸ a.kind_finalization } }, []⟩
  | planRequested (e p) (hp : s.planning = some p) (hs : s.planningState = .planPending)
    (hi : p.actionId = e.actionId) (hk : p.inputKey = e.inputKey) :
    Step s (.planRequested e)
      ⟨{ s with planningState := .planning, planning := some { p with lifecycle := .dispatched } },
        []⟩
  | planCompleted (e p t) (hp : s.planning = some p) (hs : s.planningState = .planning)
    (hi : p.actionId = e.actionId) (hk : p.inputKey = e.inputKey)
    (ht : t = e.metadata.processedAtMs) :
    Step s (.planCompleted e)
      ⟨({ s.bury p.actionId .completed with
          planningState := .planReady
          planning := some
            { p with lifecycle := .completed, planHash := some e.planHash } }).timed t,
        [.requestObservation .workerCompleted, .schedule t]⟩
  | planRetried (e p t) (hp : s.planning = some p)
    (hs : s.planningState = .planPending ∨ s.planningState = .planning)
    (hi : p.actionId = e.actionId) (hk : p.inputKey = e.inputKey) (hr : e.retryable = true)
    (ht : t = e.metadata.processedAtMs + observationFailureRetryMs) :
    Step s (.planFailed e)
      ⟨({ s.dropPlan with phase := .discoverFast, verifySinceMs := none }).timed t,
        s.planDiscards ++ [.schedule t]⟩
  | stopRepeated (e r t) (hr : r ∈ s.actions) (hl : r.lifecycle = .stopping)
    (he : e.finished? = some r.actionId) (ht : t = e.metadata.processedAtMs + 1000) :
    Step s e ⟨s.timed t, [.stopAction r.actionId, .schedule t]⟩
  | closed (e r l v es t) (hr : r ∈ s.actions) (hk : r.kind ≠ .plan) (he : Ends e r l)
    (hl : l = .completed ∧ (r.kind = .probe ∨ r.kind = .application) ∨ l = .cancelled)
    (hv : v = none ∨ v = s.verifySinceMs)
    (hes : es = [] ∨ r.kind = .preparation ∧ es = s.planDiscards)
    (ht : t = e.metadata.processedAtMs) :
    Step s e
      ⟨({ s.retire r l with phase := .discoverFast, verifySinceMs := v }).timed t,
        es ++ [.requestObservation .workerCompleted] ++ [.schedule t]⟩
  | failed (e r r' phase es t) (hr : r ∈ s.actions) (hc : Continues r r')
    (hf : r'.lifecycle.failedLifecycle = true) (he : Fails e r r'.lifecycle)
    (hp : phase = (failSlot s r').phase ∨ r.kind = .preparation ∧ phase = .discoverFast)
    (hes : es = [] ∨ es = [.requestObservation .workerCompleted]) :
    Step s e
      ⟨({ failSlot (s.bury r.actionId r'.lifecycle) r' with phase := phase }).timed t,
        es ++ [.schedule t]⟩
  | preparationReported (e a b t) (ha : s.preparation = some a)
    (he : Ends e (.preparation a) .completed)
    (hb : Continues (.preparation a) (.preparation b)) (hl : b.lifecycle = .resultPending)
    (ht : t = e.metadata.processedAtMs) :
    Step s e
      ⟨({ clearRecoveryUnit s a.actionId with
          preparationState := .preparing
          preparation := some b }).timed t,
        [.requestObservation .workerCompleted, .schedule t]⟩
  | finalizationReported (e a b t) (ha : s.finalization = some a)
    (he : Ends e (.finalization a) .completed)
    (hb : Continues (.finalization a) (.finalization b)) (hl : b.lifecycle = .resultPending)
    (ht : t = e.metadata.processedAtMs) :
    Step s e
      ⟨({ clearRecoveryUnit s a.actionId with
          phase := .finalizing
          finalization := some b }).timed t,
        [.requestObservation .workerCompleted, .schedule t]⟩
  | doubted (e r v t) (hr : r ∈ s.actions) (hk : r.kind ≠ .plan)
    (hl : r.lifecycle = .dispatched ∨ r.lifecycle = .stopping) (he : Doubts e r v)
    (ht : t = e.metadata.processedAtMs + 1000) :
    Step s e
      ⟨(stopSlot s v r).timed t,
        (if r.lifecycle = .stopping then [] else [Effect.stopAction r.actionId]) ++ [.schedule t]⟩
  | restarted (e a s' es t) (ha : s.preparation = some a) (hl : a.lifecycle = .admitted)
    (hw : Withdraws { s with controllerInstance := e.controllerInstance } (.preparation a) s' es)
    (ht : t = e.metadata.processedAtMs) :
    Step s (.controllerStarted e)
      ⟨({ s' with verifySinceMs := none }).timed t,
        es ++ [.requestObservation .startup] ++ [.schedule t]⟩
  | retried (e a t) (ha : s.finalization = some a) (hp : s.phase = .finalizeFailed)
    (ht : t = e.metadata.processedAtMs) :
    Step s (.controllerStarted e)
      ⟨({ s with
          controllerInstance := e.controllerInstance
          phase := .discoverFast
          finalization := none
          verifySinceMs := none }).timed t,
        [.requestObservation .startup, .schedule t]⟩
  | resumed (e v es t) (hq : s.preparationState ≠ .preparePending)
    (hv : v = if s.phase = .verifying then none else s.verifySinceMs)
    (hes : es = [] ∨ es = [.requestObservation .startup]) :
    Step s (.controllerStarted e)
      ⟨({ s with controllerInstance := e.controllerInstance, verifySinceMs := v }).timed t,
        es ++ [.schedule t]⟩
  | booted (e) (hb : e.previousBootId = s.bootId) :
    Step s (.bootChanged e)
      ⟨rebooted s e, [.requestObservation .recovery, .schedule e.metadata.processedAtMs]⟩

end MonitorController
