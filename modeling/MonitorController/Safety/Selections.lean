import MonitorController.Safety.Samples
import MonitorController.Transition.Selection

/-! # Classified samples keep the invariant

A sample is classified on a free state; external intent and old failures are
settled first. The state is then open, and every selection from it is sound.
-/

namespace MonitorController

/-- The actions of a sound state rest on one retained sample, and no worker is live. -/
structure Free (s : State) (o : CanonicalObservation) : Prop extends Core s where
  latest : s.latestObservation = some o
  valid : o.valid = true
  token : s.physicalToken = some o.physicalToken
  running : s.phase ≠ .recovering
  idle : ∀ w ∈ s.mutators, w.lifecycle.terminal = true

/-- A free state without display workers. -/
structure Open (s : State) (o : CanonicalObservation) : Prop extends Free s o where
  probe : s.probe = none
  application : s.application = none
  finalization : s.finalization = none

/-- An open state which verifies the target of the sample. -/
structure Verifying (s : State) (o : CanonicalObservation) (profile : Text) : Prop
    extends Open s o where
  verifying : s.phase = .verifying
  proven : ∃ c ∈ s.candidate, c.profile = profile ∧ ExactOn o c.profile c.observationKey
  planned : ∀ p ∈ s.planning, p.profile = profile

theorem ControlAt.inactive {phase : ControllerPhase} {planningState : PlanningState}
    {preparationState : PreparationState} {probe : Option ProbeAction}
    {application : Option ApplicationAction} {planning : Option PlanningAction}
    {preparation : Option PreparationAction} {finalization : Option FinalizationAction}
    (h : ControlAt phase planningState preparationState probe application planning preparation
      finalization) (hp : ∀ a ∈ preparation, a.lifecycle.terminal = true) :
    preparationState.active = false := by
  by_contra hq
  have hne : preparationState ≠ .prepareIdle := by
    rintro rfl
    simp [PreparationState.active] at hq
  obtain ⟨a, ha⟩ := h.preparation_isSome hne
  have ht := hp a ha
  rcases h.preparation_state ha with ⟨hl, -⟩ | ⟨hl | hl, -⟩ | ⟨hl, -⟩ | ⟨-, hi⟩
  · simp [hl, ActionLifecycle.terminal] at ht
  · simp [hl, ActionLifecycle.terminal] at ht
  · simp [hl, ActionLifecycle.terminal] at ht
  · simp [hl, ActionLifecycle.terminal] at ht
  · exact hq hi

namespace Free

variable {s : State} {o : CanonicalObservation} (h : Free s o)
include h

theorem inactive : s.preparationState.active = false :=
  h.control.inactive (State.forall_mutators.mp h.idle).2.2.1

theorem none_admitted : ∀ w ∈ s.mutators, w.lifecycle ≠ .admitted :=
  fun w hw => ActionLifecycle.ne_of_terminal (h.idle w hw) rfl

theorem observed : s.latestObservation ≠ none := by
  rw [h.latest]
  simp

theorem started {phase : ControllerPhase} (hp : phase ≠ .recovering) :
    phase = .recovering ↔ s.latestObservation = none :=
  ⟨fun he => absurd he hp, fun hl => absurd hl h.observed⟩

theorem acceptExternal : Free (acceptExternal s) o := by
  unfold MonitorController.acceptExternal
  exact { h with
    selection := h.selection.narrow fun c hc => by
      dsimp only at hc
      split at hc
      · cases hc
      · exact hc
    unplug := by simp [UnplugAt] }

theorem unplugged {s' : State} {complete : Bool} (hu : Unplugs s o s' complete) : Free s' o := by
  cases hu with
  | unneeded hi => exact { h with unplug := by simp [UnplugAt] }
  | complete proof hi hp hc => exact { h with unplug := by simp [UnplugAt] }
  | incomplete proof hi hp hc =>
    have hlatest : proof.latestObservedAtMs = o.observedAtMs := by
      unfold extendUnplugProof at hp
      split at hp
      next => cases hp; rfl
      next =>
        split at hp
        next => cases hp; rfl
        next => cases hp
    exact { h with
      unplug := by
        rintro _ ⟨⟩
        exact ⟨hi, o, h.latest, hlatest.le⟩ }

theorem settled {s' : State} (hs : Settles s o s') : Free s' o := by
  cases hs with
  | external he => exact h.acceptExternal
  | unplugged he hu => exact h.unplugged hu

theorem probe_failed {a : ProbeAction} (ha : s.probe = some a) : s.phase = .probeFailed := by
  have ht := (State.forall_mutators.mp h.idle).1 a ha
  rcases h.control.probe_phase ha with ⟨hl, -⟩ | ⟨hl | hl, -⟩ | ⟨-, hp⟩
  · simp [hl, ActionLifecycle.terminal] at ht
  · simp [hl, ActionLifecycle.terminal] at ht
  · simp [hl, ActionLifecycle.terminal] at ht
  · exact hp

theorem application_failed {a : ApplicationAction} (ha : s.application = some a) :
    s.phase = .applyFailed := by
  have ht := (State.forall_mutators.mp h.idle).2.1 a ha
  rcases h.control.application_phase ha with ⟨hl, -⟩ | ⟨hl | hl, -⟩ | ⟨-, hp⟩
  · simp [hl, ActionLifecycle.terminal] at ht
  · simp [hl, ActionLifecycle.terminal] at ht
  · simp [hl, ActionLifecycle.terminal] at ht
  · exact hp

theorem finalization_failed {a : FinalizationAction} (ha : s.finalization = some a) :
    s.phase = .finalizeFailed := by
  have ht := (State.forall_mutators.mp h.idle).2.2.2 a ha
  rcases h.control.finalization_phase ha with ⟨hl, -⟩ | ⟨hl | hl, -⟩ | ⟨hl, -⟩ | ⟨-, hp⟩
  · simp [hl, ActionLifecycle.terminal] at ht
  · simp [hl, ActionLifecycle.terminal] at ht
  · simp [hl, ActionLifecycle.terminal] at ht
  · simp [hl, ActionLifecycle.terminal] at ht
  · exact hp

theorem retained (hn : ¬ keepsInternal s o) (hr : retainFailure s o = (s, true)) (t : Nat) :
    Sound (s.timed t) := by
  have hscope : ScopedAt s.latestObservation s.application := by
    intro p hp he a ha hi
    rw [h.latest, Option.mem_some] at hp
    subst hp
    refine hn ⟨he, a, ha, hi, ?_⟩
    rw [if_pos h.valid]
    have hphase := h.application_failed ha
    obtain ⟨hprobe, -, -⟩ := h.control.application_alone (by simp [Option.mem_def.mp ha])
    simp only [retainFailure, hphase, hprobe, Option.mem_def.mp ha] at hr
    split at hr
    next hrepeats =>
      obtain ⟨target, ht, hp, hk⟩ := hrepeats
      exact .inr (.inr ⟨target, ht, h.token, hp, hk⟩)
    next => simp at hr
  have hverifying : s.phase ≠ .verifying := by
    intro hp
    simp [retainFailure, hp] at hr
  exact (h.retime s.verifySinceMs (some t)).sound (h.started h.running) hscope h.none_admitted
    (.inl hverifying) (by simp [WakeAt])

/-- A failure whose evidence is gone leaves its slot. -/
theorem released {s' : State} (hr : retainFailure s o = (s', false)) : Open s' o := by
  have hprep := (State.forall_mutators.mp h.idle).2.2.1
  cases hprobe : s.probe with
  | some a =>
    obtain ⟨happ, -, -, hfin⟩ := h.control.probe_alone (by simp [hprobe])
    have heq : retainFailure s o =
        if repeatsFailedProbe o a then (s, true) else (s.clearSlot .probe, false) := by
      simp only [retainFailure, h.probe_failed hprobe, hprobe, State.clearSlot]
    rw [heq] at hr
    split at hr
    next => simp at hr
    next =>
      simp only [Prod.mk.injEq, and_true] at hr
      subst hr
      dsimp only [State.clearSlot]
      have hcore : Core { s with phase := .discoverFast, probe := none } :=
        h.move_probe (by simp [hprobe]) (by rfl) rfl rfl (by simp)
          { h.identities with probe := by simp } (by simp)
      exact { hcore with
        latest := h.latest
        valid := h.valid
        token := h.token
        running := by simp
        idle := State.forall_mutators.mpr ⟨by simp, by simp [happ], hprep, by simp [hfin]⟩
        probe := rfl
        application := happ
        finalization := hfin }
  | none =>
    cases happ : s.application with
    | some a =>
      obtain ⟨-, hfin, -⟩ := h.control.application_alone (by simp [happ])
      have heq : retainFailure s o =
          if repeatsFailedApplication o a then (s, true)
          else (s.clearSlot .application, false) := by
        simp only [retainFailure, h.application_failed happ, hprobe, happ, State.clearSlot]
      rw [heq] at hr
      split at hr
      next => simp at hr
      next =>
        simp only [Prod.mk.injEq, and_true] at hr
        subst hr
        dsimp only [State.clearSlot]
        have hcore : Core { s with phase := .discoverFast, application := none } :=
          h.move_application (by simp [happ]) (by rfl) rfl rfl (by simp)
            { h.identities with application := by simp } (by simp)
        exact { hcore with
          latest := h.latest
          valid := h.valid
          token := h.token
          running := by simp
          idle := State.forall_mutators.mpr ⟨by simp [hprobe], by simp, hprep, by simp [hfin]⟩
          probe := hprobe
          application := rfl
          finalization := hfin }
    | none =>
      cases hfin : s.finalization with
      | some a =>
        have heq : retainFailure s o =
            if sameExactFinalization s o then (s, true)
            else (s.clearSlot .finalization, false) := by
          simp only [retainFailure, h.finalization_failed hfin, hprobe, happ, hfin,
            State.clearSlot]
        rw [heq] at hr
        split at hr
        next => simp at hr
        next =>
          simp only [Prod.mk.injEq, and_true] at hr
          subst hr
          dsimp only [State.clearSlot]
          have hcore : Core { s with phase := .discoverFast, finalization := none } :=
            h.move_finalization (by simp [hfin]) (by rfl) rfl rfl (by simp)
              { h.identities with finalization := by simp } (by simp) (by simp)
          exact { hcore with
            latest := h.latest
            valid := h.valid
            token := h.token
            running := by simp
            idle := State.forall_mutators.mpr
              ⟨by simp [hprobe], by simp [happ], hprep, by simp⟩
            probe := hprobe
            application := happ
            finalization := rfl }
      | none =>
        have heq : s = s' := by simpa [retainFailure, hprobe, happ, hfin] using hr
        subst heq
        exact { h with probe := hprobe, application := happ, finalization := hfin }

/-- The failures of an old topology are released while the unplug proof accumulates. -/
theorem unplugging (t : Nat) : Sound ((releaseFailures s).timed t) := by
  have hprep := (State.forall_mutators.mp h.idle).2.2.1
  have hprobe : (if s.phase = .probeFailed then none else s.probe) = none := by
    cases hp : s.probe with
    | none => simp
    | some a => rw [if_pos (h.probe_failed hp)]
  have happ : (if s.phase = .applyFailed then none else s.application) = none := by
    cases hp : s.application with
    | none => simp
    | some a => rw [if_pos (h.application_failed hp)]
  have hfin : (if s.phase = .finalizeFailed then none else s.finalization) = none := by
    cases hp : s.finalization with
    | none => simp
    | some a => rw [if_pos (h.finalization_failed hp)]
  unfold releaseFailures State.timed
  simp only [hprobe, happ, hfin]
  refine Core.sound ?_ (h.started (by simp)) scopedAt_none
    (State.forall_mutators.mpr ⟨by simp, by simp, fun a ha =>
      ActionLifecycle.ne_of_terminal (hprep a ha) rfl, by simp⟩) (.inl (by simp)) (by simp [WakeAt])
  exact { h with
    control := ControlAt.vacant rfl h.control.planning_fits h.control.preparation_fits
      (ControlAt.preparationPhases_of_inactive h.inactive) h.control.ready
    desktop := { h.desktop with prepared := by simp, unfinalized := by simp }
    identities := { h.identities with
      probe := by simp
      application := by simp
      finalization := by simp }
    selection := { h.selection with probing := by simp }
    attempts := { h.attempts with
      probe := by simp
      application := by simp
      finalization := by simp } }

end Free

theorem IdentitiesAt.raise {high high' transitionHigh transitionHigh' : Nat}
    {tombstones : List ActionTombstone} {units : List WorkerUnit} {probe : Option ProbeAction}
    {application : Option ApplicationAction} {planning : Option PlanningAction}
    {preparation : Option PreparationAction} {finalization : Option FinalizationAction}
    (h : IdentitiesAt high transitionHigh tombstones units probe application planning preparation
      finalization) (hle : high ≤ high') (htle : transitionHigh ≤ transitionHigh') :
    IdentitiesAt high' transitionHigh' tombstones units probe application planning preparation
      finalization where
  tidy := h.tidy
  buried t ht := (h.buried t ht).trans hle
  recoveryUnits := h.recoveryUnits
  probe a ha := (h.probe a ha).mono hle
  application a ha := (h.application a ha).mono hle
  planning a ha := ⟨(h.planning a ha).1.mono hle, (h.planning a ha).2.trans htle⟩
  preparation a ha := ⟨(h.preparation a ha).1.mono hle, (h.preparation a ha).2.trans htle⟩
  finalization a ha := ⟨(h.finalization a ha).1.mono hle, (h.finalization a ha).2.trans htle⟩

theorem selectTarget_scope {o : CanonicalObservation} {target : ProfileMatch}
    (ht : selectTarget o = some target) (he : o.hasExternalHardware = true) :
    target.scope ≠ .internalOnly := by
  obtain ⟨-, hscope⟩ := Option.filter_eq_some_iff.mp ht
  simpa [he] using hscope

theorem candidateFor_scope {s : State} {o : CanonicalObservation} {target : ProfileMatch}
    (ht : selectTarget o = some target) :
    ∀ c ∈ some (candidateFor s o target), c.mapping.physicalEpoch = s.physicalEpoch ∧
      (o.hasExternalHardware = true → c.scope ≠ .internalOnly) := by
  rintro _ ⟨⟩
  exact ⟨rfl, selectTarget_scope ht⟩

namespace Open

variable {s : State} {o : CanonicalObservation} (h : Open s o)
include h

theorem vacant {phase : ControllerPhase} (hp : phase.workless = true) :
    ControlAt phase s.planningState s.preparationState s.probe s.application s.planning
      s.preparation s.finalization :=
  h.control.rephase h.probe h.application h.finalization hp
    (ControlAt.preparationPhases_of_inactive h.inactive)

theorem candidate : ∀ c ∈ s.candidate, c.mapping.physicalEpoch = s.physicalEpoch ∧
    (o.hasExternalHardware = true → c.scope ≠ .internalOnly) :=
  fun c hc => ⟨h.selection.epoch c hc, fun he => h.selection.scope o h.latest he c hc⟩

/-- An open state settles in any phase without workers, on any candidate in scope. -/
theorem settle {phase : ControllerPhase} {candidate : Option CandidateSelection}
    {aggressive timer v unknownSince : Option Nat} {index : Nat} {stable : Option Text}
    {keys : Finset ApplicationAttemptKey} {retries : Finset Text}
    {unknownKey : Option ObservationKey} {baseline : Bool}
    {requirement : s.desktopFinalizationRequired = true →
      s.desktopFinalizedProfile = none ∧ baseline = false}
    (hp : phase.workless = true) (hv : phase ≠ .verifying ∨ v = none) (hw : WakeAt phase timer)
    (hc : ∀ c ∈ candidate, c.mapping.physicalEpoch = s.physicalEpoch ∧
      (o.hasExternalHardware = true → c.scope ≠ .internalOnly))
    (hb : baseline = true → s.baselineAdoption = true) :
    Sound
      { s with
        phase := phase
        candidate := candidate
        aggressiveDeadlineMs := aggressive
        nextTimerMs := timer
        backoffIndex := index
        verifySinceMs := v
        stableXProfile := stable
        attemptedApplicationKeys := keys
        immediateRetryUsedProfiles := retries
        unknownKey := unknownKey
        unknownSinceMs := unknownSince
        baselineAdoption := baseline
        requirement := requirement } := by
  have hrec := (ControlAt.fits_workless hp).2.2.2
  refine Core.sound ?_ (h.started hrec) (by simp [ScopedAt, h.application]) h.none_admitted hv hw
  exact { h with
    control := h.vacant hp
    desktop := { h.desktop with baseline := fun hbase => h.desktop.baseline (hb hbase) }
    selection := {
      unobserved := fun hl => absurd hl h.observed
      epoch := fun c hc' => (hc c hc').1
      scope := fun p hp he c hc' => by
        rw [h.latest, Option.mem_some] at hp
        subst hp
        exact (hc c hc').2 he
      probing := fun hp => absurd h.probe hp
      preparing := fun hq => absurd (hq.symm.trans h.inactive) (by simp) }
    attempts := { h.attempts with application := by simp [h.application] } }

theorem waits {nowMs : Nat} {d : Decision} (hw : Waits s nowMs d) : Sound d.state := by
  cases hw with
  | wait phase aggressive index t hp hd hs =>
    refine h.settle ?_ (.inr rfl) (by simp [WakeAt]) h.candidate id
    rcases hp with rfl | rfl <;> rfl

theorem clearUnknown : Open (clearUnknown s) o := by
  unfold MonitorController.clearUnknown
  exact { h with }

theorem dropPlan : Open s.dropPlan o := by
  have hcore := h.toCore.dropPlan h.finalization
  dsimp only [State.dropPlan] at hcore ⊢
  exact { hcore with
    latest := h.latest
    valid := h.valid
    token := h.token
    running := h.running
    idle := State.forall_mutators.mpr
      ⟨by simp [h.probe], by simp [h.application], by simp, by simp [h.finalization]⟩
    probe := h.probe
    application := h.application
    finalization := h.finalization }

/-- A probe is admitted on the sample which selects it. -/
theorem probes {c : ProbeCandidate} (hc : o.probeCandidate = some c) {action : ProbeAction}
    (ha : action =
      { actionId := s.nextActionId .probe
        key := ⟨s.physicalEpoch, c.profile, o.observationKey⟩
        admittedEventGeneration := o.eventGeneration
        output := c.output
        internalOutput := c.internalOutput
        preferredMode := c.preferredMode
        kind_probe := rfl }) :
    Sound
      { allocateAction (MonitorController.clearUnknown s).dropPlan with
        phase := .probePending
        candidate := none
        probe := some action
        baselineAdoption := false
        verifySinceMs := none
        nextTimerMs := some o.observedAtMs
        requirement := fun h => ⟨(s.requirement h).1, rfl⟩ } := by
  have hopen := h.clearUnknown.dropPlan
  have hids := hopen.identities
  dsimp only [allocateAction, MonitorController.clearUnknown, State.dropPlan] at hopen hids ⊢
  have hfresh : Known (s.actionSequenceHighWater + 1) _ (.probe action) :=
    Known.fresh hids.buried (by rw [ha]; rfl) (by rw [ha]; rfl)
  have hraised := hids.raise (Nat.le_succ _) le_rfl
  subst ha
  exact {
    control := {
      probe_fits := ⟨_, rfl, by simp⟩
      application_fits := by rw [h.application]; rfl
      finalization_fits := by rw [h.finalization]; rfl
      planning_fits := rfl
      preparation_fits := rfl
      recovering := fun _ => ⟨rfl, rfl⟩
      probing := fun _ => ⟨rfl, rfl⟩
      phases := rfl
      ready := fun hne => absurd rfl hne
      prepared := fun hne => absurd h.finalization hne }
    desktop := { hopen.desktop with baseline := by simp }
    identities := { hraised with probe := by rintro _ ⟨⟩; exact hfresh }
    evidence := h.evidence
    selection := {
      unobserved := fun hl => absurd hl h.observed
      epoch := by simp
      scope := by simp
      probing := fun _ => rfl
      preparing := by simp [PreparationState.active] }
    unplug := h.unplug
    attempts := { hopen.attempts with
      probe := by
        rintro _ ⟨⟩
        exact ⟨⟨h.evidence.event o h.latest, fun _ => rfl, by simp [ActionLifecycle.mutatingInFlight]⟩,
          fun hu => absurd rfl hu⟩ }
    started := h.started (by simp)
    inScope := by simp [ScopedAt, h.application]
    pending := {
      probe := by
        rintro _ ⟨⟩ -
        exact ⟨rfl, o, h.latest, h.valid, rfl, rfl, c, hc, rfl, rfl, rfl, rfl⟩
      application := by simp [h.application]
      preparation := by simp
      finalization := by simp [h.finalization] }
    verified := by simp [ProofAt]
    wake := by simp [WakeAt] }

/-- An application is admitted on the sample which selects its target. -/
theorem applies {target : ProfileMatch} (ht : selectTarget o = some target)
    {action : ApplicationAction} (ha : action =
      { actionId := s.nextActionId .application
        key := ⟨s.physicalEpoch, target.profile, o.observationKey⟩
        admittedEventGeneration := o.eventGeneration
        profile := target.profile
        scope := target.scope
        mapping := mappingProof s o target
        kind_application := rfl
        profile_key := rfl
        profile_mapping := rfl }) :
    Sound
      { allocateAction (MonitorController.clearUnknown s) with
        candidate := some (candidateFor s o target)
        baselineAdoption := false
        attemptedApplicationKeys := s.attemptedApplicationKeys.erase action.key
        phase := .applyPending
        application := some action
        nextTimerMs := some o.observedAtMs
        requirement := fun h => ⟨(s.requirement h).1, rfl⟩ } := by
  have hfresh : Known (s.actionSequenceHighWater + 1) s.actionTombstones (.application action) :=
    Known.fresh h.identities.buried (by rw [ha]; rfl) (by rw [ha]; rfl)
  have hraised := h.identities.raise (Nat.le_succ s.actionSequenceHighWater) le_rfl
  have hprep := (State.forall_mutators.mp h.idle).2.2.1
  subst ha
  dsimp only [allocateAction, MonitorController.clearUnknown]
  exact {
    control := {
      probe_fits := by rw [h.probe]; rfl
      application_fits := ⟨_, rfl, by simp⟩
      finalization_fits := by rw [h.finalization]; rfl
      planning_fits := h.control.planning_fits
      preparation_fits := h.control.preparation_fits
      recovering := by simp
      probing := fun hne => absurd h.probe hne
      phases := ControlAt.preparationPhases_of_inactive h.inactive
      ready := h.control.ready
      prepared := fun hne => absurd h.finalization hne }
    desktop := { h.desktop with baseline := by simp }
    identities := { hraised with application := by rintro _ ⟨⟩; exact hfresh }
    evidence := h.evidence
    selection := {
      unobserved := fun hl => absurd hl h.observed
      epoch := by rintro _ ⟨⟩; rfl
      scope := fun p hp he c hc => by
        rw [h.latest, Option.mem_some] at hp
        subst hp
        exact (candidateFor_scope (s := s) ht c hc).2 he
      probing := fun hp => absurd h.probe hp
      preparing := fun hq => absurd (hq.symm.trans h.inactive) (by simp) }
    unplug := h.unplug
    attempts := { h.attempts with
      application := by
        rintro _ ⟨⟩
        exact ⟨⟨h.evidence.event o h.latest, fun _ => rfl, by simp [ActionLifecycle.mutatingInFlight]⟩,
          fun hu => absurd rfl hu⟩ }
    started := h.started (by simp)
    inScope := by
      rintro p hp he _ ⟨⟩
      rw [h.latest, Option.mem_some] at hp
      subst hp
      exact selectTarget_scope ht he
    pending := {
      probe := by simp [h.probe]
      application := by
        rintro _ ⟨⟩ -
        exact ⟨rfl, rfl, o, h.latest, h.valid, rfl, rfl⟩
      preparation := fun a ha' hl => absurd hl (ActionLifecycle.ne_of_terminal (hprep a ha') rfl)
      finalization := by simp [h.finalization] }
    verified := by simp [ProofAt]
    wake := by simp [WakeAt] }

theorem rearm (profile : Text) : Open (rearmAchievedApplication s profile) o := by
  obtain ⟨keys, -, retries, heq⟩ := rearmAchievedApplication_eq s profile
  rw [heq]
  exact { h with attempts := { h.attempts with application := by simp [h.application] } }

/-- The verification of an exact target rests on the sample. -/
theorem verify {target : ProfileMatch} (ht : selectTarget o = some target)
    (hx : o.exactProfile = some target.profile ∧ target.profile ∈ o.currentProfiles) {s' : State}
    {es : List Effect} (hv : Verifies s o target s' es) :
    Verifying { s' with phase := .verifying } o target.profile := by
  have hexact {c : CandidateSelection} (hp : c.profile = target.profile)
      (hk : c.observationKey = o.observationKey) : ExactOn o c.profile c.observationKey :=
    ⟨h.valid, hk.symm, by rw [hp, hx.1], by rw [hp]; exact hx.2⟩
  have enter {s : State} (h : Open s o)
      (hc : ∃ c ∈ s.candidate, c.profile = target.profile ∧ c.observationKey = o.observationKey)
      (hp : ∀ p ∈ s.planning, p.profile = target.profile) :
      Verifying { s with phase := .verifying } o target.profile := by
    obtain ⟨c, hcand, hprofile, hkey⟩ := hc
    exact { h with
      control := h.vacant rfl
      running := by simp
      verifying := rfl
      proven := ⟨c, hcand, hprofile, hexact hprofile hkey⟩
      planned := hp }
  cases hv with
  | kept hs hi =>
    refine enter h hs.2.1 fun p hp => ?_
    have hsame : p.inputKey = planningInputKey s target o.observationKey := by
      by_contra hne
      exact hi ⟨p, hp, hne⟩
    rw [← p.profile_input, hsame]
    rfl
  | replanned hs hi => exact enter h.dropPlan hs.2.1 (by rintro p ⟨⟩)
  | restarted hs =>
    have hopen := h.dropPlan
    have hcore : Open (restartProof s.dropPlan o target) o := by
      unfold restartProof
      dsimp only [State.dropPlan] at hopen ⊢
      exact { hopen with
        selection := {
          unobserved := fun hl => absurd hl h.observed
          epoch := by rintro _ ⟨⟩; rfl
          scope := fun p hp he c hc => by
            rw [h.latest, Option.mem_some] at hp
            subst hp
            exact (candidateFor_scope (s := s) ht c hc).2 he
          probing := fun hp => absurd h.probe hp
          preparing := by simp [PreparationState.active] } }
    exact enter hcore ⟨_, rfl, rfl, rfl⟩ (by rintro p ⟨⟩)

end Open

namespace Verifying

variable {s : State} {o : CanonicalObservation} {target : ProfileMatch}
  (h : Verifying s o target.profile)
include h

/-- A plan is admitted for the target alone. -/
theorem plans {s' : State} {es : List Effect} (hp : Plans s o target s' es) :
    Verifying s' o target.profile := by
  cases hp with
  | kept => exact h
  | admitted hf hb hidle =>
    have hprep : s.preparationState = .prepareIdle := by
      by_contra hne
      simpa [hidle] using h.control.ready hne
    have hfresh : Known (s.actionSequenceHighWater + 1) s.actionTombstones
        (.planning (planFor s o target)) :=
      Known.fresh h.identities.buried rfl rfl
    have hraised := h.identities.raise (Nat.le_succ s.actionSequenceHighWater)
      (Nat.le_succ s.transitionSequenceHighWater)
    have hfit := h.control.preparation_fits
    rw [hprep] at hfit
    have hnone : s.preparation = none := by simpa [Fits, expectedPreparation] using hfit
    unfold admitPlan
    dsimp only [allocateAction, allocateTransition]
    exact { h with
      control := {
        probe_fits := h.control.probe_fits
        application_fits := h.control.application_fits
        finalization_fits := h.control.finalization_fits
        planning_fits := ⟨_, rfl, by simp [planFor]⟩
        preparation_fits := h.control.preparation_fits
        recovering := fun hp => absurd hp h.running
        probing := fun hne => absurd h.probe hne
        phases := h.control.phases
        ready := fun hne => absurd hprep hne
        prepared := fun hne => absurd h.finalization hne }
      desktop := { h.desktop with
        staged := by simp
        planned := by simp [hnone]
        baseline := by simp [hb] }
      identities := { hraised with
        planning := by rintro _ ⟨⟩; exact ⟨hfresh, le_rfl⟩ }
      planned := by rintro _ ⟨⟩; rfl }

/-- A prepared desktop is finalized on a complete proof. -/
theorem finalizes {since : Nat} {c : CandidateSelection} {q : PreparationAction}
    (hv : s.verifySinceMs = some since) (hc : s.candidate = some c)
    (hp : proofComplete s o since = true) (hf : s.desktopFinalizedProfile ≠ some c.profile)
    (hq : s.preparation = some q) (hqs : s.preparationState = .prepared) :
    Sound
      { allocateAction s with
        phase := .finalizePending
        finalization := some (finalizationFor s o c q)
        nextTimerMs := some o.observedAtMs } := by
  obtain ⟨c', hc', hprofile, hexact⟩ := h.proven
  obtain rfl := Option.mem_unique hc hc'
  have hfresh : Known (s.actionSequenceHighWater + 1) s.actionTombstones
      (.finalization (finalizationFor s o c q)) :=
    Known.fresh h.identities.buried rfl rfl
  have hraised := h.identities.raise (Nat.le_succ s.actionSequenceHighWater) le_rfl
  have hprep := (State.forall_mutators.mp h.idle).2.2.1
  obtain ⟨p, hplan, -, -, hsame⟩ := h.desktop.planned q hq
  have hproven : since + profileStabilityMs ≤ o.observedAtMs := by
    simp only [proofComplete, Bool.and_eq_true, decide_eq_true_eq] at hp
    exact hp.1
  dsimp only [allocateAction]
  exact {
    control := {
      probe_fits := by rw [h.probe]; rfl
      application_fits := by rw [h.application]; rfl
      finalization_fits := ⟨_, rfl, by simp [finalizationFor]⟩
      planning_fits := h.control.planning_fits
      preparation_fits := h.control.preparation_fits
      recovering := by simp
      probing := fun hne => absurd h.probe hne
      phases := by rw [hqs]; rfl
      ready := h.control.ready
      prepared := fun _ => hqs }
    desktop := { h.desktop with
      prepared := by
        rintro _ ⟨⟩
        exact ⟨q, hq, rfl, rfl, rfl, hsame.trans ((h.planned p hplan).trans hprofile.symm)⟩
      unfinalized := by rintro _ ⟨⟩; exact hf.symm }
    identities := { hraised with
      finalization := by rintro _ ⟨⟩; exact ⟨hfresh, (h.identities.preparation q hq).2⟩ }
    evidence := h.evidence
    selection := h.selection
    unplug := h.unplug
    attempts := { h.attempts with
      finalization := by
        rintro _ ⟨⟩
        exact ⟨h.evidence.event o h.latest, fun _ => rfl,
          by simp [finalizationFor, ActionLifecycle.mutatingInFlight]⟩ }
    started := h.started (by simp)
    inScope := by simp [ScopedAt, h.application]
    pending := {
      probe := by simp [h.probe]
      application := by simp [h.application]
      preparation := fun a ha hl => absurd hl (ActionLifecycle.ne_of_terminal (hprep a ha) rfl)
      finalization := by
        rintro _ ⟨⟩ -
        exact ⟨⟨since, hv, o, h.latest, hproven⟩, o, h.latest,
          ⟨h.valid, rfl, hexact.exact, hexact.current⟩, rfl⟩ }
    verified := by simp [ProofAt]
    wake := by simp [WakeAt] }

/-- A ready plan is prepared for the candidate on a proof which is old enough. -/
theorem prepares {since : Nat} {c : CandidateSelection} {p : PlanningAction} {planHash : PlanHash}
    (hv : s.verifySinceMs = some since) (hc : s.candidate = some c)
    (hp : since + preparationStabilityMs ≤ o.observedAtMs) (hb : s.baselineAdoption = false)
    (hl : s.planning = some p) (hls : s.planningState = .planReady)
    (hh : p.planHash = some planHash) (t : Nat) :
    Sound
      (({ allocateAction s with
          preparationState := .preparePending
          preparation := some (preparationFor s o c p planHash) }).timed t) := by
  obtain ⟨c', hc', hprofile, hexact⟩ := h.proven
  obtain rfl := Option.mem_unique hc hc'
  have hfresh : Known (s.actionSequenceHighWater + 1) s.actionTombstones
      (.preparation (preparationFor s o c p planHash)) :=
    Known.fresh h.identities.buried rfl rfl
  have hraised := h.identities.raise (Nat.le_succ s.actionSequenceHighWater) le_rfl
  dsimp only [State.timed, allocateAction]
  exact {
    control := {
      probe_fits := h.control.probe_fits
      application_fits := h.control.application_fits
      finalization_fits := h.control.finalization_fits
      planning_fits := h.control.planning_fits
      preparation_fits := ⟨_, rfl, by simp [preparationFor]⟩
      recovering := fun hp => absurd hp h.running
      probing := fun hne => absurd h.probe hne
      phases := by rw [h.verifying]; rfl
      ready := fun _ => hls
      prepared := fun hne => absurd h.finalization hne }
    desktop := {
      staged := h.desktop.staged
      planned := by
        rintro _ ⟨⟩
        exact ⟨p, hl, hh.symm, rfl, hprofile.trans (h.planned p hl).symm⟩
      prepared := by simp [h.finalization]
      unfinalized := h.desktop.unfinalized
      baseline := by simp [hb] }
    identities := { hraised with
      preparation := by rintro _ ⟨⟩; exact ⟨hfresh, (h.identities.planning p hl).2⟩ }
    evidence := h.evidence
    selection := { h.selection with
      preparing := by
        rintro - _ ⟨⟩ c' hc'
        obtain rfl := Option.mem_unique hc hc'
        exact ⟨rfl, hexact.key.symm⟩ }
    unplug := h.unplug
    attempts := { h.attempts with
      preparation := by
        rintro _ ⟨⟩
        exact ⟨h.evidence.event o h.latest, fun _ => rfl,
          by simp [preparationFor, ActionLifecycle.mutatingInFlight]⟩ }
    started := h.started h.running
    inScope := by simp [ScopedAt, h.application]
    pending := {
      probe := by simp [h.probe]
      application := by simp [h.application]
      preparation := by
        rintro _ ⟨⟩ -
        exact ⟨⟨since, hv, o, h.latest, hp⟩, o, h.latest,
          ⟨h.valid, rfl, hexact.exact, hexact.current⟩, rfl⟩
      finalization := by simp [h.finalization] }
    verified := fun _ _ => ⟨o, h.latest, c, hc, hexact⟩
    wake := by simp [WakeAt] }

theorem advances {es : List Effect} {d : Decision} (hd : Advances s o es d) : Sound d.state := by
  cases hd with
  | finalized since c hv hc hp hf =>
    have hopen := h.toOpen.dropPlan
    unfold resetApplicationRecovery
    dsimp only [State.dropPlan] at hopen ⊢
    exact hopen.settle rfl (.inl (by simp)) (by simp [WakeAt, unwoken]) h.candidate (by simp)
  | adopted since c hv hc hp hb =>
    obtain ⟨hidle, hprep⟩ := h.desktop.baseline hb
    unfold resetApplicationRecovery
    dsimp only
    refine Core.sound ?_ (h.started (by simp)) (by simp [ScopedAt, h.application])
      h.none_admitted (.inl (by simp)) (by simp [WakeAt, unwoken])
    exact { h with
      control := h.vacant rfl
      desktop := { h.desktop with unfinalized := by simp [h.finalization], baseline := by simp }
      attempts := { h.attempts with application := by simp [h.application] } }
  | finalizes since c q hv hc hp hf hb hq hqs hn => exact h.finalizes hv hc hp hf hq hqs
  | prepares since c p planHash hv hc hp hf hb hl hls hh hqs =>
    exact h.prepares hv hc hp hb hl hls hh _
  | settled since c t hv hc ht =>
    obtain ⟨c, hc, -, hexact⟩ := h.proven
    dsimp only [State.timed]
    exact { h.retime s.verifySinceMs (some t) with
      started := h.started h.running
      inScope := by simp [ScopedAt, h.application]
      pending := .settled (by simp [h.probe]) (by simp [h.application])
        (State.forall_mutators.mp h.none_admitted).2.2.1 (by simp [h.finalization])
      verified := fun _ _ => ⟨o, h.latest, c, hc, hexact⟩
      wake := by simp [WakeAt] }

end Verifying

theorem Open.selects {s : State} {o : CanonicalObservation} {d : Decision} (h : Open s o)
    (hd : Selects s o d) : Sound d.state := by
  cases hd with
  | deferred hz =>
    exact h.clearUnknown.settle rfl (.inr rfl) (by simp [WakeAt]) h.candidate id
  | waits hw => exact h.waits hw
  | waitsKnown hw => exact h.clearUnknown.waits hw
  | waitsSpent target ht hz hw =>
    cases hw with
    | wait phase aggressive index t hp hd hs =>
      refine h.settle ?_ (.inr rfl) (by simp [WakeAt]) (candidateFor_scope ht.2) (by simp)
      rcases hp with rfl | rfl <;> rfl
  | probes c hz hc action ha hk => exact h.probes hc ha
  | stable target ht hx hs =>
    have hopen := h.clearUnknown.rearm target.profile
    exact hopen.settle rfl (.inl (by simp)) (by simp [WakeAt, unwoken]) hopen.candidate id
  | verifies target s' es s'' fs ht hx hv hp ha =>
    exact (((h.clearUnknown.rearm target.profile).verify ht.2 hx hv).plans hp).advances ha
  | applies target ht hz hx action ha hk => exact h.applies ht.2 ha
  | unknown phase since t hp hs =>
    refine h.settle ?_ (.inr rfl) (by simp [WakeAt]) h.candidate id
    rcases hp with ⟨rfl, -⟩ | ⟨rfl, -⟩ <;> rfl

theorem Free.classified {s : State} {o : CanonicalObservation} {d : Decision} (h : Free s o)
    (hn : ¬ keepsInternal s o) (hd : Classifies s o d) : Sound d.state := by
  cases hd with
  | unplugging s' he hu => exact (h.unplugged hu).unplugging _
  | retained s' hs hr =>
    refine (h.settled hs).retained ?_ hr _
    cases hs with
    | external he => exact hn
    | unplugged he hu => exact fun hk => absurd (he.symm.trans hk.1) (by simp)
  | selected s' s'' hs hr hd => exact ((h.settled hs).released hr).selects hd

end MonitorController
