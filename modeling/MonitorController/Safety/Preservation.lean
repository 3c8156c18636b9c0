import MonitorController.Safety.Components

/-! # Steps of workers and hints keep the invariant

Each move of the transition relation which does not look at a new sample keeps
the invariant. A retried plan is the one exception.
-/

namespace MonitorController

theorem WorkerAt.mono {g g' : EventGeneration} {w : WorkerAction} (h : WorkerAt g w) (hg : g ≤ g') :
    WorkerAt g' w :=
  ⟨h.admitted.trans hg, h.unlaunched, h.unit⟩

theorem SameWorker.worker {g : EventGeneration} {w v : WorkerAction} (hs : SameWorker w v)
    (h : WorkerAt g w) (hv : v.lifecycle ≠ .admitted)
    (hf : v.lifecycle.mutatingInFlight = true → w.lifecycle.mutatingInFlight = true) :
    WorkerAt g v where
  admitted := hs.admitted ▸ h.admitted
  unlaunched := fun hl => absurd hl hv
  unit := fun hl => by
    rw [hs.unit, hs.deadline]
    exact h.unit (hf hl)

theorem WorkerAt.dispatch {g : EventGeneration} {w : WorkerAction} (h : WorkerAt g w)
    {unit : WorkerUnit} {deadline : Nat} (hu : unit.actionId = w.actionId)
    (hl : w.lifecycle = .admitted) : WorkerAt g (w.dispatch unit deadline hu hl) where
  admitted := h.admitted
  unlaunched := nofun
  unit := fun _ => by simp [WorkerAction.dispatch]

theorem AttemptsAt.mono {g g' : EventGeneration} {probeKeys : Finset ProbeAttemptKey}
    {applicationKeys : Finset ApplicationAttemptKey} {probe : Option ProbeAction}
    {application : Option ApplicationAction} {preparation : Option PreparationAction}
    {finalization : Option FinalizationAction}
    (h : AttemptsAt g probeKeys applicationKeys probe application preparation finalization)
    (hg : g ≤ g') :
    AttemptsAt g' probeKeys applicationKeys probe application preparation finalization where
  probe a ha := ⟨(h.probe a ha).1.mono hg, (h.probe a ha).2⟩
  application a ha := ⟨(h.application a ha).1.mono hg, (h.application a ha).2⟩
  preparation a ha := (h.preparation a ha).mono hg
  finalization a ha := (h.finalization a ha).mono hg

theorem PendingAt.settled {latest : Option CanonicalObservation} {epoch : Nat}
    {verifySince : Option Nat} {probe : Option ProbeAction}
    {application : Option ApplicationAction} {preparation : Option PreparationAction}
    {finalization : Option FinalizationAction}
    (hprobe : ∀ a ∈ probe, a.lifecycle ≠ .admitted)
    (happ : ∀ a ∈ application, a.lifecycle ≠ .admitted)
    (hprep : ∀ a ∈ preparation, a.lifecycle ≠ .admitted)
    (hfin : ∀ a ∈ finalization, a.lifecycle ≠ .admitted) :
    PendingAt latest epoch verifySince probe application preparation finalization where
  probe a ha hl := absurd hl (hprobe a ha)
  application a ha hl := absurd hl (happ a ha)
  preparation a ha hl := absurd hl (hprep a ha)
  finalization a ha hl := absurd hl (hfin a ha)

namespace Core

variable {s : State} (h : Core s) {phase : ControllerPhase} {planningState : PlanningState}
  {preparationState : PreparationState} {probe : Option ProbeAction}
  {application : Option ApplicationAction} {planning : Option PlanningAction}
  {preparation : Option PreparationAction} {finalization : Option FinalizationAction}
  {tombstones : List ActionTombstone} {units : List WorkerUnit} {v t : Option Nat}
include h

theorem move_probe {keys : Finset ProbeAttemptKey} (hne : s.probe ≠ none)
    (hfit : Fits (probe.map (·.lifecycle)) (probeShape phase))
    (happ : applicationShape phase = none) (hfin : expectedFinalizationLifecycles phase = none)
    (hrec : phase ≠ .recovering)
    (hids : IdentitiesAt s.actionSequenceHighWater s.transitionSequenceHighWater tombstones units
      probe s.application s.planning s.preparation s.finalization)
    (hatt : ∀ a ∈ probe, WorkerAt s.eventGeneration a.toWorkerAction ∧
      (a.unit ≠ none → a.key ∈ keys)) :
    Core
      { s with
        phase := phase
        probe := probe
        attemptedProbeKeys := keys
        actionTombstones := tombstones
        recoveryUnits := units
        verifySinceMs := v
        nextTimerMs := t } where
  control := h.control.probe_at hne hfit happ hfin hrec
  desktop := h.desktop
  identities := hids
  evidence := h.evidence
  selection := { h.selection with probing := fun _ => h.selection.probing hne }
  unplug := h.unplug
  attempts := { h.attempts with probe := hatt }

theorem move_application {keys : Finset ApplicationAttemptKey} (hne : s.application ≠ none)
    (hfit : Fits (application.map (·.lifecycle)) (applicationShape phase))
    (hprobe : probeShape phase = none) (hfin : expectedFinalizationLifecycles phase = none)
    (hrec : phase ≠ .recovering)
    (hids : IdentitiesAt s.actionSequenceHighWater s.transitionSequenceHighWater tombstones units
      s.probe application s.planning s.preparation s.finalization)
    (hatt : ∀ a ∈ application, WorkerAt s.eventGeneration a.toWorkerAction ∧
      (a.unit ≠ none → a.key ∈ keys)) :
    Core
      { s with
        phase := phase
        application := application
        attemptedApplicationKeys := keys
        actionTombstones := tombstones
        recoveryUnits := units
        verifySinceMs := v
        nextTimerMs := t } where
  control := h.control.application_at hne hfit hprobe hfin hrec
  desktop := h.desktop
  identities := hids
  evidence := h.evidence
  selection := h.selection
  unplug := h.unplug
  attempts := { h.attempts with application := hatt }

/-- A pending or running preparation moves on or leaves its slot. -/
theorem move_preparation (hactive : s.preparationState.active = true)
    (hfit : Fits (preparation.map (·.lifecycle)) (expectedPreparation preparationState))
    (hp : phase.workless = true) (hphases : preparationPhases preparationState phase = true)
    (hids : IdentitiesAt s.actionSequenceHighWater s.transitionSequenceHighWater tombstones units
      s.probe s.application s.planning preparation s.finalization)
    (hsame : ∀ a ∈ preparation, ∃ b ∈ s.preparation, a.planHash = b.planHash ∧
      a.transitionId = b.transitionId ∧ a.profile = b.profile ∧
      a.observationKey = b.observationKey)
    (hatt : ∀ a ∈ preparation, WorkerAt s.eventGeneration a.toWorkerAction) :
    Core
      { s with
        phase := phase
        preparationState := preparationState
        preparation := preparation
        actionTombstones := tombstones
        recoveryUnits := units
        verifySinceMs := v
        nextTimerMs := t } where
  control := h.control.preparation_at hactive hfit hp hphases
  desktop := {
    staged := h.desktop.staged
    planned := fun a ha => by
      obtain ⟨b, hb, h1, h2, h3, -⟩ := hsame a ha
      rw [h1, h2, h3]
      exact h.desktop.planned b hb
    prepared := by simp [(h.control.active_alone hactive).2.2]
    unfinalized := h.desktop.unfinalized
    baseline := fun hb => by simp [(h.desktop.baseline hb).2, PreparationState.active] at hactive }
  identities := hids
  evidence := h.evidence
  selection := { h.selection with
    preparing := fun _ a ha c hc => by
      obtain ⟨b, hb, -, -, h3, h4⟩ := hsame a ha
      rw [h3, h4]
      exact h.selection.preparing hactive b hb c hc }
  unplug := h.unplug
  attempts := { h.attempts with preparation := hatt }

/-- The finalization moves on or leaves its slot. -/
theorem move_finalization (hne : s.finalization ≠ none)
    (hfit : Fits (finalization.map (·.lifecycle)) (expectedFinalizationLifecycles phase))
    (hprobe : probeShape phase = none) (happ : applicationShape phase = none)
    (hrec : phase ≠ .recovering)
    (hids : IdentitiesAt s.actionSequenceHighWater s.transitionSequenceHighWater tombstones units
      s.probe s.application s.planning s.preparation finalization)
    (hsame : ∀ a ∈ finalization, ∃ b ∈ s.finalization, a.transitionId = b.transitionId ∧
      a.transitionKey = b.transitionKey ∧ a.planHash = b.planHash ∧ a.profile = b.profile)
    (hatt : ∀ a ∈ finalization, WorkerAt s.eventGeneration a.toWorkerAction) :
    Core
      { s with
        phase := phase
        finalization := finalization
        actionTombstones := tombstones
        recoveryUnits := units
        verifySinceMs := v
        nextTimerMs := t } where
  control := h.control.finalization_at hne hfit hprobe happ hrec
  desktop := { h.desktop with
    prepared := fun a ha => by
      obtain ⟨b, hb, h1, h2, h3, h4⟩ := hsame a ha
      rw [h1, h2, h3, h4]
      exact h.desktop.prepared b hb
    unfinalized := fun a ha => by
      obtain ⟨b, hb, -, -, -, h4⟩ := hsame a ha
      rw [h4]
      exact h.desktop.unfinalized b hb }
  identities := hids
  evidence := h.evidence
  selection := h.selection
  unplug := h.unplug
  attempts := { h.attempts with finalization := hatt }

/-- A plan which is not idle moves on without a preparation. -/
theorem move_planning (hidle : s.planningState ≠ .planIdle)
    (hprep : s.preparationState = .prepareIdle)
    (hfit : Fits (planning.map (·.lifecycle)) (expectedPlanning planningState))
    (hstaged : planningState = .planReady → ∃ p ∈ planning, p.planHash ≠ none)
    (hids : IdentitiesAt s.actionSequenceHighWater s.transitionSequenceHighWater tombstones units
      s.probe s.application planning s.preparation s.finalization) :
    Core
      { s with
        planningState := planningState
        planning := planning
        actionTombstones := tombstones
        recoveryUnits := units
        nextTimerMs := t } where
  control := h.control.planning_at hidle hfit fun hne => absurd hprep hne
  desktop := {
    staged := hstaged
    planned := by
      have hfit := h.control.preparation_fits
      rw [hprep] at hfit
      rintro a ha
      rw [Option.mem_def.mp ha] at hfit
      cases hfit
    prepared := h.desktop.prepared
    unfinalized := h.desktop.unfinalized
    baseline := fun hb => absurd (h.desktop.baseline hb).1 hidle }
  identities := hids
  evidence := h.evidence
  selection := h.selection
  unplug := h.unplug
  attempts := h.attempts

theorem retime (v t : Option Nat) : Core { s with verifySinceMs := v, nextTimerMs := t } :=
  { h with }

theorem dropPlan (hfin : s.finalization = none) : Core s.dropPlan := by
  have hids := h.identities.dropPlan
  dsimp only [State.dropPlan] at hids ⊢
  exact {
    control := h.control.abandon hfin
    desktop := {
      staged := by simp
      planned := by simp
      prepared := by simp [hfin]
      unfinalized := h.desktop.unfinalized
      baseline := fun _ => ⟨rfl, rfl⟩ }
    identities := hids
    evidence := h.evidence
    selection := { h.selection with preparing := by simp [PreparationState.active] }
    unplug := h.unplug
    attempts := { h.attempts with preparation := by simp } }

theorem supersede {g : EventGeneration} (hg : s.eventGeneration ≤ g) (nowMs : Nat) :
    Core (supersedeProofs s g nowMs) := by
  unfold supersedeProofs
  exact { h with
    evidence := { h.evidence with event := fun o ho => (h.evidence.event o ho).trans hg }
    unplug := by simp [UnplugAt]
    attempts := h.attempts.mono hg }

theorem sound (hs : s.phase = .recovering ↔ s.latestObservation = none)
    (hscope : ScopedAt s.latestObservation s.application)
    (hn : ∀ w ∈ s.mutators, w.lifecycle ≠ .admitted)
    (hv : s.phase ≠ .verifying ∨ s.verifySinceMs = none) (hw : WakeAt s.phase s.nextTimerMs) :
    Sound s := by
  obtain ⟨h1, h2, h3, h4⟩ := State.forall_mutators.mp hn
  exact { h with
    started := hs
    inScope := hscope
    pending := .settled h1 h2 h3 h4
    verified := fun hp hne => (hv.elim (absurd hp) fun hv => absurd hv hne)
    wake := hw }

theorem settle_probe {keys : Finset ProbeAttemptKey} (hne : s.probe ≠ none)
    (hlatest : s.latestObservation ≠ none)
    (hfit : Fits (probe.map (·.lifecycle)) (probeShape phase))
    (happ : applicationShape phase = none) (hfin : expectedFinalizationLifecycles phase = none)
    (hphase : phase ≠ .recovering ∧ phase ≠ .verifying)
    (hids : IdentitiesAt s.actionSequenceHighWater s.transitionSequenceHighWater tombstones units
      probe s.application s.planning s.preparation s.finalization)
    (hatt : ∀ a ∈ probe, WorkerAt s.eventGeneration a.toWorkerAction ∧
      (a.unit ≠ none → a.key ∈ keys))
    (hn : ∀ a ∈ probe, a.lifecycle ≠ .admitted) (hw : WakeAt phase t) :
    Sound
      { s with
        phase := phase
        probe := probe
        attemptedProbeKeys := keys
        actionTombstones := tombstones
        recoveryUnits := units
        verifySinceMs := v
        nextTimerMs := t } := by
  obtain ⟨h1, -, h3, h4⟩ := h.control.probe_alone hne
  refine (h.move_probe hne hfit happ hfin hphase.1 hids hatt).sound
    ⟨fun hp => absurd hp hphase.1, fun hl => absurd hl hlatest⟩ ?_ ?_ (.inl hphase.2) hw
  · simp [ScopedAt, h1]
  · exact State.forall_mutators.mpr ⟨hn, by simp [h1], by simp [h3], by simp [h4]⟩

theorem settle_application {keys : Finset ApplicationAttemptKey} (hne : s.application ≠ none)
    (hlatest : s.latestObservation ≠ none)
    (hfit : Fits (application.map (·.lifecycle)) (applicationShape phase))
    (hprobe : probeShape phase = none) (hfin : expectedFinalizationLifecycles phase = none)
    (hphase : phase ≠ .recovering ∧ phase ≠ .verifying)
    (hids : IdentitiesAt s.actionSequenceHighWater s.transitionSequenceHighWater tombstones units
      s.probe application s.planning s.preparation s.finalization)
    (hatt : ∀ a ∈ application, WorkerAt s.eventGeneration a.toWorkerAction ∧
      (a.unit ≠ none → a.key ∈ keys))
    (hn : ∀ a ∈ application, a.lifecycle ≠ .admitted)
    (hscope : ScopedAt s.latestObservation application) (hw : WakeAt phase t) :
    Sound
      { s with
        phase := phase
        application := application
        attemptedApplicationKeys := keys
        actionTombstones := tombstones
        recoveryUnits := units
        verifySinceMs := v
        nextTimerMs := t } := by
  obtain ⟨h1, h2, hactive⟩ := h.control.application_alone hne
  refine (h.move_application hne hfit hprobe hfin hphase.1 hids hatt).sound
    ⟨fun hp => absurd hp hphase.1, fun hl => absurd hl hlatest⟩ hscope ?_ (.inl hphase.2) hw
  exact State.forall_mutators.mpr ⟨by simp [h1], hn, fun a ha =>
    ActionLifecycle.ne_of_terminal (h.control.preparation_settled hactive a ha) rfl, by simp [h2]⟩

theorem settle_preparation (hactive : s.preparationState.active = true)
    (hlatest : s.latestObservation ≠ none)
    (hfit : Fits (preparation.map (·.lifecycle)) (expectedPreparation preparationState))
    (hp : phase.workless = true) (hphases : preparationPhases preparationState phase = true)
    (hids : IdentitiesAt s.actionSequenceHighWater s.transitionSequenceHighWater tombstones units
      s.probe s.application s.planning preparation s.finalization)
    (hsame : ∀ a ∈ preparation, ∃ b ∈ s.preparation, a.planHash = b.planHash ∧
      a.transitionId = b.transitionId ∧ a.profile = b.profile ∧
      a.observationKey = b.observationKey)
    (hatt : ∀ a ∈ preparation, WorkerAt s.eventGeneration a.toWorkerAction)
    (hn : ∀ a ∈ preparation, a.lifecycle ≠ .admitted)
    (hproof : ProofAt phase s.latestObservation s.candidate v) (hw : WakeAt phase t) :
    Sound
      { s with
        phase := phase
        preparationState := preparationState
        preparation := preparation
        actionTombstones := tombstones
        recoveryUnits := units
        verifySinceMs := v
        nextTimerMs := t } := by
  obtain ⟨h1, h2, h3⟩ := h.control.active_alone hactive
  have hrec : phase ≠ .recovering := (ControlAt.fits_workless hp).2.2.2
  exact { h.move_preparation hactive hfit hp hphases hids hsame hatt with
    started := ⟨fun hp => absurd hp hrec, fun hl => absurd hl hlatest⟩
    inScope := by simp [ScopedAt, h2]
    pending := .settled (by simp [h1]) (by simp [h2]) hn (by simp [h3])
    verified := hproof
    wake := hw }

theorem settle_finalization (hne : s.finalization ≠ none) (hlatest : s.latestObservation ≠ none)
    (hfit : Fits (finalization.map (·.lifecycle)) (expectedFinalizationLifecycles phase))
    (hprobe : probeShape phase = none) (happ : applicationShape phase = none)
    (hphase : phase ≠ .recovering ∧ phase ≠ .verifying)
    (hids : IdentitiesAt s.actionSequenceHighWater s.transitionSequenceHighWater tombstones units
      s.probe s.application s.planning s.preparation finalization)
    (hsame : ∀ a ∈ finalization, ∃ b ∈ s.finalization, a.transitionId = b.transitionId ∧
      a.transitionKey = b.transitionKey ∧ a.planHash = b.planHash ∧ a.profile = b.profile)
    (hatt : ∀ a ∈ finalization, WorkerAt s.eventGeneration a.toWorkerAction)
    (hn : ∀ a ∈ finalization, a.lifecycle ≠ .admitted) (hw : WakeAt phase t) :
    Sound
      { s with
        phase := phase
        finalization := finalization
        actionTombstones := tombstones
        recoveryUnits := units
        verifySinceMs := v
        nextTimerMs := t } := by
  obtain ⟨h1, h2, hq⟩ := h.control.finalization_alone hne
  refine (h.move_finalization hne hfit hprobe happ hphase.1 hids hsame hatt).sound
    ⟨fun hp => absurd hp hphase.1, fun hl => absurd hl hlatest⟩ ?_ ?_ (.inl hphase.2) hw
  · simp [ScopedAt, h2]
  · exact State.forall_mutators.mpr ⟨by simp [h1], by simp [h2], fun a ha =>
      ActionLifecycle.ne_of_terminal
        (h.control.preparation_settled (by rw [hq]; rfl) a ha) rfl, hn⟩

/-- A pending desktop admission is withdrawn. -/
theorem withdrawn {r : ActionRecord} {s' : State} {es : List Effect} (hw : Withdraws s r s' es)
    (hl : r.lifecycle = .admitted) (hlatest : s.latestObservation ≠ none) (v : Option Nat)
    (t : Nat) : Sound (({ s' with verifySinceMs := v }).timed t) := by
  have hwake : WakeAt .discoverFast (some t) := by simp [WakeAt]
  cases hw with
  | preparation a ha =>
    have hactive := h.control.preparation_live ha (by rw [show a.lifecycle = _ from hl]; rfl)
    obtain ⟨hprobe, happ, hfin⟩ := h.control.active_alone hactive
    have hids := h.identities.retire (State.mem_actions_preparation ha) (l := .cancelled) rfl
    rw [← State.dropPlan_with_phase]
    dsimp only [State.retire, State.clearSlot, State.bury, ActionRecord.kind] at hids ⊢
    have hp : ControllerPhase.discoverFast.workless = true := rfl
    have hphases : preparationPhases .prepareIdle .discoverFast = true := rfl
    have hmoved := fun w => h.move_preparation (v := w) (t := s.nextTimerMs) hactive (by rfl) hp
      hphases hids (by simp) (by simp)
    have hcore := (hmoved s.verifySinceMs).dropPlan hfin
    dsimp only [State.timed, State.dropPlan] at hcore ⊢
    exact (hcore.retime v (some t)).sound (by simp [hlatest]) (by simp [ScopedAt, happ])
      (by simp [State.mutators, hprobe, happ, hfin]) (.inl (by simp)) hwake
  | finalization a ha =>
    have hne : s.finalization ≠ none := by simp [ha]
    have hids := h.identities.retire (State.mem_actions_finalization ha) (l := .cancelled) rfl
    dsimp only [State.timed, State.retire, State.clearSlot, State.bury, clearRecoveryUnit,
      ActionRecord.kind] at hids ⊢
    exact h.settle_finalization hne hlatest (by rfl) rfl rfl (by decide) hids (by simp) (by simp)
      (by simp) hwake

section Stopping

variable {w : WorkerAction} (hlatest : s.latestObservation ≠ none) (hl : w.lifecycle = .stopping)
include hlatest hl

theorem stopping_probe {a : ProbeAction} (ha : s.probe = some a)
    (hw : SameWorker a.toWorkerAction w) (hflying : a.lifecycle.mutatingInFlight = true)
    {k : w.actionId.kind = .probe} (t : Nat) :
    Sound
      (({ s with
          phase := .probing
          probe := some { a with toWorkerAction := w, kind_probe := k } }).timed t) := by
  have hne : s.probe ≠ none := by simp [ha]
  have hlive : a.lifecycle.terminal = false := ActionLifecycle.live_of_inFlight hflying
  dsimp only [State.timed]
  refine h.settle_probe hne hlatest ⟨_, rfl, by simp [hl, runningLifecycles]⟩ rfl rfl (by decide)
    { h.identities with probe := ?_ } ?_ (by rintro b ⟨⟩; simp [hl]) (by simp [WakeAt])
  · rintro b ⟨⟩
    exact (h.identities.probe a ha).continues hw.actionId hlive
      (congrArg ActionLifecycle.terminal hl)
  · rintro b ⟨⟩
    obtain ⟨hworker, hkey⟩ := h.attempts.probe a ha
    exact ⟨hw.worker hworker (by simp [hl]) fun _ => hflying, fun hu => hkey (hw.unit ▸ hu)⟩

theorem stopping_application {a : ApplicationAction} (ha : s.application = some a)
    (hw : SameWorker a.toWorkerAction w) (hflying : a.lifecycle.mutatingInFlight = true)
    (hscope : ScopedAt s.latestObservation s.application) {k : w.actionId.kind = .application}
    (t : Nat) :
    Sound
      (({ s with
          phase := .applying
          application := some { a with toWorkerAction := w, kind_application := k } }).timed t) := by
  have hne : s.application ≠ none := by simp [ha]
  have hlive : a.lifecycle.terminal = false := ActionLifecycle.live_of_inFlight hflying
  dsimp only [State.timed]
  refine h.settle_application hne hlatest ⟨_, rfl, by simp [hl, runningLifecycles]⟩ rfl rfl
    (by decide) { h.identities with application := ?_ } ?_ (by rintro b ⟨⟩; simp [hl]) ?_
    (by simp [WakeAt])
  · rintro b ⟨⟩
    exact (h.identities.application a ha).continues hw.actionId hlive
      (congrArg ActionLifecycle.terminal hl)
  · rintro b ⟨⟩
    obtain ⟨hworker, hkey⟩ := h.attempts.application a ha
    exact ⟨hw.worker hworker (by simp [hl]) fun _ => hflying, fun hu => hkey (hw.unit ▸ hu)⟩
  · rintro o ho he b ⟨⟩
    exact hscope o ho he a ha

theorem stopping_preparation {a : PreparationAction} (ha : s.preparation = some a)
    (hw : SameWorker a.toWorkerAction w) (hflying : a.lifecycle.mutatingInFlight = true)
    {hk : w.actionId.kind = .preparation} (t : Nat) :
    Sound
      (({ s with
          phase := .discoverFast
          preparationState := .prepareStopping
          preparation := some { a with toWorkerAction := w, kind_preparation := hk }
          verifySinceMs := none }).timed t) := by
  have hlive : a.lifecycle.terminal = false := ActionLifecycle.live_of_inFlight hflying
  have hactive := h.control.preparation_live ha hlive
  dsimp only [State.timed]
  refine h.settle_preparation hactive hlatest ⟨_, rfl, by simp [hl]⟩ rfl rfl
    { h.identities with preparation := ?_ } ?_ ?_ (by rintro b ⟨⟩; simp [hl]) (by simp [ProofAt])
    (by simp [WakeAt])
  · rintro b ⟨⟩
    exact ⟨(h.identities.preparation a ha).1.continues hw.actionId hlive
      (congrArg ActionLifecycle.terminal hl), (h.identities.preparation a ha).2⟩
  · rintro b ⟨⟩
    exact ⟨a, ha, rfl, rfl, rfl, rfl⟩
  · rintro b ⟨⟩
    exact hw.worker (h.attempts.preparation a ha) (by simp [hl]) fun _ => hflying

theorem stopping_finalization {a : FinalizationAction} (ha : s.finalization = some a)
    (hw : SameWorker a.toWorkerAction w) (hflying : a.lifecycle.mutatingInFlight = true)
    {hk : w.actionId.kind = .finalization} (t : Nat) :
    Sound
      (({ s with
          phase := .finalizeStopping
          finalization := some { a with toWorkerAction := w, kind_finalization := hk }
          verifySinceMs := none }).timed t) := by
  have hne : s.finalization ≠ none := by simp [ha]
  have hlive : a.lifecycle.terminal = false := ActionLifecycle.live_of_inFlight hflying
  dsimp only [State.timed]
  refine h.settle_finalization hne hlatest ⟨_, rfl, by simp [hl]⟩ rfl rfl (by decide)
    { h.identities with finalization := ?_ } ?_ ?_ (by rintro b ⟨⟩; simp [hl]) (by simp [WakeAt])
  · rintro b ⟨⟩
    exact ⟨(h.identities.finalization a ha).1.continues hw.actionId hlive
      (congrArg ActionLifecycle.terminal hl), (h.identities.finalization a ha).2⟩
  · rintro b ⟨⟩
    exact ⟨a, ha, rfl, rfl, rfl, rfl⟩
  · rintro b ⟨⟩
    exact hw.worker (h.attempts.finalization a ha) (by simp [hl]) fun _ => hflying

end Stopping

end Core

namespace Sound

variable {s : State} (h : Sound s)
include h

theorem timed (t : Nat) : Sound (s.timed t) :=
  { h with wake := fun _ => by simp [State.timed] }

theorem restarted {phase : ControllerPhase} (hs : s.phase ≠ .recovering)
    (hp : phase ≠ .recovering) : phase = .recovering ↔ s.latestObservation = none :=
  ⟨fun he => absurd he hp, fun hn => absurd (h.started.mpr hn) hs⟩

theorem observed (hs : s.probe ≠ none ∨ s.application ≠ none ∨ s.finalization ≠ none ∨
    s.planningState ≠ .planIdle ∨ s.preparationState ≠ .prepareIdle) :
    s.latestObservation ≠ none :=
  fun hn => h.control.not_recovering hs (h.started.mpr hn)

theorem observed_of_mem {r : ActionRecord} (hr : r ∈ s.actions) : s.latestObservation ≠ none := by
  refine fun hn => h.control.not_recovering ?_ (h.started.mpr hn)
  rcases State.mem_actions.mp hr with ⟨a, ha, rfl⟩ | ⟨a, ha, rfl⟩ | ⟨a, ha, rfl⟩ | ⟨a, ha, rfl⟩ |
    ⟨a, ha, rfl⟩
  · exact .inl (by simp [Option.mem_def.mp ha])
  · exact .inr (.inl (by simp [Option.mem_def.mp ha]))
  · refine .inr (.inr (.inr (.inl fun hs => ?_)))
    have hfit := h.control.planning_fits
    rw [hs, Option.mem_def.mp ha] at hfit
    cases hfit
  · refine .inr (.inr (.inr (.inr fun hs => ?_)))
    have hfit := h.control.preparation_fits
    rw [hs, Option.mem_def.mp ha] at hfit
    cases hfit
  · exact .inr (.inr (.inl (by simp [Option.mem_def.mp ha])))

/-- A worker reported or was stopped, and its slot is free again. -/
theorem closed {r : ActionRecord} {l : ActionLifecycle} (hr : r ∈ s.actions) (hk : r.kind ≠ .plan)
    (hl : l.terminal = true) (hlive : r.lifecycle.terminal = false) (v : Option Nat) (t : Nat) :
    Sound (({ s.retire r l with phase := .discoverFast, verifySinceMs := v }).timed t) := by
  have hids := h.identities.retire hr hl
  have hphase : ControllerPhase.discoverFast ≠ .recovering ∧
      ControllerPhase.discoverFast ≠ .verifying := by decide
  have hwake : WakeAt .discoverFast (some t) := by simp [WakeAt]
  cases r with
  | probe a =>
    have hne : s.probe ≠ none := by simp [State.probe_of_mem hr]
    dsimp only [State.timed, State.retire, State.clearSlot, State.bury, clearRecoveryUnit,
      ActionRecord.kind] at hids ⊢
    exact h.toCore.settle_probe hne (h.observed (.inl hne)) (by rfl) rfl rfl hphase hids (by simp)
      (by simp) hwake
  | application a =>
    have hne : s.application ≠ none := by simp [State.application_of_mem hr]
    dsimp only [State.timed, State.retire, State.clearSlot, State.bury, clearRecoveryUnit,
      ActionRecord.kind] at hids ⊢
    exact h.toCore.settle_application hne (h.observed (.inr (.inl hne))) (by rfl) rfl rfl hphase hids
      (by simp) (by simp) (by simp [ScopedAt]) hwake
  | planning a => exact absurd rfl hk
  | preparation a =>
    have hactive := h.control.preparation_live (State.preparation_of_mem hr) hlive
    have hne : s.preparationState ≠ .prepareIdle := by
      rintro hs
      simp [hs, PreparationState.active] at hactive
    dsimp only [State.timed, State.retire, State.clearSlot, State.bury, clearRecoveryUnit,
      ActionRecord.kind] at hids ⊢
    exact h.toCore.settle_preparation hactive (h.observed (.inr (.inr (.inr (.inr hne))))) (by rfl)
      rfl rfl hids (by simp) (by simp) (by simp) (by simp [ProofAt]) hwake
  | finalization a =>
    have hne : s.finalization ≠ none := by simp [State.finalization_of_mem hr]
    dsimp only [State.timed, State.retire, State.clearSlot, State.bury, clearRecoveryUnit,
      ActionRecord.kind] at hids ⊢
    exact h.toCore.settle_finalization hne (h.observed (.inr (.inr (.inl hne)))) (by rfl) rfl rfl
      hphase hids (by simp) (by simp) (by simp) hwake

/-- A failed action keeps its slot and takes the failed state of its kind. -/
theorem failed {r r' : ActionRecord} {phase : ControllerPhase} (hr : r ∈ s.actions)
    (hc : Continues r r') (hf : r'.lifecycle.failedLifecycle = true)
    (hlive : r.lifecycle.terminal = false)
    (hp : phase = (failSlot s r').phase ∨ r.kind = .preparation ∧ phase = .discoverFast)
    (t : Nat) :
    Sound (({ failSlot (s.bury r.actionId r'.lifecycle) r' with phase := phase }).timed t) := by
  have hl : r'.lifecycle.terminal = true := ActionLifecycle.terminal_of_failed hf
  have hids := h.identities.fail hr hc hl
  have hfit := ActionLifecycle.fits_failed hf
  have hn : r'.lifecycle ≠ .admitted := ActionLifecycle.ne_of_terminal hl rfl
  have hquiet := ActionLifecycle.not_inFlight_of_terminal hl
  cases hc with
  | probe a w hk hw =>
    have ha := State.probe_of_mem hr
    have hne : s.probe ≠ none := by simp [ha]
    obtain ⟨hworker, hkey⟩ := h.attempts.probe a ha
    have hw' := hw.worker hworker hn fun hm => absurd (hm.symm.trans hquiet) (by decide)
    have hphase : phase = .probeFailed :=
      hp.elim id fun he => absurd he.1 (by simp [ActionRecord.kind])
    subst hphase
    dsimp only [State.timed, failSlot, State.bury, clearRecoveryUnit] at hids ⊢
    refine h.toCore.settle_probe hne (h.observed (.inl hne)) (by exact hfit) rfl rfl (by decide) hids
      ?_ (by rintro b ⟨⟩; exact hn) (by simp [WakeAt])
    rintro b ⟨⟩
    exact ⟨hw', fun hu => hkey (hw.unit ▸ hu)⟩
  | application a w hk hw =>
    have ha := State.application_of_mem hr
    have hne : s.application ≠ none := by simp [ha]
    obtain ⟨hworker, hkey⟩ := h.attempts.application a ha
    have hw' := hw.worker hworker hn fun hm => absurd (hm.symm.trans hquiet) (by decide)
    have hphase : phase = .applyFailed :=
      hp.elim id fun he => absurd he.1 (by simp [ActionRecord.kind])
    subst hphase
    dsimp only [State.timed, failSlot, State.bury, clearRecoveryUnit] at hids ⊢
    refine h.toCore.settle_application hne (h.observed (.inr (.inl hne))) (by exact hfit) rfl rfl
      (by decide) hids ?_ (by rintro b ⟨⟩; exact hn) ?_ (by simp [WakeAt])
    · rintro b ⟨⟩
      exact ⟨hw', fun hu => hkey (hw.unit ▸ hu)⟩
    · rintro o ho he b ⟨⟩
      exact h.inScope o ho he a ha
  | planning a l x =>
    have ha := State.planning_of_mem hr
    obtain ⟨hidle, hprep⟩ := h.control.planning_live ha hlive
    have hphase : phase = s.phase := hp.elim id fun he => absurd he.1 (by simp [ActionRecord.kind])
    subst hphase
    dsimp only [State.timed, failSlot, State.bury, clearRecoveryUnit] at hids ⊢
    exact { h.toCore.move_planning hidle hprep (by exact hfit) (by simp) hids with
      started := h.started
      inScope := h.inScope
      pending := h.pending
      verified := h.verified
      wake := fun _ => by simp }
  | preparation a w hk hw =>
    have ha := State.preparation_of_mem hr
    have hactive := h.control.preparation_live ha hlive
    have hne : s.preparationState ≠ .prepareIdle := by
      rintro hs
      simp [hs, PreparationState.active] at hactive
    have hw' := hw.worker (h.attempts.preparation a ha) hn fun hm =>
      absurd (hm.symm.trans hquiet) (by decide)
    have hphase : phase = s.phase ∨ phase = .discoverFast := hp.imp id And.right
    have hworkless : phase.workless = true := by
      rcases hphase with rfl | rfl
      · rcases h.control.active_phase hactive with hs | hs <;> rw [hs] <;> rfl
      · rfl
    have hproof : ProofAt phase s.latestObservation s.candidate s.verifySinceMs := by
      rcases hphase with rfl | rfl
      · exact h.verified
      · simp [ProofAt]
    dsimp only [State.timed, failSlot, State.bury, clearRecoveryUnit] at hids ⊢
    refine h.toCore.settle_preparation hactive (h.observed (.inr (.inr (.inr (.inr hne)))))
      (by exact hfit) hworkless rfl hids ?_ ?_ (by rintro b ⟨⟩; exact hn) hproof (by simp [WakeAt])
    · rintro b ⟨⟩
      exact ⟨a, ha, rfl, rfl, rfl, rfl⟩
    · rintro b ⟨⟩
      exact hw'
  | finalization a w hk hw =>
    have ha := State.finalization_of_mem hr
    have hne : s.finalization ≠ none := by simp [ha]
    have hw' := hw.worker (h.attempts.finalization a ha) hn fun hm =>
      absurd (hm.symm.trans hquiet) (by decide)
    have hphase : phase = .finalizeFailed :=
      hp.elim id fun he => absurd he.1 (by simp [ActionRecord.kind])
    subst hphase
    dsimp only [State.timed, failSlot, State.bury, clearRecoveryUnit] at hids ⊢
    refine h.toCore.settle_finalization hne (h.observed (.inr (.inr (.inl hne)))) (by exact hfit) rfl
      rfl (by decide) hids ?_ ?_ (by rintro b ⟨⟩; exact hn) (by simp [WakeAt])
    · rintro b ⟨⟩
      exact ⟨a, ha, rfl, rfl, rfl, rfl⟩
    · rintro b ⟨⟩
      exact hw'

section Dispatched

variable {w : WorkerAction} {unit : WorkerUnit} {deadline : Nat}

theorem dispatched_probe {a : ProbeAction} (ha : s.probe = some a) (hl : a.lifecycle = .admitted)
    {hk : w.actionId.kind = .probe} {hi : unit.actionId = a.actionId}
    (hd : w = a.dispatch unit deadline hi hl) :
    Sound
      { s with
        phase := .probing
        probe := some { a with toWorkerAction := w, kind_probe := hk }
        attemptedProbeKeys := insert a.key s.attemptedProbeKeys
        nextTimerMs := none } := by
  subst hd
  have hne : s.probe ≠ none := by simp [ha]
  have hlive : (ActionRecord.probe a).lifecycle.terminal = false :=
    congrArg ActionLifecycle.terminal hl
  refine h.toCore.settle_probe hne (h.observed (.inl hne))
    ⟨_, rfl, by simp [WorkerAction.dispatch, runningLifecycles]⟩ rfl rfl (by decide)
    { h.identities with probe := ?_ } ?_ (by rintro b ⟨⟩ ⟨⟩)
    (by simp [WakeAt, unwoken])
  · rintro b ⟨⟩
    exact (h.identities.probe a ha).continues rfl hlive rfl
  · rintro b ⟨⟩
    exact ⟨(h.attempts.probe a ha).1.dispatch hi hl, fun _ => by simp⟩

theorem dispatched_application {a : ApplicationAction} (ha : s.application = some a)
    (hl : a.lifecycle = .admitted) {hk : w.actionId.kind = .application}
    {hi : unit.actionId = a.actionId} (hd : w = a.dispatch unit deadline hi hl) :
    Sound
      { s with
        phase := .applying
        application := some { a with toWorkerAction := w, kind_application := hk }
        attemptedApplicationKeys := insert a.key s.attemptedApplicationKeys
        nextTimerMs := none } := by
  subst hd
  have hne : s.application ≠ none := by simp [ha]
  have hlive : (ActionRecord.application a).lifecycle.terminal = false :=
    congrArg ActionLifecycle.terminal hl
  refine h.toCore.settle_application hne (h.observed (.inr (.inl hne)))
    ⟨_, rfl, by simp [WorkerAction.dispatch, runningLifecycles]⟩ rfl rfl (by decide)
    { h.identities with application := ?_ } ?_ (by rintro b ⟨⟩ ⟨⟩) ?_
    (by simp [WakeAt, unwoken])
  · rintro b ⟨⟩
    exact (h.identities.application a ha).continues rfl hlive rfl
  · rintro b ⟨⟩
    exact ⟨(h.attempts.application a ha).1.dispatch hi hl, fun _ => by simp⟩
  · rintro o ho he b ⟨⟩
    exact h.inScope o ho he a ha

theorem dispatched_preparation {a : PreparationAction} (ha : s.preparation = some a)
    (hl : a.lifecycle = .admitted) {hk : w.actionId.kind = .preparation}
    {hi : unit.actionId = a.actionId} (hd : w = a.dispatch unit deadline hi hl) :
    Sound
      { s with
        preparationState := .preparing
        preparation := some { a with toWorkerAction := w, kind_preparation := hk } } := by
  subst hd
  have hlive : (ActionRecord.preparation a).lifecycle.terminal = false :=
    congrArg ActionLifecycle.terminal hl
  have hactive := h.control.preparation_live ha hlive
  have hne : s.preparationState ≠ .prepareIdle := by
    rintro hs
    simp [hs, PreparationState.active] at hactive
  have hphase := h.control.active_phase hactive
  refine h.toCore.settle_preparation hactive (h.observed (.inr (.inr (.inr (.inr hne)))))
    ⟨_, rfl, by simp [WorkerAction.dispatch]⟩ ?_ ?_
    { h.identities with preparation := ?_ } ?_ ?_ (by rintro b ⟨⟩ ⟨⟩) h.verified h.wake
  · rcases hphase with hp | hp <;> rw [hp] <;> rfl
  · rcases hphase with hp | hp <;> rw [hp] <;> rfl
  · rintro b ⟨⟩
    exact ⟨(h.identities.preparation a ha).1.continues rfl hlive rfl,
      (h.identities.preparation a ha).2⟩
  · rintro b ⟨⟩
    exact ⟨a, ha, rfl, rfl, rfl, rfl⟩
  · rintro b ⟨⟩
    exact (h.attempts.preparation a ha).dispatch hi hl

theorem dispatched_finalization {a : FinalizationAction} (ha : s.finalization = some a)
    (hl : a.lifecycle = .admitted) {hk : w.actionId.kind = .finalization}
    {hi : unit.actionId = a.actionId} (hd : w = a.dispatch unit deadline hi hl) :
    Sound
      { s with
        phase := .finalizing
        finalization := some { a with toWorkerAction := w, kind_finalization := hk } } := by
  subst hd
  have hne : s.finalization ≠ none := by simp [ha]
  have hlive : (ActionRecord.finalization a).lifecycle.terminal = false :=
    congrArg ActionLifecycle.terminal hl
  have hphase : s.phase = .finalizePending := by
    simpa [hl, ActionLifecycle.failedLifecycle] using h.control.finalization_phase ha
  refine h.toCore.settle_finalization hne (h.observed (.inr (.inr (.inl hne))))
    ⟨_, rfl, by simp [WorkerAction.dispatch]⟩ rfl rfl (by decide)
    { h.identities with finalization := ?_ } ?_ ?_ (by rintro b ⟨⟩ ⟨⟩)
    fun _ => h.wake (by rw [hphase]; rfl)
  · rintro b ⟨⟩
    exact ⟨(h.identities.finalization a ha).1.continues rfl hlive rfl,
      (h.identities.finalization a ha).2⟩
  · rintro b ⟨⟩
    exact ⟨a, ha, rfl, rfl, rfl, rfl⟩
  · rintro b ⟨⟩
    exact (h.attempts.finalization a ha).dispatch hi hl

end Dispatched

section Plans

variable {p : PlanningAction} (hp : s.planning = some p)
include hp

theorem planRequested (hs : s.planningState = .planPending) :
    Sound
      { s with
        planningState := .planning
        planning := some { p with lifecycle := .dispatched } } := by
  have hlive : (ActionRecord.planning p).lifecycle.terminal = false :=
    congrArg ActionLifecycle.terminal ((h.control.planning_running hp).1 hs)
  obtain ⟨hidle, hprep⟩ := h.control.planning_live hp hlive
  have hids : IdentitiesAt s.actionSequenceHighWater s.transitionSequenceHighWater
      s.actionTombstones s.recoveryUnits s.probe s.application
      (some { p with lifecycle := .dispatched }) s.preparation s.finalization :=
    { h.identities with
      planning := by
        rintro b ⟨⟩
        exact ⟨(h.identities.planning p hp).1.continues rfl hlive rfl,
          (h.identities.planning p hp).2⟩ }
  have hfit : Fits (some .dispatched) (expectedPlanning .planning) := ⟨_, rfl, by simp⟩
  exact { h.toCore.move_planning hidle hprep (by exact hfit) (by simp) hids with
    started := h.started
    inScope := h.inScope
    pending := h.pending
    verified := h.verified
    wake := h.wake }

theorem planCompleted (hs : s.planningState = .planning) (planHash : PlanHash) (t : Nat) :
    Sound
      (({ s.bury p.actionId .completed with
          planningState := .planReady
          planning := some
            { p with lifecycle := .completed, planHash := some planHash } }).timed t) := by
  have hlive : (ActionRecord.planning p).lifecycle.terminal = false :=
    congrArg ActionLifecycle.terminal ((h.control.planning_running hp).2 hs)
  obtain ⟨hidle, hprep⟩ := h.control.planning_live hp hlive
  let q : PlanningAction := { p with lifecycle := .completed, planHash := some planHash }
  have hq : ∀ b ∈ some q, ActionKind.plan ≠ .plan ∧ s.planning = some b ∨
      (b.actionId = p.actionId ∧ b.lifecycle = .completed) ∧
        b.transitionId.sequence ≤ s.transitionSequenceHighWater := by
    rintro b ⟨⟩
    exact .inr ⟨⟨rfl, rfl⟩, (h.identities.planning p hp).2⟩
  have hids := h.identities.after_burial (State.mem_actions_planning hp) (l := .completed) rfl
    (fun b hb => .inl ⟨by rintro ⟨⟩, hb⟩) (fun b hb => .inl ⟨by rintro ⟨⟩, hb⟩) hq
    (fun b hb => .inl ⟨by rintro ⟨⟩, hb⟩) (fun b hb => .inl ⟨by rintro ⟨⟩, hb⟩)
  have hfit : Fits (some .completed) (expectedPlanning .planReady) := ⟨_, rfl, by simp⟩
  dsimp only [State.timed, State.bury]
  exact { h.toCore.move_planning hidle hprep (by exact hfit) (by simp) hids with
    started := h.started
    inScope := h.inScope
    pending := h.pending
    verified := h.verified
    wake := fun _ => by simp }

theorem planRetried (hs : s.planningState = .planPending ∨ s.planningState = .planning)
    (happ : s.application = none) (t : Nat) :
    Sound (({ s.dropPlan with phase := .discoverFast, verifySinceMs := none }).timed t) := by
  have hlive : p.lifecycle.terminal = false := by
    rcases hs with hs | hs
    · rw [(h.control.planning_running hp).1 hs]; rfl
    · rw [(h.control.planning_running hp).2 hs]; rfl
  obtain ⟨hidle, hprep⟩ := h.control.planning_live hp hlive
  have hprobe : s.probe = none := by_contra fun hne => hidle (h.control.probing hne).1
  have hfin : s.finalization = none := by_contra fun hne => by
    simp [h.control.prepared hne] at hprep
  have hcore := h.toCore.dropPlan hfin
  have hlatest := h.observed (.inr (.inr (.inr (.inl hidle))))
  dsimp only [State.timed, State.dropPlan] at hcore ⊢
  refine Core.sound { hcore with control := ?_ } (by simp [hlatest]) (by simp [ScopedAt, happ])
    (by simp [State.mutators, hprobe, happ, hfin]) (.inl (by simp)) (by simp [WakeAt])
  exact hcore.control.rephase hprobe happ hfin rfl rfl

end Plans

/-- A completed preparation waits for the sample which confirms it. -/
theorem reported_preparation {a b : PreparationAction} (ha : s.preparation = some a)
    (hb : Continues (.preparation a) (.preparation b))
    (hflying : a.lifecycle.mutatingInFlight = true) (hl : b.lifecycle = .resultPending) (t : Nat) :
    Sound
      (({ clearRecoveryUnit s a.actionId with
          preparationState := .preparing
          preparation := some b }).timed t) := by
  have hlive : a.lifecycle.terminal = false := ActionLifecycle.live_of_inFlight hflying
  have hactive := h.control.preparation_live ha hlive
  have hne : s.preparationState ≠ .prepareIdle := by
    rintro hs
    simp [hs, PreparationState.active] at hactive
  have hphase := h.control.active_phase hactive
  cases hb with
  | preparation a w hk hw =>
    have hl : w.lifecycle = .resultPending := hl
    dsimp only [State.timed, clearRecoveryUnit]
    refine h.toCore.settle_preparation hactive (h.observed (.inr (.inr (.inr (.inr hne)))))
      ⟨_, rfl, by simp [hl]⟩ ?_ ?_ { h.identities with
        recoveryUnits := h.identities.recoveryUnits_filter _
        preparation := ?_ } ?_ ?_ (by rintro b ⟨⟩; simp [hl]) h.verified (by simp [WakeAt])
    · rcases hphase with hp | hp <;> rw [hp] <;> rfl
    · rcases hphase with hp | hp <;> rw [hp] <;> rfl
    · rintro b ⟨⟩
      exact ⟨(h.identities.preparation a ha).1.continues hw.actionId hlive
        (congrArg ActionLifecycle.terminal hl), (h.identities.preparation a ha).2⟩
    · rintro b ⟨⟩
      exact ⟨a, ha, rfl, rfl, rfl, rfl⟩
    · rintro b ⟨⟩
      exact hw.worker (h.attempts.preparation a ha) (by simp [hl]) fun _ => hflying

theorem reported_finalization {a b : FinalizationAction} (ha : s.finalization = some a)
    (hb : Continues (.finalization a) (.finalization b))
    (hflying : a.lifecycle.mutatingInFlight = true) (hl : b.lifecycle = .resultPending) (t : Nat) :
    Sound
      (({ clearRecoveryUnit s a.actionId with
          phase := .finalizing
          finalization := some b }).timed t) := by
  have hne : s.finalization ≠ none := by simp [ha]
  have hlive : a.lifecycle.terminal = false := ActionLifecycle.live_of_inFlight hflying
  cases hb with
  | finalization a w hk hw =>
    have hl : w.lifecycle = .resultPending := hl
    dsimp only [State.timed, clearRecoveryUnit]
    refine h.toCore.settle_finalization hne (h.observed (.inr (.inr (.inl hne))))
      ⟨_, rfl, by simp [hl]⟩ rfl rfl (by decide) { h.identities with
        recoveryUnits := h.identities.recoveryUnits_filter _
        finalization := ?_ } ?_ ?_ (by rintro b ⟨⟩; simp [hl]) (by simp [WakeAt])
    · rintro b ⟨⟩
      exact ⟨(h.identities.finalization a ha).1.continues hw.actionId hlive
        (congrArg ActionLifecycle.terminal hl), (h.identities.finalization a ha).2⟩
    · rintro b ⟨⟩
      exact ⟨a, ha, rfl, rfl, rfl, rfl⟩
    · rintro b ⟨⟩
      exact hw.worker (h.attempts.finalization a ha) (by simp [hl]) fun _ => hflying

theorem doubted {r : ActionRecord} (hr : r ∈ s.actions) (hk : r.kind ≠ .plan)
    (hl : r.lifecycle.mutatingInFlight = true) (v : UncertainVerdict) (t : Nat) :
    Sound ((stopSlot s v r).timed t) := by
  have hlatest := h.observed_of_mem hr
  cases r with
  | probe a =>
    exact h.toCore.stopping_probe (w := a.stopUncertain v.lifecycle v.post_stop) hlatest rfl
      (State.probe_of_mem hr) ⟨rfl, rfl, rfl, rfl⟩ hl t
  | application a =>
    exact h.toCore.stopping_application (w := a.stopUncertain v.lifecycle v.post_stop) hlatest rfl
      (State.application_of_mem hr) ⟨rfl, rfl, rfl, rfl⟩ hl h.inScope t
  | planning a => exact absurd rfl hk
  | preparation a =>
    exact h.toCore.stopping_preparation (w := a.stopUncertain v.lifecycle v.post_stop) hlatest rfl
      (State.preparation_of_mem hr) ⟨rfl, rfl, rfl, rfl⟩ hl t
  | finalization a =>
    exact h.toCore.stopping_finalization (w := a.stopUncertain v.lifecycle v.post_stop) hlatest rfl
      (State.finalization_of_mem hr) ⟨rfl, rfl, rfl, rfl⟩ hl t

/-- Proofs are superseded unless a desktop admission still rests on one. -/
theorem superseded (hprep : ∀ a ∈ s.preparation, a.lifecycle ≠ .admitted)
    (hfin : ∀ a ∈ s.finalization, a.lifecycle ≠ .admitted) {g : EventGeneration}
    (hg : s.eventGeneration ≤ g) (nowMs t : Nat) : Sound ((supersedeProofs s g nowMs).timed t) := by
  have hcore := h.toCore.supersede hg nowMs
  unfold supersedeProofs at hcore ⊢
  dsimp only [State.timed]
  exact { hcore with
    started := h.started
    inScope := h.inScope
    pending := {
      probe := h.pending.probe
      application := h.pending.application
      preparation := fun a ha hl => absurd hl (hprep a ha)
      finalization := fun a ha hl => absurd hl (hfin a ha) }
    verified := by simp [ProofAt]
    wake := fun _ => by simp }

theorem hinted {g : EventGeneration} (hg : s.eventGeneration ≤ g) {nowMs : Nat} {s' : State}
    {es : List Effect} (hh : Hints (supersedeProofs s g nowMs) s' es) (t : Nat) :
    Sound (s'.timed t) := by
  have hcore := h.toCore.supersede hg nowMs
  cases hh with
  | withdrawn hl hw =>
    have hlatest : s.latestObservation ≠ none := by
      cases hw with
      | preparation a ha => exact h.observed_of_mem (State.mem_actions_preparation ha)
      | finalization a ha => exact h.observed_of_mem (State.mem_actions_finalization ha)
    exact hcore.withdrawn hw hl hlatest s'.verifySinceMs t
  | reopened hq hf hp =>
    have hq : s.preparationState ≠ .preparePending := hq
    obtain ⟨hprobe, happ, hfin⟩ := h.control.worker_free (ControlAt.workless_of_reopened hp hf)
    have hprep : ∀ a ∈ s.preparation, a.lifecycle ≠ .admitted := fun a ha hl =>
      hq (h.control.preparation_pending ha hl)
    have hrec : s.phase ≠ .recovering := by
      intro hs
      have : reopenedByHint s.phase = true := hp
      simp [hs, reopenedByHint] at this
    unfold supersedeProofs at hcore ⊢
    dsimp only [State.timed] at hcore ⊢
    refine Core.sound { hcore with control := ?_ } (h.restarted hrec (by simp)) h.inScope ?_
      (.inl (by simp)) (by simp [WakeAt])
    · refine h.control.rephase hprobe happ hfin rfl ?_
      cases hs : s.preparationState <;> simp_all [preparationPhases]
    · exact State.forall_mutators.mpr ⟨by simp [hprobe], by simp [happ], hprep, by simp [hfin]⟩
  | kept hp =>
    have hp : reopenedByHint s.phase = false := hp
    refine h.superseded (fun a ha hl => ?_) (fun a ha hl => ?_) hg nowMs t
    · rw [h.control.pending_verifying (h.control.preparation_pending ha hl)] at hp
      cases hp
    · have hphase : s.phase = .finalizePending := by
        simpa [hl, ActionLifecycle.failedLifecycle] using h.control.finalization_phase ha
      rw [hphase] at hp
      cases hp

theorem retried {a : FinalizationAction} (ha : s.finalization = some a)
    (instanceId : ControllerInstanceId) (t : Nat) :
    Sound
      (({ s with
          controllerInstance := instanceId
          phase := .discoverFast
          finalization := none
          verifySinceMs := none }).timed t) := by
  have hne : s.finalization ≠ none := by simp [ha]
  have hlatest := h.observed_of_mem (State.mem_actions_finalization ha)
  have hcore : Core { s with controllerInstance := instanceId } := { h with }
  have hphase : ControllerPhase.discoverFast ≠ .recovering ∧
      ControllerPhase.discoverFast ≠ .verifying := by decide
  dsimp only [State.timed]
  exact hcore.settle_finalization hne hlatest (by rfl) rfl rfl hphase { h.identities with finalization := by simp } (by simp) (by simp)
    (by simp) (by simp [WakeAt])

theorem withdrawn {a : PreparationAction} (ha : s.preparation = some a)
    (hl : a.lifecycle = .admitted) (instanceId : ControllerInstanceId) {s' : State}
    {es : List Effect}
    (hw : Withdraws { s with controllerInstance := instanceId } (.preparation a) s' es) (t : Nat) :
    Sound (({ s' with verifySinceMs := none }).timed t) :=
  Core.withdrawn (s := { s with controllerInstance := instanceId }) { h with } hw hl
    (h.observed_of_mem (State.mem_actions_preparation ha)) none t

theorem resumed (instanceId : ControllerInstanceId) (hq : s.preparationState ≠ .preparePending)
    {v : Option Nat} (hv : v = if s.phase = .verifying then none else s.verifySinceMs) (t : Nat) :
    Sound (({ s with controllerInstance := instanceId, verifySinceMs := v }).timed t) := by
  have hcore : Core { s with controllerInstance := instanceId } := { h with }
  have hprep : ∀ a ∈ s.preparation, a.lifecycle ≠ .admitted := fun a ha hl =>
    hq (h.control.preparation_pending ha hl)
  exact { hcore.retime v (some t) with
    started := h.started
    inScope := h.inScope
    pending := {
      probe := h.pending.probe
      application := h.pending.application
      preparation := fun a ha hl => absurd hl (hprep a ha)
      finalization := fun a ha hl => by
        have hphase : s.phase = .finalizePending := by
          simpa [hl, ActionLifecycle.failedLifecycle] using h.control.finalization_phase ha
        rw [hphase, if_neg (by simp)] at hv
        subst hv
        exact h.pending.finalization a ha hl }
    verified := fun hp hne => by
      have hp : s.phase = .verifying := hp
      rw [if_pos hp] at hv
      exact absurd hv hne
    wake := fun _ => by simp [State.timed] }

theorem booted (e : BootChanged) : Sound (rebooted s e) := by
  unfold rebooted
  exact {
    control := ⟨rfl, rfl, rfl, rfl, rfl, fun _ => ⟨rfl, rfl⟩, fun _ => ⟨rfl, rfl⟩, rfl, by simp,
      by simp⟩
    desktop := ⟨by simp, by simp, by simp, by simp, by simp⟩
    identities := ⟨h.identities.tidy, h.identities.buried, rfl, by simp, by simp, by simp, by simp,
      by simp⟩
    evidence := ⟨by simp, by simp, by simp⟩
    selection := ⟨by simp, by simp, by simp, by simp, by simp⟩
    unplug := by simp [UnplugAt]
    attempts := ⟨by simp, by simp, by simp, by simp⟩
    started := by simp
    inScope := by simp [ScopedAt]
    pending := ⟨by simp, by simp, by simp, by simp⟩
    verified := by simp [ProofAt]
    wake := by simp [WakeAt] }

end Sound

end MonitorController
