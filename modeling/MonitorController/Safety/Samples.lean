import MonitorController.Safety.Preservation

/-! # Samples which meet a worker keep the invariant

Every exit of a fresh sample short of classification. The exits which break the
invariant are those of the unanswered samples.
-/

namespace MonitorController

/-- External evidence meets an internal-only application which the sample leaves in its slot. -/
def keepsInternal (s : State) (o : CanonicalObservation) : Prop :=
  o.hasExternalHardware = true ∧ ∃ a ∈ s.application, a.scope = .internalOnly ∧
    if o.valid = true then
      a.lifecycle = .dispatched ∨ a.lifecycle = .stopping ∨ confirmsApplication s o a
    else a.lifecycle ≠ .admitted

/-- The sample proves a preparation whose candidate is no longer retained. -/
def provesUnselected (s : State) (o : CanonicalObservation) : Prop :=
  o.valid = true ∧ s.physicalToken = some o.physicalToken ∧ s.candidate = none ∧
    ∃ a ∈ s.preparation,
      a.lifecycle = .dispatched ∧ preparationObservationStatus s o a = some .exact ∨
      a.lifecycle = .admitted ∧ confirmsPreparation s o a

/-- A sample on which no state the reducer builds passes its own checks; `s` records it. -/
def Unanswered (s : State) (o : CanonicalObservation) : Prop :=
  keepsInternal s o ∨ provesUnselected s o

instance (s : State) (o : CanonicalObservation) : Decidable (keepsInternal s o) :=
  inferInstanceAs (Decidable (_ ∧ ∃ a ∈ s.application, _))

instance (s : State) (o : CanonicalObservation) : Decidable (provesUnselected s o) :=
  inferInstanceAs (Decidable (_ ∧ _ ∧ _ ∧ ∃ a ∈ s.preparation, _))

instance (s : State) (o : CanonicalObservation) : Decidable (Unanswered s o) :=
  inferInstanceAs (Decidable (_ ∨ _))

/-- A sound state which has just recorded a fresh sample. -/
structure Recorded (s : State) (o : CanonicalObservation) : Prop extends Core s where
  latest : s.latestObservation = some o
  starting : s.phase = .recovering → s.physicalToken = none
  wake : WakeAt s.phase s.nextTimerMs
  probed : ∀ a ∈ s.probe, a.lifecycle = .admitted → a.key.physicalEpoch = s.physicalEpoch
  applied : ∀ a ∈ s.application, a.lifecycle = .admitted →
    a.mapping.physicalEpoch = s.physicalEpoch ∧ a.key.physicalEpoch = s.physicalEpoch
  prepared : ∀ a ∈ s.preparation, a.lifecycle = .admitted →
    Proven s.verifySinceMs (some o) preparationStabilityMs
  finalized : ∀ a ∈ s.finalization, a.lifecycle = .admitted →
    Proven s.verifySinceMs (some o) profileStabilityMs

theorem Proven.mono {v : Option Nat} {latest : Option CanonicalObservation} {n : Nat}
    {o : CanonicalObservation} (h : Proven v latest n)
    (ho : ∀ prior ∈ latest, prior.observedAtMs ≤ o.observedAtMs) : Proven v (some o) n := by
  obtain ⟨t, ht, prior, hprior, hle⟩ := h
  exact ⟨t, ht, o, rfl, hle.trans (ho prior hprior)⟩

theorem Sound.recorded {s : State} {o : CanonicalObservation} (h : Sound s)
    (hb : o.bootId = s.bootId) (hf : ¬ staleObservation s o) :
    Recorded (recordObservation s o) o := by
  have hlate : ∀ prior ∈ s.latestObservation, prior.observedAtMs ≤ o.observedAtMs := by
    intro prior hp
    by_contra hlt
    exact hf ⟨prior, hp, .inr (.inl (by omega))⟩
  have hkept : ∀ c ∈ (if o.hasExternalHardware = true ∧ internalCandidate s then none
      else s.candidate), c ∈ s.candidate ∧
        (o.hasExternalHardware = true → c.scope ≠ .internalOnly) := by
    intro c hc
    split at hc
    · cases hc
    next hn => exact ⟨hc, fun he hi => hn ⟨he, c, hc, hi⟩⟩
  unfold recordObservation
  exact {
    control := h.control
    desktop := { h.desktop with
      unfinalized := fun a ha => by
        dsimp only
        split
        · simp
        · exact h.desktop.unfinalized a ha }
    identities := h.identities
    evidence := {
      boot := by rintro _ ⟨⟩; exact hb
      generation := by rintro _ ⟨⟩; exact le_max_right ..
      event := by rintro _ ⟨⟩; exact le_max_right .. }
    selection := {
      unobserved := by simp
      epoch := fun c hc => h.selection.epoch c (hkept c hc).1
      scope := by rintro _ ⟨⟩ he c hc; exact (hkept c hc).2 he
      probing := fun hp => by simp [h.selection.probing hp]
      preparing := fun hq a ha c hc => h.selection.preparing hq a ha c (hkept c hc).1 }
    unplug := fun p hp => by
      obtain ⟨hi, prior, hprior, hle⟩ := h.unplug p hp
      exact ⟨hi, o, rfl, hle.trans (hlate prior hprior)⟩
    attempts := h.attempts.mono (le_max_left ..)
    latest := rfl
    starting := fun hp => (h.selection.unobserved (h.started.mp hp)).1
    wake := h.wake
    probed := fun a ha hl => (h.pending.probe a ha hl).1
    applied := fun a ha hl => ⟨(h.pending.application a ha hl).1, (h.pending.application a ha hl).2.1⟩
    prepared := fun a ha hl => (h.pending.preparation a ha hl).1.mono hlate
    finalized := fun a ha hl => (h.pending.finalization a ha hl).1.mono hlate }

namespace Core

variable {s : State} (h : Core s)
include h

theorem live_alone {w v : WorkerAction} (hw : w ∈ s.mutators) (hl : w.lifecycle.terminal = false)
    (hv : v ∈ s.mutators) : v = w ∨ v.lifecycle.terminal = true := by
  rcases State.mem_mutators.mp hw with ⟨a, ha, rfl⟩ | ⟨a, ha, rfl⟩ | ⟨a, ha, rfl⟩ | ⟨a, ha, rfl⟩
  · obtain ⟨h1, -, h3, h4⟩ := h.control.probe_alone (by simp [Option.mem_def.mp ha])
    simp_all [State.mutators]
  · obtain ⟨h1, h2, h3⟩ := h.control.application_alone (by simp [Option.mem_def.mp ha])
    have hprep := h.control.preparation_settled h3
    rcases State.mem_mutators.mp hv with ⟨b, hb, rfl⟩ | ⟨b, hb, rfl⟩ | ⟨b, hb, rfl⟩ | ⟨b, hb, rfl⟩
    · simp [h1] at hb
    · exact .inl (by rw [Option.mem_unique hb ha])
    · exact .inr (hprep b hb)
    · simp [h2] at hb
  · obtain ⟨h1, h2, h3⟩ := h.control.active_alone (h.control.preparation_live ha hl)
    simp_all [State.mutators]
  · obtain ⟨h1, h2, h3⟩ := h.control.finalization_alone (by simp [Option.mem_def.mp ha])
    have hprep := h.control.preparation_settled (by rw [h3]; rfl)
    rcases State.mem_mutators.mp hv with ⟨b, hb, rfl⟩ | ⟨b, hb, rfl⟩ | ⟨b, hb, rfl⟩ | ⟨b, hb, rfl⟩
    · simp [h1] at hb
    · simp [h2] at hb
    · exact .inr (hprep b hb)
    · exact .inl (by rw [Option.mem_unique hb ha])

theorem none_admitted {w : WorkerAction} (hw : w ∈ s.mutators)
    (hl : w.lifecycle.mutatingInFlight = true) : ∀ v ∈ s.mutators, v.lifecycle ≠ .admitted := by
  intro v hv hadmitted
  rcases h.live_alone hw (ActionLifecycle.live_of_inFlight hl) hv with rfl | ht
  · simp [hadmitted, ActionLifecycle.mutatingInFlight] at hl
  · simp [hadmitted, ActionLifecycle.terminal] at ht

theorem not_recovering {w : WorkerAction} (hw : w ∈ s.mutators) : s.phase ≠ .recovering := by
  refine h.control.not_recovering ?_
  rcases State.mem_mutators.mp hw with ⟨a, ha, rfl⟩ | ⟨a, ha, rfl⟩ | ⟨a, ha, rfl⟩ | ⟨a, ha, rfl⟩
  · exact .inl (by simp [Option.mem_def.mp ha])
  · exact .inr (.inl (by simp [Option.mem_def.mp ha]))
  · refine .inr (.inr (.inr (.inr fun hs => ?_)))
    have hfit := h.control.preparation_fits
    rw [hs, Option.mem_def.mp ha] at hfit
    cases hfit
  · exact .inr (.inr (.inl (by simp [Option.mem_def.mp ha])))

end Core

theorem SelectionAt.narrow {latest : Option CanonicalObservation} {epoch : Nat}
    {token : Option PhysicalToken} {candidate candidate' : Option CandidateSelection}
    {probe : Option ProbeAction} {preparationState : PreparationState}
    {preparation : Option PreparationAction}
    (h : SelectionAt latest epoch token candidate probe preparationState preparation)
    (hc : ∀ c ∈ candidate', c ∈ candidate) :
    SelectionAt latest epoch token candidate' probe preparationState preparation := by
  have hnone : candidate = none → candidate' = none := by
    rintro rfl
    exact Option.eq_none_iff_forall_not_mem.mpr fun c hc' => by simpa using hc c hc'
  exact {
    unobserved := fun hl => ⟨(h.unobserved hl).1, hnone (h.unobserved hl).2⟩
    epoch := fun c hc' => h.epoch c (hc c hc')
    scope := fun o ho he c hc' => h.scope o ho he c (hc c hc')
    probing := fun hp => hnone (h.probing hp)
    preparing := fun hq a ha c hc' => h.preparing hq a ha c (hc c hc') }

theorem Core.revokeProofs {s : State} (h : Core s) (o : CanonicalObservation) :
    Core (revokeProofs s o) := by
  unfold MonitorController.revokeProofs
  exact { h with
    selection := h.selection.narrow fun c hc => by
      dsimp only at hc
      split at hc
      · cases hc
      · exact hc
    unplug := by simp [UnplugAt] }

theorem scopedAt_none {latest : Option CanonicalObservation} : ScopedAt latest none := by
  simp [ScopedAt]

namespace ControlAt

variable {phase : ControllerPhase} {planningState : PlanningState}
  {preparationState : PreparationState} {probe : Option ProbeAction}
  {application : Option ApplicationAction} {planning : Option PlanningAction}
  {preparation : Option PreparationAction} {finalization : Option FinalizationAction}
  (h : ControlAt phase planningState preparationState probe application planning preparation
    finalization)
include h

theorem probe_pending {a : ProbeAction} (ha : probe = some a) (hl : a.lifecycle = .admitted) :
    phase = .probePending := by
  simpa [hl, ActionLifecycle.failedLifecycle] using h.probe_phase ha

theorem application_pending {a : ApplicationAction} (ha : application = some a)
    (hl : a.lifecycle = .admitted) : phase = .applyPending := by
  simpa [hl, ActionLifecycle.failedLifecycle] using h.application_phase ha

theorem finalization_pending {a : FinalizationAction} (ha : finalization = some a)
    (hl : a.lifecycle = .admitted) : phase = .finalizePending := by
  simpa [hl, ActionLifecycle.failedLifecycle] using h.finalization_phase ha

theorem planning_ended (hs : planningState = .planReady) {p : PlanningAction}
    (hp : planning = some p) : p.lifecycle.terminal = true := by
  have hfit := h.planning_fits
  rw [hs, hp] at hfit
  have hl : p.lifecycle = .completed := by simpa [Fits, expectedPlanning] using hfit
  rw [hl]
  rfl

/-- An invalid sample retains exactly the phases of running and ended workers. -/
theorem unretained (hr : ¬ retainedByInvalid phase = true)
    (hprobe : ∀ a ∈ probe, a.lifecycle ≠ .admitted)
    (happ : ∀ a ∈ application, a.lifecycle ≠ .admitted)
    (hfin : ∀ a ∈ finalization, a.lifecycle ≠ .admitted) :
    probe = none ∧ application = none ∧ finalization = none := by
  refine ⟨?_, ?_, ?_⟩ <;> refine Option.eq_none_iff_forall_not_mem.mpr fun a ha => ?_
  · rcases h.probe_phase ha with ⟨hl, -⟩ | ⟨-, hp⟩ | ⟨-, hp⟩
    · exact hprobe a ha hl
    all_goals simp [hp, retainedByInvalid] at hr
  · rcases h.application_phase ha with ⟨hl, -⟩ | ⟨-, hp⟩ | ⟨-, hp⟩
    · exact happ a ha hl
    all_goals simp [hp, retainedByInvalid] at hr
  · rcases h.finalization_phase ha with ⟨hl, -⟩ | ⟨-, hp⟩ | ⟨-, hp⟩ | ⟨-, hp⟩
    · exact hfin a ha hl
    all_goals simp [hp, retainedByInvalid] at hr

end ControlAt

namespace State

variable {s : State} (h : ∀ p ∈ s.planning, p.lifecycle.terminal = true)
include h

theorem planTombstones_of_ended : s.planTombstones = s.actionTombstones := by
  unfold planTombstones
  split
  next => rfl
  next p hp => rw [if_pos (h p hp)]

theorem planUnits_of_ended : s.planUnits = s.recoveryUnits := by
  unfold planUnits
  split
  next => rfl
  next p hp => rw [if_pos (h p hp)]

end State

theorem confirms_of_exact {s : State} {o : CanonicalObservation} {a : PreparationAction}
    (h : preparationObservationStatus s o a = some .exact) : confirmsPreparation s o a := by
  unfold preparationObservationStatus at h
  split at h
  next => cases h
  next p hp =>
    simp only at h
    split at h
    next => cases h
    next =>
      split at h
      next => cases h
      next hc =>
        split at h
        next he =>
          push Not at hc
          exact ⟨hc.1, he.1, hc.2.2.2.2.1, he.2⟩
        next =>
          split at h
          next => cases h
          next => split at h <;> cases h

namespace Recorded

variable {s : State} {o : CanonicalObservation} (h : Recorded s o)
include h

theorem scoped_valid (hn : ¬ keepsInternal s o) (hv : o.valid = true)
    (hl : ∀ a ∈ s.application, a.lifecycle = .dispatched ∨ a.lifecycle = .stopping ∨
      confirmsApplication s o a) : ScopedAt s.latestObservation s.application := by
  intro p hp he a ha hi
  rw [h.latest, Option.mem_some] at hp
  subst hp
  exact hn ⟨he, a, ha, hi, by rw [if_pos hv]; exact hl a ha⟩

theorem scoped_invalid (hn : ¬ keepsInternal s o) (hv : o.valid = false)
    (hl : ∀ a ∈ s.application, a.lifecycle ≠ .admitted) :
    ScopedAt s.latestObservation s.application := by
  intro p hp he a ha hi
  rw [h.latest, Option.mem_some] at hp
  subst hp
  exact hn ⟨he, a, ha, hi, by rw [if_neg (by simp [hv])]; exact hl a ha⟩

theorem observed : s.latestObservation ≠ none := by
  rw [h.latest]
  simp

theorem revoked {r : ActionRecord} {s' : State} {es : List Effect}
    (hr : Revokes (revokeProofs s o) r s' es) (hl : r.lifecycle = .admitted) (t : Nat) :
    Sound (s'.timed t) := by
  have hcore := h.revokeProofs o
  have hlatest : (revokeProofs s o).latestObservation ≠ none := h.observed
  have hphase : ControllerPhase.discoverFast ≠ .recovering ∧
      ControllerPhase.discoverFast ≠ .verifying := by decide
  have hwake : WakeAt .discoverFast (some t) := by simp [WakeAt]
  cases hr with
  | desktop hw => exact hcore.withdrawn hw hl hlatest s'.verifySinceMs t
  | probe a ha =>
    have hids := hcore.identities.retire (State.mem_actions_probe ha) (l := .cancelled) rfl
    dsimp only [State.timed, State.retire, State.clearSlot, State.bury, ActionRecord.kind]
      at hids ⊢
    exact hcore.settle_probe (by simp [ha]) hlatest (by rfl) rfl rfl hphase hids (by simp)
      (by simp) hwake
  | application a ha =>
    have hids := hcore.identities.retire (State.mem_actions_application ha) (l := .cancelled) rfl
    dsimp only [State.timed, State.retire, State.clearSlot, State.bury, ActionRecord.kind]
      at hids ⊢
    exact hcore.settle_application (by simp [ha]) hlatest (by rfl) rfl rfl hphase hids (by simp)
      (by simp) scopedAt_none hwake

/-- An invalid sample leaves running and ended workers in their slots. -/
theorem invalid (hn : ¬ keepsInternal s o) (hv : o.valid = false)
    (hadmitted : ∀ w ∈ s.mutators, w.lifecycle ≠ .admitted) {phase : ControllerPhase}
    (hp : phase = if retainedByInvalid s.phase then s.phase else .discoverFast) (t : Nat) :
    Sound (({ revokeProofs s o with phase := phase }).timed t) := by
  have hcore := h.revokeProofs o
  obtain ⟨hprobe, happ, hprep, hfin⟩ := State.forall_mutators.mp hadmitted
  have hscope := h.scoped_invalid hn hv happ
  have hrec : phase ≠ .recovering := by
    rw [hp]
    split
    next hr => rintro hs; simp [hs, retainedByInvalid] at hr
    next => simp
  have hcontrol : ControlAt phase s.planningState s.preparationState s.probe s.application
      s.planning s.preparation s.finalization := by
    rw [hp]
    split
    next => exact h.control
    next hr =>
      have hpending : s.preparationState ≠ .preparePending := by
        intro hs
        obtain ⟨a, ha⟩ := h.control.preparation_isSome (by simp [hs])
        rcases h.control.preparation_state ha with ⟨hl, -⟩ | ⟨-, hq⟩ | ⟨-, hq⟩ | ⟨-, hq⟩
        · exact hprep a ha hl
        all_goals simp [hs, PreparationState.active] at hq
      obtain ⟨hprobe, happ, hfin⟩ := h.control.unretained hr hprobe happ hfin
      refine h.control.rephase hprobe happ hfin rfl ?_
      cases hs : s.preparationState <;> simp_all [preparationPhases]
  unfold MonitorController.revokeProofs at hcore ⊢
  dsimp only [State.timed] at hcore ⊢
  exact Core.sound { hcore with control := hcontrol }
    ⟨fun he => absurd he hrec, fun hl => absurd hl h.observed⟩ hscope hadmitted (.inr rfl)
    (by simp [WakeAt])

theorem retained {w : WorkerAction} (hw : w ∈ s.mutators)
    (hl : w.lifecycle.mutatingInFlight = true) (hp : s.phase ≠ .verifying)
    (hscope : ScopedAt s.latestObservation s.application) (t : Nat) : Sound (s.timed t) :=
  (h.retime s.verifySinceMs (some t)).sound
    ⟨fun he => absurd he (h.not_recovering hw), fun hl => absurd hl h.observed⟩ hscope
    (h.none_admitted hw hl) (.inl hp) (by simp [WakeAt])

theorem unverified_of_stopping {w : WorkerAction} (hw : w ∈ s.mutators)
    (hl : w.lifecycle = .stopping) : s.phase ≠ .verifying := by
  intro hp
  obtain ⟨h1, h2, h3⟩ := h.control.worker_free (by rw [hp]; rfl)
  rcases State.mem_mutators.mp hw with ⟨a, ha, rfl⟩ | ⟨a, ha, rfl⟩ | ⟨a, ha, rfl⟩ | ⟨a, ha, rfl⟩
  · simp [h1] at ha
  · simp [h2] at ha
  · have hphases := h.control.phases
    rcases h.control.preparation_state ha with ⟨hl', -⟩ | ⟨hl', -⟩ | ⟨-, hq⟩ | ⟨hl', -⟩
    · simp [hl] at hl'
    · simp [hl] at hl'
    · simp [hq, hp, preparationPhases] at hphases
    · simp [hl, ActionLifecycle.terminal] at hl'
  · simp [h3] at ha

theorem stopping (hn : ¬ keepsInternal s o) (hv : o.valid = true) {w : WorkerAction}
    (hw : w ∈ s.mutators) (hl : w.lifecycle = .stopping) (t : Nat) : Sound (s.timed t) := by
  have hflying : w.lifecycle.mutatingInFlight = true := by rw [hl]; rfl
  refine h.retained hw hflying (h.unverified_of_stopping hw hl) (h.scoped_valid hn hv ?_) t
  intro a ha
  rcases h.control.application_phase ha with ⟨hadmitted, -⟩ | ⟨hrun, -⟩ | ⟨hfailed, -⟩
  · exact absurd hadmitted (h.none_admitted hw hflying _ (State.mem_mutators.mpr
      (.inr (.inl ⟨a, ha, rfl⟩))))
  · exact hrun.imp_right .inl
  · -- A failed application excludes every other live worker.
    have hmem : a.toWorkerAction ∈ s.mutators := State.mem_mutators.mpr (.inr (.inl ⟨a, ha, rfl⟩))
    obtain ⟨h1, h2, h3⟩ := h.control.application_alone (by simp [Option.mem_def.mp ha])
    rcases State.mem_mutators.mp hw with ⟨b, hb, rfl⟩ | ⟨b, hb, rfl⟩ | ⟨b, hb, rfl⟩ | ⟨b, hb, rfl⟩
    · simp [h1] at hb
    · obtain rfl := Option.mem_unique ha hb
      exact .inr (.inl hl)
    · have := h.control.preparation_settled h3 b hb
      simp [hl, ActionLifecycle.terminal] at this
    · simp [h2] at hb

theorem running (hn : ¬ keepsInternal s o) (hv : o.valid = true)
    (hr : (∃ a ∈ s.probe, a.lifecycle = .dispatched) ∨
      (∃ a ∈ s.application, a.lifecycle = .dispatched ∧
        ¬ internalApplicationRuns o a [.dispatched]) ∨
      ∃ a ∈ s.finalization, a.lifecycle = .dispatched ∧ sameExactFinalization s o) (t : Nat) :
    Sound (s.timed t) := by
  rcases hr with ⟨a, ha, hl⟩ | ⟨a, ha, hl, -⟩ | ⟨a, ha, hl, -⟩
  · have happ := (h.control.probe_alone (by simp [Option.mem_def.mp ha])).1
    refine h.retained (State.mem_mutators.mpr (.inl ⟨a, ha, rfl⟩)) (by rw [hl]; rfl) ?_
      (by simp [ScopedAt, happ]) t
    simp [(h.control.probe_flying ha (.inl hl)).1]
  · refine h.retained (State.mem_mutators.mpr (.inr (.inl ⟨a, ha, rfl⟩))) (by rw [hl]; rfl) ?_
      (h.scoped_valid hn hv ?_) t
    · simp [(h.control.application_flying ha (.inl hl)).1]
    · intro b hb
      obtain rfl := Option.mem_unique ha hb
      exact .inl hl
  · have happ := (h.control.finalization_alone (by simp [Option.mem_def.mp ha])).2.1
    refine h.retained (State.mem_mutators.mpr (.inr (.inr (.inr ⟨a, ha, rfl⟩))))
      (by rw [hl]; rfl) ?_ (by simp [ScopedAt, happ]) t
    simp [h.control.finalization_flying ha (.inl hl)]

/-- A worker which the sample contradicts is stopped. -/
theorem stopped {r : ActionRecord} {s' : State} (hs : Stops s r s')
    (hi : ∀ a, r = .application a → ¬ internalApplicationRuns o a [.dispatched]) (t : Nat) :
    Sound (s'.timed t) := by
  cases hs with
  | probe a ha hl =>
    have hphase := (h.control.probe_flying ha (.inl hl)).1
    have := h.stopping_probe (w := a.stop) h.observed rfl ha ⟨rfl, rfl, rfl, rfl⟩
      (by rw [hl]; rfl) (k := a.kind_probe) t
    rwa [← hphase] at this
  | application a ha hl =>
    have hphase := (h.control.application_flying ha (.inl hl)).1
    have hscope : ScopedAt s.latestObservation s.application := by
      intro p hp he b hb hb'
      rw [h.latest, Option.mem_some] at hp
      subst hp
      obtain rfl := Option.mem_unique ha hb
      exact hi a rfl ⟨he, hb', by simp [hl]⟩
    have := h.stopping_application (w := a.stop) h.observed rfl ha ⟨rfl, rfl, rfl, rfl⟩
      (by rw [hl]; rfl) hscope (k := a.kind_application) t
    rwa [← hphase] at this
  | preparation a ha hl =>
    exact h.stopping_preparation (w := a.stop) h.observed rfl ha ⟨rfl, rfl, rfl, rfl⟩
      (by rcases hl with hl | hl <;> rw [hl] <;> rfl) t
  | finalization a ha hl =>
    exact h.stopping_finalization (w := a.stop) h.observed rfl ha ⟨rfl, rfl, rfl, rfl⟩
      (by rw [hl]; rfl) t

/-- A desktop worker whose result the sample does not confirm has failed. -/
theorem refused {s' : State} (hs : Refuses s s') (t : Nat) : Sound (s'.timed t) := by
  have hfit : Fits (some ActionLifecycle.failed) (some failedLifecycles) :=
    ActionLifecycle.fits_failed rfl
  cases hs with
  | finalization a b v ha hl hb hbl hv =>
    have hids := h.identities.fail (State.mem_actions_finalization ha) hb
      (congrArg ActionLifecycle.terminal hbl)
    cases hb with
    | finalization a w hk hw =>
      have hbl : w.lifecycle = .failed := hbl
      have hw' := hw.worker (h.attempts.finalization a ha) (by simp [hbl]) (by
        simp [hbl, ActionLifecycle.mutatingInFlight])
      dsimp only [ActionRecord.lifecycle] at hids
      rw [hbl] at hids
      dsimp only [State.timed, failSlot, State.bury] at hids ⊢
      refine h.settle_finalization (by simp [ha]) h.observed
        (by rw [Option.map_some, hbl]; exact hfit) rfl rfl (by decide) hids ?_ ?_
        (by rintro b ⟨⟩; simp [hbl]) (by simp [WakeAt])
      · rintro b ⟨⟩
        exact ⟨a, ha, rfl, rfl, rfl, rfl⟩
      · rintro b ⟨⟩
        exact hw'
  | preparation a b ha hl hb hbl =>
    have hids := h.identities.fail (State.mem_actions_preparation ha) hb
      (congrArg ActionLifecycle.terminal hbl)
    have hactive := h.control.preparation_live ha (by rw [hl]; rfl)
    have hphase := h.control.active_phase hactive
    cases hb with
    | preparation a w hk hw =>
      have hbl : w.lifecycle = .failed := hbl
      have hw' := hw.worker (h.attempts.preparation a ha) (by simp [hbl]) (by
        simp [hbl, ActionLifecycle.mutatingInFlight])
      dsimp only [ActionRecord.lifecycle] at hids
      rw [hbl] at hids
      dsimp only [State.timed, failSlot, State.bury] at hids ⊢
      refine h.settle_preparation hactive h.observed
        (by rw [Option.map_some, hbl]; exact hfit) ?_ rfl hids ?_ ?_
        (by rintro b ⟨⟩; simp [hbl]) (by simp [ProofAt]) (by simp [WakeAt])
      · rcases hphase with hp | hp <;> rw [hp] <;> rfl
      · rintro b ⟨⟩
        exact ⟨a, ha, rfl, rfl, rfl, rfl⟩
      · rintro b ⟨⟩
        exact hw'

/-- A confirmed finalization completes the desktop and drops its ended plan. -/
theorem completed {a : FinalizationAction} (ha : s.finalization = some a) :
    Sound
      { resetApplicationRecovery (s.bury a.actionId .completed).dropPlan a.profile with
        phase := .quiescent
        nextTimerMs := none
        stableXProfile := some a.profile
        desktopFinalizedProfile := some a.profile
        desktopFinalizationRequired := false
        finalization := none
        requirement := by simp } := by
  obtain ⟨hprobe, happ, hprep⟩ := h.control.finalization_alone (by simp [ha])
  have hended : ∀ p ∈ (s.bury a.actionId .completed).planning, p.lifecycle.terminal = true :=
    fun p hp => h.control.planning_ended (h.control.ready (by simp [hprep])) hp
  have hids : IdentitiesAt s.actionSequenceHighWater s.transitionSequenceHighWater
      (s.burial a.actionId .completed) (s.recoveryUnits.filter (·.actionId ≠ a.actionId))
      none none none none none :=
    h.identities.after_burial (State.mem_actions_finalization ha) rfl (by simp) (by simp) (by simp)
      (by simp) (by simp)
  have htombstones := State.planTombstones_of_ended hended
  have hunits := State.planUnits_of_ended hended
  unfold resetApplicationRecovery State.dropPlan
  rw [htombstones, hunits]
  dsimp only [State.bury]
  refine Core.sound ?_ ⟨by simp, fun hl => absurd hl h.observed⟩ (by simp [ScopedAt, happ])
    (by simp [State.mutators, hprobe, happ]) (.inl (by simp)) (by simp [WakeAt, unwoken])
  exact {
    control := by
      rw [hprobe, happ]
      exact ControlAt.vacant rfl rfl rfl rfl (by simp)
    desktop := ⟨by simp, by simp, by simp, by simp, fun _ => ⟨rfl, rfl⟩⟩
    identities := by rw [hprobe, happ]; exact hids
    evidence := h.evidence
    selection := { h.selection with preparing := by simp [PreparationState.active] }
    unplug := h.unplug
    attempts := { h.attempts with
      application := by simp [happ]
      preparation := by simp
      finalization := by simp } }

theorem uncertain {a : PreparationAction} (ha : s.preparation = some a)
    (hl : a.lifecycle = .dispatched ∨ a.lifecycle = .resultPending) (t : Nat) :
    Sound (({ s with phase := .discoverFast, verifySinceMs := none }).timed t) := by
  have hstate := h.control.preparation_flying ha hl
  obtain ⟨hprobe, happ, hfin⟩ := h.control.active_alone (by rw [hstate]; rfl)
  have hn : ∀ b ∈ s.preparation, b.lifecycle ≠ .admitted := by
    intro b hb
    obtain rfl := Option.mem_unique ha hb
    rcases hl with hl | hl <;> simp [hl]
  have hcore := h.retime none (some t)
  dsimp only [State.timed]
  refine Core.sound { hcore with control := ?_ } ⟨by simp, fun hl => absurd hl h.observed⟩
    (by simp [ScopedAt, happ])
    (State.forall_mutators.mpr ⟨by simp [hprobe], by simp [happ], hn, by simp [hfin]⟩)
    (.inl (by simp)) (by simp [WakeAt])
  exact h.control.rephase hprobe happ hfin rfl (by rw [hstate]; rfl)

theorem proven_candidate (hn : ¬ provesUnselected s o) (hv : o.valid = true)
    {a : PreparationAction} (ha : s.preparation = some a) (hc : confirmsPreparation s o a)
    (hl : a.lifecycle = .dispatched ∧ preparationObservationStatus s o a = some .exact ∨
      a.lifecycle = .admitted) :
    ∃ p ∈ s.latestObservation, ∃ c ∈ s.candidate, ExactOn p c.profile c.observationKey := by
  obtain ⟨ht, hexact, hcurrent, hkey⟩ := id hc
  have hlive : a.lifecycle.terminal = false := by
    rcases hl with ⟨hl, -⟩ | hl <;> rw [hl] <;> rfl
  have hne : s.candidate ≠ none := fun hs =>
    hn ⟨hv, ht, hs, a, ha, hl.imp_right fun hl => ⟨hl, hc⟩⟩
  obtain ⟨c, hcand⟩ := Option.ne_none_iff_exists'.mp hne
  obtain ⟨hp, hk⟩ := h.selection.preparing (h.control.preparation_live ha hlive) a ha c hcand
  refine ⟨o, h.latest, c, hcand, ⟨hv, ?_, ?_, ?_⟩⟩
  · rw [hk, hkey]
  · rw [hp, hexact]
  · rw [hp]; exact hcurrent

theorem preparing (hn : ¬ provesUnselected s o) (hv : o.valid = true) {a : PreparationAction}
    (ha : s.preparation = some a) (hl : a.lifecycle = .dispatched)
    (he : preparationObservationStatus s o a = some .exact) (v : Option Nat) (t : Nat) :
    Sound (({ s with phase := .verifying, verifySinceMs := v }).timed t) := by
  have hstate := h.control.preparation_flying ha (.inl hl)
  obtain ⟨hprobe, happ, hfin⟩ := h.control.active_alone (by rw [hstate]; rfl)
  have hproof := h.proven_candidate hn hv ha (confirms_of_exact he) (.inl ⟨hl, he⟩)
  have hcore := h.retime v (some t)
  dsimp only [State.timed]
  exact { hcore with
    control := h.control.rephase hprobe happ hfin rfl (by rw [hstate]; rfl)
    started := ⟨by simp, fun hl => absurd hl h.observed⟩
    inScope := by simp [ScopedAt, happ]
    pending := .settled (by simp [hprobe]) (by simp [happ])
      (by rintro b hb; obtain rfl := Option.mem_unique ha hb; simp [hl]) (by simp [hfin])
    verified := fun _ _ => hproof
    wake := by simp [WakeAt] }

/-- A confirmed admission rests on the new sample. -/
theorem confirmed (hn : ¬ Unanswered s o) (hv : o.valid = true) {s' : State} {eff : Effect}
    (hc : Confirms s o s' eff) (t : Nat) : Sound (s'.timed t) := by
  obtain ⟨hinternal, hunselected⟩ := not_or.mp hn
  have hevent : o.endEventGeneration ≤ s.eventGeneration := h.evidence.event o h.latest
  have started {phase : ControllerPhase} (hp : phase ≠ .recovering) :
      phase = .recovering ↔ s.latestObservation = none :=
    ⟨fun he => absurd he hp, fun hl => absurd hl h.observed⟩
  cases hc with
  | probe a ha hl hc =>
    obtain ⟨happ, hplan, hprep, hfin⟩ := h.control.probe_alone (by simp [ha])
    have hphase : s.phase = .probePending := h.control.probe_pending ha hl
    obtain ⟨c, hcand, -, hkey, hsame⟩ := hc
    have hid := h.identities.probe a ha
    have hfit : Fits (some a.lifecycle) (probeShape s.phase) := by
      have := h.control.probe_fits
      rwa [ha] at this
    dsimp only [State.timed]
    exact {
      control := h.control.probe_at (by simp [ha]) hfit (by rw [hphase]; rfl)
        (by rw [hphase]; rfl) (by simp [hphase])
      desktop := h.desktop
      identities := { h.identities with probe := by rintro _ ⟨⟩; exact hid.congr rfl rfl }
      evidence := h.evidence
      selection := { h.selection with probing := fun _ => h.selection.probing (by simp [ha]) }
      unplug := h.unplug
      attempts := { h.attempts with
        probe := by
          rintro _ ⟨⟩
          obtain ⟨hw, hk⟩ := h.attempts.probe a ha
          exact ⟨⟨hevent, hw.unlaunched, hw.unit⟩, hk⟩ }
      started := started (by simp [hphase])
      inScope := by simp [ScopedAt, happ]
      pending := {
        probe := by
          rintro _ ⟨⟩ -
          exact ⟨h.probed a ha hl, o, h.latest, hv, hkey.symm, rfl, c, hcand, hsame⟩
        application := by simp [happ]
        preparation := by simp [hprep]
        finalization := by simp [hfin] }
      verified := fun hp => absurd hp (by simp [hphase])
      wake := by simp [WakeAt] }
  | application a ha hl hc =>
    obtain ⟨hprobe, hfin, hactive⟩ := h.control.application_alone (by simp [ha])
    have hphase : s.phase = .applyPending := h.control.application_pending ha hl
    have hscope : ScopedAt s.latestObservation s.application := h.scoped_valid hinternal hv (by
      intro b hb
      obtain rfl := Option.mem_unique ha hb
      exact .inr (.inr hc))
    obtain ⟨target, -, -, -, hkey⟩ := hc
    have hid := h.identities.application a ha
    have hfit : Fits (some a.lifecycle) (applicationShape s.phase) := by
      have := h.control.application_fits
      rwa [ha] at this
    dsimp only [State.timed]
    exact {
      control := h.control.application_at (by simp [ha]) hfit (by rw [hphase]; rfl)
        (by rw [hphase]; rfl) (by simp [hphase])
      desktop := h.desktop
      identities := { h.identities with application := by rintro _ ⟨⟩; exact hid.congr rfl rfl }
      evidence := h.evidence
      selection := h.selection
      unplug := h.unplug
      attempts := { h.attempts with
        application := by
          rintro _ ⟨⟩
          obtain ⟨hw, hk⟩ := h.attempts.application a ha
          exact ⟨⟨hevent, hw.unlaunched, hw.unit⟩, hk⟩ }
      started := started (by simp [hphase])
      inScope := by
        rintro p hp he _ ⟨⟩
        exact hscope p hp he a ha
      pending := {
        probe := by simp [hprobe]
        application := by
          rintro _ ⟨⟩ -
          exact ⟨(h.applied a ha hl).1, (h.applied a ha hl).2, o, h.latest, hv, hkey, rfl⟩
        preparation := fun b hb hb' =>
          absurd hb' (ActionLifecycle.ne_of_terminal (h.control.preparation_settled hactive b hb) rfl)
        finalization := by simp [hfin] }
      verified := fun hp => absurd hp (by simp [hphase])
      wake := by simp [WakeAt] }
  | preparation a ha hl hc =>
    have hstate := h.control.preparation_pending ha hl
    have hactive : s.preparationState.active = true := by rw [hstate]; rfl
    obtain ⟨hprobe, happ, hfin⟩ := h.control.active_alone hactive
    have hphase : s.phase = .verifying := h.control.pending_verifying hstate
    have hproof := h.proven_candidate hunselected hv ha hc (.inr hl)
    obtain ⟨-, hexact, hcurrent, hkey⟩ := hc
    have hids := h.identities.preparation a ha
    have hfit : Fits (some a.lifecycle) (expectedPreparation s.preparationState) := by
      have := h.control.preparation_fits
      rwa [ha] at this
    dsimp only [State.timed]
    exact {
      toCore := h.move_preparation hactive hfit (by rw [hphase]; rfl) h.control.phases
        { h.identities with
          preparation := by rintro _ ⟨⟩; exact ⟨hids.1.congr rfl rfl, hids.2⟩ }
        (by rintro _ ⟨⟩; exact ⟨a, ha, rfl, rfl, rfl, rfl⟩)
        (by
          rintro _ ⟨⟩
          have hw := h.attempts.preparation a ha
          exact ⟨hevent, hw.unlaunched, hw.unit⟩)
      started := started (by simp [hphase])
      inScope := by simp [ScopedAt, happ]
      pending := {
        probe := by simp [hprobe]
        application := by simp [happ]
        preparation := by
          rintro _ ⟨⟩ -
          refine ⟨?_, o, h.latest, ⟨hv, hkey, hexact, hcurrent⟩, rfl⟩
          rw [h.latest]
          exact h.prepared a ha hl
        finalization := by simp [hfin] }
      verified := fun _ _ => hproof
      wake := by simp [WakeAt] }
  | finalization a ha hl hc =>
    obtain ⟨hprobe, happ, hprep⟩ := h.control.finalization_alone (by simp [ha])
    have hphase : s.phase = .finalizePending := h.control.finalization_pending ha hl
    obtain ⟨b, hb, -, hexact, hcurrent, hkey⟩ := hc
    obtain rfl := Option.mem_unique ha hb
    have hids := h.identities.finalization a ha
    have hfit : Fits (some a.lifecycle) (expectedFinalizationLifecycles s.phase) := by
      have := h.control.finalization_fits
      rwa [ha] at this
    dsimp only [State.timed]
    exact {
      toCore := h.move_finalization (by simp [ha]) hfit (by rw [hphase]; rfl) (by rw [hphase]; rfl)
        (by simp [hphase])
        { h.identities with
          finalization := by rintro _ ⟨⟩; exact ⟨hids.1.congr rfl rfl, hids.2⟩ }
        (by rintro _ ⟨⟩; exact ⟨a, ha, rfl, rfl, rfl, rfl⟩)
        (by
          rintro _ ⟨⟩
          have hw := h.attempts.finalization a ha
          exact ⟨hevent, hw.unlaunched, hw.unit⟩)
      started := started (by simp [hphase])
      inScope := by simp [ScopedAt, happ]
      pending := {
        probe := by simp [hprobe]
        application := by simp [happ]
        preparation := fun b hb hb' => by
          have := h.control.preparation_settled (by rw [hprep]; rfl) b hb
          simp [hb', ActionLifecycle.terminal] at this
        finalization := by
          rintro _ ⟨⟩ -
          refine ⟨?_, o, h.latest, ⟨hv, hkey, hexact, hcurrent⟩, rfl⟩
          rw [h.latest]
          exact h.finalized a ha hl }
      verified := fun hp => absurd hp (by simp [hphase])
      wake := by simp [WakeAt] }

end Recorded

end MonitorController
