import MonitorController.Transition.Selection
import MonitorController.Transition.Workers

/-! # Steps of observations

Every exit of an observed sample is one step of the transition relation. The
arguments are about the state which already records the sample.
-/

namespace MonitorController

namespace State

variable {s : State}

theorem stoppingMutator_eq_none (h : ∀ w ∈ s.mutators, w.lifecycle ≠ .stopping) :
    s.stoppingMutator = none := by
  simpa [stoppingMutator] using h

theorem stoppingMutator_eq_some {w : WorkerAction} (h : s.stoppingMutator = some w) :
    w ∈ s.mutators ∧ w.lifecycle = .stopping :=
  ⟨List.mem_of_find?_eq_some h, by simpa using List.find?_some h⟩

theorem lifecycle_ne_stopping (h : s.stoppingMutator = none) {w : WorkerAction}
    (hw : w ∈ s.mutators) : w.lifecycle ≠ .stopping := by
  simpa using List.find?_eq_none.mp h w hw

theorem mem_mutators_probe {a : ProbeAction} (h : s.probe = some a) :
    a.toWorkerAction ∈ s.mutators :=
  mem_mutators.mpr (.inl ⟨a, h, rfl⟩)

theorem mem_mutators_application {a : ApplicationAction} (h : s.application = some a) :
    a.toWorkerAction ∈ s.mutators :=
  mem_mutators.mpr (.inr (.inl ⟨a, h, rfl⟩))

theorem mem_mutators_preparation {a : PreparationAction} (h : s.preparation = some a) :
    a.toWorkerAction ∈ s.mutators :=
  mem_mutators.mpr (.inr (.inr (.inl ⟨a, h, rfl⟩)))

theorem mem_mutators_finalization {a : FinalizationAction} (h : s.finalization = some a) :
    a.toWorkerAction ∈ s.mutators :=
  mem_mutators.mpr (.inr (.inr (.inr ⟨a, h, rfl⟩)))

end State

section Invalid

variable {s : State} {prior : Option CanonicalObservation} {o : CanonicalObservation}

theorem withdrawProbe_admitted (h : s.Tidy) {a : ProbeAction} (ha : s.probe = some a)
    (hl : a.lifecycle = .admitted) :
    withdrawProbe s = .ok (s.retire (.probe a) .cancelled) := by
  unfold withdrawProbe
  rw [ha]
  dsimp only
  rw [if_pos hl, h.appendTombstone_eq _ rfl]
  rfl

theorem withdrawProbe_other (h : ∀ a ∈ s.probe, a.lifecycle ≠ .admitted) :
    withdrawProbe s = .ok s := by
  unfold withdrawProbe
  split
  next => rfl
  next a ha => exact if_neg (h a ha)

theorem withdrawApplication_admitted (h : s.Tidy) {a : ApplicationAction}
    (ha : s.application = some a) (hl : a.lifecycle = .admitted) :
    withdrawApplication s = .ok (s.retire (.application a) .cancelled) := by
  unfold withdrawApplication
  rw [ha]
  dsimp only
  rw [if_pos hl, h.appendTombstone_eq _ rfl]
  rfl

theorem withdrawApplication_other (h : ∀ a ∈ s.application, a.lifecycle ≠ .admitted) :
    withdrawApplication s = .ok s := by
  unfold withdrawApplication
  split
  next => rfl
  next a ha => exact if_neg (h a ha)

theorem withdrawPreparation_admitted (h : s.Tidy) {a : PreparationAction}
    (ha : s.preparation = some a) (hl : a.lifecycle = .admitted) :
    withdrawPreparation s =
      .ok ({ (s.retire (.preparation a) .cancelled).dropPlan with phase := .discoverFast },
        s.planDiscards) := by
  unfold withdrawPreparation
  rw [ha]
  dsimp only
  rw [if_pos hl, h.appendTombstone_eq _ rfl, Outcome.ok_bind]
  exact State.Tidy.discardPlanning_eq (h.burial a.actionId .cancelled)

theorem withdrawPreparation_other (h : ∀ a ∈ s.preparation, a.lifecycle ≠ .admitted) :
    withdrawPreparation s = .ok (s, []) := by
  unfold withdrawPreparation
  split
  next => rfl
  next a ha => exact if_neg (h a ha)

theorem withdrawFinalization_admitted (h : s.Tidy) {a : FinalizationAction}
    (ha : s.finalization = some a) (hl : a.lifecycle = .admitted) :
    withdrawFinalization s = .ok (s.retire (.finalization a) .cancelled) := by
  unfold withdrawFinalization
  rw [ha]
  dsimp only
  rw [if_pos hl, h.appendTombstone_eq _ rfl]
  rfl

theorem withdrawFinalization_other (h : ∀ a ∈ s.finalization, a.lifecycle ≠ .admitted) :
    withdrawFinalization s = .ok s := by
  unfold withdrawFinalization
  split
  next => rfl
  next a ha => exact if_neg (h a ha)

theorem settleInvalid_eq (nowMs : Nat) (es : List Effect) :
    settleInvalid s nowMs es =
      schedule
        { s with phase := if retainedByInvalid s.phase then s.phase else .discoverFast }
        (nowMs + 1000) (es ++ stopEffects s) := by
  unfold settleInvalid
  cases hp : retainedByInvalid s.phase <;> rfl

theorem settleInvalid_discover (hp : s.phase = .discoverFast)
    (hn : ∀ w ∈ s.mutators, w.lifecycle ≠ .stopping) (nowMs : Nat) (es : List Effect) :
    settleInvalid s nowMs es =
      decision (s.timed (nowMs + 1000)) (es ++ [.schedule (nowMs + 1000)]) := by
  have hs : (if retainedByInvalid s.phase then s.phase else .discoverFast) = s.phase := by
    rw [hp]
    rfl
  have he : stopEffects s = [] := by simp [stopEffects, State.stoppingMutator_eq_none hn]
  rw [settleInvalid_eq, hs, he, List.append_nil]
  rfl

variable (hc : s.Control) (ht : s.Tidy) (hv : o.valid = false)
include hc ht hv

theorem observeInvalid_probe {a : ProbeAction} (ha : s.probe = some a)
    (hl : a.lifecycle = .admitted) : Decides (observeInvalid s o) (Observed s prior o) := by
  obtain ⟨happ, -, hprep, hfin⟩ := hc.probe_alone (by simp [ha])
  let r := revokeProofs s o
  let r' := r.retire (.probe a) .cancelled
  have htidy : r.Tidy := ht
  have happ' : r'.application = none := happ
  have hprep' : r'.preparation = none := hprep
  have hfin' : r'.finalization = none := hfin
  have hstep : Observed s prior o _ := Observed.revoked (.probe a) r' [] _ hv hl (.probe a ha) rfl
  unfold observeInvalid
  dsimp only
  rw [withdrawProbe_admitted (s := r) htidy ha hl, Outcome.ok_bind,
    withdrawApplication_other (s := r') (by simp [happ']), Outcome.ok_bind,
    withdrawPreparation_other (s := r') (by simp [hprep']), Outcome.ok_bind]
  dsimp only
  rw [withdrawFinalization_other (s := r') (by simp [hfin']), Outcome.ok_bind, happ']
  dsimp only
  rw [settleInvalid_discover (s := r') rfl]
  · exact .of_decision hstep
  · simp [State.mutators, happ', hprep', hfin', show r'.probe = none from rfl]

theorem observeInvalid_application {a : ApplicationAction} (ha : s.application = some a)
    (hl : a.lifecycle = .admitted) : Decides (observeInvalid s o) (Observed s prior o) := by
  obtain ⟨hprobe, hfin, hactive⟩ := hc.application_alone (by simp [ha])
  let r := revokeProofs s o
  let r' := r.retire (.application a) .cancelled
  have htidy : r.Tidy := ht
  have hprobe' : r.probe = none := hprobe
  have hfin' : r'.finalization = none := hfin
  have hprep' : ∀ b ∈ r'.preparation, b.lifecycle.terminal = true :=
    hc.preparation_settled hactive
  have hstep : Observed s prior o _ :=
    Observed.revoked (.application a) r' [] _ hv hl (.application a ha) rfl
  unfold observeInvalid
  dsimp only
  rw [withdrawProbe_other (s := r) (by simp [hprobe']), Outcome.ok_bind,
    withdrawApplication_admitted (s := r) htidy ha hl, Outcome.ok_bind,
    withdrawPreparation_other (s := r') fun b hb =>
      ActionLifecycle.ne_of_terminal (hprep' b hb) rfl, Outcome.ok_bind]
  dsimp only
  rw [withdrawFinalization_other (s := r') (by simp [hfin']), Outcome.ok_bind,
    show r'.application = none from rfl]
  dsimp only
  rw [settleInvalid_discover (s := r') rfl]
  · exact .of_decision hstep
  · exact State.forall_mutators.mpr ⟨by simp [show r'.probe = none from hprobe],
      by simp [show r'.application = none from rfl],
      fun b hb => ActionLifecycle.ne_of_terminal (hprep' b hb) rfl, by simp [hfin']⟩

theorem observeInvalid_preparation {a : PreparationAction} (ha : s.preparation = some a)
    (hl : a.lifecycle = .admitted) : Decides (observeInvalid s o) (Observed s prior o) := by
  have hactive : s.preparationState.active = true := by
    rw [hc.preparation_pending ha hl]
    rfl
  obtain ⟨hprobe, happ, hfin⟩ := hc.active_alone hactive
  let r := revokeProofs s o
  let r' : State := { (r.retire (.preparation a) .cancelled).dropPlan with phase := .discoverFast }
  have htidy : r.Tidy := ht
  have hprobe' : r.probe = none := hprobe
  have happ' : r.application = none := happ
  have hr' : r'.probe = none ∧ r'.application = none ∧ r'.preparation = none ∧
      r'.finalization = none := by
    dsimp only [r', State.dropPlan, State.withoutDesktop, State.retire, State.clearSlot,
      ActionRecord.kind, State.bury, clearRecoveryUnit, r, revokeProofs]
    exact ⟨hprobe, happ, rfl, hfin⟩
  have hstep : Observed s prior o _ :=
    Observed.revoked (.preparation a) r' r.planDiscards _ hv hl (.desktop (.preparation a ha)) rfl
  unfold observeInvalid
  dsimp only
  rw [withdrawProbe_other (s := r) (by simp [hprobe']), Outcome.ok_bind,
    withdrawApplication_other (s := r) (by simp [happ']), Outcome.ok_bind,
    withdrawPreparation_admitted (s := r) htidy ha hl, Outcome.ok_bind]
  dsimp only
  rw [withdrawFinalization_other (s := r') (by simp [hr']), Outcome.ok_bind, hr'.2.1]
  dsimp only
  rw [settleInvalid_discover (s := r') rfl]
  · exact .of_decision hstep
  · simp [State.mutators, hr']

theorem observeInvalid_finalization {a : FinalizationAction} (ha : s.finalization = some a)
    (hl : a.lifecycle = .admitted) : Decides (observeInvalid s o) (Observed s prior o) := by
  obtain ⟨hprobe, happ, hprepared⟩ := hc.finalization_alone (by simp [ha])
  let r := revokeProofs s o
  let r' := r.retire (.finalization a) .cancelled
  have htidy : r.Tidy := ht
  have hprobe' : r.probe = none := hprobe
  have happ' : r.application = none := happ
  have happ'' : r'.application = none := happ
  have hprep' : ∀ b ∈ r.preparation, b.lifecycle.terminal = true :=
    hc.preparation_settled (by rw [hprepared]; rfl)
  have hstep : Observed s prior o _ :=
    Observed.revoked (.finalization a) r' [] _ hv hl (.desktop (.finalization a ha)) rfl
  unfold observeInvalid
  dsimp only
  rw [withdrawProbe_other (s := r) (by simp [hprobe']), Outcome.ok_bind,
    withdrawApplication_other (s := r) (by simp [happ']), Outcome.ok_bind,
    withdrawPreparation_other (s := r) fun b hb =>
      ActionLifecycle.ne_of_terminal (hprep' b hb) rfl, Outcome.ok_bind]
  dsimp only
  rw [withdrawFinalization_admitted (s := r) htidy ha hl, Outcome.ok_bind, happ'']
  dsimp only
  rw [settleInvalid_discover (s := r') rfl]
  · exact .of_decision hstep
  · exact State.forall_mutators.mpr ⟨by simp [show r'.probe = none from hprobe], by simp [happ''],
      fun b hb => ActionLifecycle.ne_of_terminal (hprep' b hb) rfl,
      by simp [show r'.finalization = none from rfl]⟩

omit hc ht in
theorem observeInvalid_other (hn : ∀ w ∈ s.mutators, w.lifecycle ≠ .admitted) :
    Decides (observeInvalid s o) (Observed s prior o) := by
  obtain ⟨hprobe, happ, hprep, hfin⟩ := State.forall_mutators.mp hn
  let r := revokeProofs s o
  have settles : Decides (settleInvalid r o.observedAtMs []) (Observed s prior o) := by
    have hstep : Observed s prior o _ := Observed.invalid _ _ hv hn rfl rfl
    rw [settleInvalid_eq]
    exact .of_decision hstep
  unfold observeInvalid
  dsimp only
  rw [withdrawProbe_other (s := r) hprobe, Outcome.ok_bind,
    withdrawApplication_other (s := r) happ, Outcome.ok_bind,
    withdrawPreparation_other (s := r) hprep, Outcome.ok_bind]
  dsimp only
  rw [withdrawFinalization_other (s := r) hfin, Outcome.ok_bind]
  split
  next a ha =>
    split
    next hi =>
      have hstep : Observed s prior o _ := Observed.invalidInternal a _ hv ha hi rfl
      exact .of_decision hstep
    next => exact settles
  next => exact settles

/-- An invalid sample withdraws the one pending admission, stops an internal-only application
for external evidence, or waits. -/
theorem observeInvalid_decides : Decides (observeInvalid s o) (Observed s prior o) := by
  by_cases hn : ∀ w ∈ s.mutators, w.lifecycle ≠ .admitted
  · exact observeInvalid_other hv hn
  · push Not at hn
    obtain ⟨w, hw, hl⟩ := hn
    rcases State.mem_mutators.mp hw with ⟨a, ha, rfl⟩ | ⟨a, ha, rfl⟩ | ⟨a, ha, rfl⟩ | ⟨a, ha, rfl⟩
    · exact observeInvalid_probe hc ht hv ha hl
    · exact observeInvalid_application hc ht hv ha hl
    · exact observeInvalid_preparation hc ht hv ha hl
    · exact observeInvalid_finalization hc ht hv ha hl

end Invalid

/-- The phases in which a probe, an application or a finalization is pending. -/
def pendingPhases : List ControllerPhase := [.probePending, .applyPending, .finalizePending]

theorem discoverFast_not_pending : .discoverFast ∉ pendingPhases := by decide

section Pending

variable {s : State} {prior : Option CanonicalObservation} {o : CanonicalObservation}

theorem observePendingAction_eq_none (hphase : s.phase ∉ pendingPhases)
    (hprep : s.preparationState ≠ .preparePending)
    (classify : State → CanonicalObservation → Result Decision) :
    observePendingAction classify s o = none := by
  unfold observePendingAction
  split <;> simp_all [pendingPhases]

theorem classifyObservation_unpending (hphase : s.phase ∉ pendingPhases)
    (hprep : s.preparationState ≠ .preparePending) (h : s.Tidy)
    (hu : ∀ p ∈ s.unplugProof, p.latestObservedAtMs ≤ o.observedAtMs) (n : Nat) :
    Decides (classifyObservation (n + 1) s o) (Classifies s o) := by
  unfold classifyObservation
  rw [observePendingAction_eq_none hphase hprep]
  exact classifyUnpending_decides h hu

theorem reclassify_decides {classify : State → CanonicalObservation → Result Decision}
    {R : Decision → Prop} (ht : s.physicalToken = some o.physicalToken)
    (h : Decides (classify s o) R) : Decides (reclassifyCancelledAdmission classify s o) R := by
  obtain ⟨d, hd, heq⟩ := h
  unfold reclassifyCancelledAdmission
  rw [if_neg (by simp [ht]), Outcome.ok_bind]
  dsimp only
  rw [heq]
  exact ⟨d, hd, Decides.decision_decision _⟩

theorem classifyBehind_decides {R : Decision → Prop} {es : List Effect}
    (h : Decides (classifyObservation classificationDepth s o) R) :
    Decides (classifyBehind s o es) fun d => ∃ d', R d' ∧ d = ⟨d'.state, es ++ d'.effects⟩ := by
  unfold classifyBehind
  split
  next he =>
    obtain ⟨d, hd, heq⟩ := h
    refine ⟨d, ⟨d, hd, by rw [he, List.nil_append]⟩, ?_⟩
    rw [heq]
    unfold decision
    cases assertControllerInvariants d.state <;> rfl
  next => exact h.behind es

variable (hc : s.Control) (ht : s.Tidy) (hv : o.valid = true)
  (htoken : s.physicalToken = some o.physicalToken)
  (hu : ∀ p ∈ s.unplugProof, p.latestObservedAtMs ≤ o.observedAtMs) (n : Nat)

include hv htoken in
theorem cancelled_decides {r : State} (h : Cancels s o r) (ht : r.Tidy)
    (htoken' : r.physicalToken = some o.physicalToken)
    (hu : ∀ p ∈ r.unplugProof, p.latestObservedAtMs ≤ o.observedAtMs)
    (hphase : r.phase ∉ pendingPhases)
    (hprep : r.preparationState ≠ .preparePending) :
    Decides (reclassifyCancelledAdmission (classifyObservation (n + 1)) r o)
      (Observed s prior o) :=
  reclassify_decides htoken' <|
    (classifyObservation_unpending hphase hprep ht hu n).mono fun d hd =>
      .classified r [] d hv (.cancelled htoken h) hd

include hc ht hv htoken hu

theorem observePendingProbe_decides {a : ProbeAction} (ha : s.probe = some a)
    (hl : a.lifecycle = .admitted) :
    Decides (observePendingProbe (classifyObservation (n + 1)) s o a) (Observed s prior o) := by
  unfold observePendingProbe
  split
  next hconfirm =>
    have hstep : Observed s prior o _ := Observed.confirmed _ _ hv htoken (.probe a ha hl hconfirm)
    exact .of_decision hstep
  next hcancel =>
    have hidle : s.preparationState ≠ .preparePending := by
      simp [(hc.probing (by simp [ha])).2]
    rw [ht.appendTombstone_eq _ rfl, Outcome.ok_bind]
    exact cancelled_decides (r := s.retire (.probe a) .cancelled) hv htoken n
      (.probe a ha hl hcancel) (ht.retire _ _) htoken hu discoverFast_not_pending hidle

theorem observePendingApplication_decides {a : ApplicationAction} (ha : s.application = some a)
    (hl : a.lifecycle = .admitted) :
    Decides (observePendingApplication (classifyObservation (n + 1)) s o a)
      (Observed s prior o) := by
  unfold observePendingApplication
  split
  next hconfirm =>
    have hstep : Observed s prior o _ :=
      Observed.confirmed _ _ hv htoken (.application a ha hl hconfirm)
    exact .of_decision hstep
  next hcancel =>
    have hidle : s.preparationState ≠ .preparePending := by
      intro hp
      simpa [hp, PreparationState.active] using (hc.application_alone (by simp [ha])).2.2
    rw [ht.appendTombstone_eq _ rfl, Outcome.ok_bind]
    exact cancelled_decides (r := s.retire (.application a) .cancelled) hv htoken n
      (.application a ha hl hcancel) (ht.retire _ _) htoken hu discoverFast_not_pending hidle

theorem observePendingPreparation_decides {a : PreparationAction} (ha : s.preparation = some a)
    (hl : a.lifecycle = .admitted) :
    Decides (observePendingPreparation (classifyObservation (n + 1)) s o a)
      (Observed s prior o) := by
  unfold observePendingPreparation
  split
  next hconfirm =>
    have hstep : Observed s prior o _ :=
      Observed.confirmed _ _ hv htoken (.preparation a ha hl hconfirm)
    exact .of_decision hstep
  next hcancel =>
    have hphase : s.phase ∉ pendingPhases := by
      rw [hc.pending_verifying (hc.preparation_pending ha hl)]
      decide
    rw [ht.appendTombstone_eq _ rfl, Outcome.ok_bind]
    exact cancelled_decides
      (r := { s.retire (.preparation a) .cancelled with verifySinceMs := none }) hv htoken n
      (.preparation a ha hl hcancel) (ht.retire (.preparation a) .cancelled) htoken hu hphase
      (show PreparationState.prepareIdle ≠ _ by decide)

theorem observePendingFinalization_decides {a : FinalizationAction}
    (ha : s.finalization = some a) (hl : a.lifecycle = .admitted) :
    Decides (observePendingFinalization (classifyObservation (n + 1)) s o a)
      (Observed s prior o) := by
  unfold observePendingFinalization
  split
  next hconfirm =>
    have hstep : Observed s prior o _ :=
      Observed.confirmed _ _ hv htoken (.finalization a ha hl hconfirm)
    exact .of_decision hstep
  next hcancel =>
    have hprep : s.preparationState ≠ .preparePending := by
      simp [hc.prepared (by simp [ha])]
    rw [ht.appendTombstone_eq _ rfl, Outcome.ok_bind]
    exact cancelled_decides
      (r := { s.retire (.finalization a) .cancelled with verifySinceMs := none }) hv htoken n
      (.finalization a ha hl hcancel) (ht.retire (.finalization a) .cancelled) htoken hu
      discoverFast_not_pending hprep

omit ht hv htoken hu in
theorem not_pending (hn : ∀ w ∈ s.mutators, w.lifecycle ≠ .admitted) :
    s.phase ∉ pendingPhases ∧ s.preparationState ≠ .preparePending := by
  obtain ⟨hprobe, happ, hprep, hfin⟩ := State.forall_mutators.mp hn
  have h1 := hc.probe_fits
  have h2 := hc.application_fits
  have h3 := hc.finalization_fits
  have h4 := hc.preparation_fits
  refine ⟨fun hmem => ?_, fun hs => ?_⟩
  · simp only [pendingPhases, List.mem_cons, List.not_mem_nil, or_false] at hmem
    rcases hmem with hp | hp | hp <;> rw [hp] at h1 h2 h3
    · obtain ⟨l, hl, hmem⟩ := h1
      obtain ⟨a, ha, rfl⟩ := Option.map_eq_some_iff.mp hl
      exact hprobe a ha (List.mem_singleton.mp hmem)
    · obtain ⟨l, hl, hmem⟩ := h2
      obtain ⟨a, ha, rfl⟩ := Option.map_eq_some_iff.mp hl
      exact happ a ha (List.mem_singleton.mp hmem)
    · obtain ⟨l, hl, hmem⟩ := h3
      obtain ⟨a, ha, rfl⟩ := Option.map_eq_some_iff.mp hl
      exact hfin a ha (List.mem_singleton.mp hmem)
  · rw [hs] at h4
    obtain ⟨l, hl, hmem⟩ := h4
    obtain ⟨a, ha, rfl⟩ := Option.map_eq_some_iff.mp hl
    exact hprep a ha (List.mem_singleton.mp hmem)

omit hc ht hv htoken hu in
theorem not_busy (hn : ∀ w ∈ s.mutators, w.lifecycle ≠ .admitted)
    (hrunning : ∀ w ∈ s.mutators, w.lifecycle.mutatingInFlight = false) : ¬ busy s := by
  rintro ⟨w, hw, hl⟩
  have h1 := hn w hw
  have h2 := hrunning w hw
  cases hlc : w.lifecycle <;> simp_all [ActionLifecycle.terminal, ActionLifecycle.mutatingInFlight]

/-- A pending admission is confirmed or cancelled; an idle state is classified. -/
theorem classifyObservation_decides (hf : ¬ busy s → Frees s prior o s [])
    (hrunning : ∀ w ∈ s.mutators, w.lifecycle.mutatingInFlight = false) :
    Decides (classifyObservation (n + 2) s o) (Observed s prior o) := by
  by_cases hn : ∀ w ∈ s.mutators, w.lifecycle ≠ .admitted
  · obtain ⟨hphase, hprep⟩ := not_pending hc hn
    exact (classifyObservation_unpending hphase hprep ht hu _).mono fun d hd =>
      .classified s [] d hv (hf (not_busy hn hrunning)) hd
  · push Not at hn
    obtain ⟨w, hw, hl⟩ := hn
    unfold classifyObservation observePendingAction
    rcases State.mem_mutators.mp hw with ⟨a, ha, rfl⟩ | ⟨a, ha, rfl⟩ | ⟨a, ha, rfl⟩ | ⟨a, ha, rfl⟩
    · have hphase : s.phase = .probePending := by
        simpa [hl, ActionLifecycle.failedLifecycle] using hc.probe_phase ha
      rw [hphase, Option.mem_def.mp ha]
      exact observePendingProbe_decides hc ht hv htoken hu n ha hl
    · have hphase : s.phase = .applyPending := by
        simpa [hl, ActionLifecycle.failedLifecycle] using hc.application_phase ha
      rw [hphase, Option.mem_def.mp ha]
      exact observePendingApplication_decides hc ht hv htoken hu n ha hl
    · have hs := hc.preparation_pending ha hl
      rw [hc.pending_verifying hs, Option.mem_def.mp ha, hs]
      exact observePendingPreparation_decides hc ht hv htoken hu n ha hl
    · have hphase : s.phase = .finalizePending := by
        simpa [hl, ActionLifecycle.failedLifecycle] using hc.finalization_phase ha
      rw [hphase, hc.prepared (by simp [Option.mem_def.mp ha]), Option.mem_def.mp ha]
      exact observePendingFinalization_decides hc ht hv htoken hu n ha hl

end Pending

section Running

variable {s : State} {prior : Option CanonicalObservation} {o : CanonicalObservation}

theorem failFinalizationResult_eq (h : s.Tidy) {a : FinalizationAction}
    (hl : a.lifecycle = .resultPending) :
    ∃ b, Continues (.finalization a) (.finalization b) ∧ b.lifecycle = .failed ∧
      failFinalizationResult s a =
        .ok { s.bury a.actionId .failed with
          phase := .finalizeFailed
          finalization := some b } := by
  obtain ⟨v, hv, hsame, hvl⟩ := worker_withLifecycle_eq (w := a.toWorkerAction) (l := .failed) rfl
    (by simp [hl])
  refine ⟨_, .finalization a v.1 ((congrArg ActionId.kind v.2).trans a.kind_finalization) hsame,
    hvl, ?_⟩
  unfold failFinalizationResult
  rw [hv, Outcome.ok_bind, h.appendTombstone_eq _ rfl, Outcome.ok_bind]

theorem conclude_eq {a : PreparationAction} {l : ActionLifecycle} (hl : l.terminal = true)
    (ha : a.lifecycle = .resultPending) :
    ∃ b, Continues (.preparation a) (.preparation b) ∧ b.actionId = a.actionId ∧
      b.lifecycle = l ∧ a.conclude l = .ok b := by
  obtain ⟨v, hv, hsame, hvl⟩ := worker_withLifecycle_eq (w := a.toWorkerAction) hl (by simp [ha])
  refine ⟨_, .preparation a v.1 ((congrArg ActionId.kind v.2).trans a.kind_preparation) hsame,
    v.2, hvl, ?_⟩
  unfold PreparationAction.conclude
  rw [hv, Outcome.ok_bind]

theorem decided_preparing {x : Result Decision} {f : State → Result Decision} :
    (do match ← Sum.inr <$> x with
        | .inl s => f s
        | .inr d => .ok d) = x := by
  cases x <;> rfl

theorem leaveSlowWait_eq (s : State) (prior : Option CanonicalObservation)
    (o : CanonicalObservation) :
    ∃ phase aggressive index, (phase = s.phase ∨ s.phase = .waitSlow ∧ phase = .discoverFast) ∧
      leaveSlowWait s prior o =
        { s with
          phase := phase
          aggressiveDeadlineMs := aggressive
          backoffIndex := index } := by
  unfold leaveSlowWait
  split
  next h => exact ⟨_, _, _, .inr ⟨h.1, rfl⟩, rfl⟩
  next => exact ⟨_, _, _, .inl rfl, rfl⟩

theorem leaveSlowWait_of_ne (h : s.phase ≠ .waitSlow) : leaveSlowWait s prior o = s := by
  unfold leaveSlowWait
  rw [if_neg fun hs => h hs.1]

variable (ht : s.Tidy) (hv : o.valid = true) (htoken : s.physicalToken = some o.physicalToken)
include ht hv htoken

/-- A sample confirms a finalization, waits for it, stops it or refuses its result. -/
theorem observeFinalizing_decides {a : FinalizationAction} (ha : s.finalization = some a)
    (hl : a.lifecycle = .dispatched ∨ a.lifecycle = .resultPending) :
    Decides (observeFinalizing s o a []) (Observed s prior o) := by
  unfold observeFinalizing
  dsimp only
  split
  next hpending =>
    split
    next he =>
      rw [ht.appendTombstone_eq _ rfl, Outcome.ok_bind,
        State.Tidy.discardPlanning_eq (ht.bury a.actionId .completed), Outcome.ok_bind]
      exact .of_decision (Observed.completed a hv ha hpending he)
    next he =>
      obtain ⟨b, hb, hbl, heq⟩ := failFinalizationResult_eq ht hpending
      have hstep : Observed s prior o _ :=
        Observed.refused _ _ hv
          (.finalization a b s.verifySinceMs ha hpending hb hbl (.inr rfl)) rfl (.inl ⟨htoken, he⟩)
          (.inl rfl)
      rw [heq, Outcome.ok_bind]
      exact .of_decision hstep
  next hpending =>
    have hl := hl.resolve_right hpending
    split
    next he =>
      exact .of_decision (Observed.running _ hv htoken (.inr (.inr ⟨a, ha, hl, he⟩)) rfl)
    next he =>
      have hstep : Observed s prior o _ :=
        Observed.stopped (.finalization a) _ _ hv
          (.finalization a ha hl) (by rintro b ⟨⟩) (.inr (.inl ⟨a, rfl, he⟩)) rfl
      exact .of_decision hstep

/-- A sample confirms a preparation's result, waits for the worker, stops it or refuses it. -/
theorem observePreparing_decides {a : PreparationAction} (ha : s.preparation = some a)
    (hl : a.lifecycle = .dispatched ∨ a.lifecycle = .resultPending)
    (hother : ¬ sameExactFinalization s o)
    (hu : ∀ p ∈ s.unplugProof, p.latestObservedAtMs ≤ o.observedAtMs) :
    Decides
      (do match ← observePreparing s o a [] with
          | .inl s => classifyBehind s o []
          | .inr d => .ok d) (Observed s prior o) := by
  unfold observePreparing
  dsimp only
  split
  next he =>
    rw [decided_preparing]
    exact .of_decision (Observed.uncertain a _ hv htoken ha hl he rfl)
  next =>
    split
    next hpending =>
      split
      next he =>
        obtain ⟨b, hb, hid, hbl, heq⟩ := conclude_eq (l := .completed) rfl hpending
        have hfree : Frees s prior o _ _ := Frees.concluded a b htoken ha hpending he hb hbl
        rw [heq, Outcome.ok_bind, hid, ht.appendTombstone_eq _ rfl, Outcome.ok_bind,
          Outcome.ok_bind]
        have hphase : ControllerPhase.verifying ∉ pendingPhases := by decide
        have hprep : PreparationState.prepared ≠ .preparePending := by decide
        let s' : State :=
          { s.bury a.actionId .completed with
            phase := .verifying
            verifySinceMs := keepProof s o.observedAtMs
            preparationState := .prepared
            preparation := some b }
        have hclassify := classifyObservation_unpending (s := s') hphase hprep
          (ht.bury a.actionId .completed) hu 4
        refine (classifyBehind_decides hclassify).mono ?_
        rintro d ⟨d', hd, rfl⟩
        exact .classified _ [] d' hv hfree hd
      next he =>
        obtain ⟨b, hb, hid, hbl, heq⟩ := conclude_eq (l := .failed) rfl hpending
        have hstep : Observed s prior o _ :=
          Observed.refused _ _ hv (.preparation a b ha hpending hb hbl) rfl
            (.inl ⟨htoken, hother⟩)
            (.inr fun q hq => Option.mem_unique ha hq ▸ he)
        rw [heq, Outcome.ok_bind, hid, ht.appendTombstone_eq _ rfl, Outcome.ok_bind,
          decided_preparing]
        exact .of_decision hstep
    next hpending =>
      have hl := hl.resolve_right hpending
      split
      next he =>
        have hnone : preparationObservationStatus s o a = none := by
          cases hs : preparationObservationStatus s o a with
          | none => rfl
          | some evidence => cases evidence <;> simp_all
        have hstep : Observed s prior o _ :=
          Observed.stopped (.preparation a) _ _ hv (.preparation a ha (.inl hl)) (by rintro b ⟨⟩)
            (.inr (.inr ⟨a, rfl, hl, hnone⟩)) rfl
        rw [decided_preparing]
        exact .of_decision hstep
      next he =>
        rw [decided_preparing]
        exact .of_decision (Observed.preparing a _ hv htoken ha hl (by simpa using he) rfl)

end Running

section Current

variable {s : State} {prior : Option CanonicalObservation} {o : CanonicalObservation}

theorem observeCurrent_settled (hphase : s.phase ∉ [ControllerPhase.probing, .applying,
      .finalizing]) (hprep : s.preparationState ≠ .preparing) (es : List Effect) :
    observeCurrent s o es = classifyBehind s o es := by
  simp only [List.mem_cons, List.not_mem_nil, or_false, not_or] at hphase
  unfold observeCurrent
  dsimp only
  rw [if_neg fun h => hphase.1 h.1, if_neg fun h => hphase.2.1 h.1]
  split
  next hp _ => exact absurd hp hphase.2.2
  next hs _ _ => exact absurd hs hprep
  next => rfl

variable (hc : s.Control)
include hc

theorem not_running (hn : ∀ w ∈ s.mutators, w.lifecycle.mutatingInFlight = false) :
    s.phase ∉ [ControllerPhase.probing, .applying, .finalizing] ∧
      s.preparationState ≠ .preparing := by
  obtain ⟨hprobe, happ, hprep, hfin⟩ := State.forall_mutators.mp hn
  have h1 := hc.probe_fits
  have h2 := hc.application_fits
  have h3 := hc.finalization_fits
  have h4 := hc.preparation_fits
  refine ⟨fun hmem => ?_, fun hs => ?_⟩
  · simp only [List.mem_cons, List.not_mem_nil, or_false] at hmem
    rcases hmem with hp | hp | hp <;> rw [hp] at h1 h2 h3
    · obtain ⟨l, hl, hmem⟩ := h1
      obtain ⟨a, ha, rfl⟩ := Option.map_eq_some_iff.mp hl
      have := hprobe a ha
      rcases List.mem_pair.mp hmem with hl | hl <;> simp [hl, ActionLifecycle.mutatingInFlight] at this
    · obtain ⟨l, hl, hmem⟩ := h2
      obtain ⟨a, ha, rfl⟩ := Option.map_eq_some_iff.mp hl
      have := happ a ha
      rcases List.mem_pair.mp hmem with hl | hl <;> simp [hl, ActionLifecycle.mutatingInFlight] at this
    · obtain ⟨l, hl, hmem⟩ := h3
      obtain ⟨a, ha, rfl⟩ := Option.map_eq_some_iff.mp hl
      have := hfin a ha
      rcases List.mem_pair.mp hmem with hl | hl <;> simp [hl, ActionLifecycle.mutatingInFlight] at this
  · rw [hs] at h4
    obtain ⟨l, hl, hmem⟩ := h4
    obtain ⟨a, ha, rfl⟩ := Option.map_eq_some_iff.mp hl
    have := hprep a ha
    rcases List.mem_pair.mp hmem with hl | hl <;> simp [hl, ActionLifecycle.mutatingInFlight] at this

variable (ht : s.Tidy) (hv : o.valid = true)
  (htoken : s.physicalToken = some o.physicalToken)
  (hu : ∀ p ∈ s.unplugProof, p.latestObservedAtMs ≤ o.observedAtMs)
  (hi : ∀ a ∈ s.application, ¬ internalApplicationRuns o a [.dispatched])
include ht hv htoken hu

theorem observeCurrent_idle (hn : ∀ w ∈ s.mutators, w.lifecycle.mutatingInFlight = false) :
    Decides (observeCurrent (leaveSlowWait s prior o) o []) (Observed s prior o) := by
  obtain ⟨hphase, hprep⟩ := not_running hc hn
  have behind {d} (hd : ∃ d', Observed s prior o d' ∧ d = ⟨d'.state, [] ++ d'.effects⟩) :
      Observed s prior o d := by
    obtain ⟨d', hd, rfl⟩ := hd
    exact hd
  by_cases hslow : s.phase = .waitSlow
  · have hidle : ¬ busy s := by
      refine not_busy (State.forall_mutators.mpr ⟨fun a ha hl => ?_, fun a ha hl => ?_,
        fun a ha hl => ?_, fun a ha hl => ?_⟩) hn
      · simpa [hl, hslow] using hc.probe_phase ha
      · simpa [hl, hslow] using hc.application_phase ha
      · simpa [hslow] using hc.pending_verifying (hc.preparation_pending ha hl)
      · simpa [hl, hslow] using hc.finalization_phase ha
    have hfree : Frees s prior o _ _ := Frees.idle htoken hidle
    obtain ⟨phase, aggressive, index, hp, heq⟩ := leaveSlowWait_eq s prior o
    let s' : State :=
      { s with phase := phase, aggressiveDeadlineMs := aggressive, backoffIndex := index }
    have hp : phase = .waitSlow ∨ phase = .discoverFast :=
      hp.imp (·.trans hslow) (·.2)
    have hphase' : phase ∉ [ControllerPhase.probing, .applying, .finalizing] := by
      rcases hp with rfl | rfl <;> decide
    have hpending : phase ∉ pendingPhases := by
      rcases hp with rfl | rfl <;> decide
    have hprep' : s.preparationState ≠ .preparePending := by
      intro hs
      simpa [hs, hslow, preparationPhases] using hc.phases
    rw [heq] at hfree ⊢
    rw [observeCurrent_settled (s := s') hphase' hprep]
    have hclassify := classifyObservation_unpending (s := s') hpending hprep' ht hu 4
    refine (classifyBehind_decides hclassify).mono ?_
    rintro d ⟨d', hd, rfl⟩
    exact .classified s' [] d' hv hfree hd
  · have hsame : leaveSlowWait s prior o = s := leaveSlowWait_of_ne hslow
    have hfree (hb : ¬ busy s) : Frees s prior o s [] := by
      have hidle : Frees s prior o _ _ := Frees.idle htoken hb
      rwa [hsame] at hidle
    rw [hsame, observeCurrent_settled hphase hprep]
    exact (classifyBehind_decides (classifyObservation_decides hc ht hv htoken hu 3 hfree hn)).mono
      fun d hd => behind hd

include hi in
theorem observeCurrent_running {w : WorkerAction} (hw : w ∈ s.mutators)
    (hl : w.lifecycle = .dispatched ∨ w.lifecycle = .resultPending) :
    Decides (observeCurrent s o []) (Observed s prior o) := by
  rcases State.mem_mutators.mp hw with ⟨a, ha, rfl⟩ | ⟨a, ha, rfl⟩ | ⟨a, ha, rfl⟩ | ⟨a, ha, rfl⟩
  · obtain ⟨hp, hrun⟩ := hc.probe_flying ha hl
    unfold observeCurrent
    dsimp only
    rw [if_pos ⟨hp, by simp [Option.mem_def.mp ha]⟩]
    exact .of_decision (Observed.running _ hv htoken (.inl ⟨a, ha, hrun⟩) rfl)
  · obtain ⟨hp, hrun⟩ := hc.application_flying ha hl
    unfold observeCurrent
    dsimp only
    rw [if_neg (by simp [hp]), if_pos ⟨hp, by simp [Option.mem_def.mp ha]⟩]
    exact .of_decision (Observed.running _ hv htoken (.inr (.inl ⟨a, ha, hrun, hi a ha⟩)) rfl)
  · have hrun := hc.preparation_flying ha hl
    obtain ⟨hprobe, happ, hfin⟩ := hc.active_alone (by rw [hrun]; rfl)
    have hother : ¬ sameExactFinalization s o := by
      rintro ⟨b, hb, -⟩
      simp [hfin] at hb
    unfold observeCurrent
    dsimp only
    rw [if_neg (by simp [hprobe]), if_neg (by simp [happ]), hfin, hrun, Option.mem_def.mp ha]
    split
    next hb => cases hb
    next b _ heq _ =>
      cases heq
      exact observePreparing_decides ht hv htoken ha hl hother hu
    next hne => exact absurd rfl (hne a rfl)
  · have hrun := hc.finalization_flying ha hl
    unfold observeCurrent
    dsimp only
    rw [if_neg (by simp [hrun]), if_neg (by simp [hrun]), hrun, Option.mem_def.mp ha]
    exact observeFinalizing_decides ht hv htoken ha hl

end Current

section Changed

variable {s : State} {prior : Option CanonicalObservation} {o : CanonicalObservation}

theorem stopChangedProbe_other (hp : s.phase ≠ .probing) (nowMs : Nat) :
    stopChangedProbe s nowMs = none := by
  unfold stopChangedProbe
  split
  next hq _ => exact absurd hq hp
  next => rfl

theorem stopChangedApplication_other (hp : s.phase ≠ .applying) (nowMs : Nat) :
    stopChangedApplication s nowMs = none := by
  unfold stopChangedApplication
  split
  next hq _ => exact absurd hq hp
  next => rfl

theorem stopChangedFinalization_other (hp : s.phase ≠ .finalizing) (nowMs : Nat) :
    stopChangedFinalization s nowMs = none := by
  unfold stopChangedFinalization
  split
  next hq _ => exact absurd hq hp
  next => rfl

theorem stopChangedPreparation_other (hp : s.preparationState ≠ .preparing) (nowMs : Nat) :
    stopChangedPreparation s nowMs = none := by
  unfold stopChangedPreparation
  split
  next hq _ => exact absurd hq hp
  next => rfl

theorem stopChanged_settled (hphase : s.phase ∉ [ControllerPhase.probing, .applying, .finalizing])
    (hprep : s.preparationState ≠ .preparing) (nowMs : Nat) : stopChanged s nowMs = none := by
  simp only [List.mem_cons, List.not_mem_nil, or_false, not_or] at hphase
  simp [stopChanged, stopChangedProbe_other hphase.1, stopChangedApplication_other hphase.2.1,
    stopChangedFinalization_other hphase.2.2, stopChangedPreparation_other hprep]

variable (hc : s.Control) (ht : s.Tidy) (hv : o.valid = true)
  (htoken : s.physicalToken ≠ some o.physicalToken)
include ht hv htoken

theorem resetForEpoch_decides
    (hn : ∀ w ∈ s.mutators, w.lifecycle.mutatingInFlight = false) :
    Decides (do
      let (s, epochEffects) ← resetForEpoch s o o.observedAtMs
      observeCurrent s o epochEffects) (Observed s prior o) := by
  let s' := s.enterEpoch o o.observedAtMs
  have hphase : s'.phase ∉ [ControllerPhase.probing, .applying, .finalizing] :=
    show ControllerPhase.discoverFast ∉ _ by decide
  have hprep : s'.preparationState ≠ .preparing := show PreparationState.prepareIdle ≠ _ by decide
  have hprep' : s'.preparationState ≠ .preparePending :=
    show PreparationState.prepareIdle ≠ _ by decide
  have hu : ∀ p ∈ s'.unplugProof, p.latestObservedAtMs ≤ o.observedAtMs := by
    rintro p ⟨⟩
  have ht' : s'.Tidy := State.Tidy.enterEpoch ht o _
  rw [State.Tidy.resetForEpoch_eq ht, Outcome.ok_bind]
  dsimp only
  rw [observeCurrent_settled (s := s') hphase hprep]
  refine (classifyBehind_decides (classifyObservation_unpending (s := s')
    discoverFast_not_pending hprep' ht' hu 4)).mono ?_
  rintro d ⟨d', hd, rfl⟩
  exact .classified s' _ d' hv (.entered htoken hn) hd

include hc in
/-- A new topology stops the worker in flight or refuses its result. -/
theorem stopChanged_running {w : WorkerAction} (hw : w ∈ s.mutators)
    (hl : w.lifecycle = .dispatched ∨ w.lifecycle = .resultPending)
    (hi : ∀ a ∈ s.application, ¬ internalApplicationRuns o a [.dispatched]) :
    ∃ x, stopChanged s o.observedAtMs = some x ∧ Decides x (Observed s prior o) := by
  rcases State.mem_mutators.mp hw with ⟨a, ha, rfl⟩ | ⟨a, ha, rfl⟩ | ⟨a, ha, rfl⟩ | ⟨a, ha, rfl⟩
  · obtain ⟨hp, hl⟩ := hc.probe_flying ha hl
    have hx : stopChanged s o.observedAtMs = some (schedule
        { s with probe := some { a with toWorkerAction := a.stop } } (o.observedAtMs + 1000)
        [.stopAction a.actionId]) := by
      unfold stopChanged stopChangedProbe
      rw [hp, Option.mem_def.mp ha]
      dsimp only
      rw [if_pos hl]
      rfl
    have hstep : Observed s prior o _ :=
      Observed.stopped (.probe a) _ _ hv (.probe a ha hl) (by rintro b ⟨⟩) (.inl htoken) rfl
    exact ⟨_, hx, .of_decision hstep⟩
  · obtain ⟨hp, hl⟩ := hc.application_flying ha hl
    have hx : stopChanged s o.observedAtMs = some (schedule
        { s with application := some { a with toWorkerAction := a.stop } } (o.observedAtMs + 1000)
        [.stopAction a.actionId]) := by
      unfold stopChanged stopChangedApplication
      rw [stopChangedProbe_other (by simp [hp]), hp, Option.mem_def.mp ha]
      dsimp only
      rw [if_pos hl]
      rfl
    have hstep : Observed s prior o _ :=
      Observed.stopped (.application a) _ _ hv (.application a ha hl)
        (by rintro b ⟨⟩; exact hi a ha) (.inl htoken) rfl
    exact ⟨_, hx, .of_decision hstep⟩
  · have hs := hc.preparation_flying ha hl
    obtain ⟨hprobe, happ, hfin⟩ := hc.active_alone (by rw [hs]; rfl)
    have hphase := hc.phases
    have hx : stopChanged s o.observedAtMs = some (schedule (stopPreparation s a)
        (o.observedAtMs + 1000) [.stopAction a.actionId]) := by
      unfold stopChanged stopChangedPreparation
      rw [stopChangedProbe_other, stopChangedApplication_other, stopChangedFinalization_other, hs,
        Option.mem_def.mp ha]
      · rfl
      all_goals
        intro hp
        simp [hs, hp, preparationPhases] at hphase
    have hstep : Observed s prior o _ :=
      Observed.stopped (.preparation a) _ _ hv (.preparation a ha hl)
        (by rintro b ⟨⟩) (.inl htoken) rfl
    exact ⟨_, hx, .of_decision hstep⟩
  · have hp := hc.finalization_flying ha hl
    rcases hl with hl | hl
    · have hx : stopChanged s o.observedAtMs = some (schedule
          { s with
            phase := .finalizeStopping
            finalization := some { a with toWorkerAction := a.stop }
            verifySinceMs := none }
          (o.observedAtMs + 1000) [.stopAction a.actionId]) := by
        unfold stopChanged stopChangedFinalization
        rw [stopChangedProbe_other (by simp [hp]), stopChangedApplication_other (by simp [hp]), hp,
          Option.mem_def.mp ha]
        dsimp only
        rw [if_neg (by simp [hl])]
        rfl
      have hstep : Observed s prior o _ :=
        Observed.stopped (.finalization a) _ _ hv
          (.finalization a ha hl) (by rintro b ⟨⟩) (.inl htoken) rfl
      exact ⟨_, hx, .of_decision hstep⟩
    · obtain ⟨b, hb, hbl, heq⟩ := failFinalizationResult_eq ht hl
      have hx : stopChanged s o.observedAtMs = some (do
          let s ← failFinalizationResult s a
          schedule { s with verifySinceMs := none } (o.observedAtMs + healthPollMs) []) := by
        unfold stopChanged stopChangedFinalization
        rw [stopChangedProbe_other (by simp [hp]), stopChangedApplication_other (by simp [hp]), hp,
          Option.mem_def.mp ha]
        dsimp only
        rw [if_pos hl]
        rfl
      have hstep : Observed s prior o _ :=
        Observed.refused _ _ hv (.finalization a b none ha hl hb hbl (.inl rfl)) rfl
          (.inr ⟨htoken, hp⟩) (.inl rfl)
      refine ⟨_, hx, ?_⟩
      rw [heq, Outcome.ok_bind]
      exact .of_decision hstep

end Changed

section Valid

variable {s : State} {prior : Option CanonicalObservation} {o : CanonicalObservation}
  (hc : s.Control) (ht : s.Tidy) (hv : o.valid = true)
  (hu : ∀ p ∈ s.unplugProof, p.latestObservedAtMs ≤ o.observedAtMs)
include hc ht hv hu

/-- A stop in progress is repeated; any other sample is judged by its topology. -/
theorem observeUnstopped_decides
    (hi : ∀ a ∈ s.application, ¬ internalApplicationRuns o a [.dispatched]) :
    Decides (observeUnstopped s prior o) (Observed s prior o) := by
  unfold observeUnstopped
  dsimp only
  split
  next w hw =>
    obtain ⟨hmem, hl⟩ := State.stoppingMutator_eq_some hw
    exact .of_decision (Observed.stopping w _ hv hmem hl rfl)
  next hstop =>
    have hquiet : (∀ w ∈ s.mutators, w.lifecycle.mutatingInFlight = false) ∨
        ∃ w ∈ s.mutators, w.lifecycle = .dispatched ∨ w.lifecycle = .resultPending := by
      by_contra hne
      push Not at hne
      obtain ⟨⟨w, hw, hl⟩, hnone⟩ := hne
      have h1 := hnone w hw
      have h2 := State.lifecycle_ne_stopping hstop hw
      cases hlc : w.lifecycle <;> simp_all [ActionLifecycle.mutatingInFlight]
    split
    next htoken =>
      rcases hquiet with hn | ⟨w, hw, hl⟩
      · obtain ⟨hphase, hprep⟩ := not_running hc hn
        rw [stopChanged_settled hphase hprep]
        exact resetForEpoch_decides ht hv htoken hn
      · obtain ⟨x, hx, hd⟩ : ∃ x, stopChanged s o.observedAtMs = some x ∧
            Decides x (Observed s prior o) :=
          stopChanged_running hc ht hv htoken hw hl hi
        rw [hx]
        exact hd
    next htoken =>
      have htoken : s.physicalToken = some o.physicalToken := by simpa using htoken
      rcases hquiet with hn | ⟨w, hw, hl⟩
      · exact observeCurrent_idle hc ht hv htoken hu hn
      · have hslow : s.phase ≠ .waitSlow := by
          have hphase := hc.phases
          rcases State.mem_mutators.mp hw with ⟨a, ha, rfl⟩ | ⟨a, ha, rfl⟩ | ⟨a, ha, rfl⟩ |
            ⟨a, ha, rfl⟩
          · simp [(hc.probe_flying ha hl).1]
          · simp [(hc.application_flying ha hl).1]
          · rw [hc.preparation_flying ha hl] at hphase
            intro hp
            simp [hp, preparationPhases] at hphase
          · simp [hc.finalization_flying ha hl]
        rw [leaveSlowWait_of_ne hslow]
        exact observeCurrent_running hc ht hv htoken hu hi hw hl

theorem observeValid_decides : Decides (observeValid s prior o) (Observed s prior o) := by
  unfold observeValid
  split
  next a ha =>
    split
    next hi =>
      have hstep : Observed s prior o _ := Observed.internal a _ hv ha hi rfl
      exact .of_decision hstep
    next hi =>
      refine observeUnstopped_decides hc ht hv hu fun b hb => ?_
      rw [ha] at hb
      cases hb
      exact hi
  next ha => exact observeUnstopped_decides hc ht hv hu (by simp [ha])

end Valid

theorem Sound.unplug_le {s : State} (h : Sound s) {o : CanonicalObservation}
    (hf : ¬ staleObservation s o) : ∀ p ∈ s.unplugProof, p.latestObservedAtMs ≤ o.observedAtMs := by
  intro p hp
  obtain ⟨-, prior, hprior, hle⟩ := h.unplug p hp
  refine hle.trans (Nat.le_of_not_lt fun hlt => hf ⟨prior, hprior, .inr (.inl hlt)⟩)

theorem Sound.observe_decides {s : State} (h : Sound s) (e : ObservationCompleted)
    (hb : e.metadata.bootId = s.bootId) :
    Decides (observe s e) (Step s (.observationCompleted e)) := by
  unfold observe
  dsimp only
  split
  next hstale => exact .of_decision (Step.ignored _ (.inr hstale))
  next hf =>
    have hu := h.unplug_le hf
    let r := recordObservation s e.observation
    have hc : r.Control := h.control
    have ht : r.Tidy := h.tidy
    split
    next hv => exact (observeValid_decides hc ht hv hu).mono fun d hd => .observed e hb hf hd
    next hv =>
      exact (observeInvalid_decides hc ht (by simpa using hv)).mono fun d hd =>
        .observed e hb hf hd

theorem Sound.reduceEvent_decides {s : State} (h : Sound s) (e : Event)
    (hb : e.metadata.bootId = s.bootId) : Decides (reduceEvent s e) (Step s e) := by
  cases e with
  | observationCompleted e => exact h.observe_decides e hb
  | observationFailed e => exact observationFailed_decides e
  | planRequested e => exact planRequested_decides e
  | planCompleted e => exact h.planCompleted_decides e
  | planFailed e => exact h.planFailed_decides e
  | timerFired e => exact timerFired_decides e
  | drmHintReceived e => exact h.drmHint_decides e hb
  | admissionDirtied e => exact h.admissionDirtied_decides e hb
  | probeDispatched e => exact probeDispatched_decides e
  | probeFinished e =>
    exact h.probeFinished_decides (e := .probeFinished e) rfl e.outcome e.exitStatus
  | applicationDispatched e => exact applicationDispatched_decides e
  | applicationFinished e =>
    exact h.applicationFinished_decides (e := .applicationFinished e) rfl e.outcome e.exitStatus
  | preparationDispatched e => exact preparationDispatched_decides e
  | preparationFinished e =>
    exact h.preparationFinished_decides (e := .preparationFinished e) rfl e.outcome e.exitStatus
      e.planHash
  | finalizationDispatched e => exact finalizationDispatched_decides e
  | finalizationFinished e =>
    exact h.finalizationFinished_decides (e := .finalizationFinished e) rfl e.outcome e.exitStatus
  | dispatchRejected e => exact h.dispatchRejected_decides e
  | workerStatusUnknown e => exact h.workerStatusUnknown_decides e
  | workerTimedOut e => exact workerTimedOut_decides e
  | workerCancellationAcknowledged e => exact h.cancellationAcknowledged_decides e
  | controllerStarted e => exact h.controllerStarted_decides e
  | bootChanged e => exact bootChanged_decides e

theorem ignored_of_boot {s : State} {e : Event} (hb : e.metadata.bootId ≠ s.bootId)
    (hn : ∀ b, e ≠ .bootChanged b) : Ignored s e := by
  cases e with
  | observationCompleted e => exact .inl hb
  | drmHintReceived e => exact .inl hb
  | admissionDirtied e => exact .inl hb
  | observationFailed e => exact hb
  | controllerStarted e => exact hb
  | bootChanged e => exact absurd rfl (hn e)
  | _ => trivial

/-- An event changes the state only in its own boot, unless it changes the boot. -/
def Addressed (s : State) (e : Event) (d : Decision) : Prop :=
  d = ⟨s, []⟩ ∨ (∃ b, e = .bootChanged b) ∨ e.metadata.bootId = s.bootId

/-- The reducer decides by one step of the transition relation, which it then checks. -/
theorem Sound.reduce_decides {s : State} (h : Sound s) (e : Event) :
    Decides (reduce s e) fun d => Step s e d ∧ Addressed s e d := by
  unfold reduce
  rw [h.checked, Outcome.ok_bind]
  split
  next e => exact (bootChanged_decides e).mono fun d hd => ⟨hd, .inr (.inl ⟨e, rfl⟩)⟩
  next hn =>
    split
    next hb => exact .of_decision ⟨Step.ignored e (ignored_of_boot hb hn), .inl rfl⟩
    next hb =>
      have hb : e.metadata.bootId = s.bootId := by simpa using hb
      split
      next hr => exact absurd h.identities.recoveryUnits hr.2
      next => exact (h.reduceEvent_decides e hb).mono fun d hd => ⟨hd, .inr (.inr hb)⟩

end MonitorController
