import MonitorController.Recovery.Replay
import MonitorController.Safety.Components

/-! # Coherent states

The central invariants outside recovery, slot by slot. A persisted state need
not be reachable, so that nothing more than its checks may be assumed of it.
-/

namespace MonitorController

open Outcome

/-- An identity of the current instance is below its mark. -/
def Below (s : State) (a : ActionId) : Prop :=
  a.controllerInstance = s.controllerInstance → a.sequence ≤ s.actionSequenceHighWater

/-- Identities, tombstones and recovery units fit the retained actions. -/
structure Ledger (s : State) : Prop where
  bounded : ∀ r ∈ s.actions, Below s r.actionId
  tidy : s.Tidy
  buried : ∀ t ∈ s.actionTombstones, Below s t.actionId
  recorded : ∀ r ∈ s.actions, ∀ l,
    s.Buried r.actionId l ↔ r.lifecycle.terminal = true ∧ l = r.lifecycle
  units_nodup : (s.recoveryUnits.map (·.actionId)).Nodup
  units_bounded : ∀ u ∈ s.recoveryUnits, Below s u.actionId
  units_unburied : ∀ u ∈ s.recoveryUnits, ∀ t ∈ s.actionTombstones, t.actionId ≠ u.actionId
  running : ∀ u ∈ s.recoveryUnits, ∃ r ∈ s.actions,
    (r.lifecycle = .dispatched ∨ r.lifecycle = .stopping) ∧ r.unit? = some u
  transitions : ∀ t ∈ s.transitions, t.controllerInstance = s.controllerInstance →
    t.sequence ≤ s.transitionSequenceHighWater

/-- An admission of the past, and what a worker in flight retains. -/
structure Equipped (generation : EventGeneration) (w : WorkerAction) : Prop where
  admitted : w.admittedEventGeneration ≤ generation
  retained : w.lifecycle.mutatingInFlight = true → w.unit ≠ none ∧ w.workerDeadlineMs ≠ none

/-- A fresh admission rests on the retained valid sample. -/
def RestsOn (latest : Option CanonicalObservation) (key : ObservationKey)
    (generation : EventGeneration) : Prop :=
  ∃ o ∈ latest, o.valid = true ∧ o.observationKey = key ∧ o.endEventGeneration = generation

/-- A fresh desktop admission rests on the exact current profile. -/
def RestsExactly (latest : Option CanonicalObservation) (key : ObservationKey)
    (generation : EventGeneration) (profile : Text) : Prop :=
  ∃ o ∈ latest, o.valid = true ∧ o.observationKey = key ∧ o.endEventGeneration = generation ∧
    o.exactProfile = some profile ∧ profile ∈ o.currentProfiles

/-- The central invariants of a state which is not recovering. -/
structure Coherent (s : State) : Prop where
  live : s.phase ≠ .recovering
  probe_fits : Fits (s.probe.map (·.lifecycle)) (expectedProbeLifecycles s.phase)
  application_fits : Fits (s.application.map (·.lifecycle)) (expectedApplicationLifecycles s.phase)
  finalization_fits :
    Fits (s.finalization.map (·.lifecycle)) (expectedFinalizationLifecycles s.phase)
  planning_fits : Fits (s.planning.map (·.lifecycle)) (expectedPlanning s.planningState)
  staged : s.planningState = .planReady → ∃ p ∈ s.planning, p.planHash ≠ none
  preparation_fits :
    Fits (s.preparation.map (·.lifecycle)) (expectedPreparation s.preparationState)
  planned : ∀ a ∈ s.preparation, s.planningState = .planReady ∧ ∃ p ∈ s.planning,
    some a.planHash = p.planHash ∧ a.transitionId = p.transitionId ∧ a.profile = p.profile
  baseline : s.baselineAdoption = true → s.planningState = .planIdle ∧
    s.preparationState = .prepareIdle
  ledger : Ledger s
  exclusive : ∀ a ∈ s.application, ∀ p ∈ s.preparation,
    a.lifecycle.mutatingInFlight = true → p.lifecycle.mutatingInFlight = false
  probe_worker : ∀ a ∈ s.probe, Equipped s.eventGeneration a.toWorkerAction
  application_worker : ∀ a ∈ s.application, Equipped s.eventGeneration a.toWorkerAction
  preparation_worker : ∀ a ∈ s.preparation, Equipped s.eventGeneration a.toWorkerAction
  finalization_worker : ∀ a ∈ s.finalization, Equipped s.eventGeneration a.toWorkerAction
  evidence : s.Evidence
  candidate_epoch : s.latestObservation ≠ none →
    ∀ c ∈ s.candidate, c.mapping.physicalEpoch = s.physicalEpoch
  candidate_scope : ∀ o ∈ s.latestObservation, o.hasExternalHardware = true →
    ∀ c ∈ s.candidate, c.scope ≠ .internalOnly
  in_scope : ScopedAt s.latestObservation s.application
  wake : ∀ o ∈ s.latestObservation, o.valid = true ∧ o.hasExternalHardware = true ∧
    o.exactProfile = none ∧ unresolvedPhase s.phase = true → s.nextTimerMs ≠ none
  probe_fresh : ∀ a ∈ s.probe, s.phase = .probePending →
    a.admittedEventGeneration = s.eventGeneration →
    RestsOn s.latestObservation a.key.observationKey a.admittedEventGeneration ∧
      a.key.physicalEpoch = s.physicalEpoch ∧
      ∃ o ∈ s.latestObservation, ∃ c ∈ o.probeCandidate, c.profile = a.key.profile ∧
        c.output = a.output ∧ c.internalOutput = a.internalOutput ∧
        c.preferredMode = a.preferredMode
  application_fresh : ∀ a ∈ s.application, s.phase = .applyPending →
    a.admittedEventGeneration = s.eventGeneration →
    RestsOn s.latestObservation a.key.observationKey a.admittedEventGeneration ∧
      a.mapping.physicalEpoch = s.physicalEpoch ∧ a.key.physicalEpoch = s.physicalEpoch
  preparation_fresh : ∀ a ∈ s.preparation, s.preparationState = .preparePending →
    a.admittedEventGeneration = s.eventGeneration →
    RestsExactly s.latestObservation a.observationKey a.admittedEventGeneration a.profile ∧
      Proven s.verifySinceMs s.latestObservation preparationStabilityMs
  finalization_fresh : ∀ a ∈ s.finalization, s.phase = .finalizePending →
    a.admittedEventGeneration = s.eventGeneration →
    RestsExactly s.latestObservation a.observationKey a.admittedEventGeneration a.profile ∧
      Proven s.verifySinceMs s.latestObservation profileStabilityMs ∧ s.baselineAdoption = false
  prepared : ∀ a ∈ s.finalization, s.preparationState = .prepared ∧ ∃ q ∈ s.preparation,
    q.lifecycle = .completed ∧ q.transitionId = a.transitionId ∧
      q.transitionKey = a.transitionKey ∧ q.planHash = a.planHash ∧ q.profile = a.profile
  alone : s.probe ≠ none →
    s.candidate = none ∧ s.planning = none ∧ s.preparation = none ∧ s.finalization = none
  verified : s.phase = .verifying → s.verifySinceMs ≠ none →
    ∃ o ∈ s.latestObservation, o.valid = true ∧ ∃ c ∈ s.candidate,
      o.exactProfile = some c.profile ∧ c.profile ∈ o.currentProfiles ∧
        o.observationKey = c.observationKey
  unfinalized : ∀ a ∈ s.finalization, some a.profile ≠ s.desktopFinalizedProfile
  unplug : s.unplugProof ≠ none → s.externalIntent = true
  probe_attempted : ∀ a ∈ s.probe, a.lifecycle ≠ .admitted → a.unit ≠ none →
    a.key ∈ s.attemptedProbeKeys
  application_attempted : ∀ a ∈ s.application, a.lifecycle ≠ .admitted → a.unit ≠ none →
    a.key ∈ s.attemptedApplicationKeys

section Checks

variable {s : State}

theorem evidenceAt_iff {boot : BootId} {latest : Option CanonicalObservation}
    {observationGeneration : ObservationGeneration} {eventGeneration : EventGeneration} :
    EvidenceAt boot latest observationGeneration eventGeneration ↔
      (∀ o ∈ latest, o.bootId = boot) ∧
      (∀ o ∈ latest, o.observationGeneration ≤ observationGeneration) ∧
      ∀ o ∈ latest, o.endEventGeneration ≤ eventGeneration :=
  ⟨fun h => ⟨h.boot, h.generation, h.event⟩, fun h => ⟨h.1, h.2.1, h.2.2⟩⟩

theorem checkTombstone_eq_ok (h : s.Tidy) {r : ActionRecord} :
    checkTombstone s r = .ok () ↔
      ∀ l, s.Buried r.actionId l ↔ r.lifecycle.terminal = true ∧ l = r.lifecycle := by
  simp only [checkTombstone, seq_eq_ok, require_eq_ok, Option.mem_def, State.epitaph_eq_some h]
  constructor
  · rintro ⟨hended, hburied⟩ l
    refine ⟨hburied l, ?_⟩
    rintro ⟨hterminal, rfl⟩
    exact hended hterminal
  · intro hrecorded
    exact ⟨fun hterminal => (hrecorded _).mpr ⟨hterminal, rfl⟩, fun l => (hrecorded l).mp⟩

/-- Outside recovery the identity check is the ledger. -/
theorem checkActionIdentities_eq_ok (hlive : s.phase ≠ .recovering) :
    checkActionIdentities s = .ok () ↔ Ledger s := by
  simp only [checkActionIdentities, if_pos hlive, seq_eq_ok, forM_eq_ok, require_eq_ok,
    List.forall_mem_map, checkActionId, checkTransitionId, checkRecoveryUnit]
  constructor
  · rintro ⟨-, hbounded, htidy, hburied, htombstones, hnodup, hunits, hunburied, hrunning,
      htransitions⟩
    refine ⟨hbounded, htidy, hburied, fun r hr => (checkTombstone_eq_ok htidy).mp (htombstones r hr),
      hnodup, hunits, fun u hu t ht hid => hunburied u hu (List.mem_map.mpr ⟨t, ht, hid⟩), ?_,
      htransitions⟩
    intro u hu
    obtain ⟨r, hr, w, hw, hl, hunit⟩ := hrunning u hu
    obtain ⟨hmem, -⟩ := State.actionForId_eq_some hr
    have hwl : w.lifecycle = r.lifecycle := by
      cases r <;> cases hw <;> rfl
    exact ⟨r, hmem, hwl ▸ hl, by simp [ActionRecord.unit?, Option.mem_def.mp hw, hunit]⟩
  · intro h
    refine ⟨Sound.actions_nodup, h.bounded, h.tidy, h.buried,
      fun r hr => (checkTombstone_eq_ok h.tidy).mpr (h.recorded r hr), h.units_nodup,
      h.units_bounded, ?_, ?_, h.transitions⟩
    · intro u hu hmem
      obtain ⟨t, ht, hid⟩ := List.mem_map.mp hmem
      exact h.units_unburied u hu t ht hid
    · intro u hu
      obtain ⟨r, hr, hl, hunit⟩ := h.running u hu
      obtain ⟨w, hw, hwu⟩ := Option.bind_eq_some_iff.mp hunit
      have hwl : w.lifecycle = r.lifecycle := by
        cases r <;> cases hw <;> rfl
      refine ⟨r, ?_, w, hw, hwl ▸ hl, hwu⟩
      refine find?_of_unique hr (by simp [ActionRecord.unit?_matches hunit]) fun q hq hid => ?_
      have hsame : q.actionId = r.actionId := by
        simpa [ActionRecord.unit?_matches hunit] using hid
      exact List.inj_on_of_nodup_map Sound.actions_nodup hq hr hsame

theorem checkAcknowledged_eq_ok {u d : String} {w : WorkerAction} :
    checkAcknowledged u d w = .ok () ↔
      (w.lifecycle.mutatingInFlight = true → w.unit ≠ none ∧ w.workerDeadlineMs ≠ none) := by
  simp only [checkAcknowledged, seq_eq_ok, require_eq_ok]
  tauto

theorem checkObservationAuthority_eq_ok :
    checkObservationAuthority s = .ok () ↔ s.Evidence ∧
      (s.latestObservation ≠ none → ∀ c ∈ s.candidate, c.mapping.physicalEpoch = s.physicalEpoch) ∧
      (∀ o ∈ s.latestObservation, ∀ c ∈ s.candidate,
        ¬ (o.hasExternalHardware = true ∧ c.scope = .internalOnly)) ∧
      ∀ o ∈ s.latestObservation, o.valid = true ∧ o.hasExternalHardware = true ∧
        o.exactProfile = none ∧ unresolvedPhase s.phase = true → s.nextTimerMs ≠ none := by
  unfold checkObservationAuthority
  cases ho : s.latestObservation with
  | none => simp [ho, evidenceAt_iff]
  | some o =>
    simp only [seq_eq_ok, require_eq_ok, evidenceAt_iff, Option.mem_some_iff, forall_eq', ho, ne_eq,
      reduceCtorEq, not_false_eq_true, forall_const]
    tauto

theorem checkApplicationAuthorization_eq_ok {a : ApplicationAction} :
    checkApplicationAuthorization s a = .ok () ↔
      a.admittedEventGeneration ≤ s.eventGeneration ∧
      (∀ o ∈ s.latestObservation, ¬ (o.hasExternalHardware = true ∧ a.scope = .internalOnly)) ∧
      (s.phase = .applyPending → a.admittedEventGeneration = s.eventGeneration →
        RestsOn s.latestObservation a.key.observationKey a.admittedEventGeneration ∧
          a.mapping.physicalEpoch = s.physicalEpoch ∧ a.key.physicalEpoch = s.physicalEpoch) := by
  simp only [checkApplicationAuthorization, seq_eq_ok, require_eq_ok, RestsOn]
  split
  next h => simp [seq_eq_ok, h.1, h.2]
  next h =>
    simp only [not_and] at h
    tauto

theorem checkProbeAuthorization_eq_ok {a : ProbeAction} :
    checkProbeAuthorization s a = .ok () ↔
      a.admittedEventGeneration ≤ s.eventGeneration ∧
      (s.phase = .probePending → a.admittedEventGeneration = s.eventGeneration →
        RestsOn s.latestObservation a.key.observationKey a.admittedEventGeneration ∧
          a.key.physicalEpoch = s.physicalEpoch ∧
          ∃ o ∈ s.latestObservation, ∃ c ∈ o.probeCandidate, c.profile = a.key.profile ∧
            c.output = a.output ∧ c.internalOutput = a.internalOutput ∧
            c.preferredMode = a.preferredMode) := by
  simp only [checkProbeAuthorization, seq_eq_ok, require_eq_ok, RestsOn]
  split
  next h => simp [seq_eq_ok, h.1, h.2]
  next h =>
    simp only [not_and] at h
    tauto

theorem checkPreparationAuthorization_eq_ok {a : PreparationAction} :
    checkPreparationAuthorization s a = .ok () ↔
      a.admittedEventGeneration ≤ s.eventGeneration ∧
      (s.preparationState = .preparePending → a.admittedEventGeneration = s.eventGeneration →
        RestsExactly s.latestObservation a.observationKey a.admittedEventGeneration a.profile ∧
          Proven s.verifySinceMs s.latestObservation preparationStabilityMs) := by
  simp only [checkPreparationAuthorization, seq_eq_ok, require_eq_ok, RestsExactly, Proven]
  split
  next h => simp [seq_eq_ok, h.1, h.2]
  next h =>
    simp only [not_and] at h
    tauto

theorem checkFinalizationAuthorization_eq_ok {a : FinalizationAction} :
    checkFinalizationAuthorization s a = .ok () ↔
      (s.preparationState = .prepared ∧ ∃ q ∈ s.preparation, q.lifecycle = .completed ∧
        q.transitionId = a.transitionId ∧ q.transitionKey = a.transitionKey ∧
        q.planHash = a.planHash ∧ q.profile = a.profile) ∧
      a.admittedEventGeneration ≤ s.eventGeneration ∧
      (s.phase = .finalizePending → a.admittedEventGeneration = s.eventGeneration →
        RestsExactly s.latestObservation a.observationKey a.admittedEventGeneration a.profile ∧
          Proven s.verifySinceMs s.latestObservation profileStabilityMs ∧
          s.baselineAdoption = false) := by
  have hpair : ∀ P Q : PreparationAction → Prop,
      (∃ q ∈ s.preparation, P q) ∧ (∃ q ∈ s.preparation, Q q) ↔
        ∃ q ∈ s.preparation, P q ∧ Q q := by
    intro P Q
    cases s.preparation <;> simp
  simp only [checkFinalizationAuthorization, seq_eq_ok, require_eq_ok, RestsExactly, Proven]
  rw [← and_assoc, hpair]
  have hfirst : (∃ q ∈ s.preparation, (s.preparationState = .prepared ∧ q.lifecycle = .completed) ∧
      q.transitionId = a.transitionId ∧ q.transitionKey = a.transitionKey ∧
        q.planHash = a.planHash ∧ q.profile = a.profile) ↔
      s.preparationState = .prepared ∧ ∃ q ∈ s.preparation, q.lifecycle = .completed ∧
        q.transitionId = a.transitionId ∧ q.transitionKey = a.transitionKey ∧
        q.planHash = a.planHash ∧ q.profile = a.profile := by
    cases s.preparation <;> simp [and_assoc]
  rw [hfirst]
  split
  next h => simp [seq_eq_ok, h.1, h.2]
  next h =>
    simp only [not_and] at h
    tauto

/-- The numbered rules outside recovery. -/
theorem checkNumberedSafetyRules_eq_ok (hlive : s.phase ≠ .recovering) :
    checkNumberedSafetyRules s = .ok () ↔
      (∀ o ∈ s.latestObservation, o.hasExternalHardware = true →
        ∀ c ∈ s.candidate, c.scope ≠ .internalOnly) ∧
      ScopedAt s.latestObservation s.application ∧
      (s.probe ≠ none → s.candidate = none ∧ s.planning = none ∧ s.preparation = none ∧
        s.finalization = none) ∧
      (s.phase = .verifying → s.verifySinceMs ≠ none →
        ∃ o ∈ s.latestObservation, o.valid = true ∧ ∃ c ∈ s.candidate,
          o.exactProfile = some c.profile ∧ c.profile ∈ o.currentProfiles ∧
            o.observationKey = c.observationKey) ∧
      (∀ w ∈ s.mutators, w.lifecycle.mutatingInFlight = true →
        w.unit ≠ none ∧ w.workerDeadlineMs ≠ none) ∧
      (∀ a ∈ s.finalization, some a.profile ≠ s.desktopFinalizedProfile) ∧
      (s.unplugProof ≠ none → s.externalIntent = true) := by
  have hmapped : ∀ a ∈ s.application, a.profile = a.mapping.profile ∧ a.key.profile = a.profile :=
    fun a _ => ⟨a.profile_mapping.symm, a.profile_key⟩
  have hcounted : ∀ p ∈ s.unplugProof, 1 ≤ p.observationCount := fun p _ => p.counted
  simp only [checkNumberedSafetyRules, ScopedAt]
  split
  next h =>
    simp only [seq_eq_ok, forM_eq_ok, require_eq_ok, checkAcknowledged_eq_ok, and_imp]
    constructor
    · rintro ⟨h1, h2, h3, h4, h5, -, h6, h7, h8, h9, -⟩
      exact ⟨h1, h2, fun _ => ⟨h3, h4, h5⟩, h6, h7, h8, h9⟩
    · rintro ⟨h1, h2, h3, h6, h7, h8, h9⟩
      obtain ⟨h3, h4, h5⟩ := h3 h.1
      exact ⟨h1, h2, h3, h4, h5, hmapped, h6, h7, h8, h9, hcounted⟩
  next h =>
    have hprobe : s.probe = none := by
      by_contra hne
      exact h ⟨hne, hlive⟩
    simp only [seq_eq_ok, forM_eq_ok, require_eq_ok, checkAcknowledged_eq_ok, and_imp]
    constructor
    · rintro ⟨h1, h2, -, h6, h7, h8, h9, -⟩
      exact ⟨h1, h2, fun hne => absurd hprobe hne, h6, h7, h8, h9⟩
    · rintro ⟨h1, h2, -, h6, h7, h8, h9⟩
      exact ⟨h1, h2, hmapped, h6, h7, h8, h9, hcounted⟩

theorem exclusive_of_length
    (h : (s.mutators.filter (·.lifecycle.mutatingInFlight)).length ≤ 1) :
    ∀ a ∈ s.application, ∀ p ∈ s.preparation,
      a.lifecycle.mutatingInFlight = true → p.lifecycle.mutatingInFlight = false := by
  intro a ha p hp hflight
  by_contra hne
  rw [Bool.not_eq_false] at hne
  simp only [State.mutators, Option.mem_def.mp ha, Option.mem_def.mp hp, Option.map_some,
    Option.toList_some, List.filter_append, List.length_append, List.filter_cons, hflight, hne,
    if_true, List.filter_nil, List.length_singleton] at h
  omega

/-- The phases leave the preparation as the only companion of another worker. -/
theorem length_of_exclusive
    (hprobe : Fits (s.probe.map (·.lifecycle)) (expectedProbeLifecycles s.phase))
    (happlication :
      Fits (s.application.map (·.lifecycle)) (expectedApplicationLifecycles s.phase))
    (hfinalization :
      Fits (s.finalization.map (·.lifecycle)) (expectedFinalizationLifecycles s.phase))
    (halone : s.probe ≠ none → s.preparation = none)
    (hprepared : ∀ _a ∈ s.finalization, ∃ q ∈ s.preparation, q.lifecycle = .completed)
    (hexclusive : ∀ a ∈ s.application, ∀ p ∈ s.preparation,
      a.lifecycle.mutatingInFlight = true → p.lifecycle.mutatingInFlight = false) :
    (s.mutators.filter (·.lifecycle.mutatingInFlight)).length ≤ 1 := by
  have one : ∀ o : Option WorkerAction,
      (o.toList.filter (·.lifecycle.mutatingInFlight)).length ≤ 1 := by
    rintro (- | w)
    · simp
    · exact List.length_filter_le _ _
  by_cases hp : s.probe = none
  · by_cases hf : s.finalization = none
    · simp only [State.mutators, hp, hf, Option.map_none, Option.toList_none, List.nil_append,
        List.append_nil, List.filter_append, List.length_append]
      cases ha : s.application with
      | none => simpa using one (s.preparation.map (·.toWorkerAction))
      | some a =>
        cases hq : s.preparation with
        | none => simpa using one (some a.toWorkerAction)
        | some q =>
          have hpair := hexclusive a ha q hq
          by_cases hflight : a.lifecycle.mutatingInFlight = true
          · simp [hflight, hpair hflight]
          · simpa [hflight] using one (some q.toWorkerAction)
    · obtain ⟨f, hf'⟩ := Option.ne_none_iff_exists'.mp hf
      obtain ⟨q, hq, hcompleted⟩ := hprepared f hf'
      have ha : s.application = none := by
        cases hphase : s.phase <;>
          simp_all [Fits, expectedApplicationLifecycles, expectedFinalizationLifecycles]
      simpa [State.mutators, hp, ha, Option.mem_def.mp hq, hcompleted,
        ActionLifecycle.mutatingInFlight] using one (s.finalization.map (·.toWorkerAction))
  · have hq := halone hp
    have ha : s.application = none := by
      cases hphase : s.phase <;>
        simp_all [Fits, expectedApplicationLifecycles, expectedProbeLifecycles]
    have hf : s.finalization = none := by
      cases hphase : s.phase <;>
        simp_all [Fits, expectedFinalizationLifecycles, expectedProbeLifecycles]
    simpa [State.mutators, ha, hq, hf] using one (s.probe.map (·.toWorkerAction))

/-- Outside recovery the central checks accept exactly the coherent states. -/
theorem coherent_iff (hlive : s.phase ≠ .recovering) :
    assertControllerInvariants s = .ok () ↔ Coherent s := by
  simp only [assertControllerInvariants, seq_eq_ok, checkPhaseRelationships,
    checkPlanningRelationships, if_neg hlive, checkSlot_eq_ok, checkActionIdentities_eq_ok hlive,
    checkWorkerAcknowledgements, checkActionAuthorization, checkNumberedSafetyRules_eq_ok hlive,
    checkAttemptHistory, forM_eq_ok, require_eq_ok, checkAcknowledged_eq_ok, Option.mem_toList,
    State.forall_mutators, checkObservationAuthority_eq_ok, checkApplicationAuthorization_eq_ok,
    checkProbeAuthorization_eq_ok, checkPreparationAuthorization_eq_ok,
    checkFinalizationAuthorization_eq_ok]
  constructor
  · rintro ⟨⟨hp1, hp2, hp3⟩, ⟨hl1, hl2, hl3, hl4, hl5, hl6, hl7⟩, hledger,
      ⟨hexclusive, hw1, hw2, hw3, hw4⟩, ⟨hevidence, hepoch, -, hwake⟩,
      ⟨hauth1, hauth2, hauth3, hauth4⟩, ⟨hscope, hin, halone, hverified, -, hfinal, hunplug⟩,
      hattempt1, hattempt2⟩
    constructor
    case planned =>
      intro a ha
      obtain ⟨p, hp, hash⟩ := hl5 a ha
      obtain ⟨q, hq, htransition⟩ := hl6 a ha
      obtain rfl := Option.mem_unique hp hq
      exact ⟨(hl4 a ha).2, p, hp, hash, htransition⟩
    case exclusive => exact exclusive_of_length hexclusive
    case probe_worker => exact fun a ha => ⟨(hauth2 a ha).1, hw1 a ha⟩
    case application_worker => exact fun a ha => ⟨(hauth1 a ha).1, hw2 a ha⟩
    case preparation_worker => exact fun a ha => ⟨(hauth3 a ha).1, hw3 a ha⟩
    case finalization_worker => exact fun a ha => ⟨(hauth4 a ha).2.1, hw4 a ha⟩
    case probe_fresh => exact fun a ha => (hauth2 a ha).2
    case application_fresh => exact fun a ha => (hauth1 a ha).2.2
    case preparation_fresh => exact fun a ha => (hauth3 a ha).2
    case finalization_fresh => exact fun a ha => (hauth4 a ha).2.2
    case prepared => exact fun a ha => (hauth4 a ha).1
    all_goals assumption
  · intro h
    refine ⟨⟨h.probe_fits, h.application_fits, h.finalization_fits⟩, ⟨h.planning_fits, h.staged,
      h.preparation_fits, ?_, ?_, ?_, h.baseline⟩, h.ledger, ⟨?_, ?_, ?_, ?_, ?_⟩, ?_, ⟨?_, ?_, ?_, ?_⟩,
      ⟨h.candidate_scope, h.in_scope, h.alone, h.verified, ⟨?_, ?_, ?_, ?_⟩, h.unfinalized, h.unplug⟩,
      h.probe_attempted, h.application_attempted⟩
    · intro a ha
      obtain ⟨hready, p, hp, -⟩ := h.planned a ha
      exact ⟨by simp [Option.mem_def.mp hp], hready⟩
    · intro a ha
      obtain ⟨-, p, hp, hash, -⟩ := h.planned a ha
      exact ⟨p, hp, hash⟩
    · intro a ha
      obtain ⟨-, p, hp, -, htransition⟩ := h.planned a ha
      exact ⟨p, hp, htransition⟩
    · refine length_of_exclusive h.probe_fits h.application_fits h.finalization_fits
        (fun hp => (h.alone hp).2.2.1) (fun a ha => ?_) h.exclusive
      obtain ⟨-, q, hq, hcompleted, -⟩ := h.prepared a ha
      exact ⟨q, hq, hcompleted⟩
    · exact fun a ha => (h.probe_worker a ha).retained
    · exact fun a ha => (h.application_worker a ha).retained
    · exact fun a ha => (h.preparation_worker a ha).retained
    · exact fun a ha => (h.finalization_worker a ha).retained
    · exact ⟨h.evidence, h.candidate_epoch, fun o ho c hc he => h.candidate_scope o ho he.1 c hc he.2,
        h.wake⟩
    · exact fun a ha => ⟨(h.application_worker a ha).admitted,
        fun o ho he => h.in_scope o ho he.1 a ha he.2, h.application_fresh a ha⟩
    · exact fun a ha => ⟨(h.probe_worker a ha).admitted, h.probe_fresh a ha⟩
    · exact fun a ha => ⟨(h.preparation_worker a ha).admitted, h.preparation_fresh a ha⟩
    · exact fun a ha => ⟨h.prepared a ha, (h.finalization_worker a ha).admitted,
        h.finalization_fresh a ha⟩
    · exact fun a ha => (h.probe_worker a ha).retained
    · exact fun a ha => (h.application_worker a ha).retained
    · exact fun a ha => (h.preparation_worker a ha).retained
    · exact fun a ha => (h.finalization_worker a ha).retained

end Checks

/-- The entry which one action's turn makes in the ledger. -/
inductive Entered (s : State) (r : ActionRecord) :
    Option ActionRecord → List ActionTombstone → List WorkerUnit → Prop
  | kept (q) (hid : q.actionId = r.actionId) (hr : r.lifecycle.terminal = false)
    (hq : q.lifecycle.terminal = false)
    (hrun : r.lifecycle = .dispatched ∨ r.lifecycle = .stopping →
      (q.lifecycle = .dispatched ∨ q.lifecycle = .stopping) ∧ q.unit? = r.unit?) :
    Entered s r (some q) s.actionTombstones s.recoveryUnits
  | reported (q) (hid : q.actionId = r.actionId) (hr : r.lifecycle.terminal = false)
    (hq : q.lifecycle.terminal = false) :
    Entered s r (some q) s.actionTombstones (clearRecoveryUnit s r.actionId).recoveryUnits
  | buried (l) (hl : l.terminal = true) (o : Option ActionRecord)
    (hid : ∀ q ∈ o, q.actionId = r.actionId ∧ q.lifecycle = l) :
    Entered s r o (s.burial r.actionId l) (clearRecoveryUnit s r.actionId).recoveryUnits

section Entries

variable {s s' : State} {r : ActionRecord}

namespace Entered

variable {o : Option ActionRecord} {ts : List ActionTombstone} {us : List WorkerUnit}

theorem actionId (h : Entered s r o ts us) : ∀ q ∈ o, q.actionId = r.actionId := by
  cases h with
  | kept q hid => rintro _ ⟨⟩; exact hid
  | reported q hid => rintro _ ⟨⟩; exact hid
  | buried l hl o hid => exact fun q hq => (hid q hq).1

theorem units (h : Entered s r o ts us) : us.Sublist s.recoveryUnits := by
  cases h with
  | kept => exact .refl _
  | reported => exact List.filter_sublist
  | buried => exact List.filter_sublist

theorem tombstones (h : Entered s r o ts us) {t : ActionTombstone} (ht : t ∈ ts) :
    t ∈ s.actionTombstones ∨ t.actionId = r.actionId ∧ ∀ u ∈ us, u.actionId ≠ r.actionId := by
  cases h with
  | kept => exact .inl ht
  | reported => exact .inl ht
  | buried l hl o hid =>
    rcases State.mem_burial hl ht with ⟨hold, -⟩ | ⟨hnew, -⟩
    · exact .inl hold
    · exact .inr ⟨hnew, fun u hu => by simpa using (List.mem_filter.mp hu).2⟩

end Entered

/-- One action's turn keeps the ledger. -/
theorem Ledger.turn (h : Ledger s) (hr : r ∈ s.actions)
    (hinstance : s'.controllerInstance = s.controllerInstance)
    (hhigh : s'.actionSequenceHighWater = s.actionSequenceHighWater)
    (htransitionHigh : s'.transitionSequenceHighWater = s.transitionSequenceHighWater)
    (htransitions : ∀ t ∈ s'.transitions, t ∈ s.transitions)
    (hother : ∀ k, k ≠ r.kind → s'.slot k = s.slot k)
    (he : Entered s r (s'.slot r.kind) s'.actionTombstones s'.recoveryUnits) : Ledger s' := by
  have hbelow : ∀ {a : ActionId}, Below s a → Below s' a := by
    intro a ha
    simpa only [Below, hinstance, hhigh] using ha
  have hcases : ∀ q ∈ s'.actions, q ∈ s.actions ∧ q.actionId ≠ r.actionId ∨
      q ∈ s'.slot r.kind ∧ q.actionId = r.actionId := by
    intro q hq
    have hslot := State.slot_of_mem_actions hq
    by_cases hk : q.kind = r.kind
    · rw [hk] at hslot
      exact .inr ⟨hslot, he.actionId q hslot⟩
    · exact .inl ⟨State.mem_actions_of_slot ((hother _ hk).symm.trans hslot),
        ActionRecord.actionId_ne hk⟩
  have hkept : ∀ q ∈ s.actions, q.actionId ≠ r.actionId → q ∈ s'.actions := by
    intro q hq hne
    have hk : q.kind ≠ r.kind := by
      intro hk
      have hslot := State.slot_of_mem_actions hq
      rw [hk, State.slot_of_mem_actions hr] at hslot
      exact hne (congrArg ActionRecord.actionId (Option.some.inj hslot)).symm
    exact State.mem_actions_of_slot ((hother _ hk).trans (State.slot_of_mem_actions hq))
  have hretains : ∀ q ∈ s.actions, s.retains q.actionId = true := fun q hq =>
    State.retains_iff.mpr ⟨q, hq, rfl⟩
  constructor
  case bounded =>
    intro q hq
    rcases hcases q hq with ⟨hq, -⟩ | ⟨-, hid⟩
    · exact hbelow (h.bounded q hq)
    · exact hbelow (hid ▸ h.bounded r hr)
  case tidy =>
    generalize hts : s'.actionTombstones = ts at he
    change (s'.actionTombstones.map (·.actionId)).Nodup
    rw [hts]
    generalize s'.slot r.kind = o at he
    generalize s'.recoveryUnits = us at he
    cases he with
    | kept => exact h.tidy
    | reported => exact h.tidy
    | buried l => exact h.tidy.burial _ _
  case buried =>
    intro t ht
    rcases he.tombstones ht with hold | ⟨hid, -⟩
    · exact hbelow (h.buried t hold)
    · exact hbelow (hid ▸ h.bounded r hr)
  case recorded =>
    intro q hq l
    have hbury : s'.Buried q.actionId l ↔
        ∃ t ∈ s'.actionTombstones, t.actionId = q.actionId ∧ t.lifecycle = l := .rfl
    rw [hbury]
    rcases hcases q hq with ⟨hq, hne⟩ | ⟨hslot, hid⟩
    · generalize s'.actionTombstones = ts at he
      generalize s'.slot r.kind = o at he
      generalize s'.recoveryUnits = us at he
      cases he with
      | kept => exact h.recorded q hq l
      | reported => exact h.recorded q hq l
      | buried m hm =>
        exact (State.buried_bury_of_ne hm hne (hretains q hq)).trans (h.recorded q hq l)
    · rw [hid]
      generalize s'.actionTombstones = ts at he
      generalize s'.slot r.kind = o at he hslot
      generalize s'.recoveryUnits = us at he
      have hlive : r.lifecycle.terminal = false → q.lifecycle.terminal = false →
          ((∃ t ∈ s.actionTombstones, t.actionId = r.actionId ∧ t.lifecycle = l) ↔
            q.lifecycle.terminal = true ∧ l = q.lifecycle) := by
        intro hrl hql
        refine (h.recorded r hr l).trans ?_
        simp [hrl, hql]
      cases he with
      | kept p hpid hrl hpl =>
        obtain rfl := Option.mem_some.mp hslot
        exact hlive hrl hpl
      | reported p hpid hrl hpl =>
        obtain rfl := Option.mem_some.mp hslot
        exact hlive hrl hpl
      | buried m hm o hids =>
        obtain ⟨-, rfl⟩ := hids q hslot
        constructor
        · rintro ⟨t, ht, htid, rfl⟩
          rcases State.mem_burial hm ht with ⟨-, hne⟩ | ⟨-, hl⟩
          · exact absurd htid hne
          · exact ⟨hm, hl⟩
        · rintro ⟨-, rfl⟩
          exact State.buried_bury hm (hretains r hr)
  case units_nodup => exact (he.units.map _).nodup h.units_nodup
  case units_bounded => exact fun u hu => hbelow (h.units_bounded u (he.units.subset hu))
  case units_unburied =>
    intro u hu t ht hid
    rcases he.tombstones ht with hold | ⟨htid, hcleared⟩
    · exact h.units_unburied u (he.units.subset hu) t hold hid
    · exact hcleared u hu (hid.symm.trans htid)
  case running =>
    intro u hu
    obtain ⟨q, hq, hl, hunit⟩ := h.running u (he.units.subset hu)
    by_cases hid : q.actionId = r.actionId
    · obtain rfl : q = r := List.inj_on_of_nodup_map Sound.actions_nodup hq hr hid
      generalize hslot : s'.slot q.kind = o at he
      generalize s'.actionTombstones = ts at he
      generalize s'.recoveryUnits = us at he hu
      have hcleared : u ∉ (clearRecoveryUnit s q.actionId).recoveryUnits := by
        simp [clearRecoveryUnit, ActionRecord.unit?_matches hunit]
      cases he with
      | kept p hpid hrl hpl hrun =>
        have hp : p.kind = q.kind := by
          rw [← p.kind_eq, hpid, q.kind_eq]
        obtain ⟨hpl, hpu⟩ := hrun hl
        exact ⟨p, State.mem_actions_of_slot (hp ▸ hslot), hpl, hpu.trans hunit⟩
      | reported => exact absurd hu hcleared
      | buried => exact absurd hu hcleared
    · exact ⟨q, hkept q hq hid, hl, hunit⟩
  case transitions =>
    intro t ht
    rw [hinstance, htransitionHigh]
    exact h.transitions t (htransitions t ht)

end Entries

end MonitorController
