import MonitorController.Safety.Checks
import MonitorController.Transition.Tombstones

/-! # The sound states

An inductive strengthening of the central invariants, in groups which each
depend on a few components of the state. A sound state passes every check.
-/

namespace MonitorController

/-- A slot is occupied exactly when lifecycles are expected, in one of them. -/
def Fits (slot : Option ActionLifecycle) : Option (List ActionLifecycle) → Prop
  | none => slot = none
  | some lifecycles => ∃ l ∈ slot, l ∈ lifecycles

theorem checkSlot_eq_ok {slot : Option ActionLifecycle} {expected : Option (List ActionLifecycle)}
    {u m e : String} : checkSlot slot expected u m e = .ok ⟨⟩ ↔ Fits slot expected := by
  cases expected with
  | none => simp [checkSlot, Fits]
  | some ls => cases slot <;> simp [checkSlot, Fits, Outcome.seq_eq_ok]

/-- Probes and applications are never left waiting for their result. -/
def runningLifecycles : List ActionLifecycle := [.dispatched, .stopping]

def probeShape : ControllerPhase → Option (List ActionLifecycle)
  | .probePending => some [.admitted]
  | .probing => some runningLifecycles
  | .probeFailed => some failedLifecycles
  | _ => none

/-- The lifecycles a reachable application has in each phase. -/
def applicationShape : ControllerPhase → Option (List ActionLifecycle)
  | .applyPending => some [.admitted]
  | .applying => some runningLifecycles
  | .applyFailed => some failedLifecycles
  | _ => none

/-- The preparation states which exclude every display worker. -/
def PreparationState.active : PreparationState → Bool
  | .preparePending | .preparing | .prepareStopping => true
  | .prepareIdle | .prepared | .prepareFailed => false

/-- The phases with which a preparation state is compatible. -/
def preparationPhases : PreparationState → ControllerPhase → Bool
  | .preparePending, phase => phase = .verifying
  | .preparing, phase => phase = .verifying || phase = .discoverFast
  | .prepareStopping, phase => phase = .discoverFast
  | _, _ => true

/-- The phases and slots of the controller fit together. -/
structure ControlAt (phase : ControllerPhase) (planningState : PlanningState)
    (preparationState : PreparationState) (probe : Option ProbeAction)
    (application : Option ApplicationAction) (planning : Option PlanningAction)
    (preparation : Option PreparationAction) (finalization : Option FinalizationAction) :
    Prop where
  probe_fits : Fits (probe.map (·.lifecycle)) (probeShape phase)
  application_fits : Fits (application.map (·.lifecycle)) (applicationShape phase)
  finalization_fits : Fits (finalization.map (·.lifecycle)) (expectedFinalizationLifecycles phase)
  planning_fits : Fits (planning.map (·.lifecycle)) (expectedPlanning planningState)
  preparation_fits : Fits (preparation.map (·.lifecycle)) (expectedPreparation preparationState)
  recovering : phase = .recovering → planningState = .planIdle ∧ preparationState = .prepareIdle
  probing : probe ≠ none → planningState = .planIdle ∧ preparationState = .prepareIdle
  phases : preparationPhases preparationState phase = true
  ready : preparationState ≠ .prepareIdle → planningState = .planReady
  prepared : finalization ≠ none → preparationState = .prepared

/-- The desktop actions of one transition agree. -/
structure DesktopAt (planningState : PlanningState) (preparationState : PreparationState)
    (baselineAdoption : Bool) (finalized : Option Text) (planning : Option PlanningAction)
    (preparation : Option PreparationAction) (finalization : Option FinalizationAction) :
    Prop where
  staged : planningState = .planReady → ∃ p ∈ planning, p.planHash ≠ none
  planned : ∀ a ∈ preparation, ∃ p ∈ planning,
    some a.planHash = p.planHash ∧ a.transitionId = p.transitionId ∧ a.profile = p.profile
  prepared : ∀ a ∈ finalization, ∃ q ∈ preparation,
    q.transitionId = a.transitionId ∧ q.transitionKey = a.transitionKey ∧
      q.planHash = a.planHash ∧ q.profile = a.profile
  unfinalized : ∀ a ∈ finalization, some a.profile ≠ finalized
  baseline : baselineAdoption = true → planningState = .planIdle ∧ preparationState = .prepareIdle

/-- The action is below the mark, and has a tombstone exactly when it has ended. -/
structure Known (high : Nat) (tombstones : List ActionTombstone) (r : ActionRecord) : Prop where
  bounded : r.actionId.sequence ≤ high
  buried : ∀ l, (∃ t ∈ tombstones, t.actionId = r.actionId ∧ t.lifecycle = l) ↔
    r.lifecycle.terminal = true ∧ l = r.lifecycle

/-- Identities are below the marks, and tombstones match the retained actions. -/
structure IdentitiesAt (high transitionHigh : Nat) (tombstones : List ActionTombstone)
    (recoveryUnits : List WorkerUnit) (probe : Option ProbeAction)
    (application : Option ApplicationAction) (planning : Option PlanningAction)
    (preparation : Option PreparationAction) (finalization : Option FinalizationAction) :
    Prop where
  tidy : (tombstones.map (·.actionId)).Nodup
  buried : ∀ t ∈ tombstones, t.actionId.sequence ≤ high
  recoveryUnits : recoveryUnits = []
  probe : ∀ a ∈ probe, Known high tombstones (.probe a)
  application : ∀ a ∈ application, Known high tombstones (.application a)
  planning : ∀ a ∈ planning, Known high tombstones (.planning a) ∧
    a.transitionId.sequence ≤ transitionHigh
  preparation : ∀ a ∈ preparation, Known high tombstones (.preparation a) ∧
    a.transitionId.sequence ≤ transitionHigh
  finalization : ∀ a ∈ finalization, Known high tombstones (.finalization a) ∧
    a.transitionId.sequence ≤ transitionHigh

/-- The retained sample belongs to this boot and to the generations reduced so far. -/
structure EvidenceAt (bootId : BootId) (latest : Option CanonicalObservation)
    (observationGeneration : ObservationGeneration) (eventGeneration : EventGeneration) :
    Prop where
  boot : ∀ o ∈ latest, o.bootId = bootId
  generation : ∀ o ∈ latest, o.observationGeneration ≤ observationGeneration
  event : ∀ o ∈ latest, o.endEventGeneration ≤ eventGeneration

/-- The candidate belongs to the current topology and to any preparation of it. -/
structure SelectionAt (latest : Option CanonicalObservation) (epoch : Nat)
    (token : Option PhysicalToken) (candidate : Option CandidateSelection)
    (probe : Option ProbeAction) (preparationState : PreparationState)
    (preparation : Option PreparationAction) : Prop where
  unobserved : latest = none → token = none ∧ candidate = none
  epoch : ∀ c ∈ candidate, c.mapping.physicalEpoch = epoch
  scope : ∀ o ∈ latest, o.hasExternalHardware = true → ∀ c ∈ candidate, c.scope ≠ .internalOnly
  probing : probe ≠ none → candidate = none
  preparing : preparationState.active = true → ∀ a ∈ preparation, ∀ c ∈ candidate,
    c.profile = a.profile ∧ c.observationKey = a.observationKey

/-- External evidence and an internal-only application exclude each other. -/
def ScopedAt (latest : Option CanonicalObservation) (application : Option ApplicationAction) :
    Prop :=
  ∀ o ∈ latest, o.hasExternalHardware = true → ∀ a ∈ application, a.scope ≠ .internalOnly

/-- The unplug proof accumulates samples up to the retained one. -/
def UnplugAt (latest : Option CanonicalObservation) (externalIntent : Bool)
    (proof : Option UnplugProof) : Prop :=
  ∀ p ∈ proof, externalIntent = true ∧ ∃ o ∈ latest, p.latestObservedAtMs ≤ o.observedAtMs

/-- A worker keeps its unit, its deadline and an admission of the past. -/
structure WorkerAt (eventGeneration : EventGeneration) (w : WorkerAction) : Prop where
  admitted : w.admittedEventGeneration ≤ eventGeneration
  unlaunched : w.lifecycle = .admitted → w.unit = none
  unit : w.lifecycle.mutatingInFlight = true → w.unit ≠ none ∧ w.workerDeadlineMs ≠ none

/-- Acknowledged attempts are remembered. -/
structure AttemptsAt (eventGeneration : EventGeneration) (probeKeys : Finset ProbeAttemptKey)
    (applicationKeys : Finset ApplicationAttemptKey) (probe : Option ProbeAction)
    (application : Option ApplicationAction) (preparation : Option PreparationAction)
    (finalization : Option FinalizationAction) : Prop where
  probe : ∀ a ∈ probe, WorkerAt eventGeneration a.toWorkerAction ∧
    (a.unit ≠ none → a.key ∈ probeKeys)
  application : ∀ a ∈ application, WorkerAt eventGeneration a.toWorkerAction ∧
    (a.unit ≠ none → a.key ∈ applicationKeys)
  preparation : ∀ a ∈ preparation, WorkerAt eventGeneration a.toWorkerAction
  finalization : ∀ a ∈ finalization, WorkerAt eventGeneration a.toWorkerAction

/-- The sample still shows the profile exact and current, on the evidence of the action. -/
structure ExactOn (o : CanonicalObservation) (profile : Text) (key : ObservationKey) : Prop where
  valid : o.valid = true
  key : o.observationKey = key
  exact : o.exactProfile = some profile
  current : profile ∈ o.currentProfiles

/-- The proof is at least `stability` old at the retained sample. -/
def Proven (verifySince : Option Nat) (latest : Option CanonicalObservation) (stability : Nat) :
    Prop :=
  ∃ t ∈ verifySince, ∃ o ∈ latest, t + stability ≤ o.observedAtMs

/-- A pending admission rests on the retained sample. -/
structure PendingAt (latest : Option CanonicalObservation) (epoch : Nat)
    (verifySince : Option Nat) (probe : Option ProbeAction)
    (application : Option ApplicationAction) (preparation : Option PreparationAction)
    (finalization : Option FinalizationAction) : Prop where
  probe : ∀ a ∈ probe, a.lifecycle = .admitted → a.key.physicalEpoch = epoch ∧
    ∃ o ∈ latest, o.valid = true ∧ o.observationKey = a.key.observationKey ∧
      o.endEventGeneration = a.admittedEventGeneration ∧
      ∃ c ∈ o.probeCandidate, c.profile = a.key.profile ∧ c.output = a.output ∧
        c.internalOutput = a.internalOutput ∧ c.preferredMode = a.preferredMode
  application : ∀ a ∈ application, a.lifecycle = .admitted →
    a.mapping.physicalEpoch = epoch ∧ a.key.physicalEpoch = epoch ∧
    ∃ o ∈ latest, o.valid = true ∧ o.observationKey = a.key.observationKey ∧
      o.endEventGeneration = a.admittedEventGeneration
  preparation : ∀ a ∈ preparation, a.lifecycle = .admitted →
    Proven verifySince latest preparationStabilityMs ∧
    ∃ o ∈ latest, ExactOn o a.profile a.observationKey ∧
      o.endEventGeneration = a.admittedEventGeneration
  finalization : ∀ a ∈ finalization, a.lifecycle = .admitted →
    Proven verifySince latest profileStabilityMs ∧
    ∃ o ∈ latest, ExactOn o a.profile a.observationKey ∧
      o.endEventGeneration = a.admittedEventGeneration

/-- A running proof rests on the retained sample. -/
def ProofAt (phase : ControllerPhase) (latest : Option CanonicalObservation)
    (candidate : Option CandidateSelection) (verifySince : Option Nat) : Prop :=
  phase = .verifying → verifySince ≠ none →
    ∃ o ∈ latest, ∃ c ∈ candidate, ExactOn o c.profile c.observationKey

def unwoken : ControllerPhase → Bool
  | .recovering | .quiescent | .probing | .applying => true
  | _ => false

/-- Every other phase has a wake. -/
def WakeAt (phase : ControllerPhase) (nextTimer : Option Nat) : Prop :=
  unwoken phase = false → nextTimer ≠ none

namespace State

variable (s : State)

abbrev Control : Prop :=
  ControlAt s.phase s.planningState s.preparationState s.probe s.application s.planning
    s.preparation s.finalization

abbrev Desktop : Prop :=
  DesktopAt s.planningState s.preparationState s.baselineAdoption s.desktopFinalizedProfile
    s.planning s.preparation s.finalization

abbrev Identities : Prop :=
  IdentitiesAt s.actionSequenceHighWater s.transitionSequenceHighWater s.actionTombstones
    s.recoveryUnits s.probe s.application s.planning s.preparation s.finalization

abbrev Evidence : Prop :=
  EvidenceAt s.bootId s.latestObservation s.observationGeneration s.eventGeneration

abbrev Selection : Prop :=
  SelectionAt s.latestObservation s.physicalEpoch s.physicalToken s.candidate s.probe
    s.preparationState s.preparation

abbrev Attempts : Prop :=
  AttemptsAt s.eventGeneration s.attemptedProbeKeys s.attemptedApplicationKeys s.probe
    s.application s.preparation s.finalization

abbrev Pending : Prop :=
  PendingAt s.latestObservation s.physicalEpoch s.verifySinceMs s.probe s.application
    s.preparation s.finalization

end State

/-- The part of the invariant which recording a sample keeps. -/
structure Core (s : State) : Prop where
  control : s.Control
  desktop : s.Desktop
  identities : s.Identities
  evidence : s.Evidence
  selection : s.Selection
  unplug : UnplugAt s.latestObservation s.externalIntent s.unplugProof
  attempts : s.Attempts

/-- The inductive invariant of the reducer. -/
structure Sound (s : State) : Prop extends Core s where
  started : s.phase = .recovering ↔ s.latestObservation = none
  inScope : ScopedAt s.latestObservation s.application
  pending : s.Pending
  verified : ProofAt s.phase s.latestObservation s.candidate s.verifySinceMs
  wake : WakeAt s.phase s.nextTimerMs

section Shapes

variable {slot : Option ActionLifecycle} {phase : ControllerPhase}

theorem Fits.mono {e f : Option (List ActionLifecycle)} (h : Fits slot e)
    (hn : e = none → f = none) (hs : ∀ l ∈ e, ∃ m ∈ f, l ⊆ m) : Fits slot f := by
  cases e with
  | none => rw [hn rfl]; exact h
  | some l =>
    obtain ⟨m, hm, hlm⟩ := hs l rfl
    obtain ⟨x, hx, hxl⟩ := h
    rw [Option.mem_def.mp hm]
    exact ⟨x, hx, hlm hxl⟩

theorem Fits.of_probeShape (h : Fits slot (probeShape phase)) :
    Fits slot (expectedProbeLifecycles phase) :=
  h.mono (by cases phase <;> decide) (by cases phase <;> decide)

theorem Fits.of_applicationShape (h : Fits slot (applicationShape phase)) :
    Fits slot (expectedApplicationLifecycles phase) :=
  h.mono (by cases phase <;> decide) (by cases phase <;> decide)

end Shapes

namespace ControlAt

variable {phase : ControllerPhase} {planningState : PlanningState}
  {preparationState : PreparationState} {probe : Option ProbeAction}
  {application : Option ApplicationAction} {planning : Option PlanningAction}
  {preparation : Option PreparationAction} {finalization : Option FinalizationAction}

section

variable (h : ControlAt phase planningState preparationState probe application planning
  preparation finalization)
include h

theorem probe_alone (hp : probe ≠ none) :
    application = none ∧ planning = none ∧ preparation = none ∧ finalization = none := by
  obtain ⟨hps, hqs⟩ := h.probing hp
  have h1 := h.probe_fits
  have h2 := h.application_fits
  have h3 := h.finalization_fits
  have h4 := h.planning_fits
  have h5 := h.preparation_fits
  subst hps hqs
  simp only [expectedPlanning, expectedPreparation, Fits, Option.map_eq_none_iff] at h4 h5
  refine ⟨?_, h4, h5, ?_⟩ <;> cases phase <;>
    simp_all [Fits, probeShape, applicationShape, expectedFinalizationLifecycles]

theorem application_alone (ha : application ≠ none) :
    probe = none ∧ finalization = none ∧ preparationState.active = false := by
  have h1 := h.probe_fits
  have h2 := h.application_fits
  have h3 := h.finalization_fits
  have h4 := h.phases
  refine ⟨?_, ?_, ?_⟩
  · cases phase <;> simp_all [Fits, probeShape, applicationShape]
  · cases phase <;> simp_all [Fits, applicationShape, expectedFinalizationLifecycles]
  · cases preparationState <;> cases phase <;>
      simp_all [Fits, applicationShape, preparationPhases, PreparationState.active]

theorem finalization_alone (hf : finalization ≠ none) :
    probe = none ∧ application = none ∧ preparationState = .prepared := by
  have h1 := h.probe_fits
  have h2 := h.application_fits
  have h3 := h.finalization_fits
  refine ⟨?_, ?_, h.prepared hf⟩
  · cases phase <;> simp_all [Fits, probeShape, expectedFinalizationLifecycles]
  · cases phase <;> simp_all [Fits, applicationShape, expectedFinalizationLifecycles]

theorem probe_phase {a : ProbeAction} (ha : probe = some a) :
    (a.lifecycle = .admitted ∧ phase = .probePending) ∨
    ((a.lifecycle = .dispatched ∨ a.lifecycle = .stopping) ∧ phase = .probing) ∨
    (a.lifecycle.failedLifecycle = true ∧ phase = .probeFailed) := by
  have hfit := h.probe_fits
  rw [ha] at hfit
  cases hs : phase <;> rw [hs] at hfit <;>
    simp only [Fits, probeShape, runningLifecycles, failedLifecycles, Option.map_some,
      Option.mem_def, Option.some.injEq, exists_eq_left', List.mem_cons, List.not_mem_nil,
      or_false, reduceCtorEq] at hfit
  · exact .inl ⟨hfit, rfl⟩
  · exact .inr (.inl ⟨hfit, rfl⟩)
  · exact .inr (.inr ⟨by rcases hfit with hl | hl | hl <;> rw [hl] <;> rfl, rfl⟩)

theorem application_phase {a : ApplicationAction} (ha : application = some a) :
    (a.lifecycle = .admitted ∧ phase = .applyPending) ∨
    ((a.lifecycle = .dispatched ∨ a.lifecycle = .stopping) ∧ phase = .applying) ∨
    (a.lifecycle.failedLifecycle = true ∧ phase = .applyFailed) := by
  have hfit := h.application_fits
  rw [ha] at hfit
  cases hs : phase <;> rw [hs] at hfit <;>
    simp only [Fits, applicationShape, runningLifecycles, failedLifecycles, Option.map_some,
      Option.mem_def, Option.some.injEq, exists_eq_left', List.mem_cons, List.not_mem_nil,
      or_false, reduceCtorEq] at hfit
  · exact .inl ⟨hfit, rfl⟩
  · exact .inr (.inl ⟨hfit, rfl⟩)
  · exact .inr (.inr ⟨by rcases hfit with hl | hl | hl <;> rw [hl] <;> rfl, rfl⟩)

theorem finalization_phase {a : FinalizationAction} (ha : finalization = some a) :
    (a.lifecycle = .admitted ∧ phase = .finalizePending) ∨
    ((a.lifecycle = .dispatched ∨ a.lifecycle = .resultPending) ∧ phase = .finalizing) ∨
    (a.lifecycle = .stopping ∧ phase = .finalizeStopping) ∨
    (a.lifecycle.failedLifecycle = true ∧ phase = .finalizeFailed) := by
  have hfit := h.finalization_fits
  rw [ha] at hfit
  cases hs : phase <;> rw [hs] at hfit <;>
    simp only [Fits, expectedFinalizationLifecycles, failedLifecycles, Option.map_some,
      Option.mem_def, Option.some.injEq, exists_eq_left', List.mem_cons, List.not_mem_nil,
      or_false, reduceCtorEq] at hfit
  · exact .inl ⟨hfit, rfl⟩
  · exact .inr (.inl ⟨hfit, rfl⟩)
  · exact .inr (.inr (.inl ⟨hfit, rfl⟩))
  · exact .inr (.inr (.inr ⟨by rcases hfit with hl | hl | hl <;> rw [hl] <;> rfl, rfl⟩))

theorem preparation_state {a : PreparationAction} (ha : preparation = some a) :
    (a.lifecycle = .admitted ∧ preparationState = .preparePending) ∨
    ((a.lifecycle = .dispatched ∨ a.lifecycle = .resultPending) ∧
      preparationState = .preparing) ∨
    (a.lifecycle = .stopping ∧ preparationState = .prepareStopping) ∨
    (a.lifecycle.terminal = true ∧ preparationState.active = false) := by
  have hfit := h.preparation_fits
  rw [ha] at hfit
  cases hs : preparationState <;> rw [hs] at hfit <;>
    simp only [Fits, expectedPreparation, failedLifecycles, Option.map_some, Option.mem_def,
      Option.some.injEq, exists_eq_left', List.mem_cons, List.not_mem_nil, or_false,
      reduceCtorEq] at hfit
  · exact .inl ⟨hfit, rfl⟩
  · exact .inr (.inl ⟨hfit, rfl⟩)
  · exact .inr (.inr (.inr ⟨by rw [hfit]; rfl, rfl⟩))
  · exact .inr (.inr (.inl ⟨hfit, rfl⟩))
  · exact .inr (.inr (.inr ⟨by rcases hfit with hl | hl | hl <;> rw [hl] <;> rfl, rfl⟩))

theorem probe_running {a : ProbeAction} (ha : probe = some a) (hp : phase = .probing) :
    a.lifecycle = .dispatched ∨ a.lifecycle = .stopping := by
  rcases h.probe_phase ha with ⟨-, hq⟩ | ⟨hl, -⟩ | ⟨-, hq⟩
  · simp [hp] at hq
  · exact hl
  · simp [hp] at hq

theorem application_running {a : ApplicationAction} (ha : application = some a)
    (hp : phase = .applying) : a.lifecycle = .dispatched ∨ a.lifecycle = .stopping := by
  rcases h.application_phase ha with ⟨-, hq⟩ | ⟨hl, -⟩ | ⟨-, hq⟩
  · simp [hp] at hq
  · exact hl
  · simp [hp] at hq

theorem probe_flying {a : ProbeAction} (ha : probe = some a)
    (hl : a.lifecycle = .dispatched ∨ a.lifecycle = .resultPending) :
    phase = .probing ∧ a.lifecycle = .dispatched := by
  rcases h.probe_phase ha with ⟨h1, -⟩ | ⟨h1, h2⟩ | ⟨h1, -⟩ <;>
    rcases hl with hl | hl <;> simp_all [ActionLifecycle.failedLifecycle]

theorem application_flying {a : ApplicationAction} (ha : application = some a)
    (hl : a.lifecycle = .dispatched ∨ a.lifecycle = .resultPending) :
    phase = .applying ∧ a.lifecycle = .dispatched := by
  rcases h.application_phase ha with ⟨h1, -⟩ | ⟨h1, h2⟩ | ⟨h1, -⟩ <;>
    rcases hl with hl | hl <;> simp_all [ActionLifecycle.failedLifecycle]

theorem preparation_flying {a : PreparationAction} (ha : preparation = some a)
    (hl : a.lifecycle = .dispatched ∨ a.lifecycle = .resultPending) :
    preparationState = .preparing := by
  rcases h.preparation_state ha with ⟨h1, -⟩ | ⟨-, h2⟩ | ⟨h1, -⟩ | ⟨h1, -⟩
  · rcases hl with hl | hl <;> simp [h1] at hl
  · exact h2
  · rcases hl with hl | hl <;> simp [h1] at hl
  · rcases hl with hl | hl <;> simp [hl, ActionLifecycle.terminal] at h1

theorem finalization_flying {a : FinalizationAction} (ha : finalization = some a)
    (hl : a.lifecycle = .dispatched ∨ a.lifecycle = .resultPending) : phase = .finalizing := by
  rcases h.finalization_phase ha with ⟨h1, -⟩ | ⟨-, h2⟩ | ⟨h1, -⟩ | ⟨h1, -⟩
  · rcases hl with hl | hl <;> simp [h1] at hl
  · exact h2
  · rcases hl with hl | hl <;> simp [h1] at hl
  · rcases hl with hl | hl <;> simp [hl, ActionLifecycle.failedLifecycle] at h1

theorem planning_running {p : PlanningAction} (hp : planning = some p) :
    (planningState = .planPending → p.lifecycle = .admitted) ∧
      (planningState = .planning → p.lifecycle = .dispatched) := by
  have hfit := h.planning_fits
  constructor <;> intro hs <;> rw [hp, hs] at hfit <;>
    simpa [Fits, expectedPlanning] using hfit

theorem pending_verifying (hp : preparationState = .preparePending) : phase = .verifying := by
  simpa [hp, preparationPhases] using h.phases

theorem preparation_isSome (hp : preparationState ≠ .prepareIdle) : ∃ a, preparation = some a := by
  have hfit := h.preparation_fits
  cases ha : preparation with
  | some a => exact ⟨a, rfl⟩
  | none =>
    rw [ha] at hfit
    cases hs : preparationState <;> rw [hs] at hfit hp <;>
      simp [Fits, expectedPreparation] at hfit hp

theorem finalization_isSome (hp : phase = .finalizePending) : ∃ a, finalization = some a := by
  have hfit := h.finalization_fits
  cases ha : finalization with
  | some a => exact ⟨a, rfl⟩
  | none => simp [ha, hp, Fits, expectedFinalizationLifecycles] at hfit

theorem active_alone (hq : preparationState.active = true) :
    probe = none ∧ application = none ∧ finalization = none := by
  refine ⟨?_, ?_, ?_⟩ <;> by_contra hne
  · simp [(h.probing hne).2, PreparationState.active] at hq
  · simp [(h.application_alone hne).2.2] at hq
  · simp [h.prepared hne, PreparationState.active] at hq

theorem preparation_pending {a : PreparationAction} (ha : preparation = some a)
    (hl : a.lifecycle = .admitted) : preparationState = .preparePending := by
  rcases h.preparation_state ha with ⟨-, hs⟩ | ⟨hl', -⟩ | ⟨hl', -⟩ | ⟨hl', -⟩
  · exact hs
  all_goals simp [hl, ActionLifecycle.terminal] at hl'

theorem preparation_settled (hq : preparationState.active = false) :
    ∀ a ∈ preparation, a.lifecycle.terminal = true := by
  rintro a rfl
  have hfit := h.preparation_fits
  cases preparationState <;>
    simp_all [Fits, expectedPreparation, PreparationState.active, failedLifecycles,
      ActionLifecycle.terminal]
  rcases hfit with hl | hl | hl <;> simp [hl]

end

end ControlAt

namespace State

variable {s : State}

theorem mem_mutators {w : WorkerAction} :
    w ∈ s.mutators ↔ (∃ a ∈ s.probe, a.toWorkerAction = w) ∨
      (∃ a ∈ s.application, a.toWorkerAction = w) ∨ (∃ a ∈ s.preparation, a.toWorkerAction = w) ∨
      ∃ a ∈ s.finalization, a.toWorkerAction = w := by
  simp [mutators]

theorem forall_mutators {P : WorkerAction → Prop} :
    (∀ w ∈ s.mutators, P w) ↔ (∀ a ∈ s.probe, P a.toWorkerAction) ∧
      (∀ a ∈ s.application, P a.toWorkerAction) ∧ (∀ a ∈ s.preparation, P a.toWorkerAction) ∧
      ∀ a ∈ s.finalization, P a.toWorkerAction := by
  simp only [mem_mutators, or_imp, forall_and, forall_exists_index, and_imp,
    forall_apply_eq_imp_iff₂]

theorem mem_actions {r : ActionRecord} :
    r ∈ s.actions ↔ (∃ a ∈ s.probe, .probe a = r) ∨ (∃ a ∈ s.application, .application a = r) ∨
      (∃ a ∈ s.planning, .planning a = r) ∨ (∃ a ∈ s.preparation, .preparation a = r) ∨
      ∃ a ∈ s.finalization, .finalization a = r := by
  simp [actions]

end State

namespace IdentitiesAt

variable {s : State} (h : s.Identities)
include h

theorem known {r : ActionRecord} (hr : r ∈ s.actions) :
    Known s.actionSequenceHighWater s.actionTombstones r := by
  rcases State.mem_actions.mp hr with ⟨a, ha, rfl⟩ | ⟨a, ha, rfl⟩ | ⟨a, ha, rfl⟩ | ⟨a, ha, rfl⟩ |
    ⟨a, ha, rfl⟩
  · exact h.probe a ha
  · exact h.application a ha
  · exact (h.planning a ha).1
  · exact (h.preparation a ha).1
  · exact (h.finalization a ha).1

theorem transition_le {t : TransitionId} (ht : t ∈ s.transitions) :
    t.sequence ≤ s.transitionSequenceHighWater := by
  simp only [State.transitions, List.mem_append, Option.mem_toList, Option.map_eq_some_iff] at ht
  rcases ht with (⟨a, ha, rfl⟩ | ⟨a, ha, rfl⟩) | ⟨a, ha, rfl⟩
  · exact (h.planning a ha).2
  · exact (h.preparation a ha).2
  · exact (h.finalization a ha).2

end IdentitiesAt

theorem ActionLifecycle.ne_of_terminal {l m : ActionLifecycle} (h : l.terminal = true)
    (hm : m.terminal = false) : l ≠ m := by
  rintro rfl
  simp [hm] at h

theorem ActionLifecycle.not_inFlight_of_terminal {l : ActionLifecycle} (h : l.terminal = true) :
    l.mutatingInFlight = false := by
  cases l <;> simp_all [terminal, mutatingInFlight]

namespace Sound

variable {s : State}

theorem checkPhaseRelationships (h : Sound s) : checkPhaseRelationships s = .ok ⟨⟩ := by
  unfold MonitorController.checkPhaseRelationships
  split
  · rfl
  · simp only [Outcome.seq_eq_ok, checkSlot_eq_ok]
    exact ⟨h.control.probe_fits.of_probeShape, h.control.application_fits.of_applicationShape,
      h.control.finalization_fits⟩

theorem checkPlanningRelationships (h : Sound s) : checkPlanningRelationships s = .ok ⟨⟩ := by
  unfold MonitorController.checkPlanningRelationships
  split
  · rfl
  · simp only [Outcome.seq_eq_ok, checkSlot_eq_ok, require_eq_ok]
    refine ⟨h.control.planning_fits, h.desktop.staged, h.control.preparation_fits, ?_, ?_, ?_,
      h.desktop.baseline⟩
    · intro a ha
      obtain ⟨p, hp, -⟩ := h.desktop.planned a ha
      refine ⟨by simp [Option.mem_def.mp hp], h.control.ready fun hi => ?_⟩
      have hfit := h.control.preparation_fits
      rw [hi, Option.mem_def.mp ha] at hfit
      cases hfit
    · intro a ha
      obtain ⟨p, hp, hash, -⟩ := h.desktop.planned a ha
      exact ⟨p, hp, hash⟩
    · intro a ha
      obtain ⟨p, hp, -, same⟩ := h.desktop.planned a ha
      exact ⟨p, hp, same⟩

theorem actions_nodup : (s.actions.map (·.actionId)).Nodup := by
  have hkinds : (s.actions.map (·.actionId.kind)).Nodup := by
    cases hp : s.probe <;> cases ha : s.application <;> cases hl : s.planning <;>
      cases hq : s.preparation <;> cases hf : s.finalization <;>
      simp [State.actions, hp, ha, hl, hq, hf, ActionRecord.actionId, ProbeAction.kind_probe,
        ApplicationAction.kind_application, PlanningAction.kind_plan,
        PreparationAction.kind_preparation, FinalizationAction.kind_finalization]
  have : s.actions.map (·.actionId.kind) = (s.actions.map (·.actionId)).map (·.kind) := by simp
  exact (this ▸ hkinds).of_map _

theorem checkActionIdentities (h : Sound s) : checkActionIdentities s = .ok ⟨⟩ := by
  have hi := h.identities
  simp only [MonitorController.checkActionIdentities, hi.recoveryUnits, Outcome.seq_eq_ok,
    Outcome.forM_eq_ok, require_eq_ok, checkActionId, checkTombstone, List.forall_mem_map]
  refine ⟨actions_nodup, fun r hr _ => (hi.known hr).bounded, hi.tidy,
    fun t ht _ => hi.buried t ht, ?_, by simp, by simp, by simp, ?_⟩
  · intro r hr
    have hb := (hi.known hr).buried
    exact ⟨fun hterminal => (State.epitaph_eq_some hi.tidy).mpr ((hb _).mpr ⟨hterminal, rfl⟩),
      fun l hl => (hb l).mp ((State.epitaph_eq_some hi.tidy).mp hl)⟩
  · have ht : forM s.transitions (checkTransitionId s) = .ok ⟨⟩ := by
      simp only [Outcome.forM_eq_ok, checkTransitionId, require_eq_ok]
      exact fun t ht _ => hi.transition_le ht
    split
    · exact Outcome.seq_eq_ok.mpr ⟨rfl, ht⟩
    · exact ht

theorem worker (h : Sound s) {w : WorkerAction} (hw : w ∈ s.mutators) :
    WorkerAt s.eventGeneration w := by
  rcases State.mem_mutators.mp hw with ⟨a, ha, rfl⟩ | ⟨a, ha, rfl⟩ | ⟨a, ha, rfl⟩ | ⟨a, ha, rfl⟩
  · exact (h.attempts.probe a ha).1
  · exact (h.attempts.application a ha).1
  · exact h.attempts.preparation a ha
  · exact h.attempts.finalization a ha

/-- At most one display mutation is in flight. -/
theorem exclusive (h : Sound s) :
    (s.mutators.filter (·.lifecycle.mutatingInFlight)).length ≤ 1 := by
  have settled : s.preparationState.active = false → ∀ a ∈ s.preparation,
      a.lifecycle.mutatingInFlight = false := fun hq a ha =>
    ActionLifecycle.not_inFlight_of_terminal (h.control.preparation_settled hq a ha)
  have le_one : ∀ o : Option WorkerAction,
      (o.toList.filter (·.lifecycle.mutatingInFlight)).length ≤ 1 := by
    rintro (- | w)
    · simp
    · exact List.length_filter_le _ _
  by_cases hp : s.probe = none
  · by_cases ha : s.application = none
    · by_cases hf : s.finalization = none
      · simpa [State.mutators, hp, ha, hf] using le_one (s.preparation.map (·.toWorkerAction))
      · have hq := settled (by rw [(h.control.finalization_alone hf).2.2]; rfl)
        have := le_one (s.finalization.map (·.toWorkerAction))
        cases hs : s.preparation with
        | none => simpa [State.mutators, hp, ha, hs] using this
        | some a => simpa [State.mutators, hp, ha, hs, hq a hs] using this
    · obtain ⟨-, hf, hq⟩ := h.control.application_alone ha
      have := le_one (s.application.map (·.toWorkerAction))
      cases hs : s.preparation with
      | none => simpa [State.mutators, hp, hf, hs] using this
      | some a => simpa [State.mutators, hp, hf, hs, settled hq a hs] using this
  · obtain ⟨ha, -, hq, hf⟩ := h.control.probe_alone hp
    simpa [State.mutators, ha, hq, hf] using le_one (s.probe.map (·.toWorkerAction))

theorem checkAcknowledged (h : Sound s) (u d : String) {w : WorkerAction} (hw : w ∈ s.mutators) :
    checkAcknowledged u d w = .ok ⟨⟩ := by
  simp only [MonitorController.checkAcknowledged, Outcome.seq_eq_ok, require_eq_ok]
  exact ⟨fun hl => ((h.worker hw).unit hl).1, fun hl => ((h.worker hw).unit hl).2⟩

theorem checkWorkerAcknowledgements (h : Sound s) :
    checkWorkerAcknowledgements s = .ok ⟨⟩ := by
  simp only [MonitorController.checkWorkerAcknowledgements, Outcome.seq_eq_ok,
    Outcome.forM_eq_ok, require_eq_ok]
  exact ⟨h.exclusive, fun w hw => h.checkAcknowledged _ _ hw⟩

theorem checkObservationAuthority (h : Sound s) : checkObservationAuthority s = .ok ⟨⟩ := by
  unfold MonitorController.checkObservationAuthority
  cases ho : s.latestObservation with
  | none => rfl
  | some o =>
    simp only [Outcome.seq_eq_ok, require_eq_ok]
    refine ⟨h.evidence.boot o ho, h.evidence.generation o ho, h.evidence.event o ho,
      h.selection.epoch, fun c hc he => h.selection.scope o ho he.1 c hc he.2, ?_⟩
    rintro ⟨-, -, -, hu⟩
    exact h.wake (by cases hp : s.phase <;> simp_all [unresolvedPhase, unwoken])

theorem checkApplicationAuthorization (h : Sound s) {a : ApplicationAction}
    (ha : a ∈ s.application) : checkApplicationAuthorization s a = .ok ⟨⟩ := by
  have apart : ∀ o ∈ s.latestObservation, ¬ (o.hasExternalHardware = true ∧
      a.scope = .internalOnly) := fun o ho he => h.inScope o ho he.1 a ha he.2
  simp only [MonitorController.checkApplicationAuthorization, Outcome.seq_eq_ok, require_eq_ok]
  refine ⟨(h.attempts.application a ha).1.admitted, apart, ?_⟩
  split
  next hfresh =>
    have hl : a.lifecycle = .admitted := by
      have := h.control.application_fits
      rw [hfresh.1, Option.mem_def.mp ha] at this
      simpa [Fits, applicationShape] using this
    obtain ⟨hm, hk, he⟩ := h.pending.application a ha hl
    simp only [Outcome.seq_eq_ok, require_eq_ok]
    exact ⟨he, hm, hk⟩
  next => rfl

theorem checkProbeAuthorization (h : Sound s) {a : ProbeAction} (ha : a ∈ s.probe) :
    checkProbeAuthorization s a = .ok ⟨⟩ := by
  simp only [MonitorController.checkProbeAuthorization, Outcome.seq_eq_ok, require_eq_ok]
  refine ⟨(h.attempts.probe a ha).1.admitted, ?_⟩
  split
  next hfresh =>
    have hl : a.lifecycle = .admitted := by
      have := h.control.probe_fits
      rw [hfresh.1, Option.mem_def.mp ha] at this
      simpa [Fits, probeShape] using this
    obtain ⟨hk, o, ho, hv, hkey, hg, hc⟩ := h.pending.probe a ha hl
    simp only [Outcome.seq_eq_ok, require_eq_ok]
    exact ⟨⟨o, ho, hv, hkey, hg⟩, hk, o, ho, hc⟩
  next => rfl

theorem checkPreparationAuthorization (h : Sound s) {a : PreparationAction}
    (ha : a ∈ s.preparation) : checkPreparationAuthorization s a = .ok ⟨⟩ := by
  simp only [MonitorController.checkPreparationAuthorization, Outcome.seq_eq_ok, require_eq_ok]
  refine ⟨(h.attempts.preparation a ha).admitted, ?_⟩
  split
  next hfresh =>
    have hl : a.lifecycle = .admitted := by
      have := h.control.preparation_fits
      rw [hfresh.1, Option.mem_def.mp ha] at this
      simpa [Fits, expectedPreparation] using this
    obtain ⟨hproven, o, ho, he, hg⟩ := h.pending.preparation a ha hl
    simp only [Outcome.seq_eq_ok, require_eq_ok]
    exact ⟨⟨o, ho, he.valid, he.key, hg, he.exact, he.current⟩, hproven⟩
  next => rfl

theorem checkFinalizationAuthorization (h : Sound s) {a : FinalizationAction}
    (ha : a ∈ s.finalization) : checkFinalizationAuthorization s a = .ok ⟨⟩ := by
  have hq := h.control.prepared (by simp [Option.mem_def.mp ha])
  obtain ⟨q, hqs, hsame⟩ := h.desktop.prepared a ha
  have hql : q.lifecycle = .completed := by
    have := h.control.preparation_fits
    rw [hq, Option.mem_def.mp hqs] at this
    simpa [Fits, expectedPreparation] using this
  simp only [MonitorController.checkFinalizationAuthorization, Outcome.seq_eq_ok, require_eq_ok]
  refine ⟨⟨q, hqs, hq, hql⟩, ⟨q, hqs, hsame⟩, (h.attempts.finalization a ha).admitted, ?_⟩
  split
  next hfresh =>
    have hl : a.lifecycle = .admitted := by
      have := h.control.finalization_fits
      rw [hfresh.1, Option.mem_def.mp ha] at this
      simpa [Fits, expectedFinalizationLifecycles] using this
    obtain ⟨hproven, o, ho, he, hg⟩ := h.pending.finalization a ha hl
    have hbase : s.baselineAdoption = false := by
      by_contra hb
      have := h.desktop.baseline (by simpa using hb)
      simp [hq] at this
    simp only [Outcome.seq_eq_ok, require_eq_ok]
    exact ⟨⟨o, ho, he.valid, he.key, hg, he.exact, he.current⟩, hproven, hbase⟩
  next => rfl

theorem checkActionAuthorization (h : Sound s) : checkActionAuthorization s = .ok ⟨⟩ := by
  simp only [MonitorController.checkActionAuthorization, Outcome.seq_eq_ok, Outcome.forM_eq_ok,
    Option.mem_toList]
  exact ⟨fun a ha => h.checkApplicationAuthorization ha, fun a ha => h.checkProbeAuthorization ha,
    fun a ha => h.checkPreparationAuthorization ha,
    fun a ha => h.checkFinalizationAuthorization ha⟩

theorem checkNumberedSafetyRules (h : Sound s) : checkNumberedSafetyRules s = .ok ⟨⟩ := by
  have hmapped : ∀ a ∈ s.application, a.profile = a.mapping.profile ∧ a.key.profile = a.profile :=
    fun a _ => ⟨a.profile_mapping.symm, a.profile_key⟩
  have hverified : s.phase = .verifying ∧ s.verifySinceMs ≠ none →
      ∃ o ∈ s.latestObservation, o.valid = true ∧ ∃ c ∈ s.candidate,
        o.exactProfile = some c.profile ∧ c.profile ∈ o.currentProfiles ∧
        o.observationKey = c.observationKey := by
    rintro ⟨hp, hv⟩
    obtain ⟨o, ho, c, hc, he⟩ := h.verified hp hv
    exact ⟨o, ho, he.valid, c, hc, he.exact, he.current, he.key⟩
  have hunplug : s.unplugProof ≠ none → s.externalIntent = true := by
    intro hu
    obtain ⟨p, hp⟩ := Option.ne_none_iff_exists'.mp hu
    exact (h.unplug p hp).1
  simp only [MonitorController.checkNumberedSafetyRules]
  split
  next hprobe =>
    obtain ⟨-, hl, hq, hf⟩ := h.control.probe_alone hprobe.1
    simp only [Outcome.seq_eq_ok, Outcome.forM_eq_ok, require_eq_ok]
    exact ⟨h.selection.scope, h.inScope, h.selection.probing hprobe.1, hl, ⟨hq, hf⟩, hmapped,
      hverified, fun w hw => h.checkAcknowledged _ _ hw, h.desktop.unfinalized, hunplug,
      fun p _ => p.counted⟩
  next =>
    simp only [Outcome.seq_eq_ok, Outcome.forM_eq_ok, require_eq_ok]
    exact ⟨h.selection.scope, h.inScope, hmapped, hverified,
      fun w hw => h.checkAcknowledged _ _ hw, h.desktop.unfinalized, hunplug,
      fun p _ => p.counted⟩

theorem checkAttemptHistory (h : Sound s) : checkAttemptHistory s = .ok ⟨⟩ := by
  simp only [MonitorController.checkAttemptHistory, Outcome.seq_eq_ok, require_eq_ok]
  exact ⟨fun a ha _ => (h.attempts.probe a ha).2, fun a ha _ => (h.attempts.application a ha).2⟩

theorem checked (h : Sound s) : assertControllerInvariants s = .ok ⟨⟩ := by
  simp only [assertControllerInvariants, Outcome.seq_eq_ok]
  exact ⟨h.checkPhaseRelationships, h.checkPlanningRelationships, h.checkActionIdentities,
    h.checkWorkerAcknowledgements, h.checkObservationAuthority, h.checkActionAuthorization,
    h.checkNumberedSafetyRules, h.checkAttemptHistory⟩

end Sound

end MonitorController
