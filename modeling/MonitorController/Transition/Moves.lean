import MonitorController.Reducer.Reduce
import MonitorController.Transition.Tombstones

/-! # Moves

The total counterparts of the reducer's partial helpers, as functions of the
state, and `Decides`: the reducer decides once, on a state it then checks.
-/

namespace MonitorController

namespace ActionRecord

def kind : ActionRecord → ActionKind
  | .probe _ => .probe
  | .application _ => .application
  | .planning _ => .plan
  | .preparation _ => .preparation
  | .finalization _ => .finalization

theorem kind_eq (r : ActionRecord) : r.actionId.kind = r.kind := by
  cases r with
  | probe a => exact a.kind_probe
  | application a => exact a.kind_application
  | planning a => exact a.kind_plan
  | preparation a => exact a.kind_preparation
  | finalization a => exact a.kind_finalization

end ActionRecord

namespace State

variable (s : State)

def slot : ActionKind → Option ActionRecord
  | .probe => s.probe.map .probe
  | .application => s.application.map .application
  | .plan => s.planning.map .planning
  | .preparation => s.preparation.map .preparation
  | .finalization => s.finalization.map .finalization

def timed (deadlineMs : Nat) : State := { s with nextTimerMs := some deadlineMs }

/-- A slot is emptied; a display worker leaves the phase for rediscovery. -/
def clearSlot : ActionKind → State
  | .probe => { s with phase := .discoverFast, probe := none }
  | .application => { s with phase := .discoverFast, application := none }
  | .plan => { s with planningState := .planIdle, planning := none }
  | .preparation => { s with preparationState := .prepareIdle, preparation := none }
  | .finalization => { s with phase := .discoverFast, finalization := none }

def retire (r : ActionRecord) (lifecycle : ActionLifecycle) : State :=
  (s.bury r.actionId lifecycle).clearSlot r.kind

/-- The tombstones once a plan which still runs is cancelled. -/
def planTombstones : List ActionTombstone :=
  match s.planning with
  | none => s.actionTombstones
  | some p =>
    if p.lifecycle.terminal then s.actionTombstones else s.burial p.actionId .cancelled

/-- The recovery units once a plan which still runs is cancelled. -/
def planUnits : List WorkerUnit :=
  match s.planning with
  | none => s.recoveryUnits
  | some p =>
    if p.lifecycle.terminal then s.recoveryUnits
    else s.recoveryUnits.filter (·.actionId ≠ p.actionId)

/-- The plan is dropped, with a tombstone when it was still running. -/
def dropPlan : State :=
  { s with
    planningState := .planIdle
    preparationState := .prepareIdle
    planning := none
    preparation := none
    actionTombstones := s.planTombstones
    recoveryUnits := s.planUnits }

/-- The effect which removes the artifacts of a dropped plan. -/
def planDiscards : List Effect := (s.planning.map (·.discard)).toList

/-- An action which was never launched is buried; its slot stays. -/
def buryAdmitted (w : Option WorkerAction) : State :=
  { s with
    actionTombstones :=
      match w with
      | none => s.actionTombstones
      | some w =>
        if w.lifecycle = .admitted then s.burial w.actionId .cancelled else s.actionTombstones
    recoveryUnits :=
      match w with
      | none => s.recoveryUnits
      | some w =>
        if w.lifecycle = .admitted then s.recoveryUnits.filter (·.actionId ≠ w.actionId)
        else s.recoveryUnits }

/-- A new topology drops the plan and buries every unlaunched action. -/
def epochBurial : State :=
  ((s.dropPlan.buryAdmitted (s.probe.map (·.toWorkerAction))).buryAdmitted
    (s.application.map (·.toWorkerAction))).buryAdmitted (s.finalization.map (·.toWorkerAction))

/-- The first topology of a start-up may be adopted as the baseline. -/
def adoptsBaseline : Bool :=
  s.phase = .recovering && s.desktopFinalizedProfile = none && !s.desktopFinalizationRequired

def enterEpoch (o : CanonicalObservation) (nowMs : Nat) : State :=
  { s with
    planningState := .planIdle
    preparationState := .prepareIdle
    planning := none
    preparation := none
    actionTombstones := s.epochBurial.actionTombstones
    recoveryUnits := s.epochBurial.recoveryUnits
    phase := .discoverFast
    physicalEpoch := s.physicalEpoch + 1
    physicalToken := some o.physicalToken
    reconcileEpoch := s.reconcileEpoch + 1
    candidate := none
    aggressiveDeadlineMs := some (nowMs + aggressiveBudgetMs)
    backoffIndex := 0
    verifySinceMs := none
    stableXProfile := none
    attemptedProbeKeys := ∅
    probe := none
    attemptedApplicationKeys := ∅
    immediateRetryUsedProfiles := ∅
    application := none
    finalization := none
    unknownKey := none
    unknownSinceMs := none
    unplugProof := none
    baselineAdoption := s.adoptsBaseline
    requirement := fun h => ⟨(s.requirement h).1, by simp [adoptsBaseline, h]⟩ }

variable {s}

theorem Tidy.dropPlan (h : s.Tidy) : s.dropPlan.Tidy := by
  change (s.planTombstones.map (·.actionId)).Nodup
  unfold planTombstones
  split
  · exact h
  · split
    · exact h
    · exact h.burial _ _

theorem Tidy.buryAdmitted (h : s.Tidy) (w : Option WorkerAction) : (s.buryAdmitted w).Tidy := by
  unfold Tidy State.buryAdmitted
  dsimp only
  split
  · exact h
  · split
    · exact h.burial _ _
    · exact h

theorem Tidy.retire (h : s.Tidy) (r : ActionRecord) (l : ActionLifecycle) :
    (s.retire r l).Tidy := by
  have hb := h.bury r.actionId l
  cases r <;> exact hb

theorem Tidy.discardPlanning_eq (h : s.Tidy) :
    discardPlanning s = .ok (s.dropPlan, s.planDiscards) := by
  unfold discardPlanning State.dropPlan planTombstones planUnits planDiscards
  cases hp : s.planning with
  | none => rfl
  | some p =>
    cases hl : p.lifecycle.terminal with
    | true => simp only [hl]; rfl
    | false => simp only [hl, h.appendTombstone_eq p.actionId (l := .cancelled) rfl]; rfl

theorem Tidy.cancelAdmitted_eq (h : s.Tidy) (w : Option WorkerAction) :
    cancelAdmitted s w = .ok (s.buryAdmitted w) := by
  unfold cancelAdmitted State.buryAdmitted
  cases w with
  | none => rfl
  | some w =>
    by_cases hl : w.lifecycle = .admitted
    · simp only [hl, if_true, h.appendTombstone_eq w.actionId (l := .cancelled) rfl]; rfl
    · simp only [hl, if_false]

theorem dropPlan_with_phase (phase : ControllerPhase) :
    ({ s with phase := phase } : State).dropPlan = { s.dropPlan with phase := phase } := rfl

theorem Tidy.enterEpoch (h : s.Tidy) (o : CanonicalObservation) (nowMs : Nat) :
    (s.enterEpoch o nowMs).Tidy := by
  have hb : s.epochBurial.Tidy := ((h.dropPlan.buryAdmitted _).buryAdmitted _).buryAdmitted _
  exact hb

/-- `_reset_for_epoch` never fails. -/
theorem Tidy.resetForEpoch_eq (h : s.Tidy) (o : CanonicalObservation) (nowMs : Nat) :
    resetForEpoch s o nowMs = .ok (s.enterEpoch o nowMs, s.planDiscards) := by
  have h1 := h.dropPlan
  have h2 := h1.buryAdmitted (s.probe.map (·.toWorkerAction))
  have h3 := h2.buryAdmitted (s.application.map (·.toWorkerAction))
  unfold resetForEpoch
  rw [h.discardPlanning_eq, Outcome.ok_bind]
  dsimp only
  rw [show s.dropPlan.probe = s.probe from rfl, h1.cancelAdmitted_eq, Outcome.ok_bind]
  rw [show (s.dropPlan.buryAdmitted (s.probe.map (·.toWorkerAction))).application = s.application
    from rfl, h2.cancelAdmitted_eq, Outcome.ok_bind]
  rw [show ((s.dropPlan.buryAdmitted (s.probe.map (·.toWorkerAction))).buryAdmitted
    (s.application.map (·.toWorkerAction))).finalization = s.finalization from rfl,
    h3.cancelAdmitted_eq, Outcome.ok_bind]
  rfl

end State

/-- The computation decides on one state, which is then checked. -/
def Decides (x : Result Decision) (R : Decision → Prop) : Prop :=
  ∃ d, R d ∧ x = decision d.state d.effects

namespace Decides

variable {R Q : Decision → Prop} {x : Result Decision}

theorem of_decision {s : State} {es : List Effect} (h : R ⟨s, es⟩) : Decides (decision s es) R :=
  ⟨_, h, rfl⟩

theorem of_ok (h : Decides x R) {d : Decision} (hx : x = .ok d) : R d := by
  obtain ⟨d', hd, heq⟩ := h
  rw [heq, decision] at hx
  obtain ⟨u, -, hok⟩ := Outcome.bind_eq_ok.mp hx
  exact Except.ok.inj hok ▸ hd

theorem mono (h : Decides x R) (hq : ∀ d, R d → Q d) : Decides x Q := by
  obtain ⟨d, hd, rfl⟩ := h
  exact ⟨d, hq d hd, rfl⟩

theorem decision_decision {s : State} {es : List Effect} (fs : Decision → List Effect) :
    (do let d ← decision s es; decision d.state (fs d)) = decision s (fs ⟨s, es⟩) := by
  unfold decision
  cases h : assertControllerInvariants s with
  | error e => rfl
  | ok u => simp only [Outcome.ok_bind, h]

theorem behind (h : Decides x R) (es : List Effect) :
    Decides (do let d ← x; decision d.state (es ++ d.effects))
      fun d => ∃ d', R d' ∧ d = ⟨d'.state, es ++ d'.effects⟩ := by
  obtain ⟨d, hd, rfl⟩ := h
  exact ⟨_, ⟨d, hd, rfl⟩, decision_decision _⟩

end Decides

end MonitorController
