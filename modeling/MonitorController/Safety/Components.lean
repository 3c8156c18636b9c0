import MonitorController.Transition.Workers

/-! # Components of the invariant

What each group of the invariant asks of a changed slot. A slot is only changed
in the presence of its own action, which decides every other slot.
-/

namespace MonitorController

/-- The phases in which no display worker is admitted, running or failed. -/
def ControllerPhase.workless : ControllerPhase → Bool
  | .quiescent | .discoverFast | .verifying | .waitSlow | .unsupported => true
  | _ => false

namespace ActionLifecycle

theorem live_of_inFlight {l : ActionLifecycle} (h : l.mutatingInFlight = true) :
    l.terminal = false := by
  cases l <;> simp_all [mutatingInFlight, terminal]

variable {l : ActionLifecycle} (h : l.failedLifecycle = true)
include h

theorem terminal_of_failed : l.terminal = true := by
  cases l <;> simp_all [failedLifecycle, terminal]

theorem fits_failed : Fits (some l) (some failedLifecycles) :=
  ⟨l, rfl, by cases l <;> simp_all [failedLifecycle, failedLifecycles]⟩

end ActionLifecycle

namespace ControlAt

variable {phase phase' : ControllerPhase} {planningState planningState' : PlanningState}
  {preparationState preparationState' : PreparationState} {probe probe' : Option ProbeAction}
  {application application' : Option ApplicationAction}
  {planning planning' : Option PlanningAction}
  {preparation preparation' : Option PreparationAction}
  {finalization finalization' : Option FinalizationAction}

theorem fits_workless (hp : phase.workless = true) :
    Fits none (probeShape phase) ∧ Fits none (applicationShape phase) ∧
      Fits none (expectedFinalizationLifecycles phase) ∧ phase ≠ .recovering := by
  cases phase <;>
    simp_all [ControllerPhase.workless, probeShape, applicationShape,
      expectedFinalizationLifecycles, Fits]

theorem planning_live (h : ControlAt phase planningState preparationState probe application
      planning preparation finalization) {p : PlanningAction} (hp : planning = some p)
    (hl : p.lifecycle.terminal = false) :
    planningState ≠ .planIdle ∧ preparationState = .prepareIdle := by
  have hfit := h.planning_fits
  have hne : planningState ≠ .planReady ∧ planningState ≠ .planIdle := by
    constructor <;> rintro rfl <;>
      simp_all [Fits, expectedPlanning, ActionLifecycle.terminal]
  exact ⟨hne.2, by_contra fun hs => hne.1 (h.ready hs)⟩

theorem preparation_live (h : ControlAt phase planningState preparationState probe application
      planning preparation finalization) {a : PreparationAction} (ha : preparation = some a)
    (hl : a.lifecycle.terminal = false) : preparationState.active = true := by
  rcases h.preparation_state ha with ⟨-, hs⟩ | ⟨-, hs⟩ | ⟨-, hs⟩ | ⟨ht, -⟩
  · rw [hs]; rfl
  · rw [hs]; rfl
  · rw [hs]; rfl
  · simp [hl] at ht

theorem vacant (hp : phase.workless = true)
    (hplan : Fits (planning.map (·.lifecycle)) (expectedPlanning planningState))
    (hprep : Fits (preparation.map (·.lifecycle)) (expectedPreparation preparationState))
    (hphases : preparationPhases preparationState phase = true)
    (hready : preparationState ≠ .prepareIdle → planningState = .planReady) :
    ControlAt phase planningState preparationState none none planning preparation none where
  probe_fits := (fits_workless hp).1
  application_fits := (fits_workless hp).2.1
  finalization_fits := (fits_workless hp).2.2.1
  planning_fits := hplan
  preparation_fits := hprep
  recovering := fun h => absurd h (fits_workless hp).2.2.2
  probing := fun h => absurd rfl h
  phases := hphases
  ready := hready
  prepared := fun h => absurd rfl h

theorem preparationPhases_of_inactive (h : preparationState.active = false) :
    preparationPhases preparationState phase = true := by
  cases preparationState <;> simp_all [preparationPhases, PreparationState.active]

section

variable (h : ControlAt phase planningState preparationState probe application planning
  preparation finalization)
include h

theorem not_recovering (hs : probe ≠ none ∨ application ≠ none ∨ finalization ≠ none ∨
      planningState ≠ .planIdle ∨ preparationState ≠ .prepareIdle) : phase ≠ .recovering := by
  rintro rfl
  have h1 := h.probe_fits
  have h2 := h.application_fits
  have h3 := h.finalization_fits
  obtain ⟨h4, h5⟩ := h.recovering rfl
  simp_all [Fits, probeShape, applicationShape, expectedFinalizationLifecycles]

theorem worker_free (hp : phase.workless = true) :
    probe = none ∧ application = none ∧ finalization = none := by
  have h1 := h.probe_fits
  have h2 := h.application_fits
  have h3 := h.finalization_fits
  cases phase <;>
    simp_all [ControllerPhase.workless, probeShape, applicationShape,
      expectedFinalizationLifecycles, Fits]

omit h in
theorem workless_of_reopened (hp : reopenedByHint phase = true) (hf : phase ≠ .finalizePending) :
    phase.workless = true := by
  cases phase <;> simp_all [reopenedByHint, ControllerPhase.workless]

theorem active_phase (hactive : preparationState.active = true) :
    phase = .verifying ∨ phase = .discoverFast := by
  have hphases := h.phases
  cases preparationState <;> simp_all [PreparationState.active, preparationPhases]

theorem rephase (hprobe : probe = none) (happ : application = none) (hfin : finalization = none)
    (hp : phase'.workless = true) (hphases : preparationPhases preparationState phase' = true) :
    ControlAt phase' planningState preparationState probe application planning preparation
      finalization := by
  subst hprobe happ hfin
  exact vacant hp h.planning_fits h.preparation_fits hphases h.ready

theorem abandon (hfin : finalization = none) :
    ControlAt phase .planIdle .prepareIdle probe application none none finalization where
  probe_fits := h.probe_fits
  application_fits := h.application_fits
  finalization_fits := h.finalization_fits
  planning_fits := rfl
  preparation_fits := rfl
  recovering := fun _ => ⟨rfl, rfl⟩
  probing := fun _ => ⟨rfl, rfl⟩
  phases := rfl
  ready := fun hne => absurd rfl hne
  prepared := fun hne => absurd hfin hne

theorem probe_at (hprobe : probe ≠ none)
    (hfit : Fits (probe'.map (·.lifecycle)) (probeShape phase'))
    (happ : applicationShape phase' = none) (hfin : expectedFinalizationLifecycles phase' = none)
    (hrec : phase' ≠ .recovering) :
    ControlAt phase' planningState preparationState probe' application planning preparation
      finalization := by
  obtain ⟨hidle, hidle'⟩ := h.probing hprobe
  obtain ⟨h1, h2, h3, h4⟩ := h.probe_alone hprobe
  subst h1 h2 h3 h4 hidle hidle'
  exact {
    probe_fits := hfit
    application_fits := by rw [happ]; rfl
    finalization_fits := by rw [hfin]; rfl
    planning_fits := h.planning_fits
    preparation_fits := h.preparation_fits
    recovering := fun hp => absurd hp hrec
    probing := fun _ => ⟨rfl, rfl⟩
    phases := rfl
    ready := fun hne => absurd rfl hne
    prepared := fun hne => absurd rfl hne }

theorem application_at (happ : application ≠ none)
    (hfit : Fits (application'.map (·.lifecycle)) (applicationShape phase'))
    (hprobe : probeShape phase' = none) (hfin : expectedFinalizationLifecycles phase' = none)
    (hrec : phase' ≠ .recovering) :
    ControlAt phase' planningState preparationState probe application' planning preparation
      finalization := by
  obtain ⟨h1, h2, hactive⟩ := h.application_alone happ
  subst h1 h2
  exact {
    probe_fits := by rw [hprobe]; rfl
    application_fits := hfit
    finalization_fits := by rw [hfin]; rfl
    planning_fits := h.planning_fits
    preparation_fits := h.preparation_fits
    recovering := fun hp => absurd hp hrec
    probing := fun hne => absurd rfl hne
    phases := preparationPhases_of_inactive hactive
    ready := h.ready
    prepared := fun hne => absurd rfl hne }

theorem finalization_at (hne : finalization ≠ none)
    (hfit : Fits (finalization'.map (·.lifecycle)) (expectedFinalizationLifecycles phase'))
    (hprobe : probeShape phase' = none) (happ : applicationShape phase' = none)
    (hrec : phase' ≠ .recovering) :
    ControlAt phase' planningState preparationState probe application planning preparation
      finalization' := by
  obtain ⟨h1, h2, hprep⟩ := h.finalization_alone hne
  subst h1 h2 hprep
  exact {
    probe_fits := by rw [hprobe]; rfl
    application_fits := by rw [happ]; rfl
    finalization_fits := hfit
    planning_fits := h.planning_fits
    preparation_fits := h.preparation_fits
    recovering := fun hp => absurd hp hrec
    probing := fun hp => absurd rfl hp
    phases := rfl
    ready := h.ready
    prepared := fun _ => rfl }

theorem preparation_at (hactive : preparationState.active = true)
    (hfit : Fits (preparation'.map (·.lifecycle)) (expectedPreparation preparationState'))
    (hp : phase'.workless = true) (hphases : preparationPhases preparationState' phase' = true) :
    ControlAt phase' planningState preparationState' probe application planning preparation'
      finalization := by
  obtain ⟨h1, h2, h3⟩ := h.active_alone hactive
  subst h1 h2 h3
  refine vacant hp h.planning_fits hfit hphases fun _ => h.ready ?_
  rintro rfl
  simp [PreparationState.active] at hactive

theorem planning_at (hidle : planningState ≠ .planIdle)
    (hfit : Fits (planning'.map (·.lifecycle)) (expectedPlanning planningState'))
    (hready : preparationState ≠ .prepareIdle → planningState' = .planReady) :
    ControlAt phase planningState' preparationState probe application planning' preparation
      finalization where
  probe_fits := h.probe_fits
  application_fits := h.application_fits
  finalization_fits := h.finalization_fits
  planning_fits := hfit
  preparation_fits := h.preparation_fits
  recovering := fun hp => absurd (h.recovering hp).1 hidle
  probing := fun hp => absurd (h.probing hp).1 hidle
  phases := h.phases
  ready := hready
  prepared := h.prepared

end

end ControlAt

namespace Known

variable {high : Nat} {tombstones : List ActionTombstone} {r r' : ActionRecord}

theorem continues (h : Known high tombstones r) (hid : r'.actionId = r.actionId)
    (hr : r.lifecycle.terminal = false) (hr' : r'.lifecycle.terminal = false) :
    Known high tombstones r' where
  bounded := hid ▸ h.bounded
  buried l := by
    rw [hid, h.buried l]
    simp [hr, hr']

theorem congr (h : Known high tombstones r) (hid : r'.actionId = r.actionId)
    (hl : r'.lifecycle = r.lifecycle) : Known high tombstones r' where
  bounded := hid ▸ h.bounded
  buried l := by rw [hid, hl, h.buried l]

theorem mono {high' : Nat} (h : Known high tombstones r) (hle : high ≤ high') :
    Known high' tombstones r :=
  ⟨h.bounded.trans hle, h.buried⟩

theorem fresh (hb : ∀ t ∈ tombstones, t.actionId.sequence ≤ high)
    (hs : r.actionId.sequence = high + 1) (hl : r.lifecycle.terminal = false) :
    Known (high + 1) tombstones r where
  bounded := hs.le
  buried l := by
    simp only [hl, Bool.false_eq_true, false_and, iff_false]
    rintro ⟨t, ht, hid, -⟩
    have := hb t ht
    rw [hid, hs] at this
    omega

end Known

theorem ActionRecord.actionId_ne {r r' : ActionRecord} (h : r'.kind ≠ r.kind) :
    r'.actionId ≠ r.actionId := fun he => h (by rw [← r.kind_eq, ← r'.kind_eq, he])

theorem Continues.actionId {r r' : ActionRecord} (h : Continues r r') :
    r'.actionId = r.actionId := by
  cases h with
  | planning a l x => rfl
  | probe a w h hw => exact hw.actionId
  | application a w h hw => exact hw.actionId
  | preparation a w h hw => exact hw.actionId
  | finalization a w h hw => exact hw.actionId

namespace State

theorem recoveryUnits_buryAdmitted {s : State} {w : Option WorkerAction}
    (h : s.recoveryUnits = []) : (s.buryAdmitted w).recoveryUnits = [] := by
  unfold State.buryAdmitted
  dsimp only
  split
  next => exact h
  next => split <;> simp [h]

theorem recoveryUnits_dropPlan {s : State} (h : s.recoveryUnits = []) :
    s.dropPlan.recoveryUnits = [] := by
  change s.planUnits = []
  unfold State.planUnits
  split
  next => exact h
  next => split <;> simp [h]

variable {s : State} {Q : ActionId → Prop} (h : ∀ t ∈ s.actionTombstones, Q t.actionId)
include h

theorem forall_burial {a : ActionId} (l : ActionLifecycle) (ha : Q a) :
    ∀ t ∈ s.burial a l, Q t.actionId := by
  intro t ht
  by_cases hl : l.terminal = true
  · rcases State.mem_burial hl ht with ⟨ht, -⟩ | ⟨rfl, -⟩
    · exact h t ht
    · exact ha
  · rw [State.burial, dif_neg hl] at ht
    exact h t ht

theorem forall_buryAdmitted {w : Option WorkerAction} (hw : ∀ v ∈ w, Q v.actionId) :
    ∀ t ∈ (s.buryAdmitted w).actionTombstones, Q t.actionId := by
  unfold State.buryAdmitted
  dsimp only
  split
  next => exact h
  next v =>
    split
    next => exact forall_burial h _ (hw v rfl)
    next => exact h

theorem forall_planTombstones (hp : ∀ p ∈ s.planning, Q p.actionId) :
    ∀ t ∈ s.planTombstones, Q t.actionId := by
  unfold State.planTombstones
  split
  next => exact h
  next p hplan =>
    split
    next => exact h
    next => exact forall_burial h _ (hp p hplan)

theorem forall_epochBurial (hr : ∀ r ∈ s.actions, Q r.actionId) :
    ∀ t ∈ s.epochBurial.actionTombstones, Q t.actionId := by
  have slot {α : Type} {x : Option α} {f : α → WorkerAction} (hx : ∀ a ∈ x, Q (f a).actionId) :
      ∀ v ∈ x.map f, Q v.actionId := by
    intro v hv
    obtain ⟨a, ha, rfl⟩ := Option.map_eq_some_iff.mp hv
    exact hx a ha
  have h₁ := forall_planTombstones h fun p hp => hr _ (mem_actions_planning hp)
  have h₂ := forall_buryAdmitted (s := s.dropPlan) h₁
    (slot fun a ha => hr _ (mem_actions_probe (a := a) ha))
  have h₃ := forall_buryAdmitted h₂ (slot fun a ha => hr _ (mem_actions_application (a := a) ha))
  exact forall_buryAdmitted h₃ (slot fun a ha => hr _ (mem_actions_finalization (a := a) ha))

end State

namespace IdentitiesAt

variable {s : State} (h : s.Identities)
include h

theorem known_burial {r r' : ActionRecord} {l : ActionLifecycle} (hr : r ∈ s.actions)
    (hl : l.terminal = true)
    (hr' : r' ∈ s.actions ∧ r'.kind ≠ r.kind ∨ r'.actionId = r.actionId ∧ r'.lifecycle = l) :
    Known s.actionSequenceHighWater (s.burial r.actionId l) r' := by
  rcases hr' with ⟨hmem, hk⟩ | ⟨hid, rfl⟩
  · have hret : s.retains r'.actionId = true := State.retains_iff.mpr ⟨r', hmem, rfl⟩
    refine ⟨(h.known hmem).bounded, fun m => ?_⟩
    exact (State.buried_bury_of_ne hl (ActionRecord.actionId_ne hk) hret).trans
      ((h.known hmem).buried m)
  · have hret : s.retains r.actionId = true := State.retains_iff.mpr ⟨r, hr, rfl⟩
    refine ⟨hid ▸ (h.known hr).bounded, fun m => ⟨?_, ?_⟩⟩
    · rintro ⟨t, ht, hta, rfl⟩
      rw [hid] at hta
      rcases State.mem_burial hl ht with ⟨-, hne⟩ | ⟨-, htl⟩
      · exact absurd hta hne
      · exact ⟨hl, htl⟩
    · rintro ⟨-, rfl⟩
      rw [hid]
      exact State.buried_bury hl hret

theorem recoveryUnits_filter (p : WorkerUnit → Bool) : s.recoveryUnits.filter p = [] := by
  rw [h.recoveryUnits]
  rfl

/-- After a burial every slot holds another action of before, or the one which ended. -/
theorem after_burial {r : ActionRecord} {l : ActionLifecycle} (hr : r ∈ s.actions)
    (hl : l.terminal = true) {probe : Option ProbeAction}
    {application : Option ApplicationAction} {planning : Option PlanningAction}
    {preparation : Option PreparationAction} {finalization : Option FinalizationAction}
    (hprobe : ∀ a ∈ probe, r.kind ≠ .probe ∧ s.probe = some a ∨
      a.actionId = r.actionId ∧ a.lifecycle = l)
    (happ : ∀ a ∈ application, r.kind ≠ .application ∧ s.application = some a ∨
      a.actionId = r.actionId ∧ a.lifecycle = l)
    (hplan : ∀ a ∈ planning, r.kind ≠ .plan ∧ s.planning = some a ∨
      (a.actionId = r.actionId ∧ a.lifecycle = l) ∧
        a.transitionId.sequence ≤ s.transitionSequenceHighWater)
    (hprep : ∀ a ∈ preparation, r.kind ≠ .preparation ∧ s.preparation = some a ∨
      (a.actionId = r.actionId ∧ a.lifecycle = l) ∧
        a.transitionId.sequence ≤ s.transitionSequenceHighWater)
    (hfin : ∀ a ∈ finalization, r.kind ≠ .finalization ∧ s.finalization = some a ∨
      (a.actionId = r.actionId ∧ a.lifecycle = l) ∧
        a.transitionId.sequence ≤ s.transitionSequenceHighWater) :
    IdentitiesAt s.actionSequenceHighWater s.transitionSequenceHighWater (s.burial r.actionId l)
      (s.recoveryUnits.filter (·.actionId ≠ r.actionId)) probe application planning preparation
      finalization where
  tidy := State.Tidy.burial (s := s) h.tidy r.actionId l
  buried := State.forall_burial (Q := (·.sequence ≤ _)) h.buried l (h.known hr).bounded
  recoveryUnits := h.recoveryUnits_filter _
  probe a ha := h.known_burial hr hl <|
    (hprobe a ha).imp_left fun ⟨hk, hs⟩ => ⟨State.mem_actions_probe hs, hk.symm⟩
  application a ha := h.known_burial hr hl <|
    (happ a ha).imp_left fun ⟨hk, hs⟩ => ⟨State.mem_actions_application hs, hk.symm⟩
  planning a ha := by
    rcases hplan a ha with ⟨hk, hs⟩ | ⟨he, ht⟩
    · exact ⟨h.known_burial hr hl (.inl ⟨State.mem_actions_planning hs, hk.symm⟩),
        (h.planning a hs).2⟩
    · exact ⟨h.known_burial hr hl (.inr he), ht⟩
  preparation a ha := by
    rcases hprep a ha with ⟨hk, hs⟩ | ⟨he, ht⟩
    · exact ⟨h.known_burial hr hl (.inl ⟨State.mem_actions_preparation hs, hk.symm⟩),
        (h.preparation a hs).2⟩
    · exact ⟨h.known_burial hr hl (.inr he), ht⟩
  finalization a ha := by
    rcases hfin a ha with ⟨hk, hs⟩ | ⟨he, ht⟩
    · exact ⟨h.known_burial hr hl (.inl ⟨State.mem_actions_finalization hs, hk.symm⟩),
        (h.finalization a hs).2⟩
    · exact ⟨h.known_burial hr hl (.inr he), ht⟩

theorem retire {r : ActionRecord} {l : ActionLifecycle} (hr : r ∈ s.actions)
    (hl : l.terminal = true) : (s.retire r l).Identities := by
  cases r with
  | probe a =>
    exact h.after_burial hr hl (by rintro b ⟨⟩) (fun b hb => .inl ⟨by rintro ⟨⟩, hb⟩)
      (fun b hb => .inl ⟨by rintro ⟨⟩, hb⟩) (fun b hb => .inl ⟨by rintro ⟨⟩, hb⟩)
      (fun b hb => .inl ⟨by rintro ⟨⟩, hb⟩)
  | application a =>
    exact h.after_burial hr hl (fun b hb => .inl ⟨by rintro ⟨⟩, hb⟩) (by rintro b ⟨⟩)
      (fun b hb => .inl ⟨by rintro ⟨⟩, hb⟩) (fun b hb => .inl ⟨by rintro ⟨⟩, hb⟩)
      (fun b hb => .inl ⟨by rintro ⟨⟩, hb⟩)
  | planning a =>
    exact h.after_burial hr hl (fun b hb => .inl ⟨by rintro ⟨⟩, hb⟩)
      (fun b hb => .inl ⟨by rintro ⟨⟩, hb⟩) (by rintro b ⟨⟩)
      (fun b hb => .inl ⟨by rintro ⟨⟩, hb⟩) (fun b hb => .inl ⟨by rintro ⟨⟩, hb⟩)
  | preparation a =>
    exact h.after_burial hr hl (fun b hb => .inl ⟨by rintro ⟨⟩, hb⟩)
      (fun b hb => .inl ⟨by rintro ⟨⟩, hb⟩) (fun b hb => .inl ⟨by rintro ⟨⟩, hb⟩)
      (by rintro b ⟨⟩) (fun b hb => .inl ⟨by rintro ⟨⟩, hb⟩)
  | finalization a =>
    exact h.after_burial hr hl (fun b hb => .inl ⟨by rintro ⟨⟩, hb⟩)
      (fun b hb => .inl ⟨by rintro ⟨⟩, hb⟩) (fun b hb => .inl ⟨by rintro ⟨⟩, hb⟩)
      (fun b hb => .inl ⟨by rintro ⟨⟩, hb⟩) (by rintro b ⟨⟩)

/-- A failed action keeps its slot. -/
theorem fail {r r' : ActionRecord} (hr : r ∈ s.actions) (hc : Continues r r')
    (hl : r'.lifecycle.terminal = true) :
    (failSlot (s.bury r.actionId r'.lifecycle) r').Identities := by
  have hid := hc.actionId
  cases hc with
  | probe a w hk hw =>
    exact h.after_burial hr hl (by rintro b ⟨⟩; exact .inr ⟨hid, rfl⟩)
      (fun b hb => .inl ⟨by rintro ⟨⟩, hb⟩) (fun b hb => .inl ⟨by rintro ⟨⟩, hb⟩)
      (fun b hb => .inl ⟨by rintro ⟨⟩, hb⟩) (fun b hb => .inl ⟨by rintro ⟨⟩, hb⟩)
  | application a w hk hw =>
    exact h.after_burial hr hl (fun b hb => .inl ⟨by rintro ⟨⟩, hb⟩)
      (by rintro b ⟨⟩; exact .inr ⟨hid, rfl⟩) (fun b hb => .inl ⟨by rintro ⟨⟩, hb⟩)
      (fun b hb => .inl ⟨by rintro ⟨⟩, hb⟩) (fun b hb => .inl ⟨by rintro ⟨⟩, hb⟩)
  | planning a l x =>
    have ht := (h.planning a (State.planning_of_mem hr)).2
    exact h.after_burial hr hl (fun b hb => .inl ⟨by rintro ⟨⟩, hb⟩)
      (fun b hb => .inl ⟨by rintro ⟨⟩, hb⟩) (by rintro b ⟨⟩; exact .inr ⟨⟨hid, rfl⟩, ht⟩)
      (fun b hb => .inl ⟨by rintro ⟨⟩, hb⟩) (fun b hb => .inl ⟨by rintro ⟨⟩, hb⟩)
  | preparation a w hk hw =>
    have ht := (h.preparation a (State.preparation_of_mem hr)).2
    exact h.after_burial hr hl (fun b hb => .inl ⟨by rintro ⟨⟩, hb⟩)
      (fun b hb => .inl ⟨by rintro ⟨⟩, hb⟩) (fun b hb => .inl ⟨by rintro ⟨⟩, hb⟩)
      (by rintro b ⟨⟩; exact .inr ⟨⟨hid, rfl⟩, ht⟩) (fun b hb => .inl ⟨by rintro ⟨⟩, hb⟩)
  | finalization a w hk hw =>
    have ht := (h.finalization a (State.finalization_of_mem hr)).2
    exact h.after_burial hr hl (fun b hb => .inl ⟨by rintro ⟨⟩, hb⟩)
      (fun b hb => .inl ⟨by rintro ⟨⟩, hb⟩) (fun b hb => .inl ⟨by rintro ⟨⟩, hb⟩)
      (fun b hb => .inl ⟨by rintro ⟨⟩, hb⟩) (by rintro b ⟨⟩; exact .inr ⟨⟨hid, rfl⟩, ht⟩)

/-- A dropped plan is buried unless it has ended. -/
theorem dropPlan : s.dropPlan.Identities := by
  change IdentitiesAt _ _ s.planTombstones s.planUnits _ _ none none _
  unfold State.planTombstones State.planUnits
  cases hp : s.planning with
  | none => exact { h with planning := by simp, preparation := by simp }
  | some p =>
    dsimp only
    split
    next => exact { h with planning := by simp, preparation := by simp }
    next =>
      exact h.after_burial (State.mem_actions_planning hp) (l := .cancelled) rfl
        (fun b hb => .inl ⟨by rintro ⟨⟩, hb⟩) (fun b hb => .inl ⟨by rintro ⟨⟩, hb⟩)
        (by simp) (by simp) (fun b hb => .inl ⟨by rintro ⟨⟩, hb⟩)

theorem enterEpoch (o : CanonicalObservation) (nowMs : Nat) :
    (s.enterEpoch o nowMs).Identities where
  tidy := State.Tidy.enterEpoch h.tidy o nowMs
  buried := State.forall_epochBurial (Q := (·.sequence ≤ s.actionSequenceHighWater)) h.buried
    fun _ hr => (h.known hr).bounded
  recoveryUnits := State.recoveryUnits_buryAdmitted <| State.recoveryUnits_buryAdmitted <|
    State.recoveryUnits_buryAdmitted (State.recoveryUnits_dropPlan h.recoveryUnits)
  probe := by rintro a ⟨⟩
  application := by rintro a ⟨⟩
  planning := by rintro a ⟨⟩
  preparation := by rintro a ⟨⟩
  finalization := by rintro a ⟨⟩

end IdentitiesAt

end MonitorController
