import MonitorController.Safety.Sound
import MonitorController.Transition.Step

/-! # Steps of workers and hints

Every exit of the worker, plan, hint and restart transitions is one step.
-/

namespace MonitorController

namespace Continues

variable (l : ActionLifecycle) (x : Option Int) (hl : l ≠ .admitted)

theorem settleProbe (a : ProbeAction) :
    Continues (.probe a) (.probe { a with toWorkerAction := a.settle l x hl }) :=
  .probe a (a.settle l x hl) a.kind_probe ⟨rfl, rfl, rfl, rfl⟩

theorem settleApplication (a : ApplicationAction) :
    Continues (.application a) (.application { a with toWorkerAction := a.settle l x hl }) :=
  .application a (a.settle l x hl) a.kind_application ⟨rfl, rfl, rfl, rfl⟩

theorem settlePreparation (a : PreparationAction) :
    Continues (.preparation a) (.preparation { a with toWorkerAction := a.settle l x hl }) :=
  .preparation a (a.settle l x hl) a.kind_preparation ⟨rfl, rfl, rfl, rfl⟩

theorem settleFinalization (a : FinalizationAction) :
    Continues (.finalization a) (.finalization { a with toWorkerAction := a.settle l x hl }) :=
  .finalization a (a.settle l x hl) a.kind_finalization ⟨rfl, rfl, rfl, rfl⟩

end Continues

theorem ignored_of_finished {s : State} {e : Event} {a : ActionId} (h : e.finished? = some a) :
    Ignored s e := by
  cases e <;> trivial

namespace State

variable {s s' : State}

theorem burial_congr (ht : s'.actionTombstones = s.actionTombstones)
    (hr : s'.actions.map (·.actionId) = s.actions.map (·.actionId)) (a : ActionId)
    (l : ActionLifecycle) : s'.burial a l = s.burial a l := by
  have hret : s'.retains = s.retains := by
    funext b
    have : ∀ t : State, t.retains b = (t.actions.map (·.actionId)).any (· = b) := by
      intro t
      simp [retains, List.any_map, Function.comp_def]
    rw [this, this, hr]
  simp only [burial, ht, hret]

theorem mem_actions_probe {a : ProbeAction} (h : s.probe = some a) : .probe a ∈ s.actions :=
  mem_actions.mpr (.inl ⟨a, h, rfl⟩)

theorem mem_actions_application {a : ApplicationAction} (h : s.application = some a) :
    .application a ∈ s.actions :=
  mem_actions.mpr (.inr (.inl ⟨a, h, rfl⟩))

theorem mem_actions_planning {a : PlanningAction} (h : s.planning = some a) :
    .planning a ∈ s.actions :=
  mem_actions.mpr (.inr (.inr (.inl ⟨a, h, rfl⟩)))

theorem mem_actions_preparation {a : PreparationAction} (h : s.preparation = some a) :
    .preparation a ∈ s.actions :=
  mem_actions.mpr (.inr (.inr (.inr (.inl ⟨a, h, rfl⟩))))

theorem mem_actions_finalization {a : FinalizationAction} (h : s.finalization = some a) :
    .finalization a ∈ s.actions :=
  mem_actions.mpr (.inr (.inr (.inr (.inr ⟨a, h, rfl⟩))))

theorem preparation_of_mem {a : PreparationAction} (h : .preparation a ∈ s.actions) :
    s.preparation = some a := by
  simpa using mem_actions.mp h

theorem planning_of_mem {a : PlanningAction} (h : .planning a ∈ s.actions) :
    s.planning = some a := by
  simpa using mem_actions.mp h

theorem probe_of_mem {a : ProbeAction} (h : .probe a ∈ s.actions) : s.probe = some a := by
  simpa using mem_actions.mp h

theorem application_of_mem {a : ApplicationAction} (h : .application a ∈ s.actions) :
    s.application = some a := by
  simpa using mem_actions.mp h

theorem finalization_of_mem {a : FinalizationAction} (h : .finalization a ∈ s.actions) :
    s.finalization = some a := by
  simpa using mem_actions.mp h

theorem mem_actions_of_slot {r : ActionRecord} (h : s.slot r.kind = some r) : r ∈ s.actions := by
  rw [mem_actions]
  cases r <;> simp_all [slot, ActionRecord.kind]

theorem slot_of_mem_actions {r : ActionRecord} (h : r ∈ s.actions) : s.slot r.kind = some r := by
  rcases mem_actions.mp h with ⟨a, ha, rfl⟩ | ⟨a, ha, rfl⟩ | ⟨a, ha, rfl⟩ | ⟨a, ha, rfl⟩ |
    ⟨a, ha, rfl⟩ <;> simp_all [slot, ActionRecord.kind]

theorem actionForId_eq_some {a : ActionId} {r : ActionRecord} (h : s.actionForId a = some r) :
    r ∈ s.actions ∧ r.actionId = a :=
  ⟨List.mem_of_find?_eq_some h, by simpa using List.find?_some h⟩

end State

namespace Sound

variable {s : State}

theorem tidy (h : Sound s) : s.Tidy := h.identities.tidy

theorem probeDispatched_decides (e : ProbeDispatched) :
    Decides (probeDispatched s e) (Step s (.probeDispatched e)) := by
  unfold probeDispatched
  split
  next => exact .of_decision (.ignored _ trivial)
  next a ha =>
    split
    next hg => exact .of_decision (.probeDispatched e a _ ha hg.2.2 hg.2.1 rfl)
    next => exact .of_decision (.ignored _ trivial)

theorem applicationDispatched_decides (e : ApplicationDispatched) :
    Decides (applicationDispatched s e) (Step s (.applicationDispatched e)) := by
  unfold applicationDispatched
  split
  next => exact .of_decision (.ignored _ trivial)
  next a ha =>
    split
    next hg => exact .of_decision (.applicationDispatched e a _ ha hg.2.2 hg.2.1 rfl)
    next => exact .of_decision (.ignored _ trivial)

theorem preparationDispatched_decides (e : PreparationDispatched) :
    Decides (preparationDispatched s e) (Step s (.preparationDispatched e)) := by
  unfold preparationDispatched
  split
  next => exact .of_decision (.ignored _ trivial)
  next a ha =>
    split
    next hg => exact .of_decision (.preparationDispatched e a _ ha hg.2.2 hg.2.1 rfl)
    next => exact .of_decision (.ignored _ trivial)

theorem finalizationDispatched_decides (e : FinalizationDispatched) :
    Decides (finalizationDispatched s e) (Step s (.finalizationDispatched e)) := by
  unfold finalizationDispatched
  split
  next => exact .of_decision (.ignored _ trivial)
  next a ha =>
    split
    next hg => exact .of_decision (.finalizationDispatched e a _ ha hg.2.2 hg.2.1 rfl)
    next => exact .of_decision (.ignored _ trivial)

theorem probeFinished_decides (h : Sound s) {e : Event} {a : ActionId} (he : e.finished? = some a)
    (outcome : WorkerOutcome) (exitStatus : Option Int) :
    Decides (probeFinished s a outcome exitStatus e.metadata.processedAtMs) (Step s e) := by
  unfold probeFinished
  split
  next => exact .of_decision (.ignored _ (ignored_of_finished he))
  next w hw =>
    have hmem := State.mem_actions_probe hw
    split
    next => exact .of_decision (.ignored _ (ignored_of_finished he))
    next hg =>
      simp only [ne_eq, not_or, not_not] at hg
      obtain ⟨rfl, hp⟩ := hg
      split
      next hl => exact .of_decision (.stopRepeated e (.probe w) _ hmem hl he rfl)
      next hl =>
        have hd : w.lifecycle = .dispatched := (h.control.probe_running hw hp).resolve_right hl
        cases outcome with
        | succeeded =>
          dsimp only
          rw [h.tidy.appendTombstone_eq _ rfl]
          exact .of_decision (Step.closed e (.probe w) .completed s.verifySinceMs [] _ hmem
            (by simp [ActionRecord.kind]) (.finished he hd (by simp))
            (.inl ⟨rfl, .inl rfl⟩) (.inr rfl) (.inl rfl) rfl)
        | cancelled =>
          dsimp only
          rw [h.tidy.appendTombstone_eq _ rfl]
          exact .of_decision (Step.closed e (.probe w) .cancelled s.verifySinceMs [] _ hmem
            (by simp [ActionRecord.kind]) (.finished he hd (by simp)) (.inr rfl) (.inr rfl)
            (.inl rfl) rfl)
        | failed =>
          dsimp only
          rw [h.tidy.appendTombstone_eq _ rfl]
          have hc := Continues.settleProbe .failed exitStatus (by decide) w
          have hf : Fails e (.probe w) .failed := .ended (.finished he hd (by simp))
          exact .of_decision (Step.failed e _ _ .probeFailed [] _ hmem hc rfl hf (.inl rfl)
            (.inl rfl))

theorem applicationFinished_decides (h : Sound s) {e : Event} {a : ActionId}
    (he : e.finished? = some a) (outcome : WorkerOutcome) (exitStatus : Option Int) :
    Decides (applicationFinished s a outcome exitStatus e.metadata.processedAtMs) (Step s e) := by
  unfold applicationFinished
  split
  next => exact .of_decision (.ignored _ (ignored_of_finished he))
  next w hw =>
    have hmem := State.mem_actions_application hw
    split
    next => exact .of_decision (.ignored _ (ignored_of_finished he))
    next hg =>
      simp only [ne_eq, not_or, not_not] at hg
      obtain ⟨rfl, hp⟩ := hg
      split
      next hl => exact .of_decision (.stopRepeated e (.application w) _ hmem hl he rfl)
      next hl =>
        have hd : w.lifecycle = .dispatched := (h.control.application_running hw hp).resolve_right hl
        cases outcome with
        | succeeded =>
          dsimp only
          rw [h.tidy.appendTombstone_eq _ rfl]
          exact .of_decision (Step.closed e (.application w) .completed none [] _ hmem
            (by simp [ActionRecord.kind]) (.finished he hd (by simp))
            (.inl ⟨rfl, .inr rfl⟩) (.inl rfl) (.inl rfl) rfl)
        | cancelled =>
          dsimp only
          rw [h.tidy.appendTombstone_eq _ rfl]
          exact .of_decision (Step.closed e (.application w) .cancelled s.verifySinceMs [] _ hmem
            (by simp [ActionRecord.kind]) (.finished he hd (by simp)) (.inr rfl) (.inr rfl)
            (.inl rfl) rfl)
        | failed =>
          dsimp only
          rw [h.tidy.appendTombstone_eq _ rfl]
          have hc := Continues.settleApplication .failed exitStatus (by decide) w
          have hf : Fails e (.application w) .failed := .ended (.finished he hd (by simp))
          exact .of_decision (Step.failed e _ _ .applyFailed [] _ hmem hc rfl hf (.inl rfl)
            (.inl rfl))

theorem preparationFinished_decides (h : Sound s) {e : Event} {a : ActionId}
    (he : e.finished? = some a) (outcome : WorkerOutcome) (exitStatus : Option Int)
    (planHash : PlanHash) :
    Decides (preparationFinished s a outcome exitStatus e.metadata.processedAtMs planHash)
      (Step s e) := by
  unfold preparationFinished
  split
  next => exact .of_decision (.ignored _ (ignored_of_finished he))
  next w hw =>
    have hmem := State.mem_actions_preparation hw
    split
    next => exact .of_decision (.ignored _ (ignored_of_finished he))
    next hg =>
      simp only [ne_eq, not_or, not_and_or, not_not] at hg
      obtain ⟨rfl, hl, -⟩ := hg
      split
      next hl => exact .of_decision (.stopRepeated e (.preparation w) _ hmem hl he rfl)
      next hs =>
        have hd : w.lifecycle = .dispatched := hl.resolve_right hs
        have hp : s.preparationState = .preparing := by
          rcases h.control.preparation_state hw with ⟨hl', -⟩ | ⟨-, hp⟩ | ⟨hl', -⟩ | ⟨hl', -⟩
          · simp [hd] at hl'
          · exact hp
          · simp [hd] at hl'
          · simp [hd, ActionLifecycle.terminal] at hl'
        split
        next =>
          have hc := Continues.settlePreparation .resultPending exitStatus (by decide) w
          have hstep := Step.preparationReported e w _ _ hw (.finished he hd (by simp)) hc rfl rfl
          rw [← hp] at hstep
          exact .of_decision hstep
        next =>
          split
          next =>
            rw [h.tidy.appendTombstone_eq _ rfl]
            exact .of_decision (Step.closed e (.preparation w) .cancelled s.verifySinceMs [] _ hmem
              (by simp [ActionRecord.kind]) (.finished he hd (by simp)) (.inr rfl) (.inr rfl)
              (.inl rfl) rfl)
          next =>
            rw [h.tidy.appendTombstone_eq _ rfl]
            have hc := Continues.settlePreparation .failed exitStatus (by decide) w
            have hf : Fails e (.preparation w) .failed := .ended (.finished he hd (by simp))
            exact .of_decision (Step.failed e _ _ s.phase [] _ hmem hc rfl hf (.inl rfl)
              (.inl rfl))

theorem finalizationFinished_decides (h : Sound s) {e : Event} {a : ActionId}
    (he : e.finished? = some a) (outcome : WorkerOutcome) (exitStatus : Option Int) :
    Decides (finalizationFinished s a outcome exitStatus e.metadata.processedAtMs) (Step s e) := by
  unfold finalizationFinished
  split
  next => exact .of_decision (.ignored _ (ignored_of_finished he))
  next w hw =>
    have hmem := State.mem_actions_finalization hw
    split
    next => exact .of_decision (.ignored _ (ignored_of_finished he))
    next hg =>
      simp only [ne_eq, not_or, not_and_or, not_not] at hg
      obtain ⟨rfl, hl, -⟩ := hg
      split
      next hl => exact .of_decision (.stopRepeated e (.finalization w) _ hmem hl he rfl)
      next hs =>
        have hd : w.lifecycle = .dispatched := hl.resolve_right hs
        cases outcome with
        | succeeded =>
          have hc := Continues.settleFinalization .resultPending exitStatus (by decide) w
          exact .of_decision (Step.finalizationReported e w _ _ hw (.finished he hd (by simp)) hc
            rfl rfl)
        | cancelled =>
          dsimp only
          rw [h.tidy.appendTombstone_eq _ rfl]
          exact .of_decision (Step.closed e (.finalization w) .cancelled none [] _ hmem
            (by simp [ActionRecord.kind]) (.finished he hd (by simp)) (.inr rfl) (.inl rfl)
            (.inl rfl) rfl)
        | failed =>
          dsimp only
          rw [h.tidy.appendTombstone_eq _ rfl]
          have hc := Continues.settleFinalization .failed exitStatus (by decide) w
          have hf : Fails e (.finalization w) .failed := .ended (.finished he hd (by simp))
          exact .of_decision (Step.failed e _ _ .finalizeFailed [] _ hmem hc rfl hf (.inl rfl)
            (.inl rfl))

theorem planRequested_decides (e : PlanRequested) :
    Decides (planRequested s e) (Step s (.planRequested e)) := by
  unfold planRequested
  split
  next => exact .of_decision (.ignored _ trivial)
  next p hp =>
    split
    next => exact .of_decision (.ignored _ trivial)
    next hg =>
      simp only [ne_eq, not_or, not_not] at hg
      exact .of_decision (.planRequested e p hp hg.1 hg.2.1 hg.2.2)

theorem planCompleted_decides (h : Sound s) (e : PlanCompleted) :
    Decides (planCompleted s e) (Step s (.planCompleted e)) := by
  unfold planCompleted
  split
  next => exact .of_decision (.ignored _ trivial)
  next p hp =>
    split
    next => exact .of_decision (.ignored _ trivial)
    next hg =>
      simp only [ne_eq, not_or, not_not] at hg
      rw [h.tidy.appendTombstone_eq _ rfl]
      exact .of_decision (Step.planCompleted e p _ hp hg.1 hg.2.1 hg.2.2 rfl)

theorem planFailed_decides (h : Sound s) (e : PlanFailed) :
    Decides (planFailed s e) (Step s (.planFailed e)) := by
  unfold planFailed
  split
  next => exact .of_decision (.ignored _ trivial)
  next p hp =>
    split
    next => exact .of_decision (.ignored _ trivial)
    next hg =>
      simp only [ne_eq, not_or, not_and_or, not_not] at hg
      obtain ⟨hs, hi, hk⟩ := hg
      split
      next hr =>
        rw [h.tidy.discardPlanning_eq]
        exact .of_decision (Step.planRetried e p _ hp hs hi hk hr rfl)
      next =>
        rw [h.tidy.appendTombstone_eq _ rfl]
        have hl : p.lifecycle = .admitted ∨ p.lifecycle = .dispatched :=
          hs.imp (h.control.planning_running hp).1 (h.control.planning_running hp).2
        exact .of_decision (Step.failed _ _ _ s.phase [] _ (State.mem_actions_planning hp)
          (.planning p .failed e.exitStatus) rfl (.planFailed hi.symm rfl hl) (.inl rfl) (.inl rfl))

end Sound

section Hints

variable {s : State}

theorem withdrawDirtied_preparation (h : s.Tidy) (a : PreparationAction) :
    withdrawDirtied s (.preparation a) =
      .ok ({ (s.retire (.preparation a) .cancelled).dropPlan with phase := .discoverFast },
        s.planDiscards) := by
  unfold withdrawDirtied
  dsimp only
  rw [h.appendTombstone_eq _ rfl, Outcome.ok_bind]
  exact State.Tidy.discardPlanning_eq (h.burial a.actionId .cancelled)

theorem hintPreparation_pending (h : s.Tidy) {a : PreparationAction}
    (ha : s.preparation = some a) (hp : s.preparationState = .preparePending) :
    hintPreparation s = .ok ((s.retire (.preparation a) .cancelled).dropPlan, s.planDiscards) := by
  unfold hintPreparation
  rw [ha, hp]
  dsimp only
  rw [h.appendTombstone_eq _ rfl, Outcome.ok_bind]
  exact (h.retire (.preparation a) .cancelled).discardPlanning_eq

theorem hintPreparation_other (hp : s.preparationState ≠ .preparePending) :
    hintPreparation s = .ok (s, []) := by
  unfold hintPreparation
  split
  next hq _ => exact absurd hq hp
  next => rfl

theorem hintFinalization_pending (h : s.Tidy) {a : FinalizationAction}
    (ha : s.finalization = some a) (hp : s.phase = .finalizePending) :
    hintFinalization s = .ok { s.bury a.actionId .cancelled with finalization := none } := by
  unfold hintFinalization
  rw [ha, hp]
  dsimp only
  rw [h.appendTombstone_eq _ rfl, Outcome.ok_bind]

theorem hintFinalization_other (hp : s.phase ≠ .finalizePending) :
    hintFinalization s = .ok s := by
  unfold hintFinalization
  split
  next hq _ => exact absurd hq hp
  next => rfl

end Hints

namespace Sound

variable {s : State}

theorem drmHint_decides (h : Sound s) (e : DrmHintReceived) (hb : e.metadata.bootId = s.bootId) :
    Decides (drmHint s e) (Step s (.drmHintReceived e)) := by
  unfold drmHint
  dsimp only
  split
  next hg => exact .of_decision (.ignored _ (.inr hg))
  next hg =>
    have hg := not_le.mp hg
    let s' := supersedeProofs s e.eventGeneration e.metadata.processedAtMs
    have tidy : s'.Tidy := h.tidy
    by_cases hp : s.preparationState = .preparePending
    · obtain ⟨a, ha⟩ := h.control.preparation_isSome (by simp [hp])
      have hl : a.lifecycle = .admitted := by
        rcases h.control.preparation_state ha with ⟨hl, -⟩ | ⟨-, hq⟩ | ⟨-, hq⟩ | ⟨-, hq⟩
        · exact hl
        all_goals simp [hp, PreparationState.active] at hq
      have hv := h.control.pending_verifying hp
      let s'' := (s'.retire (.preparation a) .cancelled).dropPlan
      have hs'' : s''.phase = .verifying := by
        dsimp only [s'', s', State.dropPlan, State.withoutDesktop, State.retire, State.clearSlot,
          ActionRecord.kind, State.bury, clearRecoveryUnit, supersedeProofs]
        exact hv
      rw [hintPreparation_pending (s := s') tidy ha hp, Outcome.ok_bind]
      dsimp only
      rw [hintFinalization_other (s := s'') (by rw [hs'']; decide), Outcome.ok_bind,
        if_pos (by rw [hs'']; rfl)]
      have hw : Hints s' { s'' with phase := .discoverFast } s'.planDiscards :=
        .withdrawn (r := .preparation a) hl (.preparation a ha)
      exact .of_decision (Step.hinted e _ _ _ hb hg rfl hw)
    · rw [hintPreparation_other (s := s') hp, Outcome.ok_bind]
      dsimp only
      by_cases hf : s.phase = .finalizePending
      · obtain ⟨a, ha⟩ := h.control.finalization_isSome hf
        have hl : a.lifecycle = .admitted := by
          rcases h.control.finalization_phase ha with ⟨hl, -⟩ | ⟨-, hq⟩ | ⟨-, hq⟩ | ⟨-, hq⟩
          · exact hl
          all_goals simp [hf] at hq
        have hs' : s'.phase = .finalizePending := hf
        rw [hintFinalization_pending (s := s') tidy ha hf, Outcome.ok_bind]
        rw [if_pos (by change reopenedByHint s'.phase = true; rw [hs']; rfl)]
        have hw : Hints s' (s'.retire (.finalization a) .cancelled) [] :=
          .withdrawn (r := .finalization a) hl (.finalization a ha)
        exact .of_decision (Step.hinted e _ _ _ hb hg rfl hw)
      · rw [hintFinalization_other (s := s') hf, Outcome.ok_bind]
        split
        next hr => exact .of_decision (Step.hinted e _ _ _ hb hg rfl (.reopened hp hf hr))
        next hr =>
          exact .of_decision (Step.hinted e _ _ _ hb hg rfl (.kept (by simpa using hr)))

theorem admissionDirtied_decides (h : Sound s) (e : AdmissionDirtied)
    (hb : e.metadata.bootId = s.bootId) :
    Decides (admissionDirtied s e) (Step s (.admissionDirtied e)) := by
  unfold admissionDirtied
  dsimp only
  split
  next hn =>
    refine .of_decision (.ignored _ (.inr (.inr fun r hr he => ?_)))
    simp only [State.actionForId, List.find?_eq_none, decide_eq_true_eq] at hn
    exact absurd he (hn r hr)
  next r hfound =>
    obtain ⟨hr, hi⟩ := State.actionForId_eq_some hfound
    split
    next hg =>
      refine .of_decision (.ignored _ (.inr ?_))
      by_cases hg' : e.eventGeneration ≤ s.eventGeneration
      · exact .inl hg'
      · refine .inr fun r' hr' he' => ?_
        have : r' = r := by
          have hinj := List.inj_on_of_nodup_map (actions_nodup (s := s)) hr' hr
          exact hinj (he'.trans hi.symm)
        rw [this]
        exact hg.resolve_right hg'
    next hg =>
      simp only [ne_eq, not_or, not_not, not_le] at hg
      obtain ⟨hl, hg⟩ := hg
      let s' := supersedeProofs s e.eventGeneration e.metadata.processedAtMs
      have tidy : s'.Tidy := h.tidy
      have held : (r.kind = .plan ∨ r.kind = .probe ∨ r.kind = .application) →
          Decides (schedule s' e.metadata.processedAtMs ([] ++ [.requestObservation .dirtyAdmission]))
            (Step s (.admissionDirtied e)) := fun hk =>
        .of_decision (Step.dirtied e r s' [] _ hb hr hi hl hg rfl (.inr ⟨hk, rfl, rfl⟩))
      cases r with
      | probe a => exact held (.inr (.inl rfl))
      | application a => exact held (.inr (.inr rfl))
      | planning a => exact held (.inl rfl)
      | preparation a =>
        have ha : s'.preparation = some a := State.preparation_of_mem hr
        rw [withdrawDirtied_preparation tidy, Outcome.ok_bind]
        exact .of_decision (Step.dirtied e _ _ _ _ hb hr hi hl hg rfl
          (.inl (.preparation a ha)))
      | finalization a =>
        have ha : s'.finalization = some a := State.finalization_of_mem hr
        dsimp only [withdrawDirtied]
        rw [tidy.appendTombstone_eq _ rfl]
        exact .of_decision (Step.dirtied e _ _ [] _ hb hr hi hl hg rfl
          (.inl (.finalization a ha)))

end Sound

theorem worker_withLifecycle_eq {w : WorkerAction} {l : ActionLifecycle}
    (hl : l.terminal = true) (hw : w.lifecycle ≠ .stopping) :
    ∃ v, w.withLifecycle l = .ok v ∧ SameWorker w v.1 ∧ v.1.lifecycle = l := by
  have h1 : ¬ (w.terminalAfterStop ≠ none ∧ l ≠ .stopping) := by
    simp [w.terminalAfterStop_eq_none hw]
  have h2 : ¬ (l = .admitted ∧ w.workerDeadlineMs ≠ none) := by
    rintro ⟨rfl, -⟩
    simp [ActionLifecycle.terminal] at hl
  unfold WorkerAction.withLifecycle
  rw [dif_neg h1, dif_neg h2]
  exact ⟨_, rfl, ⟨rfl, rfl, rfl, rfl⟩, rfl⟩

/-- An action whose post-stop verdict is not held back takes any terminal lifecycle. -/
theorem withLifecycle_eq {r : ActionRecord} {l : ActionLifecycle}
    (hl : l.terminal = true) (hr : r.kind = .plan ∨ r.lifecycle ≠ .stopping) :
    ∃ r', r.withLifecycle l = .ok r' ∧ Continues r r' ∧ r'.lifecycle = l := by
  cases r with
  | planning a => exact ⟨_, rfl, .planning a l a.exitStatus, rfl⟩
  | probe a =>
    obtain ⟨v, hv, hs, hvl⟩ :=
      worker_withLifecycle_eq hl (w := a.toWorkerAction) (hr.resolve_left (by rintro ⟨⟩))
    refine ⟨.probe { a with toWorkerAction := v.1, kind_probe := ?_ }, ?_,
      .probe a v.1 _ hs, hvl⟩
    · exact (congrArg ActionId.kind v.2).trans a.kind_probe
    · unfold ActionRecord.withLifecycle
      dsimp only
      rw [hv, Outcome.ok_bind]
  | application a =>
    obtain ⟨v, hv, hs, hvl⟩ :=
      worker_withLifecycle_eq hl (w := a.toWorkerAction) (hr.resolve_left (by rintro ⟨⟩))
    refine ⟨.application { a with toWorkerAction := v.1, kind_application := ?_ }, ?_,
      .application a v.1 _ hs, hvl⟩
    · exact (congrArg ActionId.kind v.2).trans a.kind_application
    · unfold ActionRecord.withLifecycle
      dsimp only
      rw [hv, Outcome.ok_bind]
  | preparation a =>
    obtain ⟨v, hv, hs, hvl⟩ :=
      worker_withLifecycle_eq hl (w := a.toWorkerAction) (hr.resolve_left (by rintro ⟨⟩))
    refine ⟨.preparation { a with toWorkerAction := v.1, kind_preparation := ?_ }, ?_,
      .preparation a v.1 _ hs, hvl⟩
    · exact (congrArg ActionId.kind v.2).trans a.kind_preparation
    · unfold ActionRecord.withLifecycle
      dsimp only
      rw [hv, Outcome.ok_bind]
  | finalization a =>
    obtain ⟨v, hv, hs, hvl⟩ :=
      worker_withLifecycle_eq hl (w := a.toWorkerAction) (hr.resolve_left (by rintro ⟨⟩))
    refine ⟨.finalization { a with toWorkerAction := v.1, kind_finalization := ?_ }, ?_,
      .finalization a v.1 _ hs, hvl⟩
    · exact (congrArg ActionId.kind v.2).trans a.kind_finalization
    · unfold ActionRecord.withLifecycle
      dsimp only
      rw [hv, Outcome.ok_bind]

namespace Sound

variable {s : State}

theorem failAction_decides (h : Sound s) {e : Event} {r : ActionRecord} {l : ActionLifecycle}
    (hfound : s.actionForId r.actionId = some r) (hl : l.failedLifecycle = true)
    (hk : r.kind = .plan ∨ r.lifecycle ≠ .stopping)
    (hlive : r.lifecycle ∈ [ActionLifecycle.admitted, .dispatched, .stopping])
    (he : Fails e r l) (nowMs : Nat) :
    Decides (failAction s r.actionId l nowMs) (Step s e) := by
  have hterminal : l.terminal = true := by
    cases l <;> simp_all [ActionLifecycle.failedLifecycle, ActionLifecycle.terminal]
  obtain ⟨r', hr', hc, rfl⟩ := withLifecycle_eq hterminal hk
  have hphase : (failSlot (s.bury r.actionId r'.lifecycle) r').phase = (failSlot s r').phase := by
    cases r' <;> rfl
  unfold failAction
  rw [hfound]
  dsimp only
  rw [if_pos hlive, hr', Outcome.ok_bind, h.tidy.appendTombstone_eq _ hterminal, Outcome.ok_bind]
  have hstep := Step.failed e r r' (failSlot s r').phase [] (nowMs + healthPollMs)
    (State.actionForId_eq_some hfound).1 hc hl he (.inl rfl) (.inl rfl)
  rw [← hphase] at hstep
  exact .of_decision hstep

theorem dispatchRejected_decides (h : Sound s) (e : DispatchRejected) :
    Decides (dispatchRejected s e) (Step s (.dispatchRejected e)) := by
  unfold dispatchRejected
  split
  next => exact .of_decision (.ignored _ trivial)
  next r hfound =>
    split
    next => exact .of_decision (.ignored _ trivial)
    next hl =>
      simp only [ne_eq, not_not] at hl
      obtain ⟨hr, hi⟩ := State.actionForId_eq_some hfound
      rw [← hi]
      exact h.failAction_decides (hi ▸ hfound) rfl (.inr (by simp [hl])) (by simp [hl])
        (.rejected hi.symm hl) _

theorem stopUncertainMutator_decides {e : Event} {r : ActionRecord} (hr : r ∈ s.actions) (v : UncertainVerdict) (hk : r.kind ≠ .plan)
    (hl : r.lifecycle = .dispatched ∨ r.lifecycle = .stopping) (he : Doubts e r v) :
    Decides (stopUncertainMutator s r v e.metadata.processedAtMs) (Step s e) := by
  have hstep := Step.doubted e r v _ hr hk hl he rfl
  cases r with
  | planning a => exact absurd rfl hk
  | probe a => exact .of_decision hstep
  | application a => exact .of_decision hstep
  | preparation a => exact .of_decision hstep
  | finalization a => exact .of_decision hstep

theorem workerStatusUnknown_decides (h : Sound s) (e : WorkerStatusUnknown) :
    Decides (workerStatusUnknown s e) (Step s (.workerStatusUnknown e)) := by
  unfold workerStatusUnknown
  split
  next => exact .of_decision (.ignored _ trivial)
  next r hfound =>
    obtain ⟨hr, hi⟩ := State.actionForId_eq_some hfound
    split
    next => exact .of_decision (.ignored _ trivial)
    next hl =>
      have hl : r.lifecycle = .dispatched ∨ r.lifecycle = .stopping := by
        by_contra hn
        exact hl (not_or.mp hn)
      by_cases hk : r.kind = .plan
      · cases r with
        | planning a =>
          have hd : a.lifecycle = .dispatched := by
            refine hl.resolve_right fun hs => ?_
            have hfit := h.control.planning_fits
            rw [State.planning_of_mem hr] at hfit
            cases hp : s.planningState <;> rw [hp] at hfit <;>
              simp_all [Fits, expectedPlanning, failedLifecycles, ActionRecord.lifecycle]
          exact h.failAction_decides (r := .planning a) (hi ▸ hfound) rfl (.inl rfl)
            (by simp [ActionRecord.lifecycle, hd]) (.unknown hi.symm rfl hd) _
        | probe a => cases hk
        | application a => cases hk
        | preparation a => cases hk
        | finalization a => cases hk
      · exact stopUncertainMutator_decides (e := .workerStatusUnknown e) hr .unknown hk hl
          (.unknown hi.symm)

theorem workerTimedOut_decides (e : WorkerTimedOut) :
    Decides (workerTimedOut s e) (Step s (.workerTimedOut e)) := by
  unfold workerTimedOut
  split
  next => exact .of_decision (.ignored _ trivial)
  next r hfound =>
    obtain ⟨hr, hi⟩ := State.actionForId_eq_some hfound
    split
    next => exact .of_decision (.ignored _ trivial)
    next w hw =>
      split
      next => exact .of_decision (.ignored _ trivial)
      next hg =>
        have hl : r.lifecycle = .dispatched ∨ r.lifecycle = .stopping := by
          have : w.lifecycle = r.lifecycle := by
            cases r <;> simp_all [ActionRecord.worker?, ActionRecord.lifecycle]
          by_contra hn
          exact hg (.inl (by rw [this]; exact not_or.mp hn))
        have hk : r.kind ≠ .plan := by
          cases r <;> simp_all [ActionRecord.worker?, ActionRecord.kind]
        exact stopUncertainMutator_decides (e := .workerTimedOut e) hr .timedOut hk hl
          (.timedOut hi.symm)

theorem acknowledged_cancelled {e : WorkerCancellationAcknowledged}
    (hc : e.terminalLifecycle ≠ .completed) (hf : ¬ e.terminalLifecycle.failedLifecycle = true) :
    e.terminalLifecycle = .cancelled := by
  have ht := e.terminal
  cases hl : e.terminalLifecycle <;>
    simp_all [ActionLifecycle.terminal, ActionLifecycle.failedLifecycle]

/-- A step which the reducer answers with effects. -/
structure Acts (s : State) (e : Event) (d : Decision) : Prop where
  step : Step s e d
  effects : d.effects ≠ []

theorem acknowledgeFailure_decides {e : WorkerCancellationAcknowledged} {r r' : ActionRecord}
    {phase : ControllerPhase} (hr : r ∈ s.actions) (hi : r.actionId = e.actionId)
    (hs : r.lifecycle = .stopping) (hc : Continues r r')
    (hl : r'.lifecycle = e.terminalLifecycle)
    (hf : e.terminalLifecycle.failedLifecycle = true)
    (hp : phase = (failSlot s r').phase ∨ r.kind = .preparation ∧ phase = .discoverFast)
    (polled : Bool) :
    Decides (acknowledgeFailure
      { failSlot (s.bury r.actionId r'.lifecycle) r' with phase := phase } e polled)
      (Acts s (.workerCancellationAcknowledged e)) := by
  have he : Fails (.workerCancellationAcknowledged e) r r'.lifecycle :=
    hl ▸ .ended (.acknowledged hi.symm hs)
  cases polled with
  | true =>
    exact .of_decision
      (.mk (Step.failed _ r r' phase [] _ hr hc (hl ▸ hf) he hp (.inl rfl)) (by simp))
  | false =>
    exact .of_decision (.mk (Step.failed _ r r' phase [.requestObservation .workerCompleted] _
      hr hc (hl ▸ hf) he hp (.inr rfl)) (by simp))

theorem probeFinished_succeeded (h : s.Tidy) {a : ProbeAction} (ha : s.probe = some a)
    (hp : s.phase = .probing) (hd : a.lifecycle = .dispatched) (x : Option Int) (nowMs : Nat) :
    probeFinished s a.actionId .succeeded x nowMs =
      reobserve { s.bury a.actionId .completed with phase := .discoverFast, probe := none }
        nowMs := by
  unfold probeFinished
  rw [ha]
  dsimp only
  rw [if_neg (by simp [hp]), if_neg (by simp [hd]), h.appendTombstone_eq _ rfl, Outcome.ok_bind]

theorem acknowledgeProbe_decides (h : Sound s) {e : WorkerCancellationAcknowledged}
    {a : ProbeAction} (ha : s.probe = some a) (hi : a.actionId = e.actionId)
    (hs : a.lifecycle = .stopping) :
    Decides (acknowledgeProbe s e a) (Acts s (.workerCancellationAcknowledged e)) := by
  have hmem := State.mem_actions_probe ha
  have hends : Ends (.workerCancellationAcknowledged e) (.probe a) e.terminalLifecycle :=
    .acknowledged hi.symm hs
  unfold acknowledgeProbe
  dsimp only
  split
  next hc =>
    let s' : State :=
      { s with phase := .probing, probe := some { a with toWorkerAction := a.resume } }
    have hids : s'.actions.map (·.actionId) = s.actions.map (·.actionId) := by
      simp [s', State.actions, ha, ActionRecord.actionId, WorkerAction.resume]
    have hb : s'.burial a.actionId .completed = s.burial a.actionId .completed :=
      State.burial_congr (show s'.actionTombstones = s.actionTombstones from rfl) hids _ _
    have heq : ({ s'.bury a.actionId .completed with
        phase := .discoverFast
        probe := none } : State) =
        { s.retire (.probe a) .completed with
          phase := .discoverFast
          verifySinceMs := s.verifySinceMs } := by
      simp only [State.bury, hb]
      rfl
    have hd := probeFinished_succeeded (s := s') h.tidy rfl rfl rfl (some e.exitStatus)
      e.metadata.processedAtMs
    have hstep := Step.closed _ (.probe a) .completed s.verifySinceMs [] _ hmem
      (by rintro ⟨⟩) (hc ▸ hends) (.inl ⟨rfl, .inl rfl⟩) (.inr rfl) (.inl rfl) rfl
    rw [← heq] at hstep
    exact hd ▸ .of_decision (.mk hstep (by simp))
  next hc =>
    rw [h.tidy.appendTombstone_eq _ e.terminal, Outcome.ok_bind]
    split
    next hf =>
      exact acknowledgeFailure_decides (r := .probe a) hmem hi hs
        (Continues.settleProbe e.terminalLifecycle (some e.exitStatus) e.not_admitted a) rfl hf
        (.inl rfl) _
    next hf =>
      exact .of_decision (.mk (Step.closed _ (.probe a) e.terminalLifecycle s.verifySinceMs [] _ hmem
        (by rintro ⟨⟩) hends (.inr (acknowledged_cancelled hc hf)) (.inr rfl) (.inl rfl) rfl) (by simp))

theorem applicationFinished_succeeded (h : s.Tidy) {a : ApplicationAction}
    (ha : s.application = some a) (hp : s.phase = .applying) (hd : a.lifecycle = .dispatched)
    (x : Option Int) (nowMs : Nat) :
    applicationFinished s a.actionId .succeeded x nowMs =
      reobserve
        { s.bury a.actionId .completed with
          phase := .discoverFast
          application := none
          verifySinceMs := none } nowMs := by
  unfold applicationFinished
  rw [ha]
  dsimp only
  rw [if_neg (by simp [hp]), if_neg (by simp [hd]), h.appendTombstone_eq _ rfl, Outcome.ok_bind]

theorem acknowledgeApplication_decides (h : Sound s) {e : WorkerCancellationAcknowledged}
    {a : ApplicationAction} (ha : s.application = some a) (hi : a.actionId = e.actionId)
    (hs : a.lifecycle = .stopping) :
    Decides (acknowledgeApplication s e a) (Acts s (.workerCancellationAcknowledged e)) := by
  have hmem := State.mem_actions_application ha
  have hends : Ends (.workerCancellationAcknowledged e) (.application a) e.terminalLifecycle :=
    .acknowledged hi.symm hs
  unfold acknowledgeApplication
  dsimp only
  split
  next hc =>
    let s' : State :=
      { s with phase := .applying, application := some { a with toWorkerAction := a.resume } }
    have hids : s'.actions.map (·.actionId) = s.actions.map (·.actionId) := by
      simp [s', State.actions, ha, ActionRecord.actionId, WorkerAction.resume]
    have hb : s'.burial a.actionId .completed = s.burial a.actionId .completed :=
      State.burial_congr (show s'.actionTombstones = s.actionTombstones from rfl) hids _ _
    have heq : ({ s'.bury a.actionId .completed with
        phase := .discoverFast
        application := none
        verifySinceMs := none } : State) =
        { s.retire (.application a) .completed with
          phase := .discoverFast
          verifySinceMs := none } := by
      simp only [State.bury, hb]
      rfl
    have hd := applicationFinished_succeeded (s := s') h.tidy rfl rfl rfl (some e.exitStatus)
      e.metadata.processedAtMs
    have hstep := Step.closed _ (.application a) .completed none [] _ hmem
      (by rintro ⟨⟩) (hc ▸ hends) (.inl ⟨rfl, .inr rfl⟩) (.inl rfl) (.inl rfl) rfl
    rw [← heq] at hstep
    exact hd ▸ .of_decision (.mk hstep (by simp))
  next hc =>
    rw [h.tidy.appendTombstone_eq _ e.terminal, Outcome.ok_bind]
    split
    next hf =>
      exact acknowledgeFailure_decides (r := .application a) hmem hi hs
        (Continues.settleApplication e.terminalLifecycle (some e.exitStatus) e.not_admitted a) rfl
        hf (.inl rfl) _
    next hf =>
      exact .of_decision (.mk (Step.closed _ (.application a) e.terminalLifecycle s.verifySinceMs [] _
        hmem (by rintro ⟨⟩) hends (.inr (acknowledged_cancelled hc hf)) (.inr rfl) (.inl rfl) rfl) (by simp))

/-- A result reported while the exclusion was held resumes the worker and awaits confirmation. -/
theorem acknowledgePreparation_decides (h : Sound s) {e : WorkerCancellationAcknowledged}
    {a : PreparationAction} (ha : s.preparation = some a) (hi : a.actionId = e.actionId)
    (hs : a.lifecycle = .stopping) :
    Decides (acknowledgePreparation s e a) (Acts s (.workerCancellationAcknowledged e)) := by
  have hmem := State.mem_actions_preparation ha
  have hends : Ends (.workerCancellationAcknowledged e) (.preparation a) e.terminalLifecycle :=
    .acknowledged hi.symm hs
  unfold acknowledgePreparation
  dsimp only
  split
  next hc =>
    have hresult := Continues.preparation a
      (a.resume.settle .resultPending (some e.exitStatus) (by decide)) a.kind_preparation
      ⟨rfl, rfl, rfl, rfl⟩
    have hstep := Step.preparationReported _ a _ _ ha (hc ▸ hends) hresult rfl rfl
    unfold preparationFinished
    dsimp only
    rw [if_neg (by simp [WorkerAction.resume]), if_neg (by simp [WorkerAction.resume]),
      if_pos ⟨rfl, rfl⟩]
    exact .of_decision (.mk hstep (by simp))
  next hc =>
    rw [h.tidy.appendTombstone_eq _ e.terminal, Outcome.ok_bind]
    split
    next hf =>
      exact acknowledgeFailure_decides (r := .preparation a) hmem hi hs
        (Continues.settlePreparation e.terminalLifecycle (some e.exitStatus) e.not_admitted a) rfl
        hf (.inr ⟨rfl, rfl⟩) true
    next hf =>
      exact .of_decision (.mk (Step.closed _ (.preparation a) e.terminalLifecycle s.verifySinceMs
        s.planDiscards _ hmem (by rintro ⟨⟩) hends (.inr (acknowledged_cancelled hc hf)) (.inr rfl)
        (.inr ⟨rfl, rfl⟩) rfl) (by simp))

theorem acknowledgeFinalization_decides (h : Sound s) {e : WorkerCancellationAcknowledged}
    {a : FinalizationAction} (ha : s.finalization = some a) (hi : a.actionId = e.actionId)
    (hs : a.lifecycle = .stopping) :
    Decides (acknowledgeFinalization s e a) (Acts s (.workerCancellationAcknowledged e)) := by
  have hmem := State.mem_actions_finalization ha
  have hends : Ends (.workerCancellationAcknowledged e) (.finalization a) e.terminalLifecycle :=
    .acknowledged hi.symm hs
  unfold acknowledgeFinalization
  dsimp only
  split
  next hc =>
    have hresult := Continues.finalization a
      (a.resume.settle .resultPending (some e.exitStatus) (by decide)) a.kind_finalization
      ⟨rfl, rfl, rfl, rfl⟩
    have hstep := Step.finalizationReported _ a _ _ ha (hc ▸ hends) hresult rfl rfl
    unfold finalizationFinished
    dsimp only
    rw [if_neg (by simp [WorkerAction.resume]), if_neg (by simp [WorkerAction.resume])]
    exact .of_decision (.mk hstep (by simp))
  next hc =>
    rw [h.tidy.appendTombstone_eq _ e.terminal, Outcome.ok_bind]
    split
    next hf =>
      exact acknowledgeFailure_decides (r := .finalization a) hmem hi hs
        (Continues.settleFinalization e.terminalLifecycle (some e.exitStatus) e.not_admitted a) rfl
        hf (.inl rfl) _
    next hf =>
      exact .of_decision (.mk (Step.closed _ (.finalization a) e.terminalLifecycle none [] _ hmem
        (by rintro ⟨⟩) hends (.inr (acknowledged_cancelled hc hf)) (.inl rfl) (.inl rfl) rfl) (by simp))

theorem cancellationAcknowledged_decides (h : Sound s) (e : WorkerCancellationAcknowledged) :
    Decides (cancellationAcknowledged s e) (Step s (.workerCancellationAcknowledged e)) := by
  unfold cancellationAcknowledged
  split
  next => exact .of_decision (.ignored _ trivial)
  next => exact .of_decision (.ignored _ trivial)
  next a hfound =>
    obtain ⟨hr, hi⟩ := State.actionForId_eq_some hfound
    split
    next hs =>
      exact (h.acknowledgeProbe_decides (State.probe_of_mem hr) hi hs).mono fun _ hd => hd.step
    next => exact .of_decision (.ignored _ trivial)
  next a hfound =>
    obtain ⟨hr, hi⟩ := State.actionForId_eq_some hfound
    split
    next hs =>
      exact (h.acknowledgeApplication_decides (State.application_of_mem hr) hi hs).mono fun _ hd => hd.step
    next => exact .of_decision (.ignored _ trivial)
  next a hfound =>
    obtain ⟨hr, hi⟩ := State.actionForId_eq_some hfound
    split
    next hs =>
      exact (h.acknowledgePreparation_decides (State.preparation_of_mem hr) hi hs).mono fun _ hd => hd.step
    next => exact .of_decision (.ignored _ trivial)
  next a hfound =>
    obtain ⟨hr, hi⟩ := State.actionForId_eq_some hfound
    split
    next hs =>
      exact (h.acknowledgeFinalization_decides (State.finalization_of_mem hr) hi hs).mono fun _ hd => hd.step
    next => exact .of_decision (.ignored _ trivial)

theorem resumeStarted_decides (e : ControllerStarted)
    (hq : s.preparationState ≠ .preparePending) :
    Decides (resumeStarted { s with controllerInstance := e.controllerInstance }
      e.metadata.processedAtMs) (Step s (.controllerStarted e)) := by
  unfold resumeStarted
  dsimp only
  by_cases hv : s.phase = .verifying
  · rw [if_pos hv]
    split
    next =>
      exact .of_decision (Step.resumed e none [] _ hq (by rw [if_pos hv]) (.inl rfl))
    next =>
      exact .of_decision (Step.resumed e none [.requestObservation .startup] _ hq
        (by rw [if_pos hv]) (.inr rfl))
  · rw [if_neg hv]
    split
    next =>
      exact .of_decision (Step.resumed e s.verifySinceMs [] _ hq (by rw [if_neg hv])
        (.inl rfl))
    next =>
      exact .of_decision (Step.resumed e s.verifySinceMs [.requestObservation .startup] _ hq
        (by rw [if_neg hv]) (.inr rfl))

theorem controllerStarted_decides (h : Sound s) (e : ControllerStarted) :
    Decides (controllerStarted s e) (Step s (.controllerStarted e)) := by
  let s' : State := { s with controllerInstance := e.controllerInstance }
  have tidy : s'.Tidy := h.tidy
  unfold controllerStarted
  dsimp only
  split
  next a hp ha =>
    have hl : a.lifecycle = .admitted := by
      rcases h.control.preparation_state ha with ⟨hl, -⟩ | ⟨-, hq⟩ | ⟨-, hq⟩ | ⟨-, hq⟩
      · exact hl
      all_goals simp [hp, PreparationState.active] at hq
    let s'' : State :=
      { s'.bury a.actionId .cancelled with
        phase := .discoverFast
        preparationState := .prepareIdle
        preparation := none
        verifySinceMs := none }
    have hdrop : discardPlanning s'' = .ok (s''.dropPlan, s''.planDiscards) :=
      State.Tidy.discardPlanning_eq (tidy.burial a.actionId .cancelled)
    rw [tidy.appendTombstone_eq _ rfl, Outcome.ok_bind, hdrop, Outcome.ok_bind]
    exact .of_decision (Step.restarted e a _ _ _ ha hl (.preparation a ha) rfl)
  next a hp ha _ => exact .of_decision (Step.retried e a _ ha hp rfl)
  next hpending _ =>
    refine resumeStarted_decides e fun hs => ?_
    obtain ⟨a, ha⟩ := h.control.preparation_isSome (by simp [hs])
    exact hpending a hs ha

theorem bootChanged_decides (e : BootChanged) :
    Decides (bootChanged s e) (Step s (.bootChanged e)) := by
  unfold bootChanged
  split
  next hb => exact .of_decision (.ignored _ hb)
  next hb => exact .of_decision (.booted e (not_not.mp hb))

theorem observationFailed_decides (e : ObservationFailed) :
    Decides (observationFailed s e) (Step s (.observationFailed e)) :=
  .of_decision (.observationFailed e _ rfl)

theorem timerFired_decides (e : TimerFired) :
    Decides (timerFired s e) (Step s (.timerFired e)) := by
  unfold timerFired
  dsimp only
  split
  next => exact .of_decision (.ignored _ trivial)
  next =>
    split
    next => exact .of_decision (.ignored _ trivial)
    next => exact .of_decision (.timerFired e _ rfl)

end Sound

end MonitorController
