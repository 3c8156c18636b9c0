import MonitorController.Recovery.Recover
import MonitorController.Transition.Workers

/-! # Replays touch one slot

An event which is addressed to one action changes no other slot and clears no
other recovery unit, whatever else the state holds.
-/

namespace MonitorController

open Outcome

namespace ActionRecord

theorem unit?_matches {r : ActionRecord} {u : WorkerUnit} (h : r.unit? = some u) :
    u.actionId = r.actionId := by
  cases r with
  | probe a => exact a.unit_matches u h
  | application a => exact a.unit_matches u h
  | planning a => cases h
  | preparation a => exact a.unit_matches u h
  | finalization a => exact a.unit_matches u h

theorem worker?_of_kind {r : ActionRecord} (h : r.kind ≠ .plan) :
    ∃ w, r.worker? = some w ∧ w.lifecycle = r.lifecycle ∧ w.actionId = r.actionId := by
  cases r with
  | probe a => exact ⟨_, rfl, rfl, rfl⟩
  | application a => exact ⟨_, rfl, rfl, rfl⟩
  | planning a => exact absurd rfl h
  | preparation a => exact ⟨_, rfl, rfl, rfl⟩
  | finalization a => exact ⟨_, rfl, rfl, rfl⟩

end ActionRecord

/-- What an event addressed to one action leaves alone. -/
structure Spares (a : ActionId) (s s' : State) : Prop where
  bootId : s'.bootId = s.bootId
  displayIdentity : s'.displayIdentity = s.displayIdentity
  finalized : s'.desktopFinalizedProfile = s.desktopFinalizedProfile
  other : ∀ k, k ≠ a.kind → s'.slot k = s.slot k
  own : ∀ r ∈ s'.slot a.kind, r.actionId = a ∨ s.slot a.kind = some r
  units : ∀ u : WorkerUnit, u.actionId ≠ a → (u ∈ s'.recoveryUnits ↔ u ∈ s.recoveryUnits)
  fewer : s'.recoveryUnits.Sublist s.recoveryUnits

namespace Spares

variable {a : ActionId} {s t s' : State}

theorem refl (a : ActionId) (s : State) : Spares a s s where
  bootId := rfl
  displayIdentity := rfl
  finalized := rfl
  other _ _ := rfl
  own _ hr := .inr hr
  units _ _ := .rfl
  fewer := .refl _

theorem trans (h : Spares a s t) (h' : Spares a t s') : Spares a s s' where
  bootId := h'.bootId.trans h.bootId
  displayIdentity := h'.displayIdentity.trans h.displayIdentity
  finalized := h'.finalized.trans h.finalized
  other k hk := (h'.other k hk).trans (h.other k hk)
  own r hr := by
    rcases h'.own r hr with hid | hold
    · exact .inl hid
    · exact h.own r hold
  units u hu := (h'.units u hu).trans (h.units u hu)
  fewer := h'.fewer.trans h.fewer

theorem timed (a : ActionId) (s : State) (t : Nat) : Spares a s { s with nextTimerMs := some t } :=
  { refl a s with }

theorem mem_actions (h : Spares a s s') (hs : ∀ r ∈ s.slot a.kind, r.actionId = a)
    {r : ActionRecord} (hr : r.actionId ≠ a) : r ∈ s'.actions ↔ r ∈ s.actions := by
  have hslot : ∀ u v : State, (∀ q ∈ u.slot a.kind, q.actionId = a) →
      (∀ k, k ≠ a.kind → v.slot k = u.slot k) → r ∈ u.actions → r ∈ v.actions := by
    intro u v hu hother hmem
    have hfound := State.slot_of_mem_actions hmem
    have hkind : r.kind ≠ a.kind := by
      intro hk
      exact hr (hu r (hk ▸ hfound))
    exact State.mem_actions_of_slot ((hother _ hkind).trans hfound)
  have hown : ∀ q ∈ s'.slot a.kind, q.actionId = a := by
    intro q hq
    rcases h.own q hq with hid | hold
    · exact hid
    · exact hs q hold
  exact ⟨hslot s' s hown fun k hk => (h.other k hk).symm, hslot s s' hs h.other⟩

end Spares

section Helpers

variable {P : State → Prop} {s : State}

theorem ensures_decision {es : List Effect} (h : P s) :
    Ensures (decision s es) fun d => P d.state := by
  intro d hd
  obtain ⟨u, -, hok⟩ := bind_eq_ok.mp hd
  exact Except.ok.inj hok ▸ h

theorem ensures_schedule {t : Nat} {es : List Effect} (h : P { s with nextTimerMs := some t }) :
    Ensures (schedule s t es) fun d => P d.state :=
  ensures_decision h

theorem ensures_appendTombstone (s : State) (a : ActionId) (l : ActionLifecycle) :
    Ensures (appendTombstone s a l) fun s' =>
      ∃ ts, s' = { clearRecoveryUnit s a with actionTombstones := ts } := by
  intro s' hs'
  unfold appendTombstone at hs'
  split at hs'
  · obtain ⟨ts, -, hok⟩ := bind_eq_ok.mp hs'
    exact ⟨ts, (Except.ok.inj hok).symm⟩
  · cases hs'

theorem mem_clearRecoveryUnit {a : ActionId} {u : WorkerUnit} (hu : u.actionId ≠ a) :
    u ∈ (clearRecoveryUnit s a).recoveryUnits ↔ u ∈ s.recoveryUnits := by
  simp [clearRecoveryUnit, hu]

end Helpers

section Slots

variable {a : ActionId} {s s' : State}

theorem Spares.slot {k : ActionKind} (hk : a.kind = k)
    (hother : ∀ l, l ≠ k → s'.slot l = s.slot l) (hown : ∀ r ∈ s'.slot k, r.actionId = a)
    (hboot : s'.bootId = s.bootId) (hdisplay : s'.displayIdentity = s.displayIdentity)
    (hfinalized : s'.desktopFinalizedProfile = s.desktopFinalizedProfile)
    (hunits : s'.recoveryUnits = s.recoveryUnits ∨
      s'.recoveryUnits = (clearRecoveryUnit s a).recoveryUnits) : Spares a s s' where
  bootId := hboot
  displayIdentity := hdisplay
  finalized := hfinalized
  other l hl := hother l (hk ▸ hl)
  own r hr := .inl (hown r (hk ▸ hr))
  units u hu := by
    rcases hunits with h | h
    · rw [h]
    · rw [h, mem_clearRecoveryUnit hu]
  fewer := by
    rcases hunits with h | h
    · rw [h]
    · rw [h]
      exact List.filter_sublist

theorem probeDispatched_spares (s : State) (e : ProbeDispatched) :
    Ensures (probeDispatched s e) fun d => Spares e.actionId s d.state := by
  unfold probeDispatched
  split
  next => exact ensures_decision (.refl _ _)
  next w hw =>
    split
    next hg =>
      refine ensures_decision (.slot e.kind_eq ?_ ?_ rfl rfl rfl (.inl rfl))
      · intro l hl
        cases l <;> first | rfl | exact absurd rfl hl
      · rintro r ⟨⟩
        exact hg.2.1
    next => exact ensures_decision (.refl _ _)

theorem applicationDispatched_spares (s : State) (e : ApplicationDispatched) :
    Ensures (applicationDispatched s e) fun d => Spares e.actionId s d.state := by
  unfold applicationDispatched
  split
  next => exact ensures_decision (.refl _ _)
  next w hw =>
    split
    next hg =>
      refine ensures_decision (.slot e.kind_eq ?_ ?_ rfl rfl rfl (.inl rfl))
      · intro l hl
        cases l <;> first | rfl | exact absurd rfl hl
      · rintro r ⟨⟩
        exact hg.2.1
    next => exact ensures_decision (.refl _ _)

theorem preparationDispatched_spares (s : State) (e : PreparationDispatched) :
    Ensures (preparationDispatched s e) fun d => Spares e.actionId s d.state := by
  unfold preparationDispatched
  split
  next => exact ensures_decision (.refl _ _)
  next w hw =>
    split
    next hg =>
      refine ensures_decision (.slot e.kind_eq ?_ ?_ rfl rfl rfl (.inl rfl))
      · intro l hl
        cases l <;> first | rfl | exact absurd rfl hl
      · rintro r ⟨⟩
        exact hg.2.1
    next => exact ensures_decision (.refl _ _)

theorem finalizationDispatched_spares (s : State) (e : FinalizationDispatched) :
    Ensures (finalizationDispatched s e) fun d => Spares e.actionId s d.state := by
  unfold finalizationDispatched
  split
  next => exact ensures_decision (.refl _ _)
  next w hw =>
    split
    next hg =>
      refine ensures_decision (.slot e.kind_eq ?_ ?_ rfl rfl rfl (.inl rfl))
      · intro l hl
        cases l <;> first | rfl | exact absurd rfl hl
      · rintro r ⟨⟩
        exact hg.2.1
    next => exact ensures_decision (.refl _ _)

end Slots

section Ended

variable (s : State) (phase : ControllerPhase) (v : Option Nat) (t : Option Nat)
  (ts : List ActionTombstone)

theorem Spares.probe (w : ProbeAction) (b : Option ProbeAction)
    (hb : ∀ c ∈ b, c.actionId = w.actionId) :
    Spares w.actionId s
      { clearRecoveryUnit s w.actionId with
        phase := phase
        verifySinceMs := v
        nextTimerMs := t
        probe := b
        actionTombstones := ts } := by
  refine .slot w.kind_probe ?_ ?_ rfl rfl rfl (.inr rfl)
  · intro l hl
    cases l <;> first | rfl | exact absurd rfl hl
  · intro r hr
    obtain ⟨c, hc, rfl⟩ := Option.map_eq_some_iff.mp hr
    exact hb c hc

theorem Spares.application (w : ApplicationAction) (b : Option ApplicationAction)
    (hb : ∀ c ∈ b, c.actionId = w.actionId) :
    Spares w.actionId s
      { clearRecoveryUnit s w.actionId with
        phase := phase
        verifySinceMs := v
        nextTimerMs := t
        application := b
        actionTombstones := ts } := by
  refine .slot w.kind_application ?_ ?_ rfl rfl rfl (.inr rfl)
  · intro l hl
    cases l <;> first | rfl | exact absurd rfl hl
  · intro r hr
    obtain ⟨c, hc, rfl⟩ := Option.map_eq_some_iff.mp hr
    exact hb c hc

theorem Spares.preparation (w : PreparationAction) (b : Option PreparationAction)
    (hb : ∀ c ∈ b, c.actionId = w.actionId) (q : PreparationState) :
    Spares w.actionId s
      { clearRecoveryUnit s w.actionId with
        phase := phase
        preparationState := q
        verifySinceMs := v
        nextTimerMs := t
        preparation := b
        actionTombstones := ts } := by
  refine .slot w.kind_preparation ?_ ?_ rfl rfl rfl (.inr rfl)
  · intro l hl
    cases l <;> first | rfl | exact absurd rfl hl
  · intro r hr
    obtain ⟨c, hc, rfl⟩ := Option.map_eq_some_iff.mp hr
    exact hb c hc

theorem Spares.finalization (w : FinalizationAction) (b : Option FinalizationAction)
    (hb : ∀ c ∈ b, c.actionId = w.actionId) :
    Spares w.actionId s
      { clearRecoveryUnit s w.actionId with
        phase := phase
        verifySinceMs := v
        nextTimerMs := t
        finalization := b
        actionTombstones := ts } := by
  refine .slot w.kind_finalization ?_ ?_ rfl rfl rfl (.inr rfl)
  · intro l hl
    cases l <;> first | rfl | exact absurd rfl hl
  · intro r hr
    obtain ⟨c, hc, rfl⟩ := Option.map_eq_some_iff.mp hr
    exact hb c hc

end Ended

section Finished

variable (s : State) (a : ActionId) (outcome : WorkerOutcome) (x : Option Int) (nowMs : Nat)

theorem probeFinished_spares :
    Ensures (probeFinished s a outcome x nowMs) fun d => Spares a s d.state := by
  unfold probeFinished
  split
  next => exact ensures_decision (.refl _ _)
  next w hw =>
    split
    next => exact ensures_decision (.refl _ _)
    next hg =>
      simp only [ne_eq, not_or, not_not] at hg
      obtain ⟨rfl, -⟩ := hg
      split
      next => exact ensures_schedule (.timed _ _ _)
      next =>
        cases outcome with
        | succeeded =>
          refine (ensures_appendTombstone s _ _).bind ?_
          rintro _ ⟨ts, rfl⟩
          exact ensures_schedule (.probe s _ _ _ ts w none (by rintro c ⟨⟩))
        | cancelled =>
          refine (ensures_appendTombstone s _ _).bind ?_
          rintro _ ⟨ts, rfl⟩
          exact ensures_schedule (.probe s _ _ _ ts w none (by rintro c ⟨⟩))
        | failed =>
          refine (ensures_appendTombstone s _ _).bind ?_
          rintro _ ⟨ts, rfl⟩
          exact ensures_schedule (.probe s _ _ _ ts w (some _) (by rintro c ⟨⟩; rfl))

theorem applicationFinished_spares :
    Ensures (applicationFinished s a outcome x nowMs) fun d => Spares a s d.state := by
  unfold applicationFinished
  split
  next => exact ensures_decision (.refl _ _)
  next w hw =>
    split
    next => exact ensures_decision (.refl _ _)
    next hg =>
      simp only [ne_eq, not_or, not_not] at hg
      obtain ⟨rfl, -⟩ := hg
      split
      next => exact ensures_schedule (.timed _ _ _)
      next =>
        cases outcome with
        | succeeded =>
          refine (ensures_appendTombstone s _ _).bind ?_
          rintro _ ⟨ts, rfl⟩
          exact ensures_schedule (.application s _ _ _ ts w none (by rintro c ⟨⟩))
        | cancelled =>
          refine (ensures_appendTombstone s _ _).bind ?_
          rintro _ ⟨ts, rfl⟩
          exact ensures_schedule (.application s _ _ _ ts w none (by rintro c ⟨⟩))
        | failed =>
          refine (ensures_appendTombstone s _ _).bind ?_
          rintro _ ⟨ts, rfl⟩
          exact ensures_schedule (.application s _ _ _ ts w (some _) (by rintro c ⟨⟩; rfl))

theorem preparationFinished_spares (planHash : PlanHash) :
    Ensures (preparationFinished s a outcome x nowMs planHash) fun d => Spares a s d.state := by
  unfold preparationFinished
  split
  next => exact ensures_decision (.refl _ _)
  next w hw =>
    split
    next => exact ensures_decision (.refl _ _)
    next hg =>
      simp only [ne_eq, not_or, not_not] at hg
      obtain ⟨rfl, -⟩ := hg
      split
      next => exact ensures_schedule (.timed _ _ _)
      next =>
        split
        next =>
          exact ensures_schedule (.preparation s _ _ _ _ w (some _) (by rintro c ⟨⟩; rfl) _)
        next =>
          split
          next =>
            refine (ensures_appendTombstone s _ _).bind ?_
            rintro _ ⟨ts, rfl⟩
            exact ensures_schedule (.preparation s _ _ _ ts w none (by rintro c ⟨⟩) _)
          next =>
            refine (ensures_appendTombstone s _ _).bind ?_
            rintro _ ⟨ts, rfl⟩
            exact ensures_schedule (.preparation s _ _ _ ts w (some _) (by rintro c ⟨⟩; rfl) _)

theorem finalizationFinished_spares :
    Ensures (finalizationFinished s a outcome x nowMs) fun d => Spares a s d.state := by
  unfold finalizationFinished
  split
  next => exact ensures_decision (.refl _ _)
  next w hw =>
    split
    next => exact ensures_decision (.refl _ _)
    next hg =>
      simp only [ne_eq, not_or, not_not] at hg
      obtain ⟨rfl, -⟩ := hg
      split
      next => exact ensures_schedule (.timed _ _ _)
      next =>
        cases outcome with
        | succeeded =>
          exact ensures_schedule (.finalization s _ _ _ _ w (some _) (by rintro c ⟨⟩; rfl))
        | cancelled =>
          refine (ensures_appendTombstone s _ _).bind ?_
          rintro _ ⟨ts, rfl⟩
          exact ensures_schedule (.finalization s _ _ _ ts w none (by rintro c ⟨⟩))
        | failed =>
          refine (ensures_appendTombstone s _ _).bind ?_
          rintro _ ⟨ts, rfl⟩
          exact ensures_schedule (.finalization s _ _ _ ts w (some _) (by rintro c ⟨⟩; rfl))

end Finished

section Stopped

variable (s : State)

/-- The doubt about a plan fails the plan, which is not addressed by a worker's result. -/
theorem workerStatusUnknown_spares (e : WorkerStatusUnknown) (hk : e.actionId.kind ≠ .plan) :
    Ensures (workerStatusUnknown s e) fun d => Spares e.actionId s d.state := by
  unfold workerStatusUnknown
  split
  next => exact ensures_decision (.refl _ _)
  next r hfound =>
    obtain ⟨hr, hid⟩ := State.actionForId_eq_some hfound
    rw [← hid]
    split
    next => exact ensures_decision (.refl _ _)
    next =>
      cases r with
      | planning w => exact absurd (hid ▸ w.kind_plan) hk
      | probe w => 
        refine ensures_schedule (.slot w.kind_probe ?_ ?_ rfl rfl rfl (.inl rfl))
        · intro l hl
          cases l <;> first | rfl | exact absurd rfl hl
        · rintro r ⟨⟩
          rfl
      | application w =>
        refine ensures_schedule (.slot w.kind_application ?_ ?_ rfl rfl rfl (.inl rfl))
        · intro l hl
          cases l <;> first | rfl | exact absurd rfl hl
        · rintro r ⟨⟩
          rfl
      | preparation w =>
        refine ensures_schedule (.slot w.kind_preparation ?_ ?_ rfl rfl rfl (.inl rfl))
        · intro l hl
          cases l <;> first | rfl | exact absurd rfl hl
        · rintro r ⟨⟩
          rfl
      | finalization w =>
        refine ensures_schedule (.slot w.kind_finalization ?_ ?_ rfl rfl rfl (.inl rfl))
        · intro l hl
          cases l <;> first | rfl | exact absurd rfl hl
        · rintro r ⟨⟩
          rfl

variable (e : WorkerCancellationAcknowledged)

theorem ensures_acknowledgeFailure {P : State → Prop} (polled : Bool)
    (h : ∀ t, P { s with nextTimerMs := some t }) :
    Ensures (acknowledgeFailure s e polled) fun d => P d.state := by
  unfold acknowledgeFailure
  split
  · exact ensures_schedule (h _)
  · exact ensures_schedule (h _)

theorem acknowledgeProbe_spares (w : ProbeAction) :
    Ensures (acknowledgeProbe s e w) fun d => Spares w.actionId s d.state := by
  unfold acknowledgeProbe
  dsimp only
  split
  next =>
    let resumed : State :=
      { s with phase := .probing, probe := some { w with toWorkerAction := w.resume } }
    have hresumed : Spares w.actionId s resumed := by
      refine .slot w.kind_probe ?_ ?_ rfl rfl rfl (.inl rfl)
      · intro l hl
        cases l <;> first | rfl | exact absurd rfl hl
      · rintro r ⟨⟩
        rfl
    exact (probeFinished_spares resumed w.actionId _ _ _).mono fun d hd => hresumed.trans hd
  next =>
    refine (ensures_appendTombstone s _ _).bind ?_
    rintro _ ⟨ts, rfl⟩
    split
    next =>
      refine ensures_acknowledgeFailure _ _ _ fun t => ?_
      exact .probe s _ _ _ ts w (some _) (by rintro c ⟨⟩; rfl)
    next => exact ensures_schedule (.probe s _ _ _ ts w none (by rintro c ⟨⟩))

theorem acknowledgeApplication_spares (w : ApplicationAction) :
    Ensures (acknowledgeApplication s e w) fun d => Spares w.actionId s d.state := by
  unfold acknowledgeApplication
  dsimp only
  split
  next =>
    let resumed : State :=
      { s with phase := .applying, application := some { w with toWorkerAction := w.resume } }
    have hresumed : Spares w.actionId s resumed := by
      refine .slot w.kind_application ?_ ?_ rfl rfl rfl (.inl rfl)
      · intro l hl
        cases l <;> first | rfl | exact absurd rfl hl
      · rintro r ⟨⟩
        rfl
    exact (applicationFinished_spares resumed w.actionId _ _ _).mono fun d hd => hresumed.trans hd
  next =>
    refine (ensures_appendTombstone s _ _).bind ?_
    rintro _ ⟨ts, rfl⟩
    split
    next =>
      refine ensures_acknowledgeFailure _ _ _ fun t => ?_
      exact .application s _ _ _ ts w (some _) (by rintro c ⟨⟩; rfl)
    next => exact ensures_schedule (.application s _ _ _ ts w none (by rintro c ⟨⟩))

theorem acknowledgePreparation_spares (w : PreparationAction) :
    Ensures (acknowledgePreparation s e w) fun d => Spares w.actionId s d.state := by
  unfold acknowledgePreparation
  dsimp only
  split
  next =>
    let resumed : State :=
      { s with preparationState := .preparing, preparation := some { w with toWorkerAction := w.resume } }
    have hresumed : Spares w.actionId s resumed := by
      refine .slot w.kind_preparation ?_ ?_ rfl rfl rfl (.inl rfl)
      · intro l hl
        cases l <;> first | rfl | exact absurd rfl hl
      · rintro r ⟨⟩
        rfl
    exact (preparationFinished_spares resumed w.actionId _ _ _ _).mono fun d hd => hresumed.trans hd
  next =>
    refine (ensures_appendTombstone s _ _).bind ?_
    rintro _ ⟨ts, rfl⟩
    split
    next =>
      refine ensures_acknowledgeFailure _ _ _ fun t => ?_
      exact .preparation s _ _ _ ts w (some _) (by rintro c ⟨⟩; rfl) _
    next => exact ensures_schedule (.preparation s _ _ _ ts w none (by rintro c ⟨⟩) _)

theorem acknowledgeFinalization_spares (w : FinalizationAction) :
    Ensures (acknowledgeFinalization s e w) fun d => Spares w.actionId s d.state := by
  unfold acknowledgeFinalization
  dsimp only
  split
  next =>
    let resumed : State :=
      { s with phase := .finalizing, finalization := some { w with toWorkerAction := w.resume } }
    have hresumed : Spares w.actionId s resumed := by
      refine .slot w.kind_finalization ?_ ?_ rfl rfl rfl (.inl rfl)
      · intro l hl
        cases l <;> first | rfl | exact absurd rfl hl
      · rintro r ⟨⟩
        rfl
    exact (finalizationFinished_spares resumed w.actionId _ _ _).mono fun d hd => hresumed.trans hd
  next =>
    refine (ensures_appendTombstone s _ _).bind ?_
    rintro _ ⟨ts, rfl⟩
    split
    next =>
      refine ensures_acknowledgeFailure _ _ _ fun t => ?_
      exact .finalization s _ _ _ ts w (some _) (by rintro c ⟨⟩; rfl)
    next => exact ensures_schedule (.finalization s _ _ _ ts w none (by rintro c ⟨⟩))

theorem cancellationAcknowledged_spares :
    Ensures (cancellationAcknowledged s e) fun d => Spares e.actionId s d.state := by
  unfold cancellationAcknowledged
  split
  next => exact ensures_decision (.refl _ _)
  next => exact ensures_decision (.refl _ _)
  next w hfound =>
    rw [← (State.actionForId_eq_some hfound).2]
    split
    next => exact acknowledgeProbe_spares s e w
    next => exact ensures_decision (.refl _ _)
  next w hfound =>
    rw [← (State.actionForId_eq_some hfound).2]
    split
    next => exact acknowledgeApplication_spares s e w
    next => exact ensures_decision (.refl _ _)
  next w hfound =>
    rw [← (State.actionForId_eq_some hfound).2]
    split
    next => exact acknowledgePreparation_spares s e w
    next => exact ensures_decision (.refl _ _)
  next w hfound =>
    rw [← (State.actionForId_eq_some hfound).2]
    split
    next => exact acknowledgeFinalization_spares s e w
    next => exact ensures_decision (.refl _ _)

end Stopped

section Replays

variable {s : State}

theorem reduce_spares {e : Event} {a : ActionId}
    (h : Ensures (reduceEvent s e) fun d => Spares a s d.state)
    (hb : ∀ b, e ≠ .bootChanged b) : Ensures (reduce s e) fun d => Spares a s d.state := by
  intro d hd
  obtain ⟨u, -, hd⟩ := bind_eq_ok.mp hd
  have hkept : noOp s = .ok d → Spares a s d.state := fun hn =>
    ensures_decision (.refl _ _) d hn
  split at hd
  next b _ => exact absurd rfl (hb b)
  next =>
    split at hd
    next => exact hkept hd
    next =>
      split at hd
      next => exact hkept hd
      next => exact h d hd

variable {result : VerifiedWorkerResult} {metadata : EventMetadata}

theorem resultDispatch_spares {e : Event} (he : resultDispatchEvent result metadata = .ok e) :
    Ensures (reduce s e) fun d => Spares result.actionId s d.state := by
  unfold resultDispatchEvent at he
  split at he
  all_goals cases he
  · exact reduce_spares (probeDispatched_spares s _) (by rintro b ⟨⟩)
  · exact reduce_spares (applicationDispatched_spares s _) (by rintro b ⟨⟩)
  · exact reduce_spares (preparationDispatched_spares s _) (by rintro b ⟨⟩)
  · exact reduce_spares (finalizationDispatched_spares s _) (by rintro b ⟨⟩)

theorem resultCompletion_spares {e : Event} (he : resultCompletionEvent result metadata = .ok e) :
    Ensures (reduce s e) fun d => Spares result.actionId s d.state := by
  unfold resultCompletionEvent at he
  split at he
  next => cases he
  next outcome _ =>
    dsimp only at he
    split at he
    · cases he
      exact reduce_spares (probeFinished_spares s _ _ _ _) (by rintro b ⟨⟩)
    · cases he
      exact reduce_spares (applicationFinished_spares s _ _ _ _) (by rintro b ⟨⟩)
    · split at he
      · cases he
      · cases he
        exact reduce_spares (preparationFinished_spares s _ _ _ _ _) (by rintro b ⟨⟩)
    · cases he
      exact reduce_spares (finalizationFinished_spares s _ _ _ _) (by rintro b ⟨⟩)
    · cases he

theorem resultAcknowledgement_spares :
    Ensures (reduce s (resultAcknowledgement result metadata)) fun d =>
      Spares result.actionId s d.state :=
  reduce_spares (cancellationAcknowledged_spares s _) (by rintro b ⟨⟩)

theorem resultDoubt_spares (hk : result.actionId.kind ≠ .plan) :
    Ensures (reduce s (resultDoubt result metadata)) fun d => Spares result.actionId s d.state :=
  reduce_spares (workerStatusUnknown_spares s _ hk) (by rintro b ⟨⟩)

theorem concludeResult_spares {r : ActionRecord} (hk : result.actionId.kind ≠ .plan) :
    Ensures (concludeResult s r result metadata) (Spares result.actionId s) := by
  unfold concludeResult
  split
  next =>
    refine resultAcknowledgement_spares.bind fun d hd => ?_
    rintro _ ⟨⟩
    exact hd
  next =>
    split
    next =>
      refine (resultDoubt_spares hk).bind fun doubted hdoubted => ?_
      refine resultAcknowledgement_spares.bind fun d hd => ?_
      rintro _ ⟨⟩
      exact hdoubted.trans hd
    next =>
      intro s' hs'
      obtain ⟨e, he, hs'⟩ := bind_eq_ok.mp hs'
      obtain ⟨d, hd, hs'⟩ := bind_eq_ok.mp hs'
      obtain rfl := Except.ok.inj hs'
      exact resultCompletion_spares he d hd

theorem applyVerifiedResult_spares {r : ActionRecord} (hid : r.actionId = result.actionId) :
    Ensures (applyVerifiedResult s r result) fun o => ∀ s' ∈ o, Spares result.actionId s s' := by
  unfold applyVerifiedResult
  split
  next =>
    rintro _ ⟨⟩
    exact fun s' hs' => nomatch hs'
  next hplan =>
    have hk : result.actionId.kind ≠ .plan := by
      rw [← hid, r.kind_eq]
      cases r with
      | planning w => exact absurd rfl (hplan w)
      | probe w => rintro ⟨⟩
      | application w => rintro ⟨⟩
      | preparation w => rintro ⟨⟩
      | finalization w => rintro ⟨⟩
    dsimp only
    split
    next =>
      intro o ho
      obtain ⟨e, he, ho⟩ := bind_eq_ok.mp ho
      obtain ⟨d, hd, ho⟩ := bind_eq_ok.mp ho
      have hlaunched := resultDispatch_spares he d hd
      split at ho
      next => cases ho; exact fun s' hs' => nomatch hs'
      next =>
        obtain ⟨concluded, hc, ho⟩ := bind_eq_ok.mp ho
        cases ho
        rintro _ ⟨⟩
        exact hlaunched.trans (concludeResult_spares hk _ hc)
    next =>
      intro o ho
      obtain ⟨concluded, hc, ho⟩ := bind_eq_ok.mp ho
      cases ho
      rintro _ ⟨⟩
      exact concludeResult_spares hk _ hc

/-- What reconciling the results of some actions leaves alone. -/
structure Reconciles (s : State) (ids : List ActionId) (r : Reconciliation) : Prop where
  bootId : r.state.bootId = s.bootId
  displayIdentity : r.state.displayIdentity = s.displayIdentity
  finalized : r.state.desktopFinalizedProfile = s.desktopFinalizedProfile
  actions : ∀ q : ActionRecord, q.actionId ∉ ids → (q ∈ r.state.actions ↔ q ∈ s.actions)
  units : ∀ u : WorkerUnit, u.actionId ∉ ids →
    (u ∈ r.state.recoveryUnits ↔ u ∈ s.recoveryUnits)
  fewer : r.state.recoveryUnits.Sublist s.recoveryUnits
  matched : ∀ a ∈ r.matched, a ∈ ids

variable {ids : List ActionId} {r : Reconciliation}

theorem Reconciles.spares (h : Reconciles s ids r) {a : ActionId} (ha : a ∈ ids) {s' : State}
    {q : ActionRecord} (hq : r.state.actionForId a = some q) (hspares : Spares a r.state s')
    {changed : Bool} {reasons : List String} :
    Reconciles s ids ⟨s', a :: r.matched, changed, reasons⟩ := by
  obtain ⟨hmem, hid⟩ := State.actionForId_eq_some hq
  have hslot : ∀ p ∈ r.state.slot a.kind, p.actionId = a := by
    intro p hp
    rw [← hid, q.kind_eq, State.slot_of_mem_actions hmem] at hp
    obtain rfl := Option.mem_some.mp hp
    exact hid
  constructor
  · exact hspares.bootId.trans h.bootId
  · exact hspares.displayIdentity.trans h.displayIdentity
  · exact hspares.finalized.trans h.finalized
  · intro p hp
    have hne : p.actionId ≠ a := fun heq => hp (heq ▸ ha)
    exact (hspares.mem_actions hslot hne).trans (h.actions p hp)
  · intro u hu
    have hne : u.actionId ≠ a := fun heq => hu (heq ▸ ha)
    exact (hspares.units u hne).trans (h.units u hu)
  · exact hspares.fewer.trans h.fewer
  · intro b hb
    rcases List.mem_cons.mp hb with rfl | hb
    · exact ha
    · exact h.matched b hb

theorem reconcileAction_reconciles (h : Reconciles s ids r) (ha : result.actionId ∈ ids)
    {q : ActionRecord} (hq : r.state.actionForId result.actionId = some q) :
    Ensures (reconcileAction r q result) (Reconciles s ids) := by
  have hkept (changed : Bool) (reasons : List String) :
      Reconciles s ids ⟨r.state, result.actionId :: r.matched, changed, reasons⟩ :=
    h.spares ha hq (.refl _ _)
  unfold reconcileAction
  dsimp only [Reconciliation.blame]
  split
  next =>
    rintro _ ⟨⟩
    exact hkept _ _
  next =>
    split
    next =>
      split
      next =>
        rintro _ ⟨⟩
        exact hkept _ _
      next =>
        rintro _ ⟨⟩
        exact hkept _ _
    next =>
      refine (applyVerifiedResult_spares (State.actionForId_eq_some hq).2).bind fun o ho => ?_
      cases o with
      | none =>
        rintro _ ⟨⟩
        exact hkept _ _
      | some s' =>
        have hs' := ho s' rfl
        dsimp only
        split
        next =>
          rintro _ ⟨⟩
          exact h.spares ha hq hs'
        next =>
          rintro _ ⟨⟩
          exact h.spares ha hq hs'

theorem reconcileResult_reconciles (h : Reconciles s ids r) (ha : result.actionId ∈ ids) :
    Ensures (reconcileResult r result) (Reconciles s ids) := by
  unfold reconcileResult
  split
  next =>
    rintro _ ⟨⟩
    exact h
  next =>
    rintro _ ⟨⟩
    exact h
  next q _ hq => exact reconcileAction_reconciles h ha hq

theorem reconcileVerifiedResults_reconciles (s : State) (results : List VerifiedWorkerResult) :
    Ensures (reconcileVerifiedResults s results)
      (Reconciles s (results.map (·.actionId))) := by
  refine Ensures.foldlM (fun r hr v hv => ?_) ?_
  · exact reconcileResult_reconciles hr (List.mem_map.mpr ⟨v, mem_sortedByAction.mp hv, rfl⟩)
  · exact ⟨rfl, rfl, rfl, fun _ _ => .rfl, fun _ _ => .rfl, .refl _, List.forall_mem_nil _⟩

end Replays

end MonitorController
