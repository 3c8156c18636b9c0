import MonitorController.Safety.Stops

/-! # Stop intents

A stop is requested with the verdict the action carries, and the first request
is recorded for good. Only a preparation is stopped twice with an acknowledgement
in between, and only then can the verdict have been dropped.
-/

namespace MonitorController

/-- The lifecycle with which the runtime requests the stop of the action. -/
def State.stopLifecycle? (s : State) (a : ActionId) : Option ActionLifecycle :=
  ((s.actionForId a).bind ActionRecord.worker?).map fun w => w.terminalAfterStop.getD .cancelled

theorem State.record_of_worker {s : State} {v : WorkerAction} (hv : v ∈ s.mutators) :
    ∃ r ∈ s.actions, r.actionId = v.actionId ∧ r.worker? = some v := by
  rcases State.mem_mutators.mp hv with ⟨a, ha, rfl⟩ | ⟨a, ha, rfl⟩ | ⟨a, ha, rfl⟩ | ⟨a, ha, rfl⟩
  · exact ⟨_, State.mem_actions_probe ha, rfl, rfl⟩
  · exact ⟨_, State.mem_actions_application ha, rfl, rfl⟩
  · exact ⟨_, State.mem_actions_preparation ha, rfl, rfl⟩
  · exact ⟨_, State.mem_actions_finalization ha, rfl, rfl⟩

theorem State.worker_of_mem {s : State} {v : WorkerAction} (hv : v ∈ s.mutators) :
    (s.actionForId v.actionId).bind ActionRecord.worker? = some v := by
  obtain ⟨r, hr, hi, hw⟩ := State.record_of_worker hv
  rw [← hi, State.actionForId_of_mem hr]
  exact hw

theorem State.worker_unique {s : State} {v w : WorkerAction} (hv : v ∈ s.mutators)
    (hw : w ∈ s.mutators) (hi : v.actionId = w.actionId) : v = w :=
  Option.some.inj ((State.worker_of_mem hv).symm.trans (hi ▸ State.worker_of_mem hw))

theorem State.stopLifecycle_of_mem {s : State} {v : WorkerAction} (hv : v ∈ s.mutators) :
    s.stopLifecycle? v.actionId = some (v.terminalAfterStop.getD .cancelled) := by
  rw [State.stopLifecycle?, State.worker_of_mem hv]
  rfl

theorem State.preparation_of_worker {s : State} {v : WorkerAction} (hv : v ∈ s.mutators)
    (hk : v.actionId.kind = .preparation) : ∃ p ∈ s.preparation, p.toWorkerAction = v := by
  rcases State.mem_mutators.mp hv with ⟨a, ha, rfl⟩ | ⟨a, ha, rfl⟩ | ⟨a, ha, rfl⟩ | ⟨a, ha, rfl⟩
  · cases a.kind_probe.symm.trans hk
  · cases a.kind_application.symm.trans hk
  · exact ⟨a, ha, rfl⟩
  · cases a.kind_finalization.symm.trans hk

section Runs

variable {ms : List (Runs.Move State Event Decision)} {m : Runs.Move State Event Decision}
  {a : ActionId} {l : ActionLifecycle}

/-- A decision of the run asks to stop the action with the lifecycle. -/
def Requested (ms : List (Runs.Move State Event Decision)) (a : ActionId) (l : ActionLifecycle) :
    Prop :=
  ∃ m ∈ ms, .stopAction a ∈ m.output.effects ∧ m.after.stopLifecycle? a = some l

/-- The acknowledged completion of a preparation dropped its verdict. -/
def Dropped (ms : List (Runs.Move State Event Decision)) (a : ActionId) : Prop :=
  ∃ m ∈ ms, Completes m.before m.event a ∧
    ∃ p ∈ m.before.preparation, p.actionId = a ∧ p.terminalAfterStop ≠ none

/-- The move stops a pending preparation again after its verdict was dropped. -/
def Reverts (ms : List (Runs.Move State Event Decision)) (m : Runs.Move State Event Decision) :
    Prop :=
  Interrupts m.before m.event ∧
    ∃ p ∈ m.before.preparation, p.lifecycle = .resultPending ∧ Dropped ms p.actionId

theorem Requested.of_cons (h : Requested (m :: ms) a l) : Requested ms a l ∨
    .stopAction a ∈ m.output.effects ∧ m.after.stopLifecycle? a = some l := by
  obtain ⟨n, hn, ha⟩ := h
  rcases List.mem_cons.mp hn with rfl | hn
  · exact .inr ha
  · exact .inl ⟨n, hn, ha⟩

theorem Requested.cons (h : Requested ms a l) : Requested (m :: ms) a l := by
  obtain ⟨n, hn, ha⟩ := h
  exact ⟨n, List.mem_cons_of_mem m hn, ha⟩

theorem Dropped.cons (h : Dropped ms a) : Dropped (m :: ms) a := by
  obtain ⟨n, hn, ha⟩ := h
  exact ⟨n, List.mem_cons_of_mem m hn, ha⟩

/-- What the run knows about the stops of the retained workers. -/
structure Intended (ms : List (Runs.Move State Event Decision)) (s : State) : Prop where
  marked : ∀ a l, Requested ms a l → a.sequence ≤ s.actionSequenceHighWater
  unstopped : ∀ v ∈ s.mutators, v.lifecycle = .admitted ∨ v.lifecycle = .dispatched →
    ∀ l, ¬ Requested ms v.actionId l
  recorded : ∀ v ∈ s.mutators, ∀ l ∈ v.terminalAfterStop, Requested ms v.actionId l

/-- The stops of the run agree. -/
structure Agreed (ms : List (Runs.Move State Event Decision)) (s : State) : Prop where
  stopping : ∀ v ∈ s.mutators, v.lifecycle = .stopping → ∀ l, Requested ms v.actionId l →
    l = v.terminalAfterStop.getD .cancelled
  pending : ∀ v ∈ s.mutators, v.lifecycle = .resultPending → v.actionId.kind = .preparation →
    ∀ l, Requested ms v.actionId l → l = .cancelled ∨ Dropped ms v.actionId
  unique : ∀ a l l', Requested ms a l → Requested ms a l' → l = l'

section Move

variable {s : State} {e : Event} {d : Decision}

theorem Step.requests (h : Step s e d) (ha : .stopAction a ∈ d.effects) :
    ∃ v ∈ d.state.mutators, v.actionId = a ∧ v.lifecycle = .stopping ∧
      d.state.stopLifecycle? a = some (v.terminalAfterStop.getD .cancelled) := by
  obtain ⟨v, hv, rfl, hl⟩ := h.stops ha
  exact ⟨v, hv, rfl, hl, State.stopLifecycle_of_mem hv⟩

theorem Step.requested_before (h : Step s e d) {v : WorkerAction} (hv : v ∈ d.state.mutators)
    (hl : v.lifecycle ≠ .stopping) (hr : Requested (⟨s, e, d, d.state⟩ :: ms) v.actionId l) :
    Requested ms v.actionId l := by
  rcases hr.of_cons with hr | ⟨ha, -⟩
  · exact hr
  · obtain ⟨w, hw, hi, hwl, -⟩ := h.requests ha
    exact absurd (State.worker_unique hw hv hi ▸ hwl) hl

variable (h : Step s e d) (hto : Addressed s e d) (hi : Intended ms s)
include h hto hi

theorem Intended.move (hs : Sound d.state) : Intended (⟨s, e, d, d.state⟩ :: ms) d.state where
  marked := by
    intro a l hr
    rcases hr.of_cons with hr | ⟨ha, -⟩
    · exact (hi.marked a l hr).trans h.grows.actions.le
    · obtain ⟨v, hv, rfl, -⟩ := h.requests ha
      obtain ⟨r, hr, hid, -⟩ := State.record_of_worker hv
      exact hid ▸ (hs.identities.known hr).bounded
  unstopped := by
    intro v hv hl l hr
    have hr := h.requested_before hv (by rcases hl with hl | hl <;> simp [hl]) hr
    rcases (h.tracks hto).mem hv with ⟨hnew, -⟩ | ⟨w, hw, hid, hp⟩
    · exact absurd (hi.marked _ _ hr) (by omega)
    · rw [hid] at hr
      cases hp with
      | same hl' hx => exact hi.unstopped w hw (hl' ▸ hl) l hr
      | running hwl hx => exact hi.unstopped w hw hwl l hr
      | ended ht => rcases hl with hl | hl <;> simp [hl, ActionLifecycle.terminal] at ht
      | reported hwl hl' he => simp [hl'] at hl
      | interrupted hwl hk hl' hx he => simp [hl'] at hl
  recorded := by
    intro v hv l hx
    have hstopping : v.lifecycle = .stopping := v.post_stop_stopping (by simp [Option.mem_def.mp hx])
    rcases (h.tracks hto).mem hv with ⟨-, hl⟩ | ⟨w, hw, hid, hp⟩
    · simp [hl] at hstopping
    · rw [hid]
      cases hp with
      | same hl' hx' => exact (hi.recorded w hw l (hx' ▸ hx)).cons
      | running hwl hx' =>
        refine ⟨_, List.mem_cons_self, hx' (by simp [Option.mem_def.mp hx]), ?_⟩
        rw [← hid]
        exact (State.stopLifecycle_of_mem hv).trans (by simp [Option.mem_def.mp hx])
      | ended ht => simp [hstopping, ActionLifecycle.terminal] at ht
      | reported hwl hl' he => simp [hl'] at hstopping
      | interrupted hwl hk hl' hx' he =>
        rw [hx'] at hx
        cases hx

/-- The stops of the run still agree, unless the move stops a preparation whose verdict was
dropped. -/
theorem Agreed.move (ha : Agreed ms s) (hn : ¬ Reverts ms ⟨s, e, d, d.state⟩) :
    Agreed (⟨s, e, d, d.state⟩ :: ms) d.state := by
  have stopping : ∀ v ∈ d.state.mutators, v.lifecycle = .stopping → ∀ l,
      Requested (⟨s, e, d, d.state⟩ :: ms) v.actionId l →
      l = v.terminalAfterStop.getD .cancelled := by
    intro v hv hl l hr
    rcases hr.of_cons with hr | ⟨hstop, hlast⟩
    · rcases (h.tracks hto).mem hv with ⟨hnew, -⟩ | ⟨w, hw, hid, hp⟩
      · exact absurd (hi.marked _ _ hr) (by omega)
      · rw [hid] at hr
        cases hp with
        | same hl' hx => exact hx ▸ ha.stopping w hw (hl' ▸ hl) l hr
        | running hwl hx => exact absurd hr (hi.unstopped w hw hwl l)
        | ended ht => simp [hl, ActionLifecycle.terminal] at ht
        | reported hwl hl' he => simp [hl'] at hl
        | interrupted hwl hk hl' hx he =>
          rw [hx]
          rcases ha.pending w hw hwl hk l hr with hcancelled | hdropped
          · exact hcancelled
          · obtain ⟨p, hp, rfl⟩ := State.preparation_of_worker hw hk
            exact absurd ⟨he, p, hp, hwl, hdropped⟩ hn
    · exact Option.some.inj (hlast.symm.trans (State.stopLifecycle_of_mem hv))
  refine ⟨stopping, fun v hv hl hk l hr => ?_, fun a l l' hr hr' => ?_⟩
  · have hr := h.requested_before hv (by simp [hl]) hr
    rcases (h.tracks hto).mem hv with ⟨hnew, -⟩ | ⟨w, hw, hid, hp⟩
    · exact absurd (hi.marked _ _ hr) (by omega)
    · rw [hid] at hr hk ⊢
      cases hp with
      | same hl' hx => exact (ha.pending w hw (hl' ▸ hl) hk l hr).imp_right Dropped.cons
      | running hwl hx => exact absurd hr (hi.unstopped w hw hwl l)
      | ended ht => simp [hl, ActionLifecycle.terminal] at ht
      | reported hwl hl' he =>
        have hverdict := ha.stopping w hw hwl l hr
        cases hx : w.terminalAfterStop with
        | none => exact .inl (by simpa [hx] using hverdict)
        | some l' =>
          rcases he with hk' | ⟨-, hcompletes⟩
          · cases hk.symm.trans hk'
          · obtain ⟨p, hp, rfl⟩ := State.preparation_of_worker hw hk
            exact .inr ⟨_, List.mem_cons_self, hcompletes, p, hp, rfl, by simp [hx]⟩
      | interrupted hwl hk' hl' hx he => simp [hl'] at hl
  · rcases hr.of_cons with hold | ⟨hstop, -⟩
    · rcases hr'.of_cons with hold' | ⟨hstop, -⟩
      · exact ha.unique a l l' hold hold'
      · obtain ⟨v, hv, rfl, hl, -⟩ := h.requests hstop
        exact (stopping v hv hl l hr).trans (stopping v hv hl l' hr').symm
    · obtain ⟨v, hv, rfl, hl, -⟩ := h.requests hstop
      exact (stopping v hv hl l hr).trans (stopping v hv hl l' hr').symm

end Move

theorem intended {s : State} (h : Run ms s) : Intended ms s := by
  refine Runs.Run.history ?_ ?_ h
  · rintro _ ⟨_, _, _, _, rfl⟩
    refine ⟨?_, ?_, ?_⟩
    · rintro a l ⟨m, hm, -⟩
      cases hm
    · intro v hv
      cases hv
    · intro v hv
      cases hv
  · rintro ms s e d _ hr hi ⟨hd, rfl⟩
    obtain ⟨-, hstep, hto, hsound⟩ := (Reachable.sound hr.reachable).reduces hd
    exact hi.move hstep hto hsound

theorem agreed {s : State} (h : Run ms s)
    (hn : ∀ newer m older, ms = newer ++ m :: older → ¬ Reverts older m) : Agreed ms s := by
  induction h with
  | start h =>
    obtain ⟨_, _, _, _, rfl⟩ := h
    refine ⟨?_, ?_, ?_⟩
    · intro v hv
      cases hv
    · intro v hv
      cases hv
    · rintro a l l' ⟨m, hm, -⟩
      cases hm
  | @move ms s e d s' hr hs ih =>
    obtain ⟨hd, rfl⟩ := hs
    obtain ⟨-, hstep, hto, -⟩ := (Reachable.sound hr.reachable).reduces hd
    have hagreed := ih fun newer m older heq => hn (_ :: newer) m older (congrArg _ heq)
    exact hagreed.move hstep hto (intended hr) (hn [] _ ms rfl)

end Runs

section Samples

variable {s : State} {prior : Option CanonicalObservation} {o : CanonicalObservation}
  {d : Decision}

/-- A new topology stops the preparation whose result is pending. -/
theorem Core.interrupted (h : Core s) (ho : Observed s prior o d) (hv : o.valid = true)
    (ht : s.physicalToken ≠ some o.physicalToken) {p : PreparationAction}
    (hp : s.preparation = some p) (hl : p.lifecycle = .resultPending) :
    .stopAction p.actionId ∈ d.effects ∧ ∃ b ∈ d.state.preparation, b.toWorkerAction = p.stop := by
  have hmem := State.mem_actions_preparation hp
  have hlive : (ActionRecord.preparation p).lifecycle.terminal = false :=
    congrArg ActionLifecycle.terminal hl
  have alone {r : ActionRecord} (hr : r ∈ s.actions) (hk : r.kind ≠ .plan)
      (hlr : r.lifecycle.mutatingInFlight = true) : r = .preparation p :=
    h.live_unique hmem (by simp [ActionRecord.kind]) hlive hr hk
      (ActionLifecycle.live_of_inFlight hlr)
  cases ho with
  | revoked r s' es t hinv hl' hr hd => simp [hv] at hinv
  | invalid phase t hinv hn hp' hd => simp [hv] at hinv
  | invalidInternal a t hinv ha hi hd => simp [hv] at hinv
  | internal a t _ ha hi hd =>
    have hla : a.lifecycle = .dispatched := by simpa using hi.2.2
    cases alone (State.mem_actions_application ha) (by simp [ActionRecord.kind])
      (congrArg ActionLifecycle.mutatingInFlight hla)
  | stopping w t _ hw hlw hd =>
    obtain ⟨v, hv, -, hvl⟩ := State.mutator_of_mem hmem (by simp [ActionRecord.kind])
    have hvl : v.lifecycle = .resultPending := hvl.trans hl
    rcases h.live_alone hw (by rw [hlw]; rfl) hv with rfl | hterm
    · simp [hlw] at hvl
    · simp [hvl, ActionLifecycle.terminal] at hterm
  | stopped r s' t _ hs hi hc hd =>
    cases hs with
    | probe a ha hla =>
      cases alone (State.mem_actions_probe ha) (by simp [ActionRecord.kind])
        (congrArg ActionLifecycle.mutatingInFlight hla)
    | application a ha hla =>
      cases alone (State.mem_actions_application ha) (by simp [ActionRecord.kind])
        (congrArg ActionLifecycle.mutatingInFlight hla)
    | preparation a ha hla =>
      obtain rfl := Option.mem_unique ha hp
      exact ⟨List.mem_cons_self, _, rfl, rfl⟩
    | finalization a ha hla =>
      cases alone (State.mem_actions_finalization ha) (by simp [ActionRecord.kind])
        (congrArg ActionLifecycle.mutatingInFlight hla)
  | refused s' t _ hs hd hc =>
    cases hs with
    | finalization a b v ha hla hb hbl hw =>
      cases alone (State.mem_actions_finalization ha) (by simp [ActionRecord.kind])
        (congrArg ActionLifecycle.mutatingInFlight hla)
    | preparation a b ha hla hb hbl =>
      have hphases := h.control.phases
      rw [h.control.preparation_flying ha (.inr hla)] at hphases
      rcases hc with ⟨htoken, -⟩ | ⟨-, hphase⟩
      · exact absurd htoken ht
      · simp [hphase, preparationPhases] at hphases
  | completed a _ ha hla he =>
    obtain ⟨b, -, htoken, -⟩ := he
    exact absurd htoken ht
  | running t _ htoken hr' hd => exact absurd htoken ht
  | uncertain a t _ htoken ha hla he hd => exact absurd htoken ht
  | preparing a t _ htoken ha hla he hd => exact absurd htoken ht
  | confirmed s' eff _ htoken hc => exact absurd htoken ht
  | classified s' es d _ hf hc =>
    obtain ⟨w, hw, -, hwl⟩ := State.mutator_of_mem hmem (by simp [ActionRecord.kind])
    have hwl : w.lifecycle = .resultPending := hwl.trans hl
    cases hf with
    | entered _ hn =>
      have hidle := hn w hw
      simp [hwl, ActionLifecycle.mutatingInFlight] at hidle
    | idle htoken hb => exact absurd htoken ht
    | cancelled htoken hc' => exact absurd htoken ht
    | concluded a b htoken ha hla he hb hbl => exact absurd htoken ht

end Samples

theorem Requested.of_verdict {ms : List (Runs.Move State Event Decision)} {s : State}
    (h : Run ms s) {p : PreparationAction} (hp : s.preparation = some p)
    (hx : p.terminalAfterStop ≠ none) :
    ∃ l, l ≠ .cancelled ∧ Requested ms p.actionId l := by
  obtain ⟨l, hl⟩ := Option.ne_none_iff_exists'.mp hx
  refine ⟨l, ?_, (intended h).recorded _ (State.mem_mutators_preparation hp) l hl⟩
  rcases p.post_stop l hl with rfl | rfl <;> decide

/-- Every stop of an action is requested with one lifecycle, unless a new topology stops a pending
preparation again whose verdict an acknowledgement dropped. -/
theorem stop_intents_agree_iff {ms : List (Runs.Move State Event Decision)} {s : State}
    (h : Run ms s) :
    (∀ a, ∃ l, ∀ m ∈ ms, .stopAction a ∈ m.output.effects → m.after.stopLifecycle? a = some l) ↔
      ¬ ∃ newer m older, ms = newer ++ m :: older ∧ Reverts older m := by
  constructor
  · rintro hagree ⟨newer, m, older, rfl, ⟨c, hc, hfresh, htoken⟩, p, hp, hl, hdropped⟩
    -- The second request cancels, the one before the acknowledgement did not.
    obtain ⟨hrun, hd, hafter⟩ := h.older
    obtain ⟨l, hl'⟩ := hagree p.actionId
    have hcancelled : m.after.stopLifecycle? p.actionId = some .cancelled ∧
        .stopAction p.actionId ∈ m.output.effects := by
      rw [hc] at hd
      obtain ⟨hobs, hcore, -⟩ :=
        (Reachable.sound hrun.reachable).observed_of_fresh hfresh hd
      obtain ⟨hstop, b, hb, hbp⟩ := hcore.interrupted hobs hfresh.valid htoken hp hl
      have hmem := State.mem_mutators_preparation hb
      rw [hbp] at hmem
      refine ⟨?_, hstop⟩
      rw [hafter]
      refine (State.stopLifecycle_of_mem hmem).trans ?_
      simp [WorkerAction.stop, WorkerAction.terminalAfterStop_eq_none (w := p.toWorkerAction)
        (by simp [hl])]
    obtain ⟨n, hn, -, q, hq, hqp, hx⟩ := hdropped
    obtain ⟨mid, oldest, rfl⟩ := List.append_of_mem hn
    obtain ⟨x, hne, k, hk, hstop, hvalue⟩ := Requested.of_verdict hrun.older.1 hq hx
    rw [hqp] at hstop hvalue
    have hold := hl' k (by simp [hk]) hstop
    have hnew := hl' m (by simp) hcancelled.2
    have heq : x = .cancelled :=
      Option.some.inj ((hvalue.symm.trans hold).trans (hnew.symm.trans hcancelled.1))
    exact hne heq
  · intro hn a
    have hunique := (agreed h fun newer m older heq hr => hn ⟨newer, m, older, heq, hr⟩).unique a
    by_cases hany : ∃ l, Requested ms a l
    · obtain ⟨l, hl⟩ := hany
      refine ⟨l, fun m hm hstop => ?_⟩
      obtain ⟨newer, older, rfl⟩ := List.append_of_mem hm
      obtain ⟨hrun, hd, hafter⟩ := h.older
      obtain ⟨-, hstep, -⟩ := (Reachable.sound hrun.reachable).reduces hd
      obtain ⟨v, -, -, -, hvalue⟩ := hstep.requests hstop
      rw [← hafter] at hvalue
      rw [hvalue, hunique _ l ⟨m, hm, hstop, hvalue⟩ hl]
    · refine ⟨.cancelled, fun m hm hstop => absurd ?_ hany⟩
      obtain ⟨newer, older, rfl⟩ := List.append_of_mem hm
      obtain ⟨hrun, hd, hafter⟩ := h.older
      obtain ⟨-, hstep, -⟩ := (Reachable.sound hrun.reachable).reduces hd
      obtain ⟨v, -, -, -, hvalue⟩ := hstep.requests hstop
      exact ⟨_, m, hm, hstop, hafter ▸ hvalue⟩

namespace Scenario

/-- The status of the preparation is unknown, yet it completed, and then the monitor appears. -/
def doubted : Decision :=
  decided prepared (.workerStatusUnknown ⟨metadata 4000, preparationId, laptop⟩) rfl
def reported : Decision := decided doubted.state (.workerCancellationAcknowledged acknowledged) rfl
def reverted : Decision :=
  decided reported.state (.observationCompleted (shown dock dock 4 5000)) rfl

theorem shownStaged_accepted : (lit laptop laptop 3 3000).Accepted := by decide

theorem shownStopping_accepted : (lit laptop laptop 4 4500).Accepted := by decide

theorem shownStopped_accepted : (lit laptop laptop 5 5000).Accepted := by decide

theorem preparationUnit_id : (WorkerUnit.mk preparationId laptop).actionId = preparationId := rfl

/-- A preparation of unknown status is stopped twice, and after it completed the panel still shows
its profile. -/
def doubtedTwice : List Event :=
  [.observationCompleted (sampled (plain dock dock 1 0) plainDock_accepted plainDock_boot),
    .observationCompleted (shown laptop laptop 2 1000 laptopShown_accepted),
    .planRequested ⟨metadata 1000, planId, planKey, planId_kind⟩,
    .planCompleted ⟨metadata 1000, planId, planKey, ⟨laptop⟩, planId_kind⟩,
    .observationCompleted (shown laptop laptop 3 3000 shownStaged_accepted),
    .preparationDispatched
      ⟨metadata 3000, preparationId, ⟨preparationId, laptop⟩, preparationId_kind,
        preparationUnit_id⟩,
    .workerStatusUnknown ⟨metadata 4000, preparationId, laptop⟩,
    .observationCompleted (shown laptop laptop 4 4500 shownStopping_accepted),
    .workerCancellationAcknowledged acknowledged,
    .observationCompleted (shown laptop laptop 5 5000 shownStopped_accepted)]

end Scenario

open Scenario in
theorem stop_intents_agree_iff_doubted :
    ((trail fresh doubtedTwice []).countP fun m =>
      .stopAction preparationId ∈ m.output.effects) = 2 ∧
    ((∀ a, ∃ l, ∀ m ∈ trail fresh doubtedTwice [],
      .stopAction a ∈ m.output.effects → m.after.stopLifecycle? a = some l) ↔
    ¬ ∃ newer m older, trail fresh doubtedTwice [] = newer ++ m :: older ∧ Reverts older m) :=
  ⟨by decide +kernel,
    stop_intents_agree_iff (Run.trail (.start ⟨_, _, _, _, rfl⟩) (Option.some_get rfl).symm)⟩

open Scenario in
/-- A preparation of unknown status is stopped as unknown, and after its completion as cancelled. -/
theorem stop_intents_disagree : ¬ ∀ ms s, Run ms s → ∀ a, ∃ l, ∀ m ∈ ms,
    .stopAction a ∈ m.output.effects → m.after.stopLifecycle? a = some l := by
  intro h
  obtain ⟨ms, hrun⟩ := prepared_reachable
  have hrun : Run _ reverted.state :=
    .move (.move (.move hrun ⟨reduce_decided _ _ _, rfl⟩) ⟨reduce_decided _ _ _, rfl⟩)
      ⟨reduce_decided _ _ _, rfl⟩
  obtain ⟨l, hl⟩ := h _ _ hrun preparationId
  have hstop : .stopAction preparationId ∈ doubted.effects := by decide +kernel
  have hstop' : .stopAction preparationId ∈ reverted.effects := by decide +kernel
  have hfirst := hl _ (.tail _ (.tail _ (.head _))) hstop
  have hsecond := hl _ (.head _) hstop'
  have hvalue : doubted.state.stopLifecycle? preparationId ≠
      reverted.state.stopLifecycle? preparationId := by decide +kernel
  exact hvalue (hfirst.trans hsecond.symm)

end MonitorController
