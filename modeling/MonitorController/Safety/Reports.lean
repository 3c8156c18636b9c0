import MonitorController.Safety.Intents

/-! # The reports of a worker

Only its acknowledged dispatch puts a worker into flight, and every report of
its end takes it out again. A launch which is over is never pending again.
-/

namespace MonitorController

def Event.dispatched? : Event → Option WorkerUnit
  | .probeDispatched e => some e.unit
  | .applicationDispatched e => some e.unit
  | .preparationDispatched e => some e.unit
  | .finalizationDispatched e => some e.unit
  | _ => none

/-- The event reports the end of a worker with this deadline, or doubts it. -/
inductive Attests (a : ActionId) (deadlineMs : Nat) : Event → Prop
  | finished {e} (he : e.finished? = some a) : Attests a deadlineMs e
  | unknown (e) (he : e.actionId = a) : Attests a deadlineMs (.workerStatusUnknown e)
  | timedOut (e) (he : e.actionId = a) (hd : e.deadlineMs = deadlineMs)
    (hn : e.managerConfirmed = true ∨ deadlineMs ≤ e.metadata.processedAtMs) :
    Attests a deadlineMs (.workerTimedOut e)

/-- The launch of the action is over. -/
structure Resolved (s : State) (a : ActionId) : Prop where
  bounded : a.sequence ≤ s.actionSequenceHighWater
  launched : ∀ w ∈ s.mutators, w.actionId = a → w.lifecycle ≠ .admitted

/-- A slot into which no worker is dispatched. -/
inductive Grounds {α : Type} (worker : α → WorkerAction) (x : Option α) : Option α → Prop
  | kept : Grounds worker x x
  | emptied : Grounds worker x none
  | grounded (b) (hl : (worker b).lifecycle ≠ .dispatched) : Grounds worker x (some b)

/-- No worker is dispatched. -/
structure Grounded (s t : State) : Prop where
  probe : Grounds (·.toWorkerAction) s.probe t.probe := by
    first | exact .emptied | exact .kept
  application : Grounds (·.toWorkerAction) s.application t.application := by
    first | exact .emptied | exact .kept
  preparation : Grounds (·.toWorkerAction) s.preparation t.preparation := by
    first | exact .emptied | exact .kept
  finalization : Grounds (·.toWorkerAction) s.finalization t.finalization := by
    first | exact .emptied | exact .kept

section Slots

variable {α : Type} {worker : α → WorkerAction} {x y z : Option α}

theorem Grounds.of_mem (h : Grounds worker x y) {b : α} (hb : b ∈ y)
    (hl : (worker b).lifecycle = .dispatched) : b ∈ x := by
  cases h with
  | kept => exact hb
  | emptied => cases hb
  | grounded b' hl' =>
    obtain rfl := Option.some.inj hb
    exact absurd hl hl'

theorem Grounds.trans (h : Grounds worker x y) (h' : Grounds worker y z) : Grounds worker x z := by
  cases h' with
  | kept => exact h
  | emptied => exact .emptied
  | grounded b hl => exact .grounded b hl

theorem Grounds.renews {mark : Nat} (h : Grounds worker x y) (hr : Renews worker mark y z) :
    Grounds worker x z := by
  cases hr with
  | kept => exact h
  | emptied => exact .emptied
  | filled b hb hl => exact .grounded b (by rw [hl]; rintro ⟨⟩)

variable {s t t' : State}

theorem Grounded.mem (h : Grounded s t) {v : WorkerAction} (hv : v ∈ t.mutators)
    (hl : v.lifecycle = .dispatched) : v ∈ s.mutators := by
  rcases State.mem_mutators.mp hv with ⟨a, ha, rfl⟩ | ⟨a, ha, rfl⟩ | ⟨a, ha, rfl⟩ | ⟨a, ha, rfl⟩
  · exact State.mem_mutators_probe (h.probe.of_mem ha hl)
  · exact State.mem_mutators_application (h.application.of_mem ha hl)
  · exact State.mem_mutators_preparation (h.preparation.of_mem ha hl)
  · exact State.mem_mutators_finalization (h.finalization.of_mem ha hl)

theorem Grounded.trans (h : Grounded s t) (h' : Grounded t t') : Grounded s t' where
  probe := h.probe.trans h'.probe
  application := h.application.trans h'.application
  preparation := h.preparation.trans h'.preparation
  finalization := h.finalization.trans h'.finalization

theorem Grounded.timed (h : Grounded s t) (n : Nat) : Grounded s (t.timed n) := { h with }

theorem Grounded.frame (h : Grounded s t) (hf : Frame t t') : Grounded s t' where
  probe := h.probe.renews hf.probe
  application := h.application.renews hf.application
  preparation := h.preparation.renews hf.preparation
  finalization := h.finalization.renews hf.finalization

end Slots

section Samples

variable {s t : State} {o : CanonicalObservation} {prior : Option CanonicalObservation}
  {d : Decision} {es : List Effect} {r : ActionRecord}

theorem Withdraws.grounded (h : Withdraws s r t es) : Grounded s t := by
  cases h <;> exact {}

theorem Revokes.grounded (h : Revokes s r t es) : Grounded s t := by
  cases h with
  | desktop h => exact h.grounded
  | probe a ha => exact {}
  | application a ha => exact {}

theorem Frees.grounded (h : Frees s prior o t es) : Grounded s t := by
  cases h with
  | entered ht hr => exact {}
  | idle ht hb =>
    unfold leaveSlowWait
    split <;> exact {}
  | cancelled ht hc => cases hc <;> exact {}
  | concluded a b ht ha hl he hb hbl =>
    exact { preparation := .grounded b (by rw [hbl]; rintro ⟨⟩) }

theorem Frees.bootId (h : Frees s prior o t es) : t.bootId = s.bootId := by
  cases h with
  | entered ht hr => rfl
  | idle ht hb =>
    unfold leaveSlowWait
    split <;> rfl
  | cancelled ht hc => cases hc <;> rfl
  | concluded a b ht ha hl he hb hbl => rfl

theorem Observed.grounded (h : Observed s prior o d) : Grounded s d.state := by
  cases h with
  | revoked r s' es t hv hl hr ht =>
    have hrevoked : Grounded s (revokeProofs s o) := {}
    exact (hrevoked.trans hr.grounded).timed t
  | invalidInternal a t hv ha hi ht => exact { application := .grounded _ (by rintro ⟨⟩) }
  | internal a t hv ha hi ht => exact { application := .grounded _ (by rintro ⟨⟩) }
  | stopped r s' t hv hs hi hc ht =>
    cases hs with
    | probe a ha hl => exact { probe := .grounded _ (by rintro ⟨⟩) }
    | application a ha hl => exact { application := .grounded _ (by rintro ⟨⟩) }
    | preparation a ha hl => exact { preparation := .grounded _ (by rintro ⟨⟩) }
    | finalization a ha hl => exact { finalization := .grounded _ (by rintro ⟨⟩) }
  | refused s' t hv hs ht hc =>
    cases hs with
    | finalization a b v ha hl hb hbl hv' =>
      exact { finalization := .grounded b (by rw [hbl]; rintro ⟨⟩) }
    | preparation a b ha hl hb hbl =>
      exact { preparation := .grounded b (by rw [hbl]; rintro ⟨⟩) }
  | confirmed s' eff hv ht hc =>
    have pending {w : WorkerAction} (hl : w.lifecycle = .admitted) :
        (w.refresh o.eventGeneration).lifecycle ≠ .dispatched := by
      change w.lifecycle ≠ _
      simp [hl]
    cases hc with
    | probe a ha hl hc => exact { probe := .grounded _ (pending hl) }
    | application a ha hl hc => exact { application := .grounded _ (pending hl) }
    | preparation a ha hl hc => exact { preparation := .grounded _ (pending hl) }
    | finalization a ha hl hc => exact { finalization := .grounded _ (pending hl) }
  | classified s' es d hv hf hc => exact hf.grounded.frame hc.frame
  | _ => exact {}

end Samples

section Steps

variable {s : State} {e : Event} {d : Decision} {a : ActionId}

/-- Only the acknowledgement of its dispatch puts a pending worker into flight. -/
theorem Step.started (h : Step s e d) {v : WorkerAction} (hv : v ∈ d.state.mutators)
    (hl : v.lifecycle = .dispatched) :
    v ∈ s.mutators ∨ ∃ w ∈ s.mutators, w.actionId = v.actionId ∧ w.lifecycle = .admitted := by
  have grounded (hg : Grounded s d.state) : v ∈ s.mutators ∨
      ∃ w ∈ s.mutators, w.actionId = v.actionId ∧ w.lifecycle = .admitted :=
    .inl (hg.mem hv hl)
  cases h with
  | ignored e hi => exact grounded {}
  | observed e hb hf ho =>
    have hrecorded : Grounded s (recordObservation s e.observation) := {}
    exact grounded (hrecorded.trans ho.grounded)
  | hinted e s' es t hb hg ht hh =>
    have hsuperseded : Grounded s (supersedeProofs s e.eventGeneration e.metadata.processedAtMs) := {}
    refine grounded (.timed ?_ t)
    cases hh with
    | withdrawn hl hw => exact hsuperseded.trans hw.grounded
    | reopened hq hf hp => exact {}
    | kept hp => exact hsuperseded
  | dirtied e r s' es t hb hr he hl hg ht hw =>
    have hsuperseded : Grounded s (supersedeProofs s e.eventGeneration t) := {}
    refine grounded (.timed ?_ t)
    rcases hw with hw | ⟨-, rfl, -⟩
    · exact hsuperseded.trans hw.grounded
    · exact hsuperseded
  | probeDispatched e a w ha hla hi hd =>
    subst hd
    rcases State.mem_mutators.mp hv with ⟨b, ⟨⟩, rfl⟩ | hv
    · exact .inr ⟨_, State.mem_mutators_probe ha, rfl, hla⟩
    · exact .inl (State.mem_mutators.mpr (.inr hv))
  | applicationDispatched e a w ha hla hi hd =>
    subst hd
    rcases State.mem_mutators.mp hv with hv | ⟨b, ⟨⟩, rfl⟩ | hv
    · exact .inl (State.mem_mutators.mpr (.inl hv))
    · exact .inr ⟨_, State.mem_mutators_application ha, rfl, hla⟩
    · exact .inl (State.mem_mutators.mpr (.inr (.inr hv)))
  | preparationDispatched e a w ha hla hi hd =>
    subst hd
    rcases State.mem_mutators.mp hv with hv | hv | ⟨b, ⟨⟩, rfl⟩ | hv
    · exact .inl (State.mem_mutators.mpr (.inl hv))
    · exact .inl (State.mem_mutators.mpr (.inr (.inl hv)))
    · exact .inr ⟨_, State.mem_mutators_preparation ha, rfl, hla⟩
    · exact .inl (State.mem_mutators.mpr (.inr (.inr (.inr hv))))
  | finalizationDispatched e a w ha hla hi hd =>
    subst hd
    rcases State.mem_mutators.mp hv with hv | hv | hv | ⟨b, ⟨⟩, rfl⟩
    · exact .inl (State.mem_mutators.mpr (.inl hv))
    · exact .inl (State.mem_mutators.mpr (.inr (.inl hv)))
    · exact .inl (State.mem_mutators.mpr (.inr (.inr (.inl hv))))
    · exact .inr ⟨_, State.mem_mutators_finalization ha, rfl, hla⟩
  | closed e r l v es t hr hk he hl hv hes ht => cases r <;> exact grounded {}
  | failed e r r' phase es t hr hc hf he hp hes =>
    have ended {l : ActionLifecycle} (hl : l.failedLifecycle = true) : l ≠ .dispatched := by
      rintro rfl
      cases hl
    refine grounded (.timed ?_ t)
    cases hc with
    | planning a l x => exact {}
    | probe a w hk hw => exact { probe := .grounded _ (ended hf) }
    | application a w hk hw => exact { application := .grounded _ (ended hf) }
    | preparation a w hk hw => exact { preparation := .grounded _ (ended hf) }
    | finalization a w hk hw => exact { finalization := .grounded _ (ended hf) }
  | preparationReported e a b t ha he hb hbl ht =>
    exact grounded { preparation := .grounded b (by rw [hbl]; rintro ⟨⟩) }
  | finalizationReported e a b t ha he hb hbl ht =>
    exact grounded { finalization := .grounded b (by rw [hbl]; rintro ⟨⟩) }
  | doubted e r v t hr hk hl he ht =>
    refine grounded (.timed ?_ t)
    cases r with
    | planning a => exact absurd rfl hk
    | probe a => exact { probe := .grounded _ (by rintro ⟨⟩) }
    | application a => exact { application := .grounded _ (by rintro ⟨⟩) }
    | preparation a => exact { preparation := .grounded _ (by rintro ⟨⟩) }
    | finalization a => exact { finalization := .grounded _ (by rintro ⟨⟩) }
  | restarted e a s' es t ha hl hw ht =>
    have hrenamed : Grounded s { s with controllerInstance := e.controllerInstance } := {}
    exact grounded ((hrenamed.trans hw.grounded).trans {})
  | _ => exact grounded {}

theorem Kept.worker {t : State} (h : Kept s t) {v : WorkerAction} (hv : v ∈ t.mutators) :
    ∃ w ∈ s.mutators, w.actionId = v.actionId ∧
      (v.lifecycle = .admitted → w.lifecycle = .admitted) := by
  obtain ⟨r', hr', hi, hw⟩ := State.record_of_worker hv
  obtain ⟨r, hr, hc⟩ := h.mem hr'
  have hk : r.kind ≠ .plan := by
    rw [← hc.kind]
    cases r' <;> cases hw <;> rintro ⟨⟩
  have hl : v.lifecycle = r'.lifecycle := by
    cases r' <;> cases hw <;> rfl
  obtain ⟨w, hw, hwi, hwl⟩ := State.mutator_of_mem hr hk
  exact ⟨w, hw, hwi.trans (hc.actionId.symm.trans hi), fun h => hwl.trans (hc.admitted (hl ▸ h))⟩

theorem Frame.worker {t : State} (h : Frame s t) {v : WorkerAction} (hv : v ∈ t.mutators) :
    v ∈ s.mutators ∨ s.actionSequenceHighWater < v.actionId.sequence := by
  have slot {α : Type} {worker : α → WorkerAction} {x y : Option α} {b : α}
      (hr : Renews worker s.actionSequenceHighWater x y) (hb : b ∈ y) :
      b ∈ x ∨ s.actionSequenceHighWater < (worker b).actionId.sequence := by
    cases hr with
    | kept => exact .inl hb
    | emptied => cases hb
    | filled b' hb' hl =>
      obtain rfl := Option.some.inj hb
      exact .inr hb'
  rcases State.mem_mutators.mp hv with ⟨a, ha, rfl⟩ | ⟨a, ha, rfl⟩ | ⟨a, ha, rfl⟩ | ⟨a, ha, rfl⟩
  · exact (slot h.probe ha).imp_left State.mem_mutators_probe
  · exact (slot h.application ha).imp_left State.mem_mutators_application
  · exact (slot h.preparation ha).imp_left State.mem_mutators_preparation
  · exact (slot h.finalization ha).imp_left State.mem_mutators_finalization

theorem Resolved.kept {t : State} (hr : Resolved s a) (hk : Kept s t) : Resolved t a := by
  refine ⟨hk.actionMark.symm ▸ hr.bounded, fun v hv hi hl => ?_⟩
  obtain ⟨w, hw, hwi, hwl⟩ := hk.worker hv
  exact hr.launched w hw (hwi.trans hi) (hwl hl)

theorem Step.resolved (h : Step s e d) (hr : Resolved s a) : Resolved d.state a := by
  rcases h.cases_on with ⟨hk, -⟩ | ⟨f, -, -, -, -, ⟨s', es, d', hf, hc⟩⟩
  · exact hr.kept hk
  · have hrecorded : Kept s (recordObservation s f.observation) := {}
    have hr' := hr.kept (hrecorded.trans hf.kept)
    refine ⟨hr'.bounded.trans hc.frame.actions.le, fun v hv hi => ?_⟩
    rcases hc.frame.worker hv with hv | hlt
    · exact hr'.launched v hv hi
    · exact absurd hr'.bounded (hi ▸ not_le.mpr hlt)

theorem Step.bootId (h : Step s e d) : d.state.bootId = s.bootId ∨ d.state.mutators = [] := by
  rcases h.cases_on with ⟨-, hs | ⟨f, a, b, ha, hl, hb, hbl, hk, he, ht, hboot, hbars⟩ | ⟨b, -, -, hb⟩⟩ |
    ⟨f, -, -, -, -, ⟨s', es, d', hf, hc⟩⟩
  · exact .inl hs.bootId
  · exact .inl hboot
  · exact .inr (by rw [hb]; rfl)
  · exact .inl (hc.frame.bootId.trans hf.bootId)

end Steps

namespace State

variable {s : State} {v : WorkerAction} (hv : v ∈ s.mutators)
include hv

theorem probe_of_worker (hk : v.actionId.kind = .probe) : ∃ a ∈ s.probe, a.toWorkerAction = v := by
  rcases mem_mutators.mp hv with ⟨a, ha, rfl⟩ | ⟨a, ha, rfl⟩ | ⟨a, ha, rfl⟩ | ⟨a, ha, rfl⟩
  · exact ⟨a, ha, rfl⟩
  · cases a.kind_application.symm.trans hk
  · cases a.kind_preparation.symm.trans hk
  · cases a.kind_finalization.symm.trans hk

theorem application_of_worker (hk : v.actionId.kind = .application) :
    ∃ a ∈ s.application, a.toWorkerAction = v := by
  rcases mem_mutators.mp hv with ⟨a, ha, rfl⟩ | ⟨a, ha, rfl⟩ | ⟨a, ha, rfl⟩ | ⟨a, ha, rfl⟩
  · cases a.kind_probe.symm.trans hk
  · exact ⟨a, ha, rfl⟩
  · cases a.kind_preparation.symm.trans hk
  · cases a.kind_finalization.symm.trans hk

theorem finalization_of_worker (hk : v.actionId.kind = .finalization) :
    ∃ a ∈ s.finalization, a.toWorkerAction = v := by
  rcases mem_mutators.mp hv with ⟨a, ha, rfl⟩ | ⟨a, ha, rfl⟩ | ⟨a, ha, rfl⟩ | ⟨a, ha, rfl⟩
  · cases a.kind_probe.symm.trans hk
  · cases a.kind_application.symm.trans hk
  · cases a.kind_preparation.symm.trans hk
  · exact ⟨a, ha, rfl⟩

end State

/-- No worker of the action is in flight. -/
def Landed (t : State) (a : ActionId) : Prop :=
  ∀ v ∈ t.mutators, v.actionId = a → v.lifecycle ≠ .dispatched

section Landings

variable {t : State} {a : ActionId}

theorem landed_of_slots (hprobe : a.kind = .probe → ∀ b ∈ t.probe, b.lifecycle ≠ .dispatched)
    (happ : a.kind = .application → ∀ b ∈ t.application, b.lifecycle ≠ .dispatched)
    (hprep : a.kind = .preparation → ∀ b ∈ t.preparation, b.lifecycle ≠ .dispatched)
    (hfin : a.kind = .finalization → ∀ b ∈ t.finalization, b.lifecycle ≠ .dispatched) :
    Landed t a := by
  intro v hv hi
  rcases State.mem_mutators.mp hv with ⟨b, hb, rfl⟩ | ⟨b, hb, rfl⟩ | ⟨b, hb, rfl⟩ | ⟨b, hb, rfl⟩
  · exact hprobe (hi ▸ b.kind_probe) b hb
  · exact happ (hi ▸ b.kind_application) b hb
  · exact hprep (hi ▸ b.kind_preparation) b hb
  · exact hfin (hi ▸ b.kind_finalization) b hb

theorem landed_stopSlot (s : State) (v : UncertainVerdict) {r : ActionRecord}
    (hk : r.kind ≠ .plan) : Landed (stopSlot s v r) r.actionId := by
  have other {k : ActionKind} (hne : r.kind ≠ k) {P : Prop} : r.actionId.kind = k → P :=
    fun h => absurd (r.kind_eq.symm.trans h) hne
  cases r with
  | planning a => exact absurd rfl hk
  | probe a =>
    exact landed_of_slots (by rintro - b ⟨⟩ ⟨⟩) (other (by rintro ⟨⟩)) (other (by rintro ⟨⟩))
      (other (by rintro ⟨⟩))
  | application a =>
    exact landed_of_slots (other (by rintro ⟨⟩)) (by rintro - b ⟨⟩ ⟨⟩) (other (by rintro ⟨⟩))
      (other (by rintro ⟨⟩))
  | preparation a =>
    exact landed_of_slots (other (by rintro ⟨⟩)) (other (by rintro ⟨⟩)) (by rintro - b ⟨⟩ ⟨⟩)
      (other (by rintro ⟨⟩))
  | finalization a =>
    exact landed_of_slots (other (by rintro ⟨⟩)) (other (by rintro ⟨⟩)) (other (by rintro ⟨⟩))
      (by rintro - b ⟨⟩ ⟨⟩)

theorem stopUncertainMutator_lands (s : State) {r : ActionRecord} (hk : r.kind ≠ .plan)
    (v : UncertainVerdict) (nowMs : Nat) :
    Decides (stopUncertainMutator s r v nowMs) fun d => Landed d.state r.actionId := by
  have hlanded := landed_stopSlot s v hk
  cases r with
  | planning a => exact absurd rfl hk
  | probe a => exact .of_decision hlanded
  | application a => exact .of_decision hlanded
  | preparation a => exact .of_decision hlanded
  | finalization a => exact .of_decision hlanded

end Landings

section Reductions

variable {s : State} (h : Sound s) {e : Event} {d : Decision}
include h

theorem Sound.probeFinished_lands {a : ProbeAction} (ha : s.probe = some a)
    (hl : a.lifecycle = .dispatched) (outcome : WorkerOutcome) (x : Option Int) (nowMs : Nat) :
    Decides (probeFinished s a.actionId outcome x nowMs) fun d =>
      ∀ b ∈ d.state.probe, b.lifecycle ≠ .dispatched := by
  have hphase : s.phase = .probing := (h.control.probe_flying ha (.inl hl)).1
  unfold probeFinished
  rw [ha]
  dsimp only
  rw [if_neg (by simp [hphase]), if_neg (by simp [hl])]
  cases outcome with
  | succeeded =>
    dsimp only
    rw [h.tidy.appendTombstone_eq _ rfl, Outcome.ok_bind]
    exact .of_decision (by rintro b ⟨⟩)
  | cancelled =>
    dsimp only
    rw [h.tidy.appendTombstone_eq _ rfl, Outcome.ok_bind]
    exact .of_decision (by rintro b ⟨⟩)
  | failed =>
    dsimp only
    rw [h.tidy.appendTombstone_eq _ rfl, Outcome.ok_bind]
    exact .of_decision (by rintro b ⟨⟩ ⟨⟩)

theorem Sound.applicationFinished_lands {a : ApplicationAction} (ha : s.application = some a)
    (hl : a.lifecycle = .dispatched) (outcome : WorkerOutcome) (x : Option Int) (nowMs : Nat) :
    Decides (applicationFinished s a.actionId outcome x nowMs) fun d =>
      ∀ b ∈ d.state.application, b.lifecycle ≠ .dispatched := by
  have hphase : s.phase = .applying := (h.control.application_flying ha (.inl hl)).1
  unfold applicationFinished
  rw [ha]
  dsimp only
  rw [if_neg (by simp [hphase]), if_neg (by simp [hl])]
  cases outcome with
  | succeeded =>
    dsimp only
    rw [h.tidy.appendTombstone_eq _ rfl, Outcome.ok_bind]
    exact .of_decision (by rintro b ⟨⟩)
  | cancelled =>
    dsimp only
    rw [h.tidy.appendTombstone_eq _ rfl, Outcome.ok_bind]
    exact .of_decision (by rintro b ⟨⟩)
  | failed =>
    dsimp only
    rw [h.tidy.appendTombstone_eq _ rfl, Outcome.ok_bind]
    exact .of_decision (by rintro b ⟨⟩ ⟨⟩)

theorem Sound.preparationFinished_lands {a : PreparationAction} (ha : s.preparation = some a)
    (hl : a.lifecycle = .dispatched) (outcome : WorkerOutcome) (x : Option Int) (nowMs : Nat)
    (planHash : PlanHash) :
    Decides (preparationFinished s a.actionId outcome x nowMs planHash) fun d =>
      ∀ b ∈ d.state.preparation, b.lifecycle ≠ .dispatched := by
  have hstate : s.preparationState = .preparing := h.control.preparation_flying ha (.inl hl)
  unfold preparationFinished
  rw [ha]
  dsimp only
  rw [if_neg (by simp [hl, hstate]), if_neg (by simp [hl])]
  split
  · exact .of_decision (by rintro b ⟨⟩ ⟨⟩)
  · split
    · rw [h.tidy.appendTombstone_eq _ rfl, Outcome.ok_bind]
      exact .of_decision (by rintro b ⟨⟩)
    · rw [h.tidy.appendTombstone_eq _ rfl, Outcome.ok_bind]
      exact .of_decision (by rintro b ⟨⟩ ⟨⟩)

theorem Sound.finalizationFinished_lands {a : FinalizationAction} (ha : s.finalization = some a)
    (hl : a.lifecycle = .dispatched) (outcome : WorkerOutcome) (x : Option Int) (nowMs : Nat) :
    Decides (finalizationFinished s a.actionId outcome x nowMs) fun d =>
      ∀ b ∈ d.state.finalization, b.lifecycle ≠ .dispatched := by
  have hphase : s.phase = .finalizing := h.control.finalization_flying ha (.inl hl)
  unfold finalizationFinished
  rw [ha]
  dsimp only
  rw [if_neg (by simp [hl, hphase]), if_neg (by simp [hl])]
  cases outcome with
  | succeeded => exact .of_decision (by rintro b ⟨⟩ ⟨⟩)
  | cancelled =>
    dsimp only
    rw [h.tidy.appendTombstone_eq _ rfl, Outcome.ok_bind]
    exact .of_decision (by rintro b ⟨⟩)
  | failed =>
    dsimp only
    rw [h.tidy.appendTombstone_eq _ rfl, Outcome.ok_bind]
    exact .of_decision (by rintro b ⟨⟩ ⟨⟩)

/-- A report of the end of a running worker is heard. -/
theorem Sound.landed (hr : reduce s e = .ok d) (hb : e.metadata.bootId = s.bootId)
    {w : WorkerAction} (hw : w ∈ s.mutators) (hl : w.lifecycle = .dispatched) {deadlineMs : Nat}
    (hd : w.workerDeadlineMs = some deadlineMs) (he : Attests w.actionId deadlineMs e) :
    Landed d.state w.actionId := by
  have hn : ∀ b, e ≠ .bootChanged b := by
    rintro b rfl
    cases he with
    | finished he => cases he
  rw [h.reduce_eq hb hn] at hr
  have other {k k' : ActionKind} (hk : w.actionId.kind = k) (hne : k ≠ k') {P : Prop} :
      w.actionId.kind = k' → P := fun h => absurd (hk.symm.trans h) hne
  cases he with
  | finished he =>
    cases e with
    | probeFinished e =>
      have hi : e.actionId = w.actionId := Option.some.inj he
      have hk := hi ▸ e.kind_eq
      obtain ⟨a, ha, rfl⟩ := State.probe_of_worker hw hk
      change probeFinished s e.actionId _ _ _ = _ at hr
      rw [hi] at hr
      have hlands := (h.probeFinished_lands ha hl _ _ _).of_ok hr
      exact landed_of_slots (fun _ => hlands) (other hk (by rintro ⟨⟩)) (other hk (by rintro ⟨⟩))
        (other hk (by rintro ⟨⟩))
    | applicationFinished e =>
      have hi : e.actionId = w.actionId := Option.some.inj he
      have hk := hi ▸ e.kind_eq
      obtain ⟨a, ha, rfl⟩ := State.application_of_worker hw hk
      change applicationFinished s e.actionId _ _ _ = _ at hr
      rw [hi] at hr
      have hlands := (h.applicationFinished_lands ha hl _ _ _).of_ok hr
      exact landed_of_slots (other hk (by rintro ⟨⟩)) (fun _ => hlands) (other hk (by rintro ⟨⟩))
        (other hk (by rintro ⟨⟩))
    | preparationFinished e =>
      have hi : e.actionId = w.actionId := Option.some.inj he
      have hk := hi ▸ e.kind_eq
      obtain ⟨a, ha, rfl⟩ := State.preparation_of_worker hw hk
      change preparationFinished s e.actionId _ _ _ _ = _ at hr
      rw [hi] at hr
      have hlands := (h.preparationFinished_lands ha hl _ _ _ _).of_ok hr
      exact landed_of_slots (other hk (by rintro ⟨⟩)) (other hk (by rintro ⟨⟩)) (fun _ => hlands)
        (other hk (by rintro ⟨⟩))
    | finalizationFinished e =>
      have hi : e.actionId = w.actionId := Option.some.inj he
      have hk := hi ▸ e.kind_eq
      obtain ⟨a, ha, rfl⟩ := State.finalization_of_worker hw hk
      change finalizationFinished s e.actionId _ _ _ = _ at hr
      rw [hi] at hr
      have hlands := (h.finalizationFinished_lands ha hl _ _ _).of_ok hr
      exact landed_of_slots (other hk (by rintro ⟨⟩)) (other hk (by rintro ⟨⟩))
        (other hk (by rintro ⟨⟩)) (fun _ => hlands)
    | _ => cases he
  | unknown e he =>
    obtain ⟨r, hr', hi, hw'⟩ := State.record_of_worker hw
    have hk : r.kind ≠ .plan := by cases r <;> cases hw' <;> rintro ⟨⟩
    have hrl : r.lifecycle = .dispatched := by cases r <;> cases hw' <;> exact hl
    unfold reduceEvent workerStatusUnknown at hr
    simp only [he, ← hi, State.actionForId_of_mem hr', hrl] at hr
    exact hi ▸ (stopUncertainMutator_lands s hk .unknown _).of_ok hr
  | timedOut e he hd' hn' =>
    obtain ⟨r, hr', hi, hw'⟩ := State.record_of_worker hw
    have hk : r.kind ≠ .plan := by cases r <;> cases hw' <;> rintro ⟨⟩
    unfold reduceEvent workerTimedOut at hr
    simp only [he, ← hi, State.actionForId_of_mem hr', hw', hl, hd] at hr
    rw [if_neg] at hr
    · exact hi ▸ (stopUncertainMutator_lands s hk .timedOut _).of_ok hr
    · rintro (⟨hne, -⟩ | hne | ⟨hc, hlt⟩)
      · exact hne rfl
      · exact hne (congrArg some hd'.symm)
      · rcases hn' with hc' | hle
        · simp [hc] at hc'
        · omega

theorem Sound.probeDispatched_launches (e : ProbeDispatched) :
    Decides (probeDispatched s e) fun d =>
      ∀ b ∈ d.state.probe, b.actionId = e.actionId → b.lifecycle ≠ .admitted := by
  unfold probeDispatched
  split
  next hnone => exact .of_decision (by simp [hnone])
  next a ha =>
    split
    next hg => exact .of_decision (by rintro b ⟨⟩ - ⟨⟩)
    next hg =>
      refine .of_decision fun b hb hi hl => ?_
      obtain rfl := Option.some.inj (ha.symm.trans hb)
      exact hg ⟨by simpa [hl, ActionLifecycle.failedLifecycle] using h.control.probe_phase ha, hi, hl⟩

theorem Sound.applicationDispatched_launches (e : ApplicationDispatched) :
    Decides (applicationDispatched s e) fun d =>
      ∀ b ∈ d.state.application, b.actionId = e.actionId → b.lifecycle ≠ .admitted := by
  unfold applicationDispatched
  split
  next hnone => exact .of_decision (by simp [hnone])
  next a ha =>
    split
    next hg => exact .of_decision (by rintro b ⟨⟩ - ⟨⟩)
    next hg =>
      refine .of_decision fun b hb hi hl => ?_
      obtain rfl := Option.some.inj (ha.symm.trans hb)
      exact hg ⟨by simpa [hl, ActionLifecycle.failedLifecycle] using h.control.application_phase ha, hi, hl⟩

theorem Sound.preparationDispatched_launches (e : PreparationDispatched) :
    Decides (preparationDispatched s e) fun d =>
      ∀ b ∈ d.state.preparation, b.actionId = e.actionId → b.lifecycle ≠ .admitted := by
  unfold preparationDispatched
  split
  next hnone => exact .of_decision (by simp [hnone])
  next a ha =>
    split
    next hg => exact .of_decision (by rintro b ⟨⟩ - ⟨⟩)
    next hg =>
      refine .of_decision fun b hb hi hl => ?_
      obtain rfl := Option.some.inj (ha.symm.trans hb)
      exact hg ⟨h.control.preparation_pending ha hl, hi, hl⟩

theorem Sound.finalizationDispatched_launches (e : FinalizationDispatched) :
    Decides (finalizationDispatched s e) fun d =>
      ∀ b ∈ d.state.finalization, b.actionId = e.actionId → b.lifecycle ≠ .admitted := by
  unfold finalizationDispatched
  split
  next hnone => exact .of_decision (by simp [hnone])
  next a ha =>
    split
    next hg => exact .of_decision (by rintro b ⟨⟩ - ⟨⟩)
    next hg =>
      refine .of_decision fun b hb hi hl => ?_
      obtain rfl := Option.some.inj (ha.symm.trans hb)
      exact hg ⟨h.control.finalization_pending ha hl, hi, hl⟩

/-- An acknowledged dispatch is heard: the launch is over. -/
theorem Sound.heard (hr : reduce s e = .ok d) (hb : e.metadata.bootId = s.bootId)
    {u : WorkerUnit} (hu : e.dispatched? = some u) :
    ∀ v ∈ d.state.mutators, v.actionId = u.actionId → v.lifecycle ≠ .admitted := by
  have hn : ∀ b, e ≠ .bootChanged b := by
    rintro b rfl
    cases hu
  intro v hv hi hl
  rw [h.reduce_eq hb hn] at hr
  cases e with
  | probeDispatched e =>
    obtain rfl : e.unit = u := Option.some.inj hu
    have hi := hi.trans e.unit_eq
    obtain ⟨a, ha, rfl⟩ := State.probe_of_worker hv (hi ▸ e.kind_eq)
    exact (h.probeDispatched_launches e).of_ok hr a ha hi hl
  | applicationDispatched e =>
    obtain rfl : e.unit = u := Option.some.inj hu
    have hi := hi.trans e.unit_eq
    obtain ⟨a, ha, rfl⟩ := State.application_of_worker hv (hi ▸ e.kind_eq)
    exact (h.applicationDispatched_launches e).of_ok hr a ha hi hl
  | preparationDispatched e =>
    obtain rfl : e.unit = u := Option.some.inj hu
    have hi := hi.trans e.unit_eq
    obtain ⟨a, ha, rfl⟩ := State.preparation_of_worker hv (hi ▸ e.kind_eq)
    exact (h.preparationDispatched_launches e).of_ok hr a ha hi hl
  | finalizationDispatched e =>
    obtain rfl : e.unit = u := Option.some.inj hu
    have hi := hi.trans e.unit_eq
    obtain ⟨a, ha, rfl⟩ := State.finalization_of_worker hv (hi ▸ e.kind_eq)
    exact (h.finalizationDispatched_launches e).of_ok hr a ha hi hl
  | _ => cases hu

end Reductions

end MonitorController
