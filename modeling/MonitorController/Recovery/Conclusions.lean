import MonitorController.Recovery.Turns
import MonitorController.Safety.Topology

/-! # Replayed results of one worker

A verified result launches an admitted worker and ends it. Starting from a
coherent state every step of that returns, unless another retained worker keeps
the phase or the proof which the step gives up.
-/

namespace MonitorController

open Outcome

/-- The step decides on a state which is coherent exactly when the step is permitted. -/
def Steps (x : Result Decision) (permitted : Prop) (P : State → Prop) : Prop :=
  ∃ t es, x = decision t es ∧ t.phase ≠ .recovering ∧ (Coherent t ↔ permitted) ∧ P t

/-- The result of the worker still awaits a confirming observation. -/
def Defers (k : ActionKind) (l : ActionLifecycle) : Prop :=
  l = .completed ∧ k.deferred = true

instance (k : ActionKind) (l : ActionLifecycle) : Decidable (Defers k l) :=
  inferInstanceAs (Decidable (_ ∧ _))

/-- The same worker, with what its end or its launch has made of it. -/
structure Succeeds (r : ActionRecord) (u : Option WorkerUnit) (l : ActionLifecycle)
    (x : Option Int) (q : ActionRecord) : Prop where
  kind : q.kind = r.kind
  actionId : q.actionId = r.actionId
  unit : q.unit? = u
  lifecycle : q.lifecycle = l
  exitStatus : q.exitStatus = x
  planHash : q.planHash? = r.planHash?

/-- What a worker leaves in its slot and among the tombstones. -/
inductive Aftermath (s : State) (r : ActionRecord) (u : Option WorkerUnit) (l : ActionLifecycle)
    (x : Option Int) (t : State) : Prop
  | gone (hl : l.failedLifecycle = false) (hd : ¬ Defers r.kind l) (hslot : t.slot r.kind = none)
    (hts : t.actionTombstones = s.burial r.actionId l)
  | failed (hl : l.failedLifecycle = true) (q) (hslot : t.slot r.kind = some q)
    (hq : Succeeds r u l x q) (hts : t.actionTombstones = s.burial r.actionId l)
  | pending (hd : Defers r.kind l) (q) (hslot : t.slot r.kind = some q)
    (hq : Succeeds r u .resultPending x q) (hts : t.actionTombstones = s.actionTombstones)

/-- The worker goes on in its slot, and nothing is buried. -/
structure Proceeds (s : State) (r : ActionRecord) (u : Option WorkerUnit) (l : ActionLifecycle)
    (t : State) (q : ActionRecord) : Prop where
  mem : q ∈ t.actions
  record : Succeeds r u l r.exitStatus q
  tombstones : t.actionTombstones = s.actionTombstones
  ids : t.actions.map (·.actionId) = s.actions.map (·.actionId)

section Aftermaths

variable {s t t' : State} {r q : ActionRecord} {u v : Option WorkerUnit} {l l' : ActionLifecycle}
  {x y : Option Int}

theorem Succeeds.trans {p : ActionRecord} (h : Succeeds r u l x q) (h' : Succeeds q v l' y p) :
    Succeeds r v l' y p where
  kind := h'.kind.trans h.kind
  actionId := h'.actionId.trans h.actionId
  unit := h'.unit
  lifecycle := h'.lifecycle
  exitStatus := h'.exitStatus
  planHash := h'.planHash.trans h.planHash

theorem Proceeds.aftermath (h : Proceeds s r u l t q) (h' : Aftermath t q v l' x t') :
    Aftermath s r v l' x t' := by
  have hburial : t.burial q.actionId l' = s.burial r.actionId l' := by
    rw [h.record.actionId]
    exact State.burial_congr h.tombstones h.ids _ _
  have hkind := h.record.kind
  cases h' with
  | gone hl hd hslot hts => exact .gone hl (hkind ▸ hd) (hkind ▸ hslot) (hts.trans hburial)
  | failed hl p hslot hp hts =>
    exact .failed hl p (hkind ▸ hslot) (h.record.trans hp) (hts.trans hburial)
  | pending hd p hslot hp hts =>
    exact .pending (hkind ▸ hd) p (hkind ▸ hslot) (h.record.trans hp) (hts.trans h.tombstones)

end Aftermaths

section Phases

variable {l : ActionLifecycle} {phase : ControllerPhase} {preparationState : PreparationState}

theorem probePhase (h : Fits (some l) (expectedProbeLifecycles phase)) :
    (l = .admitted → phase = .probePending) ∧ (l.mutatingInFlight = true → phase = .probing) := by
  cases phase <;>
    simp only [Fits, expectedProbeLifecycles, inFlightLifecycles, failedLifecycles, Option.mem_def,
      Option.some.injEq, exists_eq_left', List.mem_cons, List.not_mem_nil, or_false,
      reduceCtorEq] at h
  case probePending => subst h; decide
  case probing => rcases h with rfl | rfl | rfl <;> decide
  case probeFailed => rcases h with rfl | rfl | rfl <;> decide

theorem applicationPhase (h : Fits (some l) (expectedApplicationLifecycles phase)) :
    (l = .admitted → phase = .applyPending) ∧ (l.mutatingInFlight = true → phase = .applying) := by
  cases phase <;>
    simp only [Fits, expectedApplicationLifecycles, inFlightLifecycles, failedLifecycles,
      Option.mem_def, Option.some.injEq, exists_eq_left', List.mem_cons, List.not_mem_nil, or_false,
      reduceCtorEq] at h
  case applyPending => subst h; decide
  case applying => rcases h with rfl | rfl | rfl <;> decide
  case applyFailed => rcases h with rfl | rfl | rfl <;> decide

theorem preparationPhase (h : Fits (some l) (expectedPreparation preparationState)) :
    (l = .admitted → preparationState = .preparePending) ∧
      (l = .dispatched → preparationState = .preparing) ∧
      (l = .stopping → preparationState = .prepareStopping) := by
  cases preparationState <;>
    simp only [Fits, expectedPreparation, failedLifecycles, Option.mem_def, Option.some.injEq,
      exists_eq_left', List.mem_cons, List.not_mem_nil, or_false, reduceCtorEq] at h
  case preparePending => subst h; decide
  case preparing => rcases h with rfl | rfl <;> decide
  case prepared => subst h; decide
  case prepareStopping => subst h; decide
  case prepareFailed => rcases h with rfl | rfl | rfl <;> decide

theorem finalizationPhase (h : Fits (some l) (expectedFinalizationLifecycles phase)) :
    (l = .admitted → phase = .finalizePending) ∧ (l = .dispatched → phase = .finalizing) ∧
      (l = .stopping → phase = .finalizeStopping) := by
  cases phase <;>
    simp only [Fits, expectedFinalizationLifecycles, failedLifecycles, Option.mem_def,
      Option.some.injEq, exists_eq_left', List.mem_cons, List.not_mem_nil, or_false,
      reduceCtorEq] at h
  case finalizePending => subst h; decide
  case finalizing => rcases h with rfl | rfl <;> decide
  case finalizeStopping => subst h; decide
  case finalizeFailed => rcases h with rfl | rfl | rfl <;> decide

end Phases

section Decisions

variable {s t : State} {es : List Effect}

theorem Coherent.decision_eq (h : Coherent t) : decision t es = .ok ⟨t, es⟩ := by
  simp [decision, (coherent_iff h.live).mpr h]

theorem Coherent.of_decision {d : Decision} (hlive : t.phase ≠ .recovering)
    (hd : decision t es = .ok d) : Coherent t := by
  obtain ⟨⟨⟩, hchecked, -⟩ := bind_eq_ok.mp hd
  exact (coherent_iff hlive).mp hchecked

theorem Coherent.reduces (h : Coherent s) {e : Event} {permitted : Prop} {P : Decision → Prop}
    (he : Guarded (reduceEvent s e) permitted P) (hboot : e.metadata.bootId = s.bootId)
    (hb : ∀ b, e ≠ .bootChanged b) : Guarded (reduce s e) permitted P := by
  have heq : reduce s e = reduceEvent s e := by
    simp only [reduce, (coherent_iff h.live).mpr h, ok_bind]
    cases e with
    | bootChanged b => exact absurd rfl (hb b)
    | _ => simp [hboot, h.live]
  rwa [heq]

theorem Steps.guarded {x : Result Decision} {permitted : Prop} {P : State → Prop}
    (h : Steps x permitted P) :
    Guarded x permitted fun d => Coherent d.state ∧ P d.state := by
  obtain ⟨t, es, rfl, hlive, hcoherent, ht⟩ := h
  constructor
  · intro hp
    exact ⟨_, (hcoherent.mpr hp).decision_eq, hcoherent.mpr hp, ht⟩
  · intro d hd
    have ht' := Coherent.of_decision hlive hd
    obtain rfl := Except.ok.inj (ht'.decision_eq.symm.trans hd)
    exact ⟨hcoherent.mp ht', ht', ht⟩

theorem Steps.free {x : Result Decision} {P : State → Prop} {t : State} {es : List Effect}
    (hx : x = decision t es) (h : Coherent t) (hp : P t) : Steps x True P :=
  ⟨t, es, hx, h.live, iff_of_true h trivial, hp⟩

end Decisions

section Workers

variable {w : WorkerAction} {generation : EventGeneration}

theorem Equipped.dispatched (h : Equipped generation w) (unit : WorkerUnit) (deadlineMs : Nat)
    (hu : unit.actionId = w.actionId) (hl : w.lifecycle = .admitted) :
    Equipped generation (w.dispatch unit deadlineMs hu hl) :=
  ⟨h.admitted, fun _ => ⟨by simp [WorkerAction.dispatch], by simp [WorkerAction.dispatch]⟩⟩

theorem Equipped.ended (h : Equipped generation w) {l : ActionLifecycle} (x : Option Int)
    (hx : l ≠ .admitted) (hl : l.terminal = true) : Equipped generation (w.settle l x hx) :=
  ⟨h.admitted, fun hflight => absurd (ActionLifecycle.live_of_inFlight hflight) (by
    simp [WorkerAction.settle, hl])⟩

theorem Equipped.reported (h : Equipped generation w) (x : Option Int)
    (hf : w.lifecycle.mutatingInFlight = true) :
    Equipped generation (w.settle .resultPending x (by decide)) :=
  ⟨h.admitted, fun _ => h.retained hf⟩

theorem Equipped.stopped (h : Equipped generation w) {l : ActionLifecycle}
    (hl : l = .unknown ∨ l = .timedOut) (hf : w.lifecycle.mutatingInFlight = true) :
    Equipped generation (w.stopUncertain l hl) :=
  ⟨h.admitted, fun _ => h.retained hf⟩

end Workers

section Probe

variable {s : State} (h : Coherent s) {w : ProbeAction} (hw : s.probe = some w)
include h hw

theorem Coherent.probeGone {l : ActionLifecycle} (hl : l.terminal = true) (t : Nat) :
    Coherent { s.bury w.actionId l with
      phase := .discoverFast
      probe := none
      nextTimerMs := some t } :=
  h.probeTurn hw (.buried l hl none (by rintro q ⟨⟩)) (.inr (.inr rfl)) rfl
    (by rintro c ⟨⟩) (by rintro c ⟨⟩) (by simp)

theorem Coherent.probeFails {l : ActionLifecycle} (hf : l.failedLifecycle = true) (x : Option Int)
    (hx : l ≠ .admitted) (hl : w.lifecycle ≠ .admitted) (t : Nat) :
    Coherent { s.bury w.actionId l with
      phase := .probeFailed
      probe := some { w with toWorkerAction := w.settle l x hx }
      nextTimerMs := some t } := by
  have hterminal := ActionLifecycle.terminal_of_failed hf
  refine h.probeTurn hw (b := some { w with toWorkerAction := w.settle l x hx })
    (.buried l hterminal _ ?_) (.inr (.inl rfl)) (ActionLifecycle.fits_failed hf) ?_ ?_ (by simp)
  · rintro q ⟨⟩
    exact ⟨rfl, rfl⟩
  · rintro c ⟨⟩
    exact (h.probe_worker w hw).ended x hx hterminal
  · rintro c ⟨⟩
    exact h.probe_attempted w hw hl

theorem Coherent.probeFinished (hl : w.lifecycle = .dispatched) {o : WorkerOutcome}
    {l : ActionLifecycle} (ho : resultOutcome l = some o) (x : Option Int) (nowMs : Nat) :
    Steps (probeFinished s w.actionId o x nowMs) True fun t =>
      t.eventGeneration = s.eventGeneration ∧ Aftermath s (.probe w) w.unit l x t := by
  have hphase : s.phase = .probing := by
    refine (probePhase (l := w.lifecycle) ?_).2 (by rw [hl]; rfl)
    simpa [hw] using h.probe_fits
  unfold MonitorController.probeFinished
  rw [hw]
  dsimp only
  rw [if_neg (by simp [hphase]), if_neg (by simp [hl])]
  cases l <;> cases ho
  case completed =>
    dsimp only
    rw [h.ledger.tidy.appendTombstone_eq _ rfl, ok_bind]
    refine .free rfl (h.probeGone hw (l := .completed) rfl nowMs) ⟨rfl, ?_⟩
    exact .gone rfl (show ¬ Defers .probe .completed by decide) rfl rfl
  case failed =>
    dsimp only
    rw [h.ledger.tidy.appendTombstone_eq _ rfl, ok_bind]
    refine .free rfl (h.probeFails hw (l := .failed) rfl x (by decide) (by simp [hl])
      (nowMs + healthPollMs)) ⟨rfl, ?_⟩
    exact .failed rfl _ rfl ⟨rfl, rfl, rfl, rfl, rfl, rfl⟩ rfl
  case cancelled =>
    dsimp only
    rw [h.ledger.tidy.appendTombstone_eq _ rfl, ok_bind]
    refine .free rfl (h.probeGone hw (l := .cancelled) rfl nowMs) ⟨rfl, ?_⟩
    exact .gone rfl (show ¬ Defers .probe .cancelled by decide) rfl rfl

/-- An acknowledged stop ends the probe as if it had not been stopped. -/
theorem Coherent.acknowledgeProbe (hl : w.lifecycle = .stopping)
    (e : WorkerCancellationAcknowledged) :
    Steps (acknowledgeProbe s e w) True fun t => t.eventGeneration = s.eventGeneration ∧
      Aftermath s (.probe w) w.unit e.terminalLifecycle (some e.exitStatus) t := by
  unfold MonitorController.acknowledgeProbe
  dsimp only
  split
  next hc =>
    let s' : State :=
      { s with phase := .probing, probe := some { w with toWorkerAction := w.resume } }
    have hids : s'.actions.map (·.actionId) = s.actions.map (·.actionId) := by
      simp [s', State.actions, hw, ActionRecord.actionId, WorkerAction.resume]
    have hburial : s'.burial w.resume.actionId .completed = s.burial w.actionId .completed :=
      State.burial_congr (show s'.actionTombstones = s.actionTombstones from rfl) hids _ _
    refine .free (Sound.probeFinished_succeeded (s := s') h.ledger.tidy rfl rfl rfl (some e.exitStatus)
      e.metadata.processedAtMs) ?_ ⟨rfl, ?_⟩
    · simp only [State.bury, hburial]
      exact h.probeGone hw (l := .completed) rfl _
    · rw [hc]
      exact .gone rfl (show ¬ Defers .probe .completed by decide) rfl hburial
  next hc =>
    rw [h.ledger.tidy.appendTombstone_eq _ e.terminal, ok_bind]
    split
    next hf =>
      have hfails := h.probeFails hw hf (some e.exitStatus) e.not_admitted (by simp [hl])
      unfold acknowledgeFailure
      split
      · exact .free rfl (hfails _) ⟨rfl, .failed hf _ rfl ⟨rfl, rfl, rfl, rfl, rfl, rfl⟩ rfl⟩
      · exact .free rfl (hfails _) ⟨rfl, .failed hf _ rfl ⟨rfl, rfl, rfl, rfl, rfl, rfl⟩ rfl⟩
    next hf =>
      refine .free rfl (h.probeGone hw e.terminal _) ⟨rfl, ?_⟩
      exact .gone (by simpa using hf) (fun hd => hc hd.1) rfl rfl

theorem Coherent.doubtProbe (hl : w.lifecycle = .dispatched) (nowMs : Nat) :
    Steps (stopUncertainMutator s (.probe w) .unknown nowMs) True fun t =>
      t.eventGeneration = s.eventGeneration ∧
        ∃ b, t.probe = some b ∧ Proceeds s (.probe w) w.unit .stopping t (.probe b) := by
  refine .free rfl (h.probeTurn hw (t := some (nowMs + 1000)) (.kept _ rfl ?_ rfl ?_) (.inl rfl)
    ⟨_, rfl, ?_⟩ ?_ ?_ (by simp)) ⟨rfl, _, rfl, State.mem_actions_probe rfl,
      ⟨rfl, rfl, rfl, rfl, rfl, rfl⟩, rfl, ?_⟩
  · simp [ActionRecord.lifecycle, hl, ActionLifecycle.terminal]
  · exact fun _ => ⟨.inr rfl, rfl⟩
  · simp [WorkerAction.stopUncertain, inFlightLifecycles]
  · rintro c ⟨⟩
    exact (h.probe_worker w hw).stopped (.inl rfl) (by simp [hl, ActionLifecycle.mutatingInFlight])
  · rintro c ⟨⟩
    exact h.probe_attempted w hw (by simp [hl])
  · simp [State.actions, hw, ActionRecord.actionId, WorkerAction.stopUncertain, stopSlot]

theorem Coherent.launchProbe (hl : w.lifecycle = .admitted) (e : ProbeDispatched)
    (hid : e.actionId = w.actionId) :
    Steps (probeDispatched s e) True fun t => t.eventGeneration = s.eventGeneration ∧
      ∃ b, t.probe = some b ∧ Proceeds s (.probe w) (some e.unit) .dispatched t (.probe b) := by
  have hphase : s.phase = .probePending := by
    refine (probePhase (l := w.lifecycle) ?_).1 hl
    simpa [hw] using h.probe_fits
  unfold probeDispatched
  rw [hw]
  dsimp only
  rw [dif_pos ⟨hphase, hid.symm, hl⟩]
  refine .free rfl (h.probeTurn hw (t := none) (.kept _ rfl ?_ rfl ?_) (.inl rfl) ⟨_, rfl, ?_⟩ ?_ ?_
    (by simp)) ⟨rfl, _, rfl, State.mem_actions_probe rfl, ⟨rfl, rfl, rfl, rfl, rfl, rfl⟩, rfl, ?_⟩
  · simp [ActionRecord.lifecycle, hl, ActionLifecycle.terminal]
  · intro hrun
    simp [ActionRecord.lifecycle, hl] at hrun
  · simp [WorkerAction.dispatch, inFlightLifecycles]
  · rintro c ⟨⟩
    exact (h.probe_worker w hw).dispatched e.unit _ (e.unit_eq.trans hid) hl
  · rintro c ⟨⟩ -
    exact Finset.mem_insert_self _ _
  · simp [State.actions, hw, ActionRecord.actionId, WorkerAction.dispatch]

end Probe

section Application

/-- How a replay leaves the application's slot. -/
def EndsApplication (l : ActionLifecycle) (t : State) : Prop :=
  if l.failedLifecycle = true then ∃ b, t.application = some b ∧ b.lifecycle = l
  else t.application = none

theorem Aftermath.endsApplication {s t : State} {w : ApplicationAction} {u : Option WorkerUnit}
    {l : ActionLifecycle} {x : Option Int} (h : Aftermath s (.application w) u l x t) :
    EndsApplication l t := by
  unfold EndsApplication
  cases h with
  | gone hl hd hslot hts =>
    rw [if_neg (by simp [hl])]
    exact Option.map_eq_none_iff.mp hslot
  | failed hl q hslot hq hts =>
    rw [if_pos hl]
    obtain ⟨b, hb, rfl⟩ := Option.map_eq_some_iff.mp hslot
    exact ⟨b, hb, hq.lifecycle⟩
  | pending hd q hslot hq hts => exact absurd hd.2 (by simp [ActionRecord.kind, ActionKind.deferred])

theorem EndsApplication.none_iff {l : ActionLifecycle} {t : State} (h : EndsApplication l t) :
    t.application = none ↔ l.failedLifecycle = false := by
  unfold EndsApplication at h
  split at h
  next hf =>
    obtain ⟨b, hb, -⟩ := h
    simp [hb, hf]
  next hf => simp [h, hf]

theorem EndsApplication.idle {l : ActionLifecycle} {t : State} (h : EndsApplication l t) :
    ∀ b ∈ t.application, b.lifecycle.mutatingInFlight = false := by
  intro b hb
  unfold EndsApplication at h
  split at h
  next hf =>
    obtain ⟨b', hb', rfl⟩ := h
    obtain rfl := Option.some.inj (hb'.symm.trans hb)
    cases hl : b'.lifecycle <;> simp_all [ActionLifecycle.failedLifecycle,
      ActionLifecycle.mutatingInFlight]
  next => exact absurd (h.symm.trans hb) (by simp)

variable {s : State} (h : Coherent s) {w : ApplicationAction} (hw : s.application = some w)
include h hw

theorem Coherent.applicationGone {l : ActionLifecycle} (hl : l.terminal = true)
    {since : Option Nat} (hproof : since = s.verifySinceMs ∨ ∀ p ∈ s.preparation, ¬ Awaits s p)
    (t : Nat) :
    Coherent { s.bury w.actionId l with
      phase := .discoverFast
      application := none
      verifySinceMs := since
      nextTimerMs := some t } :=
  h.applicationTurn hw (.buried l hl none (by rintro q ⟨⟩)) (.inr (.inr rfl)) rfl
    (by rintro c ⟨⟩) (by rintro c ⟨⟩) (by rintro c ⟨⟩) (by rintro c ⟨⟩) (by simp) hproof

theorem Coherent.applicationFails {l : ActionLifecycle} (hf : l.failedLifecycle = true)
    (x : Option Int) (hx : l ≠ .admitted) (hl : w.lifecycle ≠ .admitted) (t : Nat) :
    Coherent { s.bury w.actionId l with
      phase := .applyFailed
      application := some { w with toWorkerAction := w.settle l x hx }
      nextTimerMs := some t } := by
  have hterminal := ActionLifecycle.terminal_of_failed hf
  refine h.applicationTurn hw (b := some { w with toWorkerAction := w.settle l x hx })
    (.buried l hterminal _ ?_) (.inr (.inl rfl)) (ActionLifecycle.fits_failed hf) ?_ ?_ ?_ ?_
    (by simp) (.inl rfl)
  · rintro q ⟨⟩
    exact ⟨rfl, rfl⟩
  · rintro c ⟨⟩
    exact (h.application_worker w hw).ended x hx hterminal
  · rintro c ⟨⟩
    rfl
  · rintro c ⟨⟩ p - hflight
    exact absurd (ActionLifecycle.live_of_inFlight hflight) (by simp [WorkerAction.settle, hterminal])
  · rintro c ⟨⟩
    exact h.application_attempted w hw hl

theorem Coherent.applicationCompletes (t : Nat) :
    Coherent { s.bury w.actionId .completed with
      phase := .discoverFast
      application := none
      verifySinceMs := none
      nextTimerMs := some t } ↔ ∀ p ∈ s.preparation, ¬ Awaits s p := by
  constructor
  · rintro hcoherent p hp ⟨hl, hcurrent⟩
    have hpending : s.preparationState = .preparePending := by
      refine (preparationPhase (l := p.lifecycle) ?_).1 hl
      simpa [Option.mem_def.mp hp] using h.preparation_fits
    obtain ⟨since, hsince, -⟩ := (hcoherent.preparation_fresh p hp hpending hcurrent).2
    cases hsince
  · intro hnone
    exact h.applicationGone hw rfl (.inr hnone) t

theorem Coherent.applicationFinished (hl : w.lifecycle = .dispatched) {o : WorkerOutcome}
    {l : ActionLifecycle} (ho : resultOutcome l = some o) (x : Option Int) (nowMs : Nat) :
    Steps (applicationFinished s w.actionId o x nowMs)
      (l = .completed → ∀ p ∈ s.preparation, ¬ Awaits s p)
      fun t => t.eventGeneration = s.eventGeneration ∧
        Aftermath s (.application w) w.unit l x t := by
  have hphase : s.phase = .applying := by
    refine (applicationPhase (l := w.lifecycle) ?_).2 (by rw [hl]; rfl)
    simpa [hw] using h.application_fits
  unfold MonitorController.applicationFinished
  rw [hw]
  dsimp only
  rw [if_neg (by simp [hphase]), if_neg (by simp [hl])]
  cases l <;> cases ho
  case completed =>
    dsimp only
    rw [h.ledger.tidy.appendTombstone_eq _ rfl, ok_bind]
    refine ⟨_, _, rfl, ?_, ?_, ?_⟩
    · simp
    · simpa using h.applicationCompletes hw nowMs
    · exact ⟨rfl, .gone rfl (show ¬ Defers .application .completed by decide) rfl rfl⟩
  case failed =>
    dsimp only
    rw [h.ledger.tidy.appendTombstone_eq _ rfl, ok_bind]
    have hfails := h.applicationFails hw (l := .failed) rfl x (by decide) (by simp [hl])
      (nowMs + healthPollMs)
    exact ⟨_, _, rfl, hfails.live, iff_of_true hfails (by simp), rfl,
      .failed rfl _ rfl ⟨rfl, rfl, rfl, rfl, rfl, rfl⟩ rfl⟩
  case cancelled =>
    dsimp only
    rw [h.ledger.tidy.appendTombstone_eq _ rfl, ok_bind]
    have hgone := h.applicationGone hw (l := .cancelled) rfl (.inl rfl) nowMs
    exact ⟨_, _, rfl, hgone.live, iff_of_true hgone (by simp), rfl,
      .gone rfl (show ¬ Defers .application .cancelled by decide) rfl rfl⟩

/-- An acknowledged stop ends the application as if it had not been stopped. -/
theorem Coherent.acknowledgeApplication (hl : w.lifecycle = .stopping)
    (e : WorkerCancellationAcknowledged) :
    Steps (acknowledgeApplication s e w)
      (e.terminalLifecycle = .completed → ∀ p ∈ s.preparation, ¬ Awaits s p)
      fun t => t.eventGeneration = s.eventGeneration ∧
        Aftermath s (.application w) w.unit e.terminalLifecycle (some e.exitStatus) t := by
  unfold MonitorController.acknowledgeApplication
  dsimp only
  split
  next hc =>
    let s' : State :=
      { s with phase := .applying, application := some { w with toWorkerAction := w.resume } }
    have hids : s'.actions.map (·.actionId) = s.actions.map (·.actionId) := by
      simp [s', State.actions, hw, ActionRecord.actionId, WorkerAction.resume]
    have hburial : s'.burial w.resume.actionId .completed = s.burial w.actionId .completed :=
      State.burial_congr (show s'.actionTombstones = s.actionTombstones from rfl) hids _ _
    refine ⟨_, _, Sound.applicationFinished_succeeded (s := s') h.ledger.tidy rfl rfl rfl
      (some e.exitStatus) e.metadata.processedAtMs, ?_, ?_, ?_⟩
    · simp
    · simp only [hc, forall_const, State.bury, hburial]
      exact h.applicationCompletes hw _
    · rw [hc]
      exact ⟨rfl, .gone rfl (show ¬ Defers .application .completed by decide) rfl hburial⟩
  next hc =>
    rw [h.ledger.tidy.appendTombstone_eq _ e.terminal, ok_bind]
    split
    next hf =>
      have hfails := h.applicationFails hw hf (some e.exitStatus) e.not_admitted (by simp [hl])
      unfold acknowledgeFailure
      split
      · exact ⟨_, _, rfl, (hfails _).live, iff_of_true (hfails _) (fun h => absurd h hc), rfl,
          .failed hf _ rfl ⟨rfl, rfl, rfl, rfl, rfl, rfl⟩ rfl⟩
      · exact ⟨_, _, rfl, (hfails _).live, iff_of_true (hfails _) (fun h => absurd h hc), rfl,
          .failed hf _ rfl ⟨rfl, rfl, rfl, rfl, rfl, rfl⟩ rfl⟩
    next hf =>
      have hgone := h.applicationGone hw e.terminal (.inl rfl) e.metadata.processedAtMs
      exact ⟨_, _, rfl, hgone.live, iff_of_true hgone (fun h => absurd h hc), rfl,
        .gone (by simpa using hf) (fun hd => hc hd.1) rfl rfl⟩

theorem Coherent.doubtApplication (hl : w.lifecycle = .dispatched) (nowMs : Nat) :
    Steps (stopUncertainMutator s (.application w) .unknown nowMs) True fun t =>
      t.eventGeneration = s.eventGeneration ∧ ∃ b, t.application = some b ∧
        Proceeds s (.application w) w.unit .stopping t (.application b) := by
  refine .free rfl (h.applicationTurn hw (t := some (nowMs + 1000)) (.kept _ rfl ?_ rfl ?_)
    (.inl rfl) ⟨_, rfl, ?_⟩ ?_ ?_ ?_ ?_ (by simp) (.inl rfl)) ⟨rfl, _, rfl,
      State.mem_actions_application rfl, ⟨rfl, rfl, rfl, rfl, rfl, rfl⟩, rfl, ?_⟩
  · simp [ActionRecord.lifecycle, hl, ActionLifecycle.terminal]
  · exact fun _ => ⟨.inr rfl, rfl⟩
  · simp [WorkerAction.stopUncertain, inFlightLifecycles]
  · rintro c ⟨⟩
    exact (h.application_worker w hw).stopped (.inl rfl) (by
      simp [hl, ActionLifecycle.mutatingInFlight])
  · rintro c ⟨⟩
    rfl
  · rintro c ⟨⟩ p hp -
    exact h.exclusive w hw p hp (by simp [hl, ActionLifecycle.mutatingInFlight])
  · rintro c ⟨⟩
    exact h.application_attempted w hw (by simp [hl])
  · simp [State.actions, hw, ActionRecord.actionId, WorkerAction.stopUncertain, stopSlot]

/-- An application is launched unless a preparation is in flight. -/
theorem Coherent.launchApplication (hl : w.lifecycle = .admitted) (e : ApplicationDispatched)
    (hid : e.actionId = w.actionId) :
    Steps (applicationDispatched s e)
      (∀ p ∈ s.preparation, p.lifecycle.mutatingInFlight = false)
      fun t => t.eventGeneration = s.eventGeneration ∧ t.preparation = s.preparation ∧
        ∃ b, t.application = some b ∧
          Proceeds s (.application w) (some e.unit) .dispatched t (.application b) := by
  have hphase : s.phase = .applyPending := by
    refine (applicationPhase (l := w.lifecycle) ?_).1 hl
    simpa [hw] using h.application_fits
  unfold applicationDispatched
  rw [hw]
  dsimp only
  rw [dif_pos ⟨hphase, hid.symm, hl⟩]
  refine ⟨_, _, rfl, ?_, ⟨?_, ?_⟩, rfl, rfl, _, rfl, State.mem_actions_application rfl,
    ⟨rfl, rfl, rfl, rfl, rfl, rfl⟩, rfl, ?_⟩
  · simp
  · intro hcoherent p hp
    exact hcoherent.exclusive _ rfl p hp rfl
  · intro hidle
    refine h.applicationTurn hw (t := none) (.kept _ rfl ?_ rfl ?_) (.inl rfl) ⟨_, rfl, ?_⟩ ?_ ?_ ?_
      ?_ (by simp) (.inl rfl)
    · simp [ActionRecord.lifecycle, hl, ActionLifecycle.terminal]
    · intro hrun
      simp [ActionRecord.lifecycle, hl] at hrun
    · simp [WorkerAction.dispatch, inFlightLifecycles]
    · rintro c ⟨⟩
      exact (h.application_worker w hw).dispatched e.unit _ (e.unit_eq.trans hid) hl
    · rintro c ⟨⟩
      rfl
    · rintro c ⟨⟩ p hp -
      exact hidle p hp
    · rintro c ⟨⟩ -
      exact Finset.mem_insert_self _ _
  · simp [State.actions, hw, ActionRecord.actionId, WorkerAction.dispatch]

end Application

section Finalization

variable {s : State} (h : Coherent s) {w : FinalizationAction} (hw : s.finalization = some w)
include h hw

theorem Coherent.finalizationGone {l : ActionLifecycle} (hl : l.terminal = true) (t : Nat) :
    Coherent { s.bury w.actionId l with
      phase := .discoverFast
      finalization := none
      verifySinceMs := none
      nextTimerMs := some t } :=
  h.finalizationTurn hw (.buried l hl none (by rintro q ⟨⟩)) (.inr (.inr (.inr rfl))) rfl
    (by rintro c ⟨⟩) (by rintro c ⟨⟩) (by simp)

theorem Coherent.finalizationFails {l : ActionLifecycle} (hf : l.failedLifecycle = true)
    (x : Option Int) (hx : l ≠ .admitted) (t : Nat) :
    Coherent { s.bury w.actionId l with
      phase := .finalizeFailed
      finalization := some { w with toWorkerAction := w.settle l x hx }
      nextTimerMs := some t } := by
  have hterminal := ActionLifecycle.terminal_of_failed hf
  refine h.finalizationTurn hw (b := some { w with toWorkerAction := w.settle l x hx })
    (.buried l hterminal _ ?_) (.inr (.inr (.inl rfl))) (ActionLifecycle.fits_failed hf) ?_ ?_
    (by simp)
  · rintro q ⟨⟩
    exact ⟨rfl, rfl⟩
  · rintro c ⟨⟩
    exact (h.finalization_worker w hw).ended x hx hterminal
  · rintro c ⟨⟩
    exact ⟨rfl, rfl, rfl, rfl⟩

theorem Coherent.finalizationReports (x : Option Int) (hf : w.lifecycle.mutatingInFlight = true)
    (t : Nat) :
    Coherent { clearRecoveryUnit s w.actionId with
      phase := .finalizing
      finalization := some { w with toWorkerAction := w.settle .resultPending x (by decide) }
      nextTimerMs := some t } := by
  refine h.finalizationTurn hw
    (b := some { w with toWorkerAction := w.settle .resultPending x (by decide) })
    (.reported _ rfl (ActionLifecycle.live_of_inFlight hf) rfl) (.inl rfl) ⟨_, rfl, ?_⟩ ?_ ?_
    (by simp)
  · simp [WorkerAction.settle]
  · rintro c ⟨⟩
    exact (h.finalization_worker w hw).reported x hf
  · rintro c ⟨⟩
    exact ⟨rfl, rfl, rfl, rfl⟩

theorem Coherent.finalizationFinished (hl : w.lifecycle = .dispatched) {o : WorkerOutcome}
    {l : ActionLifecycle} (ho : resultOutcome l = some o) (x : Option Int) (nowMs : Nat) :
    Steps (finalizationFinished s w.actionId o x nowMs) True fun t =>
      t.eventGeneration = s.eventGeneration ∧ Aftermath s (.finalization w) w.unit l x t := by
  have hphase : s.phase = .finalizing := by
    refine (finalizationPhase (l := w.lifecycle) ?_).2.1 hl
    simpa [hw] using h.finalization_fits
  unfold MonitorController.finalizationFinished
  rw [hw]
  dsimp only
  rw [if_neg (by simp [hphase, hl]), if_neg (by simp [hl])]
  cases l <;> cases ho
  case completed =>
    refine .free rfl (h.finalizationReports hw x (by simp [hl, ActionLifecycle.mutatingInFlight])
      nowMs) ⟨rfl, ?_⟩
    exact .pending ⟨rfl, rfl⟩ _ rfl ⟨rfl, rfl, rfl, rfl, rfl, rfl⟩ rfl
  case failed =>
    dsimp only
    rw [h.ledger.tidy.appendTombstone_eq _ rfl, ok_bind]
    refine .free rfl (h.finalizationFails hw (l := .failed) rfl x (by decide)
      (nowMs + healthPollMs)) ⟨rfl, ?_⟩
    exact .failed rfl _ rfl ⟨rfl, rfl, rfl, rfl, rfl, rfl⟩ rfl
  case cancelled =>
    dsimp only
    rw [h.ledger.tidy.appendTombstone_eq _ rfl, ok_bind]
    refine .free rfl (h.finalizationGone hw (l := .cancelled) rfl nowMs) ⟨rfl, ?_⟩
    exact .gone rfl (show ¬ Defers .finalization .cancelled by decide) rfl rfl

/-- An acknowledged stop ends the finalization as if it had not been stopped. -/
theorem Coherent.acknowledgeFinalization (hl : w.lifecycle = .stopping)
    (e : WorkerCancellationAcknowledged) :
    Steps (acknowledgeFinalization s e w) True fun t => t.eventGeneration = s.eventGeneration ∧
      Aftermath s (.finalization w) w.unit e.terminalLifecycle (some e.exitStatus) t := by
  unfold MonitorController.acknowledgeFinalization
  dsimp only
  split
  next hc =>
    unfold MonitorController.finalizationFinished
    dsimp only
    rw [if_neg (by simp [WorkerAction.resume]), if_neg (by simp [WorkerAction.resume])]
    refine .free rfl (h.finalizationReports hw (some e.exitStatus)
      (by simp [hl, ActionLifecycle.mutatingInFlight]) e.metadata.processedAtMs) ⟨rfl, ?_⟩
    exact .pending ⟨hc, rfl⟩ _ rfl ⟨rfl, rfl, rfl, rfl, rfl, rfl⟩ rfl
  next hc =>
    rw [h.ledger.tidy.appendTombstone_eq _ e.terminal, ok_bind]
    split
    next hf =>
      have hfails := h.finalizationFails hw hf (some e.exitStatus) e.not_admitted
      unfold acknowledgeFailure
      split
      · exact .free rfl (hfails _) ⟨rfl, .failed hf _ rfl ⟨rfl, rfl, rfl, rfl, rfl, rfl⟩ rfl⟩
      · exact .free rfl (hfails _) ⟨rfl, .failed hf _ rfl ⟨rfl, rfl, rfl, rfl, rfl, rfl⟩ rfl⟩
    next hf =>
      refine .free rfl (h.finalizationGone hw e.terminal _) ⟨rfl, ?_⟩
      exact .gone (by simpa using hf) (fun hd => hc hd.1) rfl rfl

theorem Coherent.doubtFinalization (hl : w.lifecycle = .dispatched) (nowMs : Nat) :
    Steps (stopUncertainMutator s (.finalization w) .unknown nowMs) True fun t =>
      t.eventGeneration = s.eventGeneration ∧ ∃ b, t.finalization = some b ∧
        Proceeds s (.finalization w) w.unit .stopping t (.finalization b) := by
  refine .free rfl (h.finalizationTurn hw (t := some (nowMs + 1000)) (.kept _ rfl ?_ rfl ?_)
    (.inr (.inl rfl)) ⟨_, rfl, ?_⟩ ?_ ?_ (by simp)) ⟨rfl, _, rfl,
      State.mem_actions_finalization rfl, ⟨rfl, rfl, rfl, rfl, rfl, rfl⟩, rfl, ?_⟩
  · simp [ActionRecord.lifecycle, hl, ActionLifecycle.terminal]
  · exact fun _ => ⟨.inr rfl, rfl⟩
  · simp [WorkerAction.stopUncertain]
  · rintro c ⟨⟩
    exact (h.finalization_worker w hw).stopped (.inl rfl) (by
      simp [hl, ActionLifecycle.mutatingInFlight])
  · rintro c ⟨⟩
    exact ⟨rfl, rfl, rfl, rfl⟩
  · simp [State.actions, hw, ActionRecord.actionId, WorkerAction.stopUncertain, stopSlot]

theorem Coherent.launchFinalization (hl : w.lifecycle = .admitted) (e : FinalizationDispatched)
    (hid : e.actionId = w.actionId) :
    Steps (finalizationDispatched s e) True fun t => t.eventGeneration = s.eventGeneration ∧
      ∃ b, t.finalization = some b ∧
        Proceeds s (.finalization w) (some e.unit) .dispatched t (.finalization b) := by
  have hphase : s.phase = .finalizePending := by
    refine (finalizationPhase (l := w.lifecycle) ?_).1 hl
    simpa [hw] using h.finalization_fits
  unfold finalizationDispatched
  rw [hw]
  dsimp only
  rw [dif_pos ⟨hphase, hid.symm, hl⟩]
  refine .free rfl (h.finalizationTurn hw (.kept _ rfl ?_ rfl ?_) (.inl rfl) ⟨_, rfl, ?_⟩ ?_ ?_ ?_)
    ⟨rfl, _, rfl, State.mem_actions_finalization rfl, ⟨rfl, rfl, rfl, rfl, rfl, rfl⟩, rfl, ?_⟩
  · simp [ActionRecord.lifecycle, hl, ActionLifecycle.terminal]
  · intro hrun
    simp [ActionRecord.lifecycle, hl] at hrun
  · simp [WorkerAction.dispatch]
  · rintro c ⟨⟩
    exact (h.finalization_worker w hw).dispatched e.unit _ (e.unit_eq.trans hid) hl
  · rintro c ⟨⟩
    exact ⟨rfl, rfl, rfl, rfl⟩
  · rintro ⟨⟩
  · simp [State.actions, hw, ActionRecord.actionId, WorkerAction.dispatch]

end Finalization

section Preparation

/-- The end of the preparation leads back to discovery. -/
def WithdrawnBy (w : PreparationAction) (l : ActionLifecycle) : Prop :=
  l ≠ .completed ∧ (w.lifecycle = .stopping ∨ l ≠ .failed)

theorem Coherent.application_none {t : State} (h : Coherent t) (hp : t.phase = .discoverFast) :
    t.application = none := by
  have hfits := h.application_fits
  rw [hp] at hfits
  simpa [Fits, expectedApplicationLifecycles] using hfits

variable {s : State} (h : Coherent s) {w : PreparationAction} (hw : s.preparation = some w)
include h hw

theorem Coherent.preparationGone {l : ActionLifecycle} (hl : l.terminal = true)
    (hlive : w.lifecycle.terminal = false) (t : Nat) :
    Coherent { s.bury w.actionId l with
      phase := .discoverFast
      preparationState := .prepareIdle
      preparation := none
      nextTimerMs := some t } ↔ s.application = none := by
  constructor
  · intro hcoherent
    exact hcoherent.application_none rfl
  · intro hnone
    exact h.preparationTurn hw hlive .prepareIdle (.buried l hl none (by rintro q ⟨⟩)) rfl (by simp)
      (.inr ⟨rfl, hnone⟩) (by rintro c ⟨⟩) (by rintro c ⟨⟩) (by rintro a - c ⟨⟩) (.inl rfl)
      (.inr (by simp))

theorem Coherent.preparationFails {l : ActionLifecycle} (hf : l.failedLifecycle = true)
    (x : Option Int) (hx : l ≠ .admitted) (hlive : w.lifecycle.terminal = false)
    {phase : ControllerPhase}
    (hphase : phase = s.phase ∨ phase = .discoverFast ∧ s.application = none) (t : Nat) :
    Coherent { s.bury w.actionId l with
      phase := phase
      preparationState := .prepareFailed
      preparation := some { w with toWorkerAction := w.settle l x hx }
      nextTimerMs := some t } := by
  have hterminal := ActionLifecycle.terminal_of_failed hf
  refine h.preparationTurn hw hlive .prepareFailed
    (b := some { w with toWorkerAction := w.settle l x hx }) (.buried l hterminal _ ?_)
    (ActionLifecycle.fits_failed hf) (by simp) hphase ?_ ?_ ?_ (.inl rfl) (.inr (by simp))
  · rintro q ⟨⟩
    exact ⟨rfl, rfl⟩
  · rintro c ⟨⟩
    exact (h.preparation_worker w hw).ended x hx hterminal
  · rintro c ⟨⟩
    exact ⟨rfl, rfl, rfl⟩
  · rintro a - c ⟨⟩ -
    by_contra hflight
    rw [Bool.not_eq_false] at hflight
    exact absurd (ActionLifecycle.live_of_inFlight hflight) (by simp [WorkerAction.settle, hterminal])

theorem Coherent.preparationReports (x : Option Int) (hf : w.lifecycle.mutatingInFlight = true)
    (t : Nat) :
    Coherent { clearRecoveryUnit s w.actionId with
      preparationState := .preparing
      preparation := some { w with toWorkerAction := w.settle .resultPending x (by decide) }
      nextTimerMs := some t } := by
  have hlive := ActionLifecycle.live_of_inFlight hf
  refine h.preparationTurn hw hlive .preparing
    (b := some { w with toWorkerAction := w.settle .resultPending x (by decide) })
    (.reported _ rfl hlive rfl) ⟨_, rfl, ?_⟩ (by simp) (.inl rfl) ?_ ?_ ?_ (.inl rfl)
    (.inr (by simp))
  · simp [WorkerAction.settle]
  · rintro c ⟨⟩
    exact (h.preparation_worker w hw).reported x hf
  · rintro c ⟨⟩
    exact ⟨rfl, rfl, rfl⟩
  · rintro a ha c ⟨⟩ hflight
    exact absurd (h.exclusive a ha w hw hflight) (by simp [hf])

theorem Coherent.preparationFinished (hl : w.lifecycle = .dispatched) {o : WorkerOutcome}
    {l : ActionLifecycle} (ho : resultOutcome l = some o) (x : Option Int) (nowMs : Nat) :
    Steps (preparationFinished s w.actionId o x nowMs w.planHash)
      (WithdrawnBy w l → s.application = none)
      fun t => t.eventGeneration = s.eventGeneration ∧
        Aftermath s (.preparation w) w.unit l x t := by
  have hstate : s.preparationState = .preparing := by
    refine (preparationPhase (l := w.lifecycle) ?_).2.1 hl
    simpa [hw] using h.preparation_fits
  have hlive : w.lifecycle.terminal = false := by
    simp [hl, ActionLifecycle.terminal]
  unfold MonitorController.preparationFinished
  rw [hw]
  dsimp only
  rw [if_neg (by simp [hstate, hl]), if_neg (by simp [hl])]
  cases l <;> cases ho
  case completed =>
    rw [if_pos ⟨rfl, rfl⟩]
    have hreports := h.preparationReports hw x (by simp [hl, ActionLifecycle.mutatingInFlight]) nowMs
    rw [← hstate] at hreports
    exact ⟨_, _, rfl, hreports.live, iff_of_true hreports (by simp [WithdrawnBy]), rfl,
      .pending ⟨rfl, rfl⟩ _ rfl ⟨rfl, rfl, rfl, rfl, rfl, rfl⟩ rfl⟩
  case failed =>
    rw [if_neg (by simp), if_neg (by simp), h.ledger.tidy.appendTombstone_eq _ rfl, ok_bind]
    have hfails := h.preparationFails hw (l := .failed) rfl x (by decide) hlive (.inl rfl)
      (nowMs + healthPollMs)
    exact ⟨_, _, rfl, hfails.live, iff_of_true hfails (by simp [WithdrawnBy, hl]), rfl,
      .failed rfl _ rfl ⟨rfl, rfl, rfl, rfl, rfl, rfl⟩ rfl⟩
  case cancelled =>
    rw [if_neg (by simp), if_pos rfl, h.ledger.tidy.appendTombstone_eq _ rfl, ok_bind]
    refine ⟨_, _, rfl, ?_, ?_, rfl, ?_⟩
    · simp
    · simpa [WithdrawnBy] using h.preparationGone hw (l := .cancelled) rfl hlive nowMs
    · exact .gone rfl (show ¬ Defers .preparation .cancelled by decide) rfl rfl

/-- An acknowledged stop which is no completion leads back to discovery. -/
theorem Coherent.acknowledgePreparation (hl : w.lifecycle = .stopping)
    (e : WorkerCancellationAcknowledged) :
    Steps (acknowledgePreparation s e w)
      (WithdrawnBy w e.terminalLifecycle → s.application = none)
      fun t => t.eventGeneration = s.eventGeneration ∧
        Aftermath s (.preparation w) w.unit e.terminalLifecycle (some e.exitStatus) t := by
  have hlive : w.lifecycle.terminal = false := by
    simp [hl, ActionLifecycle.terminal]
  unfold MonitorController.acknowledgePreparation
  dsimp only
  split
  next hc =>
    unfold MonitorController.preparationFinished
    dsimp only
    rw [if_neg (by simp [WorkerAction.resume]), if_neg (by simp [WorkerAction.resume]),
      if_pos ⟨rfl, rfl⟩]
    have hreports := h.preparationReports hw (some e.exitStatus)
      (by simp [hl, ActionLifecycle.mutatingInFlight]) e.metadata.processedAtMs
    exact ⟨_, _, rfl, hreports.live, iff_of_true hreports (by simp [WithdrawnBy, hc]), rfl,
      .pending ⟨hc, rfl⟩ _ rfl ⟨rfl, rfl, rfl, rfl, rfl, rfl⟩ rfl⟩
  next hc =>
    have hwithdrawn : WithdrawnBy w e.terminalLifecycle := ⟨hc, .inl hl⟩
    rw [h.ledger.tidy.appendTombstone_eq _ e.terminal, ok_bind]
    split
    next hf =>
      refine ⟨_, _, rfl, ?_, ⟨?_, ?_⟩, rfl, ?_⟩
      · simp
      · exact fun hcoherent _ => hcoherent.application_none rfl
      · intro hnone
        exact h.preparationFails hw hf (some e.exitStatus) e.not_admitted hlive
          (.inr ⟨rfl, hnone hwithdrawn⟩) _
      · exact .failed hf _ rfl ⟨rfl, rfl, rfl, rfl, rfl, rfl⟩ rfl
    next hf =>
      refine ⟨_, _, rfl, ?_, ?_, rfl, ?_⟩
      · simp
      · simpa [hwithdrawn] using h.preparationGone hw e.terminal hlive e.metadata.processedAtMs
      · exact .gone (by simpa using hf) (fun hd => hc hd.1) rfl rfl

theorem Coherent.doubtPreparation (hl : w.lifecycle = .dispatched) (nowMs : Nat) :
    Steps (stopUncertainMutator s (.preparation w) .unknown nowMs) (s.application = none) fun t =>
      t.eventGeneration = s.eventGeneration ∧ t.phase = .discoverFast ∧
        ∃ b, t.preparation = some b ∧
          Proceeds s (.preparation w) w.unit .stopping t (.preparation b) := by
  have hlive : w.lifecycle.terminal = false := by
    simp [hl, ActionLifecycle.terminal]
  refine ⟨_, _, rfl, ?_, ⟨?_, ?_⟩, rfl, rfl, _, rfl, State.mem_actions_preparation rfl,
    ⟨rfl, rfl, rfl, rfl, rfl, rfl⟩, rfl, ?_⟩
  · simp [stopSlot]
  · exact fun hcoherent => hcoherent.application_none rfl
  · intro hnone
    refine h.preparationTurn hw hlive .prepareStopping (t := some (nowMs + 1000))
      (.kept _ rfl hlive rfl ?_) ⟨_, rfl, ?_⟩ (by simp) (.inr ⟨rfl, hnone⟩) ?_ ?_ ?_ (.inr rfl)
      (.inr (by simp))
    · exact fun _ => ⟨.inr rfl, rfl⟩
    · simp [WorkerAction.stopUncertain]
    · rintro c ⟨⟩
      exact (h.preparation_worker w hw).stopped (.inl rfl) (by
        simp [hl, ActionLifecycle.mutatingInFlight])
    · rintro c ⟨⟩
      exact ⟨rfl, rfl, rfl⟩
    · intro a ha
      exact absurd (hnone.symm.trans ha) (by simp)
  · simp [State.actions, hw, ActionRecord.actionId, WorkerAction.stopUncertain, stopSlot]

/-- A preparation is launched unless an application is in flight. -/
theorem Coherent.launchPreparation (hl : w.lifecycle = .admitted) (e : PreparationDispatched)
    (hid : e.actionId = w.actionId) :
    Steps (preparationDispatched s e)
      (∀ a ∈ s.application, a.lifecycle.mutatingInFlight = false)
      fun t => t.eventGeneration = s.eventGeneration ∧ t.application = s.application ∧
        ∃ b, t.preparation = some b ∧
          Proceeds s (.preparation w) (some e.unit) .dispatched t (.preparation b) := by
  have hstate : s.preparationState = .preparePending := by
    refine (preparationPhase (l := w.lifecycle) ?_).1 hl
    simpa [hw] using h.preparation_fits
  have hlive : w.lifecycle.terminal = false := by
    simp [hl, ActionLifecycle.terminal]
  unfold preparationDispatched
  rw [hw]
  dsimp only
  rw [dif_pos ⟨hstate, hid.symm, hl⟩]
  refine ⟨_, _, rfl, h.live, ⟨?_, ?_⟩, rfl, rfl, _, rfl, State.mem_actions_preparation rfl,
    ⟨rfl, rfl, rfl, rfl, rfl, rfl⟩, rfl, ?_⟩
  · intro hcoherent a ha
    by_contra hflight
    rw [Bool.not_eq_false] at hflight
    exact absurd (hcoherent.exclusive a ha _ rfl hflight) (by
      simp [WorkerAction.dispatch, ActionLifecycle.mutatingInFlight])
  · intro hidle
    refine h.preparationTurn hw hlive .preparing (.kept _ rfl hlive rfl ?_) ⟨_, rfl, ?_⟩ (by simp)
      (.inl rfl) ?_ ?_ ?_ (.inl rfl) (.inl ⟨rfl, rfl⟩)
    · intro hrun
      simp [ActionRecord.lifecycle, hl] at hrun
    · simp [WorkerAction.dispatch]
    · rintro c ⟨⟩
      exact (h.preparation_worker w hw).dispatched e.unit _ (e.unit_eq.trans hid) hl
    · rintro c ⟨⟩
      exact ⟨rfl, rfl, rfl⟩
    · rintro a ha c ⟨⟩ hflight
      exact absurd (hidle a ha) (by simp [hflight])
  · simp [State.actions, hw, ActionRecord.actionId, WorkerAction.dispatch]

end Preparation

end MonitorController
