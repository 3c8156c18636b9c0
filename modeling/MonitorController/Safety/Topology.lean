import MonitorController.Safety.Exclusion
import MonitorController.Transition.Frame

/-! # Following the topology

A fresh valid sample brings the controller to its topology unless a worker is
in flight. An acknowledged stop ends the worker, except that a completed result
of a desktop worker still awaits its confirmation.
-/

namespace MonitorController

/-- No display worker is in flight. -/
def Quiet (s : State) : Prop :=
  ∀ w ∈ s.mutators, w.lifecycle.mutatingInFlight = false

/-- A valid sample of the state's boot which is not stale. -/
structure FreshSample (s : State) (e : ObservationCompleted) : Prop where
  boot : e.metadata.bootId = s.bootId
  fresh : ¬ staleObservation s e.observation
  valid : e.observation.valid = true

theorem Core.quiet_of_slots {s s' : State} (h : Core s) {r : ActionRecord} (hr : r ∈ s.actions)
    (hk : r.kind ≠ .plan) (hl : r.lifecycle.mutatingInFlight = true)
    (hother : ∀ k, k ≠ r.kind → s'.slot k = s.slot k)
    (hself : ∀ r', s'.slot r.kind = some r' → r'.lifecycle.mutatingInFlight = false) :
    Quiet s' := by
  have hlive := ActionLifecycle.live_of_inFlight hl
  have ended {r' : ActionRecord} (hr' : r' ∈ s'.actions) (hk' : r'.kind ≠ .plan) :
      r'.lifecycle.mutatingInFlight = false := by
    have hslot := State.slot_of_mem_actions hr'
    by_cases hsame : r'.kind = r.kind
    · exact hself r' (hsame ▸ hslot)
    · rw [hother r'.kind hsame] at hslot
      by_contra hflying
      have heq := h.live_unique hr hk hlive (State.mem_actions_of_slot hslot) hk'
        (ActionLifecycle.live_of_inFlight (by simpa using hflying))
      exact hsame (congrArg ActionRecord.kind heq)
  refine State.forall_mutators.mpr ⟨fun a ha => ?_, fun a ha => ?_, fun a ha => ?_,
    fun a ha => ?_⟩
  · exact ended (State.mem_actions_probe ha) (by simp [ActionRecord.kind])
  · exact ended (State.mem_actions_application ha) (by simp [ActionRecord.kind])
  · exact ended (State.mem_actions_preparation ha) (by simp [ActionRecord.kind])
  · exact ended (State.mem_actions_finalization ha) (by simp [ActionRecord.kind])

section Samples

variable {s : State} {prior : Option CanonicalObservation} {o : CanonicalObservation}
  {d : Decision}

theorem Observed.token (h : Observed s prior o d) :
    d.state.physicalToken = s.physicalToken ∨ d.state.physicalToken = some o.physicalToken := by
  cases h with
  | revoked r s' es t hv hl hr ht =>
    cases hr with
    | desktop hw => cases hw <;> exact .inl rfl
    | probe a ha => exact .inl rfl
    | application a ha => exact .inl rfl
  | stopped r s' t hv hs hi hc ht => cases hs <;> exact .inl rfl
  | refused s' t hv hs ht hc => cases hs <;> exact .inl rfl
  | confirmed s' eff hv ht hc => cases hc <;> exact .inl rfl
  | classified s' es d hv hf hc => exact .inr (hc.frame.physicalToken.trans hf.token)
  | _ => exact .inl rfl

/-- A valid sample of another topology is followed once no worker is in flight. -/
theorem Observed.entered (h : Observed s prior o d) (hv : o.valid = true) (hq : Quiet s) :
    d.state.physicalToken = some o.physicalToken := by
  have resting {w : WorkerAction} (hw : w ∈ s.mutators)
      (hl : w.lifecycle = .dispatched ∨ w.lifecycle = .stopping ∨ w.lifecycle = .resultPending) :
      False := by
    have hidle := hq w hw
    rcases hl with hl | hl | hl <;> simp [hl, ActionLifecycle.mutatingInFlight] at hidle
  cases h with
  | revoked r s' es t hinv hl hr ht => simp [hv] at hinv
  | invalid phase t hinv hn hp ht => simp [hv] at hinv
  | invalidInternal a t hinv ha hi ht => simp [hv] at hinv
  | internal a t _ ha hi ht =>
    exact (resting (State.mem_mutators_application ha) (.inl (by simpa using hi.2.2))).elim
  | stopping w t _ hw hl ht => exact (resting hw (.inr (.inl hl))).elim
  | stopped r s' t _ hs hi hc ht =>
    cases hs with
    | probe a ha hl => exact (resting (State.mem_mutators_probe ha) (.inl hl)).elim
    | application a ha hl => exact (resting (State.mem_mutators_application ha) (.inl hl)).elim
    | preparation a ha hl =>
      exact (resting (State.mem_mutators_preparation ha) (hl.imp_right .inr)).elim
    | finalization a ha hl => exact (resting (State.mem_mutators_finalization ha) (.inl hl)).elim
  | refused s' t _ hs ht hc =>
    cases hs with
    | finalization a b v ha hl hb hbl hw =>
      exact (resting (State.mem_mutators_finalization ha) (.inr (.inr hl))).elim
    | preparation a b ha hl hb hbl =>
      exact (resting (State.mem_mutators_preparation ha) (.inr (.inr hl))).elim
  | running t _ ht hr hd => exact ht
  | completed a _ ha hl he =>
    exact (resting (State.mem_mutators_finalization ha) (.inr (.inr hl))).elim
  | uncertain a t _ ht ha hl he hd => exact ht
  | preparing a t _ ht ha hl he hd => exact ht
  | confirmed s' eff _ ht hc => cases hc <;> exact ht
  | classified s' es d _ hf hc => exact hc.frame.physicalToken.trans hf.token

/-- Beside a worker in flight a valid sample of another topology stops a worker, repeats a stop or
refuses the result of a finalization. -/
theorem Core.observed_elsewhere (h : Core s) (ho : Observed s prior o d) (hv : o.valid = true)
    (ht : s.physicalToken ≠ some o.physicalToken) {r : ActionRecord} (hr : r ∈ s.actions)
    (hk : r.kind ≠ .plan) (hl : r.lifecycle.mutatingInFlight = true) :
    d.state.physicalToken = s.physicalToken ∧
      if r.kind = .finalization ∧ r.lifecycle = .resultPending then Quiet d.state
      else Holds r d.state := by
  have hlive := ActionLifecycle.live_of_inFlight hl
  have same {r' : ActionRecord} (hr' : r' ∈ s.actions) (hk' : r'.kind ≠ .plan)
      (hl' : r'.lifecycle.mutatingInFlight = true) : r' = r :=
    h.live_unique hr hk hlive hr' hk' (ActionLifecycle.live_of_inFlight hl')
  cases ho with
  | revoked r' s' es t hinv hl' hr' hd => simp [hv] at hinv
  | invalid phase t hinv hn hp hd => simp [hv] at hinv
  | invalidInternal a t hinv ha hi hd => simp [hv] at hinv
  | internal a t _ ha hi hd =>
    have hla : a.lifecycle = .dispatched := by simpa using hi.2.2
    obtain rfl := same (State.mem_actions_application ha) (by simp [ActionRecord.kind])
      (congrArg ActionLifecycle.mutatingInFlight hla)
    rw [if_neg (by simp [ActionRecord.kind])]
    exact ⟨rfl, _, rfl, rfl, rfl, fun _ => rfl⟩
  | stopping w t _ hw hlw hd =>
    have hnot : ¬ (r.kind = .finalization ∧ r.lifecycle = .resultPending) := by
      rintro ⟨-, hpending⟩
      obtain ⟨v, hv, -, hvl⟩ := State.mutator_of_mem hr hk
      rcases h.live_alone hw (by rw [hlw]; rfl) hv with rfl | ht
      · simp [hlw, hpending] at hvl
      · simp [hvl, hpending, ActionLifecycle.terminal] at ht
    rw [if_neg hnot]
    exact ⟨rfl, .of_flying hr hl (by cases r <;> rfl)⟩
  | stopped r' s' t _ hs hi hc hd =>
    cases hs with
    | probe a ha hla =>
      obtain rfl := same (State.mem_actions_probe ha) (by simp [ActionRecord.kind])
        (congrArg ActionLifecycle.mutatingInFlight hla)
      rw [if_neg (by simp [ActionRecord.kind])]
      exact ⟨rfl, _, rfl, rfl, rfl, fun _ => rfl⟩
    | application a ha hla =>
      obtain rfl := same (State.mem_actions_application ha) (by simp [ActionRecord.kind])
        (congrArg ActionLifecycle.mutatingInFlight hla)
      rw [if_neg (by simp [ActionRecord.kind])]
      exact ⟨rfl, _, rfl, rfl, rfl, fun _ => rfl⟩
    | preparation a ha hla =>
      obtain rfl := same (State.mem_actions_preparation ha) (by simp [ActionRecord.kind])
        (by rcases hla with hla | hla <;> exact congrArg ActionLifecycle.mutatingInFlight hla)
      rw [if_neg (by simp [ActionRecord.kind])]
      exact ⟨rfl, _, rfl, rfl, rfl, fun _ => rfl⟩
    | finalization a ha hla =>
      obtain rfl := same (State.mem_actions_finalization ha) (by simp [ActionRecord.kind])
        (congrArg ActionLifecycle.mutatingInFlight hla)
      rw [if_neg (by simp [ActionRecord.lifecycle, hla])]
      exact ⟨rfl, _, rfl, rfl, rfl, fun _ => rfl⟩
  | refused s' t _ hs hd hc =>
    cases hs with
    | finalization a b v ha hla hb hbl hw =>
      obtain rfl := same (State.mem_actions_finalization ha) (by simp [ActionRecord.kind])
        (congrArg ActionLifecycle.mutatingInFlight hla)
      rw [if_pos ⟨rfl, hla⟩]
      refine ⟨rfl, h.quiet_of_slots hr hk hl (fun k hne => ?_) ?_⟩
      · cases k with
        | finalization => exact absurd rfl hne
        | _ => rfl
      · rintro _ ⟨⟩
        exact congrArg ActionLifecycle.mutatingInFlight hbl
    | preparation a b ha hla hb hbl =>
      have hphases := h.control.phases
      rw [h.control.preparation_flying ha (.inr hla)] at hphases
      rcases hc with ⟨htoken, -⟩ | ⟨-, hphase⟩
      · exact absurd htoken ht
      · simp [hphase, preparationPhases] at hphases
  | running t _ htoken hr' hd => exact absurd htoken ht
  | completed a _ ha hla he =>
    obtain ⟨b, -, htoken, -⟩ := he
    exact absurd htoken ht
  | uncertain a t _ htoken ha hla he hd => exact absurd htoken ht
  | preparing a t _ htoken ha hla he hd => exact absurd htoken ht
  | confirmed s' eff _ htoken hc => exact absurd htoken ht
  | classified s' es d _ hf hc =>
    obtain ⟨w, hw, -, hwl⟩ := State.mutator_of_mem hr hk
    cases hf with
    | entered _ hn => simp [← hwl, hn w hw] at hl
    | idle htoken hb => exact absurd htoken ht
    | cancelled htoken hc' => exact absurd htoken ht
    | concluded a b htoken ha hla he hb hbl => exact absurd htoken ht

end Samples

theorem State.kind_of_slot {s : State} {k : ActionKind} {r : ActionRecord}
    (h : s.slot k = some r) : r.kind = k := by
  cases k <;> obtain ⟨a, -, rfl⟩ := Option.map_eq_some_iff.mp h <;> rfl

theorem State.actionForId_of_mem {s : State} {r : ActionRecord} (hr : r ∈ s.actions) :
    s.actionForId r.actionId = some r := by
  obtain ⟨r', hfound⟩ : ∃ r', s.actionForId r.actionId = some r' := by
    refine Option.isSome_iff_exists.mp (List.find?_isSome.mpr ⟨r, hr, by simp⟩)
  obtain ⟨hmem, hid⟩ := State.actionForId_eq_some hfound
  rw [hfound, State.eq_of_actionId hr hmem hid]

theorem Ends.of_acknowledged {e : WorkerCancellationAcknowledged} {r : ActionRecord}
    {l : ActionLifecycle} (h : Ends (.workerCancellationAcknowledged e) r l) :
    e.actionId = r.actionId ∧ l = e.terminalLifecycle := by
  cases h with
  | finished he hr hl => cases he
  | acknowledged he hr => exact ⟨he, rfl⟩

theorem Fails.of_acknowledged {e : WorkerCancellationAcknowledged} {r : ActionRecord}
    {l : ActionLifecycle} (h : Fails (.workerCancellationAcknowledged e) r l) :
    e.actionId = r.actionId ∧ l = e.terminalLifecycle := by
  cases h with
  | ended h => exact h.of_acknowledged

namespace Sound

variable {s : State} (h : Sound s) {r : ActionRecord} (hr : r ∈ s.actions) (hk : r.kind ≠ .plan)
  (hl : r.lifecycle = .stopping) {e : WorkerCancellationAcknowledged}
  (he : e.actionId = r.actionId) {d : Decision}
include h hr hk hl he

/-- The acknowledgement of a stop is never ignored. -/
theorem acts_of_acknowledged (hb : e.metadata.bootId = s.bootId)
    (hd : reduce s (.workerCancellationAcknowledged e) = .ok d) :
    Acts s (.workerCancellationAcknowledged e) d := by
  rw [h.reduce_eq (e := .workerCancellationAcknowledged e) hb (by rintro b ⟨⟩)] at hd
  change cancellationAcknowledged s e = .ok d at hd
  unfold cancellationAcknowledged at hd
  rw [he, State.actionForId_of_mem hr] at hd
  cases r with
  | probe a =>
    have hl : a.lifecycle = .stopping := hl
    have hdecides := h.acknowledgeProbe_decides (State.probe_of_mem hr) he.symm hl
    exact hdecides.of_ok ((if_pos hl).symm.trans hd)
  | application a =>
    have hl : a.lifecycle = .stopping := hl
    have hdecides := h.acknowledgeApplication_decides (State.application_of_mem hr) he.symm hl
    exact hdecides.of_ok ((if_pos hl).symm.trans hd)
  | planning a => exact absurd rfl hk
  | preparation a =>
    have hl : a.lifecycle = .stopping := hl
    have hdecides := h.acknowledgePreparation_decides (State.preparation_of_mem hr) he.symm hl
    exact hdecides.of_ok ((if_pos hl).symm.trans hd)
  | finalization a =>
    have hl : a.lifecycle = .stopping := hl
    have hdecides := h.acknowledgeFinalization_decides (State.finalization_of_mem hr) he.symm hl
    exact hdecides.of_ok ((if_pos hl).symm.trans hd)

/-- An acknowledged stop ends the worker, or a completed desktop result awaits confirmation. -/
theorem acknowledged (ha : Acts s (.workerCancellationAcknowledged e) d) :
    d.state.physicalToken = s.physicalToken ∧
      if e.terminalLifecycle = .completed ∧ (r.kind = .preparation ∨ r.kind = .finalization) then
        ∃ r' ∈ d.state.actions, r'.kind = r.kind ∧ r'.lifecycle = .resultPending
      else Quiet d.state := by
  have hflying : r.lifecycle.mutatingInFlight = true := by rw [hl]; rfl
  obtain ⟨hstep, heffects⟩ := ha
  cases hstep with
  | ignored e hi => exact absurd rfl heffects
  | stopRepeated e r' t hr' hl' he' ht => cases he'
  | closed e r' l v es t hr' hk' he' hl' hv hes ht =>
    obtain ⟨hid, rfl⟩ := he'.of_acknowledged
    obtain rfl := State.eq_of_actionId hr hr' (hid.symm.trans he)
    rw [if_neg (by rcases hl' with ⟨-, hkind | hkind⟩ | hcancelled <;> simp_all)]
    refine ⟨by cases r' <;> rfl, h.quiet_of_slots hr hk hflying (fun k hne => ?_) ?_⟩
    · cases r' <;> cases k <;> first | rfl | exact absurd rfl hne
    · cases r' <;> rintro _ ⟨⟩
  | failed e r' r'' phase es t hr' hc hf he' hp hes =>
    obtain ⟨hid, hlifecycle⟩ := he'.of_acknowledged
    obtain rfl := State.eq_of_actionId hr hr' (hid.symm.trans he)
    have hnot : e.terminalLifecycle ≠ .completed := by
      intro hcompleted
      simp [hlifecycle, hcompleted, ActionLifecycle.failedLifecycle] at hf
    rw [if_neg fun hcompleted => hnot hcompleted.1]
    have hended := ActionLifecycle.not_inFlight_of_terminal (ActionLifecycle.terminal_of_failed hf)
    refine ⟨by cases hc <;> rfl, h.quiet_of_slots hr hk hflying (fun k hne => ?_) ?_⟩
    · cases hc <;> cases k <;> first | rfl | exact absurd rfl hne
    · cases hc with
      | planning a l x => exact absurd rfl hk
      | _ =>
        rintro _ ⟨⟩
        exact hended
  | preparationReported e a b t ha he' hb hbl ht =>
    obtain ⟨hid, hcompleted⟩ := he'.of_acknowledged
    obtain rfl := State.eq_of_actionId hr (State.mem_actions_preparation ha) (hid.symm.trans he)
    rw [if_pos ⟨hcompleted.symm, .inl rfl⟩]
    exact ⟨rfl, .preparation b, State.mem_actions_preparation rfl, rfl, hbl⟩
  | finalizationReported e a b t ha he' hb hbl ht =>
    obtain ⟨hid, hcompleted⟩ := he'.of_acknowledged
    obtain rfl := State.eq_of_actionId hr (State.mem_actions_finalization ha) (hid.symm.trans he)
    rw [if_pos ⟨hcompleted.symm, .inr rfl⟩]
    exact ⟨rfl, .finalization b, State.mem_actions_finalization rfl, rfl, hbl⟩
  | doubted e r' v t hr' hk' hl' he' ht => cases he'

end Sound

theorem Sound.observed_of_fresh {s : State} (h : Sound s) {e : ObservationCompleted}
    (hf : FreshSample s e) {d : Decision} (hd : reduce s (.observationCompleted e) = .ok d) :
    Observed (recordObservation s e.observation) s.latestObservation e.observation d ∧
      Core (recordObservation s e.observation) ∧ Sound d.state := by
  obtain ⟨-, hstep, -, hsound⟩ := h.reduces hd
  exact ⟨observed_of_step hstep hf.boot hf.fresh,
    (h.recorded (e.same_boot.trans hf.boot) hf.fresh).toCore, hsound⟩

/-- After an acknowledged stop and two fresh samples of one topology the controller is in that
topology, unless the stopped worker is a preparation which completed for another one. -/
theorem stop_follows_topology_iff {s : State} (hs : Reachable s) {r : ActionRecord}
    (hr : r ∈ s.actions) (hk : r.kind ≠ .plan) (hl : r.lifecycle = .stopping)
    {e : WorkerCancellationAcknowledged} (he : e.actionId = r.actionId)
    (hb : e.metadata.bootId = s.bootId) {d₁ d₂ d₃ : Decision}
    (h₁ : reduce s (.workerCancellationAcknowledged e) = .ok d₁)
    {x y : ObservationCompleted} (hx : FreshSample d₁.state x)
    (h₂ : reduce d₁.state (.observationCompleted x) = .ok d₂) (hy : FreshSample d₂.state y)
    (hxy : y.observation.physicalToken = x.observation.physicalToken)
    (h₃ : reduce d₂.state (.observationCompleted y) = .ok d₃) :
    d₃.state.physicalToken = some x.observation.physicalToken ↔
      ¬ (r.kind = .preparation ∧ e.terminalLifecycle = .completed ∧
        s.physicalToken ≠ some x.observation.physicalToken) := by
  have hsound := hs.sound
  have hack := hsound.acts_of_acknowledged hr hk hl he hb h₁
  obtain ⟨htoken₁, hended⟩ := hsound.acknowledged hr hk hl he hack
  have hsound₁ := (hsound.reduces h₁).2.2.2
  obtain ⟨hobs₂, hcore₂, hsound₂⟩ := hsound₁.observed_of_fresh hx h₂
  obtain ⟨hobs₃, hcore₃, -⟩ := hsound₂.observed_of_fresh hy h₃
  -- Once entered, the topology of both samples is kept.
  have kept (h : d₂.state.physicalToken = some x.observation.physicalToken) :
      d₃.state.physicalToken = some x.observation.physicalToken := by
    rcases hobs₃.token with ht | ht
    · exact ht.trans h
    · rw [ht, hxy]
  by_cases hsame : s.physicalToken = some x.observation.physicalToken
  · refine iff_of_true (kept ?_) fun ht => ht.2.2 hsame
    rcases hobs₂.token with ht | ht
    · exact ht.trans (htoken₁.trans hsame)
    · exact ht
  have hother₂ : (recordObservation d₁.state x.observation).physicalToken ≠
      some x.observation.physicalToken := fun ht => hsame (htoken₁.symm.trans ht)
  split at hended
  next hcompleted =>
    obtain ⟨r₁, hr₁, hkind, hpending⟩ := hended
    obtain ⟨htoken₂, hnext⟩ := hcore₂.observed_elsewhere hobs₂ hx.valid hother₂ hr₁
      (hkind ▸ hk) (by rw [hpending]; rfl)
    have hother₃ : (recordObservation d₂.state y.observation).physicalToken ≠
        some y.observation.physicalToken := by
      rw [hxy]
      exact fun ht => hother₂ (htoken₂.symm.trans ht)
    rcases hcompleted.2 with hprep | hfin
    · rw [if_neg (by simp [hkind, hprep])] at hnext
      obtain ⟨r₂, hslot, -, hflying, -⟩ := hnext
      have hkind₂ := State.kind_of_slot hslot
      have hr₂ : r₂ ∈ d₂.state.actions := State.mem_actions_of_slot (hkind₂ ▸ hslot)
      have htoken₃ := (hcore₃.observed_elsewhere hobs₃ hy.valid hother₃ hr₂
        (hkind₂ ▸ hkind ▸ hk) hflying).1
      refine iff_of_false (fun ht => hother₃ ?_) (not_not_intro ⟨hprep, hcompleted.1, hsame⟩)
      rw [hxy, ← ht, htoken₃]
    · rw [if_pos ⟨hkind.trans hfin, hpending⟩] at hnext
      have hentered := hobs₃.entered hy.valid hnext
      rw [hxy] at hentered
      exact iff_of_true hentered fun ht => by simp [hfin] at ht
  next hnot =>
    have hentered := hobs₂.entered hx.valid hended
    exact iff_of_true (kept hentered) fun ht => hnot ⟨ht.2.1, .inl ht.1⟩

namespace Scenario

def planId : ActionId := ⟨controller, .plan, 1, Nat.one_pos⟩
def preparationId : ActionId := ⟨controller, .preparation, 2, Nat.two_pos⟩

theorem planId_kind : planId.kind = .plan := rfl

theorem preparationId_kind : preparationId.kind = .preparation := rfl

theorem plainDock_accepted : (plain dock dock 1 0).Accepted := by decide

theorem plainDock_boot : (plain dock dock 1 0).bootId = boot := rfl

theorem laptopShown_accepted : (lit laptop laptop 2 1000).Accepted := by decide

def planned : State :=
  (follow fresh
    [.observationCompleted (sampled (plain dock dock 1 0) plainDock_accepted plainDock_boot),
      .observationCompleted (shown laptop laptop 2 1000 laptopShown_accepted)]).get rfl

def planKey : PlanningInputKey := (planned.planning.get rfl).inputKey

def prepared : State :=
  (follow planned [.planRequested ⟨metadata 1000, planId, planKey, rfl⟩,
    .planCompleted ⟨metadata 1000, planId, planKey, ⟨laptop⟩, rfl⟩,
    .observationCompleted (shown laptop laptop 3 3000),
    .preparationDispatched
      ⟨metadata 3000, preparationId, ⟨preparationId, laptop⟩, rfl, rfl⟩]).get rfl

/-- The monitor appears, and the preparation is being stopped. -/
def undocking : State :=
  (follow prepared [.observationCompleted (shown dock dock 4 4000)]).get rfl

theorem prepared_reachable : Reachable prepared :=
  (fresh_reachable.follow (Option.some_get _).symm).follow (Option.some_get _).symm

theorem undocking_reachable : Reachable undocking :=
  prepared_reachable.follow (Option.some_get _).symm

def acknowledged : WorkerCancellationAcknowledged :=
  ⟨metadata 4000, preparationId, .completed, 0, rfl, by decide, by decide⟩

/-- The decisions on the acknowledgement and on two samples of the monitor. -/
def settled : Decision := decided undocking (.workerCancellationAcknowledged acknowledged) rfl
def seen : Decision := decided settled.state (.observationCompleted (shown dock dock 5 5000)) rfl
def seenAgain : Decision := decided seen.state (.observationCompleted (shown dock dock 6 6000)) rfl

theorem seen_fresh : FreshSample settled.state (shown dock dock 5 5000) :=
  ⟨rfl, by decide +kernel, rfl⟩

theorem seenAgain_fresh : FreshSample seen.state (shown dock dock 6 6000) :=
  ⟨rfl, by decide +kernel, rfl⟩

def undone : ActionRecord := .preparation (undocking.preparation.get rfl)

theorem undone_mem : undone ∈ undocking.actions :=
  State.mem_actions_preparation (Option.some_get _).symm

end Scenario

open Scenario in
theorem stop_follows_topology_iff_undocking :
    seenAgain.state.physicalToken = some (shown dock dock 5 5000).observation.physicalToken ↔
      ¬ (undone.kind = .preparation ∧ acknowledged.terminalLifecycle = .completed ∧
        undocking.physicalToken ≠ some (shown dock dock 5 5000).observation.physicalToken) :=
  stop_follows_topology_iff undocking_reachable undone_mem (by decide) rfl (e := acknowledged) rfl
    rfl (reduce_decided undocking _ _) seen_fresh (reduce_decided settled.state _ _) seenAgain_fresh
    rfl (reduce_decided seen.state _ _)

open Scenario in
/-- The completed preparation of the panel's topology is stopped again for ever. -/
theorem stop_traps_topology : ¬ ∀ (s : State), Reachable s → ∀ r ∈ s.actions, r.kind ≠ .plan →
    r.lifecycle = .stopping → ∀ e : WorkerCancellationAcknowledged, e.actionId = r.actionId →
    e.metadata.bootId = s.bootId → ∀ d₁ d₂ d₃ : Decision,
    reduce s (.workerCancellationAcknowledged e) = .ok d₁ → ∀ x y : ObservationCompleted,
    FreshSample d₁.state x → reduce d₁.state (.observationCompleted x) = .ok d₂ →
    FreshSample d₂.state y → y.observation.physicalToken = x.observation.physicalToken →
    reduce d₂.state (.observationCompleted y) = .ok d₃ →
    d₃.state.physicalToken = some x.observation.physicalToken := by
  intro h
  have htoken := h undocking undocking_reachable undone undone_mem (by decide) rfl acknowledged rfl
    rfl settled seen seenAgain (reduce_decided _ _ _) _ _ seen_fresh (reduce_decided _ _ _)
    seenAgain_fresh rfl (reduce_decided _ _ _)
  have hkept : seenAgain.state.physicalToken = some ⟨laptop⟩ := rfl
  rw [hkept] at htoken
  exact absurd htoken (by decide)

end MonitorController
