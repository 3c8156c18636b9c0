import MonitorController.Safety.Intents

/-! # The explicit unplug proof

A retained external intent bars internal-only profiles until two samples without
external hardware, far enough apart and with nothing in between, have been
accepted. A sample which no classification takes up does not set the intent.
-/

namespace MonitorController

/-- The event brings the sample which the state retains from then on. -/
def Accepts (s : State) (e : Event) (o : CanonicalObservation) : Prop :=
  ∃ c, e = .observationCompleted c ∧ c.observation = o ∧ c.metadata.bootId = s.bootId ∧
    ¬ staleObservation s o

/-- A sample without external hardware is accepted. -/
def AcceptsAbsent (s : State) (e : Event) (o : CanonicalObservation) : Prop :=
  Accepts s e o ∧ o.valid = true ∧ o.hasExternalHardware = false

/-- A hint or a dirtied admission is accepted. -/
def Hinted (s : State) (e : Event) : Prop :=
  ¬ Ignored s e ∧ ((∃ h, e = .drmHintReceived h) ∨ ∃ h, e = .admissionDirtied h)

/-- Evidence against the absence of external hardware is accepted. -/
def Disturbs (s : State) (e : Event) : Prop :=
  (∃ o, Accepts s e o ∧ (o.valid = false ∨ o.hasExternalHardware = true)) ∨ Hinted s e

/-- A new boot is accepted. -/
def Reboots (s : State) (e : Event) : Prop :=
  ∃ b, e = .bootChanged b ∧ b.previousBootId = s.bootId

/-- Two samples without external hardware, far enough apart and with nothing in between. -/
def Unplugged (ms : List (Runs.Move State Event Decision)) : Prop :=
  ∃ newest last mid first oldest, ms = newest ++ last :: (mid ++ first :: oldest) ∧
    (∃ o o', AcceptsAbsent first.before first.event o ∧ AcceptsAbsent last.before last.event o' ∧
      o.observedAtMs + unplugStabilityMs ≤ o'.observedAtMs) ∧
    ∀ m ∈ mid, ¬ Disturbs m.before m.event

theorem Unplugged.cons {m : Runs.Move State Event Decision}
    {ms : List (Runs.Move State Event Decision)} (h : Unplugged ms) : Unplugged (m :: ms) := by
  obtain ⟨newest, last, mid, first, oldest, rfl, h⟩ := h
  exact ⟨m :: newest, last, mid, first, oldest, rfl, h⟩

/-- The sample confirms the pending admission. -/
def ActionRecord.confirmed (s : State) (o : CanonicalObservation) : ActionRecord → Prop
  | .probe a => confirmsProbe s o a
  | .application a => confirmsApplication s o a
  | .planning _ => True
  | .preparation a => confirmsPreparation s o a
  | .finalization _ => sameExactFinalization s o

theorem ActionRecord.kind_of_unconfirmed {s : State} {o : CanonicalObservation} {r : ActionRecord}
    (h : ¬ r.confirmed s o) : r.kind ≠ .plan := by
  intro hplan
  cases r with
  | planning a => exact h trivial
  | _ => cases hplan

theorem State.record_of_mutator {s : State} {w : WorkerAction} (hw : w ∈ s.mutators) :
    ∃ r ∈ s.actions, r.kind ≠ .plan ∧ r.lifecycle = w.lifecycle := by
  rcases State.mem_mutators.mp hw with ⟨a, ha, rfl⟩ | ⟨a, ha, rfl⟩ | ⟨a, ha, rfl⟩ | ⟨a, ha, rfl⟩
  · exact ⟨_, State.mem_actions_probe ha, by simp [ActionRecord.kind], rfl⟩
  · exact ⟨_, State.mem_actions_application ha, by simp [ActionRecord.kind], rfl⟩
  · exact ⟨_, State.mem_actions_preparation ha, by simp [ActionRecord.kind], rfl⟩
  · exact ⟨_, State.mem_actions_finalization ha, by simp [ActionRecord.kind], rfl⟩

/-- No display worker keeps the valid sample from its classification. -/
inductive Classifiable (s : State) (o : CanonicalObservation) : Prop
  | entered (ht : s.physicalToken ≠ some o.physicalToken) (hq : Quiet s)
  | idle (ht : s.physicalToken = some o.physicalToken) (hb : ¬ busy s)
  | cancelled (r) (ht : s.physicalToken = some o.physicalToken) (hr : r ∈ s.actions)
    (hl : r.lifecycle = .admitted) (hc : ¬ r.confirmed s o)
  | concluded (a) (ht : s.physicalToken = some o.physicalToken) (ha : s.preparation = some a)
    (hl : a.lifecycle = .resultPending)
    (he : preparationObservationStatus s o a = some .exact)

/-- External evidence in the sample is not passed over: it is invalid, or known already, or the
sample is classified. -/
def Heeded (s : State) (o : CanonicalObservation) : Prop :=
  o.valid = false ∨ s.externalIntent = true ∨ Classifiable s o

section Samples

variable {s s' : State} {prior : Option CanonicalObservation} {o : CanonicalObservation}
  {d : Decision} {es : List Effect}

theorem Classifiable.of_idle (h : ¬ busy s) : Classifiable s o := by
  by_cases ht : s.physicalToken = some o.physicalToken
  · exact .idle ht h
  · refine .entered ht fun w hw => ?_
    by_contra hl
    exact h ⟨w, hw, ActionLifecycle.live_of_inFlight (by simpa using hl)⟩

theorem Classifiable.of_flying (hc : Classifiable s o) (h : Core s) {r : ActionRecord}
    (hr : r ∈ s.actions) (hk : r.kind ≠ .plan) (hl : r.lifecycle.mutatingInFlight = true) :
    ∃ a, r = .preparation a ∧ a.lifecycle = .resultPending ∧
      s.physicalToken = some o.physicalToken ∧
      preparationObservationStatus s o a = some .exact := by
  obtain ⟨w, hw, hwid, hwl⟩ := State.mutator_of_mem hr hk
  have hlive := ActionLifecycle.live_of_inFlight hl
  cases hc with
  | entered ht hq =>
    have hquiet := hq w hw
    rw [hwl, hl] at hquiet
    cases hquiet
  | idle ht hb => exact absurd ⟨w, hw, hwl ▸ hlive⟩ hb
  | cancelled r' ht hr' hl' hc =>
    obtain rfl := h.live_unique hr hk hlive hr' (ActionRecord.kind_of_unconfirmed hc)
      (by rw [hl']; rfl)
    rw [hl'] at hl
    cases hl
  | concluded a ht ha hl' he =>
    have hlive' : (ActionRecord.preparation a).lifecycle.terminal = false :=
      congrArg ActionLifecycle.terminal hl'
    obtain rfl := h.live_unique (State.mem_actions_preparation ha) (by simp [ActionRecord.kind])
      hlive' hr hk hlive
    exact ⟨a, rfl, hl', ht, he⟩

theorem Confirms.record {eff : Effect} (h : Confirms s o s' eff) :
    ∃ r ∈ s.actions, r.kind ≠ .plan ∧ r.lifecycle = .admitted ∧ r.confirmed s o := by
  cases h with
  | probe a ha hl hc =>
    exact ⟨_, State.mem_actions_probe ha, by simp [ActionRecord.kind], hl, hc⟩
  | application a ha hl hc =>
    exact ⟨_, State.mem_actions_application ha, by simp [ActionRecord.kind], hl, hc⟩
  | preparation a ha hl hc =>
    exact ⟨_, State.mem_actions_preparation ha, by simp [ActionRecord.kind], hl, hc⟩
  | finalization a ha hl hc =>
    exact ⟨_, State.mem_actions_finalization ha, by simp [ActionRecord.kind], hl, hc⟩

/-- A classifiable sample is classified. -/
theorem Observed.reaches (ho : Observed s prior o d) (h : Core s) (hv : o.valid = true)
    (hc : Classifiable s o) : Reaches s prior o d := by
  have flying {r : ActionRecord} (hr : r ∈ s.actions) (hk : r.kind ≠ .plan)
      (hl : r.lifecycle.mutatingInFlight = true) := hc.of_flying h hr hk hl
  cases ho with
  | revoked r s' es t hinv hl hr ht => simp [hv] at hinv
  | invalid phase t hinv hn hp ht => simp [hv] at hinv
  | invalidInternal a t hinv ha hi ht => simp [hv] at hinv
  | internal a t _ ha hi ht =>
    have hl : a.lifecycle = .dispatched := by simpa using hi.2.2
    obtain ⟨b, ⟨⟩, -⟩ := flying (State.mem_actions_application ha) (by simp [ActionRecord.kind])
      (congrArg ActionLifecycle.mutatingInFlight hl)
  | stopping w t _ hw hl ht =>
    obtain ⟨r, hr, hk, hrl⟩ := State.record_of_mutator hw
    obtain ⟨b, rfl, hb, -⟩ := flying hr hk (by rw [hrl, hl]; rfl)
    have hstop : b.lifecycle = .stopping := hrl.trans hl
    simp [hb] at hstop
  | stopped r s' t _ hs hi hchanged ht =>
    cases hs with
    | probe a ha hl =>
      obtain ⟨b, ⟨⟩, -⟩ := flying (State.mem_actions_probe ha) (by simp [ActionRecord.kind])
        (congrArg ActionLifecycle.mutatingInFlight hl)
    | application a ha hl =>
      obtain ⟨b, ⟨⟩, -⟩ := flying (State.mem_actions_application ha) (by simp [ActionRecord.kind])
        (congrArg ActionLifecycle.mutatingInFlight hl)
    | finalization a ha hl =>
      obtain ⟨b, ⟨⟩, -⟩ := flying (State.mem_actions_finalization ha) (by simp [ActionRecord.kind])
        (congrArg ActionLifecycle.mutatingInFlight hl)
    | preparation a ha hl =>
      have hflying : (ActionRecord.preparation a).lifecycle.mutatingInFlight = true := by
        rcases hl with hl | hl <;> exact congrArg ActionLifecycle.mutatingInFlight hl
      obtain ⟨b, ⟨⟩, hb, htoken, -⟩ := flying (State.mem_actions_preparation ha)
        (by simp [ActionRecord.kind]) hflying
      rcases hchanged with ht | ⟨_, ⟨⟩, -⟩ | ⟨_, ⟨⟩, hl', -⟩
      · exact absurd htoken ht
      · simp [hb] at hl'
  | refused s' t _ hs ht hx hq =>
    cases hs with
    | finalization a b v ha hl hb hbl hv' =>
      obtain ⟨c, ⟨⟩, -⟩ := flying (State.mem_actions_finalization ha) (by simp [ActionRecord.kind])
        (congrArg ActionLifecycle.mutatingInFlight hl)
    | preparation a b ha hl hb hbl =>
      obtain ⟨c, ⟨⟩, -, -, hexact⟩ := flying (State.mem_actions_preparation ha)
        (by simp [ActionRecord.kind]) (congrArg ActionLifecycle.mutatingInFlight hl)
      rcases hq with hq | hq
      · have heq : b = a := Option.some.inj (hq.trans ha)
        simp [heq, hl] at hbl
      · exact absurd hexact (hq a ha)
  | running t _ ht hr hd =>
    rcases hr with ⟨a, ha, hl⟩ | ⟨a, ha, hl, -⟩ | ⟨a, ha, hl, -⟩
    · obtain ⟨b, ⟨⟩, -⟩ := flying (State.mem_actions_probe ha) (by simp [ActionRecord.kind])
        (congrArg ActionLifecycle.mutatingInFlight hl)
    · obtain ⟨b, ⟨⟩, -⟩ := flying (State.mem_actions_application ha) (by simp [ActionRecord.kind])
        (congrArg ActionLifecycle.mutatingInFlight hl)
    · obtain ⟨b, ⟨⟩, -⟩ := flying (State.mem_actions_finalization ha) (by simp [ActionRecord.kind])
        (congrArg ActionLifecycle.mutatingInFlight hl)
  | completed a _ ha hl he =>
    obtain ⟨b, ⟨⟩, -⟩ := flying (State.mem_actions_finalization ha) (by simp [ActionRecord.kind])
      (congrArg ActionLifecycle.mutatingInFlight hl)
  | uncertain a t _ ht ha hl he hd =>
    have hflying : (ActionRecord.preparation a).lifecycle.mutatingInFlight = true := by
      rcases hl with hl | hl <;> exact congrArg ActionLifecycle.mutatingInFlight hl
    obtain ⟨b, ⟨⟩, -, -, hexact⟩ := flying (State.mem_actions_preparation ha)
      (by simp [ActionRecord.kind]) hflying
    rw [hexact] at he
    cases he
  | preparing a t _ ht ha hl he hd =>
    obtain ⟨b, ⟨⟩, hb, -⟩ := flying (State.mem_actions_preparation ha)
      (by simp [ActionRecord.kind]) (congrArg ActionLifecycle.mutatingInFlight hl)
    simp [hl] at hb
  | confirmed s' eff _ ht hconfirm =>
    obtain ⟨r, hr, hk, hl, hyes⟩ := hconfirm.record
    have hlive : r.lifecycle.terminal = false := by rw [hl]; rfl
    cases hc with
    | entered htoken hq => exact absurd ht htoken
    | idle htoken hb =>
      obtain ⟨w, hw, -, hwl⟩ := State.mutator_of_mem hr hk
      exact absurd ⟨w, hw, hwl ▸ hlive⟩ hb
    | cancelled r' htoken hr' hl' hno =>
      obtain rfl := h.live_unique hr hk hlive hr' (ActionRecord.kind_of_unconfirmed hno)
        (by rw [hl']; rfl)
      exact absurd hyes hno
    | concluded a htoken ha hla he =>
      have heq := h.live_unique hr hk hlive (State.mem_actions_preparation ha)
        (by simp [ActionRecord.kind]) (congrArg ActionLifecycle.terminal hla)
      subst heq
      exact absurd (hla.symm.trans hl) (by decide)
  | classified s' es d _ hf hcl => exact .intro s' es d hf hcl

theorem extendUnplugProof_ok {proof : Option UnplugProof} {p : UnplugProof}
    (h : extendUnplugProof proof o = .ok p) :
    p.latestObservedAtMs = o.observedAtMs ∧
      (proof = none ∧ p.observationCount = 1 ∧ p.firstObservedAtMs = o.observedAtMs ∨
        ∃ q, proof = some q ∧ p.firstObservedAtMs = q.firstObservedAtMs) := by
  cases proof with
  | none =>
    obtain rfl := Except.ok.inj h
    exact ⟨rfl, .inl ⟨rfl, rfl, rfl⟩⟩
  | some q =>
    unfold extendUnplugProof at h
    dsimp only at h
    split at h
    · obtain rfl := Except.ok.inj h
      exact ⟨rfl, .inr ⟨q, rfl, rfl⟩⟩
    · cases h

theorem Selects.aside (h : Selects s o d) : d.state.externalIntent = s.externalIntent ∧
    d.state.unplugProof = s.unplugProof := by
  cases h with
  | waits hw => cases hw; exact ⟨rfl, rfl⟩
  | waitsKnown hw => cases hw; exact ⟨rfl, rfl⟩
  | waitsSpent target ht hz hw => cases hw; exact ⟨rfl, rfl⟩
  | verifies target s' es s'' fs ht hx hv hp ha =>
    have haside := aside_verification hv hp ha
    exact ⟨haside.externalIntent, haside.unplugProof⟩
  | stable target ht hx hs =>
    have haside := aside_rearm (clearUnknown s) target.profile
    exact ⟨haside.externalIntent, haside.unplugProof⟩
  | _ => exact ⟨rfl, rfl⟩

theorem aside_retainFailure (s : State) (o : CanonicalObservation) :
    (retainFailure s o).1.externalIntent = s.externalIntent ∧
      (retainFailure s o).1.unplugProof = s.unplugProof := by
  rcases retainFailure_cases s o with hr | hr | ⟨-, hr⟩ | ⟨-, hr⟩ | ⟨-, hr⟩ <;> rw [hr] <;>
    exact ⟨rfl, rfl⟩

theorem Classifies.external (h : Classifies s o d) (he : o.hasExternalHardware = true) :
    d.state.externalIntent = true ∧ d.state.unplugProof = none := by
  have settled {t : State} (hs : Settles s o t) :
      t.externalIntent = true ∧ t.unplugProof = none := by
    cases hs with
    | external he => exact ⟨rfl, rfl⟩
    | unplugged habsent hu => simp [he] at habsent
  cases h with
  | unplugging s' habsent hu => simp [he] at habsent
  | retained s' hs hr =>
    have hset := settled hs
    exact hset
  | selected s' s'' hs hr hd =>
    obtain ⟨hintent, hproof⟩ := settled hs
    have haside := aside_retainFailure s' o
    rw [hr] at haside
    exact ⟨hd.aside.1.trans (haside.1.trans hintent), hd.aside.2.trans (haside.2.trans hproof)⟩

/-- Only a sample which leaves the unplug proof incomplete leaves one at all; then it decides
nothing else. -/
theorem Classifies.proved (h : Classifies s o d) :
    d.state.unplugProof = none ∨
      o.hasExternalHardware = false ∧ ∃ s', Unplugs s o s' false ∧
        d.state = (releaseFailures s').timed (unplugDeadline (releaseFailures s') o.observedAtMs) := by
  have settled {t : State} (hs : Settles s o t) : t.unplugProof = none := by
    cases hs with
    | external he => rfl
    | unplugged he hu => cases hu <;> rfl
  cases h with
  | unplugging s' he hu => exact .inr ⟨he, s', hu, rfl⟩
  | retained s' hs hr =>
    have hset := settled hs
    exact .inl hset
  | selected s' s'' hs hr hd =>
    have haside := aside_retainFailure s' o
    rw [hr] at haside
    exact .inl (hd.aside.2.trans (haside.2.trans (settled hs)))

/-- With a standing intent a sample without external hardware completes the proof, or extends it
and decides nothing else. -/
theorem Classifies.absent (h : Classifies s o d) (he : o.hasExternalHardware = false)
    (hi : s.externalIntent = true) :
    ∃ p, extendUnplugProof s.unplugProof o = .ok p ∧
      (unplugComplete s o p ∨ d.state.externalIntent = true ∧ d.state.unplugProof = some p ∧
        d.state.candidate = s.candidate ∧ ∀ a ∈ d.state.application, a ∈ s.application) := by
  have complete {t : State} (hs : Settles s o t) :
      ∃ p, extendUnplugProof s.unplugProof o = .ok p ∧ unplugComplete s o p := by
    cases hs with
    | external hexternal => simp [he] at hexternal
    | unplugged _ hu =>
      cases hu with
      | unneeded hn => simp [hi] at hn
      | complete p _ hp hc => exact ⟨p, hp, hc⟩
  cases h with
  | unplugging s' _ hu =>
    cases hu with
    | incomplete p _ hp hc =>
      refine ⟨p, hp, .inr ⟨hi, rfl, rfl, fun a ha => ?_⟩⟩
      change a ∈ (if s.phase = .applyFailed then none else s.application) at ha
      split at ha
      · cases ha
      · exact ha
  | retained s' hs hr =>
    obtain ⟨p, hp, hc⟩ := complete hs
    exact ⟨p, hp, .inl hc⟩
  | selected s' s'' hs hr hd =>
    obtain ⟨p, hp, hc⟩ := complete hs
    exact ⟨p, hp, .inl hc⟩

theorem Frees.bars {es : List Effect} (h : Frees s prior o s' es) : Bars s s' := by
  cases h with
  | entered ht hr => exact {}
  | idle ht hb => exact (stays_leaveSlowWait s prior).toBars
  | cancelled ht hc => exact hc.stays.toBars
  | concluded a b ht ha hl he hb hbl => exact {}

theorem Classifies.idle (h : Classifies s o d) (hp : d.state.unplugProof ≠ none)
    (hi : ∀ w ∈ s.mutators, w.lifecycle.terminal = true) : ¬ busy d.state := by
  have kept {α : Type} {p : Prop} [Decidable p] {x : Option α} {a : α}
      (ha : a ∈ if p then none else x) : a ∈ x := by
    split at ha
    · cases ha
    · exact ha
  rcases h.proved with hn | ⟨-, s', hu, hd⟩
  · exact absurd hn hp
  · rintro ⟨w, hw, hl⟩
    have hmem : w ∈ s.mutators := by
      rw [hd] at hw
      cases hu with
      | incomplete p hintent hproof hc =>
        rcases State.mem_mutators.mp hw with ⟨a, ha, rfl⟩ | ⟨a, ha, rfl⟩ | ⟨a, ha, rfl⟩ |
          ⟨a, ha, rfl⟩
        · exact State.mem_mutators_probe (kept ha)
        · exact State.mem_mutators_application (kept ha)
        · exact State.mem_mutators_preparation ha
        · exact State.mem_mutators_finalization (kept ha)
    simp [hi w hmem] at hl

end Samples

section Steps

variable {s : State} {e : Event} {d : Decision}

theorem Step.idle (h : Step s e d) (hto : Addressed s e d) (hs : Sound s) (hk : Kept s d.state)
    (hb : ¬ busy s) : ¬ busy d.state := by
  have ended {w : WorkerAction} (hw : w ∈ s.mutators) : w.lifecycle.terminal = true := by
    by_contra hl
    exact hb ⟨w, hw, by simpa using hl⟩
  rintro ⟨v, hv, hl⟩
  rcases (h.tracks hto).mem hv with ⟨hnew, -⟩ | ⟨w, hw, -, hp⟩
  · obtain ⟨r', hr', hid, -⟩ := State.record_of_worker hv
    obtain ⟨r, hr, hcarries⟩ := hk.mem hr'
    have hbound := (hs.identities.known hr).bounded
    rw [← hcarries.actionId, hid] at hbound
    omega
  · have hterm := ended hw
    cases hp with
    | same hl' hx => simp [hl', hterm] at hl
    | running hwl hx => rcases hwl with hwl | hwl <;> simp [hwl, ActionLifecycle.terminal] at hterm
    | ended ht => simp [ht] at hl
    | reported hwl hl' he => simp [hwl, ActionLifecycle.terminal] at hterm
    | interrupted hwl hk hl' hx he => simp [hwl, ActionLifecycle.terminal] at hterm

theorem Reachable.idle_of_proof (hr : Reachable s) (hp : s.unplugProof ≠ none) : ¬ busy s := by
  refine Runs.Reachable.invariant (P := fun s => s.unplugProof ≠ none → ¬ busy s) ?_ ?_ hr hp
  · rintro _ ⟨_, _, _, _, rfl⟩ hp
    exact absurd rfl hp
  · rintro s e d _ hr hidle ⟨hd, rfl⟩ hp
    have hs := Reachable.sound hr
    obtain ⟨-, hstep, hto, -⟩ := hs.reduces hd
    have before (hbars : Bars s d.state) : ¬ busy s := by
      refine hidle fun hn => hp ?_
      exact hbars.unplugProof.elim (fun heq => heq.trans hn) id
    rcases hstep.cases_on with ⟨hk, hstays | ⟨f, a, b, ha, hl, -, -, -, -, -, -, hbars⟩ |
      ⟨b, -, -, hb⟩⟩ | ⟨f, -, hb, hf, hv, ⟨s', es, d', hfrees, hc⟩⟩
    · exact hstep.idle hto hs hk (before hstays.toBars)
    · have hbusy : busy s := ⟨_, State.mem_mutators_probe ha, by rw [hl]; rfl⟩
      exact absurd hbusy (before hbars)
    · rw [hb] at hp
      exact absurd rfl hp
    · have hfree := (hs.recorded (f.same_boot.trans hb) hf).free hv hfrees
      exact hc.idle hp hfree.idle

/-- Evidence against the absence of external hardware ends the proof. -/
theorem Step.disturbed (h : Step s e d) (hs : Sound s) (hi : s.unplugProof ≠ none → ¬ busy s)
    (hd : Disturbs s e) : d.state.unplugProof = none := by
  rcases hd with ⟨o, ⟨f, rfl, rfl, hb, hf⟩, ho⟩ | ⟨hn, hhint⟩
  · have hobserved := observed_of_step h hb hf
    have hcore := (hs.recorded (f.same_boot.trans hb) hf).toCore
    by_cases hv : f.observation.valid = true
    · have hext := ho.resolve_left (by simp [hv])
      by_cases hp : s.unplugProof = none
      · rcases hobserved.stays_or_classified with hstays | ⟨-, ⟨s', es, d', hfrees, hc⟩⟩
        · exact hstays.unplugProof.elim (fun heq => heq.trans hp) id
        · exact (hc.external hext).2
      · obtain ⟨s', es, d', hfrees, hc⟩ :=
          hobserved.reaches hcore hv (.of_idle (hi hp))
        exact (hc.external hext).2
    · cases hobserved with
      | revoked r s' es t hinv hl hr ht => exact hr.stays.unplugProof.elim id id
      | invalid phase t hinv hn hp ht => rfl
      | invalidInternal a t hinv ha hi' ht => rfl
      | _ => exact absurd ‹_› hv
  · cases h with
    | ignored e hi' => exact absurd hi' hn
    | hinted e s' es t hb hg ht hh => exact hh.stays.unplugProof.elim id id
    | dirtied e r s' es t hb hr he hl hg ht hw =>
      rcases hw with hw | ⟨-, rfl, -⟩
      · exact hw.stays.unplugProof.elim id id
      · rfl
    | stopRepeated e r t hr hl he ht => rcases hhint with ⟨g, rfl⟩ | ⟨g, rfl⟩ <;> cases he
    | closed e r l v es t hr hk he hl hv hes ht =>
      rcases hhint with ⟨g, rfl⟩ | ⟨g, rfl⟩ <;> cases he.reports
    | failed e r r' phase es t hr hc hf he hp hes =>
      rcases hhint with ⟨g, rfl⟩ | ⟨g, rfl⟩ <;> cases he.fails
    | preparationReported e a b t ha he hb hl ht =>
      rcases hhint with ⟨g, rfl⟩ | ⟨g, rfl⟩ <;> cases he.reports
    | finalizationReported e a b t ha he hb hl ht =>
      rcases hhint with ⟨g, rfl⟩ | ⟨g, rfl⟩ <;> cases he.reports
    | doubted e r v t hr hk hl he ht => rcases hhint with ⟨g, rfl⟩ | ⟨g, rfl⟩ <;> cases he
    | _ => rcases hhint with ⟨g, ⟨⟩⟩ | ⟨g, ⟨⟩⟩

/-- External evidence which is heeded sets the intent. -/
theorem Step.intends (h : Step s e d) (hs : Sound s) {o : CanonicalObservation}
    (ho : Accepts s e o) (he : o.hasExternalHardware = true) (hh : Heeded s o) :
    d.state.externalIntent = true := by
  obtain ⟨f, rfl, rfl, hb, hf⟩ := ho
  have hobserved := observed_of_step h hb hf
  by_cases hv : f.observation.valid = true
  · rcases hh.resolve_left (by simp [hv]) with hknown | hclass
    · rcases hobserved.stays_or_classified with hstays | ⟨-, ⟨s', es, d', hfrees, hc⟩⟩
      · exact hstays.externalIntent hknown
      · exact (hc.external he).1
    · have hrecorded : Classifiable (recordObservation s f.observation) f.observation := by
        cases hclass with
        | entered ht hq => exact .entered ht hq
        | idle ht hb => exact .idle ht hb
        | cancelled r ht hr hl hc => exact .cancelled r ht hr hl (by cases r <;> exact hc)
        | concluded a ht ha hl he => exact .concluded a ht ha hl he
      obtain ⟨s', es, d', hfrees, hc⟩ :=
        hobserved.reaches (hs.recorded (f.same_boot.trans hb) hf).toCore hv hrecorded
      exact (hc.external he).1
  · have hrevoked : (revokeProofs (recordObservation s f.observation) f.observation).externalIntent
        = true := by simp [revokeProofs, he]
    cases hobserved with
    | revoked r s' es t hinv hl hr ht => exact hr.stays.externalIntent hrevoked
    | invalid phase t hinv hn hp ht => exact hrevoked
    | invalidInternal a t hinv ha hi ht => exact hrevoked
    | _ => exact absurd ‹_› hv

end Steps

/-- No internal-only profile is selected, loaded or verified. -/
structure SparesInternal (s : State) : Prop where
  candidate : ∀ c ∈ s.candidate, c.scope ≠ .internalOnly
  application : ∀ a ∈ s.application, a.scope ≠ .internalOnly
  verified : s.phase = .verifying → s.verifySinceMs ≠ none →
    ∃ c ∈ s.candidate, c.scope ≠ .internalOnly

section Runs

variable {ms : List (Runs.Move State Event Decision)} {s : State} {e : Event} {d : Decision}

/-- The intent stands: nothing internal-only is selected or loaded, and nothing disturbed the
unplug proof since its first sample. -/
structure Barring (ms : List (Runs.Move State Event Decision)) (s : State) : Prop where
  externalIntent : s.externalIntent = true
  candidate : ∀ c ∈ s.candidate, c.scope ≠ .internalOnly
  application : ∀ a ∈ s.application, a.scope ≠ .internalOnly
  since : ∀ p ∈ s.unplugProof, ∃ mid first oldest o, ms = mid ++ first :: oldest ∧
    AcceptsAbsent first.before first.event o ∧ o.observedAtMs = p.firstObservedAtMs ∧
    ∀ m ∈ mid, ¬ Disturbs m.before m.event

theorem Kept.scope {s' : State} (h : Kept s s')
    (hs : ∀ a ∈ s.application, a.scope ≠ .internalOnly) :
    ∀ a ∈ s'.application, a.scope ≠ .internalOnly := by
  intro b hb
  obtain ⟨a, ha, hab⟩ := h.application.of_mem hb
  cases hab with
  | application _ w hk hw hl => exact hs a ha

theorem Barring.of_external (hs : Sound s) {o : CanonicalObservation}
    (hl : s.latestObservation = some o) (he : o.hasExternalHardware = true)
    (hi : s.externalIntent = true) (hp : s.unplugProof = none) : Barring ms s where
  externalIntent := hi
  candidate := hs.selection.scope o hl he
  application := hs.inScope o hl he
  since := by simp [hp]

theorem Barring.bars (h : Barring ms s) (hb : Bars s d.state) (hk : Kept s d.state)
    (hd : d.state.unplugProof ≠ none → ¬ Disturbs s e) :
    Barring (⟨s, e, d, d.state⟩ :: ms) d.state where
  externalIntent := hb.externalIntent h.externalIntent
  candidate := by
    rcases hb.candidate with heq | heq <;> rw [heq]
    · exact h.candidate
    · simp
  application := hk.scope h.application
  since := by
    intro p hp
    have hne : d.state.unplugProof ≠ none := by simp [Option.mem_def.mp hp]
    have heq := hb.unplugProof.resolve_right hne
    obtain ⟨mid, first, oldest, o, rfl, ho, hat, hmid⟩ := h.since p (heq ▸ hp)
    refine ⟨_ :: mid, first, oldest, o, rfl, ho, hat, fun m hm => ?_⟩
    rcases List.mem_cons.mp hm with rfl | hm
    · exact hd hne
    · exact hmid m hm

/-- Until the proof is complete the intent stands. -/
theorem Barring.move (h : Barring ms s) (hr : Reachable s) (hd : reduce s e = .ok d)
    (hb : ¬ Reboots s e) :
    Barring (⟨s, e, d, d.state⟩ :: ms) d.state ∨ Unplugged (⟨s, e, d, d.state⟩ :: ms) := by
  have hs := hr.sound
  obtain ⟨-, hstep, -, hsound⟩ := hs.reduces hd
  have hdisturbed (hne : d.state.unplugProof ≠ none) : ¬ Disturbs s e :=
    fun hdist => hne (hstep.disturbed hs hr.idle_of_proof hdist)
  rcases hstep.cases_on with ⟨hk, hstays | ⟨f, a, b, ha, hl, -, -, -, -, -, -, hbars⟩ |
    ⟨b, he, hboot, -⟩⟩ | ⟨f, he, hboot, hf, hv, hreach⟩
  · exact .inl (h.bars hstays.toBars hk hdisturbed)
  · exact .inl (h.bars hbars hk hdisturbed)
  · exact absurd ⟨b, he, hboot⟩ hb
  · subst he
    have hlatest : d.state.latestObservation = some f.observation :=
      (observed_of_step hstep hboot hf).latest
    obtain ⟨s', es, d', hfrees, hc⟩ := hreach
    by_cases hext : f.observation.hasExternalHardware = true
    · obtain ⟨hintent, hproof⟩ := hc.external hext
      exact .inl (.of_external hsound hlatest hext hintent hproof)
    · have habsent : AcceptsAbsent s (.observationCompleted f) f.observation :=
        ⟨⟨f, rfl, rfl, hboot, hf⟩, hv, by simpa using hext⟩
      have hbars : Bars s s' := (stays_recordObservation s f.observation).toBars.trans hfrees.bars
      have hkept : Kept s s' := (stays_recordObservation s f.observation).toKept.trans hfrees.kept
      obtain ⟨p, hp, hcases⟩ := hc.absent habsent.2.2 (hbars.externalIntent h.externalIntent)
      obtain ⟨hlast, hfirst⟩ := extendUnplugProof_ok hp
      have old {q : UnplugProof} (hq : s'.unplugProof = some q) : q ∈ s.unplugProof :=
        (hbars.unplugProof.resolve_right (by simp [hq])).symm.trans hq
      rcases hcases with ⟨hcount, hspan, -⟩ | ⟨hintent, hproof, hcand, happ⟩
      · rcases hfirst with ⟨-, hone, -⟩ | ⟨q, hq, hat⟩
        · simp [hone, unplugRequiredSamples] at hcount
        · obtain ⟨mid, first, oldest, o, rfl, ho, hfirst, hmid⟩ := h.since q (old hq)
          refine .inr ⟨[], _, mid, first, oldest, rfl, ⟨o, f.observation, ho, habsent, ?_⟩, hmid⟩
          rw [hfirst, ← hat, ← hlast]
          exact hspan
      · refine .inl ⟨hintent, ?_, fun a ha => hkept.scope h.application a (happ a ha), ?_⟩
        · rw [hcand]
          rcases hbars.candidate with heq | heq <;> rw [heq]
          · exact h.candidate
          · simp
        · intro p' hp'
          obtain rfl : p = p' := Option.some.inj (hproof.symm.trans hp')
          rcases hfirst with ⟨-, -, hat⟩ | ⟨q, hq, hat⟩
          · exact ⟨[], _, ms, f.observation, rfl, habsent, hat.symm, by simp⟩
          · obtain ⟨mid, first, oldest, o, rfl, ho, hfirst, hmid⟩ := h.since q (old hq)
            refine ⟨_ :: mid, first, oldest, o, rfl, ho, hfirst.trans hat.symm, fun m hm => ?_⟩
            rcases List.mem_cons.mp hm with rfl | hm
            · exact hdisturbed (by simp [hproof])
            · exact hmid m hm

end Runs

/-- Accepted external evidence which is heeded bars internal-only profiles in the same boot until
an explicit unplug proof is accepted. -/
theorem external_bars_internal {newer older : List (Runs.Move State Event Decision)}
    {m : Runs.Move State Event Decision} {s : State} (h : Run (newer ++ m :: older) s)
    {o : CanonicalObservation} (ho : Accepts m.before m.event o)
    (he : o.hasExternalHardware = true) (hh : Heeded m.before o)
    (hb : ∀ n ∈ newer, ¬ Reboots n.before n.event) (hu : ¬ Unplugged newer) :
    SparesInternal s := by
  have hbarring : Barring newer s ∨ Unplugged newer := by
    clear hu
    induction newer generalizing s with
    | nil =>
      cases h with
      | move hrun hs =>
        obtain ⟨hd, rfl⟩ := hs
        have hbefore := Reachable.sound hrun.reachable
        obtain ⟨-, hstep, -, hsound⟩ := hbefore.reduces hd
        have hproof := hstep.disturbed hbefore (Reachable.idle_of_proof hrun.reachable)
          (.inl ⟨o, ho, .inr he⟩)
        have hintent := hstep.intends hbefore ho he hh
        obtain ⟨f, rfl, rfl, hboot, hf⟩ := ho
        have hlatest := (observed_of_step hstep hboot hf).latest
        exact .inl (.of_external hsound hlatest he hintent hproof)
    | cons n newer ih =>
      cases h with
      | move hrun hs =>
        obtain ⟨hd, rfl⟩ := hs
        rcases ih hrun (fun k hk => hb k (List.mem_cons_of_mem _ hk)) with hbar | hunplugged
        · exact hbar.move hrun.reachable hd (hb _ List.mem_cons_self)
        · exact .inr hunplugged.cons
  have hbar := hbarring.resolve_right hu
  have hs := Reachable.sound h.reachable
  refine ⟨hbar.candidate, hbar.application, fun hp hv => ?_⟩
  obtain ⟨-, -, c, hc, -⟩ := hs.verified hp hv
  exact ⟨c, hc, hbar.candidate c hc⟩

namespace Scenario

def extended (token key : Text) (generation observedAtMs : Nat) : ObservationFields :=
  { plain token key generation observedAtMs with
    kernelConnectedOutputs := [monitor, panel]
    kernelExternalOutputs := [monitor]
    xConnectedOutputs := [monitor, panel]
    xExternalOutputs := [monitor] }

/-- The monitor appears while the desktop is prepared, and is gone once the worker has stopped. -/
def appeared : ObservationCompleted := sampled (extended dock dock 4 4000) (by decide) rfl
def cancelled : WorkerCancellationAcknowledged :=
  ⟨metadata 4000, preparationId, .cancelled, 1, rfl, by decide, by decide⟩
def passedOver : Decision := decided prepared (.observationCompleted appeared) rfl
def released : Decision := decided passedOver.state (.workerCancellationAcknowledged cancelled) rfl
def returned : Decision :=
  decided released.state (.observationCompleted (shown laptop laptop 5 5000)) rfl

/-- External evidence in an invalid sample, and a first sample without. -/
def evident : Decision := decided fresh (.observationCompleted monitorPlugged) rfl
def absent : Decision :=
  decided evident.state (.observationCompleted (shown laptop laptop 3 2000)) rfl

theorem single_absent {s t : State} {c : ObservationCompleted} {d : Decision}
    {ms : List (Runs.Move State Event Decision)}
    (h : ∀ m ∈ ms, ∀ f, m.event ≠ .observationCompleted f) :
    ¬ Unplugged (⟨s, .observationCompleted c, d, t⟩ :: ms) := by
  rintro ⟨newest, last, mid, first, oldest, heq, ⟨o, o', ⟨ho, -⟩, ⟨ho', -⟩, hle⟩, -⟩
  have sample {m : Runs.Move State Event Decision} {o : CanonicalObservation}
      (hm : m ∈ (⟨s, .observationCompleted c, d, t⟩ :: ms : List (Runs.Move State Event Decision)))
      (ho : Accepts m.before m.event o) : o = c.observation := by
    obtain ⟨f, hf, rfl, -⟩ := ho
    rcases List.mem_cons.mp hm with rfl | hm
    · rw [Event.observationCompleted.inj hf]
    · exact absurd hf (h m hm f)
  have hfirst := sample (heq ▸ by simp) ho
  have hlast := sample (heq ▸ by simp) ho'
  rw [hfirst, hlast, unplugStabilityMs] at hle
  omega

end Scenario

open Scenario in
theorem external_bars_internal_evident : SparesInternal absent.state := by
  have hrun : Run ([_] ++ _ :: []) absent.state :=
    .move (.move (.start ⟨_, _, _, _, rfl⟩) ⟨reduce_decided fresh _ _, rfl⟩)
      ⟨reduce_decided evident.state _ _, rfl⟩
  refine external_bars_internal hrun (o := monitorPlugged.observation)
    ⟨_, rfl, rfl, rfl, by decide +kernel⟩ rfl (.inl rfl) ?_ (single_absent (by simp))
  rintro n hn ⟨b, hb, -⟩
  rw [List.mem_singleton.mp hn] at hb
  cases hb

open Scenario in
/-- The monitor is seen while a preparation is stopped, and forgotten. -/
theorem external_passed_over : ¬ ∀ newer m older s, Run (newer ++ m :: older) s →
    ∀ o, Accepts m.before m.event o → o.hasExternalHardware = true →
    (∀ n ∈ newer, ¬ Reboots n.before n.event) → ¬ Unplugged newer → SparesInternal s := by
  intro h
  obtain ⟨ms, hrun⟩ := prepared_reachable
  have hrun : Run ([_, _] ++ _ :: ms) returned.state :=
    .move (.move (.move hrun ⟨reduce_decided _ _ _, rfl⟩) ⟨reduce_decided _ _ _, rfl⟩)
      ⟨reduce_decided _ _ _, rfl⟩
  have hspared := h _ _ ms _ hrun appeared.observation ⟨_, rfl, rfl, rfl, by decide +kernel⟩ rfl
    ?_ (single_absent (by simp))
  · have hinternal : returned.state.candidate.map (·.scope) = some .internalOnly := by
      decide +kernel
    obtain ⟨c, hc, hscope⟩ := Option.map_eq_some_iff.mp hinternal
    exact hspared.candidate c hc hscope
  · rintro n hn ⟨b, hb, -⟩
    rcases List.mem_cons.mp hn with rfl | hn
    · cases hb
    · rw [List.mem_singleton.mp hn] at hb
      cases hb

end MonitorController
