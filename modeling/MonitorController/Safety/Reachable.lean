import MonitorController.Foundation.Runs
import MonitorController.Safety.Answers

/-! # Reachable states are sound

Every answered event leaves a sound state, and exactly the unanswerable ones
are not answered. The runs of the reducer are therefore runs of sound states.
-/

namespace MonitorController

/-- A retryable failure of the retained plan meets an application in its slot. -/
def retriesOccupied (s : State) (e : PlanFailed) : Prop :=
  e.retryable = true ∧ s.application ≠ none ∧
    (s.planningState = .planPending ∨ s.planningState = .planning) ∧
    ∃ p ∈ s.planning, p.actionId = e.actionId ∧ p.inputKey = e.inputKey

/-- The events on which the reducer builds a state which fails its own checks. -/
def Unanswerable (s : State) : Event → Prop
  | .observationCompleted e => e.metadata.bootId = s.bootId ∧ ¬ staleObservation s e.observation ∧
      Unanswered (recordObservation s e.observation) e.observation
  | .planFailed e => e.metadata.bootId = s.bootId ∧ retriesOccupied s e
  | _ => False

instance (s : State) (e : PlanFailed) : Decidable (retriesOccupied s e) :=
  inferInstanceAs (Decidable (_ ∧ _ ∧ _ ∧ ∃ p ∈ s.planning, _))

instance (s : State) (e : Event) : Decidable (Unanswerable s e) := by
  unfold Unanswerable
  split <;> infer_instance

theorem sound_initial (bootId : BootId) (instanceId : ControllerInstanceId)
    (display : DisplayIdentity) (session : Option GraphicalSessionId) :
    Sound (State.initial bootId instanceId display session) where
  control := ⟨rfl, rfl, rfl, rfl, rfl, fun _ => ⟨rfl, rfl⟩, fun _ => ⟨rfl, rfl⟩, rfl,
    by simp [State.initial], by simp [State.initial]⟩
  desktop := ⟨by simp [State.initial], by simp [State.initial], by simp [State.initial],
    by simp [State.initial], by simp [State.initial]⟩
  identities := ⟨by simp [State.initial], by simp [State.initial], rfl, by simp [State.initial],
    by simp [State.initial], by simp [State.initial], by simp [State.initial],
    by simp [State.initial]⟩
  evidence := ⟨by simp [State.initial], by simp [State.initial], by simp [State.initial]⟩
  selection := ⟨fun _ => ⟨rfl, rfl⟩, by simp [State.initial], by simp [State.initial],
    fun _ => rfl, by simp [State.initial]⟩
  unplug := by simp [UnplugAt, State.initial]
  attempts := ⟨by simp [State.initial], by simp [State.initial], by simp [State.initial],
    by simp [State.initial]⟩
  started := by simp [State.initial]
  inScope := by simp [ScopedAt, State.initial]
  pending := ⟨by simp [State.initial], by simp [State.initial], by simp [State.initial],
    by simp [State.initial]⟩
  verified := by simp [ProofAt, State.initial]
  wake := by simp [WakeAt, unwoken, State.initial]

theorem Ends.live {e : Event} {r : ActionRecord} {l : ActionLifecycle} (h : Ends e r l) :
    r.lifecycle.mutatingInFlight = true ∧ l.terminal = true := by
  cases h with
  | finished he hr hl =>
    refine ⟨by rw [hr]; rfl, ?_⟩
    simp only [List.mem_cons, List.not_mem_nil, or_false] at hl
    rcases hl with rfl | rfl | rfl <;> rfl
  | acknowledged he hr => exact ⟨by rw [hr]; rfl, WorkerCancellationAcknowledged.terminal _⟩

theorem Fails.live {e : Event} {r : ActionRecord} {l : ActionLifecycle} (h : Fails e r l) :
    r.lifecycle.terminal = false := by
  cases h with
  | ended h => exact ActionLifecycle.live_of_inFlight h.live.1
  | rejected he hr => rw [hr]; rfl
  | unknown he hk hr => rw [hr]; rfl
  | planFailed he hk hr => rcases hr with hr | hr <;> rw [hr] <;> rfl

def Event.reports : Event → Bool
  | .probeFinished _ | .applicationFinished _ | .preparationFinished _ | .finalizationFinished _
  | .workerCancellationAcknowledged _ => true
  | _ => false

def Event.fails : Event → Bool
  | .dispatchRejected _ | .workerStatusUnknown _ | .planFailed _ => true
  | e => e.reports

theorem Event.reports_of_finished {e : Event} {a : ActionId} (h : e.finished? = some a) :
    e.reports = true := by
  cases e with
  | probeFinished e => rfl
  | applicationFinished e => rfl
  | preparationFinished e => rfl
  | finalizationFinished e => rfl
  | _ => cases h

theorem Ends.reports {e : Event} {r : ActionRecord} {l : ActionLifecycle} (h : Ends e r l) :
    e.reports = true := by
  cases h with
  | finished he hr hl => exact Event.reports_of_finished he
  | acknowledged he hr => rfl

theorem Fails.fails {e : Event} {r : ActionRecord} {l : ActionLifecycle} (h : Fails e r l) :
    e.fails = true := by
  cases h with
  | ended h =>
    have hr := h.reports
    cases e with
    | probeFinished e => rfl
    | applicationFinished e => rfl
    | preparationFinished e => rfl
    | finalizationFinished e => rfl
    | workerCancellationAcknowledged e => rfl
    | _ => cases hr
  | rejected he hr => rfl
  | unknown he hk hr => rfl
  | planFailed he hk hr => rfl

theorem observed_of_step {s : State} {e : ObservationCompleted} {d : Decision}
    (h : Step s (.observationCompleted e) d) (hb : e.metadata.bootId = s.bootId)
    (hf : ¬ staleObservation s e.observation) :
    Observed (recordObservation s e.observation) s.latestObservation e.observation d := by
  cases h with
  | ignored _ hi => exact (hi.elim (absurd hb) hf).elim
  | observed _ _ _ hd => exact hd
  | stopRepeated _ r t hr hl he ht => cases he
  | closed _ r l v es t hr hk he hl hv hes ht => cases he.reports
  | failed _ r r' phase es t hr hc hf he hp hes => cases he.fails
  | preparationReported _ a b t ha he hb hl ht => cases he.reports
  | finalizationReported _ a b t ha he hb hl ht => cases he.reports
  | doubted _ r v t hr hk hl he ht => cases he

theorem application_of_checked {s : State} (h : assertControllerInvariants s = .ok ⟨⟩)
    (hp : s.phase = .discoverFast) : s.application = none := by
  have hphase : checkPhaseRelationships s = .ok ⟨⟩ := by
    simp only [assertControllerInvariants, Outcome.seq_eq_ok] at h
    exact h.1
  simp only [checkPhaseRelationships, hp, reduceCtorEq, if_false, Outcome.seq_eq_ok,
    checkSlot_eq_ok] at hphase
  simpa [Fits, expectedApplicationLifecycles] using hphase.2.1

namespace Sound

variable {s : State} (h : Sound s)
include h

theorem reduce_eq {e : Event} (hb : e.metadata.bootId = s.bootId) (hn : ∀ b, e ≠ .bootChanged b) :
    reduce s e = reduceEvent s e := by
  have hunits : ¬ (s.phase = .recovering ∧ s.recoveryUnits ≠ []) := by
    simp [h.identities.recoveryUnits]
  unfold reduce
  rw [h.checked, Outcome.ok_bind]
  cases e with
  | bootChanged b => exact absurd rfl (hn b)
  | _ =>
    dsimp only
    rw [if_neg (not_not.mpr hb), if_neg hunits]

/-- A dirtied admission withdraws a desktop action, and otherwise only the proofs. -/
theorem dirtied {r : ActionRecord} {s' : State} {es : List Effect} {g : EventGeneration}
    (hr : r ∈ s.actions) (hl : r.lifecycle = .admitted) (hg : s.eventGeneration ≤ g) {nowMs : Nat}
    (hw : Withdraws (supersedeProofs s g nowMs) r s' es ∨
      (r.kind = .plan ∨ r.kind = .probe ∨ r.kind = .application) ∧
        s' = supersedeProofs s g nowMs ∧ es = []) (t : Nat) : Sound (s'.timed t) := by
  rcases hw with hw | ⟨hk, rfl, -⟩
  · exact (h.toCore.supersede hg nowMs).withdrawn hw hl (h.observed_of_mem hr) s'.verifySinceMs t
  · refine h.superseded (fun a ha hla => ?_) (fun a ha hla => ?_) hg nowMs t
    · -- A pending preparation excludes every other admission.
      have hactive := h.control.preparation_live ha (by rw [hla]; rfl)
      obtain ⟨hprobe, happ, -⟩ := h.control.active_alone hactive
      cases r with
      | probe b => exact absurd (State.probe_of_mem hr) (by simp [hprobe])
      | application b => exact absurd (State.application_of_mem hr) (by simp [happ])
      | planning b =>
        have := (h.control.planning_live (State.planning_of_mem hr)
          (congrArg ActionLifecycle.terminal hl)).2
        simp [this, PreparationState.active] at hactive
      | preparation b => simp [ActionRecord.kind] at hk
      | finalization b => simp [ActionRecord.kind] at hk
    · have hne : s.finalization ≠ none := by simp [Option.mem_def.mp ha]
      obtain ⟨hprobe, happ, hprep⟩ := h.control.finalization_alone hne
      cases r with
      | probe b => exact absurd (State.probe_of_mem hr) (by simp [hprobe])
      | application b => exact absurd (State.application_of_mem hr) (by simp [happ])
      | planning b =>
        have := (h.control.planning_live (State.planning_of_mem hr)
          (congrArg ActionLifecycle.terminal hl)).2
        simp [this] at hprep
      | preparation b => simp [ActionRecord.kind] at hk
      | finalization b => simp [ActionRecord.kind] at hk

/-- Every step on an answered event keeps the invariant. -/
theorem step {e : Event} {d : Decision} (hs : Step s e d) (hto : Addressed s e d)
    (hn : ¬ Unanswerable s e) : Sound d.state := by
  rcases hto with rfl | hto
  · exact h
  cases hs with
  | ignored e hi => exact h
  | observed e hboot hf hd =>
    have hrecorded := h.recorded (e.same_boot.trans hboot) hf
    exact hrecorded.answered (fun hu => hn ⟨hboot, hf, hu⟩) hd
  | observationFailed e t ht => exact h.timed t
  | timerFired e t ht => exact h.timed t
  | hinted e s' es t hboot hg ht hh => exact h.hinted hg.le hh t
  | dirtied e r s' es t hboot hr he hl hg ht hw => exact h.dirtied hr hl hg.le hw t
  | probeDispatched e a w ha hl hi hd => exact h.dispatched_probe ha hl hd
  | applicationDispatched e a w ha hl hi hd => exact h.dispatched_application ha hl hd
  | preparationDispatched e a w ha hl hi hd => exact h.dispatched_preparation ha hl hd
  | finalizationDispatched e a w ha hl hi hd => exact h.dispatched_finalization ha hl hd
  | planRequested e p hp hs hi hk => exact h.planRequested hp hs
  | planCompleted e p t hp hs hi hk ht => exact h.planCompleted hp hs e.planHash t
  | planRetried e p t hp hs hi hk hr ht =>
    refine h.planRetried hp hs ?_ t
    by_contra happ
    rcases hto with ⟨b, ⟨⟩⟩ | hb
    exact hn ⟨hb, hr, happ, hs, p, hp, hi, hk⟩
  | stopRepeated e r t hr hl he ht => exact h.timed t
  | closed e r l v es t hr hk he hl hv hes ht =>
    exact h.closed hr hk he.live.2 (ActionLifecycle.live_of_inFlight he.live.1) v t
  | failed e r r' phase es t hr hc hf he hp hes => exact h.failed hr hc hf he.live hp t
  | preparationReported e a b t ha he hb hl ht =>
    exact h.reported_preparation ha hb he.live.1 hl t
  | finalizationReported e a b t ha he hb hl ht =>
    exact h.reported_finalization ha hb he.live.1 hl t
  | doubted e r v t hr hk hl he ht =>
    exact h.doubted hr hk (by rcases hl with hl | hl <;> rw [hl] <;> rfl) v t
  | restarted e a s' es t ha hl hw ht => exact h.withdrawn ha hl e.controllerInstance hw t
  | retried e a t ha hp ht => exact h.retried ha e.controllerInstance t
  | resumed e v es t hq hv hes => exact h.resumed e.controllerInstance hq hv t
  | booted e hb => exact h.booted e

theorem planFailed_retries {e : PlanFailed} (hb : e.metadata.bootId = s.bootId)
    (hr : retriesOccupied s e) :
    ∃ t, reduce s (.planFailed e) =
      decision (({ s.dropPlan with phase := .discoverFast, verifySinceMs := none }).timed t)
        (s.planDiscards ++ [.schedule t]) := by
  obtain ⟨hretry, happ, hs, p, hp, hi, hk⟩ := hr
  have hp : s.planning = some p := hp
  have ht : s.Tidy := h.identities.tidy
  have hguard : ¬ ((s.planningState ≠ .planPending ∧ s.planningState ≠ .planning) ∨
      p.actionId ≠ e.actionId ∨ p.inputKey ≠ e.inputKey) := by
    rintro (⟨h1, h2⟩ | hne | hne)
    · exact hs.elim h1 h2
    · exact hne hi
    · exact hne hk
  refine ⟨e.metadata.processedAtMs + observationFailureRetryMs, ?_⟩
  rw [h.reduce_eq (e := .planFailed e) hb (by rintro b ⟨⟩)]
  unfold reduceEvent planFailed
  simp only [hp, if_neg hguard, hretry, if_true, ht.discardPlanning_eq, Outcome.ok_bind]
  rfl

/-- The reducer answers exactly the answerable events, and then keeps the invariant. -/
theorem reduce_cases (e : Event) :
    (¬ Unanswerable s e ∧
        ∃ d, reduce s e = .ok d ∧ Step s e d ∧ Addressed s e d ∧ Sound d.state) ∨
      (Unanswerable s e ∧ ∀ d, reduce s e ≠ .ok d) := by
  have refuses {d : Decision} (heq : reduce s e = decision d.state d.effects)
      (hs : assertControllerInvariants d.state ≠ .ok ⟨⟩) (d' : Decision) :
      reduce s e ≠ .ok d' := by
    rw [heq, decision]
    intro hok
    obtain ⟨u, hu, -⟩ := Outcome.bind_eq_ok.mp hok
    exact hs hu
  obtain ⟨d, ⟨hd, ha⟩, heq⟩ := h.reduce_decides e
  by_cases hn : Unanswerable s e
  · refine .inr ⟨hn, ?_⟩
    cases e with
    | observationCompleted e =>
      obtain ⟨hboot, hf, hu⟩ := hn
      refine refuses heq fun hok => ?_
      obtain ⟨hscope, hproof⟩ := rules_of_checked hok
      have hrecorded := h.recorded (e.same_boot.trans hboot) hf
      have hd := observed_of_step hd hboot hf
      rcases hu with hu | hu
      · exact hrecorded.unscoped hu hd hscope
      · obtain ⟨hp, hv, hc⟩ := hrecorded.unproven hu hd
        exact hproof hp hv hc
    | planFailed e =>
      obtain ⟨hb, hr⟩ := hn
      obtain ⟨t, heq⟩ := h.planFailed_retries hb hr
      refine refuses (d := ⟨_, _⟩) heq fun hok => hr.2.1 ?_
      have hnone := application_of_checked hok rfl
      exact hnone
    | _ => cases hn
  · have hs := h.step hd ha hn
    refine .inl ⟨hn, d, ?_, hd, ha, hs⟩
    rw [heq, decision, hs.checked]
    rfl

end Sound

/-- The initial states of the reducer. -/
def Starts (s : State) : Prop :=
  ∃ bootId instanceId display session, s = State.initial bootId instanceId display session

/-- One successful reduction. -/
def Reduces (s : State) (e : Event) (d : Decision) (s' : State) : Prop :=
  reduce s e = .ok d ∧ s' = d.state

/-- A run of the reducer, its reductions listed from the newest to the oldest. -/
abbrev Run : List (Runs.Move State Event Decision) → State → Prop := Runs.Run Starts Reduces

/-- A state which some run of the reducer reaches. -/
abbrev Reachable : State → Prop := Runs.Reachable Starts Reduces

namespace Sound

variable {s : State} (h : Sound s)
include h

theorem reduces {e : Event} {d : Decision} (hr : reduce s e = .ok d) :
    ¬ Unanswerable s e ∧ Step s e d ∧ Addressed s e d ∧ Sound d.state := by
  rcases h.reduce_cases e with ⟨hn, d', hd', hstep⟩ | ⟨-, hn⟩
  · obtain rfl : d' = d := Except.ok.inj (hd'.symm.trans hr)
    exact ⟨hn, hstep⟩
  · exact absurd hr (hn d)

end Sound

theorem Reachable.sound {s : State} (h : Reachable s) : Sound s := by
  refine Runs.Reachable.invariant ?_ ?_ h
  · rintro _ ⟨bootId, instanceId, display, session, rfl⟩
    exact sound_initial bootId instanceId display session
  · rintro s e d _ - hs ⟨hr, rfl⟩
    exact (hs.reduces hr).2.2.2

end MonitorController
