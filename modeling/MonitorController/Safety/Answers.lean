import MonitorController.Safety.Selections
import MonitorController.Transition.Observation

/-! # Answered and unanswered samples

A fresh sample which is not unanswered leaves a sound state at every exit. An
unanswered one leaves a state which fails its own checks at every exit.
-/

namespace MonitorController

namespace Recorded

variable {s : State} {o : CanonicalObservation} (h : Recorded s o) (hv : o.valid = true)
include h hv

theorem entered (nowMs : Nat) : Free (s.enterEpoch o nowMs) o := by
  have hids := h.identities.enterEpoch o nowMs
  unfold State.enterEpoch at hids ⊢
  exact {
    control := ControlAt.vacant rfl rfl rfl rfl (by simp)
    desktop := ⟨by simp, by simp, by simp, by simp, fun _ => ⟨rfl, rfl⟩⟩
    identities := hids
    evidence := h.evidence
    selection := ⟨fun hl => absurd hl h.observed, by simp, by simp, fun _ => rfl, by simp⟩
    unplug := by simp [UnplugAt]
    attempts := ⟨by simp, by simp, by simp, by simp⟩
    latest := h.latest
    valid := hv
    token := rfl
    running := by simp
    idle := by simp [State.mutators] }

omit hv in
theorem running_of_token (ht : s.physicalToken = some o.physicalToken) : s.phase ≠ .recovering :=
  fun hp => by simp [h.starting hp] at ht

theorem idle (ht : s.physicalToken = some o.physicalToken) (hb : ¬ busy s)
    (prior : Option CanonicalObservation) : Free (leaveSlowWait s prior o) o := by
  have hidle : ∀ w ∈ s.mutators, w.lifecycle.terminal = true := by
    intro w hw
    by_contra hl
    exact hb ⟨w, hw, by simpa using hl⟩
  obtain ⟨phase, aggressive, index, hp, heq⟩ := leaveSlowWait_eq s prior o
  rw [heq]
  have hcontrol : ControlAt phase s.planningState s.preparationState s.probe s.application
      s.planning s.preparation s.finalization := by
    rcases hp with rfl | ⟨hslow, rfl⟩
    · exact h.control
    · obtain ⟨h1, h2, h3⟩ := h.control.worker_free (by rw [hslow]; rfl)
      exact h.control.rephase h1 h2 h3 rfl (ControlAt.preparationPhases_of_inactive
        (h.control.inactive (State.forall_mutators.mp hidle).2.2.1))
  exact { h with
    control := hcontrol
    valid := hv
    token := ht
    running := by
      rcases hp with rfl | ⟨-, rfl⟩
      · exact h.running_of_token ht
      · simp
    idle := hidle }

/-- A cancelled admission leaves its slot. -/
theorem cancelled (ht : s.physicalToken = some o.physicalToken) {s' : State}
    (hc : Cancels s o s') : Free s' o := by
  cases hc with
  | probe a ha hl hc =>
    have hne : s.probe ≠ none := by simp [ha]
    obtain ⟨h1, -, h3, h4⟩ := h.control.probe_alone hne
    have hids := h.identities.retire (State.mem_actions_probe ha) (l := .cancelled) rfl
    dsimp only [State.retire, State.clearSlot, State.bury, ActionRecord.kind] at hids ⊢
    exact {
      toCore := h.move_probe hne (by rfl) rfl rfl (by simp) hids (by simp)
      latest := h.latest
      valid := hv
      token := ht
      running := by simp
      idle := State.forall_mutators.mpr ⟨by simp, by simp [h1], by simp [h3], by simp [h4]⟩ }
  | application a ha hl hc =>
    have hne : s.application ≠ none := by simp [ha]
    obtain ⟨h1, h2, hactive⟩ := h.control.application_alone hne
    have hprep := h.control.preparation_settled hactive
    have hids := h.identities.retire (State.mem_actions_application ha) (l := .cancelled) rfl
    dsimp only [State.retire, State.clearSlot, State.bury, ActionRecord.kind] at hids ⊢
    exact {
      toCore := h.move_application hne (by rfl) rfl rfl (by simp) hids (by simp)
      latest := h.latest
      valid := hv
      token := ht
      running := by simp
      idle := State.forall_mutators.mpr ⟨by simp [h1], by simp, hprep, by simp [h2]⟩ }
  | preparation a ha hl hc =>
    have hactive := h.control.preparation_live ha (by rw [hl]; rfl)
    obtain ⟨h1, h2, h3⟩ := h.control.active_alone hactive
    have hphase := h.control.pending_verifying (h.control.preparation_pending ha hl)
    have hids := h.identities.retire (State.mem_actions_preparation ha) (l := .cancelled) rfl
    dsimp only [State.retire, State.clearSlot, State.bury, ActionRecord.kind] at hids ⊢
    exact {
      toCore := h.move_preparation hactive (by rfl) (by rw [hphase]; rfl) rfl hids (by simp) (by simp)
      latest := h.latest
      valid := hv
      token := ht
      running := by simp [hphase]
      idle := State.forall_mutators.mpr ⟨by simp [h1], by simp [h2], by simp, by simp [h3]⟩ }
  | finalization a ha hl hc =>
    have hne : s.finalization ≠ none := by simp [ha]
    obtain ⟨h1, h2, hq⟩ := h.control.finalization_alone hne
    have hprep := h.control.preparation_settled (by rw [hq]; rfl)
    have hids := h.identities.retire (State.mem_actions_finalization ha) (l := .cancelled) rfl
    dsimp only [State.retire, State.clearSlot, State.bury, ActionRecord.kind] at hids ⊢
    exact {
      toCore := h.move_finalization hne (by rfl) rfl rfl (by simp) hids (by simp) (by simp)
      latest := h.latest
      valid := hv
      token := ht
      running := by simp
      idle := State.forall_mutators.mpr ⟨by simp [h1], by simp [h2], hprep, by simp⟩ }

/-- A confirmed preparation has ended. -/
theorem concluded (ht : s.physicalToken = some o.physicalToken) {a b : PreparationAction}
    (ha : s.preparation = some a) (hl : a.lifecycle = .resultPending)
    (hb : Continues (.preparation a) (.preparation b)) (hbl : b.lifecycle = .completed)
    (v : Option Nat) :
    Free
      { s.bury a.actionId .completed with
        phase := .verifying
        verifySinceMs := v
        preparationState := .prepared
        preparation := some b } o := by
  have hids := h.identities.fail (State.mem_actions_preparation ha) hb
    (congrArg ActionLifecycle.terminal hbl)
  have hactive := h.control.preparation_live ha (by rw [hl]; rfl)
  obtain ⟨h1, h2, h3⟩ := h.control.active_alone hactive
  cases hb with
  | preparation a w hk hw =>
    have hbl : w.lifecycle = .completed := hbl
    have hw' := hw.worker (h.attempts.preparation a ha) (by simp [hbl]) (by
      simp [hbl, ActionLifecycle.mutatingInFlight])
    dsimp only [ActionRecord.lifecycle] at hids
    rw [hbl] at hids
    dsimp only [failSlot, State.bury] at hids ⊢
    exact {
      toCore := h.move_preparation hactive ⟨_, rfl, by simp [hbl]⟩ rfl rfl hids
        (by rintro _ ⟨⟩; exact ⟨a, ha, rfl, rfl, rfl, rfl⟩) (by rintro _ ⟨⟩; exact hw')
      latest := h.latest
      valid := hv
      token := ht
      running := by simp
      idle := State.forall_mutators.mpr
        ⟨by simp [h1], by simp [h2], by rintro _ ⟨⟩; simp [hbl, ActionLifecycle.terminal],
          by simp [h3]⟩ }

theorem free {prior : Option CanonicalObservation} {s' : State} {es : List Effect}
    (hf : Frees s prior o s' es) : Free s' o := by
  cases hf with
  | entered ht hr => exact h.entered hv _
  | idle ht hb => exact h.idle hv ht hb prior
  | cancelled ht hc => exact h.cancelled hv ht hc
  | concluded a b ht ha hl he hb hbl => exact h.concluded hv ht ha hl hb hbl _

/-- What keeps an internal-only application was in its slot before the sample freed the state. -/
theorem unkept {prior : Option CanonicalObservation} {s' : State} {es : List Effect}
    (hf : Frees s prior o s' es) (hn : ¬ keepsInternal s o) : ¬ keepsInternal s' o := by
  have hfree := h.free hv hf
  rintro ⟨he, a, ha, hi, hc⟩
  rw [if_pos hv] at hc
  have hc : confirmsApplication s' o a := by
    have ht := (State.forall_mutators.mp hfree.idle).2.1 a ha
    rcases hc with hl | hl | hc
    · simp [hl, ActionLifecycle.terminal] at ht
    · simp [hl, ActionLifecycle.terminal] at ht
    · exact hc
  have hold : a ∈ s.application ∧ s.physicalToken = some o.physicalToken := by
    cases hf with
    | entered ht hr => cases ha
    | idle ht hb =>
      obtain ⟨phase, aggressive, index, -, heq⟩ := leaveSlowWait_eq s prior o
      rw [heq] at ha
      exact ⟨ha, ht⟩
    | concluded a b ht hp hl he hb hbl => exact ⟨ha, ht⟩
    | cancelled ht hc =>
      refine ⟨?_, ht⟩
      cases hc with
      | application a ha' hl hc => cases ha
      | probe a ha' hl hc => exact ha
      | preparation a ha' hl hc => exact ha
      | finalization a ha' hl hc => exact ha
  obtain ⟨target, ht, -, hp, hk⟩ := hc
  refine hn ⟨he, a, hold.1, hi, ?_⟩
  rw [if_pos hv]
  exact .inr (.inr ⟨target, ht, hold.2, hp, hk⟩)

omit hv in
theorem answered (hn : ¬ Unanswered s o) {prior : Option CanonicalObservation} {d : Decision}
    (hd : Observed s prior o d) : Sound d.state := by
  obtain ⟨hinternal, hunselected⟩ := not_or.mp hn
  cases hd with
  | revoked r s' es t hv hl hr ht => exact h.revoked hr hl t
  | invalid phase t hv hadmitted hp ht => exact h.invalid hinternal hv hadmitted hp t
  | invalidInternal a t hv ha hi ht =>
    refine absurd ⟨hi.1, a, ha, hi.2.1, ?_⟩ hinternal
    rw [if_neg (by simp [hv])]
    intro hl
    simpa [hl] using hi.2.2
  | internal a t hv ha hi ht =>
    refine absurd ⟨hi.1, a, ha, hi.2.1, ?_⟩ hinternal
    rw [if_pos hv]
    exact .inl (by simpa using hi.2.2)
  | stopping w t hv hw hl ht => exact h.stopping hinternal hv hw hl t
  | stopped r s' t hv hs hi hc ht => exact h.stopped hs hi t
  | refused s' t hv hs ht hc => exact h.refused hs t
  | running t hv ht hr hd => exact h.running hinternal hv hr t
  | completed a hv ha hl he => exact h.completed ha
  | uncertain a t hv ht ha hl he hd => exact h.uncertain ha hl t
  | preparing a t hv ht ha hl he hd => exact h.preparing hunselected hv ha hl he _ t
  | confirmed s' eff hv ht hc => exact h.confirmed hn hv hc _
  | classified s' es d hv hf hc =>
    exact (h.free hv hf).classified (h.unkept hv hf hinternal) (d := d) hc

omit hv in
/-- Every exit leaves a kept internal-only application beside the external evidence. -/
theorem unscoped (hk : keepsInternal s o) {prior : Option CanonicalObservation} {d : Decision}
    (hd : Observed s prior o d) : ¬ ScopedAt d.state.latestObservation d.state.application := by
  obtain ⟨he, a, ha, hi, hc⟩ := id hk
  have ha : s.application = some a := ha
  obtain ⟨hprobe, hfin, hactive⟩ := h.control.application_alone (by simp [ha])
  have hprep := h.control.preparation_settled hactive
  have kept {latest : Option CanonicalObservation} {application : Option ApplicationAction}
      {b : ApplicationAction} (hl : latest = some o) (hb : application = some b)
      (hi : b.scope = .internalOnly) : ¬ ScopedAt latest application :=
    fun hs => hs o hl he b hb hi
  -- A preparation is never live beside an application.
  have unprepared {b : PreparationAction} (hb : s.preparation = some b)
      (hl : b.lifecycle.terminal = false) : False := by
    simpa [hl] using hprep b hb
  cases hd with
  | revoked r s' es t hv hl hr ht =>
    rw [if_neg (by simp [hv])] at hc
    cases hr with
    | probe b hb => exact absurd hb (by simp [revokeProofs, hprobe])
    | application b hb =>
      obtain rfl : a = b := Option.some.inj (ha.symm.trans hb)
      exact absurd hl hc
    | desktop hw =>
      cases hw with
      | preparation b hb => exact (unprepared hb (congrArg ActionLifecycle.terminal hl)).elim
      | finalization b hb => exact absurd hb (by simp [revokeProofs, hfin])
  | invalid phase t hv hadmitted hp ht => exact kept h.latest ha hi
  | invalidInternal b t hv hb hr ht => exact kept h.latest rfl hr.2.1
  | internal b t hv hb hr ht => exact kept h.latest rfl hr.2.1
  | stopping w t hv hw hl ht => exact kept h.latest ha hi
  | stopped r s' t hv hs hr hc ht =>
    cases hs with
    | probe b hb hl => exact absurd hb (by simp [hprobe])
    | application b hb hl =>
      obtain rfl : a = b := Option.some.inj (ha.symm.trans hb)
      exact absurd ⟨he, hi, by simp [hl]⟩ (hr a rfl)
    | preparation b hb hl =>
      exact (unprepared hb (by rcases hl with hl | hl <;> rw [hl] <;> rfl)).elim
    | finalization b hb hl => exact absurd hb (by simp [hfin])
  | refused s' t hv hs ht hc =>
    cases hs with
    | finalization b c v hb hl hbc hcl hw => exact absurd hb (by simp [hfin])
    | preparation b c hb hl hbc hcl => exact (unprepared hb (by rw [hl]; rfl)).elim
  | running t hv ht hr hd => exact kept h.latest ha hi
  | completed b hv hb hl hx => exact absurd hb (by simp [hfin])
  | uncertain b t hv ht hb hl hx hd =>
    exact (unprepared hb (by rcases hl with hl | hl <;> rw [hl] <;> rfl)).elim
  | preparing b t hv ht hb hl hx hd => exact (unprepared hb (by rw [hl]; rfl)).elim
  | confirmed s' eff hv ht hx =>
    cases hx with
    | probe b hb hl hx => exact absurd hb (by simp [hprobe])
    | application b hb hl hx =>
      obtain rfl : a = b := Option.some.inj (ha.symm.trans hb)
      exact kept h.latest rfl hi
    | preparation b hb hl hx => exact (unprepared hb (by rw [hl]; rfl)).elim
    | finalization b hb hl hx => exact absurd hb (by simp [hfin])
  | classified s' es d hv hf hd =>
    rw [if_pos hv] at hc
    have hfree := h.free hv hf
    have hslot : s'.application = some a ∧ repeatsFailedApplication o a := by
      cases hf with
      | entered ht hr =>
        have hquiet := (State.forall_mutators.mp hr).2.1 a ha
        rcases hc with hl | hl | hc
        · simp [hl, ActionLifecycle.mutatingInFlight] at hquiet
        · simp [hl, ActionLifecycle.mutatingInFlight] at hquiet
        · obtain ⟨-, -, ht', -⟩ := hc
          exact absurd ht' ht
      | idle ht hb =>
        obtain ⟨phase, aggressive, index, -, heq⟩ := leaveSlowWait_eq s prior o
        rw [heq] at hfree ⊢
        refine ⟨ha, ?_⟩
        have hended := (State.forall_mutators.mp hfree.idle).2.1 a ha
        rcases hc with hl | hl | ⟨target, ht, -, hp, hk⟩
        · simp [hl, ActionLifecycle.terminal] at hended
        · simp [hl, ActionLifecycle.terminal] at hended
        · exact ⟨target, ht, hp, hk⟩
      | concluded b c ht hb hl hx hbc hcl => exact (unprepared hb (by rw [hl]; rfl)).elim
      | cancelled ht hx =>
        cases hx with
        | probe b hb hl hx => exact absurd hb (by simp [hprobe])
        | application b hb hl hx =>
          obtain rfl : a = b := Option.some.inj (ha.symm.trans hb)
          rcases hc with hl' | hl' | hc
          · simp [hl] at hl'
          · simp [hl] at hl'
          · exact absurd hc hx
        | preparation b hb hl hx => exact (unprepared hb (by rw [hl]; rfl)).elim
        | finalization b hb hl hx => exact absurd hb (by simp [hfin])
    obtain ⟨hslot, hrepeats⟩ := hslot
    have hsettled {s'' : State} (hs : Settles s' o s'') :
        s'' = acceptExternal s' ∧ s''.application = some a := by
      cases hs with
      | external he => exact ⟨rfl, hslot⟩
      | unplugged hn hu => simp [he] at hn
    cases hd with
    | unplugging s'' hn hu => simp [he] at hn
    | retained s'' hs hr =>
      exact kept (h.free hv hf |>.settled hs).latest (hsettled hs).2 hi
    | selected s'' t hs hr hd =>
      have hfree' := hfree.settled hs
      have hslot' := (hsettled hs).2
      have hnone := (hfree'.control.application_alone (by simp [hslot'])).1
      simp [retainFailure, hfree'.application_failed hslot', hnone, hslot', hrepeats] at hr

omit hv in
/-- Every exit goes on verifying without the candidate which a preparation is proved for. -/
theorem unproven (hk : provesUnselected s o) {prior : Option CanonicalObservation} {d : Decision}
    (hd : Observed s prior o d) : d.state.phase = .verifying ∧ d.state.verifySinceMs ≠ none ∧
      d.state.candidate = none := by
  obtain ⟨hvalid, htoken, hcand, a, ha, hc⟩ := hk
  have ha : s.preparation = some a := ha
  have hlive : a.lifecycle.terminal = false := by
    rcases hc with ⟨hl, -⟩ | ⟨hl, -⟩ <;> rw [hl] <;> rfl
  obtain ⟨hprobe, happ, hfin⟩ := h.control.active_alone (h.control.preparation_live ha hlive)
  have same {b : PreparationAction} (hb : s.preparation = some b) : a = b :=
    Option.some.inj (ha.symm.trans hb)
  cases hd with
  | revoked r s' es t hv hl hr ht => simp [hvalid] at hv
  | invalid phase t hv hadmitted hp ht => simp [hvalid] at hv
  | invalidInternal b t hv hb hr ht => simp [hvalid] at hv
  | internal b t hv hb hr ht => simp [happ] at hb
  | stopping w t hv hw hl ht =>
    have hw : w = a.toWorkerAction := by simpa [State.mutators, hprobe, happ, hfin, ha] using hw
    subst hw
    rcases hc with ⟨hl', -⟩ | ⟨hl', -⟩ <;> simp [hl] at hl'
  | stopped r s' t hv hs hr hx ht =>
    cases hs with
    | probe b hb hl => simp [hprobe] at hb
    | application b hb hl => simp [happ] at hb
    | finalization b hb hl => simp [hfin] at hb
    | preparation b hb hl =>
      obtain rfl := same hb
      rcases hc with ⟨-, hstatus⟩ | ⟨hl', -⟩
      · rcases hx with hx | ⟨b, hb, -⟩ | ⟨b, hb, -, hnone⟩
        · exact absurd htoken hx
        · cases hb
        · cases hb
          simp [hstatus] at hnone
      · simp [hl'] at hl
  | refused s' t hv hs ht hx =>
    cases hs with
    | finalization b c v hb hl hbc hcl hw => simp [hfin] at hb
    | preparation b c hb hl hbc hcl =>
      obtain rfl := same hb
      rcases hc with ⟨hl', -⟩ | ⟨hl', -⟩ <;> simp [hl] at hl'
  | running t hv ht hr hd =>
    rcases hr with ⟨b, hb, -⟩ | ⟨b, hb, -⟩ | ⟨b, hb, -⟩
    · simp [hprobe] at hb
    · simp [happ] at hb
    · simp [hfin] at hb
  | completed b hv hb hl hx => simp [hfin] at hb
  | uncertain b t hv ht hb hl hx hd =>
    obtain rfl := same hb
    rcases hc with ⟨-, hstatus⟩ | ⟨hl', -⟩
    · simp [hstatus] at hx
    · simp [hl'] at hl
  | preparing b t hv ht hb hl hx hd =>
    refine ⟨rfl, ?_, hcand⟩
    change keepProof s o.observedAtMs ≠ none
    unfold keepProof
    split <;> simp
  | confirmed s' eff hv ht hx =>
    cases hx with
    | probe b hb hl hx => simp [hprobe] at hb
    | application b hb hl hx => simp [happ] at hb
    | finalization b hb hl hx => simp [hfin] at hb
    | preparation b hb hl hx =>
      have hstate := h.control.preparation_pending hb hl
      obtain ⟨t, ht, -⟩ := h.prepared b hb hl
      refine ⟨h.control.pending_verifying hstate, ?_, hcand⟩
      change s.verifySinceMs ≠ none
      simp [Option.mem_def.mp ht]
  | classified s' es d hv hf hd =>
    exfalso
    cases hf with
    | entered ht hr => exact ht htoken
    | idle ht hb =>
      exact hb ⟨_, State.mem_mutators.mpr (.inr (.inr (.inl ⟨a, ha, rfl⟩))), hlive⟩
    | concluded b c ht hb hl hx hbc hcl =>
      obtain rfl := same hb
      rcases hc with ⟨hl', -⟩ | ⟨hl', -⟩ <;> simp [hl] at hl'
    | cancelled ht hx =>
      cases hx with
      | probe b hb hl hx => simp [hprobe] at hb
      | application b hb hl hx => simp [happ] at hb
      | finalization b hb hl hx => simp [hfin] at hb
      | preparation b hb hl hx =>
        obtain rfl := same hb
        rcases hc with ⟨hl', -⟩ | ⟨-, hc⟩
        · simp [hl] at hl'
        · exact hx hc

end Recorded

theorem rules_of_checked {s : State} (h : assertControllerInvariants s = .ok ⟨⟩) :
    ScopedAt s.latestObservation s.application ∧
      (s.phase = .verifying → s.verifySinceMs ≠ none → s.candidate ≠ none) := by
  have hrules : checkNumberedSafetyRules s = .ok ⟨⟩ := by
    simp only [assertControllerInvariants, Outcome.seq_eq_ok] at h
    exact h.2.2.2.2.2.2.1
  have candidate (hproof : s.phase = .verifying ∧ s.verifySinceMs ≠ none →
      ∃ o ∈ s.latestObservation, o.valid = true ∧ ∃ c ∈ s.candidate,
        o.exactProfile = some c.profile ∧ c.profile ∈ o.currentProfiles ∧
        o.observationKey = c.observationKey) (hp : s.phase = .verifying)
      (hv : s.verifySinceMs ≠ none) : s.candidate ≠ none := by
    obtain ⟨o, -, -, c, hc, -⟩ := hproof ⟨hp, hv⟩
    simp [Option.mem_def.mp hc]
  simp only [checkNumberedSafetyRules] at hrules
  split at hrules
  all_goals simp only [Outcome.seq_eq_ok, require_eq_ok] at hrules
  · exact ⟨hrules.2.1, candidate hrules.2.2.2.2.2.2.1⟩
  · exact ⟨hrules.2.1, candidate hrules.2.2.2.1⟩

end MonitorController
