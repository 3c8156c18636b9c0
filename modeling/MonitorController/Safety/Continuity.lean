import MonitorController.Safety.Unplug
import MonitorController.Transition.Launches

/-! # Continuous proof

A running proof rests on every sample accepted since it started: each one showed
the profile exact and current on the same evidence, and no hint came between. A
finalization is launched on nothing less.
-/

namespace MonitorController

/-- A preparation which is active outside a verification has no proof. -/
def Suspended (s : State) : Prop :=
  s.preparationState.active = true → s.phase ≠ .verifying → s.verifySinceMs = none

/-- A proof of the profile on its evidence started at the time: it is verified, or a finalization
is pending on it. -/
inductive Proving (s : State) (since : Nat) : Text → ObservationKey → Prop
  | verifying (c) (hp : s.phase = .verifying) (hv : s.verifySinceMs = some since)
    (hc : s.candidate = some c) : Proving s since c.profile c.observationKey
  | pending (a) (ha : s.finalization = some a) (hl : a.lifecycle = .admitted)
    (hv : s.verifySinceMs = some since) : Proving s since a.profile a.observationKey

section Samples

variable {s s' : State} {prior : Option CanonicalObservation} {o : CanonicalObservation}
  {d : Decision} {target : ProfileMatch} {es : List Effect} {since : Nat} {profile : Text}
  {key : ObservationKey}

theorem Proving.verifySince (h : Proving s since profile key) : s.verifySinceMs = some since := by
  cases h with
  | verifying c hp hv hc => exact hv
  | pending a ha hl hv => exact hv

theorem Proving.congr (h : Proving s' since profile key) (hp : s'.phase = .verifying → s.phase = .verifying)
    (hv : s.verifySinceMs = s'.verifySinceMs)
    (hc : s.candidate = s'.candidate ∨ s'.candidate = none)
    (hf : s.finalization = s'.finalization ∨ s'.finalization = none) :
    Proving s since profile key := by
  cases h with
  | verifying c hphase hsince hcand =>
    exact .verifying c (hp hphase) (hv.trans hsince)
      ((hc.resolve_right (by simp [hcand])).trans hcand)
  | pending a ha hl hsince =>
    exact .pending a ((hf.resolve_right (by simp [ha])).trans ha) hl (hv.trans hsince)

theorem Sound.proving (h : Sound s) (hp : Proving s since profile key) :
    ∃ o ∈ s.latestObservation, ExactOn o profile key := by
  cases hp with
  | verifying c hphase hv hc =>
    obtain ⟨o, ho, c', hc', hexact⟩ := h.verified hphase (by simp [hv])
    obtain rfl := Option.mem_unique hc hc'
    exact ⟨o, ho, hexact⟩
  | pending a ha hl hv =>
    obtain ⟨-, o, ho, hexact, -⟩ := h.pending.finalization a ha hl
    exact ⟨o, ho, hexact⟩

theorem Sound.active_phase (h : Sound s) (ha : s.preparationState.active = true) :
    s.phase = .verifying ∨ s.phase = .discoverFast := by
  have hphases := h.control.phases
  cases hq : s.preparationState <;>
    simp_all [PreparationState.active, preparationPhases]

theorem Verifies.keepsProof (h : Verifies s o target s' es) :
    (sameProof s o target ∧ s'.verifySinceMs = s.verifySinceMs ∧ s'.candidate = s.candidate ∨
      s'.verifySinceMs = some o.observedAtMs) ∧ s'.finalization = s.finalization ∧
    (s'.preparationState = s.preparationState ∨ s'.preparationState = .prepareIdle) := by
  cases h with
  | kept hs hi => exact ⟨.inl ⟨hs, rfl, rfl⟩, rfl, .inl rfl⟩
  | replanned hs hi => exact ⟨.inl ⟨hs, rfl, rfl⟩, rfl, .inr rfl⟩
  | restarted hs => exact ⟨.inr rfl, rfl, .inr rfl⟩

theorem Plans.keepsProof (h : Plans s o target s' es) :
    s'.verifySinceMs = s.verifySinceMs ∧ s'.candidate = s.candidate ∧
      s'.finalization = s.finalization ∧ s'.preparationState = s.preparationState ∧
      s'.phase = s.phase := by
  cases h with
  | admitted hf hb hp => exact ⟨rfl, rfl, rfl, rfl, rfl⟩
  | kept hk => exact ⟨rfl, rfl, rfl, rfl, rfl⟩

theorem Advances.keepsProof (h : Advances s o es d) :
    d.state.verifySinceMs = s.verifySinceMs ∧ d.state.candidate = s.candidate ∧
      (d.state.finalization = s.finalization ∨ eventQuiet s o.observedAtMs = true ∧
        ∃ c ∈ s.candidate, ∃ a, d.state.finalization = some a ∧ a.profile = c.profile ∧
          a.observationKey = o.observationKey) := by
  cases h with
  | finalizes since candidate preparation hv hc hp hf hb hq hqs hn =>
    have hquiet : eventQuiet s o.observedAtMs = true := by
      simp only [proofComplete, Bool.and_eq_true] at hp
      exact hp.2
    exact ⟨rfl, rfl, .inr ⟨hquiet, candidate, hc, _, rfl, rfl, rfl⟩⟩
  | _ => exact ⟨rfl, rfl, .inl rfl⟩

theorem Advances.active (h : Advances s o es d) :
    d.state.preparationState = s.preparationState ∨ d.state.preparationState = .prepareIdle ∨
      d.state.phase = s.phase := by
  cases h with
  | finalized since candidate hv hc hp hf => exact .inr (.inl rfl)
  | prepares since candidate planning planHash hv hc hp hf hb hl hls hh hqs => exact .inr (.inr rfl)
  | _ => exact .inl rfl

theorem proof_rearm (s : State) (profile : Text) :
    (rearmAchievedApplication (clearUnknown s) profile).verifySinceMs = s.verifySinceMs ∧
      (rearmAchievedApplication (clearUnknown s) profile).candidate = s.candidate ∧
      (rearmAchievedApplication (clearUnknown s) profile).finalization = s.finalization ∧
      (rearmAchievedApplication (clearUnknown s) profile).preparationState = s.preparationState ∧
      (rearmAchievedApplication (clearUnknown s) profile).phase = s.phase := by
  obtain ⟨keys, -, profiles, heq⟩ := rearmAchievedApplication_eq (clearUnknown s) profile
  rw [heq]
  exact ⟨rfl, rfl, rfl, rfl, rfl⟩

theorem Selects.suspended (h : Selects s o d) (hi : s.preparationState.active = false)
    (ha : d.state.preparationState.active = true) : d.state.phase = .verifying := by
  have same (ht : d.state.preparationState = s.preparationState ∨
      d.state.preparationState = .prepareIdle) : d.state.phase = .verifying := by
    rcases ht with ht | ht <;> rw [ht] at ha
    · simp [hi] at ha
    · cases ha
  cases h with
  | waits hw => cases hw; exact same (.inl rfl)
  | waitsKnown hw => cases hw; exact same (.inl rfl)
  | waitsSpent target ht hz hw => cases hw; exact same (.inl rfl)
  | probes candidate hz hc action ha hk => exact same (.inr rfl)
  | stable target ht hx hs => exact same (.inl (proof_rearm s target.profile).2.2.2.1)
  | verifies target s' es s'' fs ht hx hv hp hadvance =>
    obtain ⟨-, -, -, hplans, hphase⟩ := hp.keepsProof
    rcases hadvance.active with heq | heq | heq
    · rcases hv.keepsProof.2.2 with hstate | hstate
      · exact same (.inl (heq.trans (hplans.trans
          (hstate.trans (proof_rearm s target.profile).2.2.2.1))))
      · exact same (.inr (heq.trans (hplans.trans hstate)))
    · exact same (.inr heq)
    · exact heq.trans hphase
  | _ => exact same (.inl rfl)

/-- A selection leaves the proof which it found, or one which starts at the sample. -/
theorem Selects.proving (h : Selects s o d) (hp : Proving d.state since profile key) :
    Proving s since profile key ∨ since = o.observedAtMs := by
  have unproven (hn : d.state.verifySinceMs = none) : False := by
    simp [hp.verifySince] at hn
  cases h with
  | waits hw => cases hw; exact (unproven rfl).elim
  | waitsKnown hw => cases hw; exact (unproven rfl).elim
  | waitsSpent target ht hz hw => cases hw; exact (unproven rfl).elim
  | stable target ht hx hs =>
    obtain ⟨hv, hc, hf, -, -⟩ := proof_rearm s target.profile
    exact .inl (hp.congr nofun hv.symm (.inl hc.symm) (.inl hf.symm))
  | verifies target s' es s'' fs ht hx hv hplans ha =>
    obtain ⟨hrv, hrc, hrf, -, hrp⟩ := proof_rearm s target.profile
    obtain ⟨hsame, hfinal, -⟩ := hv.keepsProof
    obtain ⟨hpv, hpc, hpf, -, -⟩ := hplans.keepsProof
    obtain ⟨hav, hac, haf⟩ := ha.keepsProof
    have hsince : s'.verifySinceMs = some since :=
      hpv.symm.trans (hav.symm.trans hp.verifySince)
    rcases hsame with ⟨⟨hphase, ⟨c, hc, -, hkey⟩, -⟩, hsv, hsc⟩ | hstart
    · have hverify : s.verifySinceMs = some since := hrv.symm.trans (hsv.symm.trans hsince)
      have hcand : d.state.candidate = s.candidate := hac.trans (hpc.trans (hsc.trans hrc))
      have hverifying : s.phase = .verifying := hrp.symm.trans hphase
      cases hp with
      | verifying c' hp' hv' hc' => exact .inl (.verifying c' hverifying hverify (hcand.symm.trans hc'))
      | pending a ha' hl' hv' =>
        rcases haf with heq | ⟨-, c', hc', b, hb, hprofile, hkey'⟩
        · have hslot : s.finalization = some a :=
            hrf.symm.trans (hfinal.symm.trans (hpf.symm.trans (heq.symm.trans ha')))
          exact .inl (.pending a hslot hl' hverify)
        · obtain rfl := Option.some.inj (ha'.symm.trans hb)
          have hcs : s.candidate = some c' := hcand.symm.trans (hac.trans hc')
          obtain rfl : c = c' := Option.some.inj (hc.symm.trans (hrc.trans hcs))
          rw [hprofile, hkey', ← hkey]
          exact .inl (.verifying c hverifying hverify hcs)
    · exact .inr (Option.some.inj (hsince.symm.trans hstart))
  | applies target ht hz hx action ha hk =>
    cases hp with
    | verifying c hp' hv' hc' => cases hp'
    | pending a ha' hl' hv' => exact .inl (.pending a ha' hl' hv')
  | _ => exact (unproven rfl).elim

theorem Settles.proving (h : Settles s o s') (hp : Proving s' since profile key) :
    Proving s since profile key := by
  cases h with
  | external he =>
    have hv := hp.verifySince
    dsimp only [acceptExternal] at hv
    split at hv
    · cases hv
    next hi =>
      refine hp.congr id ?_ (.inl ?_) (.inl rfl)
      · exact (if_neg hi).symm
      · exact (if_neg hi).symm
  | unplugged he hu =>
    cases hu with
    | unneeded hi => exact hp.congr id rfl (.inl rfl) (.inl rfl)
    | complete proof hi hproof hc => exact hp.congr id rfl (.inl rfl) (.inl rfl)

theorem proving_retainFailure (hr : retainFailure s o = (s', false))
    (hp : Proving s' since profile key) : Proving s since profile key := by
  rcases retainFailure_cases s o with h | h | ⟨-, h⟩ | ⟨-, h⟩ | ⟨-, h⟩
  · cases congrArg Prod.snd (h.symm.trans hr)
  all_goals
    obtain rfl := congrArg Prod.fst (h.symm.trans hr)
    first
      | exact hp
      | exact hp.congr nofun rfl (.inl rfl) (by first | exact .inl rfl | exact .inr rfl)

theorem Classifies.proving (h : Classifies s o d) (hp : Proving d.state since profile key) :
    Proving s since profile key ∨ since = o.observedAtMs := by
  cases h with
  | unplugging s' he hu =>
    cases hu with
    | incomplete proof hi hproof hc => cases hp.verifySince
  | retained s' hs hr => exact .inl (hs.proving (hp.congr id rfl (.inl rfl) (.inl rfl)))
  | selected s' s'' hs hr hd =>
    exact (hd.proving hp).imp_left fun hp => hs.proving (proving_retainFailure hr hp)

theorem keepProof_cases (h : keepProof s o.observedAtMs = some since) :
    s.verifySinceMs = some since ∨ s.verifySinceMs = none ∧ since = o.observedAtMs := by
  unfold keepProof at h
  split at h
  next hn => exact .inr ⟨hn, (Option.some.inj h).symm⟩
  next since' hv => exact .inl (hv.trans h)

/-- While a preparation runs or awaits its confirmation, a proof which the sample keeps is the one
of the verification. -/
theorem Proving.of_active (hs : Suspended s) (hc : s.Control) {a : PreparationAction}
    (ha : s.preparation = some a) (hl : a.lifecycle = .dispatched ∨ a.lifecycle = .resultPending)
    (hv : keepProof s o.observedAtMs = some since) (hcand : s'.candidate = s.candidate)
    (hfinal : s'.finalization = s.finalization) (hp : Proving s' since profile key) :
    Proving s since profile key ∨ since = o.observedAtMs := by
  rcases keepProof_cases hv with hkept | ⟨-, hstart⟩
  · have hactive : s.preparationState.active = true := by
      rw [hc.preparation_flying ha hl]
      rfl
    have hphase : s.phase = .verifying := by
      by_contra hn
      simp [hs hactive hn] at hkept
    refine .inl (hp.congr (fun _ => hphase) ?_ (.inl hcand.symm) (.inl hfinal.symm))
    exact hkept.trans hp.verifySince.symm
  · exact .inr hstart

theorem Frees.proving (h : Frees s prior o s' es) (hs : Suspended s) (hc : s.Control)
    (hp : Proving s' since profile key) :
    Proving s since profile key ∨ since = o.observedAtMs := by
  cases h with
  | entered ht hr => cases hp.verifySince
  | idle ht hb =>
    obtain ⟨phase, aggressive, index, hphase, heq⟩ := leaveSlowWait_eq s prior o
    rw [heq] at hp
    refine .inl (hp.congr (fun hq => ?_) rfl (.inl rfl) (.inl rfl))
    rcases hphase with hsame | ⟨-, hfast⟩
    · exact hsame.symm.trans hq
    · cases hfast.symm.trans hq
  | cancelled ht hcancel =>
    cases hcancel with
    | probe a ha hl hno => exact .inl (hp.congr nofun rfl (.inl rfl) (.inl rfl))
    | application a ha hl hno => exact .inl (hp.congr nofun rfl (.inl rfl) (.inl rfl))
    | preparation a ha hl hno => cases hp.verifySince
    | finalization a ha hl hno => cases hp.verifySince
  | concluded a b ht ha hl he hb hbl =>
    refine Proving.of_active hs hc ha (.inr hl) hp.verifySince ?_ ?_ hp <;> rfl

/-- A sample leaves the proof which it found, or one which starts at the sample. -/
theorem Observed.proving (h : Observed s prior o d) (hs : Suspended s) (hc : s.Control)
    (hp : Proving d.state since profile key) :
    Proving s since profile key ∨ since = o.observedAtMs := by
  have unproven (hn : d.state.verifySinceMs = none) : False := by
    simp [hp.verifySince] at hn
  cases h with
  | revoked r s' es t hv hl hr ht =>
    refine (unproven ?_).elim
    cases hr with
    | desktop hw => cases hw <;> rfl
    | probe a ha => rfl
    | application a ha => rfl
  | invalid phase t hv hn hp ht => exact (unproven rfl).elim
  | invalidInternal a t hv ha hi ht => exact (unproven rfl).elim
  | internal a t hv ha hi ht => exact (unproven rfl).elim
  | stopping w t hv hw hl ht => exact .inl (hp.congr id rfl (.inl rfl) (.inl rfl))
  | stopped r s' t hv hstops hi hchanged ht =>
    cases hstops with
    | probe a ha hl => exact .inl (hp.congr id rfl (.inl rfl) (.inl rfl))
    | application a ha hl => exact .inl (hp.congr id rfl (.inl rfl) (.inl rfl))
    | preparation a ha hl => exact (unproven rfl).elim
    | finalization a ha hl => exact (unproven rfl).elim
  | refused s' t hv hrefuses ht hx hq =>
    cases hrefuses with
    | finalization a b v ha hl hb hbl hv' =>
      cases hp with
      | verifying c hphase hsince hcand => cases hphase
      | pending a' ha' hl' hsince =>
        obtain rfl : b = a' := Option.some.inj ha'
        simp [hbl] at hl'
    | preparation a b ha hl hb hbl => exact (unproven rfl).elim
  | running t hv ht hr hd => exact .inl (hp.congr id rfl (.inl rfl) (.inl rfl))
  | completed a hv ha hl he =>
    cases hp with
    | verifying c hphase hsince hcand => cases hphase
    | pending a' ha' hl' hsince => cases ha'
  | uncertain a t hv ht ha hl he hd => exact (unproven rfl).elim
  | preparing a t hv ht ha hl he hd =>
    refine Proving.of_active hs hc ha (.inl hl) hp.verifySince ?_ ?_ hp <;> rfl
  | confirmed s' eff hv ht hconfirm =>
    cases hconfirm with
    | probe a ha hl hyes => exact .inl (hp.congr id rfl (.inl rfl) (.inl rfl))
    | application a ha hl hyes => exact .inl (hp.congr id rfl (.inl rfl) (.inl rfl))
    | preparation a ha hl hyes => exact .inl (hp.congr id rfl (.inl rfl) (.inl rfl))
    | finalization a ha hl hyes =>
      cases hp with
      | verifying c hphase hsince hcand => exact .inl (.verifying c hphase hsince hcand)
      | pending a' ha' hl' hsince =>
        obtain rfl := Option.some.inj ha'
        exact .inl (.pending a ha hl hsince)
  | classified s' es d hv hf hclass =>
    rcases hclass.proving hp with hp | hstart
    · exact hf.proving hs hc hp
    · exact .inr hstart

end Samples

section Steps

variable {s : State} {e : Event} {d : Decision} {since : Nat} {profile : Text}
  {key : ObservationKey}

/-- A hint leaves no proof, and its time is remembered. -/
theorem Step.hinted_unproven (h : Step s e d) (hh : Hinted s e) :
    d.state.verifySinceMs = none ∧ d.state.lastDrmAtMs = some e.metadata.processedAtMs := by
  obtain ⟨hn, hhint⟩ := hh
  cases h with
  | ignored e hi => exact absurd hi hn
  | hinted e s' es t hb hg ht hh =>
    cases hh with
    | withdrawn hl hw => cases hw <;> exact ⟨rfl, rfl⟩
    | reopened hq hf hp => exact ⟨rfl, rfl⟩
    | kept hp => exact ⟨rfl, rfl⟩
  | dirtied e r s' es t hb hr he hl hg ht hw =>
    subst ht
    rcases hw with hw | ⟨-, rfl, -⟩
    · cases hw <;> exact ⟨rfl, rfl⟩
    · exact ⟨rfl, rfl⟩
  | stopRepeated e r t hr hl he ht => rcases hhint with ⟨g, rfl⟩ | ⟨g, rfl⟩ <;> cases he
  | closed e r l v es t hr hk he hl hv hes ht =>
    rcases hhint with ⟨g, rfl⟩ | ⟨g, rfl⟩ <;> cases he.reports
  | failed e r r' phase es t hr hc hf he hp hes =>
    rcases hhint with ⟨g, rfl⟩ | ⟨g, rfl⟩ <;> cases he.fails
  | preparationReported e a b t ha he hb hl ht =>
    rcases hhint with ⟨g, rfl⟩ | ⟨g, rfl⟩ <;> cases he.reports
  | finalizationReported e a b t ha he hb hl ht =>
    rcases hhint with ⟨g, rfl⟩ | ⟨g, rfl⟩ <;> cases he.reports
  | doubted e r v t hr hk hl he ht => rcases hhint with ⟨g, rfl⟩ | ⟨g, rfl⟩ <;> cases he
  | _ => rcases hhint with ⟨g, ⟨⟩⟩ | ⟨g, ⟨⟩⟩

/-- A step leaves the proof which it found, or one which starts at its sample. -/
theorem Step.proving (h : Step s e d) (hs : Sound s) (hi : Suspended s)
    (hp : Proving d.state since profile key) :
    Proving s since profile key ∨ ∃ o, Accepts s e o ∧ since = o.observedAtMs := by
  have unproven (hn : d.state.verifySinceMs = none) : False := by
    simp [hp.verifySince] at hn
  have unhinted (hh : Hinted s e) : False := unproven (h.hinted_unproven hh).1
  cases h with
  | ignored e hi => exact .inl hp
  | observed e hb hf ho =>
    have hcore := (hs.recorded (e.same_boot.trans hb) hf).toCore
    rcases ho.proving hi hcore.control hp with hp | hstart
    · refine .inl (hp.congr id rfl ?_ (.inl rfl))
      rcases bars_strip s (e.observation.hasExternalHardware = true ∧ internalCandidate s) with heq | heq
      · exact .inl heq.symm
      · exact .inr heq
    · exact .inr ⟨e.observation, ⟨e, rfl, rfl, hb, hf⟩, hstart⟩
  | hinted e s' es t hb hg ht hh =>
    refine (unhinted ⟨?_, .inl ⟨e, rfl⟩⟩).elim
    rintro (hn | hn)
    · exact hn hb
    · exact absurd hn (Nat.not_le.mpr hg)
  | dirtied e r s' es t hb hr he hl hg ht hw =>
    refine (unhinted ⟨?_, .inr ⟨e, rfl⟩⟩).elim
    rintro (hn | hn | hn)
    · exact hn hb
    · exact absurd hn (Nat.not_le.mpr hg)
    · exact hn r hr he hl
  | finalizationDispatched e a w ha hl hid hd =>
    cases hp with
    | verifying c hphase hsince hcand => cases hphase
    | pending a' ha' hl' hsince =>
      obtain rfl := Option.some.inj ha'
      have hdispatched : w.lifecycle = .dispatched := by rw [hd]; rfl
      cases hdispatched.symm.trans hl'
  | planRetried e p t hpl hst hid hk hr ht => exact (unproven rfl).elim
  | closed e r l v es t hr hk he hl hv hes ht =>
    cases hp with
    | verifying c hphase hsince hcand => cases hphase
    | pending a' ha' hl' hsince =>
      have hsince : v = some since := hsince
      have hverify : s.verifySinceMs = some since := by
        rcases hv with rfl | rfl
        · cases hsince
        · exact hsince
      cases r with
      | planning a => exact absurd rfl hk
      | finalization a => cases ha'
      | probe a => exact .inl (.pending a' ha' hl' hverify)
      | application a => exact .inl (.pending a' ha' hl' hverify)
      | preparation a => exact .inl (.pending a' ha' hl' hverify)
  | failed e r r' phase es t hr hc hf he hphase hes =>
    cases hc with
    | planning a l x =>
      refine .inl (hp.congr (fun hq => ?_) rfl (.inl rfl) (.inl rfl))
      rcases hphase with rfl | ⟨hkind, -⟩
      · exact hq
      · cases hkind
    | preparation a w hk hw =>
      refine .inl (hp.congr (fun hq => ?_) rfl (.inl rfl) (.inl rfl))
      rcases hphase with rfl | ⟨-, rfl⟩
      · exact hq
      · cases hq
    | finalization a w hk hw =>
      cases hp with
      | verifying c hq hsince hcand =>
        rcases hphase with rfl | ⟨hkind, -⟩
        · cases hq
        · cases hkind
      | pending a' ha' hl' hsince =>
        obtain rfl := Option.some.inj ha'
        have hf : w.lifecycle.failedLifecycle = true := hf
        have hl' : w.lifecycle = .admitted := hl'
        simp [hl', ActionLifecycle.failedLifecycle] at hf
    | _ =>
      refine .inl (hp.congr (fun hq => ?_) rfl (.inl rfl) (.inl rfl))
      rcases hphase with rfl | ⟨hkind, -⟩
      · cases hq
      · cases hkind
  | finalizationReported e a b t ha he hb hl ht =>
    cases hp with
    | verifying c hphase hsince hcand => cases hphase
    | pending a' ha' hl' hsince =>
      obtain rfl : b = a' := Option.some.inj ha'
      simp [hl] at hl'
  | doubted e r v t hr hk hl he ht =>
    cases r with
    | planning a => exact absurd rfl hk
    | probe a => exact .inl (hp.congr (by rintro ⟨⟩) rfl (.inl rfl) (.inl rfl))
    | application a => exact .inl (hp.congr (by rintro ⟨⟩) rfl (.inl rfl) (.inl rfl))
    | preparation a => exact (unproven rfl).elim
    | finalization a => exact (unproven rfl).elim
  | restarted e a s' es t ha hl hw ht => exact (unproven rfl).elim
  | retried e a t ha hp ht => exact (unproven rfl).elim
  | resumed e v es t hq hv hes =>
    have hsince : v = some since := hp.verifySince
    have hverify : s.verifySinceMs = v := by
      split at hv
      · simp [hv] at hsince
      · exact hv.symm
    exact .inl (hp.congr id hverify (.inl rfl) (.inl rfl))
  | booted e hb => exact (unproven rfl).elim
  | _ => exact .inl (hp.congr (by first | exact id | rintro ⟨⟩) rfl (.inl rfl) (.inl rfl))

theorem Classifies.suspended {o : CanonicalObservation} (h : Classifies s o d)
    (hi : s.preparationState.active = false) (ha : d.state.preparationState.active = true) :
    d.state.phase = .verifying := by
  have settled {t : State} (hs : Settles s o t) : t.preparationState = s.preparationState := by
    cases hs with
    | external he => rfl
    | unplugged he hu => cases hu <;> rfl
  have same (heq : d.state.preparationState = s.preparationState) : d.state.phase = .verifying := by
    rw [heq, hi] at ha
    cases ha
  cases h with
  | unplugging s' he hu => cases hu; exact same rfl
  | retained s' hs hr =>
    have heq := settled hs
    exact same heq
  | selected s' s'' hs hr hd =>
    refine hd.suspended ?_ ha
    have heq := settled hs
    rcases retainFailure_cases s' o with h | h | ⟨-, h⟩ | ⟨-, h⟩ | ⟨-, h⟩ <;>
      cases h.symm.trans hr <;> exact (congrArg PreparationState.active heq).trans hi

/-- Outside a verification an active preparation stays without a proof. -/
theorem Step.suspended (h : Step s e d) (hs : Sound s) (hd : Sound d.state) (hi : Suspended s) :
    Suspended d.state := by
  intro hact hphase
  have hq := (hd.active_phase hact).resolve_left hphase
  have live {r : ActionRecord} (hr : r ∈ s.actions) (hk : r.kind ≠ .plan)
      (hl : r.lifecycle.mutatingInFlight = true) (hsame : s.preparationState.active = true) :
      r.kind = .preparation := by
    obtain ⟨hprobe, happ, hfin⟩ := hs.control.active_alone hsame
    cases r with
    | probe a => exact absurd (State.probe_of_mem hr) (by simp [hprobe])
    | application a => exact absurd (State.application_of_mem hr) (by simp [happ])
    | planning a => exact absurd rfl hk
    | preparation a => rfl
    | finalization a => exact absurd (State.finalization_of_mem hr) (by simp [hfin])
  cases h with
  | ignored e hn => exact hi hact hphase
  | observed e hb hf ho =>
    cases ho with
    | revoked r s' es t hv hl hr ht =>
      cases hr with
      | desktop hw => cases hw <;> rfl
      | probe a ha => rfl
      | application a ha => rfl
    | stopping w t hv hw hl ht => exact hi hact hphase
    | stopped r s' t hv hstops hno hchanged ht =>
      cases hstops with
      | probe a ha hl => exact hi hact hphase
      | application a ha hl => exact hi hact hphase
      | preparation a ha hl => rfl
      | finalization a ha hl => rfl
    | refused s' t hv hrefuses ht hx hr =>
      cases hrefuses with
      | finalization a b v ha hl hb hbl hv' => cases hq
      | preparation a b ha hl hb hbl => rfl
    | running t hv ht hr hrun => exact hi hact hphase
    | completed a hv ha hl he => cases hq
    | preparing a t hv ht ha hl he hrun => cases hq
    | confirmed s' eff hv ht hconfirm => cases hconfirm <;> exact hi hact hphase
    | classified s' es d hv hfrees hclass =>
      have hfree := (hs.recorded (e.same_boot.trans hb) hf).free hv hfrees
      exact absurd (hclass.suspended hfree.inactive hact) hphase
    | _ => rfl
  | hinted e s' es t hb hg ht hh =>
    cases hh with
    | withdrawn hl hw => cases hw <;> rfl
    | reopened hq hf hp => rfl
    | kept hp => rfl
  | dirtied e r s' es t hb hr he hl hg ht hw =>
    rcases hw with hw | ⟨-, rfl, -⟩
    · cases hw <;> rfl
    · rfl
  | probeDispatched e a w ha hl hid hdis => cases hq
  | applicationDispatched e a w ha hl hid hdis => cases hq
  | finalizationDispatched e a w ha hl hid hdis => cases hq
  | preparationDispatched e a w ha hl hid hdis =>
    refine hi ?_ hphase
    rcases hs.control.preparation_state ha with ⟨-, hst⟩ | ⟨hl', -⟩ | ⟨hl', -⟩ | ⟨hl', -⟩
    · rw [hst]
      rfl
    all_goals simp [hl, ActionLifecycle.terminal] at hl'
  | planRetried e p t hp hst hid hk hr ht => rfl
  | closed e r l v es t hr hk he hl hv hes ht =>
    rcases hv with rfl | rfl
    · rfl
    · cases r with
      | planning a => exact absurd rfl hk
      | preparation a => cases hact
      | probe a => cases live hr hk he.live.1 hact
      | application a => cases live hr hk he.live.1 hact
      | finalization a => cases live hr hk he.live.1 hact
  | failed e r r' phase es t hr hc hf he hphase' hes =>
    cases hc with
    | planning a l x =>
      rcases hphase' with rfl | ⟨hkind, -⟩
      · exact hi hact hphase
      · cases hkind
    | preparation a w hk hw => cases hact
    | _ =>
      rcases hphase' with rfl | ⟨hkind, -⟩
      · cases hq
      · cases hkind
  | preparationReported e a b t ha he hb hl ht =>
    refine hi ?_ hphase
    have hlive := he.live.1
    rcases hs.control.preparation_state ha with ⟨hl', -⟩ | ⟨-, hst⟩ | ⟨-, hst⟩ | ⟨hl', -⟩
    · have hl' : (ActionRecord.preparation a).lifecycle = .admitted := hl'
      simp [hl', ActionLifecycle.mutatingInFlight] at hlive
    · rw [hst]
      rfl
    · rw [hst]
      rfl
    · have hflying := ActionLifecycle.not_inFlight_of_terminal hl'
      exact absurd (hlive.symm.trans hflying) (by decide)
  | finalizationReported e a b t ha he hb hl ht => cases hq
  | doubted e r v t hr hk hl he ht =>
    cases r with
    | planning a => exact absurd rfl hk
    | probe a => cases hq
    | application a => cases hq
    | preparation a => rfl
    | finalization a => rfl
  | restarted e a s' es t ha hl hw ht => rfl
  | retried e a t ha hp ht => rfl
  | resumed e v es t hprep hv hes =>
    have hphase' : s.phase ≠ .verifying := hphase
    rw [if_neg hphase'] at hv
    exact hv.trans (hi hact hphase)
  | booted e hb => rfl
  | _ => exact hi hact hphase

theorem Reachable.suspended (hr : Reachable s) : Suspended s := by
  refine Runs.Reachable.invariant (P := Suspended) ?_ ?_ hr
  · rintro _ ⟨_, _, _, _, rfl⟩ -
    exact fun _ => rfl
  · rintro s e d _ hr hi ⟨hd, rfl⟩
    have hs := Reachable.sound hr
    obtain ⟨-, hstep, -, hsound⟩ := hs.reduces hd
    exact hstep.suspended hs hsound hi

theorem Frees.lastDrm {prior : Option CanonicalObservation} {o : CanonicalObservation} {s' : State}
    {es : List Effect} (h : Frees s prior o s' es) : s'.lastDrmAtMs = s.lastDrmAtMs := by
  cases h with
  | entered ht hr => rfl
  | idle ht hb =>
    unfold leaveSlowWait
    split <;> rfl
  | cancelled ht hc => cases hc <;> rfl
  | concluded a b ht ha hl he hb hbl => rfl

theorem Observed.lastDrm {prior : Option CanonicalObservation} {o : CanonicalObservation}
    (h : Observed s prior o d) : d.state.lastDrmAtMs = s.lastDrmAtMs := by
  cases h with
  | revoked r s' es t hv hl hr ht =>
    cases hr with
    | desktop hw => cases hw <;> rfl
    | probe a ha => rfl
    | application a ha => rfl
  | stopped r s' t hv hs hi hc ht => cases hs <;> rfl
  | refused s' t hv hs ht hc => cases hs <;> rfl
  | confirmed s' eff hv ht hc => cases hc <;> rfl
  | classified s' es d hv hf hc => exact hc.frame.lastDrmAtMs.trans hf.lastDrm
  | _ => rfl

theorem Step.lastDrm (h : Step s e d) :
    d.state.lastDrmAtMs = s.lastDrmAtMs ∨ Hinted s e ∨ Reboots s e := by
  cases h with
  | observed e hb hf ho => exact .inl ho.lastDrm
  | hinted e s' es t hb hg ht hh =>
    refine .inr (.inl ⟨?_, .inl ⟨e, rfl⟩⟩)
    rintro (hn | hn)
    · exact hn hb
    · exact absurd hn (Nat.not_le.mpr hg)
  | dirtied e r s' es t hb hr he hl hg ht hw =>
    refine .inr (.inl ⟨?_, .inr ⟨e, rfl⟩⟩)
    rintro (hn | hn | hn)
    · exact hn hb
    · exact absurd hn (Nat.not_le.mpr hg)
    · exact hn r hr he hl
  | closed e r l v es t hr hk he hl hv hes ht => cases r <;> exact .inl rfl
  | failed e r r' phase es t hr hc hf he hp hes => cases r' <;> exact .inl rfl
  | doubted e r v t hr hk hl he ht => cases r <;> exact .inl rfl
  | restarted e a s' es t ha hl hw ht => cases hw; exact .inl rfl
  | booted e hb => exact .inr (.inr ⟨e, rfl, hb⟩)
  | _ => exact .inl rfl

theorem Selects.quiet {o : CanonicalObservation} (h : Selects s o d) :
    d.state.finalization = s.finalization ∨ eventQuiet s o.observedAtMs = true := by
  cases h with
  | waits hw => cases hw; exact .inl rfl
  | waitsKnown hw => cases hw; exact .inl rfl
  | waitsSpent target ht hz hw => cases hw; exact .inl rfl
  | stable target ht hx hs => exact .inl (proof_rearm s target.profile).2.2.1
  | verifies target s' es s'' fs ht hx hv hp ha =>
    have hframe := ((frame_rearm (clearUnknown s) target.profile).trans hv.frame).lastDrmAtMs
    have hframe' := hp.frame.lastDrmAtMs
    rcases ha.keepsProof.2.2 with heq | ⟨hquiet, -⟩
    · exact .inl (heq.trans (hp.keepsProof.2.2.1.trans
        (hv.keepsProof.2.1.trans (proof_rearm s target.profile).2.2.1)))
    · refine .inr ?_
      unfold eventQuiet at hquiet ⊢
      rwa [hframe'.trans hframe] at hquiet
  | _ => exact .inl rfl

/-- A pending finalization was pending before, or is admitted in quiet on an accepted sample. -/
theorem Step.pends (h : Step s e d) (hs : Sound s) {a : FinalizationAction}
    (ha : d.state.finalization = some a) (hl : a.lifecycle = .admitted) :
    (∃ b, s.finalization = some b ∧ b.lifecycle = .admitted ∧ b.actionId = a.actionId) ∨
      (∀ b ∈ s.finalization, b.actionId ≠ a.actionId) ∧
        ∃ o, Accepts s e o ∧ ∀ last ∈ s.lastDrmAtMs, last + eventQuietMs ≤ o.observedAtMs := by
  have kept {t : State} (hk : Kept s t) (ht : t.finalization = some a) :
      ∃ b, s.finalization = some b ∧ b.lifecycle = .admitted ∧ b.actionId = a.actionId := by
    obtain ⟨b, hb, hcarries⟩ := hk.finalization.of_mem ht
    exact ⟨b, hb, hcarries.admitted hl, hcarries.actionId.symm⟩
  rcases h.cases_on with ⟨hk, -⟩ | ⟨f, rfl, hb, hf, hv, ⟨s', es, d', hfrees, hc⟩⟩
  · exact .inl (kept hk ha)
  · have hbefore : Kept s s' := (stays_recordObservation s f.observation).toKept.trans hfrees.kept
    cases hc.chooses with
    | kept hk => exact .inl (kept (hbefore.trans hk) ha)
    | selects s₁ s₂ hset hr hk hd =>
      have hchain := hbefore.trans hk
      rcases hd.quiet with heq | hquiet
      · exact .inl (kept hchain (heq.symm.trans ha))
      · have hrenews := hd.frame.finalization
        rw [show d'.state.finalization = some a from ha] at hrenews
        generalize hx : s₂.finalization = x at hrenews
        cases hrenews with
        | kept => exact .inl (kept hchain hx)
        | filled b hnew _ =>
          refine .inr ⟨fun b hb hid => ?_, f.observation, ⟨f, rfl, rfl, ‹_›, hf⟩, fun last hlast => ?_⟩
          · have hbound := (hs.identities.finalization b hb).1.bounded
            have hbound : b.actionId.sequence ≤ s.actionSequenceHighWater := hbound
            rw [hid, ← hchain.actionMark] at hbound
            exact absurd hnew (Nat.not_lt.mpr hbound)
          · have hretain := (frame_retainFailure s₁ f.observation).lastDrmAtMs
            rw [hr] at hretain
            have hlast' : s₂.lastDrmAtMs = some last :=
              (hretain.trans (hset.frame.lastDrmAtMs.trans hfrees.lastDrm)).trans hlast
            simpa [eventQuiet, hlast'] using hquiet

end Steps

section Runs

variable {ms : List (Runs.Move State Event Decision)} {s : State}

/-- Since a sample of the time every accepted sample was exact on the evidence, and no hint was
accepted. -/
def Continuous (ms : List (Runs.Move State Event Decision)) (since : Nat) (profile : Text)
    (key : ObservationKey) : Prop :=
  ∃ newer first older o, ms = newer ++ first :: older ∧ Accepts first.before first.event o ∧
    o.observedAtMs = since ∧ ExactOn o profile key ∧
    ∀ m ∈ newer, ¬ Hinted m.before m.event ∧
      ∀ o', Accepts m.before m.event o' → ExactOn o' profile key

/-- The last hint of the boot was processed long enough before the time. -/
def QuietAt (ms : List (Runs.Move State Event Decision)) (t : Nat) : Prop :=
  ∀ newer hint older, ms = newer ++ hint :: older → Hinted hint.before hint.event →
    (∀ m ∈ newer, ¬ Hinted m.before m.event ∧ ¬ Reboots m.before m.event) →
    hint.event.metadata.processedAtMs + eventQuietMs ≤ t

/-- An accepted sample admitted the finalization, long enough after the last hint of the boot. -/
def AdmitsQuietly (ms : List (Runs.Move State Event Decision)) (a : ActionId) : Prop :=
  ∃ newer m older o, ms = newer ++ m :: older ∧ Accepts m.before m.event o ∧
    (∀ b ∈ m.before.finalization, b.actionId ≠ a) ∧ (∃ b ∈ m.after.finalization, b.actionId = a) ∧
    QuietAt ms o.observedAtMs

theorem latest_of_accepts {e : Event} {d : Decision} (h : Step s e d) {o : CanonicalObservation}
    (ho : Accepts s e o) : d.state.latestObservation = some o := by
  obtain ⟨f, rfl, rfl, hb, hf⟩ := ho
  exact (observed_of_step h hb hf).latest

theorem continuous {since : Nat} {profile : Text} {key : ObservationKey} (h : Run ms s)
    (hp : Proving s since profile key) : Continuous ms since profile key := by
  induction h with
  | start h =>
    obtain ⟨_, _, _, _, rfl⟩ := h
    cases hp.verifySince
  | @move ms s e d s' hr hs ih =>
    obtain ⟨hd, rfl⟩ := hs
    have hreach : Reachable s := hr.reachable
    obtain ⟨-, hstep, -, hsound⟩ := hreach.sound.reduces hd
    have hexact {o : CanonicalObservation} (ho : Accepts s e o) : ExactOn o profile key := by
      obtain ⟨o', ho', hexact⟩ := hsound.proving hp
      obtain rfl := Option.mem_unique (latest_of_accepts hstep ho) ho'
      exact hexact
    rcases hstep.proving hreach.sound hreach.suspended hp with hold | ⟨o, ho, rfl⟩
    · obtain ⟨newer, first, older, o, rfl, ho, hat, hfirst, hall⟩ := ih hold
      refine ⟨_ :: newer, first, older, o, rfl, ho, hat, hfirst, fun m hm => ?_⟩
      rcases List.mem_cons.mp hm with rfl | hm
      · refine ⟨fun hh => ?_, fun o' ho' => hexact ho'⟩
        cases hp.verifySince.symm.trans (hstep.hinted_unproven hh).1
      · exact hall m hm
    · exact ⟨[], _, ms, o, rfl, ho, rfl, hexact ho, by simp⟩

theorem quiet_of_lastDrm {t : Nat} (h : Run ms s)
    (ht : ∀ last ∈ s.lastDrmAtMs, last + eventQuietMs ≤ t) : QuietAt ms t := by
  rintro newer hint older rfl hhint hnone
  refine ht _ ?_
  clear ht
  induction newer generalizing s with
  | nil =>
    cases h with
    | move hr hs =>
      obtain ⟨hd, rfl⟩ := hs
      obtain ⟨-, hstep, -⟩ := (Reachable.sound hr.reachable).reduces hd
      exact (hstep.hinted_unproven hhint).2
  | cons n newer ih =>
    cases h with
    | move hr hs =>
      obtain ⟨hd, rfl⟩ := hs
      obtain ⟨-, hstep, -⟩ := (Reachable.sound hr.reachable).reduces hd
      have hlast := ih hr fun m hm => hnone m (List.mem_cons_of_mem _ hm)
      obtain ⟨hhinted, hreboots⟩ := hnone _ List.mem_cons_self
      rcases hstep.lastDrm with heq | hh | hb
      · exact heq.trans hlast
      · exact absurd hh hhinted
      · exact absurd hb hreboots

theorem QuietAt.cons {m : Runs.Move State Event Decision} {t : Nat} (h : QuietAt ms t)
    (hm : ¬ Hinted m.before m.event) : QuietAt (m :: ms) t := by
  intro newer hint older heq hhint hnone
  cases newer with
  | nil =>
    obtain ⟨rfl, -⟩ := List.cons.inj heq
    exact absurd hhint hm
  | cons n newer =>
    obtain ⟨-, rfl⟩ := List.cons.inj heq
    exact h newer hint older rfl hhint fun k hk => hnone k (List.mem_cons_of_mem _ hk)

theorem admits_quietly {a : FinalizationAction} (h : Run ms s) (ha : s.finalization = some a)
    (hl : a.lifecycle = .admitted) : AdmitsQuietly ms a.actionId := by
  induction h generalizing a with
  | start h =>
    obtain ⟨_, _, _, _, rfl⟩ := h
    cases ha
  | @move ms s e d s' hr hs ih =>
    obtain ⟨hd, rfl⟩ := hs
    have hreach : Reachable s := hr.reachable
    obtain ⟨-, hstep, -, hsound⟩ := hreach.sound.reduces hd
    have hunhinted : ¬ Hinted s e := by
      intro hh
      obtain ⟨⟨t, ht, -⟩, -⟩ := hsound.pending.finalization a ha hl
      cases ((hstep.hinted_unproven hh).1).symm.trans ht
    rcases hstep.pends hreach.sound ha hl with ⟨b, hb, hbl, hid⟩ | ⟨hnew, o, ho, hquiet⟩
    · obtain ⟨newer, m, older, o, rfl, ho, hnew, hadmits, hquiet⟩ := ih hb hbl
      rw [hid] at hnew hadmits
      exact ⟨_ :: newer, m, older, o, rfl, ho, hnew, hadmits, hquiet.cons hunhinted⟩
    · exact ⟨[], _, ms, o, rfl, ho, hnew, ⟨a, ha, rfl⟩, (quiet_of_lastDrm hr hquiet).cons hunhinted⟩

end Runs

/-- A finalization is launched only on a continuous proof, long enough after the last hint of the
boot, for the desktop which is prepared and not finalized yet. -/
theorem finalizes_on_proof {ms : List (Runs.Move State Event Decision)} {s : State} (h : Run ms s)
    {e : Event} {d : Decision} (hd : reduce s e = .ok d) {f : FinalizeDesktop}
    (hf : .finalizeDesktop f ∈ d.effects) :
    ∃ o, Accepts s e o ∧ o.observationKey = f.observationKey ∧
      (∃ since, since + profileStabilityMs ≤ o.observedAtMs ∧
        Continuous (⟨s, e, d, d.state⟩ :: ms) since f.profile f.observationKey) ∧
      AdmitsQuietly (⟨s, e, d, d.state⟩ :: ms) f.actionId ∧
      d.state.preparationState = .prepared ∧
      (∃ p ∈ d.state.preparation, p.lifecycle = .completed ∧ p.transitionId = f.transitionId ∧
        p.transitionKey = f.transitionKey ∧ p.planHash = f.planHash ∧ p.profile = f.profile) ∧
      d.state.desktopFinalizedProfile ≠ some f.profile := by
  have hreach : Reachable s := h.reachable
  have hrun : Run (⟨s, e, d, d.state⟩ :: ms) d.state := .move h ⟨hd, rfl⟩
  obtain ⟨-, hstep, -, hsound⟩ := hreach.sound.reduces hd
  obtain ⟨c, rfl, hb, hfresh, hobs⟩ := hstep.launches hf rfl
  obtain ⟨-, ⟨r, hr, hl, heff, -⟩, -⟩ := hobs.launches hf rfl
  cases r with
  | finalization a =>
    obtain rfl := Effect.finalizeDesktop.inj heff
    have ha := State.finalization_of_mem hr
    have hl : a.lifecycle = .admitted := hl
    obtain ⟨⟨since, hsince, o, ho, hold⟩, o', ho', hexact, -⟩ := hsound.pending.finalization a ha hl
    have hlatest := hobs.latest
    obtain rfl : c.observation = o := Option.some.inj (hlatest.symm.trans ho)
    obtain rfl : c.observation = o' := Option.some.inj (hlatest.symm.trans ho')
    obtain ⟨p, hp, htransition, hkey, hhash, hprofile⟩ := hsound.desktop.prepared a ha
    have hprepared := hsound.control.prepared (by simp [ha])
    have hcontinuous := continuous hrun (.pending a ha hl hsince)
    rw [← hexact.key] at hcontinuous
    refine ⟨c.observation, ⟨c, rfl, rfl, hb, hfresh⟩, rfl, ⟨since, hold, hcontinuous⟩,
      admits_quietly hrun ha hl, hprepared, ⟨p, hp, ?_, htransition, hkey, hhash, hprofile⟩,
      (hsound.desktop.unfinalized a ha).symm⟩
    have hfits := hsound.control.preparation_fits
    rw [hprepared, Option.mem_def.mp hp] at hfits
    simpa [Fits, expectedPreparation] using hfits
  | _ => cases heff

namespace Scenario

/-- The preparation succeeds, and the panel still shows its profile. -/
def prepareFinished : Event :=
  .preparationFinished ⟨⟨metadata 4000, preparationId, .succeeded, some 0, preparationId_kind⟩, ⟨laptop⟩⟩
def finished : State := (follow prepared [prepareFinished]).get rfl

theorem finished_reachable : Reachable finished := prepared_reachable.follow (Option.some_get _).symm

def finalizing : Decision := decided finished (.observationCompleted (shown laptop laptop 4 5000)) rfl

def finalization : FinalizeDesktop :=
  ⟨⟨controller, .finalization, 3, by decide⟩, ⟨controller, 1, Nat.one_pos⟩,
    (finalizing.state.finalization.get rfl).transitionKey, laptop, ⟨laptop⟩, 0, ⟨laptop⟩, rfl⟩

/-- A hint late in one boot, and the desktop of the next one from its first millisecond. -/
def nextBoot : BootId := ⟨1⟩
def hintedLate : Event := .drmHintReceived ⟨metadata 500000, 1⟩
def rebooting : Event := .bootChanged ⟨⟨0, nextBoot⟩, boot, by decide⟩

def shownNext (generation observedAtMs : Nat)
    (h : { lit laptop laptop generation observedAtMs with bootId := nextBoot }.Accepted := by decide) :
    Event :=
  .observationCompleted
    ⟨⟨observedAtMs, nextBoot⟩, ⟨{ lit laptop laptop generation observedAtMs with bootId := nextBoot }, h⟩,
      rfl⟩

def late : Decision := decided fresh hintedLate rfl
def next : Decision := decided late.state rebooting rfl
def plannedNext : Decision := decided next.state (shownNext 1 0) rfl

def nextKey : PlanningInputKey := (plannedNext.state.planning.get rfl).inputKey
def nextPlan : ActionId := ⟨controller, .plan, 1, Nat.one_pos⟩
def nextPreparation : ActionId := ⟨controller, .preparation, 2, Nat.two_pos⟩

def requestedNext : Decision :=
  decided plannedNext.state (.planRequested ⟨⟨0, nextBoot⟩, nextPlan, nextKey, rfl⟩) rfl
def completedNext : Decision :=
  decided requestedNext.state
    (.planCompleted ⟨⟨0, nextBoot⟩, nextPlan, nextKey, ⟨laptop⟩, rfl⟩) rfl
def admittedNext : Decision := decided completedNext.state (shownNext 2 2000) rfl
def preparingNext : Decision :=
  decided admittedNext.state
    (.preparationDispatched
      ⟨⟨2000, nextBoot⟩, nextPreparation, ⟨nextPreparation, laptop⟩, rfl, rfl⟩) rfl
def finishedNext : Decision :=
  decided preparingNext.state
    (.preparationFinished
      ⟨⟨⟨3000, nextBoot⟩, nextPreparation, .succeeded, some 0, rfl⟩, ⟨laptop⟩⟩) rfl
def finalizingNext : Decision := decided finishedNext.state (shownNext 3 4000) rfl

def finalizationNext : FinalizeDesktop :=
  ⟨⟨controller, .finalization, 3, by decide⟩, ⟨controller, 1, Nat.one_pos⟩,
    (finalizingNext.state.finalization.get rfl).transitionKey, laptop, ⟨laptop⟩, 0, ⟨laptop⟩, rfl⟩

end Scenario

open Scenario in
theorem finalizes_on_proof_prepared :
    finalizing.state.preparationState = .prepared ∧
      finalizing.state.desktopFinalizedProfile ≠ some finalization.profile := by
  obtain ⟨ms, hrun⟩ := finished_reachable
  have hlaunched : .finalizeDesktop finalization ∈ finalizing.effects := by decide +kernel
  obtain ⟨o, -, -, -, -, hprepared, -, hnew⟩ :=
    finalizes_on_proof hrun (reduce_decided finished _ rfl) hlaunched
  exact ⟨hprepared, hnew⟩

open Scenario in
/-- The hint of an earlier boot does not delay a finalization. -/
theorem finalizes_after_boot : ¬ ∀ ms s, Run ms s → ∀ e d, reduce s e = .ok d →
    ∀ f : FinalizeDesktop, .finalizeDesktop f ∈ d.effects →
    ∃ newer m older o, ⟨s, e, d, d.state⟩ :: ms = newer ++ m :: older ∧
      Accepts m.before m.event o ∧ (∃ b ∈ m.after.finalization, b.actionId = f.actionId) ∧
      ∀ newer' hint older', ⟨s, e, d, d.state⟩ :: ms = newer' ++ hint :: older' →
        Hinted hint.before hint.event → (∀ k ∈ newer', ¬ Hinted k.before k.event) →
        hint.event.metadata.processedAtMs + eventQuietMs ≤ o.observedAtMs := by
  intro h
  have hrun : Run [_, _, _, _, _, _, _, _] finishedNext.state :=
    .move (.move (.move (.move (.move (.move (.move (.move (.start ⟨_, _, _, _, rfl⟩)
      ⟨reduce_decided fresh hintedLate rfl, rfl⟩) ⟨reduce_decided late.state rebooting rfl, rfl⟩)
      ⟨reduce_decided next.state (shownNext 1 0) rfl, rfl⟩)
      ⟨reduce_decided plannedNext.state _ _, rfl⟩) ⟨reduce_decided requestedNext.state _ _, rfl⟩)
      ⟨reduce_decided completedNext.state (shownNext 2 2000) rfl, rfl⟩)
      ⟨reduce_decided admittedNext.state _ _, rfl⟩) ⟨reduce_decided preparingNext.state _ _, rfl⟩
  have hlaunched : .finalizeDesktop finalizationNext ∈ finalizingNext.effects := by decide +kernel
  obtain ⟨newer, m, older, o, heq, ho, -, hquiet⟩ := h _ _ hrun _ finalizingNext
    (reduce_decided finishedNext.state (shownNext 3 4000) rfl) finalizationNext hlaunched
  have hearly : o.observedAtMs ≤ 4000 := by
    obtain ⟨f, hf, rfl, -⟩ := ho
    have hm : m ∈ newer ++ m :: older := by simp
    rw [← heq] at hm
    simp only [List.mem_cons, List.not_mem_nil, or_false] at hm
    rcases hm with rfl | rfl | rfl | rfl | rfl | rfl | rfl | rfl | rfl
    all_goals
      first
        | (cases hf; done)
        | (obtain rfl := Event.observationCompleted.inj hf; decide)
  have hlate := hquiet [_, _, _, _, _, _, _, _] _ [] rfl ?_ ?_
  · change 500000 + 3000 ≤ o.observedAtMs at hlate
    omega
  · refine ⟨?_, .inl ⟨_, rfl⟩⟩
    rintro (hn | hn)
    · exact hn rfl
    · exact absurd hn (by decide)
  · simp only [List.forall_mem_cons]
    refine ⟨?_, ?_, ?_, ?_, ?_, ?_, ?_, ?_, by simp⟩ <;> rintro ⟨-, ⟨g, ⟨⟩⟩ | ⟨g, ⟨⟩⟩⟩

end MonitorController
