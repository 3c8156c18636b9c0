import Mathlib.Algebra.Order.BigOperators.Group.List
import Mathlib.Algebra.Order.Ring.Nat
import MonitorController.Safety.Continuity
import MonitorController.Safety.Probes

/-! # Repeated loads

An attempt which was made before is repeated only by the capped slow wait. The
index of the backoff stands for the time which has passed, as long as no sample
comes before the tick which the wait scheduled.
-/

namespace MonitorController

def slowElapsedMs (index : Nat) : Nat := (slowDelaysMs.take index).sum

/-- The sample shows the profile exact and current. -/
def ShowsExactly (o : CanonicalObservation) (profile : Text) : Prop :=
  o.exactProfile = some profile ∧ profile ∈ o.currentProfiles

/-- The slow wait is at most kept. -/
def KeepsWait (s s' : State) : Prop :=
  s'.phase = .waitSlow → s.phase = .waitSlow ∧ s'.backoffIndex = s.backoffIndex

/-- If the index stood for the time which had passed at the sample, it does at the next tick. -/
def Paced (s : State) (o : CanonicalObservation) (s' : State) : Prop :=
  s'.phase = .waitSlow → ∃ t, s'.nextTimerMs = some t ∧ ∀ since ≤ o.observedAtMs,
    (s.phase = .waitSlow → since + slowElapsedMs s.backoffIndex ≤ o.observedAtMs) →
    since + slowElapsedMs s'.backoffIndex ≤ t

theorem slowElapsedMs_next (index : Nat) :
    slowElapsedMs (min (min index 3 + 1) 3) ≤
      slowElapsedMs index + slowDelaysMs.getD (min index 3) 0 := by
  match index with
  | 0 | 1 | 2 | 3 => decide
  | n + 4 =>
    have hcapped : min (n + 4) 3 = 3 := by omega
    have hall : slowElapsedMs (n + 4) = slowDelaysMs.sum :=
      congrArg List.sum (List.take_of_length_le (by simp [slowDelaysMs]))
    rw [hcapped, hall]
    decide

theorem slowElapsedMs_le (index : Nat) : slowElapsedMs index ≤ displayAsleepPollMs := by
  have hsum : slowElapsedMs index ≤ slowDelaysMs.sum :=
    (List.take_sublist index slowDelaysMs).sum_le_sum fun _ _ => Nat.zero_le _
  exact hsum.trans (by decide)

theorem slowElapsedMs_capped {index : Nat} (h : slowDelaysMs.length - 1 ≤ index) :
    30000 ≤ slowElapsedMs index := by
  have hsum : slowElapsedMs 3 ≤ slowElapsedMs index :=
    (List.take_sublist_take_left h).sum_le_sum fun _ _ => Nat.zero_le _
  exact le_trans (by decide) hsum

section Waiting

variable {s s' s'' : State} {o : CanonicalObservation} {d : Decision} {es : List Effect}

theorem KeepsWait.trans (h : KeepsWait s s') (h' : KeepsWait s' s'') : KeepsWait s s'' := by
  intro hp
  obtain ⟨hp', hb'⟩ := h' hp
  obtain ⟨hp, hb⟩ := h hp'
  exact ⟨hp, hb'.trans hb⟩

theorem Paced.of_kept (h : KeepsWait s s') {t : Nat} (ht : s'.nextTimerMs = some t)
    (hle : o.observedAtMs ≤ t) : Paced s o s' := by
  intro hp
  obtain ⟨hphase, hindex⟩ := h hp
  refine ⟨t, ht, fun since _ helapsed => ?_⟩
  rw [hindex]
  exact (helapsed hphase).trans hle

theorem Paced.behind (h : Paced s' o s'') (hk : KeepsWait s s') : Paced s o s'' := by
  intro hp
  obtain ⟨t, ht, hpaced⟩ := h hp
  refine ⟨t, ht, fun since hle helapsed => hpaced since hle fun hp' => ?_⟩
  obtain ⟨hphase, hindex⟩ := hk hp'
  rw [hindex]
  exact helapsed hphase

theorem KeepsWait.due (h : KeepsWait s s') (hd : slowRetryDue s' = true) : slowRetryDue s = true := by
  simp only [slowRetryDue, Bool.and_eq_true, decide_eq_true_eq] at hd ⊢
  obtain ⟨hphase, hindex⟩ := h hd.1
  exact ⟨hphase, hindex ▸ hd.2⟩

theorem enterWait_slow {nowMs : Nat} (h : enterWait s nowMs = .ok d) (hp : d.state.phase = .waitSlow) :
    d.state.nextTimerMs = some (nowMs +
      slowDelaysMs.getD (min (if s.phase = .waitSlow then s.backoffIndex else 0) 3) 0) ∧
    d.state.backoffIndex = min (min (if s.phase = .waitSlow then s.backoffIndex else 0) 3 + 1) 3 := by
  have hmono : Decides (enterWait s nowMs) fun d => d.state.phase = .waitSlow →
      d.state.nextTimerMs = some (nowMs +
        slowDelaysMs.getD (min (if s.phase = .waitSlow then s.backoffIndex else 0) 3) 0) ∧
      d.state.backoffIndex =
        min (min (if s.phase = .waitSlow then s.backoffIndex else 0) 3 + 1) 3 := by
    unfold enterWait
    cases hd : s.aggressiveDeadlineMs with
    | none =>
      simp only [clearProof, hd]
      rw [if_pos (by simp [aggressiveBudgetMs])]
      exact .of_decision (by rintro ⟨⟩)
    | some deadline =>
      simp only [clearProof, hd]
      split
      next => exact .of_decision (by rintro ⟨⟩)
      next => exact .of_decision fun _ => ⟨rfl, rfl⟩
  exact hmono.of_ok h hp

theorem Waits.paced (h : Waits s o.observedAtMs d)
    (hok : assertControllerInvariants.{0} d.state = .ok ⟨⟩) : Paced s o d.state := by
  cases h with
  | wait phase aggressive index t hp hd hs =>
    intro hslow
    have hchecked : assertControllerInvariants.{0} (waiting s phase aggressive index t) = .ok ⟨⟩ := hok
    have hdecided : enterWait s o.observedAtMs =
        .ok ⟨waiting s phase aggressive index t, [.schedule t]⟩ := by
      rw [hs, decision, hchecked, Outcome.ok_bind]
    obtain ⟨htimer, hindex⟩ := enterWait_slow hdecided hslow
    refine ⟨_, htimer, fun since hle helapsed => ?_⟩
    rw [hindex]
    split
    next hphase =>
      have hnext := slowElapsedMs_next s.backoffIndex
      have hpassed := helapsed hphase
      omega
    next hphase =>
      have hnext := slowElapsedMs_next 0
      have hzero : slowElapsedMs 0 = 0 := rfl
      omega

theorem Advances.keepsWait (h : Advances s o es d) : KeepsWait s d.state := by
  cases h with
  | prepares since candidate planning planHash hv hc hp hf hb hl hls hh hqs => exact fun hp => ⟨hp, rfl⟩
  | settled since candidate t hv hc ht => exact fun hp => ⟨hp, rfl⟩
  | _ => nofun

theorem Selects.paced (h : Selects s o d) (hok : assertControllerInvariants.{0} d.state = .ok ⟨⟩) :
    Paced s o d.state := by
  cases h with
  | deferred hz hn =>
    intro hp
    refine ⟨_, rfl, fun since hle _ => ?_⟩
    exact Nat.add_le_add hle (slowElapsedMs_le _)
  | waits hw hc ht => exact hw.paced hok
  | waitsKnown hw candidate hz hc hk => exact hw.paced hok
  | waitsSpent target ht hz hw hx hk hs => exact hw.paced hok
  | probes candidate hz hc action ha hk => nofun
  | stable target ht hx hs => nofun
  | verifies target s' es s'' fs ht hx hv hp ha =>
    intro hslow
    have hphase := hp.keepsProof.2.2.2.2
    cases hphase.symm.trans (ha.keepsWait hslow).1
  | applies target ht hz hx action ha hk => nofun
  | unknown phase since t hp hs hc ht =>
    rcases hp with ⟨rfl, -⟩ | ⟨rfl, -⟩ <;> nofun

theorem Settles.keepsWait (h : Settles s o s') : KeepsWait s s' := by
  cases h with
  | external he => exact fun hp => ⟨hp, rfl⟩
  | unplugged he hu => cases hu <;> exact fun hp => ⟨hp, rfl⟩

theorem keepsWait_retainFailure {b : Bool} (hr : retainFailure s o = (s', b)) : KeepsWait s s' := by
  have hfst := congrArg Prod.fst hr
  dsimp only at hfst
  subst hfst
  rcases retainFailure_cases s o with h | h | ⟨-, h⟩ | ⟨-, h⟩ | ⟨-, h⟩ <;> rw [h]
  · exact fun hp => ⟨hp, rfl⟩
  · exact fun hp => ⟨hp, rfl⟩
  all_goals nofun

theorem Classifies.paced (h : Classifies s o d) (hok : assertControllerInvariants.{0} d.state = .ok ⟨⟩) :
    Paced s o d.state := by
  cases h with
  | unplugging s' he hu => nofun
  | retained s' hs hr =>
    exact .of_kept (t := o.observedAtMs + healthPollMs) hs.keepsWait rfl (Nat.le_add_right _ _)
  | selected s' s'' hs hr hd =>
    exact (hd.paced hok).behind (hs.keepsWait.trans (keepsWait_retainFailure hr))

theorem Frees.keepsWait {prior : Option CanonicalObservation} (h : Frees s prior o s' es) :
    KeepsWait s s' := by
  cases h with
  | entered ht hr => rintro ⟨⟩
  | idle ht hb =>
    unfold leaveSlowWait
    split
    · rintro ⟨⟩
    · exact fun hp => ⟨hp, rfl⟩
  | cancelled ht hc =>
    cases hc with
    | preparation a ha hl hc => exact fun hp => ⟨hp, rfl⟩
    | _ => rintro ⟨⟩
  | concluded a b ht ha hl he hb hbl => rintro ⟨⟩

theorem Withdraws.keepsWait {r : ActionRecord} (h : Withdraws s r s' es) : KeepsWait s s' := by
  cases h <;> nofun

/-- Every sample leaves a slow wait paced. -/
theorem Observed.paced {prior : Option CanonicalObservation} (h : Observed s prior o d)
    (hok : assertControllerInvariants.{0} d.state = .ok ⟨⟩) : Paced s o d.state := by
  have later {t n : Nat} (ht : t = o.observedAtMs + n) : o.observedAtMs ≤ t := by omega
  cases h with
  | revoked r s' es t hv hl hr ht =>
    refine Paced.of_kept ?_ rfl (later ht)
    cases hr with
    | desktop hw =>
      intro hp
      exact hw.keepsWait hp
    | probe a ha => nofun
    | application a ha => nofun
  | invalid phase t hv hn hp ht =>
    refine Paced.of_kept ?_ rfl (later ht)
    intro hslow
    have hslow : phase = .waitSlow := hslow
    rw [hp] at hslow
    split at hslow
    · exact ⟨hslow, rfl⟩
    · cases hslow
  | invalidInternal a t hv ha hi ht =>
    exact .of_kept (t := t) (fun hp => ⟨hp, rfl⟩) rfl (later ht)
  | internal a t hv ha hi ht => nofun
  | stopping w t hv hw hl ht => exact .of_kept (t := t) (fun hp => ⟨hp, rfl⟩) rfl (later ht)
  | stopped r s' t hv hs hi hc ht =>
    refine Paced.of_kept ?_ rfl (later ht)
    cases hs with
    | probe a ha hl => exact fun hp => ⟨hp, rfl⟩
    | application a ha hl => exact fun hp => ⟨hp, rfl⟩
    | preparation a ha hl => nofun
    | finalization a ha hl => nofun
  | refused s' t hv hs ht hc hq =>
    refine Paced.of_kept ?_ rfl (later ht)
    cases hs with
    | finalization a b v ha hl hb hbl hv => nofun
    | preparation a b ha hl hb hbl => exact fun hp => ⟨hp, rfl⟩
  | running t hv ht hr hd => exact .of_kept (t := t) (fun hp => ⟨hp, rfl⟩) rfl (later hd)
  | completed a hv ha hl he => nofun
  | uncertain a t hv ht ha hl he hd => nofun
  | preparing a t hv ht ha hl he hd => nofun
  | confirmed s' eff hv ht hc =>
    refine Paced.of_kept ?_ rfl le_rfl
    cases hc <;> exact fun hp => ⟨hp, rfl⟩
  | classified s' es d' hv hf hc =>
    have hpaced := hc.paced hok
    exact hpaced.behind hf.keepsWait

end Waiting

section Attempts

variable {s s' : State} {o : CanonicalObservation} {d : Decision} {es : List Effect}
  {target : ProfileMatch} {key : ApplicationAttemptKey} {profile : Text}

theorem mem_otherAttempts (h : key ∈ s.attemptedApplicationKeys) :
    key ∈ s.otherAttempts profile ∨ key.profile = profile := by
  by_cases hp : key.profile = profile
  · exact .inr hp
  · exact .inl (Finset.mem_filter.mpr ⟨h, .inr hp⟩)

theorem mem_rearm (h : key ∈ s.attemptedApplicationKeys) :
    key ∈ (rearmAchievedApplication s profile).attemptedApplicationKeys ∨ key.profile = profile := by
  unfold rearmAchievedApplication
  split
  · exact .inl h
  · split
    · exact .inl h
    · exact mem_otherAttempts h

theorem Verifies.attempted (h : Verifies s o target s' es) :
    s'.attemptedApplicationKeys = s.attemptedApplicationKeys := by
  cases h <;> rfl

theorem Plans.attempted (h : Plans s o target s' es) :
    s'.attemptedApplicationKeys = s.attemptedApplicationKeys := by
  cases h <;> rfl

theorem Advances.attempted (h : Advances s o es d) (hk : key ∈ s.attemptedApplicationKeys) :
    key ∈ d.state.attemptedApplicationKeys ∨ ∃ c ∈ s.candidate, key.profile = c.profile := by
  cases h with
  | finalized since candidate hv hc hp hf =>
    have hmem : key ∈ s.dropPlan.attemptedApplicationKeys := hk
    exact (mem_otherAttempts hmem).imp_right fun heq => ⟨candidate, hc, heq⟩
  | adopted since candidate hv hc hp hb =>
    exact (mem_otherAttempts hk).imp_right fun heq => ⟨candidate, hc, heq⟩
  | _ => exact .inl hk

/-- A selection forgets an attempt only for the profile it shows, or to repeat it. -/
theorem Selects.attempted (h : Selects s o d) (hk : key ∈ s.attemptedApplicationKeys) :
    key ∈ d.state.attemptedApplicationKeys ∨ ShowsExactly o key.profile ∨ slowRetryDue s = true := by
  cases h with
  | waits hw => cases hw; exact .inl hk
  | waitsKnown hw => cases hw; exact .inl hk
  | waitsSpent target ht hz hw => cases hw; exact .inl hk
  | stable target ht hx hs =>
    have hmem : key ∈ (clearUnknown s).attemptedApplicationKeys := hk
    rcases mem_rearm hmem with hmem | hprofile
    · exact .inl hmem
    · exact .inr (.inl (hprofile ▸ hx))
  | verifies target s' es s'' fs ht hx hv hp ha =>
    have hmem : key ∈ (clearUnknown s).attemptedApplicationKeys := hk
    have hcandidate := hv.candidate
    rcases mem_rearm hmem with hmem | heq
    · rw [← hv.attempted] at hmem
      have hmem' : key ∈ s''.attemptedApplicationKeys := by
        rw [hp.attempted]
        exact hmem
      rcases ha.attempted hmem' with hmem | ⟨c, hc, heq⟩
      · exact .inl hmem
      · rw [hp.keepsProof.2.1] at hc
        exact .inr (.inl (heq.trans (hcandidate c hc) ▸ hx))
    · exact .inr (.inl (heq ▸ hx))
  | applies target ht hz hx action ha hdue =>
    by_cases heq : key = action.key
    · exact .inr (.inr (hdue (heq ▸ hk)))
    · exact .inl (Finset.mem_erase.mpr ⟨heq, hk⟩)
  | _ => exact .inl hk

theorem Settles.attempted (h : Settles s o s') :
    s'.attemptedApplicationKeys = s.attemptedApplicationKeys := by
  cases h with
  | external he => rfl
  | unplugged he hu => cases hu <;> rfl

theorem attempted_retainFailure {b : Bool} (hr : retainFailure s o = (s', b)) :
    s'.attemptedApplicationKeys = s.attemptedApplicationKeys := by
  have hfst := congrArg Prod.fst hr
  dsimp only at hfst
  subst hfst
  rcases retainFailure_cases s o with h | h | ⟨-, h⟩ | ⟨-, h⟩ | ⟨-, h⟩ <;> rw [h] <;> rfl

theorem Classifies.attempted (h : Classifies s o d) (hk : key ∈ s.attemptedApplicationKeys) :
    key ∈ d.state.attemptedApplicationKeys ∨ ShowsExactly o key.profile ∨ slowRetryDue s = true := by
  cases h with
  | unplugging s' he hu => cases hu; exact .inl hk
  | retained s' hs hr =>
    refine .inl ?_
    change key ∈ s'.attemptedApplicationKeys
    rwa [hs.attempted]
  | selected s' s'' hs hr hd =>
    have hkeys := (attempted_retainFailure hr).trans hs.attempted
    have hkeeps := hs.keepsWait.trans (keepsWait_retainFailure hr)
    rcases hd.attempted (hkeys ▸ hk) with hmem | hshown | hdue
    · exact .inl hmem
    · exact .inr (.inl hshown)
    · exact .inr (.inr (hkeeps.due hdue))

theorem Frees.attempted {prior : Option CanonicalObservation} (h : Frees s prior o s' es) :
    s'.attemptedApplicationKeys = s.attemptedApplicationKeys ∨
      s'.physicalEpoch = s.physicalEpoch + 1 := by
  cases h with
  | entered ht hr => exact .inr rfl
  | idle ht hb =>
    unfold leaveSlowWait
    split <;> exact .inl rfl
  | cancelled ht hc => cases hc <;> exact .inl rfl
  | concluded a b ht ha hl he hb hbl => exact .inl rfl

/-- A sample forgets an attempt only for the profile it shows, to repeat it, or with its
topology. -/
theorem Observed.attempted {prior : Option CanonicalObservation} (h : Observed s prior o d)
    (hk : key ∈ s.attemptedApplicationKeys) :
    key ∈ d.state.attemptedApplicationKeys ∨ o.valid = true ∧ ShowsExactly o key.profile ∨
      slowRetryDue s = true ∨ d.state.physicalEpoch = s.physicalEpoch + 1 := by
  cases h with
  | revoked r s' es t hv hl hr ht =>
    refine .inl ?_
    cases hr with
    | desktop hw => cases hw <;> exact hk
    | probe a ha => exact hk
    | application a ha => exact hk
  | stopped r s' t hv hs hi hc ht => cases hs <;> exact .inl hk
  | refused s' t hv hs ht hc hq => cases hs <;> exact .inl hk
  | completed a hv ha hl he =>
    obtain ⟨b, hb, -, hexact, hcurrent, -⟩ := he
    obtain rfl := Option.mem_unique ha hb
    have hmem : key ∈ (s.bury a.actionId .completed).dropPlan.attemptedApplicationKeys := hk
    rcases mem_otherAttempts hmem with hmem | heq
    · exact .inl hmem
    · rw [heq]
      exact .inr (.inl ⟨hv, hexact, hcurrent⟩)
  | confirmed s' eff hv ht hc => cases hc <;> exact .inl hk
  | classified s' es d' hv hf hc =>
    rcases hf.attempted with hkeys | hepoch
    · rcases hc.attempted (hkeys ▸ hk) with hmem | hshown | hdue
      · exact .inl hmem
      · exact .inr (.inl ⟨hv, hshown⟩)
      · exact .inr (.inr (.inl (hf.keepsWait.due hdue)))
    · exact .inr (.inr (.inr (hc.frame.physicalEpoch.trans hepoch)))
  | _ => exact .inl hk

theorem Selects.application (h : Selects s o d) :
    d.state.application = s.application ∨ ∃ a, d.state.application = some a ∧
      (a.key ∈ s.attemptedApplicationKeys → slowRetryDue s = true) := by
  cases h with
  | waits hw => cases hw; exact .inl rfl
  | waitsKnown hw => cases hw; exact .inl rfl
  | waitsSpent target ht hz hw => cases hw; exact .inl rfl
  | stable target ht hx hs => exact .inl (aside_rearm _ target.profile).application
  | verifies target s' es s'' fs ht hx hv hp ha => exact .inl (aside_verification hv hp ha).application
  | applies target ht hz hx action ha hk => exact .inr ⟨action, rfl, hk⟩
  | _ => exact .inl rfl

end Attempts

section Steps

variable {s : State} {e : Event} {d : Decision} {key : ApplicationAttemptKey}

/-- Between samples a slow wait is at most kept. -/
theorem Step.keepsWait (h : Step s e d) (hn : ∀ o, ¬ Accepts s e o) : KeepsWait s d.state := by
  cases h with
  | observed e hb hf ho => exact absurd ⟨e, rfl, rfl, hb, hf⟩ (hn e.observation)
  | hinted e s' es t hb hg ht hh =>
    cases hh with
    | withdrawn hl hw =>
      intro hp
      exact hw.keepsWait hp
    | reopened hq hf hp => nofun
    | kept hp => exact fun hp => ⟨hp, rfl⟩
  | dirtied e r s' es t hb hr he hl hg ht hw =>
    rcases hw with hw | ⟨-, rfl, -⟩
    · intro hp
      exact hw.keepsWait hp
    · exact fun hp => ⟨hp, rfl⟩
  | failed e r r' phase es t hr hc hf he hp hes =>
    rcases hp with rfl | ⟨-, rfl⟩
    · cases r' with
      | planning a => exact fun hp => ⟨hp, rfl⟩
      | preparation a => exact fun hp => ⟨hp, rfl⟩
      | _ => nofun
    · nofun
  | doubted e r v t hr hk hl he ht =>
    cases r with
    | planning a => exact absurd rfl hk
    | _ => nofun
  | restarted e a s' es t ha hl hw ht =>
    intro hp
    exact hw.keepsWait hp
  | probeDispatched e a w ha hl hi hd => nofun
  | applicationDispatched e a w ha hl hi hd => nofun
  | finalizationDispatched e a w ha hl hi hd => nofun
  | planRetried e p t hp hs hi hk hr ht => nofun
  | closed e r l v es t hr hk he hl hv hes ht => nofun
  | finalizationReported e a b t ha he hb hl ht => nofun
  | retried e a t ha hp ht => nofun
  | booted e hb => nofun
  | _ => exact fun hp => ⟨hp, rfl⟩

theorem Step.paced (h : Step s e d) (hd : Sound d.state) {o : CanonicalObservation}
    (ho : Accepts s e o) : Paced s o d.state := by
  obtain ⟨f, rfl, rfl, hb, hf⟩ := ho
  exact ((observed_of_step h hb hf).paced hd.checked).behind fun hp => ⟨hp, rfl⟩

/-- An attempt is forgotten only for a sample which shows its profile, to repeat it, or with its
topology. -/
theorem Step.attempted (h : Step s e d) (hk : key ∈ s.attemptedApplicationKeys) :
    key ∈ d.state.attemptedApplicationKeys ∨
      (∃ o, Accepts s e o ∧ (o.valid = true ∧ ShowsExactly o key.profile ∨ slowRetryDue s = true)) ∨
      s.physicalEpoch < d.state.physicalEpoch ∨ Reboots s e := by
  cases h with
  | observed e hb hf ho =>
    rcases ho.attempted hk with hmem | hshown | hdue | hepoch
    · exact .inl hmem
    · exact .inr (.inl ⟨e.observation, ⟨e, rfl, rfl, hb, hf⟩, .inl hshown⟩)
    · exact .inr (.inl ⟨e.observation, ⟨e, rfl, rfl, hb, hf⟩, .inr hdue⟩)
    · exact .inr (.inr (.inl (hepoch ▸ Nat.lt_succ_self s.physicalEpoch)))
  | hinted e s' es t hb hg ht hh =>
    cases hh with
    | withdrawn hl hw => cases hw <;> exact .inl hk
    | reopened hq hf hp => exact .inl hk
    | kept hp => exact .inl hk
  | dirtied e r s' es t hb hr he hl hg ht hw =>
    rcases hw with hw | ⟨-, rfl, -⟩
    · cases hw <;> exact .inl hk
    · exact .inl hk
  | applicationDispatched e a w ha hl hi hd => exact .inl (Finset.mem_insert_of_mem hk)
  | closed e r l v es t hr hk' he hl hv hes ht => cases r <;> exact .inl hk
  | failed e r r' phase es t hr hc hf he hp hes => cases r' <;> exact .inl hk
  | doubted e r v t hr hk' hl he ht => cases r <;> exact .inl hk
  | restarted e a s' es t ha hl hw ht => cases hw; exact .inl hk
  | booted e hb => exact .inr (.inr (.inr ⟨e, rfl, hb⟩))
  | _ => exact .inl hk

/-- A pending load was pending before, or an accepted sample admitted it: as a new attempt or as
a due repetition. -/
theorem Step.admits (h : Step s e d) (hs : Sound s) {b : ApplicationAction}
    (hb : d.state.application = some b) (hl : b.lifecycle = .admitted) :
    (∃ a, s.application = some a ∧ a.lifecycle = .admitted ∧ a.actionId = b.actionId ∧
      a.key = b.key) ∨
    (∀ a ∈ s.application, a.actionId ≠ b.actionId) ∧ ∃ o, Accepts s e o ∧
      (d.state.physicalEpoch = s.physicalEpoch → b.key ∈ s.attemptedApplicationKeys →
        slowRetryDue s = true) := by
  have kept {t : State} (hk : Kept s t) (ht : t.application = some b) :
      ∃ a, s.application = some a ∧ a.lifecycle = .admitted ∧ a.actionId = b.actionId ∧
        a.key = b.key := by
    obtain ⟨a, ha, hcarries⟩ := hk.application.of_mem ht
    refine ⟨a, ha, hcarries.admitted hl, hcarries.actionId.symm, ?_⟩
    cases hcarries with
    | application a w hw hid hp => rfl
  rcases h.cases_on with ⟨hk, -⟩ | ⟨f, rfl, hboot, hf, hv, ⟨s', es, d', hfrees, hc⟩⟩
  · exact .inl (kept hk hb)
  · have hbefore : Kept s s' := (stays_recordObservation s f.observation).toKept.trans hfrees.kept
    have hframe := hc.frame
    cases hc with
    | unplugging t he hu =>
      exact .inl (kept ((hbefore.trans hu.kept).trans (kept_releaseFailures t)) hb)
    | retained t hset hr => exact .inl (kept (hbefore.trans hset.kept) hb)
    | selected s₁ s₂ hset hr hd =>
      have hretain := kept_retainFailure s₁ f.observation
      rw [hr] at hretain
      have hchain := hbefore.trans (hset.kept.trans hretain)
      rcases hd.application with heq | ⟨a, ha, hdue⟩
      · exact .inl (kept hchain (heq.symm.trans hb))
      · obtain rfl : a = b := Option.some.inj (ha.symm.trans hb)
        have hrenews := hd.frame.application
        rw [ha] at hrenews
        generalize hx : s₂.application = x at hrenews
        cases hrenews with
        | kept => exact .inl (kept hchain hx)
        | filled b hnew _ =>
          refine .inr ⟨fun b hb hid => ?_, f.observation, ⟨f, rfl, rfl, hboot, hf⟩,
            fun hepoch hmem => ?_⟩
          · have hbound : b.actionId.sequence ≤ s.actionSequenceHighWater :=
              (hs.identities.application b hb).bounded
            rw [hid, ← hchain.actionMark] at hbound
            exact absurd hnew (Nat.not_lt.mpr hbound)
          · have hkeys := (attempted_retainFailure hr).trans hset.attempted
            have hkeeps : KeepsWait (recordObservation s f.observation) s₂ :=
              hfrees.keepsWait.trans (hset.keepsWait.trans (keepsWait_retainFailure hr))
            rcases hfrees.attempted with hfkeys | hfepoch
            · exact hkeeps.due (hdue (hkeys.trans hfkeys ▸ hmem))
            · have hnew : d'.state.physicalEpoch = s.physicalEpoch + 1 :=
                hframe.physicalEpoch.trans hfepoch
              exact absurd (hepoch.symm.trans hnew) (Nat.succ_ne_self _).symm

theorem Accepts.ordered {o : CanonicalObservation} (h : Accepts s e o) {t : Nat}
    (ht : ∃ prior ∈ s.latestObservation, t ≤ prior.observedAtMs) : t ≤ o.observedAtMs := by
  obtain ⟨f, -, rfl, -, hf⟩ := h
  obtain ⟨prior, hprior, hle⟩ := ht
  have hordered : prior.observedAtMs ≤ f.observation.observedAtMs := by
    by_contra hlt
    exact hf ⟨prior, hprior, .inr (.inl (Nat.lt_of_not_le hlt))⟩
  exact hle.trans hordered

theorem Step.latest (h : Step s e d) :
    d.state.latestObservation = s.latestObservation ∨ (∃ o, Accepts s e o) ∨ Reboots s e := by
  cases h with
  | observed e hb hf ho => exact .inr (.inl ⟨e.observation, e, rfl, rfl, hb, hf⟩)
  | hinted e s' es t hb hg ht hh =>
    cases hh with
    | withdrawn hl hw => cases hw <;> exact .inl rfl
    | reopened hq hf hp => exact .inl rfl
    | kept hp => exact .inl rfl
  | dirtied e r s' es t hb hr he hl hg ht hw =>
    rcases hw with hw | ⟨-, rfl, -⟩
    · cases hw <;> exact .inl rfl
    · exact .inl rfl
  | closed e r l v es t hr hk he hl hv hes ht => cases r <;> exact .inl rfl
  | failed e r r' phase es t hr hc hf he hp hes => cases r' <;> exact .inl rfl
  | doubted e r v t hr hk hl he ht => cases r <;> exact .inl rfl
  | restarted e a s' es t ha hl hw ht => cases hw; exact .inl rfl
  | booted e hb => exact .inr (.inr ⟨e, rfl, hb⟩)
  | _ => exact .inl rfl

theorem Step.sampled (h : Step s e d) (hr : ¬ Reboots s e) {t : Nat}
    (ht : ∃ o ∈ s.latestObservation, t ≤ o.observedAtMs) :
    ∃ o ∈ d.state.latestObservation, t ≤ o.observedAtMs := by
  rcases h.latest with heq | ⟨o, ho⟩ | hboot
  · rw [heq]
    exact ht
  · exact ⟨o, latest_of_accepts h ho, ho.ordered ht⟩
  · exact absurd hboot hr

theorem Step.rebooted (h : Step s e d) (hr : Reboots s e) :
    d.state.physicalEpoch = s.physicalEpoch ∧ d.state.physicalToken = none ∧
      d.state.application = none := by
  obtain ⟨b, rfl, hb⟩ := hr
  cases h with
  | ignored e hi => exact absurd hb hi
  | booted e hb => exact ⟨rfl, rfl, rfl⟩
  | stopRepeated e r t hr hl he ht => cases he
  | closed e r l v es t hr hk he hl hv hes ht => cases he.reports
  | failed e r r' phase es t hr hc hf he hp hes => cases he.fails
  | preparationReported e a b t ha he hb hl ht => cases he.reports
  | finalizationReported e a b t ha he hb hl ht => cases he.reports
  | doubted e r v t hr hk hl he ht => cases he

end Steps

section Runs

variable {ms : List (Runs.Move State Event Decision)} {s : State} {e : Event} {d : Decision}
  {since : Nat} {key : ApplicationAttemptKey}

/-- The move is an accepted launch of the pending load. -/
def StartsLoad (m : Runs.Move State Event Decision) (a : ApplicationAction) : Prop :=
  (∃ e, m.event = .applicationDispatched e) ∧ m.after ≠ m.before ∧ m.before.application = some a

/-- The accepted sample of the move admits the load. -/
def AdmitsLoad (m : Runs.Move State Event Decision) (a : ActionId) (o : CanonicalObservation) :
    Prop :=
  Accepts m.before m.event o ∧ (∀ b ∈ m.before.application, b.actionId ≠ a) ∧
    ∃ b ∈ m.after.application, b.actionId = a

/-- The last accepted sample left the wake. -/
def Tick (ms : List (Runs.Move State Event Decision)) (t : Nat) : Prop :=
  ∃ newer m older o, ms = newer ++ m :: older ∧ Accepts m.before m.event o ∧
    m.after.nextTimerMs = some t ∧ ∀ n ∈ newer, ∀ o', ¬ Accepts n.before n.event o'

/-- During slow waits no sample comes before the wake which the last one left. -/
def OnTicks (ms : List (Runs.Move State Event Decision)) : Prop :=
  ∀ newer m older o t, ms = newer ++ m :: older → m.before.phase = .waitSlow →
    Accepts m.before m.event o → Tick older t → t ≤ o.observedAtMs

theorem Tick.append {t : Nat} (h : Tick ms t) (older : List (Runs.Move State Event Decision)) :
    Tick (ms ++ older) t := by
  obtain ⟨newer, m, rest, o, rfl, ho, ht, hn⟩ := h
  exact ⟨newer, m, rest ++ older, o, by simp, ho, ht, hn⟩

theorem Tick.cons {t : Nat} {m : Runs.Move State Event Decision} (h : Tick ms t)
    (hm : ∀ o, ¬ Accepts m.before m.event o) : Tick (m :: ms) t := by
  obtain ⟨newer, n, older, o, rfl, ho, ht, hn⟩ := h
  exact ⟨m :: newer, n, older, o, rfl, ho, ht, List.forall_mem_cons.mpr ⟨hm, hn⟩⟩

theorem OnTicks.tail {m : Runs.Move State Event Decision} (h : OnTicks (m :: ms)) : OnTicks ms := by
  rintro newer n older o t rfl
  exact h (m :: newer) n older o t rfl

theorem Tick.head {t : Nat} {m : Runs.Move State Event Decision} (h : Tick (m :: ms) t)
    {o : CanonicalObservation} (ho : Accepts m.before m.event o) : m.after.nextTimerMs = some t := by
  obtain ⟨newer, n, older, o', heq, -, ht, hn⟩ := h
  cases newer with
  | nil =>
    obtain ⟨rfl, -⟩ := List.cons.inj heq
    exact ht
  | cons k newer =>
    obtain ⟨rfl, -⟩ := List.cons.inj heq
    exact absurd ho (hn _ List.mem_cons_self o)

theorem OnTicks.nil : OnTicks [] := by
  intro newer m older o t heq
  simp at heq

theorem OnTicks.cons {m : Runs.Move State Event Decision} (h : OnTicks ms)
    (hm : ∀ o t, m.before.phase = .waitSlow → Accepts m.before m.event o → Tick ms t →
      t ≤ o.observedAtMs) : OnTicks (m :: ms) := by
  intro newer n older o t heq hp ho ht
  cases newer with
  | nil =>
    obtain ⟨rfl, rfl⟩ := List.cons.inj heq
    exact hm o t hp ho ht
  | cons k newer =>
    obtain ⟨-, rfl⟩ := List.cons.inj heq
    exact h newer n older o t rfl hp ho ht

/-- The attempt belongs to a topology which is left. -/
def Left (key : ApplicationAttemptKey) (s : State) : Prop :=
  key.physicalEpoch < s.physicalEpoch ∨
    key.physicalEpoch = s.physicalEpoch ∧ s.physicalToken = none ∧ s.application = none

/-- The attempt was made at the time, and a repetition of it waits for the slow tick. -/
structure Spent (since : Nat) (key : ApplicationAttemptKey)
    (ms : List (Runs.Move State Event Decision)) (s : State) : Prop where
  located : key.physicalEpoch = s.physicalEpoch
  sampled : ∃ o ∈ s.latestObservation, since ≤ o.observedAtMs
  attempted : key ∈ s.attemptedApplicationKeys ∨
    ∃ o ∈ s.latestObservation, since + 30000 ≤ o.observedAtMs
  waiting : s.phase = .waitSlow → ∃ t, Tick ms t ∧ since + slowElapsedMs s.backoffIndex ≤ t
  pending : ∀ b ∈ s.application, b.lifecycle = .admitted → b.key = key →
    ∃ m ∈ ms, ∃ o, AdmitsLoad m b.actionId o ∧ since + 30000 ≤ o.observedAtMs

theorem Left.step (h : Left key s) (hs : Step s e d) : Left key d.state := by
  rcases h with hlt | ⟨heq, htoken, hnone⟩
  · rcases hs.attempts with ⟨hepoch, -, -⟩ | hup | ⟨hepoch, -⟩
    · exact .inl (hepoch ▸ hlt)
    · exact .inl (hlt.trans hup)
    · exact .inl (hepoch ▸ hlt)
  · rcases hs.cases_on with ⟨hk, hstays⟩ | ⟨f, rfl, -, -, -, ⟨s', es, d', hf, hc⟩⟩
    · have hnone' : d.state.application = none := by
        by_contra hn
        obtain ⟨b, hb⟩ := Option.ne_none_iff_exists'.mp hn
        obtain ⟨a, ha, -⟩ := hk.application.of_mem hb
        simp [hnone] at ha
      refine .inr ?_
      rcases hs.attempts with ⟨hepoch, ht, -⟩ | hup | ⟨hepoch, ht⟩
      · exact ⟨heq.trans hepoch.symm, ht.trans htoken, hnone'⟩
      · rcases hstays with hs | hp | ⟨b, -, -, hb⟩
        · exact absurd hs.physicalEpoch hup.ne'
        · obtain ⟨f, a, b, -, -, -, -, -, hepoch, -⟩ := hp
          exact absurd hepoch hup.ne'
        · rw [hb] at hup
          exact absurd hup (lt_irrefl _)
      · exact ⟨heq.trans hepoch.symm, ht, hnone'⟩
    · refine .inl ?_
      change key.physicalEpoch < d'.state.physicalEpoch
      rw [hc.frame.physicalEpoch, heq]
      rcases hf.attempts with ⟨-, ht, -⟩ | ⟨hepoch, -⟩
      · cases hf.token.symm.trans (ht.trans htoken)
      · rw [hepoch]
        exact Nat.lt_succ_self _

/-- As long as samples keep to the ticks, an attempt which is spent is repeated by the slow tick or
left with its topology. -/
theorem Spent.step (h : Spent since key ms s) (hs : Sound s) (hstep : Step s e d)
    (hd : Sound d.state)
    (htick : ∀ o t, s.phase = .waitSlow → Accepts s e o → Tick ms t → t ≤ o.observedAtMs)
    (hshown : ∀ o, Accepts s e o → o.valid = true → ¬ ShowsExactly o key.profile) :
    Left key d.state ∨ Spent since key (⟨s, e, d, d.state⟩ :: ms) d.state := by
  by_cases hboot : Reboots s e
  · obtain ⟨hepoch, htoken, hnone⟩ := hstep.rebooted hboot
    exact .inl (.inr ⟨h.located.trans hepoch.symm, htoken, hnone⟩)
  have due {o : CanonicalObservation} (ho : Accepts s e o) (hdue : slowRetryDue s = true) :
      since + 30000 ≤ o.observedAtMs := by
    simp only [slowRetryDue, Bool.and_eq_true, decide_eq_true_eq] at hdue
    obtain ⟨t, ht, hle⟩ := h.waiting hdue.1
    have hwake := htick o t hdue.1 ho ht
    have hcapped := slowElapsedMs_capped hdue.2
    omega
  have hepochs : s.physicalEpoch < d.state.physicalEpoch ∨
      d.state.physicalEpoch = s.physicalEpoch := by
    rcases hstep.attempts with ⟨hsame, -⟩ | hup | ⟨hsame, -⟩
    · exact .inr hsame
    · exact .inl hup
    · exact .inr hsame
  rcases hepochs with hup | hepoch
  · exact .inl (.inl (h.located ▸ hup))
  refine .inr ⟨h.located.trans hepoch.symm, hstep.sampled hboot h.sampled, ?_, ?_, ?_⟩
  · rcases h.attempted with hmem | hlate
    · rcases hstep.attempted hmem with hmem | ⟨o, ho, hshow | hdue⟩ | hup | hreboots
      · exact .inl hmem
      · exact absurd hshow.2 (hshown o ho hshow.1)
      · exact .inr ⟨o, latest_of_accepts hstep ho, due ho hdue⟩
      · exact absurd hepoch hup.ne'
      · exact absurd hreboots hboot
    · exact .inr (hstep.sampled hboot hlate)
  · intro hslow
    by_cases ha : ∃ o, Accepts s e o
    · obtain ⟨o, ho⟩ := ha
      obtain ⟨t, ht, hpaced⟩ := hstep.paced hd ho hslow
      have htimely : s.phase = .waitSlow →
          since + slowElapsedMs s.backoffIndex ≤ o.observedAtMs := by
        intro hphase
        obtain ⟨t', ht', hle⟩ := h.waiting hphase
        exact hle.trans (htick o t' hphase ho ht')
      exact ⟨t, ⟨[], _, ms, o, rfl, ho, ht, by simp⟩, hpaced since (ho.ordered h.sampled) htimely⟩
    · push Not at ha
      obtain ⟨hphase, hindex⟩ := hstep.keepsWait ha hslow
      obtain ⟨t, ht, hle⟩ := h.waiting hphase
      exact ⟨t, ht.cons ha, hindex ▸ hle⟩
  · intro b hb hl hkey
    rcases hstep.admits hs hb hl with ⟨a, ha, hla, hid, hka⟩ | ⟨hnew, o, ho, hdue⟩
    · obtain ⟨m, hm, o, hadmits, hle⟩ := h.pending a ha hla (hka.trans hkey)
      exact ⟨m, List.mem_cons_of_mem _ hm, o, hid ▸ hadmits, hle⟩
    · refine ⟨_, List.mem_cons_self, o, ⟨ho, hnew, b, hb, rfl⟩, ?_⟩
      rcases h.attempted with hmem | hlate
      · exact due ho (hdue hepoch (hkey ▸ hmem))
      · exact ho.ordered hlate

/-- A launched load spends its attempt, at the sample which is retained then. -/
theorem Spent.start {m : Runs.Move State Event Decision} {a : ApplicationAction}
    (h : StartsLoad m a) (hs : Sound m.before) (hstep : Step m.before m.event m.output)
    (hafter : m.after = m.output.state) :
    a.lifecycle = .admitted ∧
      ∃ o ∈ m.before.latestObservation, Spent o.observedAtMs a.key [] m.after := by
  obtain ⟨⟨e, he⟩, hne, ha⟩ := h
  rw [hafter] at hne ⊢
  rw [he] at hstep
  generalize hd : m.output = d at hstep hne
  cases hstep with
  | ignored e hi => exact absurd rfl hne
  | applicationDispatched e b w hb hl hi hw =>
    obtain rfl : a = b := Option.some.inj (ha.symm.trans hb)
    obtain ⟨-, hepoch, o, ho, -⟩ := hs.pending.application a ha hl
    refine ⟨hl, o, ho, hepoch, ⟨o, ho, le_rfl⟩, .inl (Finset.mem_insert_self _ _), nofun, ?_⟩
    rintro b ⟨⟩ hbl -
    have hdispatched : w.lifecycle = .dispatched := by
      rw [hw]
      rfl
    cases hdispatched.symm.trans hbl
  | stopRepeated e r t hr hl he' ht => cases he'
  | closed e r l v es t hr hk he' hl hv hes ht => cases he'.reports
  | failed e r r' phase es t hr hc hf he' hp hes => cases he'.fails
  | preparationReported e a b t ha he' hb hl ht => cases he'.reports
  | finalizationReported e a b t ha he' hb hl ht => cases he'.reports
  | doubted e r v t hr hk hl he' ht => cases he'

/-- What a launched load spends stays spent, as long as samples keep to the ticks and none shows
the profile. -/
theorem spent {mid older : List (Runs.Move State Event Decision)}
    {m : Runs.Move State Event Decision} (h : Run (mid ++ m :: older) s)
    (htick : OnTicks (mid ++ m :: older))
    (hshown : ∀ k ∈ mid, ∀ o, Accepts k.before k.event o → o.valid = true → ¬ ShowsExactly o key.profile)
    (hm : Spent since key [] m.after) : Left key s ∨ Spent since key mid s := by
  induction mid generalizing s with
  | nil =>
    cases h with
    | move hr hs => exact .inr hm
  | cons k mid ih =>
    cases h with
    | move hr hs =>
      obtain ⟨hd, rfl⟩ := hs
      have hsound : Sound _ := Reachable.sound hr.reachable
      obtain ⟨-, hstep, -, hsound'⟩ := hsound.reduces hd
      obtain ⟨hk, hshown⟩ := List.forall_mem_cons.mp hshown
      rcases ih hr htick.tail hshown with hleft | hspent
      · exact .inl (hleft.step hstep)
      · refine hspent.step hsound hstep hsound' (fun o t hp ho ht => ?_) hk
        exact htick [] _ (mid ++ m :: older) o t rfl hp ho (ht.append _)

theorem admitted_load {a : ApplicationAction} (h : Run ms s) (ha : s.application = some a)
    (hl : a.lifecycle = .admitted) :
    ∃ m ∈ ms, ∃ o, AdmitsLoad m a.actionId o ∧
      ∃ last ∈ s.latestObservation, o.observedAtMs ≤ last.observedAtMs := by
  induction h generalizing a with
  | start h =>
    obtain ⟨_, _, _, _, rfl⟩ := h
    cases ha
  | @move ms s e d s' hr hs ih =>
    obtain ⟨hd, rfl⟩ := hs
    have hreach : Reachable s := hr.reachable
    obtain ⟨-, hstep, -⟩ := hreach.sound.reduces hd
    have hboot : ¬ Reboots s e := by
      intro hr
      cases ha.symm.trans (hstep.rebooted hr).2.2
    rcases hstep.admits hreach.sound ha hl with ⟨b, hb, hbl, hid, -⟩ | ⟨hnew, o, ho, -⟩
    · obtain ⟨m, hm, o, hadmits, hlast⟩ := ih hb hbl
      exact ⟨m, List.mem_cons_of_mem _ hm, o, hid ▸ hadmits, hstep.sampled hboot hlast⟩
    · exact ⟨_, List.mem_cons_self, o, ⟨ho, hnew, a, ha, rfl⟩, o, latest_of_accepts hstep ho, le_rfl⟩

/-- As long as samples keep to the ticks of the slow waits, a load is only repeated on a sample
which is the slow tick later than the one which admitted it, unless its profile was shown. -/
theorem loads_on_ticks {newer mid older : List (Runs.Move State Event Decision)}
    {m n : Runs.Move State Event Decision} (h : Run (newer ++ n :: (mid ++ m :: older)) s)
    (htick : OnTicks (newer ++ n :: (mid ++ m :: older))) {a b : ApplicationAction}
    (hm : StartsLoad m a) (hn : StartsLoad n b) (hkey : b.key = a.key)
    (hshown : ∀ k ∈ mid, ∀ o, Accepts k.before k.event o → o.valid = true → ¬ ShowsExactly o a.profile) :
    ∃ first ∈ older, ∃ second ∈ mid, ∃ o o', AdmitsLoad first a.actionId o ∧
      AdmitsLoad second b.actionId o' ∧ o.observedAtMs + 30000 ≤ o'.observedAtMs := by
  have htick' : OnTicks (mid ++ m :: older) := by
    intro newer' k older' o t heq
    exact htick (newer ++ n :: newer') k older' o t (by rw [heq, List.append_assoc]; rfl)
  obtain ⟨hrun, hnstep, hnafter⟩ := h.older
  obtain ⟨hbefore, hmstep, hafter⟩ := hrun.older
  have hsoundm : Sound m.before := Reachable.sound hbefore.reachable
  have hsoundn : Sound n.before := Reachable.sound hrun.reachable
  obtain ⟨hla, last, hlast, hspent⟩ := Spent.start hm hsoundm (hsoundm.reduces hmstep).2.1 hafter
  obtain ⟨hlb, -⟩ := Spent.start hn hsoundn (hsoundn.reduces hnstep).2.1 hnafter
  obtain ⟨first, hfirst, o, hadmits, last', hlast', hle⟩ := admitted_load hbefore hm.2.2 hla
  obtain rfl := Option.mem_unique hlast hlast'
  rw [← a.profile_key] at hshown
  rcases spent hrun htick' hshown hspent with hleft | hspent
  · have hepoch := (hsoundn.pending.application b hn.2.2 hlb).2.1
    rw [hkey] at hepoch
    rcases hleft with hlt | ⟨-, -, hnone⟩
    · exact absurd hepoch hlt.ne
    · cases hnone.symm.trans hn.2.2
  · obtain ⟨second, hsecond, o', hadmits', hwait⟩ := hspent.pending b hn.2.2 hlb hkey
    exact ⟨first, hfirst, second, hsecond, o, o', hadmits, hadmits', by omega⟩

end Runs

namespace Scenario

/-- A sample on which the panel is dark and its profile can be loaded. -/
def darkAt (generation observedAtMs : Nat)
    (h : (dark laptop laptop generation observedAtMs).Accepted := by decide) : Event :=
  .observationCompleted (sampled (dark laptop laptop generation observedAtMs) h rfl)

def loadFinished : Event :=
  .applicationFinished ⟨metadata 29500, load, .succeeded, some 0, load_kind⟩

def reload : ActionId := ⟨controller, .application, 2, Nat.two_pos⟩
def reloadDispatched : Event := .applicationDispatched ⟨metadata 0, reload, ⟨reload, laptop⟩, rfl, rfl⟩

def entered : Decision := decided fresh (.observationCompleted (sampled (plain laptop dock 1 0) (by decide) rfl)) rfl
def admittedLate : Decision := decided entered.state (darkAt 2 29500) rfl
def loadingLate : Decision := decided admittedLate.state (.applicationDispatched loadDispatched) rfl
def loadedLate : Decision := decided loadingLate.state loadFinished rfl
def slow : Decision := decided loadedLate.state (darkAt 3 30000) rfl

def hurried₁ : Decision := decided slow.state (darkAt 4 30001) rfl
def hurried₂ : Decision := decided hurried₁.state (darkAt 5 30002) rfl
def hurried₃ : Decision := decided hurried₂.state (darkAt 6 30003) rfl
def reloadingEarly : Decision := decided hurried₃.state reloadDispatched rfl

def ticked₁ : Decision := decided slow.state (darkAt 4 35000) rfl
def ticked₂ : Decision := decided ticked₁.state (darkAt 5 45000) rfl
def ticked₃ : Decision := decided ticked₂.state (darkAt 6 65000) rfl
def reloading : Decision := decided ticked₃.state reloadDispatched rfl

def firstLoad : ApplicationAction := admittedLate.state.application.get rfl
def earlyLoad : ApplicationAction := hurried₃.state.application.get rfl
def tickedLoad : ApplicationAction := ticked₃.state.application.get rfl

/-- The moves up to the first load, its start, and what follows in a burst or at the ticks. -/
def untilLoad : List (Runs.Move State Event Decision) :=
  [⟨entered.state, darkAt 2 29500, admittedLate, admittedLate.state⟩,
    ⟨fresh, .observationCompleted (sampled (plain laptop dock 1 0) (by decide) rfl), entered,
      entered.state⟩]
def loadMove : Runs.Move State Event Decision :=
  ⟨admittedLate.state, .applicationDispatched loadDispatched, loadingLate, loadingLate.state⟩
def settling : List (Runs.Move State Event Decision) :=
  [⟨loadedLate.state, darkAt 3 30000, slow, slow.state⟩,
    ⟨loadingLate.state, loadFinished, loadedLate, loadedLate.state⟩]
def burst : List (Runs.Move State Event Decision) :=
  ⟨hurried₂.state, darkAt 6 30003, hurried₃, hurried₃.state⟩ ::
    ⟨hurried₁.state, darkAt 5 30002, hurried₂, hurried₂.state⟩ ::
    ⟨slow.state, darkAt 4 30001, hurried₁, hurried₁.state⟩ :: settling
def ticks : List (Runs.Move State Event Decision) :=
  ⟨ticked₂.state, darkAt 6 65000, ticked₃, ticked₃.state⟩ ::
    ⟨ticked₁.state, darkAt 5 45000, ticked₂, ticked₂.state⟩ ::
    ⟨slow.state, darkAt 4 35000, ticked₁, ticked₁.state⟩ :: settling
def reloadEarly : Runs.Move State Event Decision :=
  ⟨hurried₃.state, reloadDispatched, reloadingEarly, reloadingEarly.state⟩
def reloadTicked : Runs.Move State Event Decision :=
  ⟨ticked₃.state, reloadDispatched, reloading, reloading.state⟩

theorem settling_run : Run (settling ++ loadMove :: untilLoad) slow.state :=
  .move (.move (.move (.move (.move (.start ⟨_, _, _, _, rfl⟩) ⟨reduce_decided _ _ _, rfl⟩)
    ⟨reduce_decided _ _ _, rfl⟩) ⟨reduce_decided _ _ _, rfl⟩) ⟨reduce_decided _ _ _, rfl⟩)
    ⟨reduce_decided _ _ _, rfl⟩

theorem burst_run : Run ([] ++ reloadEarly :: (burst ++ loadMove :: untilLoad)) reloadingEarly.state :=
  .move (.move (.move (.move settling_run ⟨reduce_decided _ _ _, rfl⟩) ⟨reduce_decided _ _ _, rfl⟩)
    ⟨reduce_decided _ _ _, rfl⟩) ⟨reduce_decided _ _ _, rfl⟩

theorem ticks_run : Run ([] ++ reloadTicked :: (ticks ++ loadMove :: untilLoad)) reloading.state :=
  .move (.move (.move (.move settling_run ⟨reduce_decided _ _ _, rfl⟩) ⟨reduce_decided _ _ _, rfl⟩)
    ⟨reduce_decided _ _ _, rfl⟩) ⟨reduce_decided _ _ _, rfl⟩

theorem accepts_darkAt {s : State} {generation t : Nat}
    {h : (dark laptop laptop generation t).Accepted} {o : CanonicalObservation}
    (ho : Accepts s (darkAt generation t h) o) : o.observedAtMs = t ∧ o.exactProfile = none := by
  obtain ⟨f, hf, rfl, -⟩ := ho
  obtain rfl := Event.observationCompleted.inj hf
  exact ⟨rfl, rfl⟩

theorem dark_settling : ∀ k ∈ settling, ∀ o, Accepts k.before k.event o →
    o.observedAtMs ≤ 30003 ∧ o.exactProfile = none := by
  simp only [settling, List.forall_mem_cons]
  refine ⟨fun o ho => ?_, ?_, by simp⟩
  · obtain ⟨ht, hexact⟩ := accepts_darkAt ho
    exact ⟨by omega, hexact⟩
  · rintro o ⟨f, ⟨⟩, -⟩

theorem dark_burst : ∀ k ∈ burst, ∀ o, Accepts k.before k.event o →
    o.observedAtMs ≤ 30003 ∧ o.exactProfile = none := by
  simp only [burst, List.forall_mem_cons]
  refine ⟨fun o ho => ?_, fun o ho => ?_, fun o ho => ?_, dark_settling⟩
  all_goals
    obtain ⟨ht, hexact⟩ := accepts_darkAt ho
    exact ⟨by omega, hexact⟩

theorem dark_ticks : ∀ k ∈ ticks, ∀ o, Accepts k.before k.event o → o.exactProfile = none := by
  simp only [ticks, List.forall_mem_cons]
  refine ⟨fun o ho => ?_, fun o ho => ?_, fun o ho => ?_, fun k hk o ho => ?_⟩
  · exact (accepts_darkAt ho).2
  · exact (accepts_darkAt ho).2
  · exact (accepts_darkAt ho).2
  · exact (dark_settling k hk o ho).2

theorem startsLoad_first : StartsLoad loadMove firstLoad :=
  ⟨⟨_, rfl⟩, fun h => absurd (congrArg State.phase h) (by decide +kernel), (Option.some_get _).symm⟩

theorem tick_darkAt {s : State} {generation at' t : Nat} {d : Decision}
    {h : (dark laptop laptop generation at').Accepted} {ms : List (Runs.Move State Event Decision)}
    (ht : Tick (⟨s, darkAt generation at' h, d, d.state⟩ :: ms) t) (hb : boot = s.bootId)
    (hf : ¬ staleObservation s ⟨dark laptop laptop generation at', h⟩) :
    d.state.nextTimerMs = some t :=
  ht.head ⟨_, rfl, rfl, hb, hf⟩

theorem ticks_onTicks : OnTicks ([] ++ reloadTicked :: (ticks ++ loadMove :: untilLoad)) := by
  refine .cons (.cons (.cons (.cons (.cons (.cons (.cons (.cons (.cons .nil ?_) ?_) ?_) ?_) ?_) ?_) ?_)
    ?_) ?_
  all_goals
    first
      | exact fun o t hp => absurd hp (by decide +kernel)
      | intro o t hp ho ht
        have hwake := tick_darkAt ht rfl (by decide +kernel)
        rw [(accepts_darkAt ho).1]
        exact Option.some.inj hwake ▸ (by decide +kernel)

end Scenario

open Scenario in
theorem loads_on_ticks_ticked :
    ∃ first ∈ untilLoad, ∃ second ∈ ticks, ∃ o o', AdmitsLoad first firstLoad.actionId o ∧
      AdmitsLoad second tickedLoad.actionId o' ∧ o.observedAtMs + 30000 ≤ o'.observedAtMs := by
  have hstarts : StartsLoad reloadTicked tickedLoad :=
    ⟨⟨_, rfl⟩, fun h => absurd (congrArg State.phase h) (by decide +kernel),
      (Option.some_get _).symm⟩
  have hkey : tickedLoad.key = firstLoad.key := by decide +kernel
  refine loads_on_ticks ticks_run ticks_onTicks startsLoad_first hstarts hkey ?_
  intro k hk o ho _ hs
  cases (dark_ticks k hk o ho).symm.trans hs.1

open Scenario in
/-- Samples of a burst of hints repeat a load at once. -/
theorem loads_in_burst : ¬ ∀ newer n mid m older s, Run (newer ++ n :: (mid ++ m :: older)) s →
    ∀ a b, StartsLoad m a → StartsLoad n b → b.key = a.key →
    (∀ k ∈ mid, ∀ o, Accepts k.before k.event o → o.valid = true → ¬ ShowsExactly o a.profile) →
    ∃ first ∈ older, ∃ second ∈ mid, ∃ o o', AdmitsLoad first a.actionId o ∧
      AdmitsLoad second b.actionId o' ∧ o.observedAtMs + 30000 ≤ o'.observedAtMs := by
  intro h
  have hstarts : StartsLoad reloadEarly earlyLoad :=
    ⟨⟨_, rfl⟩, fun h => absurd (congrArg State.phase h) (by decide +kernel),
      (Option.some_get _).symm⟩
  have hkey : earlyLoad.key = firstLoad.key := by decide +kernel
  obtain ⟨first, hfirst, second, hsecond, o, o', hadmits, hadmits', hle⟩ :=
    h [] _ _ _ _ _ burst_run firstLoad earlyLoad startsLoad_first hstarts hkey
      fun k hk o ho _ hs => by cases (dark_burst k hk o ho).2.symm.trans hs.1
  obtain ⟨hat, -⟩ := dark_burst second hsecond o' hadmits'.1
  simp only [untilLoad, List.mem_cons, List.not_mem_nil, or_false] at hfirst
  rcases hfirst with rfl | rfl
  · have hfirst := (accepts_darkAt hadmits.1).1
    omega
  · -- The sample which entered the topology admitted nothing.
    obtain ⟨b, hb, -⟩ := hadmits.2.2
    cases hb

end MonitorController
