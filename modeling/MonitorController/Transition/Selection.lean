import MonitorController.Reducer.Classify
import MonitorController.Transition.Step

/-! # Steps of the classification

Every exit of waiting, admission, verification and classification is one of the
selections of the transition relation.
-/

namespace MonitorController

variable {s : State} {o : CanonicalObservation}

theorem schedule_waiting (s : State) (nowMs : Nat) (phase : ControllerPhase)
    (aggressive : Option Nat) (index delay : Nat) :
    schedule
      { s with
        phase := phase
        aggressiveDeadlineMs := aggressive
        backoffIndex := index
        verifySinceMs := none } (nowMs + delay) [] =
      decision (waiting s phase aggressive index (nowMs + delay))
        [.schedule (nowMs + delay)] := rfl

theorem enterWait_decides (s : State) (nowMs : Nat) :
    Decides (enterWait s nowMs) (Waits s nowMs) := by
  have waits (phase aggressive index delay)
      (hp : phase = .discoverFast ∨ phase = .waitSlow)
      (hd : aggressive = s.aggressiveDeadlineMs ∨
        s.aggressiveDeadlineMs = none ∧ aggressive = some (nowMs + aggressiveBudgetMs))
      (hs : enterWait s nowMs =
        decision (waiting s phase aggressive index (nowMs + delay))
          [.schedule (nowMs + delay)]) :
      Decides (enterWait s nowMs) (Waits s nowMs) :=
    ⟨_, .wait phase aggressive index _ hp hd hs, hs⟩
  cases hd : s.aggressiveDeadlineMs with
  | none =>
    let index := min (if s.phase = .discoverFast then 0 else 0) (fastDelaysMs.length - 1)
    refine waits .discoverFast (some (nowMs + aggressiveBudgetMs))
      (min (index + 1) (fastDelaysMs.length - 1))
      (min (fastDelaysMs.getD index 0) (nowMs + aggressiveBudgetMs - nowMs)) (.inl rfl)
      (.inr ⟨hd, rfl⟩) ?_
    rw [← schedule_waiting]
    unfold enterWait
    simp only [clearProof, hd]
    rw [if_pos (by simp [aggressiveBudgetMs])]
  | some deadline =>
    by_cases hlt : nowMs < deadline
    · let index := min (if s.phase = .discoverFast then s.backoffIndex else 0)
        (fastDelaysMs.length - 1)
      refine waits .discoverFast (some deadline) (min (index + 1) (fastDelaysMs.length - 1))
        (min (fastDelaysMs.getD index 0) (deadline - nowMs)) (.inl rfl) (.inl hd.symm) ?_
      rw [← schedule_waiting]
      unfold enterWait
      simp only [clearProof, hd]
      rw [if_pos hlt]
    · let index := min (if s.phase = .waitSlow then s.backoffIndex else 0)
        (slowDelaysMs.length - 1)
      refine waits .waitSlow (some deadline) (min (index + 1) (slowDelaysMs.length - 1))
        (slowDelaysMs.getD index 0) (.inr rfl) (.inl hd.symm) ?_
      rw [← schedule_waiting]
      unfold enterWait
      simp only [clearProof, hd]
      rw [if_neg hlt]

/-- A ready plan admits its preparation, or nothing changes. -/
theorem advancePreparation_cases (s : State) (o : CanonicalObservation)
    (candidate : CandidateSelection) (since : Nat) (es : List Effect) :
    advancePreparation s o candidate since es = (s, es) ∨
    ∃ planning planHash, since + preparationStabilityMs ≤ o.observedAtMs ∧
      s.desktopFinalizedProfile ≠ some candidate.profile ∧ s.baselineAdoption = false ∧
      s.planningState = .planReady ∧ s.preparationState = .prepareIdle ∧
      s.planning = some planning ∧ planning.planHash = some planHash ∧
      advancePreparation s o candidate since es =
        ({ allocateAction s with
            preparationState := .preparePending
            preparation := some (preparationFor s o candidate planning planHash) },
          es ++ [(preparationFor s o candidate planning planHash).prepare o.observationKey]) := by
  unfold advancePreparation
  split
  next hc =>
    obtain ⟨hp, hf, hb, hl, hq⟩ := hc
    cases hplan : s.planning with
    | none => exact .inl rfl
    | some planning =>
      cases hash : planning.planHash with
      | none =>
        simp only [hash, true_or]
      | some planHash =>
        simp only [hash]
        exact .inr ⟨planning, planHash, hp, hf, hb, hl, hq, rfl, hash, rfl⟩
  next => exact .inl rfl

theorem advanceVerification_decides (h : s.Tidy) {since : Nat} {candidate : CandidateSelection}
    (hv : s.verifySinceMs = some since) (hc : s.candidate = some candidate) (es : List Effect) :
    Decides (advanceVerification s o es) (Advances s o es) := by
  unfold advanceVerification
  rw [hv, hc]
  dsimp only
  rcases advancePreparation_cases s o candidate since es with
    hsame | ⟨planning, planHash, hp, hf, hb, hl, hq, hplan, hash, hadv⟩
  · rw [hsame]
    dsimp only
    split
    next hfin =>
      rw [h.discardPlanning_eq, Outcome.ok_bind]
      exact .of_decision (Advances.finalized since candidate hv hc hfin.1 hfin.2)
    next hfin =>
      split
      next hb => exact .of_decision (Advances.adopted since candidate hv hc hb.1 hb.2)
      next hb =>
        have settles : Decides
            (advanceVerification.settleVerification s (proofComplete s o since) o.observedAtMs es)
            (Advances s o es) := by
          unfold advanceVerification.settleVerification
          split
          next hblocked =>
            exact .of_decision (Advances.settled since candidate _ hv hc
              (.inr ⟨rfl, hblocked.1, hblocked.2⟩))
          next => exact .of_decision (Advances.settled since candidate _ hv hc (.inl rfl))
        split
        next preparation hprep hnone =>
          split
          next hready =>
            have hf : s.desktopFinalizedProfile ≠ some candidate.profile :=
              fun he => hfin ⟨hready.1, he⟩
            have hb : s.baselineAdoption = false := by
              by_contra hne
              exact hb ⟨hready.1, by simpa using hne⟩
            exact .of_decision (Advances.finalizes since candidate preparation hv hc hready.1 hf hb
              hprep hready.2 hnone)
          next => exact settles
        next => exact settles
  · have hstep : Advances s o es _ :=
      Advances.prepares since candidate planning planHash hv hc hp hf hb hplan hl hash hq
    rw [hadv]
    let s' : State :=
      { allocateAction s with
        preparationState := .preparePending
        preparation := some (preparationFor s o candidate planning planHash) }
    have settles : Decides
        (advanceVerification.settleVerification s' (proofComplete s o since) o.observedAtMs
          (es ++ [(preparationFor s o candidate planning planHash).prepare o.observationKey]))
        (Advances s o es) := by
      unfold advanceVerification.settleVerification
      split
      next hblocked => simp [s', allocateAction, hl] at hblocked
      next => exact .of_decision hstep
    change Decides (if _ ∧ _ then _ else _) _
    split
    next hfin => exact absurd hfin.2 hf
    next =>
      split
      next hadopt => exact absurd hadopt.2 (by simp [allocateAction, hb])
      next =>
        split
        next =>
          split
          next hready => simp [allocateAction] at hready
          next => exact settles
        next => exact settles

/-- A verification in progress has a start and a candidate. -/
theorem startVerification_decides (h : s.Tidy) (target : ProfileMatch)
    (R : Decision → Prop)
    (hR : ∀ s' es s'' fs d, Verifies s o target s' es →
      Plans { s' with phase := .verifying } o target s'' fs → Advances s'' o (es ++ fs) d → R d) :
    Decides (startVerification s o target) R := by
  -- What follows once the proof is kept, replanned or restarted.
  have continues (s' es) (hv : Verifies s o target s' es) (ht : s'.Tidy)
      (hsince : s'.verifySinceMs ≠ none) (hcandidate : s'.candidate ≠ none) :
      Decides
        (if s'.desktopFinalizedProfile ≠ some target.profile ∧ s'.baselineAdoption = false ∧
            s'.planningState = .planIdle then
          advanceVerification (admitPlan { s' with phase := .verifying } o target) o
            (es ++ [(planFor { s' with phase := .verifying } o target).request])
        else advanceVerification { s' with phase := .verifying } o es) R := by
    obtain ⟨since, hs⟩ := Option.ne_none_iff_exists'.mp hsince
    obtain ⟨candidate, hc⟩ := Option.ne_none_iff_exists'.mp hcandidate
    let v : State := { s' with phase := .verifying }
    split
    next hplan =>
      have hp : Plans v o target _ _ := .admitted hplan.1 hplan.2.1 hplan.2.2
      exact (advanceVerification_decides (s := admitPlan v o target) ht hs hc _).mono
        fun d hd => hR s' es _ _ d hv hp hd
    next hplan =>
      have hp : Plans v o target _ _ := .kept hplan
      exact (advanceVerification_decides (s := v) ht hs hc es).mono
        fun d hd => hR s' es _ _ d hv hp ((List.append_nil es).symm ▸ hd)
  unfold startVerification
  by_cases hs : sameProof s o target
  · obtain ⟨-, ⟨c, hc, -⟩, hsince⟩ := id hs
    have hcandidate : s.candidate ≠ none := by simp [Option.mem_def.mp hc]
    by_cases hi : planningInputsChanged s o target
    · simp only [hs, hi, decide_true, Bool.not_true, or_true, if_true, h.discardPlanning_eq,
        Outcome.ok_bind]
      exact continues _ _ (.replanned hs hi) h.dropPlan hsince hcandidate
    · simp only [hs, hi, decide_true, Bool.not_true, Bool.false_eq_true, or_false, if_false,
        Outcome.ok_bind]
      exact continues _ _ (.kept hs hi) h hsince hcandidate
  · simp only [hs, decide_false, Bool.not_false, true_or, if_true, Bool.false_eq_true, if_false,
      h.discardPlanning_eq, Outcome.ok_bind]
    have hv : Verifies s o target _ _ := .restarted hs
    exact continues _ _ hv h.dropPlan (by simp [restartProof]) (by simp [restartProof])

theorem admitProbe_decides (h : s.Tidy) (hz : o.displayPower ≠ .asleep)
    (hn : o.probeCandidate ≠ none) :
    Decides (admitProbe (clearUnknown s) o) (Selects s o) := by
  unfold admitProbe
  cases hc : o.probeCandidate with
  | none => exact absurd hc hn
  | some candidate =>
    dsimp only
    split
    next hk => exact (enterWait_decides _ _).mono fun d hd => .waitsKnown hd candidate hz hc hk
    next hk =>
      have ht : (clearUnknown s).Tidy := h
      rw [ht.discardPlanning_eq, Outcome.ok_bind]
      exact .of_decision (Selects.probes candidate hz hc _ rfl hk)

theorem admitApplication_decides {target : ProfileMatch} (ht : Targets o target)
    (hz : o.displayPower ≠ .asleep) (hx : ¬ shownExactly o target) :
    Decides (admitApplication (clearUnknown s) o target) (Selects s o) := by
  unfold admitApplication
  dsimp only
  split
  next hk =>
    have hdue : ¬ slowRetryDue s = true := hk.2
    exact (enterWait_decides _ _).mono fun d hd => .waitsSpent target ht hz hd hx hk.1 (by simpa using hdue)
  next hk =>
    refine .of_decision (Selects.applies target ht hz hx _ rfl fun hmem => ?_)
    by_contra hdue
    exact hk ⟨hmem, hdue⟩

theorem rearmAchievedApplication_eq (s : State) (profile : Text) :
    ∃ keys ⊆ s.attemptedApplicationKeys, ∃ retries,
      rearmAchievedApplication s profile =
        { s with attemptedApplicationKeys := keys, immediateRetryUsedProfiles := retries } := by
  unfold rearmAchievedApplication
  split
  · exact ⟨_, subset_rfl, _, rfl⟩
  · split
    · exact ⟨_, subset_rfl, _, rfl⟩
    · exact ⟨_, Finset.filter_subset _ _, _, rfl⟩

theorem classifyUnknown_decides (hc : o.probeCandidate = none) (ht : selectTarget o = none) :
    Decides (classifyUnknown s o) (Selects s o) := by
  have settles (since) (hs : s.unknownSinceMs = some since ∧
      s.unknownKey = some o.observationKey ∨ since = o.observedAtMs) :
      let s' : State :=
        { s with
          unknownKey := some o.observationKey
          unknownSinceMs := some since
          verifySinceMs := none }
      Decides
        (if since + unknownStabilityMs ≤ o.observedAtMs then
          schedule { s' with phase := .unsupported } (o.observedAtMs + healthPollMs) []
        else schedule { s' with phase := .discoverFast } (o.observedAtMs + 1000) [])
        (Selects s o) := by
    intro s'
    split
    next hold =>
      exact .of_decision (Selects.unknown .unsupported since _ (.inl ⟨rfl, rfl, hold⟩) hs hc ht)
    next => exact .of_decision (Selects.unknown .discoverFast since _ (.inr ⟨rfl, rfl⟩) hs hc ht)
  unfold classifyUnknown
  dsimp only
  split
  next =>
    cases hu : s.unknownSinceMs with
    | none => exact settles _ (.inr rfl)
    | some since =>
      by_cases hk : s.unknownKey = some o.observationKey
      · simp only [hk, if_true]
        exact settles since (.inl ⟨hu, hk⟩)
      · simp only [hk, if_false]
        exact settles _ (.inr rfl)
  next => exact (enterWait_decides _ _).mono fun d hd => .waits hd hc ht

theorem classifyTarget_decides (h : s.Tidy) : Decides (classifyTarget s o) (Selects s o) := by
  unfold classifyTarget
  dsimp only
  split
  next hn =>
    split
    next hz => exact .of_decision (Selects.deferred (by simpa using hz) (.inl hn))
    next hz => exact admitProbe_decides h (by simpa using hz) hn
  next hn =>
    have hc : o.probeCandidate = none := by simpa using hn
    cases ht : selectTarget o with
    | none => exact classifyUnknown_decides hc ht
    | some target =>
      dsimp only
      split
      next hx =>
        split
        next hs => exact .of_decision (Selects.stable target ⟨hc, ht⟩ hx hs)
        next =>
          have htidy : (rearmAchievedApplication (clearUnknown s) target.profile).Tidy := by
            obtain ⟨keys, -, retries, heq⟩ :=
              rearmAchievedApplication_eq (clearUnknown s) target.profile
            rw [heq]
            exact h
          exact startVerification_decides htidy target _ fun s' es s'' fs d hv hp ha =>
            .verifies target s' es s'' fs ⟨hc, ht⟩ hx hv hp ha
      next hx =>
        split
        next hz =>
          exact .of_decision (Selects.deferred (by simpa using hz) (.inr ⟨target, ⟨hc, ht⟩, hx⟩))
        next hz => exact admitApplication_decides ⟨hc, ht⟩ (by simpa using hz) hx

theorem retainFailure_cases (s : State) (o : CanonicalObservation) :
    retainFailure s o = (s, true) ∨ retainFailure s o = (s, false) ∨
      (s.phase = .probeFailed ∧ retainFailure s o = (s.clearSlot .probe, false)) ∨
      (s.phase = .applyFailed ∧ retainFailure s o = (s.clearSlot .application, false)) ∨
      (s.phase = .finalizeFailed ∧ retainFailure s o = (s.clearSlot .finalization, false)) := by
  unfold retainFailure
  split
  next hp _ =>
    split
    next => exact .inl rfl
    next => exact .inr (.inr (.inl ⟨hp, rfl⟩))
  next hp _ =>
    split
    next => exact .inl rfl
    next => exact .inr (.inr (.inr (.inl ⟨hp, rfl⟩)))
  next hp _ =>
    split
    next => exact .inl rfl
    next => exact .inr (.inr (.inr (.inr ⟨hp, rfl⟩)))
  next => exact .inr (.inl rfl)

theorem handleUnplug_eq (hu : ∀ p ∈ s.unplugProof, p.latestObservedAtMs ≤ o.observedAtMs) :
    ∃ s' complete, handleUnplug s o = .ok (s', complete) ∧ Unplugs s o s' complete := by
  unfold handleUnplug
  split
  next hi => exact ⟨_, _, rfl, .unneeded hi⟩
  next hi =>
    have hi : s.externalIntent = true := by simpa using hi
    obtain ⟨proof, hp⟩ : ∃ proof, extendUnplugProof s.unplugProof o = .ok proof := by
      unfold extendUnplugProof
      cases hproof : s.unplugProof with
      | none => exact ⟨_, rfl⟩
      | some p =>
        have hle := p.ordered.trans (hu p hproof)
        exact ⟨_, dif_pos hle⟩
    rw [hp, Outcome.ok_bind]
    split
    next hc => exact ⟨_, _, rfl, .complete proof hi hp hc⟩
    next hc => exact ⟨_, _, rfl, .incomplete proof hi hp hc⟩

theorem classifySettled_decides {s' : State} (hs : Settles s o s') (h : s'.Tidy) :
    Decides (classifySettled s' o) (Classifies s o) := by
  unfold classifySettled
  dsimp only
  have released (s'' : State) (ht : s''.Tidy) (hr : retainFailure s' o = (s'', false)) :
      Decides (if (retainFailure s' o).2 then
        schedule (retainFailure s' o).1 (o.observedAtMs + healthPollMs) []
        else classifyTarget (retainFailure s' o).1 o) (Classifies s o) := by
    rw [hr, if_neg Bool.false_ne_true]
    exact (classifyTarget_decides ht).mono fun d hd => .selected s' s'' hs hr hd
  rcases retainFailure_cases s' o with hr | hr | ⟨-, hr⟩ | ⟨-, hr⟩ | ⟨-, hr⟩
  · rw [hr, if_pos rfl]
    exact .of_decision (Classifies.retained s' hs hr)
  · exact released _ h hr
  · exact released (s'.clearSlot .probe) h hr
  · exact released (s'.clearSlot .application) h hr
  · exact released (s'.clearSlot .finalization) h hr

theorem Unplugs.tidy {s' : State} {complete : Bool} (hu : Unplugs s o s' complete) (h : s.Tidy) :
    s'.Tidy := by
  cases hu <;> exact h

theorem classifyUnpending_decides (h : s.Tidy)
    (hu : ∀ p ∈ s.unplugProof, p.latestObservedAtMs ≤ o.observedAtMs) :
    Decides (classifyUnpending s o) (Classifies s o) := by
  unfold classifyUnpending
  split
  next he => exact classifySettled_decides (.external he) h
  next he =>
    have he : o.hasExternalHardware = false := by simpa using he
    obtain ⟨s', complete, heq, hstep⟩ := handleUnplug_eq hu
    rw [heq, Outcome.ok_bind]
    cases complete with
    | true => exact classifySettled_decides (.unplugged he hstep) (hstep.tidy h)
    | false => exact .of_decision (Classifies.unplugging s' he hstep)

end MonitorController
