import MonitorController.Safety.Totality

/-! # Wakes

A reachable state has a wake unless it is at rest or a worker with a deadline
runs. Only a decision at rest and a dispatch leave the state without one.
-/

namespace MonitorController

/-- Without a wake the controller rests, or a worker with a deadline runs. -/
def Watched (s : State) : Prop :=
  s.nextTimerMs = none → s.phase = .recovering ∨ s.phase = .quiescent ∨
    (∃ a ∈ s.probe, a.lifecycle = .dispatched) ∨ ∃ a ∈ s.application, a.lifecycle = .dispatched

section Samples

variable {s : State} {o : CanonicalObservation} {d : Decision}

theorem Waits.wakes {nowMs : Nat} (h : Waits s nowMs d) : d.state.nextTimerMs ≠ none := by
  cases h with
  | wait phase aggressive index t hp hd hs => exact Option.some_ne_none t

theorem Advances.wakes {es : List Effect} (h : Advances s o es d) :
    d.state.nextTimerMs = none → d.state.phase = .quiescent := by
  intro hn
  cases h with
  | finalized since candidate hv hc hp hf => rfl
  | adopted since candidate hv hc hp hb => rfl
  | finalizes since candidate preparation hv hc hp hf hb hq hqs hnone => cases hn
  | prepares since candidate planning planHash hv hc hp hf hb hl hls hh hqs => cases hn
  | settled since candidate t hv hc ht => cases hn

theorem Selects.wakes (h : Selects s o d) :
    d.state.nextTimerMs = none → d.state.phase = .quiescent := by
  intro hn
  cases h with
  | deferred hz => cases hn
  | waits hw => exact absurd hn hw.wakes
  | waitsKnown hw => exact absurd hn hw.wakes
  | waitsSpent target ht hz hw => exact absurd hn hw.wakes
  | probes candidate hz hc action ha hk => cases hn
  | stable target ht hx hs => rfl
  | verifies target s' es s'' fs ht hx hv hp ha => exact ha.wakes hn
  | applies target ht hz hx action ha hk => cases hn
  | unknown phase since t hp hs => cases hn

theorem Classifies.wakes (h : Classifies s o d) :
    d.state.nextTimerMs = none → d.state.phase = .quiescent := by
  intro hn
  cases h with
  | unplugging s' he hu => cases hn
  | retained s' hs hr => cases hn
  | selected s' s'' hs hr hd => exact hd.wakes hn

theorem Observed.wakes {prior : Option CanonicalObservation} (h : Observed s prior o d) :
    d.state.nextTimerMs = none → d.state.phase = .quiescent := by
  intro hn
  cases h with
  | completed a hv ha hl he => rfl
  | classified s' es d hv hf hc => exact hc.wakes hn
  | _ => cases hn

end Samples

theorem Sound.watched {s : State} (h : Sound s) (hw : Watched s) {e : Event} {d : Decision}
    (hs : Step s e d) : Watched d.state := by
  intro hn
  cases hs with
  | ignored e hi => exact hw hn
  | observed e hb hf ho => exact .inr (.inl (ho.wakes hn))
  | probeDispatched e a w ha hl hi hd => exact .inr (.inr (.inl ⟨_, rfl, by subst hd; rfl⟩))
  | applicationDispatched e a w ha hl hi hd =>
    exact .inr (.inr (.inr ⟨_, rfl, by subst hd; rfl⟩))
  | preparationDispatched e a w ha hl hi hd =>
    have hphase := h.control.pending_verifying (h.control.preparation_pending ha hl)
    exact absurd hn (h.wake (by rw [hphase]; rfl))
  | finalizationDispatched e a w ha hl hi hd =>
    have hphase : s.phase = .finalizePending := h.control.finalization_pending ha hl
    exact absurd hn (h.wake (by rw [hphase]; rfl))
  | planRequested e p hp hs hi hk => exact hw hn
  | _ => cases hn

theorem Reachable.watched {s : State} (h : Reachable s) : Watched s := by
  refine Runs.Reachable.invariant ?_ ?_ h
  · rintro _ ⟨bootId, instanceId, display, session, rfl⟩
    exact fun _ => .inl rfl
  · rintro s e d _ hs hw ⟨hr, rfl⟩
    have hsound := Reachable.sound hs
    exact hsound.watched hw (hsound.reduces hr).2.1

/-- Outside rest and running loads a wake is set, and a load without one has a deadline. -/
theorem never_abandoned {s : State} (hs : Reachable s) :
    (s.phase ∉ [ControllerPhase.recovering, .quiescent, .probing, .applying] →
      s.nextTimerMs ≠ none) ∧
    (s.phase = .probing → s.nextTimerMs ≠ none ∨
      ∃ a ∈ s.probe, a.lifecycle = .dispatched ∧ a.workerDeadlineMs ≠ none) ∧
    (s.phase = .applying → s.nextTimerMs ≠ none ∨
      ∃ a ∈ s.application, a.lifecycle = .dispatched ∧ a.workerDeadlineMs ≠ none) := by
  have hsound := hs.sound
  have hwatched := hs.watched
  have hprobing : ∀ a ∈ s.probe, a.lifecycle = .dispatched →
      s.phase = .probing ∧ a.workerDeadlineMs ≠ none := fun a ha hl =>
    ⟨(hsound.control.probe_flying ha (.inl hl)).1,
      ((hsound.attempts.probe a ha).1.unit (by rw [hl]; rfl)).2⟩
  have happlying : ∀ a ∈ s.application, a.lifecycle = .dispatched →
      s.phase = .applying ∧ a.workerDeadlineMs ≠ none := fun a ha hl =>
    ⟨(hsound.control.application_flying ha (.inl hl)).1,
      ((hsound.attempts.application a ha).1.unit (by rw [hl]; rfl)).2⟩
  refine ⟨fun hp hn => ?_, fun hp => ?_, fun hp => ?_⟩
  · simp only [List.mem_cons, List.not_mem_nil, or_false, not_or] at hp
    obtain ⟨hrecovering, hquiescent, hnotProbing, hnotApplying⟩ := hp
    rcases hwatched hn with hq | hq | ⟨a, ha, hl⟩ | ⟨a, ha, hl⟩
    · exact hrecovering hq
    · exact hquiescent hq
    · exact hnotProbing (hprobing a ha hl).1
    · exact hnotApplying (happlying a ha hl).1
  · by_cases hn : s.nextTimerMs = none
    · rcases hwatched hn with hq | hq | ⟨a, ha, hl⟩ | ⟨a, ha, hl⟩
      · simp [hp] at hq
      · simp [hp] at hq
      · exact .inr ⟨a, ha, hl, (hprobing a ha hl).2⟩
      · simp [hp] at happlying
        exact absurd hl (happlying a ha)
    · exact .inl hn
  · by_cases hn : s.nextTimerMs = none
    · rcases hwatched hn with hq | hq | ⟨a, ha, hl⟩ | ⟨a, ha, hl⟩
      · simp [hp] at hq
      · simp [hp] at hq
      · simp [hp] at hprobing
        exact absurd hl (hprobing a ha)
      · exact .inr ⟨a, ha, hl, (happlying a ha hl).2⟩
    · exact .inl hn

theorem never_abandoned_loading :
    (Scenario.loading.phase ∉ [ControllerPhase.recovering, .quiescent, .probing, .applying] →
      Scenario.loading.nextTimerMs ≠ none) ∧
    (Scenario.loading.phase = .probing → Scenario.loading.nextTimerMs ≠ none ∨
      ∃ a ∈ Scenario.loading.probe, a.lifecycle = .dispatched ∧ a.workerDeadlineMs ≠ none) ∧
    (Scenario.loading.phase = .applying → Scenario.loading.nextTimerMs ≠ none ∨
      ∃ a ∈ Scenario.loading.application, a.lifecycle = .dispatched ∧ a.workerDeadlineMs ≠ none) :=
  never_abandoned Scenario.loading_reachable

end MonitorController
