import MonitorController.Safety.Totality

/-! # The display-mutation boundary

At most one display worker is live, and one which runs or is being stopped
leaves its slot only by its own result or by its acknowledged stop.
-/

namespace MonitorController

theorem State.mutator_of_mem {s : State} {r : ActionRecord} (hr : r ∈ s.actions)
    (hk : r.kind ≠ .plan) :
    ∃ w ∈ s.mutators, w.actionId = r.actionId ∧ w.lifecycle = r.lifecycle := by
  cases r with
  | probe a => exact ⟨_, State.mem_mutators.mpr (.inl ⟨a, State.probe_of_mem hr, rfl⟩), rfl, rfl⟩
  | application a =>
    exact ⟨_, State.mem_mutators.mpr (.inr (.inl ⟨a, State.application_of_mem hr, rfl⟩)), rfl, rfl⟩
  | planning a => exact absurd rfl hk
  | preparation a =>
    exact ⟨_, State.mem_mutators.mpr (.inr (.inr (.inl ⟨a, State.preparation_of_mem hr, rfl⟩))),
      rfl, rfl⟩
  | finalization a =>
    exact ⟨_, State.mem_mutators.mpr (.inr (.inr (.inr ⟨a, State.finalization_of_mem hr, rfl⟩))),
      rfl, rfl⟩

theorem State.eq_of_actionId {s : State} {r r' : ActionRecord} (hr : r ∈ s.actions)
    (hr' : r' ∈ s.actions) (h : r'.actionId = r.actionId) : r' = r := by
  have hkind : r'.kind = r.kind := by rw [← r'.kind_eq, ← r.kind_eq, h]
  have hslot := State.slot_of_mem_actions hr'
  rw [hkind, State.slot_of_mem_actions hr] at hslot
  exact (Option.some.inj hslot).symm

theorem Core.live_unique {s : State} (h : Core s) {r r' : ActionRecord} (hr : r ∈ s.actions)
    (hk : r.kind ≠ .plan) (hl : r.lifecycle.terminal = false) (hr' : r' ∈ s.actions)
    (hk' : r'.kind ≠ .plan) (hl' : r'.lifecycle.terminal = false) : r' = r := by
  obtain ⟨w, hw, hwid, hwl⟩ := State.mutator_of_mem hr hk
  obtain ⟨v, hv, hvid, hvl⟩ := State.mutator_of_mem hr' hk'
  rcases h.live_alone hw (by rw [hwl]; exact hl) hv with rfl | ht
  · exact State.eq_of_actionId hr hr' (hvid.symm.trans hwid)
  · rw [hvl, hl'] at ht
    cases ht

theorem Withdraws.mem {s s' : State} {r : ActionRecord} {es : List Effect}
    (h : Withdraws s r s' es) : r ∈ s.actions ∧ r.kind ≠ .plan := by
  cases h with
  | preparation a ha => exact ⟨State.mem_actions_preparation ha, by simp [ActionRecord.kind]⟩
  | finalization a ha => exact ⟨State.mem_actions_finalization ha, by simp [ActionRecord.kind]⟩

theorem Revokes.mem {s s' : State} {r : ActionRecord} {es : List Effect}
    (h : Revokes s r s' es) : r ∈ s.actions ∧ r.kind ≠ .plan := by
  cases h with
  | desktop h => exact h.mem
  | probe a ha => exact ⟨State.mem_actions_probe ha, by simp [ActionRecord.kind]⟩
  | application a ha => exact ⟨State.mem_actions_application ha, by simp [ActionRecord.kind]⟩

/-- The worker is still in its slot and may still mutate the display; a requested stop stands. -/
def Holds (r : ActionRecord) (s' : State) : Prop :=
  ∃ r', s'.slot r.kind = some r' ∧ r'.actionId = r.actionId ∧
    r'.lifecycle.mutatingInFlight = true ∧ (r.lifecycle = .stopping → r'.lifecycle = .stopping)

/-- The worker's own result, or the acknowledgement of its stop. -/
def Releases (e : Event) (r : ActionRecord) : Prop :=
  (e.finished? = some r.actionId ∧ r.lifecycle = .dispatched) ∨
    ∃ a, e = .workerCancellationAcknowledged a ∧ a.actionId = r.actionId ∧
      r.lifecycle = .stopping

theorem Ends.releases {e : Event} {r : ActionRecord} {l : ActionLifecycle} (h : Ends e r l) :
    Releases e r := by
  cases h with
  | finished he hr hl => exact .inl ⟨he, hr⟩
  | acknowledged he hr => exact .inr ⟨_, rfl, he, hr⟩

theorem Fails.ends_or_admitted {e : Event} {r : ActionRecord} {l : ActionLifecycle}
    (h : Fails e r l) (hk : r.kind ≠ .plan) : Ends e r l ∨ r.lifecycle = .admitted := by
  cases h with
  | ended h => exact .inl h
  | rejected he hl => exact .inr hl
  | unknown he hplan hl => exact absurd hplan hk
  | planFailed he hplan hl => exact absurd hplan hk

theorem Holds.of_flying {s s' : State} {r : ActionRecord} (hr : r ∈ s.actions)
    (hl : r.lifecycle.mutatingInFlight = true) (hs : s'.slot r.kind = s.slot r.kind) :
    Holds r s' :=
  ⟨r, hs.trans (State.slot_of_mem_actions hr), rfl, hl, id⟩

section Running

variable {s : State} {r : ActionRecord} (hr : r ∈ s.actions) (hk : r.kind ≠ .plan)
  (hl : r.lifecycle = .dispatched ∨ r.lifecycle = .stopping)
include hr hl

theorem Holds.of_slot {s' : State} (hs : s'.slot r.kind = s.slot r.kind) : Holds r s' := by
  refine .of_flying hr ?_ hs
  rcases hl with hl | hl <;> rw [hl] <;> rfl

include hk

/-- Another display worker next to a running one has ended, and the running one has no other
lifecycle. -/
theorem Core.running_unique (h : Core s) {r' : ActionRecord} (hr' : r' ∈ s.actions)
    (hk' : r'.kind ≠ .plan) (hl' : r'.lifecycle.terminal = false) : r' = r :=
  h.live_unique hr hk (by rcases hl with hl | hl <;> rw [hl] <;> rfl) hr' hk' hl'

theorem Core.not_admitted (h : Core s) {r' : ActionRecord} (hr' : r' ∈ s.actions)
    (hk' : r'.kind ≠ .plan) (hl' : r'.lifecycle = .admitted) : False := by
  obtain rfl := h.running_unique hr hk hl hr' hk' (by rw [hl']; rfl)
  rcases hl with hl | hl <;> simp [hl] at hl'

theorem Core.not_reported (h : Core s) {r' : ActionRecord} (hr' : r' ∈ s.actions)
    (hk' : r'.kind ≠ .plan) (hl' : r'.lifecycle = .resultPending) : False := by
  obtain rfl := h.running_unique hr hk hl hr' hk' (by rw [hl']; rfl)
  rcases hl with hl | hl <;> simp [hl] at hl'

/-- No sample is classified while a worker runs or is being stopped. -/
theorem Core.not_freed (h : Core s) {prior : Option CanonicalObservation}
    {o : CanonicalObservation} {s' : State} {es : List Effect} (hf : Frees s prior o s' es) :
    False := by
  obtain ⟨w, hw, -, hwl⟩ := State.mutator_of_mem hr hk
  have hflying : w.lifecycle.mutatingInFlight = true := by
    rw [hwl]
    rcases hl with hl | hl <;> rw [hl] <;> rfl
  cases hf with
  | entered ht hn => simp [hn w hw] at hflying
  | idle ht hb => exact hb ⟨w, hw, ActionLifecycle.live_of_inFlight hflying⟩
  | cancelled ht hc =>
    have hnone := h.none_admitted hw hflying
    cases hc with
    | probe a ha hla hc =>
      exact h.not_admitted hr hk hl (State.mem_actions_probe ha) (by simp [ActionRecord.kind]) hla
    | application a ha hla hc =>
      exact h.not_admitted hr hk hl (State.mem_actions_application ha) (by simp [ActionRecord.kind])
        hla
    | preparation a ha hla hc =>
      exact h.not_admitted hr hk hl (State.mem_actions_preparation ha) (by simp [ActionRecord.kind])
        hla
    | finalization a ha hla hc =>
      exact h.not_admitted hr hk hl (State.mem_actions_finalization ha)
        (by simp [ActionRecord.kind]) hla
  | concluded a b ht ha hla he hb hbl =>
    exact h.not_reported hr hk hl (State.mem_actions_preparation ha) (by simp [ActionRecord.kind])
      hla

/-- A sample keeps a running worker, or requests its stop. -/
theorem Core.observed_holds (h : Core s) {prior : Option CanonicalObservation}
    {o : CanonicalObservation} {d : Decision} (ho : Observed s prior o d) : Holds r d.state := by
  cases ho with
  | revoked r' s' es t hv hl' hr' ht =>
    obtain ⟨hmem, hk'⟩ := hr'.mem
    exact (h.not_admitted hr hk hl hmem hk' hl').elim
  | invalid phase t hv hn hp ht => exact .of_slot hr hl (by cases r <;> rfl)
  | invalidInternal a t hv ha hi ht =>
    have hla : a.lifecycle.terminal = false := by
      have := hi.2.2
      simp only [List.mem_cons, List.not_mem_nil, or_false] at this
      rcases this with hl | hl <;> rw [hl] <;> rfl
    obtain rfl := h.running_unique hr hk hl (State.mem_actions_application ha)
      (by simp [ActionRecord.kind]) hla
    exact ⟨_, rfl, rfl, rfl, fun _ => rfl⟩
  | internal a t hv ha hi ht =>
    have hla : a.lifecycle = .dispatched := by simpa using hi.2.2
    obtain rfl := h.running_unique hr hk hl (State.mem_actions_application ha)
      (by simp [ActionRecord.kind]) (congrArg ActionLifecycle.terminal hla)
    exact ⟨_, rfl, rfl, rfl, fun _ => rfl⟩
  | stopping w t hv hw hlw ht => exact .of_slot hr hl (by cases r <;> rfl)
  | stopped r' s' t hv hs hi hc ht =>
    cases hs with
    | probe a ha hla =>
      obtain rfl := h.running_unique hr hk hl (State.mem_actions_probe ha)
        (by simp [ActionRecord.kind]) (congrArg ActionLifecycle.terminal hla)
      exact ⟨_, rfl, rfl, rfl, fun _ => rfl⟩
    | application a ha hla =>
      obtain rfl := h.running_unique hr hk hl (State.mem_actions_application ha)
        (by simp [ActionRecord.kind]) (congrArg ActionLifecycle.terminal hla)
      exact ⟨_, rfl, rfl, rfl, fun _ => rfl⟩
    | preparation a ha hla =>
      obtain rfl := h.running_unique hr hk hl (State.mem_actions_preparation ha)
        (by simp [ActionRecord.kind])
        (by rcases hla with hla | hla <;> exact congrArg ActionLifecycle.terminal hla)
      exact ⟨_, rfl, rfl, rfl, fun _ => rfl⟩
    | finalization a ha hla =>
      obtain rfl := h.running_unique hr hk hl (State.mem_actions_finalization ha)
        (by simp [ActionRecord.kind]) (congrArg ActionLifecycle.terminal hla)
      exact ⟨_, rfl, rfl, rfl, fun _ => rfl⟩
  | refused s' t hv hs ht hc =>
    cases hs with
    | finalization a b v ha hla hb hbl hv =>
      exact (h.not_reported hr hk hl (State.mem_actions_finalization ha)
        (by simp [ActionRecord.kind]) hla).elim
    | preparation a b ha hla hb hbl =>
      exact (h.not_reported hr hk hl (State.mem_actions_preparation ha)
        (by simp [ActionRecord.kind]) hla).elim
  | running t hv ht hr' hd => exact .of_slot hr hl (by cases r <;> rfl)
  | completed a hv ha hla he =>
    exact (h.not_reported hr hk hl (State.mem_actions_finalization ha)
      (by simp [ActionRecord.kind]) hla).elim
  | uncertain a t hv ht ha hla he hd => exact .of_slot hr hl (by cases r <;> rfl)
  | preparing a t hv ht ha hla he hd => exact .of_slot hr hl (by cases r <;> rfl)
  | confirmed s' eff hv ht hc =>
    cases hc with
    | probe a ha hla hc =>
      exact (h.not_admitted hr hk hl (State.mem_actions_probe ha) (by simp [ActionRecord.kind])
        hla).elim
    | application a ha hla hc =>
      exact (h.not_admitted hr hk hl (State.mem_actions_application ha)
        (by simp [ActionRecord.kind]) hla).elim
    | preparation a ha hla hc =>
      exact (h.not_admitted hr hk hl (State.mem_actions_preparation ha)
        (by simp [ActionRecord.kind]) hla).elim
    | finalization a ha hla hc =>
      exact (h.not_admitted hr hk hl (State.mem_actions_finalization ha)
        (by simp [ActionRecord.kind]) hla).elim
  | classified s' es d hv hf hc => exact (h.not_freed hr hk hl hf).elim

/-- A step keeps a running worker unless the event releases it or changes the boot. -/
theorem Sound.holds (h : Sound s) {e : Event} {d : Decision} (hs : Step s e d)
    (hrel : ¬ Releases e r) (hboot : ∀ b, e ≠ .bootChanged b) : Holds r d.state := by
  have ended {r' : ActionRecord} {l : ActionLifecycle} (hr' : r' ∈ s.actions)
      (hk' : r'.kind ≠ .plan) (he : Ends e r' l) : False := by
    obtain rfl := h.running_unique hr hk hl hr' hk'
      (ActionLifecycle.live_of_inFlight he.live.1)
    exact hrel he.releases
  cases hs with
  | ignored e hi => exact .of_slot hr hl rfl
  | observed e hb hf ho =>
    have hrecorded : Core (recordObservation s e.observation) :=
      (h.recorded (e.same_boot.trans hb) hf).toCore
    exact hrecorded.observed_holds (s := recordObservation s e.observation) hr hk hl ho
  | observationFailed e t ht => exact .of_slot hr hl (by cases r <;> rfl)
  | timerFired e t ht => exact .of_slot hr hl (by cases r <;> rfl)
  | hinted e s' es t hb hg ht hh =>
    cases hh with
    | withdrawn hl' hw =>
      exact (h.not_admitted hr hk hl hw.mem.1 hw.mem.2 hl').elim
    | reopened hq hf hp => exact .of_slot hr hl (by cases r <;> rfl)
    | kept hp => exact .of_slot hr hl (by cases r <;> rfl)
  | dirtied e r' s' es t hb hr' he hl' hg ht hw =>
    rcases hw with hw | ⟨-, rfl, -⟩
    · exact (h.not_admitted hr hk hl hw.mem.1 hw.mem.2 hl').elim
    · exact .of_slot hr hl (by cases r <;> rfl)
  | probeDispatched e a w ha hla hi hd =>
    exact (h.not_admitted hr hk hl (State.mem_actions_probe ha) (by simp [ActionRecord.kind])
      hla).elim
  | applicationDispatched e a w ha hla hi hd =>
    exact (h.not_admitted hr hk hl (State.mem_actions_application ha) (by simp [ActionRecord.kind])
      hla).elim
  | preparationDispatched e a w ha hla hi hd =>
    exact (h.not_admitted hr hk hl (State.mem_actions_preparation ha) (by simp [ActionRecord.kind])
      hla).elim
  | finalizationDispatched e a w ha hla hi hd =>
    exact (h.not_admitted hr hk hl (State.mem_actions_finalization ha)
      (by simp [ActionRecord.kind]) hla).elim
  | planRequested e p hp hs hi hk' =>
    cases r with
    | planning a => exact absurd rfl hk
    | _ => exact .of_slot hr hl rfl
  | planCompleted e p t hp hs hi hk' ht =>
    cases r with
    | planning a => exact absurd rfl hk
    | _ => exact .of_slot hr hl rfl
  | planRetried e p t hp hs hi hk' hretry ht =>
    have hlive : p.lifecycle.terminal = false := by
      rcases hs with hs | hs
      · rw [(h.control.planning_running hp).1 hs]; rfl
      · rw [(h.control.planning_running hp).2 hs]; rfl
    have hidle := (h.control.planning_live hp hlive).2
    cases r with
    | planning a => exact absurd rfl hk
    | preparation a =>
      have hactive := h.control.preparation_live (State.preparation_of_mem hr)
        (by rcases hl with hl | hl <;> exact congrArg ActionLifecycle.terminal hl)
      simp [hidle, PreparationState.active] at hactive
    | _ => exact .of_slot hr hl rfl
  | stopRepeated e r' t hr' hl' he ht => exact .of_slot hr hl (by cases r <;> rfl)
  | closed e r' l v es t hr' hk' he hl' hv hes ht => exact (ended hr' hk' he).elim
  | failed e r' r'' phase es t hr' hc hf he hp hes =>
    by_cases hk' : r'.kind = .plan
    · cases hc with
      | planning a l x =>
        cases r with
        | planning a => exact absurd rfl hk
        | _ => exact .of_slot hr hl rfl
      | _ => cases hk'
    · rcases he.ends_or_admitted hk' with he | hl'
      · exact (ended hr' hk' he).elim
      · exact (h.not_admitted hr hk hl hr' hk' hl').elim
  | preparationReported e a b t ha he hb hl' ht =>
    exact (ended (State.mem_actions_preparation ha) (by simp [ActionRecord.kind]) he).elim
  | finalizationReported e a b t ha he hb hl' ht =>
    exact (ended (State.mem_actions_finalization ha) (by simp [ActionRecord.kind]) he).elim
  | doubted e r' v t hr' hk' hl' he ht =>
    obtain rfl := h.running_unique hr hk hl hr' hk'
      (by rcases hl' with hl' | hl' <;> rw [hl'] <;> rfl)
    cases r' with
    | planning a => exact absurd rfl hk
    | _ => exact ⟨_, rfl, rfl, rfl, fun _ => rfl⟩
  | restarted e a s' es t ha hla hw ht =>
    exact (h.not_admitted hr hk hl (State.mem_actions_preparation ha) (by simp [ActionRecord.kind])
      hla).elim
  | retried e a t ha hp ht =>
    cases r with
    | finalization b =>
      have hphase := h.control.finalization_phase (State.finalization_of_mem hr)
      have hlb : b.lifecycle = .dispatched ∨ b.lifecycle = .stopping := hl
      rcases hlb with hlb | hlb <;> simp [hlb, hp, ActionLifecycle.failedLifecycle] at hphase
    | _ => exact .of_slot hr hl rfl
  | resumed e v es t hq hv hes => exact .of_slot hr hl (by cases r <;> rfl)
  | booted e hb => exact absurd rfl (hboot e)

end Running

/-- At most one worker may mutate the display, and it leaves its slot only when released. -/
theorem mutation_boundary {s : State} (hs : Reachable s) {e : Event} {d : Decision}
    (hd : reduce s e = .ok d) (hboot : ∀ b, e ≠ .bootChanged b) :
    (d.state.mutators.filter (·.lifecycle.mutatingInFlight)).length ≤ 1 ∧
      ∀ r ∈ s.actions, r.kind ≠ .plan →
        (r.lifecycle = .dispatched ∨ r.lifecycle = .stopping) → ¬ Releases e r →
        Holds r d.state := by
  obtain ⟨-, hstep, -, hsound⟩ := hs.sound.reduces hd
  exact ⟨hsound.exclusive, fun r hr hk hl hrel => hs.sound.holds hr hk hl hstep hrel hboot⟩

theorem mutation_boundary_docked :
    ((decided Scenario.loading Scenario.docked rfl).state.mutators.filter
        (·.lifecycle.mutatingInFlight)).length ≤ 1 ∧
      ∀ r ∈ Scenario.loading.actions, r.kind ≠ .plan →
        (r.lifecycle = .dispatched ∨ r.lifecycle = .stopping) → ¬ Releases Scenario.docked r →
        Holds r (decided Scenario.loading Scenario.docked rfl).state :=
  mutation_boundary Scenario.loading_reachable (reduce_decided _ _ rfl) (by rintro b ⟨⟩)

end MonitorController
