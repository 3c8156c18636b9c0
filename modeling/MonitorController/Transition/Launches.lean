import MonitorController.Transition.Frame

/-! # Launches

Only samples launch work. Every launch is the effect of an admission which is
pending in the resulting state and rests on the evidence of the sample.
-/

namespace MonitorController

def Effect.launches : Effect → Bool
  | .requestPlan _ | .activateProbe _ | .applyProfile _ | .prepareDesktop _ | .finalizeDesktop _ =>
    true
  | _ => false

def Effect.loads : Effect → Bool
  | .activateProbe _ | .applyProfile _ => true
  | _ => false

def ActionRecord.launch (key : ObservationKey) : ActionRecord → Effect
  | .probe a => a.activate key
  | .application a => a.apply key
  | .planning p => p.request
  | .preparation a => a.prepare key
  | .finalization a => a.finalize key

/-- The effect launches a pending admission of the state, on the evidence of the sample. -/
def Launched (s : State) (o : CanonicalObservation) (f : Effect) : Prop :=
  ∃ r ∈ s.actions, r.lifecycle = .admitted ∧ f = r.launch o.observationKey ∧
    ∀ w ∈ r.worker?, w.admittedEventGeneration = o.eventGeneration

theorem Effect.launches_of_loads {f : Effect} (h : f.loads = true) : f.launches = true := by
  cases f with
  | activateProbe f => rfl
  | applyProfile f => rfl
  | _ => cases h

theorem not_launches_planDiscards {s : State} : ∀ f ∈ s.planDiscards, f.launches = false := by
  intro f hf
  simp only [State.planDiscards, Option.mem_toList, Option.map_eq_some_iff] at hf
  obtain ⟨p, -, rfl⟩ := hf
  rfl

theorem not_launches_stopEffects {s : State} : ∀ f ∈ stopEffects s, f.launches = false := by
  intro f hf
  simp only [stopEffects, Option.mem_toList, Option.map_eq_some_iff] at hf
  obtain ⟨w, -, rfl⟩ := hf
  rfl

section Samples

variable {s s' : State} {o : CanonicalObservation} {target : ProfileMatch} {d : Decision}
  {es : List Effect} {f : Effect}

theorem Verifies.candidate (h : Verifies s o target s' es) :
    ∀ c ∈ s'.candidate, c.profile = target.profile := by
  have same (hs : sameProof s o target) : ∀ c ∈ s.candidate, c.profile = target.profile := by
    obtain ⟨-, ⟨c, hc, hp, -⟩, -⟩ := hs
    intro c' hc'
    exact Option.mem_unique hc hc' ▸ hp
  cases h with
  | kept hs hi => exact same hs
  | replanned hs hi => exact same hs
  | restarted hs =>
    rintro c ⟨⟩
    rfl

theorem Waits.launches {nowMs : Nat} (h : Waits s nowMs d) : ∀ f ∈ d.effects, f.launches = false := by
  cases h with
  | wait phase aggressive index t hp hd hs =>
    intro f hf
    obtain rfl := List.mem_singleton.mp hf
    rfl

theorem Verifies.launches (h : Verifies s o target s' es) : ∀ f ∈ es, f.launches = false := by
  cases h with
  | kept hs hi => simp
  | replanned hs hi => exact not_launches_planDiscards
  | restarted hs => exact not_launches_planDiscards

/-- A verification launches a plan, a preparation or a finalization. -/
theorem Advances.launches (h : Advances s o es d) (hf : f ∈ d.effects) (hl : f.launches = true) :
    (f ∈ es ∧ (d.state.planning = s.planning ∨
      ∃ c ∈ s.candidate, s.desktopFinalizedProfile = some c.profile)) ∨
    Launched d.state o f ∧ f.loads = false := by
  cases h with
  | finalized since candidate hv hc hp hfin =>
    rcases List.mem_append.mp hf with hf | hf
    · exact .inl ⟨hf, .inr ⟨candidate, hc, hfin⟩⟩
    · simp [not_launches_planDiscards f hf] at hl
  | adopted since candidate hv hc hp hb => exact .inl ⟨hf, .inl rfl⟩
  | finalizes since candidate preparation hv hc hp hfin hb hq hqs hn =>
    rcases List.mem_append.mp hf with hf | hf
    · exact .inl ⟨hf, .inl rfl⟩
    · obtain rfl := List.mem_singleton.mp hf
      refine .inr ⟨⟨_, State.mem_actions_finalization rfl, rfl, rfl, ?_⟩, rfl⟩
      rintro w ⟨⟩
      rfl
  | prepares since candidate planning planHash hv hc hp hfin hb hplan hps hh hqs =>
    rcases List.mem_append.mp hf with hf | hf
    · rcases List.mem_append.mp hf with hf | hf
      · exact .inl ⟨hf, .inl rfl⟩
      · obtain rfl := List.mem_singleton.mp hf
        refine .inr ⟨⟨_, State.mem_actions_preparation rfl, rfl, rfl, ?_⟩, rfl⟩
        rintro w ⟨⟩
        rfl
    · obtain rfl := List.mem_singleton.mp hf
      cases hl
  | settled since candidate t hv hc ht =>
    rcases List.mem_append.mp hf with hf | hf
    · exact .inl ⟨hf, .inl rfl⟩
    · obtain rfl := List.mem_singleton.mp hf
      cases hl

/-- A selection launches what it admits, and a load only while the screens are awake. -/
theorem Selects.launches (h : Selects s o d) (hf : f ∈ d.effects) (hl : f.launches = true) :
    Launched d.state o f ∧ (f.loads = true → o.displayPower ≠ .asleep) := by
  have quiet {es : List Effect} (hes : ∀ f ∈ es, f.launches = false) (hf : f ∈ es) : False := by
    simp [hes f hf] at hl
  cases h with
  | deferred hz => exact (quiet (by simp [Effect.launches]) hf).elim
  | waits hw => exact (quiet hw.launches hf).elim
  | waitsKnown hw => exact (quiet hw.launches hf).elim
  | waitsSpent target ht hz hw => exact (quiet hw.launches hf).elim
  | probes candidate hz hc action ha hk =>
    rcases List.mem_append.mp hf with hf | hf
    · exact (quiet not_launches_planDiscards hf).elim
    · obtain rfl := List.mem_singleton.mp hf
      refine ⟨⟨.probe action, State.mem_actions_probe rfl, ?_, rfl, ?_⟩, fun _ => hz⟩
      · rw [ha]
        rfl
      · rintro w ⟨⟩
        rw [ha]
  | stable target ht hx hs => cases hf
  | verifies target s' es s'' fs ht hx hv hp ha =>
    have hcandidate := hv.candidate
    rcases ha.launches hf hl with ⟨hf, hplan⟩ | ⟨hlaunched, hloads⟩
    · rcases List.mem_append.mp hf with hf | hf
      · exact (quiet hv.launches hf).elim
      · cases hp with
        | admitted hne hb hi =>
          obtain rfl := List.mem_singleton.mp hf
          rcases hplan with hplan | ⟨c, hc, hfinal⟩
          · exact ⟨⟨_, State.mem_actions_planning hplan, rfl, rfl, by rintro w ⟨⟩⟩, nofun⟩
          · rw [hcandidate c hc] at hfinal
            exact absurd hfinal hne
        | kept => cases hf
    · exact ⟨hlaunched, fun ht => by simp [hloads] at ht⟩
  | applies target ht hz hx action ha hk =>
    obtain rfl := List.mem_singleton.mp hf
    refine ⟨⟨.application action, State.mem_actions_application rfl, ?_, rfl, ?_⟩, fun _ => hz⟩
    · rw [ha]
      rfl
    · rintro w ⟨⟩
      rw [ha]
  | unknown phase since t hp hs => exact (quiet (by simp [Effect.launches]) hf).elim

theorem Classifies.launches (h : Classifies s o d) (hf : f ∈ d.effects) (hl : f.launches = true) :
    Launched d.state o f ∧ (f.loads = true → o.displayPower ≠ .asleep) := by
  cases h with
  | unplugging s' he hu =>
    obtain rfl := List.mem_singleton.mp hf
    cases hl
  | retained s' hs hr =>
    obtain rfl := List.mem_singleton.mp hf
    cases hl
  | selected s' s'' hs hr hd => exact hd.launches hf hl

theorem Withdraws.launches {r : ActionRecord} (h : Withdraws s r s' es) :
    ∀ f ∈ es, f.launches = false := by
  cases h with
  | preparation a ha => exact not_launches_planDiscards
  | finalization a ha => simp

theorem Frees.launches {prior : Option CanonicalObservation} (h : Frees s prior o s' es) :
    ∀ f ∈ es, f.launches = false := by
  cases h with
  | entered ht hr => exact not_launches_planDiscards
  | _ => simp

/-- The load of the effect was pending before the sample, which confirms it. -/
def Reloads (s : State) (o : CanonicalObservation) : Prop :=
  s.physicalToken = some o.physicalToken ∧
    ((∃ a ∈ s.probe, a.lifecycle = .admitted ∧ confirmsProbe s o a) ∨
      ∃ a ∈ s.application, a.lifecycle = .admitted ∧ confirmsApplication s o a)

/-- A sample launches pending admissions of the resulting state, and a load only while the screens
are awake unless it confirms a pending one. -/
theorem Observed.launches {prior : Option CanonicalObservation} (h : Observed s prior o d)
    (hf : f ∈ d.effects) (hl : f.launches = true) :
    o.valid = true ∧ Launched d.state o f ∧
      (f.loads = true → o.displayPower ≠ .asleep ∨ Reloads s o) := by
  have quiet {es : List Effect} (hes : ∀ f ∈ es, f.launches = false) (hf : f ∈ es) : False := by
    simp [hes f hf] at hl
  have none {x y : Effect} (hx : x.launches = false) (hy : y.launches = false) :
      ∀ f ∈ [x, y], f.launches = false := by simp [hx, hy]
  cases h with
  | revoked r s' es t hv hl hr ht =>
    have hes : ∀ f ∈ es, f.launches = false := by
      cases hr with
      | desktop hw => exact hw.launches
      | probe a ha => simp
      | application a ha => simp
    rcases List.mem_append.mp hf with hf | hf
    · exact (quiet hes hf).elim
    · exact (quiet (by simp [Effect.launches]) hf).elim
  | invalid phase t hv hn hp ht =>
    rcases List.mem_append.mp hf with hf | hf
    · exact (quiet not_launches_stopEffects hf).elim
    · exact (quiet (by simp [Effect.launches]) hf).elim
  | invalidInternal a t hv ha hi ht => exact (quiet (none rfl rfl) hf).elim
  | internal a t hv ha hi ht => exact (quiet (none rfl rfl) hf).elim
  | stopping w t hv hw hlw ht => exact (quiet (none rfl rfl) hf).elim
  | stopped r s' t hv hs hi hc ht => exact (quiet (none rfl rfl) hf).elim
  | refused s' t hv hs ht hc => exact (quiet (by simp [Effect.launches]) hf).elim
  | running t hv ht hr hd => exact (quiet (by simp [Effect.launches]) hf).elim
  | completed a hv ha hla he => exact (quiet not_launches_planDiscards hf).elim
  | uncertain a t hv ht ha hla he hd => exact (quiet (by simp [Effect.launches]) hf).elim
  | preparing a t hv ht ha hla he hd => exact (quiet (by simp [Effect.launches]) hf).elim
  | confirmed s' eff hv ht hc =>
    obtain rfl := List.mem_singleton.mp hf
    refine ⟨hv, ?_⟩
    cases hc with
    | probe a ha hla hc =>
      refine ⟨⟨.probe _, State.mem_actions_probe rfl, hla, rfl, ?_⟩, fun _ => .inr ⟨ht, ?_⟩⟩
      · rintro w ⟨⟩
        rfl
      · exact .inl ⟨a, ha, hla, hc⟩
    | application a ha hla hc =>
      refine ⟨⟨.application _, State.mem_actions_application rfl, hla, rfl, ?_⟩,
        fun _ => .inr ⟨ht, ?_⟩⟩
      · rintro w ⟨⟩
        rfl
      · exact .inr ⟨a, ha, hla, hc⟩
    | preparation a ha hla hc =>
      refine ⟨⟨.preparation _, State.mem_actions_preparation rfl, hla, rfl, ?_⟩, nofun⟩
      rintro w ⟨⟩
      rfl
    | finalization a ha hla hc =>
      refine ⟨⟨.finalization _, State.mem_actions_finalization rfl, hla, rfl, ?_⟩, nofun⟩
      rintro w ⟨⟩
      rfl
  | classified s' es d hv hfrees hc =>
    rcases List.mem_append.mp hf with hf | hf
    · exact (quiet hfrees.launches hf).elim
    · obtain ⟨hlaunched, hawake⟩ := hc.launches hf hl
      exact ⟨hv, hlaunched, fun ht => .inl (hawake ht)⟩

end Samples

section Steps

variable {s : State} {e : Event} {d : Decision} {f : Effect}

/-- Only a fresh sample launches anything. -/
theorem Step.launches (h : Step s e d) (hf : f ∈ d.effects) (hl : f.launches = true) :
    ∃ c, e = .observationCompleted c ∧ c.metadata.bootId = s.bootId ∧
      ¬ staleObservation s c.observation ∧
      Observed (recordObservation s c.observation) s.latestObservation c.observation d := by
  have quiet {es : List Effect} (hes : ∀ f ∈ es, f.launches = false) (hf : f ∈ es) : False := by
    simp [hes f hf] at hl
  have wakes {es : List Effect} {reason : WakeReason} {t : Nat} (hes : ∀ f ∈ es, f.launches = false)
      (hf : f ∈ es ++ [.requestObservation reason] ++ [.schedule t]) : False := by
    simp only [List.mem_append, List.mem_singleton] at hf
    rcases hf with (hf | rfl) | rfl
    · exact quiet hes hf
    · cases hl
    · cases hl
  cases h with
  | observed e hb hfresh ho => exact ⟨e, rfl, hb, hfresh, ho⟩
  | observationFailed e t ht =>
    rcases List.mem_append.mp hf with hf | hf
    · exact (quiet not_launches_stopEffects hf).elim
    · exact (quiet (by simp [Effect.launches]) hf).elim
  | hinted e s' es t hb hg ht hh =>
    have hes : ∀ f ∈ es, f.launches = false := by
      cases hh with
      | withdrawn hl hw => exact hw.launches
      | reopened hq hf hp => simp
      | kept hp => simp
    exact (wakes hes hf).elim
  | dirtied e r s' es t hb hr he hl hg ht hw =>
    have hes : ∀ f ∈ es, f.launches = false := by
      rcases hw with hw | ⟨-, -, rfl⟩
      · exact hw.launches
      · simp
    exact (wakes hes hf).elim
  | planRetried e p t hp hs hi hk hr ht =>
    rcases List.mem_append.mp hf with hf | hf
    · exact (quiet not_launches_planDiscards hf).elim
    · exact (quiet (by simp [Effect.launches]) hf).elim
  | closed e r l v es t hr hk he hl hv hes ht =>
    have hes : ∀ f ∈ es, f.launches = false := by
      rcases hes with rfl | ⟨-, rfl⟩
      · simp
      · exact not_launches_planDiscards
    exact (wakes hes hf).elim
  | failed e r r' phase es t hr hc hfail he hp hes =>
    rcases List.mem_append.mp hf with hf | hf
    · rcases hes with rfl | rfl
      · cases hf
      · exact (quiet (by simp [Effect.launches]) hf).elim
    · exact (quiet (by simp [Effect.launches]) hf).elim
  | doubted e r v t hr hk hl he ht =>
    rcases List.mem_append.mp hf with hf | hf
    · split at hf
      · cases hf
      · exact (quiet (by simp [Effect.launches]) hf).elim
    · exact (quiet (by simp [Effect.launches]) hf).elim
  | restarted e a s' es t ha hl hw ht => exact (wakes hw.launches hf).elim
  | resumed e v es t hq hv hes =>
    rcases List.mem_append.mp hf with hf | hf
    · rcases hes with rfl | rfl
      · cases hf
      · exact (quiet (by simp [Effect.launches]) hf).elim
    · exact (quiet (by simp [Effect.launches]) hf).elim
  | _ => exact (quiet (by simp [Effect.launches]) hf).elim

end Steps

end MonitorController
