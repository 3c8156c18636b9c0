import MonitorController.Safety.Terminal

/-! # Discarded plans

A plan which was told to be discarded is never prepared or finalized
afterwards. It may stay in its slot after its preparation was stopped, but then
no preparation is left and no verification runs, and the next verification
drops it before it advances.
-/

namespace MonitorController

/-- The transition whose staged artifacts a launched desktop worker uses. -/
def Effect.uses? : Effect → Option TransitionId
  | .prepareDesktop f => some f.transitionId
  | .finalizeDesktop f => some f.transitionId
  | _ => none

theorem Effect.launches_of_uses {f : Effect} {t : TransitionId} (h : f.uses? = some t) :
    f.launches = true := by
  cases f with
  | prepareDesktop f => rfl
  | finalizeDesktop f => rfl
  | _ => cases h

/-- A preparation or a finalization of the transition runs. -/
def Works (s : State) (t : TransitionId) : Prop :=
  ∃ r ∈ s.actions, r.kind ≠ .plan ∧ r.transitionId? = some t ∧
    (r.lifecycle = .dispatched ∨ r.lifecycle = .stopping)

/-- A plan of the transition which is still retained will not be used any more. -/
structure Unusable (s : State) (t : TransitionId) : Prop where
  known : t.sequence ≤ s.transitionSequenceHighWater
  idle : ∀ p ∈ s.planning, p.transitionId = t → s.preparation = none ∧ s.phase ≠ .verifying

/-- Nothing of the transition is left to be used. -/
structure Over (s : State) (t : TransitionId) : Prop where
  known : t.sequence ≤ s.transitionSequenceHighWater
  planning : ∀ p ∈ s.planning, p.transitionId ≠ t
  preparation : ∀ a ∈ s.preparation, a.transitionId ≠ t

theorem Over.unusable {s : State} {t : TransitionId} (h : Over s t) : Unusable s t where
  known := h.known
  idle := fun p hp ht => absurd ht (h.planning p hp)

theorem Over.of_dropped {s : State} {t : TransitionId} (ht : t.sequence ≤ s.transitionSequenceHighWater)
    (hp : s.planning = none) (hq : s.preparation = none) : Over s t where
  known := ht
  planning := by simp [hp]
  preparation := by simp [hq]

theorem Unusable.unused {s : State} {t : TransitionId} (h : Unusable s t) (hd : s.Desktop) :
    (∀ a ∈ s.preparation, a.transitionId ≠ t) ∧ ∀ a ∈ s.finalization, a.transitionId ≠ t := by
  have hprep : ∀ a ∈ s.preparation, a.transitionId ≠ t := by
    intro a ha hid
    obtain ⟨p, hp, -, hsame, -⟩ := hd.planned a ha
    rw [(h.idle p hp (hsame.symm.trans hid)).1] at ha
    cases ha
  refine ⟨hprep, fun a ha hid => ?_⟩
  obtain ⟨q, hq, hsame, -⟩ := hd.prepared a ha
  exact hprep q hq (hsame.trans hid)

theorem Unusable.not_works {s : State} {t : TransitionId} (h : Unusable s t) (hd : s.Desktop) :
    ¬ Works s t := by
  obtain ⟨hprep, hfin⟩ := h.unused hd
  rintro ⟨r, hr, hk, ht, -⟩
  cases r with
  | probe a => cases ht
  | application a => cases ht
  | planning p => exact hk rfl
  | preparation a => exact hprep a (State.preparation_of_mem hr) (Option.some.inj ht)
  | finalization a => exact hfin a (State.finalization_of_mem hr) (Option.some.inj ht)

/-- The slots are carried on, and no verification starts without a preparation. -/
structure Idles (s s' : State) : Prop extends Kept s s' where
  phase : s'.phase = .verifying → s.phase = .verifying ∨ s.preparation ≠ none

theorem Idles.unusable {s s' : State} {t : TransitionId} (h : Idles s s') (hs : Unusable s t) :
    Unusable s' t where
  known := h.transitionMark ▸ hs.known
  idle := by
    intro p hp ht
    obtain ⟨q, hq, hc⟩ := h.planning.of_mem hp
    have hsame : some p.transitionId = some q.transitionId := hc.transitionId?
    obtain ⟨hnone, hphase⟩ := hs.idle q hq ((Option.some.inj hsame).symm.trans ht)
    constructor
    · cases hprep : s'.preparation with
      | none => rfl
      | some a =>
        obtain ⟨b, hb, -⟩ := h.preparation.of_mem hprep
        rw [hnone] at hb
        cases hb
    · intro hv
      exact (h.phase hv).elim hphase (· hnone)

theorem Idles.trans {s u s' : State} (h : Idles s u) (h' : Idles u s') : Idles s s' where
  toKept := h.toKept.trans h'.toKept
  phase := by
    intro hv
    refine (h'.phase hv).elim h.phase fun hne => .inr fun hnone => hne ?_
    cases hprep : u.preparation with
    | none => rfl
    | some a =>
      obtain ⟨b, hb, -⟩ := h.preparation.of_mem hprep
      rw [hnone] at hb
      cases hb

section Classification

variable {s s' : State} {o : CanonicalObservation} {target : ProfileMatch} {d : Decision}
  {es : List Effect} {t : TransitionId}

theorem Verifies.over (h : Verifies s o target s' es) (hs : Unusable s t) (hd : s.Desktop) :
    Over s' t := by
  cases h with
  | kept hp hi =>
    exact ⟨hs.known, fun p hplan ht => (hs.idle p hplan ht).2 hp.1, (hs.unused hd).1⟩
  | replanned hp hi => exact .of_dropped hs.known rfl rfl
  | restarted hp => exact .of_dropped hs.known rfl rfl

theorem Plans.over (h : Plans s o target s' es) (hs : Over s t) : Over s' t := by
  cases h with
  | kept => exact hs
  | admitted hf hb hp =>
    refine ⟨hs.known.trans (Nat.le_succ _), ?_, hs.preparation⟩
    rintro p ⟨⟩ rfl
    exact absurd hs.known (Nat.not_succ_le_self _)

/-- A verification uses the artifacts of the transition of its plan. -/
theorem Advances.over (h : Advances s o es d) (hs : Over s t) :
    Over d.state t ∧ ∀ f ∈ d.effects, f.uses? = some t → f ∈ es := by
  cases h with
  | finalized since c hv hc hp hf =>
    refine ⟨.of_dropped hs.known rfl rfl, fun f hf hu => ?_⟩
    refine (List.mem_append.mp hf).resolve_right fun hf => ?_
    have hquiet := not_launches_planDiscards f hf
    rw [Effect.launches_of_uses hu] at hquiet
    cases hquiet
  | adopted since c hv hc hp hb => exact ⟨⟨hs.known, hs.planning, hs.preparation⟩, fun f hf _ => hf⟩
  | finalizes since c q hv hc hp hf hb hq hqs hn =>
    refine ⟨⟨hs.known, hs.planning, hs.preparation⟩, fun f hf hu => ?_⟩
    refine (List.mem_append.mp hf).resolve_right fun hf => ?_
    obtain rfl := List.mem_singleton.mp hf
    exact hs.preparation q hq (Option.some.inj hu)
  | prepares since c p planHash hv hc hp hf hb hl hls hh hqs =>
    have hne := hs.planning p hl
    refine ⟨⟨hs.known, hs.planning, ?_⟩, fun f hf hu => ?_⟩
    · rintro a ⟨⟩
      exact hne
    · simp only [List.mem_append, List.mem_singleton] at hf
      rcases hf with (hf | rfl) | rfl
      · exact hf
      · exact absurd (Option.some.inj hu) hne
      · cases hu
  | settled since c n hv hc ht =>
    refine ⟨⟨hs.known, hs.planning, hs.preparation⟩, fun f hf hu => ?_⟩
    refine (List.mem_append.mp hf).resolve_right fun hf => ?_
    obtain rfl := List.mem_singleton.mp hf
    cases hu

theorem Waits.idles {nowMs : Nat} (h : Waits s nowMs d) : Idles s d.state := by
  cases h with
  | wait phase aggressive index n hp hd hs =>
    refine { phase := fun hv => ?_ }
    rcases hp with rfl | rfl <;> cases hv

/-- A selection does not use an unusable transition. -/
theorem Selects.unusable (hd : Selects s o d) (hs : Unusable s t) (hdesk : s.Desktop) :
    Unusable d.state t ∧ ∀ f ∈ d.effects, f.uses? ≠ some t := by
  have quiet {es : List Effect} (hes : ∀ f ∈ es, f.launches = false) :
      ∀ f ∈ es, f.uses? ≠ some t := by
    intro f hf hu
    have hquiet := hes f hf
    rw [Effect.launches_of_uses hu] at hquiet
    cases hquiet
  have idle {s' : State} (hk : Kept s s') (hp : s'.phase ≠ .verifying) : Unusable s' t :=
    Idles.unusable { hk with phase := fun hv => absurd hv hp } hs
  cases hd with
  | deferred hz hn => exact ⟨idle {} (by rintro ⟨⟩), quiet (by simp [Effect.launches])⟩
  | waits hw hc ht => exact ⟨hw.idles.unusable hs, quiet hw.launches⟩
  | waitsKnown hw c hz hc hk => exact ⟨hw.idles.unusable ⟨hs.known, hs.idle⟩, quiet hw.launches⟩
  | waitsSpent target ht hz hw hx hk _ =>
    exact ⟨hw.idles.unusable ⟨hs.known, hs.idle⟩, quiet hw.launches⟩
  | probes c hz hc action ha hk =>
    refine ⟨Over.unusable ?_, fun f hf hu => ?_⟩
    · exact .of_dropped hs.known rfl rfl
    rcases List.mem_append.mp hf with hf | hf
    · exact quiet not_launches_planDiscards f hf hu
    · obtain rfl := List.mem_singleton.mp hf
      cases hu
  | stable target ht hx hs =>
    obtain ⟨keys, -, profiles, heq⟩ := rearmAchievedApplication_eq (clearUnknown s) target.profile
    rw [heq]
    exact ⟨idle {} (by rintro ⟨⟩), quiet (by simp)⟩
  | verifies target s' es s'' fs ht hx hv hp ha =>
    obtain ⟨keys, -, profiles, heq⟩ := rearmAchievedApplication_eq (clearUnknown s) target.profile
    rw [heq] at hv
    have hover := hv.over ⟨hs.known, hs.idle⟩ hdesk
    obtain ⟨hafter, hes⟩ := ha.over (hp.over ⟨hover.known, hover.planning, hover.preparation⟩)
    refine ⟨hafter.unusable, fun f hf hu => ?_⟩
    rcases List.mem_append.mp (hes f hf hu) with hf | hf
    · exact quiet hv.launches f hf hu
    · cases hp with
      | kept => cases hf
      | admitted hf' hb hi =>
        obtain rfl := List.mem_singleton.mp hf
        cases hu
  | applies target ht hz hx action ha hk =>
    refine ⟨⟨hs.known, fun p hp ht => ⟨(hs.idle p hp ht).1, by rintro ⟨⟩⟩⟩, fun f hf hu => ?_⟩
    obtain rfl := List.mem_singleton.mp hf
    cases hu
  | unknown phase since n hp hs hc ht =>
    refine ⟨idle {} ?_, quiet (by simp [Effect.launches])⟩
    rintro rfl
    rcases hp with ⟨hp, -⟩ | ⟨hp, -⟩ <;> cases hp

theorem Unplugs.idles {complete : Bool} (h : Unplugs s o s' complete) : Idles s s' := by
  have hkept := h.kept
  cases h <;> exact { hkept with phase := .inl }

theorem Settles.idles (h : Settles s o s') : Idles s s' := by
  have hkept := h.kept
  cases h with
  | external he => exact { hkept with phase := .inl }
  | unplugged he hu => exact hu.idles

theorem idles_retainFailure (s : State) (o : CanonicalObservation) :
    Idles s (retainFailure s o).1 := by
  refine { kept_retainFailure s o with phase := fun hv => .inl ?_ }
  rcases retainFailure_cases s o with hr | hr | ⟨-, hr⟩ | ⟨-, hr⟩ | ⟨-, hr⟩ <;> rw [hr] at hv
  · exact hv
  · exact hv
  · cases hv
  · cases hv
  · cases hv

theorem Classifies.unusable (hc : Classifies s o d) (hs : Unusable s t) (h : Free s o) :
    Unusable d.state t ∧ ∀ f ∈ d.effects, f.uses? ≠ some t := by
  cases hc with
  | unplugging s' he hu =>
    have hafter : Idles s' (releaseFailures s') := { kept_releaseFailures s' with phase := nofun }
    obtain ⟨hknown, hidle⟩ := (hu.idles.trans hafter).unusable hs
    exact ⟨⟨hknown, hidle⟩, by simp [Effect.uses?]⟩
  | retained s' hset hr =>
    obtain ⟨hknown, hidle⟩ := hset.idles.unusable hs
    exact ⟨⟨hknown, hidle⟩, by simp [Effect.uses?]⟩
  | selected s' s'' hset hr hd =>
    have hretain := idles_retainFailure s' o
    rw [hr] at hretain
    exact hd.unusable ((hset.idles.trans hretain).unusable hs) ((h.settled hset).released hr).desktop

end Classification

section Samples

variable {s s' : State} {prior : Option CanonicalObservation} {o : CanonicalObservation}
  {d : Decision} {es : List Effect} {r : ActionRecord} {t : TransitionId}

theorem Withdraws.idles (h : Withdraws s r s' es) : Idles s s' := by
  have hkept := h.stays.toKept
  cases h with
  | preparation a ha => exact { hkept with phase := nofun }
  | finalization a ha => exact { hkept with phase := nofun }

theorem Revokes.idles (h : Revokes s r s' es) : Idles s s' := by
  have hkept := h.stays.toKept
  cases h with
  | desktop h => exact h.idles
  | probe a ha => exact { hkept with phase := nofun }
  | application a ha => exact { hkept with phase := nofun }

theorem Cancels.idles (h : Cancels s o s') : Idles s s' := by
  have hkept := h.stays.toKept
  cases h with
  | preparation a ha hl hc => exact { hkept with phase := .inl }
  | _ => exact { hkept with phase := nofun }

theorem Frees.unusable (h : Frees s prior o s' es) (hs : Unusable s t) : Unusable s' t := by
  have hkept := h.kept
  cases h with
  | entered ht hr => exact Over.unusable (.of_dropped hs.known rfl rfl)
  | idle ht hb =>
    refine Idles.unusable { hkept with phase := fun hv => .inl ?_ } hs
    obtain ⟨phase, aggressive, index, hphase, heq⟩ := leaveSlowWait_eq s prior o
    rw [heq] at hv
    rcases hphase with rfl | ⟨-, rfl⟩
    · exact hv
    · cases hv
  | cancelled ht hc => exact hc.idles.unusable hs
  | concluded a b ht ha hl he hb hbl =>
    have hprep : s.preparation ≠ none := by simp [ha]
    exact Idles.unusable { hkept with phase := fun _ => .inr hprep } hs

theorem Refuses.idles (h : Refuses s s') : Idles s s' := by
  have hkept := h.stays.toKept
  cases h with
  | finalization a b v ha hl hb hbl hv => exact { hkept with phase := nofun }
  | preparation a b ha hl hb hbl => exact { hkept with phase := .inl }

theorem Stops.idles (h : Stops s r s') : Idles s s' := by
  have hkept := h.stays.toKept
  cases h with
  | probe a ha hl => exact { hkept with phase := .inl }
  | application a ha hl => exact { hkept with phase := .inl }
  | preparation a ha hl => exact { hkept with phase := nofun }
  | finalization a ha hl => exact { hkept with phase := nofun }

theorem Idles.timed (h : Idles s s') (n : Nat) : Idles s (s'.timed n) := { h with }

/-- A sample does not use an unusable transition. -/
theorem Observed.unusable (h : Observed s prior o d) (hs : Unusable s t) (hr : Recorded s o) :
    Unusable d.state t ∧ ∀ f ∈ d.effects, f.uses? ≠ some t := by
  have quiet {es : List Effect} (hes : ∀ f ∈ es, f.launches = false) :
      ∀ f ∈ es, f.uses? ≠ some t := by
    intro f hf hu
    have hquiet := hes f hf
    rw [Effect.launches_of_uses hu] at hquiet
    cases hquiet
  have desktop := hs.unused hr.desktop
  have hrevoke := stays_revokeProofs s o
  have pair {x y : Effect} (hx : x.uses? = none) (hy : y.uses? = none) :
      ∀ f ∈ [x, y], f.uses? ≠ some t := by
    simp [hx, hy]
  cases h with
  | revoked r s' es n hv hl hr hn =>
    have hafter : Idles s (revokeProofs s o) := { hrevoke.toKept with phase := .inl }
    refine ⟨((hafter.trans hr.idles).timed n).unusable hs, fun f hf hu => ?_⟩
    rcases List.mem_append.mp hf with hmem | hf
    · cases hr with
      | desktop hw => exact quiet hw.launches f hmem hu
      | probe a ha => exact List.not_mem_nil hmem
      | application a ha => exact List.not_mem_nil hmem
    · obtain rfl := List.mem_singleton.mp hf
      cases hu
  | invalid phase n hv hn hp ht =>
    refine ⟨Idles.unusable { hrevoke.toKept with phase := fun hv => ?_ } hs, fun f hf hu => ?_⟩
    · have hphase : phase = .verifying := hv
      rw [hphase] at hp
      split at hp
      · exact .inl hp.symm
      · cases hp
    · rcases List.mem_append.mp hf with hf | hf
      · exact quiet not_launches_stopEffects f hf hu
      · obtain rfl := List.mem_singleton.mp hf
        cases hu
  | invalidInternal a n hv ha hi ht =>
    exact ⟨⟨hs.known, hs.idle⟩, pair rfl rfl⟩
  | internal a n hv ha hi ht =>
    exact ⟨⟨hs.known, fun p hp ht => ⟨(hs.idle p hp ht).1, nofun⟩⟩, pair rfl rfl⟩
  | stopping w n hv hw hl ht => exact ⟨⟨hs.known, hs.idle⟩, pair rfl rfl⟩
  | stopped r s' n hv hst hi hc ht => exact ⟨(hst.idles.timed n).unusable hs, pair rfl rfl⟩
  | refused s' n hv hst ht hc hq => exact ⟨(hst.idles.timed n).unusable hs, by simp [Effect.uses?]⟩
  | running n hv ht hr hd => exact ⟨⟨hs.known, hs.idle⟩, by simp [Effect.uses?]⟩
  | completed a hv ha hl he =>
    refine ⟨?_, quiet not_launches_planDiscards⟩
    exact Over.unusable (.of_dropped hs.known rfl rfl)
  | uncertain a n hv ht ha hl he hd =>
    exact ⟨⟨hs.known, fun p hp ht => ⟨(hs.idle p hp ht).1, nofun⟩⟩, by simp [Effect.uses?]⟩
  | preparing a n hv ht ha hl he hd =>
    refine ⟨⟨hs.known, fun p hp hid => ?_⟩, by simp [Effect.uses?]⟩
    have hnone := (hs.idle p hp hid).1
    rw [ha] at hnone
    cases hnone
  | confirmed s' eff hv ht hc =>
    have hkept := hc.stays.toKept
    have hphase : s'.phase = s.phase := by cases hc <;> rfl
    refine ⟨(Idles.timed { hkept with phase := fun hv => .inl (hphase ▸ hv) } _).unusable hs, ?_⟩
    intro f hf hu
    obtain rfl := List.mem_singleton.mp hf
    cases hc with
    | probe a ha hl hc => cases hu
    | application a ha hl hc => cases hu
    | preparation a ha hl hc => exact desktop.1 a ha (Option.some.inj hu)
    | finalization a ha hl hc => exact desktop.2 a ha (Option.some.inj hu)
  | classified s' es d' hv hf hc =>
    obtain ⟨hafter, huses⟩ := hc.unusable (hf.unusable hs) (hr.free hv hf)
    refine ⟨hafter, fun f hmem hu => ?_⟩
    rcases List.mem_append.mp hmem with hmem | hmem
    · exact quiet hf.launches f hmem hu
    · exact huses f hmem hu

end Samples

section Steps

variable {s s' : State} {e : Event} {d : Decision} {t : TransitionId}

theorem Hints.idles {es : List Effect} (h : Hints s s' es) : Idles s s' := by
  cases h with
  | withdrawn hl hw => exact hw.idles
  | reopened hq hf hp => exact { phase := nofun }
  | kept hp => exact { Kept.refl s with phase := .inl }

theorem phase_failSlot (s : State) (r : ActionRecord) :
    (failSlot s r).phase = .verifying → s.phase = .verifying := by
  cases r with
  | planning a => exact id
  | preparation a => exact id
  | _ => nofun

theorem phase_stopSlot (s : State) (v : UncertainVerdict) (r : ActionRecord) :
    (stopSlot s v r).phase = .verifying → s.phase = .verifying := by
  cases r with
  | planning a => exact id
  | _ => nofun

/-- A step does not use an unusable transition. -/
theorem Step.unusable (h : Step s e d) (hs : Unusable s t) (hr : Sound s) :
    Unusable d.state t ∧ ∀ f ∈ d.effects, f.uses? ≠ some t := by
  by_cases hlaunch : ∃ f ∈ d.effects, f.launches = true
  · obtain ⟨f, hf, hl⟩ := hlaunch
    obtain ⟨c, rfl, hb, hfresh, ho⟩ := h.launches hf hl
    have hunusable : Unusable (recordObservation s c.observation) t := ⟨hs.known, hs.idle⟩
    exact ho.unusable hunusable (hr.recorded (c.same_boot.trans hb) hfresh)
  have hquiet : ∀ f ∈ d.effects, f.uses? ≠ some t := fun f hf hu =>
    hlaunch ⟨f, hf, Effect.launches_of_uses hu⟩
  refine ⟨?_, hquiet⟩
  have idle (hk : Kept s d.state)
      (hp : d.state.phase = .verifying → s.phase = .verifying ∨ s.preparation ≠ none) :
      Unusable d.state t := Idles.unusable { hk with phase := hp } hs
  rcases h.cases_on with ⟨hk, -⟩ | hc
  · cases h with
    | observed e hb hfresh ho =>
      have hunusable : Unusable (recordObservation s e.observation) t := ⟨hs.known, hs.idle⟩
      exact (ho.unusable hunusable (hr.recorded (e.same_boot.trans hb) hfresh)).1
    | hinted e s' es n hb hg ht hh =>
      have hunusable : Unusable (supersedeProofs s e.eventGeneration e.metadata.processedAtMs) t :=
        ⟨hs.known, hs.idle⟩
      exact (hh.idles.timed n).unusable hunusable
    | dirtied e r s' es n hb hr he hl hg ht hw =>
      have hunusable : Unusable (supersedeProofs s e.eventGeneration n) t := ⟨hs.known, hs.idle⟩
      rcases hw with hw | ⟨-, rfl, -⟩
      · exact (hw.idles.timed n).unusable hunusable
      · exact ⟨hunusable.known, hunusable.idle⟩
    | probeDispatched e a w ha hl hi hd => exact idle hk nofun
    | applicationDispatched e a w ha hl hi hd => exact idle hk nofun
    | finalizationDispatched e a w ha hl hi hd => exact idle hk nofun
    | finalizationReported e a b n ha he hb hl ht => exact idle hk nofun
    | planRetried e p n hp hst hi hkey hretry ht => exact idle hk nofun
    | closed e r l v es n hmem hkind he hl hv hes ht => exact idle hk nofun
    | failed e r r' phase es n hmem hcont hfail he hp hes =>
      refine idle hk fun hv => .inl ?_
      have hphase : phase = .verifying := hv
      rcases hp with rfl | ⟨-, rfl⟩
      · exact phase_failSlot _ r' hphase
      · cases hphase
    | doubted e r v n hmem hkind hl he ht => exact idle hk fun hp => .inl (phase_stopSlot s v r hp)
    | restarted e a s' es n ha hl hw ht =>
      have hunusable : Unusable { s with controllerInstance := e.controllerInstance } t :=
        ⟨hs.known, hs.idle⟩
      obtain ⟨hknown, hidle⟩ := hw.idles.unusable hunusable
      exact ⟨hknown, hidle⟩
    | retried e a n ha hp ht => exact idle hk nofun
    | booted e hb => exact idle hk nofun
    | _ => exact idle hk .inl
  · obtain ⟨f, rfl, hb, hfresh, -⟩ := hc
    have hunusable : Unusable (recordObservation s f.observation) t := ⟨hs.known, hs.idle⟩
    exact ((observed_of_step h hb hfresh).unusable hunusable
      (hr.recorded (f.same_boot.trans hb) hfresh)).1

end Steps

/-- The effects which remove the staged artifacts of a plan. -/
def Effect.discards : Effect → Bool
  | .discardPlan _ _ _ => true
  | _ => false

/-- The effect discards the retained plan, whose transition is unusable afterwards. -/
def Discarded (s s' : State) (f : Effect) : Prop :=
  ∃ p, s.planning = some p ∧ f = p.discard ∧ Unusable s' p.transitionId

theorem State.mem_planDiscards {s : State} {f : Effect} (h : f ∈ s.planDiscards) :
    ∃ p, s.planning = some p ∧ f = p.discard := by
  simp only [State.planDiscards, Option.mem_toList, Option.map_eq_some_iff] at h
  obtain ⟨p, hp, rfl⟩ := h
  exact ⟨p, hp, rfl⟩

section Discarding

variable {s s' : State} {prior : Option CanonicalObservation} {o : CanonicalObservation}
  {target : ProfileMatch} {d : Decision} {es : List Effect} {f : Effect} {r : ActionRecord}

/-- The transition of the retained plan is below the mark. -/
def PlanKnown (s : State) : Prop :=
  ∀ p ∈ s.planning, p.transitionId.sequence ≤ s.transitionSequenceHighWater

theorem Core.planKnown (h : Core s) : PlanKnown s := fun p hp => (h.identities.planning p hp).2

theorem PlanKnown.discarded (h : PlanKnown s) (hf : f ∈ s.planDiscards)
    (ht : s.transitionSequenceHighWater ≤ s'.transitionSequenceHighWater)
    (hp : s'.planning = none) (hq : s'.preparation = none) : Discarded s s' f := by
  obtain ⟨p, hplan, rfl⟩ := State.mem_planDiscards hf
  exact ⟨p, hplan, rfl, (Over.of_dropped ((h p hplan).trans ht) hp hq).unusable⟩

theorem Waits.not_discards {nowMs : Nat} (h : Waits s nowMs d) :
    ∀ f ∈ d.effects, f.discards = false := by
  cases h with
  | wait phase aggressive index t hp hd hs => simp [Effect.discards]

/-- A verification discards the plan which it found. -/
theorem discards_verification {s'' : State} {fs : List Effect}
    (hknown : PlanKnown s) (hv : Verifies s o target s' es)
    (hp : Plans { s' with phase := .verifying } o target s'' fs)
    (ha : Advances s'' o (es ++ fs) d) (hf : f ∈ d.effects) (hd : f.discards = true) :
    Discarded s d.state f := by
  have single {x y : Effect} (hx : x ∈ [y]) (hy : y.discards = false) (hd : x.discards = true) :
      False := by
    obtain rfl := List.mem_singleton.mp hx
    rw [hy] at hd
    cases hd
  have earlier (hmem : f ∈ es ++ fs) : Discarded s d.state f := by
    rcases List.mem_append.mp hmem with hmem | hmem
    · have hdropped : f ∈ s.planDiscards ∧ s'.planning = none ∧ s'.preparation = none ∧
          s'.transitionSequenceHighWater = s.transitionSequenceHighWater := by
        cases hv with
        | kept hs hi => cases hmem
        | replanned hs hi => exact ⟨hmem, rfl, rfl, rfl⟩
        | restarted hs => exact ⟨hmem, rfl, rfl, rfl⟩
      obtain ⟨hmem, hplan, hprep, hmark⟩ := hdropped
      obtain ⟨p, hfound, rfl⟩ := State.mem_planDiscards hmem
      have hover : Over { s' with phase := .verifying } p.transitionId :=
        .of_dropped (hmark ▸ hknown p hfound) hplan hprep
      exact ⟨p, hfound, rfl, (ha.over (hp.over hover)).1.unusable⟩
    · cases hp with
      | kept => cases hmem
      | admitted hfin hb hi => exact (single hmem rfl hd).elim
  have hcandidate := hv.candidate
  cases ha with
  | finalized since c hvs hc hpc hfin =>
    rcases List.mem_append.mp hf with hf | hf
    · exact earlier hf
    · obtain ⟨p, hplan, rfl⟩ := State.mem_planDiscards hf
      cases hp with
      | admitted hne hb hi =>
        rw [hcandidate c hc] at hfin
        exact absurd hfin hne
      | kept =>
        have hfound : s.planning = some p ∧
            s'.transitionSequenceHighWater = s.transitionSequenceHighWater := by
          cases hv with
          | kept hs hi => exact ⟨hplan, rfl⟩
          | replanned hs hi => cases hplan
          | restarted hs => cases hplan
        refine ⟨p, hfound.1, rfl, Over.unusable (.of_dropped ?_ rfl rfl)⟩
        exact (hknown p hfound.1).trans hfound.2.ge
  | adopted since c hvs hc hpc hb => exact earlier hf
  | finalizes since c q hvs hc hpc hfin hb hq hqs hn =>
    exact (List.mem_append.mp hf).elim earlier fun hf => (single hf rfl hd).elim
  | prepares since c p planHash hvs hc hpc hfin hb hl hls hh hqs =>
    refine (List.mem_append.mp hf).elim (fun hf => ?_) fun hf => (single hf rfl hd).elim
    exact (List.mem_append.mp hf).elim earlier fun hf => (single hf rfl hd).elim
  | settled since c t hvs hc ht =>
    exact (List.mem_append.mp hf).elim earlier fun hf => (single hf rfl hd).elim

theorem Selects.discards (h : Selects s o d) (hs : Core s) (hf : f ∈ d.effects)
    (hd : f.discards = true) : Discarded s d.state f := by
  have quiet {es : List Effect} (hes : ∀ f ∈ es, f.discards = false) (hf : f ∈ es) : False := by
    simp [hes f hf] at hd
  cases h with
  | deferred hz hn => exact (quiet (by simp [Effect.discards]) hf).elim
  | waits hw hc ht => exact (quiet hw.not_discards hf).elim
  | waitsKnown hw c hz hc hk => exact (quiet hw.not_discards hf).elim
  | waitsSpent target ht hz hw hx hk hs => exact (quiet hw.not_discards hf).elim
  | probes c hz hc action ha hk =>
    rcases List.mem_append.mp hf with hf | hf
    · exact hs.planKnown.discarded hf le_rfl rfl rfl
    · obtain rfl := List.mem_singleton.mp hf
      cases hd
  | stable target ht hx hs => cases hf
  | verifies target s' es s'' fs ht hx hv hp ha =>
    have hknown : PlanKnown s := hs.planKnown
    obtain ⟨keys, -, profiles, heq⟩ := rearmAchievedApplication_eq (clearUnknown s) target.profile
    have hrearmed := discards_verification (by rw [heq]; exact hknown) hv hp ha hf hd
    rw [heq] at hrearmed
    exact hrearmed
  | applies target ht hz hx action ha hk =>
    obtain rfl := List.mem_singleton.mp hf
    cases hd
  | unknown phase since t hp hs hc ht => exact (quiet (by simp [Effect.discards]) hf).elim

theorem Classifies.discards (h : Classifies s o d) (hs : Free s o) (hf : f ∈ d.effects)
    (hd : f.discards = true) : Discarded s d.state f := by
  cases h with
  | unplugging s' he hu =>
    obtain rfl := List.mem_singleton.mp hf
    cases hd
  | retained s' hset hr =>
    obtain rfl := List.mem_singleton.mp hf
    cases hd
  | selected s' s'' hset hr hsel =>
    have hretain := samePlan_retainFailure s' o
    rw [hr] at hretain
    obtain ⟨p, hp, hdiscard⟩ := hsel.discards ((hs.settled hset).released hr).toCore hf hd
    exact ⟨p, (hset.samePlan.trans hretain).planning ▸ hp, hdiscard⟩

theorem PlanKnown.withdraws (h : PlanKnown s) (hw : Withdraws s r s' es) (hf : f ∈ es) :
    Discarded s s' f := by
  cases hw with
  | preparation a ha => exact h.discarded hf le_rfl rfl rfl
  | finalization a ha => cases hf

theorem Recorded.discards (h : Recorded s o) (ho : Observed s prior o d) (hf : f ∈ d.effects)
    (hd : f.discards = true) : Discarded s d.state f := by
  have quiet {es : List Effect} (hes : ∀ f ∈ es, f.discards = false) (hf : f ∈ es) : False := by
    simp [hes f hf] at hd
  have hstops : ∀ f ∈ stopEffects s, f.discards = false := by
    intro f hf
    simp only [stopEffects, Option.mem_toList, Option.map_eq_some_iff] at hf
    obtain ⟨w, -, rfl⟩ := hf
    rfl
  cases ho with
  | revoked r s' es n hv hl hr hn =>
    rcases List.mem_append.mp hf with hmem | hf
    · cases hr with
      | desktop hw =>
        have hknown : PlanKnown (revokeProofs s o) := h.planKnown
        obtain ⟨p, hp, heq, hunusable⟩ := hknown.withdraws hw hmem
        exact ⟨p, hp, heq, hunusable.known, hunusable.idle⟩
      | probe a ha => cases hmem
      | application a ha => cases hmem
    · obtain rfl := List.mem_singleton.mp hf
      cases hd
  | invalid phase n hv hn hp ht =>
    rcases List.mem_append.mp hf with hf | hf
    · exact (quiet hstops hf).elim
    · obtain rfl := List.mem_singleton.mp hf
      cases hd
  | completed a hv ha hl he => exact h.planKnown.discarded hf le_rfl rfl rfl
  | confirmed s' eff hv ht hc =>
    obtain rfl := List.mem_singleton.mp hf
    cases hc <;> cases hd
  | classified s' es d' hv hfrees hc =>
    rcases List.mem_append.mp hf with hf | hf
    · cases hfrees with
      | entered ht hr =>
        have hentered : Discarded s (s.enterEpoch o o.observedAtMs) f :=
          h.planKnown.discarded hf le_rfl rfl rfl
        obtain ⟨p, hp, heq, hunusable⟩ := hentered
        exact ⟨p, hp, heq, (hc.unusable hunusable (h.entered hv _)).1⟩
      | _ => cases hf
    · obtain ⟨p, hp, heq, hunusable⟩ := hc.discards (h.free hv hfrees) hf hd
      refine ⟨p, ?_, heq, hunusable⟩
      cases hfrees with
      | entered ht hr => cases hp
      | idle ht hb =>
        obtain ⟨phase, aggressive, index, -, hleave⟩ := leaveSlowWait_eq s prior o
        rw [hleave] at hp
        exact hp
      | cancelled ht hcancel =>
        cases hcancel <;> exact hp
      | concluded a b ht ha hl he hb hbl => exact hp
  | _ => exact (quiet (by simp [Effect.discards]) hf).elim

/-- A step discards only the plan it found, whose transition is unusable afterwards. -/
theorem Step.discards {e : Event} (h : Step s e d) (hs : Sound s) (hf : f ∈ d.effects)
    (hd : f.discards = true) : Discarded s d.state f := by
  have quiet {es : List Effect} (hes : ∀ f ∈ es, f.discards = false) (hf : f ∈ es) : False := by
    simp [hes f hf] at hd
  have hstops : ∀ f ∈ stopEffects s, f.discards = false := by
    intro f hf
    simp only [stopEffects, Option.mem_toList, Option.map_eq_some_iff] at hf
    obtain ⟨w, -, rfl⟩ := hf
    rfl
  have wakes {es : List Effect} {reason : WakeReason} {n : Nat} (hf : f ∈ es ++ [.requestObservation reason] ++
      [.schedule n]) : f ∈ es := by
    simp only [List.mem_append, List.mem_singleton] at hf
    rcases hf with (hf | rfl) | rfl
    · exact hf
    · cases hd
    · cases hd
  have hplan : PlanKnown s := hs.planKnown
  cases h with
  | observed e hb hfresh ho =>
    exact (hs.recorded (e.same_boot.trans hb) hfresh).discards ho hf hd
  | observationFailed e t ht =>
    rcases List.mem_append.mp hf with hf | hf
    · exact (quiet hstops hf).elim
    · exact (quiet (by simp [Effect.discards]) hf).elim
  | hinted e s' es n hb hg ht hh =>
    have hmem := wakes hf
    cases hh with
    | withdrawn hl hw =>
      have hknown : PlanKnown (supersedeProofs s e.eventGeneration e.metadata.processedAtMs) := hplan
      obtain ⟨p, hp, heq, hunusable⟩ := hknown.withdraws hw hmem
      exact ⟨p, hp, heq, hunusable.known, hunusable.idle⟩
    | reopened hq hf hp => cases hmem
    | kept hp => cases hmem
  | dirtied e r s' es n hb hr he hl hg ht hw =>
    have hmem := wakes hf
    rcases hw with hw | ⟨-, -, rfl⟩
    · have hknown : PlanKnown (supersedeProofs s e.eventGeneration n) := hplan
      obtain ⟨p, hp, heq, hunusable⟩ := hknown.withdraws hw hmem
      exact ⟨p, hp, heq, hunusable.known, hunusable.idle⟩
    · cases hmem
  | planRetried e p n hp hst hi hkey hretry ht =>
    rcases List.mem_append.mp hf with hf | hf
    · exact hplan.discarded hf le_rfl rfl rfl
    · exact (quiet (by simp [Effect.discards]) hf).elim
  | closed e r l v es n hmem hkind he hl hv hes ht =>
    -- The plan stays in its slot, but its preparation is gone and no verification runs.
    have hdiscards := wakes hf
    rcases hes with rfl | ⟨hprep, rfl⟩
    · cases hdiscards
    · obtain ⟨p, hp, rfl⟩ := State.mem_planDiscards hdiscards
      cases r with
      | preparation a => exact ⟨p, hp, rfl, hplan p hp, fun q hq ht => ⟨rfl, by rintro ⟨⟩⟩⟩
      | _ => cases hprep
  | failed e r r' phase es n hmem hcont hfail he hp hes =>
    rcases List.mem_append.mp hf with hf | hf
    · rcases hes with rfl | rfl
      · cases hf
      · exact (quiet (by simp [Effect.discards]) hf).elim
    · exact (quiet (by simp [Effect.discards]) hf).elim
  | doubted e r v n hmem hkind hl he ht =>
    rcases List.mem_append.mp hf with hf | hf
    · split at hf
      · cases hf
      · exact (quiet (by simp [Effect.discards]) hf).elim
    · exact (quiet (by simp [Effect.discards]) hf).elim
  | restarted e a s' es n ha hl hw ht =>
    have hknown : PlanKnown { s with controllerInstance := e.controllerInstance } := hplan
    obtain ⟨p, hp, heq, hunusable⟩ := hknown.withdraws hw (wakes hf)
    exact ⟨p, hp, heq, hunusable.known, hunusable.idle⟩
  | resumed e v es n hq hv hes =>
    rcases List.mem_append.mp hf with hf | hf
    · rcases hes with rfl | rfl
      · cases hf
      · exact (quiet (by simp [Effect.discards]) hf).elim
    · exact (quiet (by simp [Effect.discards]) hf).elim
  | _ => exact (quiet (by simp [Effect.discards]) hf).elim

end Discarding

/-- A discarded plan is never used afterwards, and a plan which is in use is not discarded. -/
theorem discarded_never_used {newer older : List (Runs.Move State Event Decision)}
    {m : Runs.Move State Event Decision} {s : State} (h : Run (newer ++ m :: older) s)
    {a : ActionId} {planHash : Option PlanHash} {hk : a.kind = .plan}
    (hd : .discardPlan a planHash hk ∈ m.output.effects) :
    ∃ p, m.before.planning = some p ∧ p.actionId = a ∧ p.planHash = planHash ∧
      ¬ (Works m.before p.transitionId ∧ Works m.after p.transitionId) ∧
      ∀ n ∈ newer, ∀ f ∈ n.output.effects, f.uses? ≠ some p.transitionId := by
  obtain ⟨hrun, hmove, hafter⟩ := h.older
  have hreach : Reachable m.before := hrun.reachable
  obtain ⟨-, hstep, -, hsound⟩ := hreach.sound.reduces hmove
  obtain ⟨p, hp, heq, hunusable⟩ := hstep.discards hreach.sound hd rfl
  obtain ⟨hid, hhash⟩ : a = p.actionId ∧ planHash = p.planHash := by
    simpa [PlanningAction.discard] using heq
  refine ⟨p, hp, hid.symm, hhash.symm, fun hw => ?_, fun n hn f hf => ?_⟩
  · rw [hafter] at hw
    exact hunusable.not_works hsound.desktop hw.2
  · -- The transition is still unusable when the later decision is taken.
    obtain ⟨before, later, rfl⟩ := List.append_of_mem hn
    rw [List.append_assoc] at h
    obtain ⟨hrun', hmove', -⟩ := h.older
    have hunusable' : Unusable n.before p.transitionId := by
      refine hrun'.since (P := fun s => Unusable s p.transitionId) (hafter ▸ hunusable) ?_
      rintro s e d _ hr hs ⟨hd, rfl⟩
      have hreach' : Reachable s := hr
      exact ((hreach'.sound.reduces hd).2.1.unusable hs hreach'.sound).1
    have hreach' : Reachable n.before := hrun'.reachable
    exact ((hreach'.sound.reduces hmove').2.1.unusable hunusable' hreach'.sound).2 f hf

namespace Scenario

theorem seenLater_accepted : (lit dock dock 5 5000).Accepted := by decide

/-- The monitor is seen again, after the panel's plan was discarded. -/
def restaged : Decision :=
  decided unstaged.state (.observationCompleted (shown dock dock 5 5000 seenLater_accepted)) rfl

end Scenario

open Scenario in
theorem discarded_never_used_unstaged : ∃ p, staged.planning = some p ∧ p.actionId = planId ∧
    p.planHash = some ⟨laptop⟩ ∧
    ¬ (Works staged p.transitionId ∧ Works unstaged.state p.transitionId) ∧
    ∀ f ∈ restaged.effects, f.uses? ≠ some p.transitionId := by
  obtain ⟨ms, hrun⟩ := staged_reachable
  have hrun' : Run ([⟨unstaged.state, .observationCompleted (shown dock dock 5 5000), restaged,
      restaged.state⟩] ++ ⟨staged, .observationCompleted monitorShown, unstaged, unstaged.state⟩ ::
      ms) restaged.state :=
    .move (.move hrun ⟨reduce_decided _ _ _, rfl⟩) ⟨reduce_decided _ _ _, rfl⟩
  have hd : Effect.discardPlan planId (some ⟨laptop⟩) rfl ∈ unstaged.effects := by decide +kernel
  obtain ⟨p, hp, hid, hhash, hworks, hlater⟩ := discarded_never_used hrun' hd
  exact ⟨p, hp, hid, hhash, hworks, hlater _ List.mem_cons_self⟩

end MonitorController
