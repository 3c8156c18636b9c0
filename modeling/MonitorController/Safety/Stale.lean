import MonitorController.Safety.Topology
import MonitorController.Transition.Launches

/-! # Stale evidence

A sample which is older than the last reduced hint is ignored, once some sample
is retained. The first sample of a start-up, a recovery or a boot has no prior
one to be compared with, and launches on evidence which a hint has superseded.
-/

namespace MonitorController

theorem Sound.actions_of_unobserved {s : State} (h : Sound s) (hl : s.latestObservation = none) :
    s.actions = [] := by
  have hp : s.phase = .recovering := h.started.mpr hl
  obtain ⟨hplan, hprep⟩ := h.control.recovering hp
  have hprobe := h.control.probe_fits
  have happlication := h.control.application_fits
  have hplanning := h.control.planning_fits
  have hpreparation := h.control.preparation_fits
  have hfinalization := h.control.finalization_fits
  rw [hp] at hprobe happlication hfinalization
  rw [hplan] at hplanning
  rw [hprep] at hpreparation
  simp only [Fits, probeShape, applicationShape, expectedPlanning, expectedPreparation,
    expectedFinalizationLifecycles, Option.map_eq_none_iff]
    at hprobe happlication hplanning hpreparation hfinalization
  simp [State.actions, hprobe, happlication, hplanning, hpreparation, hfinalization]

/-- Neither external intent nor a finalized profile is known before the first sample. -/
def Unobserved (s : State) : Prop :=
  s.latestObservation = none → s.externalIntent = false ∧ s.desktopFinalizedProfile = none

theorem Step.unobserved {s : State} {e : Event} {d : Decision} (h : Step s e d)
    (hs : s.latestObservation = none → s.actions = []) (hu : Unobserved s) :
    Unobserved d.state := by
  intro hl
  have vacant {r : ActionRecord} (hr : r ∈ s.actions) (hl : s.latestObservation = none) :
      False := by
    simp [hs hl] at hr
  have withdraws {t s' : State} {r : ActionRecord} {es : List Effect} (hw : Withdraws t r s' es)
      (ht : t.actions = s.actions) (hl : s.latestObservation = none) : False := by
    cases hw with
    | preparation a ha => exact vacant (ht ▸ State.mem_actions_preparation ha) hl
    | finalization a ha => exact vacant (ht ▸ State.mem_actions_finalization ha) hl
  cases h with
  | observed e hb hf ho => cases ho.latest.symm.trans hl
  | hinted e s' es t hb hg ht hh =>
    cases hh with
    | withdrawn hl' hw =>
      refine (withdraws hw rfl ?_).elim
      cases hw <;> exact hl
    | reopened hq hf hp => exact hu hl
    | kept hp => exact hu hl
  | dirtied e r s' es t hb hr he hl' hg ht hw =>
    refine (vacant hr ?_).elim
    rcases hw with hw | ⟨-, rfl, -⟩
    · cases hw <;> exact hl
    · exact hl
  | closed e r l v es t hr hk he hl' hv hes ht => cases r <;> exact (vacant hr hl).elim
  | failed e r r' phase es t hr hc hf he hp hes => cases r' <;> exact (vacant hr hl).elim
  | doubted e r v t hr hk hl' he ht => cases r <;> exact (vacant hr hl).elim
  | restarted e a s' es t ha hl' hw ht =>
    refine (withdraws hw rfl ?_).elim
    cases hw
    exact hl
  | booted e hb => exact ⟨rfl, rfl⟩
  | _ => exact hu hl

theorem Reachable.unobserved {s : State} (h : Reachable s) : Unobserved s := by
  refine Runs.Reachable.invariant ?_ ?_ h
  · rintro _ ⟨_, _, _, _, rfl⟩ -
    exact ⟨rfl, rfl⟩
  · rintro s e d _ hr hu ⟨hd, rfl⟩
    have hsound := Reachable.sound hr
    obtain ⟨-, hstep, -⟩ := hsound.reduces hd
    exact hstep.unobserved hsound.actions_of_unobserved hu

section Samples

variable {s : State} {prior : Option CanonicalObservation} {o : CanonicalObservation}
  {d : Decision}

/-- Without an occupied slot a valid sample of a new topology enters it and is classified. -/
theorem Observed.enters (h : Observed s prior o d) (hv : o.valid = true) (ha : s.actions = [])
    (ht : s.physicalToken ≠ some o.physicalToken) :
    ∃ d', Classifies (s.enterEpoch o o.observedAtMs) o d' ∧
      d = ⟨d'.state, s.planDiscards ++ d'.effects⟩ := by
  have vacant {r : ActionRecord} (hr : r ∈ s.actions) : False := by
    simp [ha] at hr
  cases h with
  | revoked r s' es t hinv hl hr ht => simp [hv] at hinv
  | invalid phase t hinv hn hp ht => simp [hv] at hinv
  | invalidInternal a t hinv ha hi ht => simp [hv] at hinv
  | internal a t _ ha hi => exact (vacant (State.mem_actions_application ha)).elim
  | stopping w t _ hw hl =>
    rcases State.mem_mutators.mp hw with ⟨a, ha, -⟩ | ⟨a, ha, -⟩ | ⟨a, ha, -⟩ | ⟨a, ha, -⟩
    · exact (vacant (State.mem_actions_probe ha)).elim
    · exact (vacant (State.mem_actions_application ha)).elim
    · exact (vacant (State.mem_actions_preparation ha)).elim
    · exact (vacant (State.mem_actions_finalization ha)).elim
  | stopped r s' t _ hs =>
    cases hs with
    | probe a ha => exact (vacant (State.mem_actions_probe ha)).elim
    | application a ha => exact (vacant (State.mem_actions_application ha)).elim
    | preparation a ha => exact (vacant (State.mem_actions_preparation ha)).elim
    | finalization a ha => exact (vacant (State.mem_actions_finalization ha)).elim
  | refused s' t _ hs =>
    cases hs with
    | finalization a b v ha => exact (vacant (State.mem_actions_finalization ha)).elim
    | preparation a b ha => exact (vacant (State.mem_actions_preparation ha)).elim
  | completed a _ ha => exact (vacant (State.mem_actions_finalization ha)).elim
  | running t _ hto => exact absurd hto ht
  | uncertain a t _ hto => exact absurd hto ht
  | preparing a t _ hto => exact absurd hto ht
  | confirmed s' eff _ hto => exact absurd hto ht
  | classified s' es d _ hf hc =>
    cases hf with
    | entered _ hr => exact ⟨d, hc, rfl⟩
    | idle hto => exact absurd hto ht
    | cancelled hto => exact absurd hto ht
    | concluded a b hto => exact absurd hto ht

/-- Nothing was attempted, selected, planned or finalized in the topology yet. -/
structure Blank (s : State) : Prop where
  phase : s.phase = .discoverFast
  candidate : s.candidate = none
  probeKeys : s.attemptedProbeKeys = ∅
  applicationKeys : s.attemptedApplicationKeys = ∅
  planning : s.planningState = .planIdle
  finalized : s.desktopFinalizedProfile = none

/-- The sample has something to launch: a probe, a load or, without a baseline, a plan. -/
def Authorises (o : CanonicalObservation) (baseline : Bool) : Prop :=
  o.probeCandidate ≠ none ∧ o.displayPower ≠ .asleep ∨
  ∃ target, Targets o target ∧
    (shownExactly o target ∧ baseline = false ∨
      ¬ shownExactly o target ∧ o.displayPower ≠ .asleep)

theorem Advances.mem_effects {es : List Effect} (h : Advances s o es d) {f : Effect}
    (hf : f ∈ es) : f ∈ d.effects := by
  cases h with
  | adopted since candidate hv hc hp hb => exact hf
  | prepares since candidate planning planHash hv hc hp hfin hb hl hls hh hqs =>
    exact List.mem_append_left _ (List.mem_append_left _ hf)
  | _ => exact List.mem_append_left _ hf

theorem Advances.launches_of_baseline {es : List Effect} (h : Advances s o es d)
    (hb : s.baselineAdoption = true) {f : Effect} (hf : f ∈ d.effects)
    (hl : f.launches = true) : f ∈ es := by
  cases h with
  | finalized since candidate hv hc hp hfin =>
    rcases List.mem_append.mp hf with hf | hf
    · exact hf
    · simp [not_launches_planDiscards f hf] at hl
  | adopted since candidate hv hc hp hb => exact hf
  | finalizes since candidate preparation hv hc hp hfin hbase => simp [hb] at hbase
  | prepares since candidate planning planHash hv hc hp hfin hbase => simp [hb] at hbase
  | settled since candidate t hv hc ht =>
    rcases List.mem_append.mp hf with hf | hf
    · exact hf
    · obtain rfl := List.mem_singleton.mp hf
      cases hl

theorem Selects.launches_iff (h : Selects s o d) (hs : Blank s) :
    (∃ f ∈ d.effects, f.launches = true) ↔ Authorises o s.baselineAdoption := by
  have quiet {es : List Effect} (hes : ∀ f ∈ es, f.launches = false) :
      ¬ ∃ f ∈ es, f.launches = true := by
    rintro ⟨f, hf, hl⟩
    simp [hes f hf] at hl
  have unselected {b : Bool} (hc : o.probeCandidate = none) (ht : selectTarget o = none) :
      ¬ Authorises o b := by
    rintro (⟨hn, -⟩ | ⟨target, ⟨-, ht'⟩, -⟩)
    · exact hn hc
    · cases ht.symm.trans ht'
  have decides {b : Bool} {target : ProfileMatch} (ht : Targets o target) (ha : Authorises o b) :
      shownExactly o target ∧ b = false ∨
        ¬ shownExactly o target ∧ o.displayPower ≠ .asleep := by
    rcases ha with ⟨hn, -⟩ | ⟨target', ht', ha⟩
    · exact absurd ht.1 hn
    · obtain rfl : target' = target := Option.some.inj (ht'.2.symm.trans ht.2)
      exact ha
  cases h with
  | deferred hz hn =>
    refine iff_of_false (quiet (by simp [Effect.launches])) ?_
    rcases hn with hn | ⟨target, ht, hx⟩
    · rintro (⟨-, hawake⟩ | ⟨target, ht, -⟩)
      · exact hawake hz
      · exact hn ht.1
    · intro ha
      rcases decides ht ha with ⟨hx', -⟩ | ⟨-, hawake⟩
      · exact hx hx'
      · exact hawake hz
  | waits hw hc ht => exact iff_of_false (quiet hw.launches) (unselected hc ht)
  | waitsKnown hw c hz hc hk => simp [hs.probeKeys] at hk
  | waitsSpent target ht hz hw hx hk hdue => simp [hs.applicationKeys] at hk
  | probes c hz hc action ha hk =>
    refine iff_of_true ⟨action.activate o.observationKey, by simp, rfl⟩ (.inl ⟨?_, hz⟩)
    simp [hc]
  | stable target ht hx hstable =>
    obtain ⟨keys, -, profiles, heq⟩ :=
      rearmAchievedApplication_eq (clearUnknown s) target.profile
    rw [heq] at hstable
    have hp : s.phase = .quiescent := hstable.1
    simp [hs.phase] at hp
  | verifies target s' es s'' fs ht hx hv hp ha =>
    obtain ⟨keys, -, profiles, heq⟩ :=
      rearmAchievedApplication_eq (clearUnknown s) target.profile
    rw [heq] at hv
    have fresh (hsame : ∃ c ∈ s.candidate, c.profile = target.profile) : False := by
      obtain ⟨c, hc, -⟩ := hsame
      rw [hs.candidate] at hc
      cases hc
    have hes := hv.launches
    cases hv with
    | kept hsame =>
      obtain ⟨-, ⟨c, hc, hprofile, -⟩, -⟩ := hsame
      exact (fresh ⟨c, hc, hprofile⟩).elim
    | replanned hsame =>
      obtain ⟨-, ⟨c, hc, hprofile, -⟩, -⟩ := hsame
      exact (fresh ⟨c, hc, hprofile⟩).elim
    | restarted hrestart =>
      cases hp with
      | admitted hf hb hi =>
        have hmem := ha.mem_effects (List.mem_append_right _ (List.mem_singleton_self _))
        exact iff_of_true ⟨_, hmem, rfl⟩ (.inr ⟨target, ht, .inl ⟨hx, hb⟩⟩)
      | kept hk =>
        have hbaseline : s.baselineAdoption = true := by
          by_contra hb
          refine hk ⟨?_, Bool.eq_false_iff.mpr hb, rfl⟩
          change s.desktopFinalizedProfile ≠ _
          simp [hs.finalized]
        refine iff_of_false ?_ fun hauthorises => ?_
        · rintro ⟨f, hf, hl⟩
          have hf := ha.launches_of_baseline hbaseline hf hl
          rw [List.append_nil] at hf
          simp [hes f hf] at hl
        · rcases decides ht hauthorises with ⟨-, hb⟩ | ⟨hn, -⟩
          · simp [hbaseline] at hb
          · exact hn hx
  | applies target ht hz hx action ha hk =>
    exact iff_of_true ⟨_, List.mem_singleton_self _, rfl⟩ (.inr ⟨target, ht, .inr ⟨hx, hz⟩⟩)
  | unknown phase since t hp hsince hc ht =>
    exact iff_of_false (quiet (by simp [Effect.launches])) (unselected hc ht)

/-- Before its first sample the controller launches whatever the sample authorises. -/
theorem Observed.launches_iff (h : Observed s prior o d) (hv : o.valid = true)
    (ha : s.actions = []) (ht : s.physicalToken = none) (hi : s.externalIntent = false)
    (hf : s.desktopFinalizedProfile = none) :
    (∃ f ∈ d.effects, f.launches = true) ↔ Authorises o s.adoptsBaseline := by
  obtain ⟨d', hc, rfl⟩ := h.enters hv ha (by simp [ht])
  have hdiscards : (∃ f ∈ s.planDiscards ++ d'.effects, f.launches = true) ↔
      ∃ f ∈ d'.effects, f.launches = true := by
    constructor
    · rintro ⟨f, hf, hl⟩
      rcases List.mem_append.mp hf with hf | hf
      · simp [not_launches_planDiscards f hf] at hl
      · exact ⟨f, hf, hl⟩
    · rintro ⟨f, hf, hl⟩
      exact ⟨f, List.mem_append_right _ hf, hl⟩
  rw [hdiscards]
  have selects {t t' : State} {b : Bool} (hr : retainFailure t o = (t', b)) (hb : Blank t) :
      b = false ∧ t' = t := by
    have hretain : retainFailure t o = (t, false) := by
      unfold retainFailure
      rw [hb.phase]
    rw [hretain] at hr
    exact ⟨(congrArg Prod.snd hr).symm, (congrArg Prod.fst hr).symm⟩
  have accepts {t : State} (hn : t.candidate = none) : (acceptExternal t).candidate = none := by
    simp [acceptExternal, hn]
  have settles {t : State} (hs : Settles (s.enterEpoch o o.observedAtMs) o t) :
      Blank t ∧ t.baselineAdoption = s.adoptsBaseline := by
    cases hs with
    | external he =>
      exact ⟨⟨rfl, accepts rfl, rfl, rfl, rfl, hf⟩, rfl⟩
    | unplugged he hu => cases hu <;> exact ⟨⟨rfl, rfl, rfl, rfl, rfl, hf⟩, rfl⟩
  cases hc with
  | unplugging s' he hu =>
    cases hu with
    | incomplete proof hintent => cases hi.symm.trans hintent
  | retained s' hs hr => cases (selects hr (settles hs).1).1
  | selected s' s'' hs hr hd =>
    obtain ⟨hblank, hbaseline⟩ := settles hs
    obtain rfl := (selects hr hblank).2
    rw [hd.launches_iff hblank, hbaseline]

end Samples

/-- A sample which a hint has superseded launches nothing, unless it is the first one and has
something to launch. -/
theorem superseded_launches_iff {s : State} (hs : Reachable s) {e : ObservationCompleted}
    (hg : e.observation.eventGeneration < s.eventGeneration) {d : Decision}
    (hd : reduce s (.observationCompleted e) = .ok d) :
    (∀ f ∈ d.effects, f.launches = false) ↔
      ¬ (e.metadata.bootId = s.bootId ∧ s.latestObservation = none ∧
        e.observation.valid = true ∧
        Authorises e.observation (!s.desktopFinalizationRequired)) := by
  obtain ⟨-, hstep, -⟩ := hs.sound.reduces hd
  have fresh (hl : s.latestObservation = none) : ¬ staleObservation s e.observation := by
    rintro ⟨prior, hprior, -⟩
    rw [hl] at hprior
    cases hprior
  have launches (hl : s.latestObservation = none) (hv : e.observation.valid = true)
      (ho : Observed (recordObservation s e.observation) s.latestObservation e.observation d) :
      (∃ f ∈ d.effects, f.launches = true) ↔
        Authorises e.observation (!s.desktopFinalizationRequired) := by
    obtain ⟨hintent, hfinal⟩ := hs.unobserved hl
    have hfinal' : (recordObservation s e.observation).desktopFinalizedProfile = none := by
      simp [recordObservation, hfinal]
    rw [ho.launches_iff hv (hs.sound.actions_of_unobserved hl)
      (hs.sound.selection.unobserved hl).1 hintent hfinal']
    have hbaseline : (recordObservation s e.observation).adoptsBaseline =
        !s.desktopFinalizationRequired := by
      have hp : s.phase = .recovering := hs.sound.started.mpr hl
      simp [State.adoptsBaseline, hfinal, recordObservation, hp]
    rw [hbaseline]
  constructor
  · rintro hquiet ⟨hb, hl, hv, ha⟩
    obtain ⟨ho, -⟩ := hs.sound.observed_of_fresh ⟨hb, fresh hl, hv⟩ hd
    obtain ⟨f, hf, hlaunch⟩ := (launches hl hv ho).mpr ha
    simp [hquiet f hf] at hlaunch
  · intro hn f hf
    by_contra hlaunch
    have hlaunch : f.launches = true := by simpa using hlaunch
    obtain ⟨c, heq, hb, hfresh, ho⟩ := hstep.launches hf hlaunch
    obtain rfl : e = c := Event.observationCompleted.inj heq
    have hl : s.latestObservation = none := by
      by_contra hprior
      obtain ⟨prior, hprior⟩ := Option.ne_none_iff_exists'.mp hprior
      exact hfresh ⟨prior, hprior, .inr (.inr hg)⟩
    obtain ⟨hv, -⟩ := ho.launches hf hlaunch
    exact hn ⟨hb, hl, hv, (launches hl hv ho).mp ⟨f, hf, hlaunch⟩⟩

namespace Scenario

def hinted : State := (follow fresh [.drmHintReceived ⟨metadata 500, 1⟩]).get rfl

theorem hinted_reachable : Reachable hinted := fresh_reachable.follow (Option.some_get _).symm

end Scenario

open Scenario in
theorem superseded_launches_iff_hinted :
    (∀ f ∈ (decided hinted (.observationCompleted darkSampled) rfl).effects, f.launches = false) ↔
      ¬ (darkSampled.metadata.bootId = hinted.bootId ∧ hinted.latestObservation = none ∧
        darkSampled.observation.valid = true ∧
        Authorises darkSampled.observation (!hinted.desktopFinalizationRequired)) :=
  superseded_launches_iff hinted_reachable (by decide) (reduce_decided hinted _ _)

open Scenario in
/-- The first sample loads a profile although a hint has superseded it. -/
theorem superseded_launches : ¬ ∀ s, Reachable s → ∀ e : ObservationCompleted,
    e.observation.eventGeneration < s.eventGeneration →
    ∀ d, reduce s (.observationCompleted e) = .ok d → ∀ f ∈ d.effects, f.launches = false := by
  intro h
  have hquiet := h hinted hinted_reachable darkSampled (by decide)
    (decided hinted (.observationCompleted darkSampled) rfl) (reduce_decided _ _ _)
  exact absurd hquiet (by decide +kernel)

end MonitorController
