import MonitorController.Safety.Totality
import MonitorController.Transition.Launches

/-! # Desktop completion

A profile is recorded as finalized only on a sample which shows it: either the
finalization of it awaits this confirmation, or a startup adopts it. A desktop
which a new boot requires is never adopted.
-/

namespace MonitorController

/-- A startup baseline whose stability the sample completes. -/
structure Adopts (s : State) (o : CanonicalObservation) (profile : Text) : Prop where
  exact : o.exactProfile = some profile
  current : profile ∈ o.currentProfiles
  baseline : s.baselineAdoption = true
  proven : ∃ since ∈ s.verifySinceMs, since + profileStabilityMs ≤ o.observedAtMs

/-- The finalization of the profile awaits the confirmation which the sample is. -/
structure Concludes (s : State) (o : CanonicalObservation) (profile : Text) : Prop where
  exact : o.exactProfile = some profile
  current : profile ∈ o.currentProfiles
  pending : ∃ a ∈ s.finalization, a.lifecycle = .resultPending ∧ a.profile = profile ∧
    a.observationKey = o.observationKey

section Classification

variable {s s' : State} {o : CanonicalObservation} {target : ProfileMatch} {d : Decision}

theorem Adopts.of_later {profile : Text} (h : Adopts s' o profile)
    (hb : s'.baselineAdoption = true → s.baselineAdoption = true)
    (hv : ∀ since ∈ s'.verifySinceMs, since ∈ s.verifySinceMs ∨ since = o.observedAtMs) :
    Adopts s o profile where
  exact := h.exact
  current := h.current
  baseline := hb h.baseline
  proven := by
    obtain ⟨since, hsince, hle⟩ := h.proven
    rcases hv since hsince with hold | rfl
    · exact ⟨since, hold, hle⟩
    · exact absurd hle (by simp [profileStabilityMs])

theorem Advances.adopts {es : List Effect} (h : Advances s o es d) :
    d.state.desktopFinalizedProfile = s.desktopFinalizedProfile ∨
    ∃ c ∈ s.candidate, d.state.desktopFinalizedProfile = some c.profile ∧
      s.baselineAdoption = true ∧
      ∃ since ∈ s.verifySinceMs, since + profileStabilityMs ≤ o.observedAtMs := by
  cases h with
  | adopted since candidate hv hc hp hb =>
    simp only [proofComplete, Bool.and_eq_true, decide_eq_true_eq] at hp
    exact .inr ⟨candidate, hc, rfl, hb, since, hv, hp.1⟩
  | _ => exact .inl rfl

theorem Verifies.proof {es : List Effect} (h : Verifies s o target s' es) :
    ∀ since ∈ s'.verifySinceMs, since ∈ s.verifySinceMs ∨ since = o.observedAtMs := by
  cases h with
  | kept hs hi => exact fun since hv => .inl hv
  | replanned hs hi => exact fun since hv => .inl hv
  | restarted hs =>
    rintro since ⟨⟩
    exact .inr rfl

theorem Selects.adopts (h : Selects s o d) :
    d.state.desktopFinalizedProfile = s.desktopFinalizedProfile ∨
    ∃ profile, d.state.desktopFinalizedProfile = some profile ∧ Adopts s o profile := by
  cases h with
  | waits hw => cases hw; exact .inl rfl
  | waitsKnown hw => cases hw; exact .inl rfl
  | waitsSpent target ht hz hw => cases hw; exact .inl rfl
  | stable target ht hx hs =>
    obtain ⟨keys, -, profiles, heq⟩ :=
      rearmAchievedApplication_eq (clearUnknown s) target.profile
    refine .inl ?_
    change (rearmAchievedApplication _ _).desktopFinalizedProfile = _
    rw [heq]
    rfl
  | verifies target s' es s'' fs ht hx hv hp ha =>
    obtain ⟨keys, -, profiles, heq⟩ :=
      rearmAchievedApplication_eq (clearUnknown s) target.profile
    rw [heq] at hv
    have hverified : s'.desktopFinalizedProfile = s.desktopFinalizedProfile ∧
        s'.baselineAdoption = s.baselineAdoption := by
      cases hv <;> exact ⟨rfl, rfl⟩
    have hcandidate := hv.candidate
    have hproof := hv.proof
    cases hp with
    | admitted hf hb hi =>
      rcases ha.adopts with hsame | ⟨c, hc, -, hadopts, -⟩
      · exact .inl (hsame.trans hverified.1)
      · have hb : s'.baselineAdoption = false := hb
        have hadopts : s'.baselineAdoption = true := hadopts
        simp [hb] at hadopts
    | kept =>
      rcases ha.adopts with hsame | ⟨c, hc, hprofile, hb, since, hsince, hle⟩
      · exact .inl (hsame.trans hverified.1)
      · obtain ⟨hexact, hcurrent⟩ := hx
        rw [← hcandidate c hc] at hexact hcurrent
        have hadopts : Adopts s' o c.profile := ⟨hexact, hcurrent, hb, since, hsince, hle⟩
        exact .inr ⟨c.profile, hprofile, hadopts.of_later (hverified.2 ▸ ·) hproof⟩
  | _ => exact .inl rfl

/-- A classification records a profile only by adopting it. -/
theorem Classifies.adopts (h : Classifies s o d) :
    d.state.desktopFinalizedProfile = s.desktopFinalizedProfile ∨
    ∃ profile, d.state.desktopFinalizedProfile = some profile ∧ Adopts s o profile := by
  have settles {s' : State} (hs : Settles s o s') :
      s'.desktopFinalizedProfile = s.desktopFinalizedProfile ∧
      (s'.baselineAdoption = true → s.baselineAdoption = true) ∧
      ∀ since ∈ s'.verifySinceMs, since ∈ s.verifySinceMs := by
    cases hs with
    | external he =>
      refine ⟨rfl, id, fun since hsince => ?_⟩
      dsimp only [acceptExternal] at hsince
      split at hsince
      · cases hsince
      · exact hsince
    | unplugged he hu => cases hu <;> exact ⟨rfl, id, fun since hsince => hsince⟩
  cases h with
  | unplugging s' he hu => cases hu; exact .inl rfl
  | retained s' hs hr => exact .inl (settles hs).1
  | selected s' s'' hs hr hd =>
    obtain ⟨hsame, hb, hv⟩ := settles hs
    have hretain : s''.desktopFinalizedProfile = s'.desktopFinalizedProfile ∧
        s''.baselineAdoption = s'.baselineAdoption ∧ s''.verifySinceMs = s'.verifySinceMs := by
      obtain rfl : (retainFailure s' o).1 = s'' := congrArg Prod.fst hr
      rcases retainFailure_cases s' o with hc | hc | ⟨-, hc⟩ | ⟨-, hc⟩ | ⟨-, hc⟩ <;> rw [hc] <;>
        exact ⟨rfl, rfl, rfl⟩
    rcases hd.adopts with heq | ⟨profile, hprofile, ha⟩
    · exact .inl (heq.trans (hretain.1.trans hsame))
    · refine .inr ⟨profile, hprofile, ha.of_later (fun hb' => hb (hretain.2.1 ▸ hb')) ?_⟩
      exact fun since hsince => .inl (hv since (hretain.2.2 ▸ hsince))

/-- A baseline is adopted in its own topology. -/
theorem Frees.adopts {prior : Option CanonicalObservation} {es : List Effect}
    (h : Frees s prior o s' es) :
    s'.desktopFinalizedProfile = s.desktopFinalizedProfile ∧
      s'.desktopFinalizationRequired = s.desktopFinalizationRequired ∧
      ∀ profile, Adopts s' o profile → Adopts s o profile ∧
        s.physicalToken = some o.physicalToken := by
  cases h with
  | entered ht hr =>
    refine ⟨rfl, rfl, fun profile ha => ?_⟩
    obtain ⟨since, hsince, -⟩ := ha.proven
    cases hsince
  | idle ht hb =>
    unfold leaveSlowWait
    split
    · exact ⟨rfl, rfl, fun profile ha => ⟨ha.of_later id fun since hv => .inl hv, ht⟩⟩
    · exact ⟨rfl, rfl, fun profile ha => ⟨ha, ht⟩⟩
  | cancelled ht hc =>
    cases hc with
    | probe a ha hl hc =>
      exact ⟨rfl, rfl, fun profile ha => ⟨ha.of_later id fun since hv => .inl hv, ht⟩⟩
    | application a ha hl hc =>
      exact ⟨rfl, rfl, fun profile ha => ⟨ha.of_later id fun since hv => .inl hv, ht⟩⟩
    | preparation a ha hl hc =>
      exact ⟨rfl, rfl, fun profile ha => ⟨ha.of_later id (by rintro since ⟨⟩), ht⟩⟩
    | finalization a ha hl hc =>
      exact ⟨rfl, rfl, fun profile ha => ⟨ha.of_later id (by rintro since ⟨⟩), ht⟩⟩
  | concluded a b ht ha hl he hb hbl =>
    refine ⟨rfl, rfl, fun profile ha => ⟨ha.of_later id fun since hsince => ?_, ht⟩⟩
    have hsince : keepProof s o.observedAtMs = some since := hsince
    unfold keepProof at hsince
    split at hsince
    · exact .inr (Option.some.inj hsince).symm
    · next hv => exact .inl (hv.trans hsince)

theorem Withdraws.records {r : ActionRecord} {es : List Effect} (h : Withdraws s r s' es) :
    s'.desktopFinalizedProfile = s.desktopFinalizedProfile ∧
      s'.desktopFinalizationRequired = s.desktopFinalizationRequired := by
  cases h <;> exact ⟨rfl, rfl⟩

/-- A sample records a profile which it shows, to conclude its finalization or to adopt it. -/
theorem Observed.records {prior : Option CanonicalObservation} (h : Observed s prior o d) :
    (d.state.desktopFinalizedProfile = s.desktopFinalizedProfile ∧
      d.state.desktopFinalizationRequired = s.desktopFinalizationRequired) ∨
    ∃ profile, d.state.desktopFinalizedProfile = some profile ∧ o.valid = true ∧
      s.physicalToken = some o.physicalToken ∧
      (Concludes s o profile ∨ Adopts s o profile ∧
        d.state.desktopFinalizationRequired = s.desktopFinalizationRequired) := by
  cases h with
  | revoked r s' es t hv hl hr ht =>
    cases hr with
    | desktop hw => exact .inl hw.records
    | probe a ha => exact .inl ⟨rfl, rfl⟩
    | application a ha => exact .inl ⟨rfl, rfl⟩
  | stopped r s' t hv hs hi hc ht => cases hs <;> exact .inl ⟨rfl, rfl⟩
  | refused s' t hv hs ht hc => cases hs <;> exact .inl ⟨rfl, rfl⟩
  | completed a hv ha hl he =>
    obtain ⟨b, hb, htoken, hexact, hcurrent, hkey⟩ := he
    obtain rfl := Option.mem_unique ha hb
    have hconcludes : Concludes s o a.profile := ⟨hexact, hcurrent, a, ha, hl, rfl, hkey.symm⟩
    exact .inr ⟨a.profile, rfl, hv, htoken, .inl hconcludes⟩
  | confirmed s' eff hv ht hc => cases hc <;> exact .inl ⟨rfl, rfl⟩
  | classified s' es d hv hf hc =>
    obtain ⟨hsame, hrequired, hadopts⟩ := hf.adopts
    have hframe := hc.frame.required.trans hrequired
    rcases hc.adopts with heq | ⟨profile, hprofile, ha⟩
    · exact .inl ⟨heq.trans hsame, hframe⟩
    · obtain ⟨ha, htoken⟩ := hadopts profile ha
      exact .inr ⟨profile, hprofile, hv, htoken, .inr ⟨ha, hframe⟩⟩
  | _ => exact .inl ⟨rfl, rfl⟩

end Classification

section Steps

variable {s s' : State} {e : Event} {d : Decision}

/-- Outside samples no profile is recorded, and only a new boot forgets one and requires a
finalization. -/
theorem Step.records (h : Step s e d) :
    (d.state.desktopFinalizedProfile = s.desktopFinalizedProfile ∧
      d.state.desktopFinalizationRequired = s.desktopFinalizationRequired) ∨
    (∃ b, e = .bootChanged b ∧ d.state = rebooted s b) ∨
    ∃ f, e = .observationCompleted f ∧ f.metadata.bootId = s.bootId ∧
      ¬ staleObservation s f.observation ∧
      Observed (recordObservation s f.observation) s.latestObservation f.observation d := by
  cases h with
  | observed e hb hf ho => exact .inr (.inr ⟨e, rfl, hb, hf, ho⟩)
  | booted e hb => exact .inr (.inl ⟨e, rfl, rfl⟩)
  | hinted e s' es t hb hg ht hh =>
    cases hh with
    | withdrawn hl hw => exact .inl hw.records
    | reopened hq hf hp => exact .inl ⟨rfl, rfl⟩
    | kept hp => exact .inl ⟨rfl, rfl⟩
  | dirtied e r s' es t hb hr he hl hg ht hw =>
    rcases hw with hw | ⟨-, rfl, -⟩
    · exact .inl hw.records
    · exact .inl ⟨rfl, rfl⟩
  | closed e r l v es t hr hk he hl hv hes ht => cases r <;> exact .inl ⟨rfl, rfl⟩
  | failed e r r' phase es t hr hc hf he hp hes => cases hc <;> exact .inl ⟨rfl, rfl⟩
  | doubted e r v t hr hk hl he ht => cases r <;> exact .inl ⟨rfl, rfl⟩
  | restarted e a s' es t ha hl hw ht => exact .inl hw.records
  | _ => exact .inl ⟨rfl, rfl⟩

end Steps

/-- The event is a fresh valid sample which shows the profile in the current topology. -/
def Shows (s : State) (e : Event) (o : CanonicalObservation) (profile : Text) : Prop :=
  (∃ f, e = .observationCompleted f ∧ f.observation = o ∧ f.metadata.bootId = s.bootId) ∧
    ¬ staleObservation s o ∧ o.valid = true ∧ s.physicalToken = some o.physicalToken ∧
    o.exactProfile = some profile ∧ profile ∈ o.currentProfiles

/-- A profile is recorded as finalized, and a required finalization is discharged, only on a sample
which shows it: to conclude its finalization, or to adopt a baseline which is not required. -/
theorem finalized_with_proof {s : State} (hs : Reachable s) {e : Event} {d : Decision}
    (hd : reduce s e = .ok d) :
    (∀ profile, d.state.desktopFinalizedProfile = some profile →
      s.desktopFinalizedProfile ≠ some profile →
      ∃ o, Shows s e o profile ∧
        ((∃ a ∈ s.finalization, a.lifecycle = .resultPending ∧ a.profile = profile ∧
            a.observationKey = o.observationKey) ∨
          (s.baselineAdoption = true ∧ s.desktopFinalizationRequired = false ∧
            ∃ since ∈ s.verifySinceMs, since + profileStabilityMs ≤ o.observedAtMs))) ∧
    (s.desktopFinalizationRequired = true → d.state.desktopFinalizationRequired = false →
      ∃ o profile, Shows s e o profile ∧ d.state.desktopFinalizedProfile = some profile ∧
        ∃ a ∈ s.finalization, a.lifecycle = .resultPending ∧ a.profile = profile ∧
          a.observationKey = o.observationKey) := by
  obtain ⟨-, hstep, -⟩ := hs.sound.reduces hd
  rcases hstep.records with ⟨hsame, hrequired⟩ | ⟨b, -, hb⟩ | ⟨f, rfl, hboot, hfresh, ho⟩
  · refine ⟨fun profile hp hne => absurd (hsame.symm.trans hp) hne, fun ht hf => ?_⟩
    simp [hrequired, ht] at hf
  · rw [hb]
    exact ⟨fun profile hp => by simp [rebooted] at hp, fun _ hf => by simp [rebooted] at hf⟩
  · rcases ho.records with ⟨hsame, hrequired⟩ | ⟨profile, hprofile, hvalid, htoken, hproof⟩
    · refine ⟨fun profile hp hne => ?_, fun ht hf => ?_⟩
      · have hkept : (recordObservation s f.observation).desktopFinalizedProfile = some profile :=
          hsame.symm.trans hp
        dsimp only [recordObservation] at hkept
        split at hkept
        · cases hkept
        · exact absurd hkept hne
      · have ht' : (recordObservation s f.observation).desktopFinalizationRequired = true := ht
        simp [hrequired, ht'] at hf
    · have shows {p : Text} (hx : f.observation.exactProfile = some p)
          (hc : p ∈ f.observation.currentProfiles) :
          Shows s (.observationCompleted f) f.observation p :=
        ⟨⟨f, rfl, rfl, hboot⟩, hfresh, hvalid, htoken, hx, hc⟩
      refine ⟨fun p hp hne => ⟨f.observation, ?_⟩, fun ht hf => ?_⟩
      · obtain rfl := Option.some.inj (hprofile.symm.trans hp)
        rcases hproof with hc | ⟨ha, -⟩
        · exact ⟨shows hc.exact hc.current, .inl hc.pending⟩
        · refine ⟨shows ha.exact ha.current, .inr ⟨ha.baseline, ?_, ha.proven⟩⟩
          have hbaseline : s.baselineAdoption = true := ha.baseline
          by_contra hn
          simp [(s.requirement (by simpa using hn)).2] at hbaseline
      · rcases hproof with hc | ⟨ha, hrequired⟩
        · exact ⟨f.observation, profile, shows hc.exact hc.current, hprofile, hc.pending⟩
        · have ht' : (recordObservation s f.observation).desktopFinalizationRequired = true := ht
          simp [hrequired, ht'] at hf

namespace Scenario

def starting : State := (follow fresh [.observationCompleted (shown laptop laptop 1 0)]).get rfl

theorem starting_reachable : Reachable starting := fresh_reachable.follow (Option.some_get _).symm

def stillShown : Event := .observationCompleted (shown laptop laptop 2 4000)

end Scenario

open Scenario in
theorem finalized_with_proof_starting :
    ∃ o, Shows starting stillShown o laptop ∧
      ((∃ a ∈ starting.finalization, a.lifecycle = .resultPending ∧ a.profile = laptop ∧
          a.observationKey = o.observationKey) ∨
        (starting.baselineAdoption = true ∧ starting.desktopFinalizationRequired = false ∧
          ∃ since ∈ starting.verifySinceMs, since + profileStabilityMs ≤ o.observedAtMs)) :=
  (finalized_with_proof starting_reachable (reduce_decided starting stillShown rfl)).1 laptop
    (by decide +kernel) (by decide +kernel)

end MonitorController
