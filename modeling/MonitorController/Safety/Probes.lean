import MonitorController.Safety.Totality
import MonitorController.Transition.Frame

/-! # Probes are dispatched once

An attempt is remembered until the topology changes, and topologies are
numbered upwards. A pending probe is never one that was attempted.
-/

namespace MonitorController

/-- No attempt at a pending probe is remembered, and without a topology there is no probe. -/
structure Unattempted (s : State) : Prop where
  pending : ∀ a ∈ s.probe, a.lifecycle = .admitted → a.key ∉ s.attemptedProbeKeys
  located : s.physicalToken = none → s.probe = none

namespace Unattempted

variable {s s' : State}

theorem kept (h : Unattempted s) (hk : Kept s s')
    (hkeys : s'.attemptedProbeKeys = s.attemptedProbeKeys := by rfl)
    (htoken : s'.physicalToken = s.physicalToken := by rfl) : Unattempted s' where
  pending := by
    intro a ha hl
    obtain ⟨b, hb, hcarries⟩ := hk.probe.of_mem ha
    have hlb := hcarries.admitted hl
    cases hcarries with
    | probe b w hw hid hp =>
      rw [hkeys]
      exact h.pending b hb hlb
  located := by
    intro ht
    by_contra hne
    obtain ⟨a, ha⟩ := Option.ne_none_iff_exists'.mp hne
    obtain ⟨b, hb, -⟩ := hk.probe.of_mem ha
    simp [h.located (htoken.symm.trans ht)] at hb

end Unattempted

section Classification

variable {s s' : State} {o : CanonicalObservation} {d : Decision}

theorem Selects.probe (h : Selects s o d) :
    d.state.probe = s.probe ∨ ∃ a, d.state.probe = some a ∧ a.key ∉ s.attemptedProbeKeys := by
  cases h with
  | probes candidate hz hc action ha hk => exact .inr ⟨action, rfl, hk⟩
  | waits hw => cases hw; exact .inl rfl
  | waitsKnown hw => cases hw; exact .inl rfl
  | waitsSpent target ht hz hw => cases hw; exact .inl rfl
  | stable target ht hx hs => exact .inl (aside_rearm _ target.profile).probe
  | verifies target s' es s'' fs ht hx hv hp ha => exact .inl (aside_verification hv hp ha).probe
  | _ => exact .inl rfl

theorem Unattempted.classified (h : Unattempted s) (hc : Classifies s o d)
    (ht : s.physicalToken ≠ none) : Unattempted d.state := by
  have hframe := hc.frame
  rcases hc.chooses with hk | ⟨s₁, s₂, hs, hr, hk, hd⟩
  · exact h.kept hk hframe.attemptedProbeKeys hframe.physicalToken
  · have hretain := frame_retainFailure s₁ o
    rw [hr] at hretain
    have hbefore := hs.frame.trans hretain
    have h₂ := h.kept hk hbefore.attemptedProbeKeys hbefore.physicalToken
    refine ⟨fun a ha hl => ?_, fun hn => absurd (hframe.physicalToken.symm.trans hn) ht⟩
    rw [hd.frame.attemptedProbeKeys]
    rcases hd.probe with hp | ⟨b, hb, hkey⟩
    · exact h₂.pending a (hp ▸ ha) hl
    · obtain rfl := Option.mem_unique ha hb
      exact hkey

theorem Frees.attempts {prior : Option CanonicalObservation} {es : List Effect}
    (h : Frees s prior o s' es) :
    (s'.physicalEpoch = s.physicalEpoch ∧ s'.physicalToken = s.physicalToken ∧
      s'.attemptedProbeKeys = s.attemptedProbeKeys) ∨
    (s'.physicalEpoch = s.physicalEpoch + 1 ∧ s'.probe = none) := by
  cases h with
  | entered ht hr => exact .inr ⟨rfl, rfl⟩
  | idle ht hb =>
    have hs := stays_leaveSlowWait (o := o) s prior
    exact .inl ⟨hs.physicalEpoch, hs.physicalToken, hs.attemptedProbeKeys⟩
  | cancelled ht hc =>
    exact .inl ⟨hc.stays.physicalEpoch, hc.stays.physicalToken, hc.stays.attemptedProbeKeys⟩
  | concluded a b ht ha hl he hb hbl => exact .inl ⟨rfl, rfl, rfl⟩

end Classification

section Steps

variable {s : State} {e : Event} {d : Decision}

/-- A step within a topology forgets no attempt, and another topology has a higher number or is
not known yet. -/
theorem Step.attempts (h : Step s e d) :
    (d.state.physicalEpoch = s.physicalEpoch ∧ d.state.physicalToken = s.physicalToken ∧
      s.attemptedProbeKeys ⊆ d.state.attemptedProbeKeys) ∨
    s.physicalEpoch < d.state.physicalEpoch ∨
    d.state.physicalEpoch = s.physicalEpoch ∧ d.state.physicalToken = none := by
  rcases h.cases_on with ⟨-, hs | hp | ⟨b, -, -, hb⟩⟩ | ⟨f, -, -, -, -, ⟨s', es, d', hf, hc⟩⟩
  · exact .inl ⟨hs.physicalEpoch, hs.physicalToken, hs.attemptedProbeKeys.ge⟩
  · obtain ⟨f, a, b, -, -, -, -, hkeys, hepoch, htoken, -⟩ := hp
    exact .inl ⟨hepoch, htoken, hkeys ▸ Finset.subset_insert _ _⟩
  · rw [hb]
    exact .inr (.inr ⟨rfl, rfl⟩)
  · have hframe := hc.frame
    rcases hf.attempts with ⟨hepoch, htoken, hkeys⟩ | ⟨hepoch, -⟩
    · exact .inl ⟨hframe.physicalEpoch.trans hepoch, hframe.physicalToken.trans htoken,
        (hframe.attemptedProbeKeys.trans hkeys).ge⟩
    · refine .inr (.inl ?_)
      change s.physicalEpoch < d'.state.physicalEpoch
      rw [hframe.physicalEpoch, hepoch]
      exact Nat.lt_succ_self _

theorem Unattempted.step (h : Unattempted s) (hs : Step s e d) : Unattempted d.state := by
  rcases hs.cases_on with ⟨-, hs | hp | ⟨b, -, -, hb⟩⟩ | ⟨f, -, -, -, -, ⟨s', es, d', hf, hc⟩⟩
  · exact h.kept hs.toKept hs.attemptedProbeKeys hs.physicalToken
  · obtain ⟨f, a, b, ha, -, hb, hl, -, -, htoken, -⟩ := hp
    refine ⟨fun c hc hlc => ?_, fun hn => ?_⟩
    · obtain rfl := Option.mem_unique hb hc
      simp [hl] at hlc
    · simp [h.located (htoken.symm.trans hn)] at ha
  · rw [hb]
    exact ⟨by simp [rebooted], fun _ => rfl⟩
  · have hrecorded : Unattempted (recordObservation s f.observation) := h.kept {}
    have htoken : s'.physicalToken ≠ none := by simp [hf.token]
    have hfreed : Unattempted s' := by
      rcases hf.attempts with ⟨-, ht, hkeys⟩ | ⟨-, hnone⟩
      · exact hrecorded.kept hf.kept hkeys ht
      · exact ⟨by simp [hnone], fun _ => hnone⟩
    have hclassified : Unattempted d'.state := hfreed.classified hc htoken
    exact hclassified

end Steps

/-- The move starts the probe of a key. -/
def StartsProbe (m : Runs.Move State Event Decision) (key : ProbeAttemptKey) : Prop :=
  (∃ e, m.event = .probeDispatched e) ∧ m.after ≠ m.before ∧
    ∃ a ∈ m.before.probe, a.key = key

theorem pending_of_startsProbe {m : Runs.Move State Event Decision} {key : ProbeAttemptKey}
    (h : StartsProbe m key) (hs : Step m.before m.event m.output)
    (hafter : m.after = m.output.state) :
    ∃ a ∈ m.before.probe, a.lifecycle = .admitted ∧ a.key = key ∧
      key ∈ m.output.state.attemptedProbeKeys ∧
      m.output.state.physicalEpoch = m.before.physicalEpoch := by
  obtain ⟨⟨e, he⟩, hne, a, ha, hkey⟩ := h
  rw [hafter] at hne
  rw [he] at hs
  generalize hd : m.output = d at hs hne
  cases hs with
  | ignored e hi => exact absurd rfl hne
  | probeDispatched e b w hb hl hi hw =>
    obtain rfl := Option.mem_unique ha hb
    exact ⟨a, ha, hl, hkey, hkey ▸ Finset.mem_insert_self _ _, rfl⟩
  | stopRepeated e r t hr hl he' ht => cases he'
  | closed e r l v es t hr hk he' hl hv hes ht => cases he'.reports
  | failed e r r' phase es t hr hc hf he' hp hes => cases he'.fails
  | preparationReported e a b t ha he' hb hl ht => cases he'.reports
  | finalizationReported e a b t ha he' hb hl ht => cases he'.reports
  | doubted e r v t hr hk hl he' ht => cases he'

theorem Reachable.unattempted {s : State} (h : Reachable s) : Unattempted s := by
  refine Runs.Reachable.invariant ?_ ?_ h
  · rintro _ ⟨bootId, instanceId, display, session, rfl⟩
    exact ⟨by simp [State.initial], fun _ => rfl⟩
  · rintro s e d _ hs hu ⟨hr, rfl⟩
    exact hu.step ((Reachable.sound hs).reduces hr).2.1

/-- The attempt belongs to an earlier topology, or is remembered while the topology is known. -/
structure Remembered (key : ProbeAttemptKey) (s : State) : Prop where
  past : key.physicalEpoch ≤ s.physicalEpoch
  present : key.physicalEpoch = s.physicalEpoch →
    key ∈ s.attemptedProbeKeys ∨ s.physicalToken = none

theorem Remembered.step {key : ProbeAttemptKey} {s : State} (h : Remembered key s) {e : Event}
    {d : Decision} (hs : Step s e d) : Remembered key d.state := by
  rcases hs.attempts with ⟨hepoch, htoken, hkeys⟩ | hlt | ⟨hepoch, htoken⟩
  · refine ⟨hepoch ▸ h.past, fun heq => ?_⟩
    exact (h.present (heq.trans hepoch)).imp (hkeys ·) htoken.trans
  · exact ⟨h.past.trans hlt.le, fun heq => absurd (heq ▸ hlt) h.past.not_gt⟩
  · exact ⟨hepoch ▸ h.past, fun _ => .inr htoken⟩

/-- No two moves of a run start the probe of the same key. -/
theorem probe_at_most_once {newer between older : List (Runs.Move State Event Decision)}
    {m n : Runs.Move State Event Decision} {s : State}
    (h : Run (newer ++ n :: (between ++ m :: older)) s) {key : ProbeAttemptKey}
    (hm : StartsProbe m key) : ¬ StartsProbe n key := by
  intro hn
  obtain ⟨hrun, hnstep, hnafter⟩ := h.older
  obtain ⟨hbefore, hmstep, hafter⟩ := hrun.older
  have hsoundm := Reachable.sound hbefore.reachable
  obtain ⟨a, ha, hla, hkeya, hmem, hsame⟩ :=
    pending_of_startsProbe hm (hsoundm.reduces hmstep).2.1 hafter
  have hepoch := (hsoundm.pending.probe a ha hla).1
  rw [hkeya, ← hsame] at hepoch
  -- The first start is remembered until the second one.
  have hremembered : Remembered key n.before := by
    refine hrun.since (P := Remembered key) ?_ ?_
    · rw [hafter]
      exact ⟨hepoch.le, fun _ => .inl hmem⟩
    · rintro s e d _ hs hr ⟨hd, rfl⟩
      exact hr.step ((Reachable.sound hs).reduces hd).2.1
  have hsound := Reachable.sound hrun.reachable
  have hunattempted := Reachable.unattempted hrun.reachable
  obtain ⟨b, hb, hlb, hkeyb, -⟩ :=
    pending_of_startsProbe hn (hsound.reduces hnstep).2.1 hnafter
  have hcurrent := (hsound.pending.probe b hb hlb).1
  rw [hkeyb] at hcurrent
  rcases hremembered.present hcurrent with hkey | hnone
  · exact hunattempted.pending b hb hlb (hkeyb ▸ hkey)
  · simp [hunattempted.located hnone] at hb

namespace Scenario

/-- The monitor is recognised by its base block, and the panel is lit. -/
def recognised (token key : Text) (generation observedAtMs : Nat) : ObservationFields :=
  { plain token key generation observedAtMs with
    kernelConnectedOutputs := [monitor, panel]
    kernelExternalOutputs := [monitor]
    xConnectedOutputs := [monitor, panel]
    xActiveOutputs := [panel]
    xExternalOutputs := [monitor]
    connectorIdentities := [⟨monitor, monitor, 1, some 1⟩]
    baseIdentityProfiles := [⟨dock, monitor⟩]
    edidIntegrity := [⟨monitor, .complete, some "base", by simp, fun _ _ => ⟨_, rfl, by decide⟩⟩]
    probeCandidate := some ⟨dock, monitor, panel, dock, by decide⟩ }

def probeId : ActionId := ⟨controller, .probe, 1, Nat.one_pos⟩

def probeSampled : ObservationCompleted := sampled (recognised dock dock 1 0) (by decide) rfl

def probeStarted : Event := .probeDispatched ⟨metadata 0, probeId, ⟨probeId, dock⟩, rfl, rfl⟩

/-- The probe is admitted, launched, and reported as launched again. -/
def probeAdmitted : Decision := decided fresh (.observationCompleted probeSampled) rfl
def probeLaunched : Decision := decided probeAdmitted.state probeStarted rfl
def probeRelaunched : Decision := decided probeLaunched.state probeStarted rfl

theorem probing_run :
    Run ([] ++ ⟨probeLaunched.state, probeStarted, probeRelaunched, probeRelaunched.state⟩ ::
      ([] ++ ⟨probeAdmitted.state, probeStarted, probeLaunched, probeLaunched.state⟩ ::
        [⟨fresh, .observationCompleted probeSampled, probeAdmitted, probeAdmitted.state⟩]))
      probeRelaunched.state :=
  .move (.move (.move (.start ⟨_, _, _, _, rfl⟩) ⟨reduce_decided _ _ _, rfl⟩)
    ⟨reduce_decided _ _ _, rfl⟩) ⟨reduce_decided _ _ _, rfl⟩

end Scenario

open Scenario in
theorem probe_at_most_once_probing :
    ¬ StartsProbe ⟨probeLaunched.state, probeStarted, probeRelaunched, probeRelaunched.state⟩
      (probeAdmitted.state.probe.get rfl).key :=
  probe_at_most_once probing_run
    ⟨⟨_, rfl⟩, fun h => absurd (congrArg State.phase h) (by decide), _, (Option.some_get _).symm, rfl⟩

end MonitorController
