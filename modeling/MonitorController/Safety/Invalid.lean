import MonitorController.Safety.Loads

/-! # Invalid samples

An invalid sample launches nothing and keeps the topology, the attempts and the
marks. Every pending display admission is withdrawn with its tombstone, and what
runs stays in its slot.
-/

namespace MonitorController

/-- The most an invalid sample changes. -/
structure OnlyRevokes (s : State) (d : Decision) : Prop where
  quiet : ∀ f ∈ d.effects, f.launches = false
  physicalEpoch : d.state.physicalEpoch = s.physicalEpoch
  physicalToken : d.state.physicalToken = s.physicalToken
  attemptedProbeKeys : d.state.attemptedProbeKeys = s.attemptedProbeKeys
  attemptedApplicationKeys : d.state.attemptedApplicationKeys = s.attemptedApplicationKeys
  actionMark : d.state.actionSequenceHighWater = s.actionSequenceHighWater
  transitionMark : d.state.transitionSequenceHighWater = s.transitionSequenceHighWater
  verifySinceMs : d.state.verifySinceMs = none
  unplugProof : d.state.unplugProof = none
  externalIntent : s.externalIntent = true → d.state.externalIntent = true
  dispatched : ∀ r ∈ s.actions, r.lifecycle = .dispatched →
    ∃ r', d.state.slot r.kind = some r' ∧ r'.actionId = r.actionId
  withdrawn : ∀ r ∈ d.state.actions, r.kind ≠ .plan → r.lifecycle ≠ .admitted
  cancelled : ∀ r ∈ s.actions, r.kind ≠ .plan → r.lifecycle = .admitted →
    d.state.Buried r.actionId .cancelled

section Samples

variable {s s' : State} {r : ActionRecord} {es : List Effect}

theorem State.buried_retire (hr : r ∈ s.actions) {l : ActionLifecycle} (hl : l.terminal = true) :
    (s.retire r l).Buried r.actionId l := by
  have hb := State.buried_bury hl (State.retains_iff.mpr ⟨r, hr, rfl⟩)
  cases r <;> exact hb

theorem Core.plan_ended (h : Core s) {a : PreparationAction} (ha : s.preparation = some a) :
    ∀ p ∈ s.planning, p.lifecycle.terminal = true := by
  intro p hp
  have hready := h.control.ready fun hidle => by
    have hfit := h.control.preparation_fits
    rw [hidle, ha] at hfit
    cases hfit
  have hfit := h.control.planning_fits
  rw [hready, Option.mem_def.mp hp] at hfit
  obtain ⟨l, ⟨⟩, hmem⟩ := hfit
  have hcompleted : p.lifecycle = .completed := List.mem_singleton.mp hmem
  rw [hcompleted]
  rfl

theorem Core.revoked (h : Core s) (hr : Revokes s r s' es) :
    s'.slot r.kind = none ∧ s'.Buried r.actionId .cancelled := by
  have hburied : (s.retire r .cancelled).Buried r.actionId .cancelled :=
    State.buried_retire hr.mem.1 rfl
  cases hr with
  | probe a ha => exact ⟨rfl, hburied⟩
  | application a ha => exact ⟨rfl, hburied⟩
  | desktop hw =>
    cases hw with
    | finalization a ha => exact ⟨rfl, hburied⟩
    | preparation a ha =>
      -- The dropped plan is complete already, so that it leaves the tombstones alone.
      have hsame := State.planTombstones_of_ended (s := s.retire (.preparation a) .cancelled)
        (h.plan_ended ha)
      refine ⟨rfl, ?_⟩
      obtain ⟨t, ht, hid, hl⟩ := hburied
      rw [← hsame] at ht
      exact ⟨t, ht, hid, hl⟩

theorem Core.revoked_planning (h : Core s) (hr : Revokes s r s' es) :
    ∀ p ∈ s.planning, p.lifecycle.terminal = false → s'.planning = some p := by
  intro p hp hl
  cases hr with
  | probe a ha => exact hp
  | application a ha => exact hp
  | desktop hw =>
    cases hw with
    | finalization a ha => exact hp
    | preparation a ha =>
      rw [h.plan_ended ha p hp] at hl
      cases hl

theorem Revokes.verifySinceMs (h : Revokes s r s' es) : s'.verifySinceMs = s.verifySinceMs := by
  cases h with
  | probe a ha => rfl
  | application a ha => rfl
  | desktop hw => cases hw <;> rfl

theorem Revokes.unplugProof (h : Revokes s r s' es) : s'.unplugProof = s.unplugProof := by
  cases h with
  | probe a ha => rfl
  | application a ha => rfl
  | desktop hw => cases hw <;> rfl

theorem Revokes.applicationKeys (h : Revokes s r s' es) :
    s'.attemptedApplicationKeys = s.attemptedApplicationKeys := by
  cases h with
  | probe a ha => rfl
  | application a ha => rfl
  | desktop hw => cases hw <;> rfl

end Samples

section Invalid

variable {s : State} (h : Core s) {prior : Option CanonicalObservation}
  {o : CanonicalObservation} {d : Decision} (ho : Observed s prior o d) (hv : o.valid = false)
include h ho hv

omit h in
theorem Observed.invalid_proofs : d.state.verifySinceMs = none ∧ d.state.unplugProof = none ∧
    d.state.attemptedApplicationKeys = s.attemptedApplicationKeys := by
  cases ho with
  | revoked r s' es t hinvalid hl hr ht =>
    exact ⟨hr.verifySinceMs, hr.unplugProof, hr.applicationKeys⟩
  | invalid phase t hinvalid hn hp ht => exact ⟨rfl, rfl, rfl⟩
  | invalidInternal a t hinvalid ha hi ht => exact ⟨rfl, rfl, rfl⟩
  | _ => simp [hv] at *

theorem Core.invalid_cancelled {r : ActionRecord} (hr : r ∈ s.actions) (hk : r.kind ≠ .plan)
    (hl : r.lifecycle = .admitted) :
    d.state.slot r.kind = none ∧ d.state.Buried r.actionId .cancelled := by
  have hlive : r.lifecycle.terminal = false := by rw [hl]; rfl
  cases ho with
  | revoked r' s' es t hinvalid hl' hr' ht =>
    have hcore : Core (MonitorController.revokeProofs s o) := h.revokeProofs o
    obtain ⟨hmem, hk'⟩ := hr'.mem
    obtain rfl := h.live_unique hr hk hlive hmem hk' (by rw [hl']; rfl)
    have hrevoked := hcore.revoked hr'
    exact hrevoked
  | invalid phase t hinvalid hn hp ht =>
    obtain ⟨w, hw, -, hwl⟩ := State.mutator_of_mem hr hk
    exact absurd (hwl.trans hl) (hn w hw)
  | invalidInternal a t hinvalid ha hi ht =>
    have hla : a.lifecycle = .dispatched ∨ a.lifecycle = .stopping := by simpa using hi.2.2
    have hap : (ActionRecord.application a).kind ≠ .plan := by simp [ActionRecord.kind]
    exact (h.not_admitted (State.mem_actions_application ha) hap hla hr hk hl).elim
  | _ => simp [hv] at *

theorem Core.invalid_dispatched {r : ActionRecord} (hr : r ∈ s.actions)
    (hl : r.lifecycle = .dispatched) :
    ∃ r', d.state.slot r.kind = some r' ∧ r'.actionId = r.actionId := by
  by_cases hk : r.kind = .plan
  · cases r with
    | planning p =>
      have hp : s.planning = some p := State.planning_of_mem hr
      have hlive : p.lifecycle.terminal = false := congrArg ActionLifecycle.terminal hl
      have hkept : d.state.planning = some p := by
        cases ho with
        | revoked r' s' es t hinvalid hl' hr' ht =>
          have hcore : Core (MonitorController.revokeProofs s o) := h.revokeProofs o
          exact hcore.revoked_planning hr' p hp hlive
        | invalid phase t hinvalid hn hphase ht => exact hp
        | invalidInternal a t hinvalid ha hi ht => exact hp
        | _ => simp [hv] at *
      exact ⟨.planning p, congrArg (Option.map ActionRecord.planning) hkept, rfl⟩
    | _ => cases hk
  · obtain ⟨r', hslot, hid, -, -⟩ := h.observed_holds hr hk (.inl hl) ho
    exact ⟨r', hslot, hid⟩

theorem Core.invalid_withdrawn {r : ActionRecord} (hr : r ∈ d.state.actions)
    (hk : r.kind ≠ .plan) : r.lifecycle ≠ .admitted := by
  intro hl
  have hkept : Kept s d.state := by
    rcases ho.stays_or_classified with hstays | ⟨hvalid, -⟩
    · exact hstays.toKept
    · rw [hv] at hvalid
      cases hvalid
  obtain ⟨r₀, hr₀, hcarries⟩ := hkept.mem hr
  have hk₀ : r₀.kind ≠ .plan := hcarries.kind ▸ hk
  obtain ⟨hslot, -⟩ := h.invalid_cancelled ho hv hr₀ hk₀ (hcarries.admitted hl)
  rw [← hcarries.kind, State.slot_of_mem_actions hr] at hslot
  cases hslot

theorem Core.only_revokes : OnlyRevokes s d := by
  have hquiet : ∀ f ∈ d.effects, f.launches = false := by
    intro f hf
    by_contra hlaunches
    obtain ⟨hvalid, -⟩ := ho.launches hf (by simpa using hlaunches)
    rw [hv] at hvalid
    cases hvalid
  obtain ⟨hverify, hunplug, hkeys⟩ := ho.invalid_proofs hv
  rcases ho.stays_or_classified with hstays | ⟨hvalid, -⟩
  · exact
      { quiet := hquiet
        physicalEpoch := hstays.physicalEpoch
        physicalToken := hstays.physicalToken
        attemptedProbeKeys := hstays.attemptedProbeKeys
        attemptedApplicationKeys := hkeys
        actionMark := hstays.actionMark
        transitionMark := hstays.transitionMark
        verifySinceMs := hverify
        unplugProof := hunplug
        externalIntent := hstays.externalIntent
        dispatched := fun r hr hl => h.invalid_dispatched ho hv hr hl
        withdrawn := fun r hr hk => h.invalid_withdrawn ho hv hr hk
        cancelled := fun r hr hk hl => (h.invalid_cancelled ho hv hr hk hl).2 }
  · rw [hv] at hvalid
    cases hvalid

end Invalid

/-- A fresh invalid sample only revokes. -/
theorem invalid_only_revokes {s : State} (hs : Reachable s) {e : ObservationCompleted}
    (hboot : e.metadata.bootId = s.bootId) (hfresh : ¬ staleObservation s e.observation)
    (hv : e.observation.valid = false) {d : Decision}
    (hd : reduce s (.observationCompleted e) = .ok d) : OnlyRevokes s d := by
  obtain ⟨-, hstep, -, -⟩ := hs.sound.reduces hd
  have hcore : Core (recordObservation s e.observation) :=
    (hs.sound.recorded (e.same_boot.trans hboot) hfresh).toCore
  have honly := hcore.only_revokes (observed_of_step hstep hboot hfresh) hv
  exact { honly with }

theorem invalid_only_revokes_plugged :
    OnlyRevokes Scenario.loadPending
      (decided Scenario.loadPending (.observationCompleted Scenario.monitorPlugged) rfl) :=
  invalid_only_revokes Scenario.loadPending_reachable rfl (by decide) rfl (reduce_decided _ _ rfl)

end MonitorController
