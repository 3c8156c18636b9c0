import MonitorController.Safety.Topology
import MonitorController.Transition.Launches

/-! # Loads while the screens sleep

A selection loads nothing while the screens sleep. A load which was admitted
before they were blanked is confirmed and launched again all the same.
-/

namespace MonitorController

section Samples

variable {s : State} {prior : Option CanonicalObservation} {o : CanonicalObservation}
  {d : Decision}

/-- What becomes of a pending admission: it is confirmed, cancelled or left with its topology. -/
inductive Decided (s : State) (o : CanonicalObservation) : Decision → Prop
  | confirmed (s' eff) (ht : s.physicalToken = some o.physicalToken) (hc : Confirms s o s' eff) :
    Decided s o ⟨s'.timed o.observedAtMs, [eff]⟩
  | cancelled (s') {d' : Decision} (ht : s.physicalToken = some o.physicalToken)
    (hc : Cancels s o s') (hd : Classifies s' o d') : Decided s o ⟨d'.state, d'.effects⟩
  | entered {d' : Decision} (ht : s.physicalToken ≠ some o.physicalToken)
    (hd : Classifies (s.enterEpoch o o.observedAtMs) o d') :
    Decided s o ⟨d'.state, s.planDiscards ++ d'.effects⟩

/-- A valid sample decides a pending admission. -/
theorem Core.decided (h : Core s) (ho : Observed s prior o d) (hv : o.valid = true)
    {r : ActionRecord} (hr : r ∈ s.actions) (hk : r.kind ≠ .plan) (hl : r.lifecycle = .admitted) :
    Decided s o d := by
  -- No other display worker is live, so none is in flight.
  have flying {r' : ActionRecord} (hr' : r' ∈ s.actions) (hk' : r'.kind ≠ .plan)
      (hl' : r'.lifecycle.mutatingInFlight = true) : False := by
    obtain rfl := h.live_unique hr hk (by rw [hl]; rfl) hr' hk'
      (ActionLifecycle.live_of_inFlight hl')
    simp [hl, ActionLifecycle.mutatingInFlight] at hl'
  have probe {a : ProbeAction} (ha : s.probe = some a) : a.lifecycle ≠ .dispatched := fun hla =>
    flying (State.mem_actions_probe ha) (by simp [ActionRecord.kind])
      (congrArg ActionLifecycle.mutatingInFlight hla)
  have application {a : ApplicationAction} (ha : s.application = some a) :
      a.lifecycle ≠ .dispatched := fun hla =>
    flying (State.mem_actions_application ha) (by simp [ActionRecord.kind])
      (congrArg ActionLifecycle.mutatingInFlight hla)
  have preparation {a : PreparationAction} (ha : s.preparation = some a) :
      ¬ (a.lifecycle = .dispatched ∨ a.lifecycle = .resultPending) := fun hla =>
    flying (State.mem_actions_preparation ha) (by simp [ActionRecord.kind])
      (by rcases hla with hla | hla <;> exact congrArg ActionLifecycle.mutatingInFlight hla)
  have finalization {a : FinalizationAction} (ha : s.finalization = some a) :
      ¬ (a.lifecycle = .dispatched ∨ a.lifecycle = .resultPending) := fun hla =>
    flying (State.mem_actions_finalization ha) (by simp [ActionRecord.kind])
      (by rcases hla with hla | hla <;> exact congrArg ActionLifecycle.mutatingInFlight hla)
  cases ho with
  | revoked r s' es t hinv hl hr ht => simp [hv] at hinv
  | invalid phase t hinv hn hp ht => simp [hv] at hinv
  | invalidInternal a t hinv ha hi ht => simp [hv] at hinv
  | internal a t _ ha hi ht => exact absurd (by simpa using hi.2.2) (application ha)
  | stopping w t _ hw hlw ht =>
    obtain ⟨v, hv, -, hvl⟩ := State.mutator_of_mem hr hk
    rcases h.live_alone hw (by rw [hlw]; rfl) hv with rfl | ht
    · simp [hvl, hl] at hlw
    · simp [hvl, hl, ActionLifecycle.terminal] at ht
  | stopped r' s' t _ hs hi hc ht =>
    cases hs with
    | probe a ha hla => exact absurd hla (probe ha)
    | application a ha hla => exact absurd hla (application ha)
    | preparation a ha hla => exact absurd hla (preparation ha)
    | finalization a ha hla => exact absurd (.inl hla) (finalization ha)
  | refused s' t _ hs ht hc =>
    cases hs with
    | finalization a b v ha hla hb hbl hv => exact absurd (.inr hla) (finalization ha)
    | preparation a b ha hla hb hbl => exact absurd (.inr hla) (preparation ha)
  | running t _ ht hrun hd =>
    rcases hrun with ⟨a, ha, hla⟩ | ⟨a, ha, hla, -⟩ | ⟨a, ha, hla, -⟩
    · exact absurd hla (probe ha)
    · exact absurd hla (application ha)
    · exact absurd (.inl hla) (finalization ha)
  | completed a _ ha hla he => exact absurd (.inr hla) (finalization ha)
  | uncertain a t _ ht ha hla he hd => exact absurd hla (preparation ha)
  | preparing a t _ ht ha hla he hd => exact absurd (.inl hla) (preparation ha)
  | confirmed s' eff _ ht hc => exact .confirmed s' eff ht hc
  | classified s' es d _ hf hc =>
    cases hf with
    | entered ht hn => exact .entered ht hc
    | idle ht hb =>
      obtain ⟨w, hw, -, hwl⟩ := State.mutator_of_mem hr hk
      exact absurd ⟨w, hw, by rw [hwl, hl]; rfl⟩ hb
    | cancelled ht hcancel => exact .cancelled s' ht hcancel hc
    | concluded a b ht ha hla he hb hbl => exact absurd (.inr hla) (preparation ha)

/-- A pending load which the sample confirms is launched again. -/
theorem Core.reloads (h : Core s) (ho : Observed s prior o d) (hv : o.valid = true)
    (hr : Reloads s o) : ∃ f ∈ d.effects, f.loads = true := by
  obtain ⟨htoken, hpending⟩ := hr
  obtain ⟨r, hr, hk, hl, hconfirms⟩ : ∃ r ∈ s.actions, r.kind ≠ .plan ∧ r.lifecycle = .admitted ∧
      ((∃ a, r = .probe a ∧ confirmsProbe s o a) ∨
        ∃ a, r = .application a ∧ confirmsApplication s o a) := by
    rcases hpending with ⟨a, ha, hl, hc⟩ | ⟨a, ha, hl, hc⟩
    · exact ⟨_, State.mem_actions_probe ha, by simp [ActionRecord.kind], hl, .inl ⟨a, rfl, hc⟩⟩
    · exact ⟨_, State.mem_actions_application ha, by simp [ActionRecord.kind], hl,
        .inr ⟨a, rfl, hc⟩⟩
  have unique {r' : ActionRecord} (hr' : r' ∈ s.actions) (hk' : r'.kind ≠ .plan)
      (hl' : r'.lifecycle = .admitted) : r' = r :=
    h.live_unique hr hk (by rw [hl]; rfl) hr' hk' (by rw [hl']; rfl)
  have desktop {r' : ActionRecord} (hr' : r' ∈ s.actions) (hl' : r'.lifecycle = .admitted)
      (hk' : r'.kind = .preparation ∨ r'.kind = .finalization) : False := by
    obtain rfl := unique hr' (by rcases hk' with hk' | hk' <;> rw [hk'] <;> decide) hl'
    rcases hconfirms with ⟨a, rfl, -⟩ | ⟨a, rfl, -⟩ <;> simp [ActionRecord.kind] at hk'
  cases h.decided ho hv hr hk hl with
  | entered ht hd => exact absurd htoken ht
  | confirmed s' eff ht hc =>
    cases hc with
    | probe b hb hlb hc => exact ⟨_, List.mem_singleton_self _, rfl⟩
    | application b hb hlb hc => exact ⟨_, List.mem_singleton_self _, rfl⟩
    | preparation b hb hlb hc =>
      exact (desktop (State.mem_actions_preparation hb) hlb (.inl rfl)).elim
    | finalization b hb hlb hc =>
      exact (desktop (State.mem_actions_finalization hb) hlb (.inr rfl)).elim
  | cancelled s' ht hc hd =>
    cases hc with
    | probe b hb hlb hc =>
      obtain rfl := unique (State.mem_actions_probe hb) (by simp [ActionRecord.kind]) hlb
      rcases hconfirms with ⟨a, ⟨⟩, hconfirms⟩ | ⟨a, ⟨⟩, -⟩
      exact absurd hconfirms hc
    | application b hb hlb hc =>
      obtain rfl := unique (State.mem_actions_application hb) (by simp [ActionRecord.kind]) hlb
      rcases hconfirms with ⟨a, ⟨⟩, -⟩ | ⟨a, ⟨⟩, hconfirms⟩
      exact absurd hconfirms hc
    | preparation b hb hlb hc =>
      exact (desktop (State.mem_actions_preparation hb) hlb (.inl rfl)).elim
    | finalization b hb hlb hc =>
      exact (desktop (State.mem_actions_finalization hb) hlb (.inr rfl)).elim

end Samples

/-- While the screens sleep nothing is loaded, unless the sample confirms a pending load. -/
theorem asleep_loads_iff {s : State} (hs : Reachable s) {e : ObservationCompleted}
    (hz : e.observation.displayPower = .asleep) {d : Decision}
    (hd : reduce s (.observationCompleted e) = .ok d) :
    (∀ f ∈ d.effects, f.loads = false) ↔
      ¬ (e.metadata.bootId = s.bootId ∧ ¬ staleObservation s e.observation ∧
        e.observation.valid = true ∧ Reloads s e.observation) := by
  obtain ⟨-, hstep, -⟩ := hs.sound.reduces hd
  constructor
  · rintro hquiet ⟨hb, hfresh, hvalid, hreloads⟩
    obtain ⟨ho, hcore, -⟩ := hs.sound.observed_of_fresh ⟨hb, hfresh, hvalid⟩ hd
    obtain ⟨f, hf, hload⟩ := hcore.reloads ho hvalid hreloads
    simp [hquiet f hf] at hload
  · intro hn f hf
    by_contra hload
    have hload : f.loads = true := by simpa using hload
    obtain ⟨c, heq, hb, hfresh, ho⟩ := hstep.launches hf (Effect.launches_of_loads hload)
    obtain rfl : e = c := Event.observationCompleted.inj heq
    obtain ⟨hvalid, -, hpower⟩ := ho.launches hf (Effect.launches_of_loads hload)
    rcases hpower hload with hawake | hreloads
    · exact hawake hz
    · exact hn ⟨hb, hfresh, hvalid, hreloads⟩

namespace Scenario

def loadPending : State := (follow fresh [.observationCompleted darkSampled]).get rfl

theorem loadPending_reachable : Reachable loadPending :=
  fresh_reachable.follow (Option.some_get _).symm

def blanked : ObservationCompleted :=
  sampled { dark laptop laptop 2 1000 with displayPower := .asleep } (by decide) rfl

end Scenario

open Scenario in
theorem asleep_loads_iff_blanked :
    (∀ f ∈ (decided loadPending (.observationCompleted blanked) rfl).effects, f.loads = false) ↔
      ¬ (blanked.metadata.bootId = loadPending.bootId ∧
        ¬ staleObservation loadPending blanked.observation ∧
        blanked.observation.valid = true ∧ Reloads loadPending blanked.observation) :=
  asleep_loads_iff loadPending_reachable rfl (reduce_decided loadPending _ _)

open Scenario in
/-- The pending load is launched although the screens sleep. -/
theorem asleep_loads : ¬ ∀ s, Reachable s → ∀ e : ObservationCompleted,
    e.observation.displayPower = .asleep → ∀ d, reduce s (.observationCompleted e) = .ok d →
    ∀ f ∈ d.effects, f.loads = false := by
  intro h
  have hquiet := h loadPending loadPending_reachable blanked rfl
    (decided loadPending (.observationCompleted blanked) rfl) (reduce_decided _ _ _)
  exact absurd hquiet (by decide +kernel)

end MonitorController
