import MonitorController.Codec.Persistence
import MonitorController.Safety.Attempts
import MonitorController.Safety.Stale

/-! # Reachable states may be persisted

Every rule which the codec adds to the central invariants holds after every
run of the reducer.
-/

namespace MonitorController

/-- The identities of the retained actions and of the tombstones. -/
def State.remembered (s : State) : List ActionId :=
  s.actionIds ++ s.actionTombstones.map (·.actionId)

/-- A sequence number belongs to one identity. -/
def Numbered (s : State) : Prop :=
  ∀ a ∈ s.remembered, ∀ b ∈ s.remembered, a.sequence = b.sequence → a = b

theorem State.mem_tombstoneOf {s : State} {a : ActionId} {t : ActionTombstone}
    (h : t ∈ s.tombstoneOf a) : t ∈ s.actionTombstones ∧ t.actionId = a := by
  refine ⟨List.mem_reverse.mp (List.mem_of_find?_eq_some h), ?_⟩
  simpa using List.find?_some h

theorem State.Tidy.tombstoneOf {s : State} (h : s.Tidy) {t : ActionTombstone}
    (ht : t ∈ s.actionTombstones) : s.tombstoneOf t.actionId = some t := by
  cases hf : s.tombstoneOf t.actionId with
  | none =>
    have hnone := List.find?_eq_none.mp hf t (List.mem_reverse.mpr ht)
    simp at hnone
  | some u =>
    obtain ⟨hu, hid⟩ := State.mem_tombstoneOf hf
    have hnodup : (s.actionTombstones.map (·.actionId)).Nodup := h
    rw [List.inj_on_of_nodup_map hnodup hu ht hid]

section Numbers

variable {s s' : State} {e : Event} {d : Decision}

theorem State.mem_remembered_action {r : ActionRecord} (hr : r ∈ s.actions) :
    r.actionId ∈ s.remembered :=
  List.mem_append_left _ (List.mem_map.mpr ⟨r, hr, rfl⟩)

theorem State.mem_remembered_tombstone {t : ActionTombstone} (ht : t ∈ s.actionTombstones) :
    t.actionId ∈ s.remembered :=
  List.mem_append_right _ (List.mem_map.mpr ⟨t, ht, rfl⟩)

theorem Sound.remembered_le (h : Sound s) :
    ∀ a ∈ s.remembered, a.sequence ≤ s.actionSequenceHighWater := by
  intro a ha
  rcases List.mem_append.mp ha with ha | ha
  · obtain ⟨r, hr, rfl⟩ := List.mem_map.mp ha
    exact (h.identities.known hr).bounded
  · obtain ⟨t, ht, rfl⟩ := List.mem_map.mp ha
    exact h.identities.buried t ht

theorem Interred.remembered {ids : List ActionId} {tombstones : List ActionTombstone}
    (h : Interred s ids tombstones) : ∀ t ∈ tombstones, t.actionId ∈ s.remembered := by
  have hold : ∀ t ∈ s.actionTombstones, t.actionId ∈ s.remembered :=
    fun t ht => State.mem_remembered_tombstone ht
  cases h with
  | nothing ht hg => exact ht ▸ hold
  | one r l hr hlive hl ht hc hg =>
    rw [ht]
    exact State.forall_burial (Q := (· ∈ s.remembered)) hold l (State.mem_remembered_action hr)
  | beside a p x ha hp hlive hgone hx ht hxt hg =>
    have hplan := State.mem_remembered_action (State.mem_actions_planning hp)
    have hload := State.mem_remembered_action (State.mem_actions_application ha)
    rw [ht]
    refine State.forall_burial (Q := (· ∈ s.remembered)) ?_ _ hplan
    rcases hxt with ⟨-, heq⟩ | ⟨-, heq⟩ <;> rw [heq]
    · exact hold
    · exact State.forall_burial (Q := (· ∈ s.remembered)) hold _ hload

theorem Sound.tombstones_remembered (h : Sound s) (hs : Step s e d) :
    ∀ t ∈ d.state.actionTombstones, t.actionId ∈ s.remembered := by
  by_cases hboot : ∃ b, e = .bootChanged b
  · obtain ⟨b, rfl⟩ := hboot
    rcases hs.rebooted_or with heq | heq <;> rw [heq] <;>
      exact fun t ht => State.mem_remembered_tombstone ht
  · rcases h.interred_or_entered hs (not_exists.mp hboot) with
      ⟨hi, -⟩ | ⟨f, rfl, hx, -, -, d', hc, heq⟩
    · exact hi.remembered
    · have hrecorded := h.recorded (f.same_boot.trans hx.boot) hx.fresh
      rw [heq, (hrecorded.entered hx.valid _).tombstones_of_unplanned hc rfl]
      exact State.forall_epochBurial (Q := (· ∈ s.remembered))
        (fun t ht => State.mem_remembered_tombstone ht) fun r hr => State.mem_remembered_action hr

theorem Numbered.step (h : Numbered s) (hs : Sound s) (hstep : Step s e d) : Numbered d.state := by
  have hgrows := hstep.grows.actions
  have hle := hs.remembered_le
  have split {a : ActionId} (ha : a ∈ d.state.remembered) :
      a ∈ s.remembered ∨ a ∈ d.state.actionIds ∧ a ∉ s.actionIds := by
    rcases List.mem_append.mp ha with ha | ha
    · by_cases hold : a ∈ s.actionIds
      · exact .inl (List.mem_append_left _ hold)
      · exact .inr ⟨ha, hold⟩
    · obtain ⟨t, ht, rfl⟩ := List.mem_map.mp ha
      exact .inl (hs.tombstones_remembered hstep t ht)
  have above {a b : ActionId} (ha : a ∈ s.remembered)
      (hb : b ∈ d.state.actionIds ∧ b ∉ s.actionIds) : a.sequence ≠ b.sequence :=
    ((hle a ha).trans_lt (hgrows.fresh b hb.1 hb.2).1).ne
  intro a ha b hb heq
  rcases split ha with ha | ha <;> rcases split hb with hb | hb
  · exact h a ha b hb heq
  · exact absurd heq (above ha hb)
  · exact absurd heq.symm (above hb ha)
  · exact (hgrows.distinct a ha.1 ha.2 b hb.1 hb.2 heq.symm).symm

theorem Reachable.numbered (h : Reachable s) : Numbered s := by
  refine Runs.Reachable.invariant (P := Numbered) ?_ ?_ h
  · rintro _ ⟨bootId, instanceId, display, session, rfl⟩ a ha
    cases ha
  · intro s e d s' hr hs hmove
    have hreach : Reachable s := hr
    obtain ⟨hd, rfl⟩ := hmove
    exact hs.step hreach.sound (hreach.sound.reduces hd).2.1

end Numbers

/-- Every reachable state follows the codec's cross-field rules. -/
theorem Reachable.persistable {s : State} (h : Reachable s) : Persistable s := by
  have hs := h.sound
  have htidy : s.Tidy := hs.identities.tidy
  have huntried := h.untried
  have hunits : s.recoveryUnits = [] := hs.identities.recoveryUnits
  refine ⟨fun r hr hl => ?_, fun r hr t ht => ?_, ?_, fun hp => ?_, fun a ha b hb hseq => ?_,
    fun r hr w hw => ?_, h.unattempted.pending, huntried.pending, huntried.probeEpoch,
    huntried.epoch⟩
  · obtain ⟨t, ht, hid, hlt⟩ := (hs.identities.known hr).epitaph hl
    exact ⟨t, hid ▸ htidy.tombstoneOf ht, hlt⟩
  · obtain ⟨hmem, hid⟩ := State.mem_tombstoneOf ht
    obtain ⟨hl, heq⟩ := ((hs.identities.known hr).buried t.lifecycle).mp ⟨t, hmem, hid, rfl⟩
    exact ⟨hl, heq⟩
  · simp [hunits]
  · have hnone := hs.started.mp hp
    exact ⟨hs.actions_of_unobserved hnone, hs.control.recovering hp⟩
  · have hmem {a : ActionId} (ha : a ∈ s.identities) : a ∈ s.remembered := by
      simpa [State.identities, State.remembered, State.actionIds, hunits] using ha
    simp only [sameSequence, Bool.and_eq_true, decide_eq_true_eq] at hseq
    rw [h.numbered a (hmem ha) b (hmem hb) hseq.2.symm]
  · have hworker : WorkerAt s.eventGeneration w := by
      cases r with
      | probe a =>
        obtain rfl := Option.mem_some.mp hw
        exact (hs.attempts.probe a (State.probe_of_mem hr)).1
      | application a =>
        obtain rfl := Option.mem_some.mp hw
        exact (hs.attempts.application a (State.application_of_mem hr)).1
      | planning p => cases hw
      | preparation a =>
        obtain rfl := Option.mem_some.mp hw
        exact hs.attempts.preparation a (State.preparation_of_mem hr)
      | finalization a =>
        obtain rfl := Option.mem_some.mp hw
        exact hs.attempts.finalization a (State.finalization_of_mem hr)
    have hquiet := h.silent.worker hr hw
    constructor
    · intro hl
      exact ⟨hworker.unlaunched hl, w.admitted_undated hl, hquiet (.inl hl)⟩
    · intro hl
      obtain ⟨hunit, hdeadline⟩ := hworker.unit (by rw [hl]; rfl)
      exact ⟨hunit, hdeadline, hquiet (.inr hl)⟩

/-- The codec's relationship check never refuses a reachable state. -/
theorem reachable_validates {s : State} (h : Reachable s) :
    validatePersistenceRelationships s = .ok ⟨⟩ :=
  validatePersistenceRelationships_eq_ok.mpr h.persistable

theorem reachable_validates_undocking :
    validatePersistenceRelationships Scenario.undocking = .ok ⟨⟩ :=
  reachable_validates Scenario.undocking_reachable

end MonitorController
