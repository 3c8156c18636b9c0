import Mathlib.Data.List.MinMax
import MonitorController.Recovery.Authority
import MonitorController.Recovery.Folding

/-! # The exits of recovery

Every exit of recovery checks the state which it returns. The fail-closed exits
always pass. The exit with authority passes unless a retained worker which has
not ended has terminal evidence that no reason speaks about.
-/

namespace MonitorController

open Outcome

section Bounds

variable {isProtected : ActionId → Bool} {l bounded : List ActionTombstone}

theorem boundActionTombstones_unprotected :
    Returns (boundActionTombstones (fun _ => false) l) fun bounded => bounded.Sublist l := by
  have hspent : (retainTombstones (fun _ => false) (l.length - actionTombstoneRetentionLimit) l).1 =
      0 := by
    rw [retainTombstones_fst]
    simp
  exact ⟨_, if_pos hspent, retainTombstones_sublist _ _⟩

theorem uncontradicted_sublist (snapshot : WorkerNamespaceSnapshot) :
    (uncontradicted snapshot l).Sublist l :=
  List.filter_sublist

theorem notMem_scanned_of_uncontradicted {snapshot : WorkerNamespaceSnapshot} {t : ActionTombstone}
    (ht : t ∈ uncontradicted snapshot l) : t.actionId ∉ snapshot.scannedIds := by
  simpa using (List.mem_filter.mp ht).2

end Bounds

section Marks

variable {persisted : Option State} {snapshot : WorkerNamespaceSnapshot}
  {tombstones : List ActionTombstone} {units : List WorkerUnit}

theorem unit_le_actionHighWater {u : WorkerUnit} (hu : u ∈ units) :
    u.actionId.sequence ≤ actionHighWater persisted snapshot tombstones units := by
  refine List.le_max_of_le' 0 (List.mem_cons_of_mem _ (List.mem_append_right _ ?_)) le_rfl
  refine List.mem_map.mpr ⟨u.actionId, ?_, rfl⟩
  simp only [List.mem_append, List.mem_map]
  exact .inl (.inl (.inl ⟨u, hu, rfl⟩))

theorem tombstone_le_actionHighWater {t : ActionTombstone} (ht : t ∈ tombstones) :
    t.actionId.sequence ≤ actionHighWater persisted snapshot tombstones units := by
  refine List.le_max_of_le' 0 (List.mem_cons_of_mem _ (List.mem_append_right _ ?_)) le_rfl
  refine List.mem_map.mpr ⟨t.actionId, ?_, rfl⟩
  simp only [List.mem_append, List.mem_map]
  exact .inl (.inr ⟨t, ht, rfl⟩)

theorem action_le_actionHighWater {s : State} {r : ActionRecord} (hr : r ∈ s.actions) :
    r.actionId.sequence ≤ actionHighWater (some s) snapshot tombstones units := by
  refine List.le_max_of_le' 0 (List.mem_cons_of_mem _ (List.mem_append_right _ ?_)) le_rfl
  refine List.mem_map.mpr ⟨r.actionId, List.mem_append_right _ ?_, rfl⟩
  exact List.mem_append_left _ (List.mem_append_left _ (List.mem_map.mpr ⟨r, hr, rfl⟩))

theorem le_transitionHighWater {s : State} {t : TransitionId} (ht : t ∈ s.transitions) :
    t.sequence ≤ transitionHighWater (some s) snapshot :=
  List.le_max_of_le' 0
    (List.mem_cons_of_mem _ (List.mem_cons_of_mem _ (List.mem_map.mpr ⟨t, ht, rfl⟩))) le_rfl

end Marks

/-- The identities of a state without actions are in order. -/
structure Archived (s : State) : Prop where
  tidy : s.Tidy
  buried : ∀ t ∈ s.actionTombstones, Below s t.actionId
  units_nodup : (s.recoveryUnits.map (·.actionId)).Nodup
  units_bounded : ∀ u ∈ s.recoveryUnits, Below s u.actionId
  units_unburied : ∀ u ∈ s.recoveryUnits, ∀ t ∈ s.actionTombstones, t.actionId ≠ u.actionId

section Recovering

variable {s : State}

theorem State.slots_of_actions (h : s.actions = []) :
    s.probe = none ∧ s.application = none ∧ s.planning = none ∧ s.preparation = none ∧
      s.finalization = none := by
  simpa [State.actions, and_assoc] using h

theorem checkActionIdentities_recovering (hp : s.phase = .recovering) (hactions : s.actions = []) :
    checkActionIdentities s = .ok () ↔ Archived s := by
  obtain ⟨-, -, hplanning, hpreparation, hfinalization⟩ := s.slots_of_actions hactions
  have htransitions : s.transitions = [] := by
    simp [State.transitions, hplanning, hpreparation, hfinalization]
  simp only [checkActionIdentities, hp, hactions, htransitions, seq_eq_ok, forM_eq_ok, require_eq_ok,
    List.forall_mem_map, checkActionId]
  constructor
  · rintro ⟨-, -, htidy, hburied, -, hnodup, hunits, hunburied, -⟩
    exact ⟨htidy, hburied, hnodup, hunits,
      fun u hu t ht hid => hunburied u hu (List.mem_map.mpr ⟨t, ht, hid⟩)⟩
  · intro h
    refine ⟨by simp, by simp, h.tidy, h.buried, by simp, h.units_nodup, h.units_bounded, ?_, ?_⟩
    · intro u hu hmem
      obtain ⟨t, ht, hid⟩ := List.mem_map.mp hmem
      exact h.units_unburied u hu t ht hid
    · rfl

/-- A recovering state without actions and evidence passes the central checks when its identities
are in order. -/
theorem recovering_checked (hp : s.phase = .recovering) (hactions : s.actions = [])
    (hobserved : s.latestObservation = none) (hproof : s.unplugProof = none) (h : Archived s) :
    assertControllerInvariants s = .ok () := by
  have hids := (checkActionIdentities_recovering hp hactions).mpr h
  obtain ⟨hprobe, happlication, -, hpreparation, hfinalization⟩ := s.slots_of_actions hactions
  have hmutators : s.mutators = [] := by
    simp [State.mutators, hprobe, happlication, hpreparation, hfinalization]
  simp [assertControllerInvariants, seq_eq_ok, checkPhaseRelationships, checkPlanningRelationships,
    hp, hids, checkWorkerAcknowledgements, hmutators, checkObservationAuthority, hobserved,
    checkActionAuthorization, hprobe, happlication, hpreparation, hfinalization,
    checkNumberedSafetyRules, hproof, checkAttemptHistory]

end Recovering

section Denials

variable {persisted : Option State} {boot : BootId} {controller : ControllerInstanceId}
  {display : DisplayIdentity} {snapshot : WorkerNamespaceSnapshot}
  {tombstones : List ActionTombstone} {units : List WorkerUnit}

theorem mem_of_uniqueUnits {u : WorkerUnit} (hu : u ∈ uniqueUnits units) : u ∈ units :=
  List.mem_of_find?_eq_some (mem_uniqueUnits.mp hu)

theorem minimumRecoveryState_checked (hnodup : (tombstones.map (·.actionId)).Nodup)
    (hunburied : ∀ u ∈ units, ∀ t ∈ tombstones, t.actionId ≠ u.actionId) :
    assertControllerInvariants
      (minimumRecoveryState boot controller display snapshot tombstones persisted units) =
        .ok () := by
  refine recovering_checked rfl rfl rfl rfl ?_
  constructor
  case tidy => exact hnodup
  case buried => exact fun t ht _ => tombstone_le_actionHighWater ht
  case units_nodup => exact nodup_uniqueUnits units
  case units_bounded => exact fun u hu _ => unit_le_actionHighWater hu
  case units_unburied => exact fun u hu => hunburied u (mem_of_uniqueUnits hu)

theorem bootMismatchState_checked {s : State} (hnodup : (tombstones.map (·.actionId)).Nodup)
    (hunburied : ∀ u ∈ snapshot.units, ∀ t ∈ tombstones, t.actionId ≠ u.actionId) :
    assertControllerInvariants (bootMismatchState s boot controller snapshot tombstones) =
      .ok () := by
  refine recovering_checked rfl rfl rfl rfl ?_
  constructor
  case tidy => exact hnodup
  case buried => exact fun t ht _ => tombstone_le_actionHighWater ht
  case units_nodup => exact nodup_uniqueUnits snapshot.units
  case units_bounded => exact fun u hu _ => unit_le_actionHighWater (mem_of_uniqueUnits hu)
  case units_unburied => exact fun u hu => hunburied u (mem_of_uniqueUnits hu)

theorem denyAuthority_returns {s : State} {reasons : List String} {hs : s.phase = .recovering}
    (h : assertControllerInvariants s = .ok ()) :
    Returns (denyAuthority s reasons hs) fun result =>
      result.state = s ∧ result.authorityAllowed = false := by
  refine ⟨⟨s, false, true, reasons, fun _ => hs⟩, ?_, rfl, rfl⟩
  unfold denyAuthority
  rw [h]
  rfl

theorem uncontradicted_merge {persistedTombstones evidence : List ActionTombstone}
    (h : tombstones.Sublist
      (uncontradicted snapshot (mergeTombstones persistedTombstones evidence).1)) :
    (tombstones.map (·.actionId)).Nodup ∧
      ∀ u ∈ snapshot.units, ∀ t ∈ tombstones, t.actionId ≠ u.actionId := by
  constructor
  · refine (h.map _).nodup ?_
    exact ((uncontradicted_sublist snapshot).map _).nodup (nodup_mergeTombstones _ _)
  · intro u hu t ht hid
    refine notMem_scanned_of_uncontradicted (h.subset ht) ?_
    exact List.mem_map.mpr ⟨u, hu, hid.symm⟩

end Denials

/-- A retained action which has not ended has terminal evidence. -/
def Unended (snapshot : WorkerNamespaceSnapshot) (c : Reconciliation) : Prop :=
  ∃ r ∈ c.state.actions, r.lifecycle.terminal = false ∧
    ∃ t ∈ (sameBootTombstones snapshot c).1, t.actionId = r.actionId

section Authorized

variable {controller : ControllerInstanceId} {snapshot : WorkerNamespaceSnapshot}
  {c : Reconciliation} {tombstones : List ActionTombstone}

/-- What authority rests on. -/
structure Unopposed (snapshot : WorkerNamespaceSnapshot) (c : Reconciliation) : Prop where
  merged : (sameBootTombstones snapshot c).2 = []
  scanned : ∀ u ∈ snapshot.units, ∀ t ∈ (sameBootTombstones snapshot c).1,
    t.actionId ≠ u.actionId
  related : Related c.state snapshot snapshot.verifiedTerminalIds
  reasons : c.reasons = []

theorem Unopposed.of_reasons (h : sameBootReasons snapshot c = []) : Unopposed snapshot c := by
  simp only [sameBootReasons, List.append_eq_nil_iff, contradictionReasons_eq_nil] at h
  obtain ⟨⟨⟨⟨⟨⟨-, hmerged⟩, hscanned⟩, -⟩, hreasons⟩, -⟩, hrelated⟩ := h
  refine ⟨hmerged, fun u hu t ht hid => ?_, .of_reasons hrelated, hreasons⟩
  exact hscanned u hu (List.mem_map.mpr ⟨t, ht, hid⟩)

variable (h : Unopposed snapshot c)
  (hbound : boundActionTombstones c.state.retains
    (uncontradicted snapshot (sameBootTombstones snapshot c).1) = .ok tombstones)
include hbound

theorem bounded_sublist : tombstones.Sublist (sameBootTombstones snapshot c).1 := by
  simp only [boundActionTombstones] at hbound
  split at hbound
  · obtain rfl := Except.ok.inj hbound
    exact (retainTombstones_sublist _ _).trans (uncontradicted_sublist snapshot)
  · cases hbound

include h

theorem Unopposed.mem_bounded {r : ActionRecord} (hr : r ∈ c.state.actions) {t : ActionTombstone}
    (ht : t ∈ (sameBootTombstones snapshot c).1) (hid : t.actionId = r.actionId) :
    t ∈ tombstones := by
  have hkept : t ∈ uncontradicted snapshot (sameBootTombstones snapshot c).1 := by
    refine List.mem_filter.mpr ⟨ht, ?_⟩
    simp only [decide_eq_true_eq]
    intro hmem
    obtain ⟨u, hu, hut⟩ := List.mem_map.mp hmem
    exact h.scanned u hu t ht hut.symm
  simp only [boundActionTombstones] at hbound
  split at hbound
  · obtain rfl := Except.ok.inj hbound
    exact mem_retainTombstones (State.retains_iff.mpr ⟨r, hr, hid.symm⟩) hkept
  · cases hbound

end Authorized

end MonitorController
