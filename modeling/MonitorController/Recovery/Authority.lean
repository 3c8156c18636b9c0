import MonitorController.Codec.Persistable
import MonitorController.Recovery.Replay
import MonitorController.Safety.Continuity

/-! # Recovery authority

When authority is granted, the live units and the retained workers account for
each other, in the persisted state as in the recovered one.
-/

namespace MonitorController

open Outcome

namespace WorkerNamespaceSnapshot

variable {snapshot : WorkerNamespaceSnapshot}

theorem mem_verifiedTerminalIds_of_result {a : ActionId}
    (h : a ∈ snapshot.verifiedResults.map (·.actionId)) : a ∈ snapshot.verifiedTerminalIds := by
  obtain ⟨v, hv, rfl⟩ := List.mem_map.mp h
  exact List.mem_map.mpr
    ⟨v.tombstone, List.mem_append_right _ (List.mem_map.mpr ⟨v, hv, rfl⟩), rfl⟩

end WorkerNamespaceSnapshot

section Reasons

variable {snapshot : WorkerNamespaceSnapshot} {tombstones : List ActionTombstone} {s : State}
  {ids : List ActionId}

theorem sortedByAction_eq_nil {α : Type} {identity : α → ActionId} {l : List α} :
    sortedByAction identity l = [] ↔ l = [] := by
  simp only [List.eq_nil_iff_forall_not_mem, mem_sortedByAction]

theorem contradictionReasons_eq_nil {finding : String} :
    contradictionReasons snapshot tombstones finding = [] ↔
      ∀ u ∈ snapshot.units, u.actionId ∉ tombstones.map (·.actionId) := by
  unfold contradictionReasons
  rw [List.map_eq_nil_iff, sortedByAction_eq_nil, List.filter_eq_nil_iff]
  simp only [List.mem_dedup, WorkerNamespaceSnapshot.scannedIds, List.forall_mem_map,
    decide_eq_true_eq]

theorem snapshotReasons_eq_nil :
    snapshotReasons snapshot = [] ↔
      snapshot.ambiguities = [] ∧ (unitMap snapshot.units).2 = [] ∧
        Undisputed snapshot.evidence ∧
        ∀ u ∈ snapshot.units, u.actionId ∉ snapshot.verifiedTerminalIds := by
  simp only [snapshotReasons, List.append_eq_nil_iff, List.map_eq_nil_iff,
    contradictionReasons_eq_nil, mergeTombstones_ids, mergeTombstones_eq_nil, List.nil_append,
    WorkerNamespaceSnapshot.verifiedTerminalIds, and_assoc]

theorem get?_unitMap_of_mem {units : List WorkerUnit} (h : (unitMap units).2 = [])
    {u : WorkerUnit} (hu : u ∈ units) : (unitMap units).1.get? u.actionId.value = some u := by
  have hnodup := unitMap_reasons.mp h
  rw [get?_unitMap, find?_spelling]
  refine find?_of_unique hu (by simp) fun v hv hid => ?_
  exact List.inj_on_of_nodup_map hnodup hv hu (of_decide_eq_true hid)

theorem mem_of_get?_unitMap {units : List WorkerUnit} {k : String} {u : WorkerUnit}
    (h : (unitMap units).1.get? k = some u) : u ∈ units ∧ u.actionId.value = k := by
  rw [get?_unitMap] at h
  exact ⟨List.mem_of_find?_eq_some h, by simpa using List.find?_some h⟩

theorem workerReason_eq_nil {scanned : Dict String WorkerUnit} {r : ActionRecord} {u : WorkerUnit}
    (hu : r.unit? = some u) :
    workerReason scanned ids r = [] ↔
      (scanned.get? r.actionId.value = none →
        r.lifecycle.mutatingInFlight = true → r.actionId ∈ ids) ∧
      ∀ v ∈ scanned.get? r.actionId.value, v = u ∧
        (r.lifecycle = .dispatched ∨ r.lifecycle = .stopping) := by
  unfold workerReason
  rw [hu]
  dsimp only
  cases hscanned : scanned.get? r.actionId.value with
  | none =>
    by_cases hid : r.actionId ∈ ids <;> by_cases hflight : r.lifecycle.mutatingInFlight = true <;>
      simp [hid, hflight]
  | some v =>
    by_cases hv : v = u <;>
      by_cases hl : r.lifecycle = .dispatched ∨ r.lifecycle = .stopping <;> simp_all

/-- What a state and a snapshot without a relationship reason have in common. -/
structure Related (s : State) (snapshot : WorkerNamespaceSnapshot) (ids : List ActionId) :
    Prop where
  unique : (unitMap snapshot.units).2 = []
  workers : ∀ r ∈ s.actions, workerReason (unitMap snapshot.units).1 ids r = []
  live : ∀ u ∈ snapshot.units, ∃ r ∈ s.actions, r.unit?.isSome = true ∧
    r.actionId.value = u.actionId.value
  retained : ∀ u ∈ retainedUnits s ids, ∃ r ∈ s.actions, r.unit?.isSome = true ∧
    r.actionId.value = u.actionId.value

theorem Related.of_reasons (h : sameBootRelationshipReasons s snapshot ids = []) :
    Related s snapshot ids := by
  simp only [sameBootRelationshipReasons, List.append_eq_nil_iff, List.map_eq_nil_iff,
    List.flatMap_eq_nil_iff, List.filter_eq_nil_iff, decide_eq_true_eq, not_and, not_not] at h
  obtain ⟨⟨⟨⟨⟨hunique, hretained⟩, -⟩, hworkers⟩, habsent⟩, horphaned⟩ := h
  have expected {k : String}
      (hk : k ∈ (s.actions.filter (·.unit?.isSome)).map (·.actionId.value)) :
      ∃ r ∈ s.actions, r.unit?.isSome = true ∧ r.actionId.value = k := by
    obtain ⟨r, hr, rfl⟩ := List.mem_map.mp hk
    exact ⟨r, (List.mem_filter.mp hr).1, (List.mem_filter.mp hr).2, rfl⟩
  have key {units : List WorkerUnit} {u : WorkerUnit} (hu : u ∈ units) :
      u.actionId.value ∈ (unitMap units).1.keys := by
    by_contra hnone
    have hget := Dict.get?_eq_none.mpr hnone
    rw [get?_unitMap] at hget
    simpa using List.find?_eq_none.mp hget u hu
  have hkept : ∀ u ∈ retainedUnits s ids, u.actionId.value ∈
      (s.actions.filter (·.unit?.isSome)).map (·.actionId.value) := fun u hu =>
    horphaned _ (key hu)
  refine ⟨hunique, hworkers, fun u hu => ?_, fun u hu => expected (hkept u hu)⟩
  by_cases hk : u.actionId.value ∈ (s.actions.filter (·.unit?.isSome)).map (·.actionId.value)
  · exact expected hk
  · exact expected (horphaned _ (habsent _ (key hu) hk))

theorem Related.running (h : Related s snapshot ids) {u : WorkerUnit} (hu : u ∈ snapshot.units) :
    ∃ r ∈ s.actions, (r.lifecycle = .dispatched ∨ r.lifecycle = .stopping) ∧
      r.unit? = some u := by
  obtain ⟨r, hr, hunit, hkey⟩ := h.live u hu
  obtain ⟨v, hv⟩ := Option.isSome_iff_exists.mp hunit
  have hscanned := get?_unitMap_of_mem h.unique hu
  rw [← hkey] at hscanned
  obtain ⟨rfl, hl⟩ := ((workerReason_eq_nil hv).mp (h.workers r hr)).2 u hscanned
  exact ⟨r, hr, hl, hv⟩

end Reasons

/-- The units found alive and the retained workers account for each other. -/
structure Accounts (snapshot : WorkerNamespaceSnapshot) (s : State) : Prop where
  live : ∀ u ∈ snapshot.units, ∃ r ∈ s.actions,
    (r.lifecycle = .dispatched ∨ r.lifecycle = .stopping) ∧ r.unit? = some u
  workers : ∀ r ∈ s.actions, r.kind ≠ .plan → r.lifecycle = .dispatched ∨ r.lifecycle = .stopping →
    (∃ u ∈ snapshot.units, r.unit? = some u) ∨ r.actionId ∈ snapshot.verifiedTerminalIds
  buried : ∀ u ∈ snapshot.units, ∀ t ∈ s.actionTombstones, t.actionId ≠ u.actionId

section Checked

variable {s : State}

theorem State.mem_mutators_of_worker? {r : ActionRecord} {w : WorkerAction} (hr : r ∈ s.actions)
    (hw : r.worker? = some w) : w ∈ s.mutators := by
  rw [State.mem_mutators]
  rcases State.mem_actions.mp hr with ⟨a, ha, rfl⟩ | ⟨a, ha, rfl⟩ | ⟨a, ha, rfl⟩ | ⟨a, ha, rfl⟩ |
    ⟨a, ha, rfl⟩ <;> cases hw
  · exact .inl ⟨a, ha, rfl⟩
  · exact .inr (.inl ⟨a, ha, rfl⟩)
  · exact .inr (.inr (.inl ⟨a, ha, rfl⟩))
  · exact .inr (.inr (.inr ⟨a, ha, rfl⟩))

theorem unit?_of_checked (h : assertControllerInvariants s = .ok ()) {r : ActionRecord}
    (hr : r ∈ s.actions) (hk : r.kind ≠ .plan) (hl : r.lifecycle.mutatingInFlight = true) :
    ∃ u, r.unit? = some u := by
  simp only [assertControllerInvariants, checkWorkerAcknowledgements, checkAcknowledged,
    seq_eq_ok, forM_eq_ok, require_eq_ok] at h
  obtain ⟨-, -, -, ⟨-, hworkers⟩, -⟩ := h
  obtain ⟨w, hw, hwl, -⟩ := r.worker?_of_kind hk
  have hunit := (hworkers w (State.mem_mutators_of_worker? hr hw)).1 (hwl.symm ▸ hl)
  obtain ⟨u, hu⟩ := Option.ne_none_iff_exists'.mp hunit
  exact ⟨u, by simp [ActionRecord.unit?, hw, hu]⟩

theorem ActionLifecycle.inFlight_of_running {l : ActionLifecycle}
    (h : l = .dispatched ∨ l = .stopping) : l.mutatingInFlight = true := by
  rcases h with rfl | rfl <;> rfl

theorem uncontradicted_bounded {snapshot : WorkerNamespaceSnapshot} {isProtected : ActionId → Bool}
    {l bounded : List ActionTombstone}
    (h : boundActionTombstones isProtected (uncontradicted snapshot l) = .ok bounded) :
    ∀ u ∈ snapshot.units, ∀ t ∈ bounded, t.actionId ≠ u.actionId := by
  intro u hu t ht hid
  simp only [boundActionTombstones] at h
  split at h
  · obtain rfl := Except.ok.inj h
    have hmem := (retainTombstones_sublist _ _).subset ht
    have hscanned := (List.mem_filter.mp hmem).2
    simp only [decide_eq_true_eq] at hscanned
    exact hscanned (hid ▸ List.mem_map.mpr ⟨u, hu, rfl⟩)
  · cases h

end Checked

section SameBoot

variable {persisted : State} {boot : BootId} {controller : ControllerInstanceId}
  {display : DisplayIdentity} {snapshot : WorkerNamespaceSnapshot} {result : RecoveryResult}

/-- How the same boot is recovered: without a reason the reconciled state goes on, and with one it
is replaced. -/
theorem recoverSameBoot_cases
    (h : recoverSameBoot persisted boot controller display snapshot = .ok result) :
    ∃ r tombstones, reconcileVerifiedResults persisted snapshot.verifiedResults = .ok r ∧
      boundActionTombstones r.state.retains
        (uncontradicted snapshot (sameBootTombstones snapshot r).1) = .ok tombstones ∧
      assertControllerInvariants result.state = .ok () ∧
      (sameBootReasons snapshot r ≠ [] ∧ result.authorityAllowed = false ∧
          result.state = minimumRecoveryState boot controller display snapshot tombstones
            (some r.state) (sameBootRecoveryUnits r.state snapshot snapshot.verifiedTerminalIds) ∨
        sameBootReasons snapshot r = [] ∧ result.authorityAllowed = true ∧
          result.state = authorizedState controller snapshot r.state tombstones) := by
  obtain ⟨r, hr, h⟩ := bind_eq_ok.mp h
  obtain ⟨tombstones, ht, h⟩ := bind_eq_ok.mp h
  refine ⟨r, tombstones, hr, ht, ?_⟩
  dsimp only at h
  split at h
  next hreasons =>
    obtain ⟨u, hchecked, hok⟩ := bind_eq_ok.mp h
    obtain rfl := Except.ok.inj hok
    exact ⟨hchecked, .inl ⟨hreasons, rfl, rfl⟩⟩
  next hreasons =>
    obtain ⟨u, hchecked, hok⟩ := bind_eq_ok.mp h
    obtain rfl := Except.ok.inj hok
    exact ⟨hchecked, .inr ⟨not_not.mp hreasons, rfl, rfl⟩⟩

theorem accounts_authorizedState {r : Reconciliation} {tombstones : List ActionTombstone}
    (hreasons : sameBootReasons snapshot r = [])
    (ht : boundActionTombstones r.state.retains
      (uncontradicted snapshot (sameBootTombstones snapshot r).1) = .ok tombstones)
    (hchecked : assertControllerInvariants
      (authorizedState controller snapshot r.state tombstones) = .ok ()) :
    Accounts snapshot (authorizedState controller snapshot r.state tombstones) := by
  have hrelated : Related r.state snapshot snapshot.verifiedTerminalIds := by
    simp only [sameBootReasons, List.append_eq_nil_iff] at hreasons
    exact .of_reasons hreasons.2
  have hactions : (authorizedState controller snapshot r.state tombstones).actions =
      r.state.actions := rfl
  constructor
  · exact fun u hu => hactions ▸ hrelated.running hu
  · intro q hq hk hl
    have hflight := ActionLifecycle.inFlight_of_running hl
    obtain ⟨v, hv⟩ := unit?_of_checked hchecked hq hk hflight
    obtain ⟨habsent, hfound⟩ := (workerReason_eq_nil hv).mp (hrelated.workers q hq)
    cases hscanned : (unitMap snapshot.units).1.get? q.actionId.value with
    | none => exact .inr (habsent hscanned hflight)
    | some u =>
      obtain ⟨rfl, -⟩ := hfound u hscanned
      exact .inl ⟨u, (mem_of_get?_unitMap hscanned).1, hv⟩
  · exact uncontradicted_bounded ht

/-- What the recovered state accounts for, the persisted state accounts for already. -/
theorem Accounts.before {s' : State} {r : Reconciliation}
    (h : Accounts snapshot s') (hactions : s'.actions = r.state.actions)
    (hr : Reconciles persisted (snapshot.verifiedResults.map (·.actionId)) r)
    (hlive : ∀ u ∈ snapshot.units, u.actionId ∉ snapshot.verifiedTerminalIds)
    (hvalid : Persistable persisted) : Accounts snapshot persisted := by
  have hkept : ∀ u ∈ snapshot.units, ∃ q ∈ persisted.actions,
      (q.lifecycle = .dispatched ∨ q.lifecycle = .stopping) ∧ q.unit? = some u := by
    intro u hu
    obtain ⟨q, hq, hl, hunit⟩ := h.live u hu
    refine ⟨q, (hr.actions q fun hmem => ?_).mp (hactions ▸ hq), hl, hunit⟩
    have hid := ActionRecord.unit?_matches hunit
    exact hlive u hu
      (hid ▸ WorkerNamespaceSnapshot.mem_verifiedTerminalIds_of_result hmem)
  constructor
  · exact hkept
  · intro q hq hk hl
    by_cases hmem : q.actionId ∈ snapshot.verifiedResults.map (·.actionId)
    · exact .inr (WorkerNamespaceSnapshot.mem_verifiedTerminalIds_of_result hmem)
    · exact h.workers q (hactions ▸ (hr.actions q hmem).mpr hq) hk hl
  · intro u hu t ht hid
    obtain ⟨q, hq, hl, hunit⟩ := hkept u hu
    rw [ActionRecord.unit?_matches hunit] at hid
    cases hfound : persisted.tombstoneOf q.actionId with
    | none =>
      have hnone := List.find?_eq_none.mp hfound t (List.mem_reverse.mpr ht)
      simp [hid] at hnone
    | some t' =>
      have hterminal := (hvalid.buried q hq t' hfound).1
      rcases hl with hl | hl <;> simp [hl, ActionLifecycle.terminal] at hterminal

end SameBoot

/-- Where authority comes from: a first start, or the recovery of the same boot. -/
theorem recoverState_authority {persisted : Option State}
    {scan : Except String WorkerNamespaceSnapshot} {corruption : Option String}
    (h : recoverState persisted boot controller display scan corruption = .ok result)
    (hauthority : result.authorityAllowed = true) :
    ∃ snapshot, scan = .ok snapshot ∧ snapshotReasons snapshot = [] ∧
      (persisted = none ∧ snapshot.units = [] ∨
        ∃ s ∈ persisted, s.bootId = boot ∧ s.displayIdentity = display ∧
          ∃ c tombstones, reconcileVerifiedResults s snapshot.verifiedResults = .ok c ∧
            boundActionTombstones c.state.retains
              (uncontradicted snapshot (sameBootTombstones snapshot c).1) = .ok tombstones ∧
            assertControllerInvariants result.state = .ok () ∧ sameBootReasons snapshot c = [] ∧
            result.state = authorizedState controller snapshot c.state tombstones) := by
  have hdenied {s : State} {reasons : List String} {hs : s.phase = .recovering}
      (h : denyAuthority s reasons hs = .ok result) : False := by
    obtain ⟨u, -, hok⟩ := bind_eq_ok.mp h
    obtain rfl := Except.ok.inj hok
    cases hauthority
  cases scan with
  | error error => exact absurd h fun h => hdenied h
  | ok snapshot =>
    refine ⟨snapshot, rfl, ?_⟩
    obtain ⟨snapshotted, -, h⟩ := bind_eq_ok.mp h
    cases persisted with
    | none =>
      obtain ⟨u, -, hok⟩ := bind_eq_ok.mp h
      obtain rfl := Except.ok.inj hok
      obtain ⟨-, hreasons, hunits⟩ := of_decide_eq_true hauthority
      exact ⟨hreasons, .inl ⟨rfl, hunits⟩⟩
    | some s =>
      dsimp only at h
      split at h
      next => exact absurd h fun h => hdenied h
      next hdisplay =>
        split at h
        next => exact absurd h fun h => hdenied h
        next hboot =>
          obtain ⟨c, tombstones, hc, hbound, hchecked, ⟨-, hnot, -⟩ | ⟨hreasons, -, hstate⟩⟩ :=
            recoverSameBoot_cases h
          · cases hnot.symm.trans hauthority
          · have hsnapshot := hreasons
            simp only [sameBootReasons, List.append_eq_nil_iff] at hsnapshot
            exact ⟨hsnapshot.1.1.1.1.1.1, .inr ⟨s, rfl, not_not.mp hboot, not_not.mp hdisplay, c,
              tombstones, hc, hbound, hchecked, hreasons, hstate⟩⟩

theorem accounts_of_authority {c : Reconciliation} {tombstones : List ActionTombstone}
    (hpersistable : Persistable persisted)
    (hc : reconcileVerifiedResults persisted snapshot.verifiedResults = .ok c)
    (hbound : boundActionTombstones c.state.retains
      (uncontradicted snapshot (sameBootTombstones snapshot c).1) = .ok tombstones)
    (hreasons : sameBootReasons snapshot c = []) {s : State}
    (hstate : s = authorizedState controller snapshot c.state tombstones)
    (hchecked : assertControllerInvariants s = .ok ()) :
    Accounts snapshot persisted ∧ Accounts snapshot s := by
  have hsnapshot := hreasons
  simp only [sameBootReasons, List.append_eq_nil_iff] at hsnapshot
  have hrecovered := accounts_authorizedState hreasons hbound (hstate ▸ hchecked)
  rw [← hstate] at hrecovered
  have hactions : s.actions = c.state.actions := by
    rw [hstate]
    rfl
  exact ⟨hrecovered.before hactions (reconcileVerifiedResults_reconciles persisted _ c hc)
    (snapshotReasons_eq_nil.mp hsnapshot.1.1.1.1.1.1).2.2.2 hpersistable, hrecovered⟩

/-- Authority is granted on a first start into an empty namespace, or when the units found alive
and the retained workers account for each other. -/
theorem recovery_authority_sound (persisted : Option State) (boot : BootId)
    (controller : ControllerInstanceId) (display : DisplayIdentity)
    (scan : Except String WorkerNamespaceSnapshot) (corruption : Option String)
    (result : RecoveryResult) (hvalid : ∀ s ∈ persisted, validateState s = .ok ())
    (hresult : recoverState persisted boot controller display scan corruption = .ok result)
    (hauthority : result.authorityAllowed = true) :
    ∃ snapshot, scan = .ok snapshot ∧
      (persisted = none ∧ snapshot.units = [] ∧ snapshot.ambiguities = [] ∨
        ∃ s ∈ persisted, s.bootId = boot ∧ s.displayIdentity = display ∧ Accounts snapshot s ∧
          Accounts snapshot result.state) := by
  obtain ⟨snapshot, hscan, hreasons, ⟨hnone, hunits⟩ | ⟨s, hs, hboot, hdisplay, c, tombstones, hc,
    hbound, hchecked, hall, hstate⟩⟩ := recoverState_authority hresult hauthority
  · exact ⟨snapshot, hscan, .inl ⟨hnone, hunits, (snapshotReasons_eq_nil.mp hreasons).1⟩⟩
  · obtain ⟨-, hpersistable, -⟩ := validateState_eq_ok.mp (hvalid s hs)
    obtain ⟨hbefore, hafter⟩ := accounts_of_authority hpersistable hc hbound hall hstate hchecked
    exact ⟨snapshot, hscan, .inr ⟨s, hs, hboot, hdisplay, hbefore, hafter⟩⟩

namespace Scenario

def loadingScan : WorkerNamespaceSnapshot := { units := [⟨load, laptop⟩] }

def emptyScan : WorkerNamespaceSnapshot := {}

theorem loading_validates : validateState loading = .ok () :=
  validateState_eq_ok.mpr ⟨⟨by decide, by decide, by decide, by decide⟩,
    validatePersistenceRelationships_eq_ok.mp (reachable_validates loading_reachable),
    loading_reachable.sound.checked⟩

theorem requestedNext_reachable : Reachable requestedNext.state :=
  (((fresh_reachable.move ⟨reduce_decided _ _ _, rfl⟩).move ⟨reduce_decided _ _ _, rfl⟩).move
    ⟨reduce_decided _ _ _, rfl⟩).move ⟨reduce_decided _ _ _, rfl⟩

theorem requestedNext_validates : validateState requestedNext.state = .ok () :=
  validateState_eq_ok.mpr ⟨⟨by decide, by decide, by decide, by decide⟩,
    validatePersistenceRelationships_eq_ok.mp (reachable_validates requestedNext_reachable),
    requestedNext_reachable.sound.checked⟩

end Scenario

open Scenario in
theorem recovery_authority_sound_loading :
    ∃ result : RecoveryResult,
      recoverState (some loading) boot controller ⟨panel⟩ (.ok loadingScan) none = .ok result ∧
      Accounts loadingScan result.state := by
  obtain ⟨result, hresult, hauthority⟩ := eq_ok_of_toOption (f := RecoveryResult.authorityAllowed)
    (x := recoverState (some loading) boot controller ⟨panel⟩ (.ok loadingScan) none) (c := true)
    (by decide +kernel)
  obtain ⟨snapshot, hscan, ⟨hnone, -⟩ | ⟨s, -, -, -, -, haccounts⟩⟩ :=
    recovery_authority_sound (some loading) boot controller ⟨panel⟩ (.ok loadingScan) none result
      (by rintro s ⟨⟩; exact loading_validates) hresult hauthority
  · cases hnone
  · obtain rfl := Except.ok.inj hscan
    exact ⟨result, hresult, haccounts⟩

open Scenario in
/-- A plan is retained as dispatched, but it is no worker: authority is granted without a unit or
terminal evidence for it. -/
theorem recovery_authority_without_worker :
    validateState requestedNext.state = .ok () ∧
      ∃ result : RecoveryResult,
        recoverState (some requestedNext.state) nextBoot controller ⟨panel⟩ (.ok emptyScan) none =
          .ok result ∧ result.authorityAllowed = true ∧
        ∃ r ∈ result.state.actions, r.lifecycle = .dispatched ∧
          ¬ ((∃ u ∈ emptyScan.units, r.unit? = some u) ∨
            r.actionId ∈ emptyScan.verifiedTerminalIds) := by
  refine ⟨requestedNext_validates, ?_⟩
  obtain ⟨result, hresult, hread⟩ := eq_ok_of_toOption
    (f := fun r : RecoveryResult => (r.authorityAllowed, r.state.planning.map (·.lifecycle)))
    (x := recoverState (some requestedNext.state) nextBoot controller ⟨panel⟩ (.ok emptyScan) none)
    (c := (true, some .dispatched)) (by decide +kernel)
  obtain ⟨hauthority, hplanning⟩ := Prod.mk.inj hread
  obtain ⟨p, hp, hl⟩ := Option.map_eq_some_iff.mp hplanning
  exact ⟨result, hresult, hauthority, .planning p, State.mem_actions_planning hp, hl,
    by simp [emptyScan, WorkerNamespaceSnapshot.verifiedTerminalIds,
      WorkerNamespaceSnapshot.evidence]⟩

end MonitorController
