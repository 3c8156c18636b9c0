import MonitorController.Recovery.Authority

/-! # What recovery retains

A worker which may still be live must not be forgotten by a recovery which
denies authority, since the next recovery would not ask for it any more.
-/

namespace MonitorController

open Outcome

/-- The unit holds an exclusion: as a recovery unit, or as that of a running worker. -/
def PossiblyLive (s : State) (u : WorkerUnit) : Prop :=
  u ∈ s.recoveryUnits ∨
    ∃ r ∈ s.actions, (r.lifecycle = .dispatched ∨ r.lifecycle = .stopping) ∧ r.unit? = some u

/-- The scan holds verified terminal evidence of the action. -/
def Verified : Except String WorkerNamespaceSnapshot → ActionId → Prop
  | .error _, _ => False
  | .ok snapshot, a => a ∈ snapshot.verifiedTerminalIds

/-- Every possibly-live unit without terminal evidence is found by the scan, or is a recovery unit
already while the display is the same; a failed scan asks for nothing. -/
def Recalled (s : State) (display : DisplayIdentity) :
    Except String WorkerNamespaceSnapshot → Prop
  | .error _ => True
  | .ok snapshot => ∀ u, PossiblyLive s u → u.actionId ∉ snapshot.verifiedTerminalIds →
      snapshot.units.find? (·.actionId = u.actionId) = some u ∨
        s.displayIdentity = display ∧ u ∈ s.recoveryUnits

section Units

variable {units : List WorkerUnit} {u v : WorkerUnit}

theorem find?_of_nodup (h : (units.map (·.actionId)).Nodup) (hu : u ∈ units) :
    units.find? (·.actionId = u.actionId) = some u := by
  refine find?_of_unique hu (by simp) fun v hv hid => ?_
  exact List.inj_on_of_nodup_map h hv hu (of_decide_eq_true hid)

theorem mem_uniqueUnits_uniqueUnits : u ∈ uniqueUnits (uniqueUnits units) ↔ u ∈ uniqueUnits units := by
  constructor
  · intro h
    exact List.mem_of_find?_eq_some (mem_uniqueUnits.mp h)
  · intro h
    exact mem_uniqueUnits.mpr (find?_of_nodup (nodup_uniqueUnits units) h)

variable {boot : BootId} {controller : ControllerInstanceId} {display : DisplayIdentity}
  {snapshot : WorkerNamespaceSnapshot} {tombstones : List ActionTombstone}
  {persisted : Option State}

theorem possiblyLive_minimumRecoveryState :
    PossiblyLive (minimumRecoveryState boot controller display snapshot tombstones persisted units)
      u ↔ u ∈ uniqueUnits units := by
  constructor
  · rintro (h | ⟨r, hr, -⟩)
    · exact h
    · cases hr
  · exact .inl

end Units

section Valid

variable {s : State} {u v : WorkerUnit}

theorem recoveryUnits_nodup_of_checked (h : assertControllerInvariants s = .ok ()) :
    (s.recoveryUnits.map (·.actionId)).Nodup := by
  simp only [assertControllerInvariants, checkActionIdentities, seq_eq_ok, require_eq_ok] at h
  exact h.2.2.1.2.2.2.2.2.1

theorem running_of_recoveryUnit (h : assertControllerInvariants s = .ok ())
    (hp : s.phase ≠ .recovering) (hu : u ∈ s.recoveryUnits) :
    ∃ r ∈ s.actions, (r.lifecycle = .dispatched ∨ r.lifecycle = .stopping) ∧
      r.unit? = some u := by
  simp only [assertControllerInvariants, checkActionIdentities, seq_eq_ok, if_pos hp, forM_eq_ok,
    checkRecoveryUnit, require_eq_ok] at h
  obtain ⟨r, hr, w, hw, hl, hunit⟩ := h.2.2.1.2.2.2.2.2.2.2.2.1 u hu
  obtain ⟨hmem, -⟩ := State.actionForId_eq_some hr
  have hwl : w.lifecycle = r.lifecycle := by
    cases r <;> cases hw <;> rfl
  exact ⟨r, hmem, hwl ▸ hl, by simp [ActionRecord.unit?, Option.mem_def.mp hw, hunit]⟩

theorem action_unique {r q : ActionRecord} (hr : r ∈ s.actions) (hq : q ∈ s.actions)
    (h : r.actionId = q.actionId) : r = q :=
  List.inj_on_of_nodup_map Sound.actions_nodup hr hq h

theorem units_agree (hvalid : Persistable s) (h : assertControllerInvariants s = .ok ())
    (hu : u ∈ s.recoveryUnits ++ representedWorkerUnits s)
    (hv : v ∈ s.recoveryUnits ++ representedWorkerUnits s) (hid : u.actionId = v.actionId) :
    u = v := by
  by_cases hp : s.phase = .recovering
  · have hnone : representedWorkerUnits s = [] := by
      simp [representedWorkerUnits, (hvalid.recovering hp).1]
    rw [hnone, List.append_nil] at hu hv
    exact List.inj_on_of_nodup_map (recoveryUnits_nodup_of_checked h) hu hv hid
  · have owner {w : WorkerUnit} (hw : w ∈ s.recoveryUnits ++ representedWorkerUnits s) :
        ∃ r ∈ s.actions, r.unit? = some w := by
      rcases List.mem_append.mp hw with hw | hw
      · obtain ⟨r, hr, -, hunit⟩ := running_of_recoveryUnit h hp hw
        exact ⟨r, hr, hunit⟩
      · obtain ⟨r, hr, hunit⟩ := List.mem_filterMap.mp hw
        exact ⟨r, hr, hunit⟩
    obtain ⟨r, hr, hru⟩ := owner hu
    obtain ⟨q, hq, hqv⟩ := owner hv
    have hsame : r = q := by
      refine action_unique hr hq ?_
      rw [← ActionRecord.unit?_matches hru, ← ActionRecord.unit?_matches hqv, hid]
    rw [hsame] at hru
    exact Option.some.inj (hru.symm.trans hqv)

theorem PossiblyLive.mem (h : PossiblyLive s u) :
    u ∈ s.recoveryUnits ++ representedWorkerUnits s := by
  rcases h with h | ⟨r, hr, -, hunit⟩
  · exact List.mem_append_left _ h
  · exact List.mem_append_right _ (List.mem_filterMap.mpr ⟨r, hr, hunit⟩)

end Valid

section Exits

variable {s : State} {controller : ControllerInstanceId} {display : DisplayIdentity}
  {snapshot : WorkerNamespaceSnapshot} {result : RecoveryResult} {u : WorkerUnit}

theorem keeps_failedScan (hvalid : Persistable s) (h : assertControllerInvariants s = .ok ())
    (hu : PossiblyLive s u) : u ∈ uniqueUnits (uniqueUnits (s.recoveryUnits ++
      representedWorkerUnits s)) := by
  rw [mem_uniqueUnits_uniqueUnits, mem_uniqueUnits]
  refine find?_of_unique hu.mem (by simp) fun v hv hid => ?_
  exact units_agree hvalid h hv hu.mem (of_decide_eq_true hid)

theorem keeps_denied (hvalid : Persistable s) (h : assertControllerInvariants s = .ok ())
    {r : Reconciliation} (hr : Reconciles s (snapshot.verifiedResults.map (·.actionId)) r)
    (hu : PossiblyLive s u) (hid : u.actionId ∉ snapshot.verifiedTerminalIds) :
    u ∈ uniqueUnits (sameBootRecoveryUnits r.state snapshot snapshot.verifiedTerminalIds) ↔
      snapshot.units.find? (·.actionId = u.actionId) = some u ∨ u ∈ s.recoveryUnits := by
  have hretained : ∀ v, v ∈ retainedUnits r.state snapshot.verifiedTerminalIds →
      v ∈ s.recoveryUnits := fun v hv => hr.fewer.subset (List.mem_filter.mp hv).1
  rw [sameBootRecoveryUnits, mem_uniqueUnits_uniqueUnits, mem_uniqueUnits, List.find?_append]
  by_cases hmem : u ∈ s.recoveryUnits
  · have hkept : u ∈ retainedUnits r.state snapshot.verifiedTerminalIds := by
      have hnot : u.actionId ∉ snapshot.verifiedResults.map (·.actionId) := fun hres =>
        hid (WorkerNamespaceSnapshot.mem_verifiedTerminalIds_of_result hres)
      exact List.mem_filter.mpr ⟨(hr.units u hnot).mpr hmem, by simpa using hid⟩
    have hnodup : ((retainedUnits r.state snapshot.verifiedTerminalIds).map
        (·.actionId)).Nodup :=
      ((List.filter_sublist.trans hr.fewer).map _).nodup (recoveryUnits_nodup_of_checked h)
    simp [find?_of_nodup hnodup hkept, hmem]
  · have hnone : (retainedUnits r.state snapshot.verifiedTerminalIds).find?
        (·.actionId = u.actionId) = none := by
      refine List.find?_eq_none.mpr fun v hv hsame => hmem ?_
      have hvs := hretained v hv
      rwa [← units_agree hvalid h (List.mem_append_left _ hvs) hu.mem (of_decide_eq_true hsame)]
    simp [hnone, hmem]

/-- Without a reason a possibly-live unit without evidence is that of a worker which the scan
found. -/
theorem keeps_authorized (hvalid : Persistable s) (h : assertControllerInvariants s = .ok ())
    {r : Reconciliation} (hr : Reconciles s (snapshot.verifiedResults.map (·.actionId)) r)
    (hrelated : Related r.state snapshot snapshot.verifiedTerminalIds)
    (hu : PossiblyLive s u) (hid : u.actionId ∉ snapshot.verifiedTerminalIds) :
    snapshot.units.find? (·.actionId = u.actionId) = some u ∧
      ∃ q ∈ r.state.actions, (q.lifecycle = .dispatched ∨ q.lifecycle = .stopping) ∧
        q.unit? = some u := by
  have hnot : u.actionId ∉ snapshot.verifiedResults.map (·.actionId) := fun hres =>
    hid (WorkerNamespaceSnapshot.mem_verifiedTerminalIds_of_result hres)
  have hworker : ∃ q ∈ s.actions, (q.lifecycle = .dispatched ∨ q.lifecycle = .stopping) ∧
      q.unit? = some u := by
    rcases hu with hmem | hworker
    · have hkept : u ∈ retainedUnits r.state snapshot.verifiedTerminalIds :=
        List.mem_filter.mpr ⟨(hr.units u hnot).mpr hmem, by simpa using hid⟩
      obtain ⟨q, hq, -, hkey⟩ := hrelated.retained u hkept
      have hqs : q ∈ s.actions :=
        (hr.actions q (ActionId.value_inj hkey ▸ hnot)).mp hq
      -- A recovering state would retain no action for the unit.
      refine running_of_recoveryUnit h (fun hp => ?_) hmem
      rw [(hvalid.recovering hp).1] at hqs
      cases hqs
    · exact hworker
  obtain ⟨q, hq, hl, hunit⟩ := hworker
  have hqid := ActionRecord.unit?_matches hunit
  have hqr : q ∈ r.state.actions := (hr.actions q (hqid ▸ hnot)).mpr hq
  refine ⟨?_, q, hqr, hl, hunit⟩
  obtain ⟨habsent, hfound⟩ := (workerReason_eq_nil hunit).mp (hrelated.workers q hqr)
  cases hscanned : (unitMap snapshot.units).1.get? q.actionId.value with
  | none =>
    have hevidence := habsent hscanned (ActionLifecycle.inFlight_of_running hl)
    exact absurd (hqid ▸ hevidence) hid
  | some v =>
    obtain ⟨rfl, -⟩ := hfound v hscanned
    have hscan := (mem_of_get?_unitMap hscanned).1
    exact find?_of_nodup (unitMap_reasons.mp hrelated.unique) hscan

end Exits

/-- Recovery on the same boot keeps every possibly-live unit exactly when it is recalled. -/
theorem recovery_keeps_units_iff (s : State) (controller : ControllerInstanceId)
    (display : DisplayIdentity) (scan : Except String WorkerNamespaceSnapshot)
    (corruption : Option String) (result : RecoveryResult) (hvalid : validateState s = .ok ())
    (hresult : recoverState (some s) s.bootId controller display scan corruption = .ok result) :
    (∀ u, PossiblyLive s u → ¬ Verified scan u.actionId → PossiblyLive result.state u) ↔
      Recalled s display scan := by
  obtain ⟨-, hpersistable, hchecked⟩ := validateState_eq_ok.mp hvalid
  cases scan with
  | error error =>
    obtain ⟨u, -, hok⟩ := bind_eq_ok.mp hresult
    obtain rfl := Except.ok.inj hok
    refine iff_of_true (fun u hu _ => ?_) trivial
    exact possiblyLive_minimumRecoveryState.mpr (keeps_failedScan hpersistable hchecked hu)
  | ok snapshot =>
    obtain ⟨tombstones, -, hresult⟩ := bind_eq_ok.mp hresult
    dsimp only at hresult
    simp only [Verified, Recalled]
    split at hresult
    next hdisplay =>
      obtain ⟨u, -, hok⟩ := bind_eq_ok.mp hresult
      obtain rfl := Except.ok.inj hok
      refine forall_congr' fun u => imp_congr_right fun _ => imp_congr_right fun _ => ?_
      rw [possiblyLive_minimumRecoveryState, mem_uniqueUnits]
      simp [hdisplay]
    next hdisplay =>
      rw [if_neg (by simp)] at hresult
      refine forall_congr' fun u => imp_congr_right fun hu => imp_congr_right fun hid => ?_
      obtain ⟨r, ts, hr, -, -, ⟨-, -, hstate⟩ | ⟨hreasons, -, hstate⟩⟩ :=
        recoverSameBoot_cases hresult
      · have hkeeps := keeps_denied hpersistable hchecked
          (reconcileVerifiedResults_reconciles s _ r hr) hu hid
        rw [hstate, possiblyLive_minimumRecoveryState, hkeeps]
        simp [not_not.mp hdisplay]
      · have hrelated : Related r.state snapshot snapshot.verifiedTerminalIds := by
          simp only [sameBootReasons, List.append_eq_nil_iff] at hreasons
          exact .of_reasons hreasons.2
        obtain ⟨hfound, hworker⟩ := keeps_authorized hpersistable hchecked
          (reconcileVerifiedResults_reconciles s _ r hr) hrelated hu hid
        rw [hstate]
        exact iff_of_true (.inr hworker) (.inl hfound)

open Scenario in
theorem recovery_keeps_units_loading :
    ∃ result : RecoveryResult,
      recoverState (some loading) boot controller ⟨panel⟩ (.ok loadingScan) none = .ok result ∧
      PossiblyLive result.state ⟨load, laptop⟩ := by
  obtain ⟨result, hresult, -⟩ := eq_ok_of_toOption (f := fun _ => ())
    (x := recoverState (some loading) boot controller ⟨panel⟩ (.ok loadingScan) none) (c := ())
    (by decide +kernel)
  refine ⟨result, hresult, (recovery_keeps_units_iff loading controller ⟨panel⟩ (.ok loadingScan)
    none result loading_validates hresult).mpr ?_ ⟨load, laptop⟩ ?_ ?_⟩
  · intro u hu hid
    left
    have hall : ∀ v ∈ loading.recoveryUnits ++ representedWorkerUnits loading,
        v = ⟨load, laptop⟩ := by decide +kernel
    obtain rfl := hall u hu.mem
    rfl
  · exact .inr ⟨.application (loading.application.get rfl),
      State.mem_actions_application (Option.some_get _).symm, .inl rfl, rfl⟩
  · rintro ⟨⟩

open Scenario in
/-- A load which runs but which the scan does not find is forgotten by the denial it causes. -/
theorem recovery_forgets_worker :
    validateState loading = .ok () ∧ PossiblyLive loading ⟨load, laptop⟩ ∧
      ¬ Verified (.ok emptyScan) load ∧
      ∃ result : RecoveryResult,
        recoverState (some loading) boot controller ⟨panel⟩ (.ok emptyScan) none = .ok result ∧
        result.authorityAllowed = false ∧ ¬ PossiblyLive result.state ⟨load, laptop⟩ := by
  refine ⟨loading_validates, .inr ⟨.application (loading.application.get rfl),
    State.mem_actions_application (Option.some_get _).symm, .inl rfl, rfl⟩, by rintro ⟨⟩, ?_⟩
  obtain ⟨result, hresult, hread⟩ := eq_ok_of_toOption
    (f := fun r : RecoveryResult =>
      (r.authorityAllowed, r.state.actions.length, r.state.recoveryUnits))
    (x := recoverState (some loading) boot controller ⟨panel⟩ (.ok emptyScan) none)
    (c := (false, 0, [])) (by decide +kernel)
  obtain ⟨hdenied, hread⟩ := Prod.mk.inj hread
  obtain ⟨hactions, hunits⟩ := Prod.mk.inj hread
  refine ⟨result, hresult, hdenied, ?_⟩
  rintro (hu | ⟨r, hr, -⟩)
  · rw [hunits] at hu
    cases hu
  · rw [List.length_eq_zero_iff.mp hactions] at hr
    cases hr

end MonitorController
