import MonitorController.Recovery.Accordance

/-! # Failing closed

Recovery answers contradictory evidence by a denial, unless the replay of a
result breaks the state or a tombstone of a retained action which has not ended
goes unnoticed.
-/

namespace MonitorController

open Outcome

section Authorized

variable {controller : ControllerInstanceId} {snapshot : WorkerNamespaceSnapshot}
  {c : Reconciliation} {tombstones : List ActionTombstone}

theorem mem_sameBootRecoveryUnits {s : State} {ids : List ActionId} {u : WorkerUnit}
    (hu : u ∈ sameBootRecoveryUnits s snapshot ids) :
    u ∈ s.recoveryUnits ∧ u.actionId ∉ ids ∨ u ∈ snapshot.units := by
  rcases List.mem_append.mp (mem_of_uniqueUnits hu) with hkept | hscanned
  · obtain ⟨hmem, hid⟩ := List.mem_filter.mp hkept
    exact .inl ⟨hmem, by simpa using hid⟩
  · exact .inr hscanned

theorem unburied_of_sameBoot
    (hunburied : ∀ u ∈ c.state.recoveryUnits, ∀ t ∈ c.state.actionTombstones,
      t.actionId ≠ u.actionId)
    (hsub : tombstones.Sublist (sameBootTombstones snapshot c).1)
    (hscanned : ∀ u ∈ snapshot.units, ∀ t ∈ tombstones, t.actionId ≠ u.actionId) :
    ∀ u ∈ sameBootRecoveryUnits c.state snapshot snapshot.verifiedTerminalIds,
      ∀ t ∈ tombstones, t.actionId ≠ u.actionId := by
  intro u hu t ht hid
  rcases mem_sameBootRecoveryUnits hu with ⟨hkept, hnot⟩ | hscan
  · rcases mem_of_mergeTombstones (hsub.subset ht) with hold | hnew
    · exact hunburied u hkept t hold hid
    · exact hnot (mem_verifiedTerminalIds.mpr ⟨t, (List.mem_filter.mp hnew).1, hid⟩)
  · exact hscanned u hscan t ht hid

variable (hbound : boundActionTombstones c.state.retains
    (uncontradicted snapshot (sameBootTombstones snapshot c).1) = .ok tombstones)
include hbound

/-- The ledger of the authorized state is in order unless evidence goes unnoticed. -/
theorem Unopposed.ledger_iff (h : Unopposed snapshot c) (hcoh : Coherent c.state) :
    Ledger (authorizedState controller snapshot c.state tombstones) ↔ ¬ Unended snapshot c := by
  have hsub := bounded_sublist hbound
  have hnodup := nodup_mergeTombstones c.state.actionTombstones
    (snapshot.evidence.filter (·.actionId ∉ deferredResultIds c))
  constructor
  · rintro hledger ⟨r, hr, hl, t, ht, hid⟩
    have hrecorded := (hledger.recorded r hr t.lifecycle).mp
      ⟨t, h.mem_bounded hbound hr ht hid, hid, rfl⟩
    rw [hl] at hrecorded
    exact absurd hrecorded.1 (by simp)
  · intro hended
    constructor
    case bounded => exact fun r hr _ => action_le_actionHighWater hr
    case tidy => exact (hsub.map _).nodup hnodup
    case buried => exact fun t ht _ => tombstone_le_actionHighWater ht
    case recorded =>
      intro r hr l
      have hown : r.lifecycle.terminal = true →
          ∃ t ∈ (sameBootTombstones snapshot c).1, t.actionId = r.actionId ∧
            t.lifecycle = r.lifecycle := by
        intro hterminal
        obtain ⟨t, ht, hid, hl⟩ := (hcoh.ledger.recorded r hr _).mpr ⟨hterminal, rfl⟩
        exact ⟨t, mem_mergeTombstones_of_persisted h.merged hcoh.ledger.tidy ht, hid, hl⟩
      constructor
      · rintro ⟨t, ht, hid, rfl⟩
        have hterminal : r.lifecycle.terminal = true := by
          by_contra hne
          exact hended ⟨r, hr, by simpa using hne, t, hsub.subset ht, hid⟩
        obtain ⟨u, hu, huid, hul⟩ := hown hterminal
        obtain rfl := List.inj_on_of_nodup_map hnodup (hsub.subset ht) hu (hid.trans huid.symm)
        exact ⟨hterminal, hul⟩
      · rintro ⟨hterminal, rfl⟩
        obtain ⟨t, ht, hid, hl⟩ := hown hterminal
        exact ⟨t, h.mem_bounded hbound hr ht hid, hid, hl⟩
    case units_nodup => exact nodup_uniqueUnits _
    case units_bounded => exact fun u hu _ => unit_le_actionHighWater hu
    case units_unburied =>
      exact unburied_of_sameBoot hcoh.ledger.units_unburied hsub
        fun u hu t ht => h.scanned u hu t (hsub.subset ht)
    case running =>
      intro u hu
      rcases mem_sameBootRecoveryUnits hu with ⟨hkept, -⟩ | hscan
      · exact hcoh.ledger.running u hkept
      · exact h.related.running hscan
    case transitions => exact fun t ht _ => le_transitionHighWater ht

theorem Unopposed.authorizedState_checked (h : Unopposed snapshot c) (hcoh : Coherent c.state) :
    assertControllerInvariants (authorizedState controller snapshot c.state tombstones) = .ok () ↔
      ¬ Unended snapshot c := by
  have hledger : Ledger (authorizedState controller snapshot c.state tombstones) ↔ _ :=
    h.ledger_iff hbound hcoh
  rw [← hledger, coherent_iff (s := authorizedState controller snapshot c.state tombstones)
    hcoh.live]
  constructor
  · exact Coherent.ledger
  · intro hledger
    exact { hcoh with ledger := hledger }

end Authorized

/-- A retained action which has not ended has terminal evidence, but no result which could be
replayed for it. -/
def Overlooked (s : State) (snapshot : WorkerNamespaceSnapshot) : Prop :=
  ∃ r ∈ s.actions, r.lifecycle.terminal = false ∧ r.actionId ∈ snapshot.verifiedTerminalIds ∧
    (r.kind = .plan ∨ r.actionId ∉ snapshot.verifiedResults.map (·.actionId))

section Unnoticed

variable {s : State} {snapshot : WorkerNamespaceSnapshot} {c : Reconciliation}

/-- Evidence of an action is merged unless it is deferred. -/
theorem evidence_iff {r : ActionRecord} (h : Coherent c.state) (hr : r ∈ c.state.actions)
    (hl : r.lifecycle.terminal = false) :
    (∃ t ∈ (sameBootTombstones snapshot c).1, t.actionId = r.actionId) ↔
      r.actionId ∈ snapshot.verifiedTerminalIds ∧ r.actionId ∉ deferredResultIds c := by
  rw [mem_verifiedTerminalIds, ← List.mem_map, sameBootTombstones, mergeTombstones_ids]
  simp only [List.mem_map, List.mem_append]
  constructor
  · rintro ⟨t, ht | ht, hid⟩
    · have hrecorded := (h.ledger.recorded r hr t.lifecycle).mp ⟨t, ht, hid, rfl⟩
      rw [hl] at hrecorded
      exact absurd hrecorded.1 (by simp)
    · obtain ⟨hevidence, hnot⟩ := List.mem_filter.mp ht
      exact ⟨⟨t, hevidence, hid⟩, by simpa [hid] using hnot⟩
  · rintro ⟨⟨t, ht, hid⟩, hnot⟩
    exact ⟨t, .inr (List.mem_filter.mpr ⟨ht, by simpa [hid] using hnot⟩), hid⟩

theorem mem_deferredResultIds {r : ActionRecord} (hr : r ∈ c.state.actions) :
    r.actionId ∈ deferredResultIds c ↔ r.actionId ∈ c.matched ∧ r.lifecycle = .resultPending := by
  simp [deferredResultIds, State.actionForId_of_mem hr]

theorem Coherent.not_pending_of_plan (h : Coherent s) {r : ActionRecord} (hr : r ∈ s.actions)
    (hk : r.kind = .plan) : r.lifecycle ≠ .resultPending := by
  cases r with
  | planning p =>
    have hp := State.planning_of_mem hr
    have hfits := h.planning_fits
    rw [hp] at hfits
    intro hl
    change p.lifecycle = .resultPending at hl
    cases hstate : s.planningState <;>
      simp_all [Fits, expectedPlanning, failedLifecycles]
  | _ => cases hk

variable (h : Progress s (sortedByAction (·.actionId) snapshot.verifiedResults) c)
include h

/-- Whether evidence goes unnoticed shows in the persisted state. -/
theorem Progress.unended_iff (hreasons : c.reasons = []) :
    Unended snapshot c ↔ Overlooked s snapshot := by
  have hresults : ∀ a : ActionId,
      a ∈ (sortedByAction (·.actionId) snapshot.verifiedResults).map (·.actionId) ↔
        a ∈ snapshot.verifiedResults.map (·.actionId) := by
    simp
  have hplan : ∀ r ∈ s.actions, r.kind = .plan → r ∈ c.state.actions := by
    intro r hr hk
    exact h.unfolded r hr fun v _ hfolded => (related_of_none hfolded.2.1).1 hk
  constructor
  · rintro ⟨r, hr, hl, hevidence⟩
    obtain ⟨hverified, hdeferred⟩ := (evidence_iff h.coherent hr hl).mp hevidence
    rw [mem_deferredResultIds hr] at hdeferred
    by_cases hk : r.kind = .plan
    · obtain ⟨q, hq, hid⟩ := h.origin r hr
      have hqk : q.kind = .plan := by
        rw [← q.kind_eq, hid, r.kind_eq, hk]
      obtain rfl := State.eq_of_actionId hr (hplan q hq hqk) hid
      exact ⟨q, hq, hl, hverified, .inl hk⟩
    · have hnone : r.actionId ∉ snapshot.verifiedResults.map (·.actionId) := by
        intro hmem
        obtain ⟨v, hv, hid⟩ := List.mem_map.mp hmem
        obtain ⟨hmatched, hended⟩ := h.settled hreasons v (mem_sortedByAction.mpr hv) r hr
          hid.symm hk
        rcases hended with hended | hpending
        · exact absurd (hl.symm.trans hended) (by simp)
        · exact hdeferred ⟨hid ▸ hmatched, hpending⟩
      have hmem := (h.reconciles.actions r (mt (hresults _).mp hnone)).mp hr
      exact ⟨r, hmem, hl, hverified, .inr hnone⟩
  · rintro ⟨r, hr, hl, hverified, hk⟩
    have hmem : r ∈ c.state.actions := by
      rcases hk with hk | hnone
      · exact hplan r hr hk
      · exact (h.reconciles.actions r (mt (hresults _).mp hnone)).mpr hr
    refine ⟨r, hmem, hl, (evidence_iff h.coherent hmem hl).mpr ⟨hverified, ?_⟩⟩
    rw [mem_deferredResultIds hmem]
    rintro ⟨hmatched, hpending⟩
    rcases hk with hk | hnone
    · exact h.coherent.not_pending_of_plan hmem hk hpending
    · exact hnone ((hresults _).mp (h.reconciles.matched _ hmatched))

end Unnoticed

/-- On the same boot every result can be replayed, and evidence of an action which has not ended
and has no result of its own meets another reason against authority. -/
def Replayable (s : State) (snapshot : WorkerNamespaceSnapshot) : Prop :=
  (∀ v ∈ snapshot.verifiedResults, Foldable s snapshot.verifiedResults v) ∧
    (Overlooked s snapshot → ¬ Accordant s snapshot)

/-- What the exits of the same boot ask of a reconciliation. -/
structure Readied (s : State) (snapshot : WorkerNamespaceSnapshot) (c : Reconciliation) : Prop where
  unburied : ∀ u ∈ c.state.recoveryUnits, ∀ t ∈ c.state.actionTombstones, t.actionId ≠ u.actionId
  checked : ∀ controller tombstones, sameBootReasons snapshot c = [] →
    boundActionTombstones c.state.retains
      (uncontradicted snapshot (sameBootTombstones snapshot c).1) = .ok tombstones →
    (assertControllerInvariants (authorizedState controller snapshot c.state tombstones) = .ok () ↔
      ¬ Overlooked s snapshot)
  accordant : Overlooked s snapshot → (sameBootReasons snapshot c = [] ↔ Accordant s snapshot)

section SameBoot

variable {s : State} {snapshot : WorkerNamespaceSnapshot}

theorem reconcileVerifiedResults_of_idle (hactions : s.actions = [])
    (results : List VerifiedWorkerResult) :
    MonitorController.reconcileVerifiedResults s results = .ok { state := s } := by
  unfold MonitorController.reconcileVerifiedResults
  induction sortedByAction (·.actionId) results with
  | nil => rfl
  | cons v rest ih =>
    have hnone : s.actionForId v.actionId = none := by
      simp [State.actionForId, hactions]
    have hpass : reconcileResult { state := s } v = .ok { state := s } := by
      simp only [reconcileResult, hnone]
    rw [List.foldlM_cons, hpass]
    exact ih

/-- A recovering state goes on without a unit. -/
theorem authorizedState_recovering (hp : s.phase = .recovering) (hactions : s.actions = [])
    (hchecked : assertControllerInvariants s = .ok ()) {controller : ControllerInstanceId}
    {tombstones : List ActionTombstone} (h : Unopposed snapshot { state := s })
    (hsub : tombstones.Sublist (sameBootTombstones snapshot { state := s }).1) :
    assertControllerInvariants (authorizedState controller snapshot s tombstones) = .ok () := by
  have hunits : sameBootRecoveryUnits s snapshot snapshot.verifiedTerminalIds = [] := by
    refine List.eq_nil_iff_forall_not_mem.mpr fun u hu => ?_
    have howner : ∃ r ∈ s.actions, r.unit?.isSome = true ∧ r.actionId.value = u.actionId.value := by
      rcases List.mem_append.mp (mem_of_uniqueUnits hu) with hkept | hscanned
      · exact h.related.retained u hkept
      · exact h.related.live u hscanned
    obtain ⟨r, hr, -⟩ := howner
    rw [hactions] at hr
    cases hr
  have harchived : Archived (authorizedState controller snapshot s tombstones) := by
    have hnone : ∀ u, u ∉ (authorizedState controller snapshot s tombstones).recoveryUnits := by
      intro u hu
      change u ∈ sameBootRecoveryUnits s snapshot snapshot.verifiedTerminalIds at hu
      rw [hunits] at hu
      cases hu
    constructor
    case tidy => exact (hsub.map _).nodup (nodup_mergeTombstones _ _)
    case buried => exact fun t ht _ => tombstone_le_actionHighWater ht
    case units_nodup => exact nodup_uniqueUnits _
    case units_bounded => exact fun u hu => absurd hu (hnone u)
    case units_unburied => exact fun u hu => absurd hu (hnone u)
  have hids := (checkActionIdentities_recovering (s := authorizedState controller snapshot s
    tombstones) hp hactions).mpr harchived
  simp only [assertControllerInvariants, seq_eq_ok] at hchecked ⊢
  obtain ⟨hphase, hplanning, -, hrest⟩ := hchecked
  exact ⟨hphase, hplanning, hids, hrest⟩

variable (hpersistable : Persistable s) (hchecked : assertControllerInvariants s = .ok ())
include hpersistable hchecked

/-- The results of a valid state are folded in exactly when each of them is permitted. -/
theorem readied :
    Guarded (MonitorController.reconcileVerifiedResults s snapshot.verifiedResults)
      (∀ v ∈ snapshot.verifiedResults, Foldable s snapshot.verifiedResults v)
      (Readied s snapshot) := by
  by_cases hp : s.phase = .recovering
  · have hactions := (hpersistable.recovering hp).1
    rw [reconcileVerifiedResults_of_idle hactions]
    have hnone : ¬ Overlooked s snapshot := by
      rintro ⟨r, hr, -⟩
      rw [hactions] at hr
      cases hr
    have hready : Readied s snapshot { state := s } := by
      refine ⟨hpersistable.possiblyLive, fun controller tombstones hreasons hbound => ?_,
        fun hoverlooked => absurd hoverlooked hnone⟩
      exact iff_of_true (authorizedState_recovering hp hactions hchecked (.of_reasons hreasons)
        (bounded_sublist hbound)) hnone
    refine (Guarded.of_ok hready).congr (iff_of_true trivial fun v hv r hr => ?_)
    rw [hactions] at hr
    cases hr
  · have hcoh := (coherent_iff hp).mp hchecked
    refine (hcoh.reconcileVerifiedResults snapshot.results_unique).mono fun c hc => ?_
    refine ⟨hc.coherent.ledger.units_unburied, fun controller tombstones hreasons hbound => ?_,
      fun _ => hc.sameBootReasons_eq_nil⟩
    have hopposed := Unopposed.of_reasons hreasons
    rw [hopposed.authorizedState_checked hbound hc.coherent, hc.unended_iff hopposed.reasons]

omit hpersistable hchecked in
theorem Readied.denied {c : Reconciliation} (h : Readied s snapshot c) {boot : BootId}
    {controller : ControllerInstanceId} {display : DisplayIdentity}
    {tombstones : List ActionTombstone}
    (hbound : boundActionTombstones c.state.retains
      (uncontradicted snapshot (sameBootTombstones snapshot c).1) = .ok tombstones) :
    assertControllerInvariants (minimumRecoveryState boot controller display snapshot tombstones
      (some c.state) (sameBootRecoveryUnits c.state snapshot snapshot.verifiedTerminalIds)) =
        .ok () := by
  have hsub := bounded_sublist hbound
  refine minimumRecoveryState_checked ((hsub.map _).nodup (nodup_mergeTombstones _ _)) ?_
  exact unburied_of_sameBoot h.unburied hsub (uncontradicted_bounded hbound)

/-- On the same boot recovery returns exactly when the evidence is replayable. -/
theorem recoverSameBoot_guarded {boot : BootId} {controller : ControllerInstanceId}
    {display : DisplayIdentity} :
    Guarded (recoverSameBoot s boot controller display snapshot) (Replayable s snapshot)
      fun result => assertControllerInvariants result.state = .ok () := by
  have hready : Guarded (MonitorController.reconcileVerifiedResults s snapshot.verifiedResults) _
      (Readied s snapshot) := readied hpersistable hchecked
  have hbounded : ∀ c : Reconciliation, ∃ tombstones, boundActionTombstones c.state.retains
      (uncontradicted snapshot (sameBootTombstones snapshot c).1) = .ok tombstones := by
    intro c
    refine ⟨_, State.boundActionTombstones_eq_ok ?_⟩
    exact ((uncontradicted_sublist snapshot).map _).nodup (nodup_mergeTombstones _ _)
  constructor
  · rintro ⟨hfoldable, hmasked⟩
    obtain ⟨c, hc, hreadied⟩ := hready.returns hfoldable
    obtain ⟨tombstones, hbound⟩ := hbounded c
    unfold recoverSameBoot
    rw [hc, ok_bind]
    dsimp only
    rw [hbound, ok_bind]
    split
    next =>
      refine (denyAuthority_returns (hreadied.denied hbound)).mono fun result hresult => ?_
      exact hresult.1 ▸ hreadied.denied hbound
    next hreasons =>
      rw [not_not] at hreasons
      have hstate := (hreadied.checked controller tombstones hreasons hbound).mpr
        fun hoverlooked => hmasked hoverlooked ((hreadied.accordant hoverlooked).mp hreasons)
      rw [hstate, ok_bind]
      exact .of_ok hstate
  · intro result hresult
    obtain ⟨c, tombstones, hc, hbound, hstate, hexit⟩ := recoverSameBoot_cases hresult
    obtain ⟨hfoldable, hreadied⟩ := hready.ensures c hc
    refine ⟨⟨hfoldable, fun hoverlooked => ?_⟩, hstate⟩
    rcases hexit with ⟨hreasons, -⟩ | ⟨hreasons, -, heq⟩
    · exact mt (hreadied.accordant hoverlooked).mpr hreasons
    · rw [heq] at hstate
      exact absurd hoverlooked ((hreadied.checked controller tombstones hreasons hbound).mp hstate)

end SameBoot

/-- Evidence which speaks against authority. -/
inductive Contradicted (persisted : Option State) (boot : BootId) (display : DisplayIdentity) :
    Except String WorkerNamespaceSnapshot → Prop
  | unscanned (error : String) : Contradicted persisted boot display (.error error)
  | ambiguous {snapshot} (h : snapshot.ambiguities ≠ []) :
    Contradicted persisted boot display (.ok snapshot)
  | repeated {snapshot} (h : ¬ (snapshot.units.map (·.actionId)).Nodup) :
    Contradicted persisted boot display (.ok snapshot)
  | alive {snapshot} (u) (hu : u ∈ snapshot.units) (h : u.actionId ∈ snapshot.verifiedTerminalIds) :
    Contradicted persisted boot display (.ok snapshot)
  | disputed {snapshot} (t u) (ht : t ∈ snapshot.evidence) (hu : u ∈ snapshot.evidence)
    (hid : t.actionId = u.actionId) (h : Disputes t.lifecycle u.lifecycle)
    (h' : Disputes u.lifecycle t.lifecycle) : Contradicted persisted boot display (.ok snapshot)
  | unknown {snapshot} (hnone : persisted = none) (h : snapshot.units ≠ []) :
    Contradicted persisted boot display (.ok snapshot)
  | displaced {snapshot} (s) (hs : s ∈ persisted) (h : s.displayIdentity ≠ display) :
    Contradicted persisted boot display (.ok snapshot)
  | unaccounted {snapshot} (s) (hs : s ∈ persisted) (h : ¬ Accounts snapshot s) :
    Contradicted persisted boot display (.ok snapshot)
  | overruled {snapshot} (s) (hs : s ∈ persisted) (r) (hr : r ∈ s.actions)
    (hl : r.lifecycle.terminal = true) (t) (ht : t ∈ snapshot.evidence)
    (hid : t.actionId = r.actionId) (h : Disputes r.lifecycle t.lifecycle) :
    Contradicted persisted boot display (.ok snapshot)
  | overlooked {snapshot} (s) (hs : s ∈ persisted) (h : Overlooked s snapshot) :
    Contradicted persisted boot display (.ok snapshot)

theorem Undisputed.not_both {tombstones : List ActionTombstone} (h : Undisputed tombstones)
    {t u : ActionTombstone} (ht : t ∈ tombstones) (hu : u ∈ tombstones)
    (hid : t.actionId = u.actionId) :
    ¬ (Disputes t.lifecycle u.lifecycle ∧ Disputes u.lifecycle t.lifecycle) := by
  have hfound : tombstones.find? (·.actionId = t.actionId) ≠ none := by
    rw [Ne, List.find?_eq_none]
    exact fun hnone => hnone t ht (by simp)
  obtain ⟨first, hfirst⟩ := Option.ne_none_iff_exists'.mp hfound
  have htf := h t ht first hfirst
  have huf := h u hu first (hid ▸ hfirst)
  rintro ⟨⟨hne, hstrict⟩, -, hstrict'⟩
  rcases not_disputes.mp htf with hft | ⟨hfailed, hcompleted⟩ <;>
    rcases not_disputes.mp huf with hfu | ⟨hfailed', hcompleted'⟩
  · exact hne (hft.symm.trans hfu)
  · exact hstrict ⟨hft ▸ hfailed', hcompleted'⟩
  · exact hstrict' ⟨hfu ▸ hfailed, hcompleted⟩
  · exact hne (hcompleted.trans hcompleted'.symm)

section Denied

variable {s : State} {snapshot : WorkerNamespaceSnapshot} {c : Reconciliation}

theorem Progress.undisputed
    (h : Progress s (sortedByAction (·.actionId) snapshot.verifiedResults) c)
    (hreasons : sameBootReasons snapshot c = []) {r : ActionRecord} (hr : r ∈ s.actions)
    (hl : r.lifecycle.terminal = true) {t : ActionTombstone} (ht : t ∈ snapshot.evidence)
    (hid : t.actionId = r.actionId) : ¬ Disputes r.lifecycle t.lifecycle := by
  have hmem : r ∈ c.state.actions := by
    refine h.unfolded r hr ?_
    rintro v - ⟨-, -, hlive | hlive | hlive⟩ <;> rw [hlive] at hl <;> cases hl
  obtain ⟨u, hu, huid, hul⟩ := (h.coherent.ledger.recorded r hmem _).mpr ⟨hl, rfl⟩
  have haccordant := h.sameBootReasons_eq_nil.mp hreasons
  have hupheld := haccordant.upheld u (h.mem_tombstones.mp hu) t ht (hid.trans huid.symm)
  rwa [hul] at hupheld

end Denied

/-- Contradicted evidence gives no authority. -/
theorem denied_of_contradicted {persisted : Option State} {boot : BootId}
    {controller : ControllerInstanceId} {display : DisplayIdentity}
    {scan : Except String WorkerNamespaceSnapshot} {corruption : Option String}
    {result : RecoveryResult} (hvalid : ∀ s ∈ persisted, validateState s = .ok ())
    (hresult : recoverState persisted boot controller display scan corruption = .ok result)
    (h : Contradicted persisted boot display scan) : result.authorityAllowed = false := by
  by_contra hauthority
  rw [Bool.not_eq_false] at hauthority
  obtain ⟨snapshot, rfl, hreasons, hcases⟩ := recoverState_authority hresult hauthority
  obtain ⟨hambiguities, hunits, hundisputed, hlive⟩ := snapshotReasons_eq_nil.mp hreasons
  have hsame : ∀ s ∈ persisted, s.displayIdentity = display ∧ ∃ c,
      reconcileVerifiedResults s snapshot.verifiedResults = .ok c ∧
        sameBootReasons snapshot c = [] ∧ Accounts snapshot s ∧ ¬ Overlooked s snapshot := by
    intro s hs
    rcases hcases with ⟨hnone, -⟩ | ⟨s', hs', -, hdisplay, c, tombstones, hc, hbound, hchecked,
      hall, hstate⟩
    · rw [hnone] at hs
      cases hs
    · obtain rfl := Option.mem_unique hs hs'
      obtain ⟨-, hpersistable, hcheckeds⟩ := validateState_eq_ok.mp (hvalid s hs)
      obtain ⟨haccounts, -⟩ := accounts_of_authority hpersistable hc hbound hall hstate hchecked
      obtain ⟨-, hreadied⟩ := (readied hpersistable hcheckeds).ensures c hc
      exact ⟨hdisplay, c, hc, hall, haccounts,
        (hreadied.checked controller tombstones hall hbound).mp (hstate ▸ hchecked)⟩
  cases h with
  | ambiguous h => exact h hambiguities
  | repeated h => exact h (unitMap_reasons.mp hunits)
  | alive u hu h => exact hlive u hu h
  | disputed t u ht hu hid h h' => exact hundisputed.not_both ht hu hid ⟨h, h'⟩
  | unknown hnone h =>
    rcases hcases with ⟨-, hempty⟩ | ⟨s, hs, -⟩
    · exact h hempty
    · rw [hnone] at hs
      cases hs
  | displaced s hs h => exact h (hsame s hs).1
  | unaccounted s hs h =>
    obtain ⟨-, c, -, -, haccounts, -⟩ := hsame s hs
    exact h haccounts
  | overruled s hs r hr hl t ht hid h =>
    obtain ⟨-, c, hc, hall, -⟩ := hsame s hs
    obtain ⟨-, hpersistable, hchecked⟩ := validateState_eq_ok.mp (hvalid s hs)
    have hp : s.phase ≠ .recovering := by
      intro hp
      rw [(hpersistable.recovering hp).1] at hr
      cases hr
    obtain ⟨-, hprogress⟩ := (((coherent_iff hp).mp hchecked).reconcileVerifiedResults
      snapshot.results_unique).ensures c hc
    exact hprogress.undisputed hall hr hl ht hid h
  | overlooked s hs h =>
    obtain ⟨-, c, -, -, -, hnot⟩ := hsame s hs
    exact hnot h

theorem denyAuthority_guarded {s : State} {reasons : List String} {hs : s.phase = .recovering}
    (h : assertControllerInvariants s = .ok ()) :
    Guarded (denyAuthority s reasons hs) True fun result =>
      assertControllerInvariants result.state = .ok () := by
  have hreturns : Returns (denyAuthority s reasons hs) _ := denyAuthority_returns h
  obtain ⟨result, hresult, hstate, -⟩ := hreturns
  rw [hresult]
  exact .of_ok (hstate ▸ h)

/-- Recovery returns exactly when the evidence of the same boot and display is replayable. -/
theorem recoverState_guarded {persisted : Option State} {boot : BootId}
    {controller : ControllerInstanceId} {display : DisplayIdentity}
    {scan : Except String WorkerNamespaceSnapshot} {corruption : Option String}
    (hvalid : ∀ s ∈ persisted, validateState s = .ok ()) :
    Guarded (recoverState persisted boot controller display scan corruption)
      (∀ snapshot, scan = .ok snapshot → ∀ s ∈ persisted, s.displayIdentity = display →
        s.bootId = boot → Replayable s snapshot)
      fun result => assertControllerInvariants result.state = .ok () := by
  cases scan with
  | error error =>
    refine (denyAuthority_guarded ?_).congr (iff_of_true trivial (by rintro snapshot ⟨⟩))
    exact minimumRecoveryState_checked List.nodup_nil fun _ _ t ht => nomatch ht
  | ok snapshot =>
    obtain ⟨tombstones, hbound, hsub⟩ := boundActionTombstones_unprotected
      (l := uncontradicted snapshot (mergeTombstones [] snapshot.evidence).1)
    obtain ⟨hnodup, hscanned⟩ := uncontradicted_merge hsub
    change Guarded (recoverScanned persisted boot controller display snapshot corruption) _ _
    simp only [recoverScanned, snapshotTombstones, hbound, ok_bind]
    cases persisted with
    | none =>
      have hchecked : assertControllerInvariants (minimumRecoveryState boot controller display
          snapshot tombstones none snapshot.units) = .ok () :=
        minimumRecoveryState_checked hnodup hscanned
      simp only [hchecked, ok_bind]
      constructor
      · exact fun _ => ⟨_, rfl, hchecked⟩
      · rintro result ⟨⟩
        refine ⟨?_, hchecked⟩
        rintro _ _ s ⟨⟩
    | some s =>
      obtain ⟨-, hpersistable, hchecked⟩ := validateState_eq_ok.mp (hvalid s rfl)
      simp only [Except.ok.injEq, forall_eq', Option.mem_some_iff]
      split
      next hdisplay =>
        refine (denyAuthority_guarded (minimumRecoveryState_checked hnodup hscanned)).congr
          (iff_of_true trivial fun hsame => absurd hsame hdisplay)
      next hdisplay =>
        split
        next hboot =>
          refine (denyAuthority_guarded (bootMismatchState_checked hnodup hscanned)).congr
            (iff_of_true trivial fun _ hsame => absurd hsame hboot)
        next hboot =>
          rw [not_not] at hdisplay hboot
          refine (recoverSameBoot_guarded hpersistable hchecked).congr ?_
          simp only [hdisplay, hboot, forall_const]

namespace Scenario

theorem completed_terminal : ActionLifecycle.completed.terminal = true := rfl

/-- The scan finds a verified tombstone of the load, but no result. -/
def buriedScan : WorkerNamespaceSnapshot :=
  { verifiedTombstones := [⟨load, .completed, completed_terminal⟩]
    results_agree := by rintro r ⟨⟩ }

end Scenario

end MonitorController
