import MonitorController.Recovery.Exits

/-! # Evidence which agrees with the persisted state

On the same boot there is no reason against authority exactly when the snapshot
agrees with the persisted state, before any of its results is replayed.
-/

namespace MonitorController

open Outcome

/-- The units found alive are those of running workers, and every worker in flight was found or
has ended. -/
structure Supervised (snapshot : WorkerNamespaceSnapshot) (s : State) : Prop where
  live : ∀ u ∈ snapshot.units, ∃ r ∈ s.actions,
    (r.lifecycle = .dispatched ∨ r.lifecycle = .stopping) ∧ r.unit? = some u
  workers : ∀ r ∈ s.actions, r.kind ≠ .plan → r.lifecycle.mutatingInFlight = true →
    r.actionId ∈ snapshot.scannedIds ∨ r.actionId ∈ snapshot.verifiedTerminalIds

section Units

variable {snapshot : WorkerNamespaceSnapshot} {s t : State}

theorem ActionRecord.kind_of_unit? {r : ActionRecord} {u : WorkerUnit} (h : r.unit? = some u) :
    r.kind ≠ .plan := by
  cases r with
  | planning a => cases h
  | _ => rintro ⟨⟩

theorem State.eq_of_unit? {r q : ActionRecord} {u v : WorkerUnit} (hr : r ∈ s.actions)
    (hq : q ∈ s.actions) (hu : r.unit? = some u) (hv : q.unit? = some v)
    (hkey : u.actionId.value = v.actionId.value) : r = q := by
  refine State.eq_of_actionId hq hr ?_
  rw [← ActionRecord.unit?_matches hu, ← ActionRecord.unit?_matches hv, ActionId.value_inj hkey]

/-- In a coherent state the units and the workers account for each other by their records. -/
theorem Coherent.relationshipReasons_eq_nil (h : Coherent s) :
    sameBootRelationshipReasons s snapshot snapshot.verifiedTerminalIds = [] ↔
      (unitMap snapshot.units).2 = [] ∧ Supervised snapshot s := by
  constructor
  · intro hreasons
    have hrelated := Related.of_reasons hreasons
    refine ⟨hrelated.unique, fun u hu => hrelated.running hu, fun r hr hk hl => ?_⟩
    obtain ⟨v, hv⟩ := unit?_of_checked ((coherent_iff h.live).mpr h) hr hk hl
    have hreason := (workerReason_eq_nil hv).mp (hrelated.workers r hr)
    cases hscanned : (unitMap snapshot.units).1.get? r.actionId.value with
    | none => exact .inr (hreason.1 hscanned hl)
    | some u =>
      obtain ⟨hu, hkey⟩ := mem_of_get?_unitMap hscanned
      exact .inl (List.mem_map.mpr ⟨u, hu, ActionId.value_inj hkey⟩)
  · rintro ⟨hunique, hsupervised⟩
    have mapped {units : List WorkerUnit} {k : String} (hk : k ∈ (unitMap units).1.keys) :
        ∃ u ∈ units, u.actionId.value = k := by
      obtain ⟨u, hu⟩ := Option.ne_none_iff_exists'.mp (mt Dict.get?_eq_none.mp (not_not.mpr hk))
      exact ⟨u, mem_of_get?_unitMap hu⟩
    have running {u : WorkerUnit} (hu : u ∈ retainedUnits s snapshot.verifiedTerminalIds) :
        ∃ r ∈ s.actions, (r.lifecycle = .dispatched ∨ r.lifecycle = .stopping) ∧
          r.unit? = some u := h.ledger.running u (List.mem_filter.mp hu).1
    have expected {r : ActionRecord} {u : WorkerUnit} (hr : r ∈ s.actions)
        (hu : r.unit? = some u) :
        u.actionId.value ∈ (s.actions.filter (·.unit?.isSome)).map (·.actionId.value) := by
      refine List.mem_map.mpr ⟨r, List.mem_filter.mpr ⟨hr, by simp [hu]⟩, ?_⟩
      rw [ActionRecord.unit?_matches hu]
    have hretained : (unitMap (retainedUnits s snapshot.verifiedTerminalIds)).2 = [] := by
      rw [unitMap_reasons]
      exact (List.filter_sublist.map _).nodup h.ledger.units_nodup
    have hdiffering : ∀ k ∈ (unitMap snapshot.units).1.keys,
        (unitMap (retainedUnits s snapshot.verifiedTerminalIds)).1.get? k ≠ none →
        (unitMap snapshot.units).1.get? k =
          (unitMap (retainedUnits s snapshot.verifiedTerminalIds)).1.get? k := by
      intro k hk hne
      obtain ⟨u, hu, rfl⟩ := mapped hk
      obtain ⟨v, hv⟩ := Option.ne_none_iff_exists'.mp hne
      obtain ⟨hvmem, hkey⟩ := mem_of_get?_unitMap hv
      obtain ⟨r, hr, -, hru⟩ := hsupervised.live u hu
      obtain ⟨q, hq, -, hqv⟩ := running hvmem
      obtain rfl := State.eq_of_unit? hr hq hru hqv hkey.symm
      rw [get?_unitMap_of_mem hunique hu, hv, ← hru, hqv]
    have hworkers : ∀ r ∈ s.actions,
        workerReason (unitMap snapshot.units).1 snapshot.verifiedTerminalIds r = [] := by
      intro r hr
      cases hunit : r.unit? with
      | none => simp [workerReason, hunit]
      | some v =>
        refine (workerReason_eq_nil hunit).mpr ⟨fun hnone hl => ?_, fun u hu => ?_⟩
        · refine (hsupervised.workers r hr (ActionRecord.kind_of_unit? hunit) hl).resolve_left ?_
          intro hscanned
          obtain ⟨u, hu, hid⟩ := List.mem_map.mp hscanned
          have hfound := get?_unitMap_of_mem hunique hu
          rw [hid, hnone] at hfound
          cases hfound
        · obtain ⟨hmem, hkey⟩ := mem_of_get?_unitMap hu
          obtain ⟨q, hq, hl, hqu⟩ := hsupervised.live u hmem
          rw [← ActionRecord.unit?_matches hunit] at hkey
          obtain rfl := State.eq_of_unit? hq hr hqu hunit hkey
          exact ⟨Option.some.inj (hqu.symm.trans hunit), hl⟩
    simp only [sameBootRelationshipReasons, List.append_eq_nil_iff, List.map_eq_nil_iff,
      List.flatMap_eq_nil_iff, List.filter_eq_nil_iff, decide_eq_true_eq, not_and, not_not]
    refine ⟨⟨⟨⟨⟨hunique, hretained⟩, hdiffering⟩, hworkers⟩, fun k hk hnot => ?_⟩, fun k hk => ?_⟩
    · obtain ⟨u, hu, rfl⟩ := mapped hk
      obtain ⟨r, hr, -, hru⟩ := hsupervised.live u hu
      exact absurd (expected hr hru) hnot
    · obtain ⟨u, hu, rfl⟩ := mapped hk
      obtain ⟨r, hr, -, hru⟩ := running hu
      exact expected hr hru

theorem Supervised.congr (h : Supervised snapshot s)
    (hdead : ∀ u ∈ snapshot.units, u.actionId ∉ snapshot.verifiedTerminalIds)
    (hsame : ∀ q : ActionRecord, q.actionId ∉ snapshot.verifiedTerminalIds →
      (q ∈ s.actions ↔ q ∈ t.actions)) : Supervised snapshot t := by
  constructor
  · intro u hu
    obtain ⟨r, hr, hl, hunit⟩ := h.live u hu
    have hid := ActionRecord.unit?_matches hunit
    exact ⟨r, (hsame r (hid ▸ hdead u hu)).mp hr, hl, hunit⟩
  · intro r hr hk hl
    by_cases hverified : r.actionId ∈ snapshot.verifiedTerminalIds
    · exact .inr hverified
    · exact h.workers r ((hsame r hverified).mpr hr) hk hl

end Units

/-- The snapshot gives no reason against the authority of a persisted state: it is unambiguous,
none of its units is repeated or has ended, its evidence disputes neither itself nor the tombstones
which replaying its results leaves, it proves no other profile, its results agree with what the
state has of their workers, and its units and the workers account for each other. -/
structure Accordant (s : State) (snapshot : WorkerNamespaceSnapshot) : Prop where
  unambiguous : snapshot.ambiguities = []
  single : (snapshot.units.map (·.actionId)).Nodup
  undisputed : Undisputed snapshot.evidence
  dead : ∀ u ∈ snapshot.units, u.actionId ∉ snapshot.verifiedTerminalIds
  upheld : ∀ t ∈ s.outlasting (burials s snapshot.verifiedResults).length ++
      burials s snapshot.verifiedResults,
    ∀ u ∈ snapshot.evidence, u.actionId = t.actionId → ¬ Disputes t.lifecycle u.lifecycle
  finalized : ∀ profile ∈ snapshot.verifiedFinalizedProfile,
    s.desktopFinalizedProfile = some profile
  answered : ∀ v ∈ snapshot.verifiedResults, Answered s v
  supervised : Supervised snapshot s

section Evidence

variable {s : State} {snapshot : WorkerNamespaceSnapshot} {c : Reconciliation}

theorem Coherent.terminalEvidence_eq_nil (h : Coherent s) :
    persistedTerminalEvidenceReasons s = [] := by
  rw [persistedTerminalEvidenceReasons, List.append_eq_nil_iff, List.flatMap_eq_nil_iff,
    List.map_eq_nil_iff, List.filter_eq_nil_iff]
  constructor
  · intro r hr
    have hfound : ∀ t ∈ s.tombstoneOf r.actionId,
        r.lifecycle.terminal = true ∧ t.lifecycle = r.lifecycle := by
      intro t ht
      obtain ⟨hmem, hid⟩ := State.mem_tombstoneOf ht
      exact (h.ledger.recorded r hr _).mp ⟨t, hmem, hid, rfl⟩
    have hlacks : ¬ (r.lifecycle.terminal = true ∧
        ∀ t ∈ s.tombstoneOf r.actionId, t.lifecycle ≠ r.lifecycle) := by
      rintro ⟨hl, hnone⟩
      obtain ⟨t, ht, hid, hlt⟩ := (h.ledger.recorded r hr _).mpr ⟨hl, rfl⟩
      exact hnone t (hid ▸ h.ledger.tidy.tombstoneOf ht) hlt
    have hconflicts : ¬ ∃ t ∈ s.tombstoneOf r.actionId,
        r.lifecycle.terminal = false ∨ t.lifecycle ≠ r.lifecycle := by
      rintro ⟨t, ht, hl | hne⟩
      · exact absurd (hfound t ht).1 (by simp [hl])
      · exact hne (hfound t ht).2
    rw [terminalEvidenceReason, if_neg hlacks, if_neg hconflicts]
  · intro u hu hany
    obtain ⟨t, ht, hid⟩ := List.any_eq_true.mp hany
    exact h.ledger.units_unburied u hu t ht (of_decide_eq_true hid)

theorem profileReasons_eq_nil :
    profileReasons snapshot s = [] ↔
      ∀ profile ∈ snapshot.verifiedFinalizedProfile, s.desktopFinalizedProfile = some profile := by
  cases hprofile : snapshot.verifiedFinalizedProfile with
  | none => simp [profileReasons, hprofile]
  | some profile => simp [profileReasons, hprofile, eq_comm]

theorem mem_verifiedTerminalIds {a : ActionId} :
    a ∈ snapshot.verifiedTerminalIds ↔ ∃ t ∈ snapshot.evidence, t.actionId = a := by
  simp [WorkerNamespaceSnapshot.verifiedTerminalIds]

/-- A deferred result has no tombstone yet. -/
theorem Coherent.not_deferred (h : Coherent c.state) {t : ActionTombstone}
    (ht : t ∈ c.state.actionTombstones) : t.actionId ∉ deferredResultIds c := by
  intro hdeferred
  obtain ⟨r, hr, hl⟩ := (Option.any_eq_true _ _).mp (List.mem_filter.mp hdeferred).2
  obtain ⟨hmem, hid⟩ := State.actionForId_eq_some hr
  have hterminal := ((h.ledger.recorded r hmem t.lifecycle).mp ⟨t, ht, hid.symm, rfl⟩).1
  rw [of_decide_eq_true hl] at hterminal
  cases hterminal

theorem Coherent.merged_eq_nil (h : Coherent c.state) (hundisputed : Undisputed snapshot.evidence) :
    (sameBootTombstones snapshot c).2 = [] ↔
      ∀ t ∈ c.state.actionTombstones, ∀ u ∈ snapshot.evidence, u.actionId = t.actionId →
        ¬ Disputes t.lifecycle u.lifecycle := by
  rw [sameBootTombstones, mergeTombstones_eq_nil,
    undisputed_append h.ledger.tidy (hundisputed.filter (· ∉ deferredResultIds c))]
  refine forall₂_congr fun t ht => ?_
  simp only [List.mem_filter, decide_eq_true_eq]
  constructor
  · intro hkept u hu hid
    exact hkept u ⟨hu, hid ▸ h.not_deferred ht⟩ hid
  · exact fun hall u hu => hall u hu.1

theorem Coherent.contradictions_eq_nil (h : Coherent c.state)
    (hsupervised : Supervised snapshot c.state)
    (hdead : ∀ u ∈ snapshot.units, u.actionId ∉ snapshot.verifiedTerminalIds) {finding : String} :
    contradictionReasons snapshot (sameBootTombstones snapshot c).1 finding = [] := by
  rw [contradictionReasons_eq_nil]
  intro u hu hmem
  rw [sameBootTombstones, mergeTombstones_ids, List.map_append, List.mem_append] at hmem
  rcases hmem with hmem | hmem
  · obtain ⟨t, ht, hid⟩ := List.mem_map.mp hmem
    obtain ⟨r, hr, hl, hunit⟩ := hsupervised.live u hu
    rw [ActionRecord.unit?_matches hunit] at hid
    have hterminal := ((h.ledger.recorded r hr t.lifecycle).mp ⟨t, ht, hid, rfl⟩).1
    rcases hl with hl | hl <;> rw [hl] at hterminal <;> cases hterminal
  · obtain ⟨t, ht, hid⟩ := List.mem_map.mp hmem
    exact hdead u hu (mem_verifiedTerminalIds.mpr ⟨t, (List.mem_filter.mp ht).1, hid⟩)

theorem burials_sorted_perm (s : State) (results : List VerifiedWorkerResult) :
    (burials s (sortedByAction (·.actionId) results)).Perm (burials s results) :=
  ((sortedByAction_perm _ _).filter _).map _

variable (h : Progress s (sortedByAction (·.actionId) snapshot.verifiedResults) c)
include h

theorem Progress.mem_tombstones {t : ActionTombstone} :
    t ∈ c.state.actionTombstones ↔
      t ∈ s.outlasting (burials s snapshot.verifiedResults).length ++
        burials s snapshot.verifiedResults := by
  have hperm : (burials s (sortedByAction (·.actionId) snapshot.verifiedResults)).Perm
      (burials s snapshot.verifiedResults) := burials_sorted_perm s _
  rw [h.tombstones, List.mem_append, List.mem_append, hperm.mem_iff, hperm.length_eq]

theorem Progress.supervised_iff
    (hdead : ∀ u ∈ snapshot.units, u.actionId ∉ snapshot.verifiedTerminalIds) :
    Supervised snapshot c.state ↔ Supervised snapshot s := by
  have hsame : ∀ q : ActionRecord, q.actionId ∉ snapshot.verifiedTerminalIds →
      (q ∈ c.state.actions ↔ q ∈ s.actions) := by
    intro q hq
    refine h.reconciles.actions q fun hmem => hq ?_
    refine WorkerNamespaceSnapshot.mem_verifiedTerminalIds_of_result ?_
    exact (((sortedByAction_perm _ _).map _).mem_iff).mp hmem
  constructor
  · exact fun hsupervised => hsupervised.congr hdead hsame
  · exact fun hsupervised => hsupervised.congr hdead fun q hq => (hsame q hq).symm

theorem Progress.sameBootReasons_eq_nil :
    sameBootReasons snapshot c = [] ↔ Accordant s snapshot := by
  have hanswered : c.reasons = [] ↔ ∀ v ∈ snapshot.verifiedResults, Answered s v := by
    rw [h.answered]
    simp only [mem_sortedByAction]
  simp only [sameBootReasons, List.append_eq_nil_iff, snapshotReasons_eq_nil, profileReasons_eq_nil,
    h.coherent.relationshipReasons_eq_nil, h.reconciles.finalized, hanswered,
    h.coherent.terminalEvidence_eq_nil, unitMap_reasons]
  constructor
  · rintro ⟨⟨⟨⟨⟨⟨⟨hambiguities, hsingle, hundisputed, hdead⟩, hmerged⟩, -⟩, hprofile⟩, hresults⟩,
      -⟩, -, hsupervised⟩
    have hupheld := (h.coherent.merged_eq_nil hundisputed).mp hmerged
    exact ⟨hambiguities, hsingle, hundisputed, hdead,
      fun t ht => hupheld t (h.mem_tombstones.mpr ht), hprofile, hresults,
      (h.supervised_iff hdead).mp hsupervised⟩
  · intro haccordant
    have hsupervised := (h.supervised_iff haccordant.dead).mpr haccordant.supervised
    have hmerged := (h.coherent.merged_eq_nil haccordant.undisputed).mpr
      fun t ht => haccordant.upheld t (h.mem_tombstones.mp ht)
    exact ⟨⟨⟨⟨⟨⟨⟨haccordant.unambiguous, haccordant.single, haccordant.undisputed,
      haccordant.dead⟩, hmerged⟩,
      h.coherent.contradictions_eq_nil hsupervised haccordant.dead⟩, haccordant.finalized⟩,
      haccordant.answered⟩, trivial⟩, haccordant.single, hsupervised⟩

end Evidence

end MonitorController
