import Mathlib.Data.String.Basic
import MonitorController.Recovery.Results

/-! # Folding all verified results

The results are folded in the order of their spelling, so that the result of an
application precedes that of a preparation. The fold returns exactly when every
result is permitted, which the persisted state and the snapshot decide.
-/

namespace MonitorController

open Outcome

/-- What the launch of an admitted worker asks of the persisted state: the other worker is not in
flight, or its own result precedes and ends it. -/
def PermitsLaunch (s : State) (results : List VerifiedWorkerResult) : ActionRecord → Prop
  | .application a => a.lifecycle = .admitted →
      ∀ p ∈ s.preparation, p.lifecycle.mutatingInFlight = false
  | .preparation p => p.lifecycle = .admitted → ∀ a ∈ s.application,
      (∃ w ∈ results, Folded (.application a) w) ∨ a.lifecycle.mutatingInFlight = false
  | _ => True

/-- What the end of a worker asks of the persisted state: a completed application leaves no
preparation without its proof, and a withdrawn preparation finds no application in its phase. -/
def PermitsEnd (s : State) (results : List VerifiedWorkerResult) (l : ActionLifecycle) :
    ActionRecord → Prop
  | .application _ => l = .completed → ∀ p ∈ s.preparation, ¬ Awaits s p
  | .preparation p => WithdrawnBy p l → ∀ a ∈ s.application, ∃ w ∈ results,
      Folded (.application a) w ∧ w.terminalLifecycle.failedLifecycle = false
  | _ => True

/-- The replay of a result does not break the state. -/
def Foldable (s : State) (results : List VerifiedWorkerResult) (v : VerifiedWorkerResult) : Prop :=
  ∀ r ∈ s.actions, Folded r v →
    PermitsLaunch s results r ∧ PermitsEnd s results v.terminalLifecycle r

/-- The end of a worker is folded in with a tombstone. -/
def Buries (s : State) (v : VerifiedWorkerResult) : Prop :=
  (∃ r ∈ s.actions, Folded r v) ∧ ¬ Defers v.actionId.kind v.terminalLifecycle

instance (r : ActionRecord) (v : VerifiedWorkerResult) : Decidable (Folded r v) :=
  inferInstanceAs (Decidable (_ ∧ _))

instance (s : State) (v : VerifiedWorkerResult) : Decidable (Buries s v) :=
  inferInstanceAs (Decidable (_ ∧ _))

def burials (s : State) (results : List VerifiedWorkerResult) : List ActionTombstone :=
  (results.filter fun v => Buries s v).map (·.tombstone)

/-- How many of the persisted tombstones so many burials displace. -/
def State.displaced (s : State) (count : Nat) : Nat :=
  if count = 0 then 0 else s.actionTombstones.length + count - actionTombstoneRetentionLimit

def State.outlasting (s : State) (count : Nat) : List ActionTombstone :=
  (retainTombstones s.retains (s.displaced count) s.actionTombstones).2

/-- A result agrees with what the persisted state has of its worker. -/
def Answers (s : State) (v : VerifiedWorkerResult) (r : ActionRecord) : Prop :=
  verifiedResultRelationshipError r v = none ∧
    if r.lifecycle.terminal = true ∨ r.lifecycle = .resultPending then
      verifiedResultIsRepresented s v = true
    else v.terminalLifecycle.failedLifecycle = true → r.planHash? = v.planHash

/-- A result agrees with what the persisted state has of its worker, if it has any. -/
def Answered (s : State) (v : VerifiedWorkerResult) : Prop :=
  ∀ r ∈ s.actions, r.kind ≠ .plan → r.actionId = v.actionId → Answers s v r

theorem State.outlasting_succ {s : State} (h : s.Tidy) {count : Nat} (hcount : count ≤ 5) :
    (retainTombstones s.retains
      ((s.outlasting count).length + count + 1 - actionTombstoneRetentionLimit)
      (s.outlasting count)).2 = s.outlasting (count + 1) := by
  have hfree := State.le_countP_unretained (s := s) h
  have hlimit : 10 ≤ actionTombstoneRetentionLimit := by decide
  have hexcess : s.displaced count ≤ s.actionTombstones.countP (!s.retains ·.actionId) := by
    unfold State.displaced
    split <;> omega
  have hlength := @length_retainTombstones s.retains (s.displaced count) s.actionTombstones
  rw [retainTombstones_fst, Nat.sub_eq_zero_of_le hexcess] at hlength
  have hsum : s.displaced count +
      ((s.outlasting count).length + count + 1 - actionTombstoneRetentionLimit) =
        s.displaced (count + 1) := by
    change (s.outlasting count).length + s.displaced count = _ at hlength
    unfold State.displaced at hlength ⊢
    rw [if_neg (Nat.succ_ne_zero count)]
    split <;> split at hlength <;> omega
  rw [State.outlasting, State.outlasting, ← hsum]
  exact retainTombstones_retainTombstones _ _ _ hexcess

theorem Reconciles.mono {s : State} {ids ids' : List ActionId} {c : Reconciliation}
    (h : Reconciles s ids c) (hsub : ids ⊆ ids') : Reconciles s ids' c where
  bootId := h.bootId
  displayIdentity := h.displayIdentity
  finalized := h.finalized
  actions q hq := h.actions q fun hmem => hq (hsub hmem)
  units u hu := h.units u fun hmem => hu (hsub hmem)
  fewer := h.fewer
  matched a ha := hsub (h.matched a ha)

/-- A result without a reason against it has ended its worker, or waits for a sample. -/
structure Judged (v : VerifiedWorkerResult) (c c' : Reconciliation) : Prop where
  matched : c.matched ⊆ c'.matched
  reasons : c'.reasons = [] → c.reasons = []
  settled : c'.reasons = [] → ∀ r ∈ c'.state.actions, r.actionId = v.actionId → r.kind ≠ .plan →
    v.actionId ∈ c'.matched ∧ (r.lifecycle.terminal = true ∨ r.lifecycle = .resultPending)

theorem settled_of_represented {s : State} {v : VerifiedWorkerResult} {r : ActionRecord}
    (h : verifiedResultIsRepresented s v = true) (hr : r ∈ s.actions)
    (hid : r.actionId = v.actionId) (hk : r.kind ≠ .plan) :
    r.lifecycle.terminal = true ∨ r.lifecycle = .resultPending := by
  have hfound : s.actionForId v.actionId = some r := hid ▸ State.actionForId_of_mem hr
  unfold verifiedResultIsRepresented at h
  rw [hfound] at h
  dsimp only at h
  split at h
  next a ha =>
    obtain rfl := Option.some.inj ha
    exact absurd rfl hk
  next =>
    split at h
    next =>
      split at h
      next => cases h
      next =>
        split at h
        next hl => exact .inr hl
        next =>
          have hl : r.lifecycle = .completed := by simpa using (of_decide_eq_true h).1
          exact .inl (by rw [hl]; rfl)
    next =>
      split at h
      next =>
        have hl := (of_decide_eq_true h).2.1
        exact .inl (by rw [hl]; exact v.terminal)
      next => simp at h

theorem reconcileAction_judged {c : Reconciliation} {q : ActionRecord} {v : VerifiedWorkerResult}
    (hq : c.state.actionForId v.actionId = some q) :
    Ensures (reconcileAction c q v) (Judged v c) := by
  have hblamed : ∀ (s : State) (problem : String),
      Judged v c ⟨s, v.actionId :: c.matched, c.changed, c.reasons ++ [problem]⟩ := by
    intro s problem
    exact ⟨fun _ ha => List.mem_cons_of_mem _ ha, fun h => by simp at h, fun h => by simp at h⟩
  unfold reconcileAction
  dsimp only [Reconciliation.blame]
  split
  next =>
    rintro _ ⟨⟩
    exact hblamed _ _
  next =>
    split
    next hended =>
      split
      next =>
        rintro _ ⟨⟩
        refine ⟨fun _ ha => List.mem_cons_of_mem _ ha, id, fun _ r hr hid _ => ?_⟩
        have hfound := hid ▸ State.actionForId_of_mem hr
        obtain rfl := Option.some.inj (hfound.symm.trans hq)
        exact ⟨List.mem_cons_self, hended⟩
      next =>
        rintro _ ⟨⟩
        exact hblamed _ _
    next =>
      intro c' hc'
      obtain ⟨o, -, hc'⟩ := bind_eq_ok.mp hc'
      cases o with
      | none =>
        cases hc'
        exact hblamed _ _
      | some t =>
        dsimp only at hc'
        split at hc'
        next hrepresented =>
          cases hc'
          refine ⟨fun _ ha => List.mem_cons_of_mem _ ha, id, fun _ r hr hid hk => ?_⟩
          exact ⟨List.mem_cons_self, settled_of_represented hrepresented hr hid hk⟩
        next =>
          cases hc'
          exact hblamed _ _

theorem reconcileResult_judged {c : Reconciliation} {v : VerifiedWorkerResult} :
    Ensures (reconcileResult c v) (Judged v c) := by
  unfold reconcileResult
  split
  next hnone =>
    rintro _ ⟨⟩
    refine ⟨fun _ ha => ha, id, fun _ r hr hid _ => ?_⟩
    exact absurd (hnone.symm.trans (hid ▸ State.actionForId_of_mem hr)) (by simp)
  next a hplan =>
    rintro _ ⟨⟩
    refine ⟨fun _ ha => ha, id, fun _ r hr hid hk => ?_⟩
    obtain rfl := Option.some.inj (hplan.symm.trans (hid ▸ State.actionForId_of_mem hr))
    exact absurd rfl hk
  next q _ hq => exact reconcileAction_judged hq

/-- What holds once some results have been folded in. -/
structure Progress (s : State) (done : List VerifiedWorkerResult) (c : Reconciliation) : Prop where
  persisted : Coherent s
  coherent : Coherent c.state
  generation : c.state.eventGeneration = s.eventGeneration
  reconciles : Reconciles s (done.map (·.actionId)) c
  origin : ∀ q ∈ c.state.actions, ∃ r ∈ s.actions, r.actionId = q.actionId
  unfolded : ∀ r ∈ s.actions, (∀ v ∈ done, ¬ Folded r v) → r ∈ c.state.actions
  ended : ∀ a ∈ s.application, ∀ v ∈ done, Folded (.application a) v →
    EndsApplication v.terminalLifecycle c.state
  settled : c.reasons = [] → ∀ v ∈ done, ∀ r ∈ c.state.actions, r.actionId = v.actionId →
    r.kind ≠ .plan →
      v.actionId ∈ c.matched ∧ (r.lifecycle.terminal = true ∨ r.lifecycle = .resultPending)
  tombstones : c.state.actionTombstones =
    s.outlasting (burials s done).length ++ burials s done
  answered : c.reasons = [] ↔ ∀ v ∈ done, Answered s v

section Fold

variable {s : State} {done rest : List VerifiedWorkerResult} {v : VerifiedWorkerResult}
  {c : Reconciliation} (h : Progress s done c) (hfresh : v.actionId ∉ done.map (·.actionId))
include h hfresh

theorem Progress.found {q : ActionRecord} (hq : c.state.actionForId v.actionId = some q) :
    q ∈ s.actions ∧ q.actionId = v.actionId := by
  obtain ⟨hmem, hid⟩ := State.actionForId_eq_some hq
  exact ⟨(h.reconciles.actions q (hid ▸ hfresh)).mp hmem, hid⟩

theorem Progress.lost {r : ActionRecord} (hr : r ∈ s.actions) (hid : r.actionId = v.actionId) :
    c.state.actionForId v.actionId = some r := by
  rw [← hid]
  exact State.actionForId_of_mem ((h.reconciles.actions r (hid ▸ hfresh)).mpr hr)

theorem Progress.answered_iff {q : ActionRecord} (hq : c.state.actionForId v.actionId = some q)
    (hk : q.kind ≠ .plan) : Answered s v ↔ Answers s v q := by
  obtain ⟨hmem, hid⟩ := h.found hfresh hq
  constructor
  · exact fun hanswered => hanswered q hmem hk hid
  · intro hanswers r hr _ hrid
    obtain rfl := State.eq_of_actionId hmem hr (hrid.trans hid.symm)
    exact hanswers

theorem Progress.represented {q : ActionRecord} (hq : c.state.actionForId v.actionId = some q) :
    verifiedResultIsRepresented c.state v = verifiedResultIsRepresented s v := by
  obtain ⟨hmem, hid⟩ := h.found hfresh hq
  have hfound : s.actionForId v.actionId = some q := hid ▸ State.actionForId_of_mem hmem
  refine verifiedResultIsRepresented_congr (hq.trans hfound.symm) ?_
  rw [← hid, h.coherent.find?_tombstone (State.actionForId_eq_some hq).1,
    h.persisted.find?_tombstone hmem]

omit hfresh in
theorem Progress.retains_iff {t : ActionTombstone} (ht : t ∈ s.actionTombstones) :
    c.state.retains t.actionId = s.retains t.actionId := by
  refine Bool.eq_iff_iff.mpr ?_
  rw [State.retains_iff, State.retains_iff]
  constructor
  · rintro ⟨q, hq, hid⟩
    obtain ⟨r, hr, hrq⟩ := h.origin q hq
    exact ⟨r, hr, hrq.trans hid⟩
  · rintro ⟨r, hr, hid⟩
    have hended := ((h.persisted.ledger.recorded r hr t.lifecycle).mp ⟨t, ht, hid.symm, rfl⟩).1
    refine ⟨r, h.unfolded r hr ?_, hid⟩
    rintro v - ⟨-, -, hl | hl | hl⟩ <;> rw [hl] at hended <;> cases hended

omit hfresh in
theorem Progress.length_burials_le : (burials s done).length ≤ 5 := by
  have hnodup := h.coherent.ledger.tidy
  rw [State.Tidy, h.tombstones, List.map_append] at hnodup
  have hretained : (burials s done).countP (s.retains ·.actionId) = (burials s done).length := by
    refine List.countP_eq_length.mpr fun t ht => State.retains_iff.mpr ?_
    obtain ⟨w, hw, rfl⟩ := List.mem_map.mp ht
    obtain ⟨⟨r, hr, hfolded⟩, -⟩ := of_decide_eq_true (List.mem_filter.mp hw).2
    exact ⟨r, hr, hfolded.1⟩
  exact hretained ▸ State.countP_retains_le hnodup.of_append_right

omit hfresh in
/-- A burial in the replayed state appends to what the earlier ones have left. -/
theorem Progress.burial_eq {q : ActionRecord} (hq : q ∈ c.state.actions)
    (hid : q.actionId = v.actionId) (hl : q.lifecycle.terminal = false) :
    c.state.burial v.actionId v.terminalLifecycle =
      s.outlasting ((burials s done).length + 1) ++ (burials s done ++ [v.tombstone]) := by
  have hfilter : c.state.actionTombstones.filter (·.actionId ≠ v.actionId) =
      c.state.actionTombstones := by
    refine List.filter_eq_self.mpr fun t ht => decide_eq_true fun htid => ?_
    have hrecorded := (h.coherent.ledger.recorded q hq t.lifecycle).mp
      ⟨t, ht, htid.trans hid.symm, rfl⟩
    exact absurd hrecorded.1 (by simp [hl])
  have hfew := h.length_burials_le
  have hkept : (s.outlasting (burials s done).length).Sublist s.actionTombstones :=
    retainTombstones_sublist _ _
  have hnodup : ((s.outlasting (burials s done).length).map (·.actionId)).Nodup :=
    (hkept.map _).nodup h.persisted.ledger.tidy
  have hfree := State.le_countP_unretained (s := c.state) hnodup
  have hlimit : 11 ≤ actionTombstoneRetentionLimit := by decide
  unfold State.burial
  rw [dif_pos v.terminal]
  dsimp only
  rw [hfilter, h.tombstones, List.append_assoc, retainTombstones_append]
  · rw [retainTombstones_congr fun t ht => h.retains_iff (hkept.subset ht)]
    rw [← State.outlasting_succ h.persisted.ledger.tidy hfew]
    simp [VerifiedWorkerResult.tombstone, add_assoc]
  · simp only [List.length_append, List.length_singleton]
    omega

omit hfresh in
/-- A result which changes nothing is passed over. -/
theorem Progress.pass (hnone : ∀ r ∈ s.actions, ¬ Folded r v) {c' : Reconciliation}
    (hstate : c'.state = c.state) (hjudged : Judged v c c')
    (hagree : c'.reasons = [] ↔ c.reasons = [] ∧ Answered s v)
    (hreconciles : Reconciles s ((done ++ [v]).map (·.actionId)) c') :
    Progress s (done ++ [v]) c' where
  persisted := h.persisted
  coherent := hstate ▸ h.coherent
  generation := hstate ▸ h.generation
  reconciles := hreconciles
  origin := hstate ▸ h.origin
  unfolded r hr hunfolded := by
    rw [hstate]
    exact h.unfolded r hr fun w hw => hunfolded w (List.mem_append_left _ hw)
  ended a ha w hw hfolded := by
    rw [hstate]
    rcases List.mem_append.mp hw with hw | hw
    · exact h.ended a ha w hw hfolded
    · obtain rfl := List.mem_singleton.mp hw
      exact absurd hfolded (hnone _ (State.mem_actions_application ha))
  settled hreasons w hw r hr hid hk := by
    rcases List.mem_append.mp hw with hw | hw
    · rw [hstate] at hr
      obtain ⟨hmatched, hl⟩ := h.settled (hjudged.reasons hreasons) w hw r hr hid hk
      exact ⟨hjudged.matched hmatched, hl⟩
    · obtain rfl := List.mem_singleton.mp hw
      exact hjudged.settled hreasons r hr hid hk
  tombstones := by
    have hspared : burials s (done ++ [v]) = burials s done := by
      have hnot : ¬ Buries s v := by
        rintro ⟨⟨r, hr, hfolded⟩, -⟩
        exact hnone r hr hfolded
      simp [burials, List.filter_append, hnot]
    rw [hstate, hspared, h.tombstones]
  answered := by
    rw [hagree, h.answered]
    simp [or_imp, forall_and]

/-- A replayed result ends its worker and leaves the others as they were. -/
theorem Progress.turn {q : ActionRecord} (hq : c.state.actionForId v.actionId = some q)
    {c' : Reconciliation} (hspares : Spares v.actionId c.state c'.state)
    (hreplayed : Replayed c.state q (some v.unit) v c'.state) (hjudged : Judged v c c')
    (hagree : c'.reasons = [] ↔ c.reasons = [] ∧ Answered s v)
    (hreconciles : Reconciles s ((done ++ [v]).map (·.actionId)) c') (hfolded : Folded q v) :
    Progress s (done ++ [v]) c' := by
  obtain ⟨hmem, hid⟩ := h.found hfresh hq
  have hslot : c.state.slot v.actionId.kind = some q := by
    rw [← hid, q.kind_eq]
    exact State.slot_of_mem_actions (State.actionForId_eq_some hq).1
  have hown : ∀ p ∈ c.state.slot v.actionId.kind, p.actionId = v.actionId := by
    intro p hp
    obtain rfl := Option.some.inj (hslot.symm.trans hp)
    exact hid
  have hlive : q.lifecycle.terminal = false := by
    obtain ⟨-, -, hl | hl | hl⟩ := hfolded <;> rw [hl] <;> rfl
  have hkind : v.actionId.kind = q.kind := hid ▸ q.kind_eq
  have hburies : Buries s v ↔ ¬ Defers q.kind v.terminalLifecycle := by
    rw [Buries, hkind]
    exact and_iff_right ⟨q, hmem, hfolded⟩
  constructor
  case persisted => exact h.persisted
  case coherent => exact hreplayed.coherent
  case generation => exact hreplayed.generation.trans h.generation
  case reconciles => exact hreconciles
  case origin =>
    intro p hp
    by_cases hpid : p.actionId = v.actionId
    · exact ⟨q, hmem, hid.trans hpid.symm⟩
    · exact h.origin p ((hspares.mem_actions hown hpid).mp hp)
  case unfolded =>
    intro r hr hunfolded
    have hne : r.actionId ≠ v.actionId := by
      intro heq
      obtain rfl := State.eq_of_actionId hr hmem (hid.trans heq.symm)
      exact hunfolded v (by simp) hfolded
    exact (hspares.mem_actions hown hne).mpr
      (h.unfolded r hr fun w hw => hunfolded w (List.mem_append_left _ hw))
  case ended =>
    intro a ha w hw hw'
    rcases List.mem_append.mp hw with hw | hw
    · have hne : q.kind ≠ .application := by
        intro hk
        have hsame : q = .application a := by
          have hown := State.slot_of_mem_actions hmem
          have happ := State.slot_of_mem_actions (State.mem_actions_application ha)
          rw [hk] at hown
          exact Option.some.inj (hown.symm.trans happ)
        rw [hsame] at hid
        exact hfresh (List.mem_map.mpr ⟨w, hw, hw'.1.symm.trans hid⟩)
      have hslots := hspares.other .application fun heq => hne (by rw [← q.kind_eq, hid, ← heq])
      have happ : c'.state.application = c.state.application := by
        exact Option.map_injective (fun _ _ heq => ActionRecord.application.inj heq) hslots
      rw [EndsApplication, happ]
      exact h.ended a ha w hw hw'
    · obtain rfl := List.mem_singleton.mp hw
      refine hreplayed.endsApplication ?_
      rw [← q.kind_eq, hid, ← hw'.1]
      exact a.kind_application
  case settled =>
    intro hreasons w hw r hr hrid hk
    rcases List.mem_append.mp hw with hw | hw
    · have hne : r.actionId ≠ v.actionId := by
        intro heq
        exact hfresh (List.mem_map.mpr ⟨w, hw, hrid.symm.trans heq⟩)
      obtain ⟨hmatched, hl⟩ := h.settled (hjudged.reasons hreasons) w hw r
        ((hspares.mem_actions hown hne).mp hr) hrid hk
      exact ⟨hjudged.matched hmatched, hl⟩
    · obtain rfl := List.mem_singleton.mp hw
      exact hjudged.settled hreasons r hr hrid hk
  case tombstones =>
    have happend : ¬ Defers q.kind v.terminalLifecycle →
        burials s (done ++ [v]) = burials s done ++ [v.tombstone] := by
      intro hd
      simp [burials, List.filter_append, hburies.mpr hd]
    have hburial := h.burial_eq (State.actionForId_eq_some hq).1 hid hlive
    cases hreplayed.aftermath with
    | gone hl hd hslot hts => rw [hts, hid, hburial, happend hd]; simp
    | failed hl q' hslot hq' hts =>
      have hd : ¬ Defers q.kind v.terminalLifecycle := by
        rintro ⟨hc, -⟩
        rw [hc] at hl
        cases hl
      rw [hts, hid, hburial, happend hd]
      simp
    | pending hd q' hslot hq' hts =>
      have hspared : burials s (done ++ [v]) = burials s done := by
        simp [burials, List.filter_append, mt hburies.mp (not_not.mpr hd)]
      rw [hts, hspared, h.tombstones]
  case answered =>
    rw [hagree, h.answered]
    simp [or_imp, forall_and]

end Fold

section Order

theorem sortedByAction_pairwise {α : Type} (identity : α → ActionId) (l : List α) :
    (sortedByAction identity l).Pairwise fun a b => (identity a).value ≤ (identity b).value := by
  refine (List.pairwise_mergeSort ?_ ?_ l).imp ?_
  · intro a b c hab hbc
    simp only [decide_eq_true_eq] at hab hbc ⊢
    exact le_trans hab hbc
  · intro a b
    simpa using le_total _ _
  · intro a b hab
    simpa using hab

theorem application_lt_preparation {a b : ActionId} (ha : a.kind = .application)
    (hb : b.kind = .preparation) : ¬ b.value ≤ a.value := by
  rw [not_le, String.lt_iff_toList_lt]
  simp only [ActionId.value, ha, hb, ActionKind.value, String.toList_append]
  exact List.cons_lt_cons_iff.mpr (.inl (by decide))

variable {s : State} {results done rest : List VerifiedWorkerResult} {v : VerifiedWorkerResult}
  {c : Reconciliation} (h : Progress s done c)
  (hsorted : sortedByAction (·.actionId) results = done ++ v :: rest)
include h hsorted

omit h in
theorem ordered_of_split : (∀ w ∈ done, w.actionId.value ≤ v.actionId.value) ∧
    ∀ w ∈ v :: rest, v.actionId.value ≤ w.actionId.value := by
  have hpairwise := sortedByAction_pairwise (α := VerifiedWorkerResult) (·.actionId) results
  rw [hsorted, List.pairwise_append, List.pairwise_cons] at hpairwise
  constructor
  · exact fun w hw => hpairwise.2.2 w hw v List.mem_cons_self
  · intro w hw
    rcases List.mem_cons.mp hw with rfl | hw
    · exact le_refl _
    · exact hpairwise.2.1.1 w hw

theorem Progress.preparation_eq (hv : v.actionId.kind = .application) :
    c.state.preparation = s.preparation := by
  have hwaits : ∀ p : PreparationAction,
      (ActionRecord.preparation p).actionId ∉ done.map (·.actionId) := by
    intro p hp
    obtain ⟨w, hw, hid⟩ := List.mem_map.mp hp
    have hk : w.actionId.kind = .preparation := hid ▸ p.kind_preparation
    exact application_lt_preparation hv hk ((ordered_of_split hsorted).1 w hw)
  ext p
  constructor
  · intro hp
    exact State.preparation_of_mem
      ((h.reconciles.actions _ (hwaits p)).mp (State.mem_actions_preparation hp))
  · intro hp
    exact State.preparation_of_mem
      ((h.reconciles.actions _ (hwaits p)).mpr (State.mem_actions_preparation hp))

omit h in
theorem application_done (hv : v.actionId.kind = .preparation)
    {w : VerifiedWorkerResult} (hw : w ∈ results) (hk : w.actionId.kind = .application) :
    w ∈ done := by
  have hmem : w ∈ done ++ v :: rest := hsorted ▸ mem_sortedByAction.mpr hw
  rcases List.mem_append.mp hmem with hw | hw
  · exact hw
  · exact absurd ((ordered_of_split hsorted).2 w hw) (application_lt_preparation hk hv)

theorem Progress.application_settled (hv : v.actionId.kind = .preparation)
    {a : ApplicationAction} (ha : a ∈ s.application) :
    ((∀ w ∈ results, ¬ Folded (.application a) w) ∧ c.state.application = some a) ∨
      ∃ w ∈ results, Folded (.application a) w ∧ EndsApplication w.terminalLifecycle c.state := by
  by_cases hfolded : ∃ w ∈ results, Folded (.application a) w
  · obtain ⟨w, hw, hw'⟩ := hfolded
    have hk : w.actionId.kind = .application := hw'.1 ▸ a.kind_application
    exact .inr ⟨w, hw, hw', h.ended a ha w (application_done hsorted hv hw hk) hw'⟩
  · push Not at hfolded
    refine .inl ⟨hfolded, State.application_of_mem ?_⟩
    refine h.unfolded _ (State.mem_actions_application ha) fun w hw => hfolded w ?_
    exact mem_sortedByAction.mp (hsorted ▸ List.mem_append_left _ hw)

omit hsorted in
theorem Progress.application_origin {b : ApplicationAction} (hb : c.state.application = some b) :
    ∃ a, s.application = some a := by
  obtain ⟨r, hr, hid⟩ := h.origin _ (State.mem_actions_application hb)
  have hk := r.kind_eq.symm.trans ((congrArg ActionId.kind hid).trans b.kind_application)
  cases r with
  | application a => exact ⟨a, State.application_of_mem hr⟩
  | _ => cases hk

theorem Progress.launchable_iff {q : ActionRecord} (hq : c.state.actionForId v.actionId = some q) :
    Launchable c.state q ↔ PermitsLaunch s results q := by
  have hid := (State.actionForId_eq_some hq).2
  cases q with
  | probe a => exact .rfl
  | planning a => exact .rfl
  | finalization a => exact .rfl
  | application a =>
    have hv : v.actionId.kind = .application := hid ▸ a.kind_application
    simp only [Launchable, PermitsLaunch, h.preparation_eq hsorted hv]
  | preparation p =>
    have hv : v.actionId.kind = .preparation := hid ▸ p.kind_preparation
    constructor
    · intro hlaunch hl a ha
      rcases h.application_settled hsorted hv ha with ⟨-, hkept⟩ | ⟨w, hw, hw', -⟩
      · exact .inr (hlaunch hl a hkept)
      · exact .inl ⟨w, hw, hw'⟩
    · intro hpermits hl b hb
      obtain ⟨a, ha⟩ := h.application_origin hb
      rcases h.application_settled hsorted hv ha with ⟨hnone, hkept⟩ | ⟨w, -, -, hended⟩
      · obtain rfl := Option.some.inj (hkept.symm.trans hb)
        refine (hpermits hl a ha).resolve_left ?_
        rintro ⟨w, hw, hw'⟩
        exact hnone w hw hw'
      · exact hended.idle b hb

/-- At the turn of a worker its end depends on the persisted state alone. -/
theorem Progress.concludable_iff {q : ActionRecord}
    (hq : c.state.actionForId v.actionId = some q) (l : ActionLifecycle) :
    Concludable c.state l q ↔ PermitsEnd s results l q := by
  have hid := (State.actionForId_eq_some hq).2
  cases q with
  | probe a => exact .rfl
  | planning a => exact .rfl
  | finalization a => exact .rfl
  | application a =>
    have hv : v.actionId.kind = .application := hid ▸ a.kind_application
    simp only [Concludable, PermitsEnd, Awaits, h.preparation_eq hsorted hv, h.generation]
  | preparation p =>
    have hv : v.actionId.kind = .preparation := hid ▸ p.kind_preparation
    constructor
    · intro hend hwithdrawn a ha
      have hnone := hend hwithdrawn
      rcases h.application_settled hsorted hv ha with ⟨-, hkept⟩ | ⟨w, hw, hw', hended⟩
      · exact absurd (hnone.symm.trans hkept) (by simp)
      · exact ⟨w, hw, hw', hended.none_iff.mp hnone⟩
    · intro hpermits hwithdrawn
      by_contra hne
      obtain ⟨b, hb⟩ := Option.ne_none_iff_exists'.mp hne
      obtain ⟨a, ha⟩ := h.application_origin hb
      obtain ⟨w, hw, hw', hf⟩ := hpermits hwithdrawn a ha
      have hk : w.actionId.kind = .application := hw'.1 ▸ a.kind_application
      have hended := h.ended a ha w (application_done hsorted hv hw hk) hw'
      exact hne (hended.none_iff.mpr hf)

end Order

/-- What one result does to the reconciliation. -/
inductive Folds (s : State) (v : VerifiedWorkerResult) (c c' : Reconciliation) : Prop
  | pass (hnone : ∀ r ∈ s.actions, ¬ Folded r v) (hstate : c'.state = c.state)
    (hreasons : c'.reasons = [] ↔ c.reasons = [] ∧ Answered s v)
  | turn (q) (hq : c.state.actionForId v.actionId = some q) (hfolded : Folded q v)
    (hspares : Spares v.actionId c.state c'.state)
    (hreplayed : Replayed c.state q (some v.unit) v c'.state)
    (hreasons : c'.reasons = [] ↔ c.reasons = [] ∧ Answered s v)

section Fold

variable {s : State} {results done rest : List VerifiedWorkerResult} {v : VerifiedWorkerResult}
  {c : Reconciliation} (h : Progress s done c)
  (hsorted : sortedByAction (·.actionId) results = done ++ v :: rest)
  (hfresh : v.actionId ∉ done.map (·.actionId))
include h hsorted hfresh

theorem Progress.reconcileAction {q : ActionRecord}
    (hq : c.state.actionForId v.actionId = some q) (hk : q.kind ≠ .plan) :
    Guarded (reconcileAction c q v) (Foldable s results v) (Folds s v c) := by
  obtain ⟨hmem, hid⟩ := h.found hfresh hq
  have hother : ∀ r ∈ s.actions, Folded r v → r = q := by
    intro r hr hfolded
    exact State.eq_of_actionId hmem hr (hfolded.1.trans hid.symm)
  have hanswered := h.answered_iff hfresh hq hk
  have hpass : ∀ c' : Reconciliation, c'.state = c.state → ¬ Folded q v →
      (c'.reasons = [] ↔ c.reasons = [] ∧ Answers s v q) →
      Guarded (.ok c' : Result Reconciliation) (Foldable s results v) (Folds s v c) := by
    intro c' hstate hnone hreasons
    rw [← hanswered] at hreasons
    have hnone' : ∀ r ∈ s.actions, ¬ Folded r v := fun r hr hfolded =>
      hnone (hother r hr hfolded ▸ hfolded)
    refine (Guarded.of_ok (.pass hnone' hstate hreasons)).congr (iff_of_true trivial ?_)
    exact fun r hr hfolded => absurd hfolded (hnone' r hr)
  unfold MonitorController.reconcileAction
  dsimp only [Reconciliation.blame]
  split
  next problem hproblem =>
    refine hpass _ rfl (fun hfolded => ?_) ?_
    · exact absurd (hfolded.2.1.symm.trans hproblem) (by simp)
    · exact iff_of_false (by simp) fun hanswers =>
        absurd (hanswers.2.1.symm.trans hproblem) (by simp)
  next hrelated =>
    split
    next hended =>
      have hnone : ¬ Folded q v := by
        rintro ⟨-, -, hl | hl | hl⟩ <;> rw [hl] at hended <;>
          simp [ActionLifecycle.terminal] at hended
      have hanswers : Answers s v q ↔ verifiedResultIsRepresented c.state v = true := by
        rw [Answers, if_pos hended, h.represented hfresh hq]
        exact and_iff_right hrelated
      split
      next hrepresented =>
        exact hpass _ rfl hnone (and_iff_left (hanswers.mpr hrepresented)).symm
      next hrepresented =>
        exact hpass _ rfl hnone (iff_of_false (by simp) fun hand =>
          hrepresented (hanswers.mp hand.2))
    next hended =>
      have hlive : q.lifecycle = .admitted ∨ q.lifecycle = .dispatched ∨
          q.lifecycle = .stopping := by
        cases hl : q.lifecycle <;> simp_all [ActionLifecycle.terminal]
      have hfolded : Folded q v := ⟨hid, hrelated, hlive⟩
      obtain ⟨-, hunit, hplan⟩ := related_of_none hrelated
      have hq' := (State.actionForId_eq_some hq).1
      have hnotended : q.lifecycle.terminal = false := by
        simpa using fun hterminal => hended (.inl hterminal)
      have hreplays := h.coherent.replays hq' hid hk hlive hunit
        fun hkind => hplan (hkind ▸ rfl)
      have hanswers {t : State} (ht : Replayed c.state q (some v.unit) v t) :
          Answers s v q ↔ verifiedResultIsRepresented t v = true := by
        rw [ht.represented_iff h.coherent hq' hid hk hnotended hplan, Answers, if_neg hended]
        exact and_iff_right hrelated
      refine (((hreplays.and (applyVerifiedResult_spares hid)).bind (q := True)
        fun o ho => ?_)).congr ?_
      · obtain ⟨⟨t, rfl, ht⟩, hspares⟩ := ho
        dsimp only
        split
        next hrepresented =>
          refine .of_ok (.turn q hq hfolded (hspares t rfl) ht ?_)
          exact (and_iff_left (hanswered.mpr ((hanswers ht).mpr hrepresented))).symm
        next hrepresented =>
          refine .of_ok (.turn q hq hfolded (hspares t rfl) ht (iff_of_false (by simp) ?_))
          exact fun hand => hrepresented ((hanswers ht).mp (hanswered.mp hand.2))
      · rw [and_true, h.launchable_iff hsorted hq, h.concludable_iff hsorted hq]
        constructor
        · intro hpermits r hr hr'
          obtain rfl := hother r hr hr'
          exact hpermits
        · intro hfoldable
          exact hfoldable q hmem hfolded

theorem Progress.reconcileResult :
    Guarded (reconcileResult c v) (Foldable s results v) (Folds s v c) := by
  have hpass : (∀ r ∈ s.actions, r.actionId = v.actionId → r.kind = .plan) →
      Guarded (.ok c : Result Reconciliation) (Foldable s results v) (Folds s v c) := by
    intro hplan
    have hnone : ∀ r ∈ s.actions, ¬ Folded r v := fun r hr hfolded =>
      (related_of_none hfolded.2.1).1 (hplan r hr hfolded.1)
    have hanswered : Answered s v := fun r hr hk hid => absurd (hplan r hr hid) hk
    refine (Guarded.of_ok (.pass hnone rfl (and_iff_left hanswered).symm)).congr
      (iff_of_true trivial ?_)
    exact fun r hr hfolded => absurd hfolded (hnone r hr)
  unfold MonitorController.reconcileResult
  split
  next hnone =>
    refine hpass fun r hr hid => ?_
    exact absurd (hnone.symm.trans (h.lost hfresh hr hid)) (by simp)
  next a hplan =>
    refine hpass fun r hr hid => ?_
    obtain rfl := Option.some.inj (hplan.symm.trans (h.lost hfresh hr hid))
    rfl
  next q hworker hq =>
    refine h.reconcileAction hsorted hfresh hq ?_
    cases q with
    | planning a => exact absurd rfl (hworker a)
    | _ => rintro ⟨⟩

theorem Progress.step :
    Guarded (MonitorController.reconcileResult c v) (Foldable s results v)
      (Progress s (done ++ [v])) := by
  have hreconciles : Ensures (MonitorController.reconcileResult c v)
      (Reconciles s ((done ++ [v]).map (·.actionId))) :=
    reconcileResult_reconciles (h.reconciles.mono (by simp)) (by simp)
  refine (((h.reconcileResult hsorted hfresh).and reconcileResult_judged).and hreconciles).mono
    fun c' hc' => ?_
  obtain ⟨⟨hfolds, hjudged⟩, hc'⟩ := hc'
  cases hfolds with
  | pass hnone hstate hreasons => exact h.pass hnone hstate hjudged hreasons hc'
  | turn q hq hfolded hspares hreplayed hreasons =>
    exact h.turn hfresh hq hspares hreplayed hjudged hreasons hc' hfolded

end Fold

/-- The results of a coherent state are folded in exactly when each of them is permitted. -/
theorem Coherent.reconcileVerifiedResults {s : State} (h : Coherent s)
    {results : List VerifiedWorkerResult} (hunique : (results.map (·.actionId)).Nodup) :
    Guarded (reconcileVerifiedResults s results) (∀ v ∈ results, Foldable s results v)
      (Progress s (sortedByAction (·.actionId) results)) := by
  let sorted := sortedByAction (·.actionId) results
  have hnodup : (sorted.map (·.actionId)).Nodup :=
    ((sortedByAction_perm _ results).map _).nodup_iff.mpr hunique
  have hstart : Progress s [] { state := s } := by
    constructor
    case persisted => exact h
    case coherent => exact h
    case generation => rfl
    case reconciles =>
      exact ⟨rfl, rfl, rfl, fun _ _ => .rfl, fun _ _ => .rfl, .refl _, List.forall_mem_nil _⟩
    case origin => exact fun q hq => ⟨q, hq, rfl⟩
    case unfolded => exact fun r hr _ => hr
    case ended => rintro a - v ⟨⟩
    case settled => rintro - v ⟨⟩
    case tombstones =>
      cases hs : s.actionTombstones <;>
        simp [State.outlasting, State.displaced, burials, retainTombstones, hs]
    case answered => simp
  have hfold := Guarded.foldlM (f := MonitorController.reconcileResult) (l := sorted)
    (I := fun rest c => ∃ done, sorted = done ++ rest ∧ Progress s done c)
    (r := Foldable s results) (b := { state := s }) ?_ ⟨[], rfl, hstart⟩
  · refine (hfold.mono fun c hc => ?_).congr ?_
    · obtain ⟨done, hdone, hc⟩ := hc
      obtain rfl : sorted = done := by simpa using hdone
      exact hc
    · exact forall_congr' fun v => imp_congr_left mem_sortedByAction
  · rintro v rest c ⟨done, hdone, hc⟩
    have hfresh : v.actionId ∉ done.map (·.actionId) := by
      rw [hdone, List.map_append, List.map_cons] at hnodup
      intro hmem
      exact (List.nodup_append.mp hnodup).2.2 _ hmem _ List.mem_cons_self rfl
    refine (hc.step hdone hfresh).mono fun c' hc' => ?_
    exact ⟨done ++ [v], by simpa using hdone, hc'⟩

end MonitorController
