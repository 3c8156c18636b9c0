import MonitorController.Recovery.Conclusions

/-! # Replaying one result

The replay of a result launches the worker, when it is only admitted, and ends
it. It returns exactly when both are permitted, and then the result is
represented in the state which it leaves.
-/

namespace MonitorController

open Outcome

/-- An admitted worker is not launched beside another one in flight. -/
def Launchable (s : State) : ActionRecord → Prop
  | .application a => a.lifecycle = .admitted →
      ∀ p ∈ s.preparation, p.lifecycle.mutatingInFlight = false
  | .preparation p => p.lifecycle = .admitted →
      ∀ a ∈ s.application, a.lifecycle.mutatingInFlight = false
  | _ => True

/-- An end gives up no proof and no phase which another worker rests on. -/
def Concludable (s : State) (l : ActionLifecycle) : ActionRecord → Prop
  | .application _ => l = .completed → ∀ p ∈ s.preparation, ¬ Awaits s p
  | .preparation p => WithdrawnBy p l → s.application = none
  | _ => True

/-- The result belongs to a retained worker which has not ended, and proves its end. -/
def Folded (r : ActionRecord) (v : VerifiedWorkerResult) : Prop :=
  r.actionId = v.actionId ∧ verifiedResultRelationshipError r v = none ∧
    (r.lifecycle = .admitted ∨ r.lifecycle = .dispatched ∨ r.lifecycle = .stopping)

/-- What a replay of one result leaves. -/
structure Replayed (s : State) (r : ActionRecord) (u : Option WorkerUnit)
    (v : VerifiedWorkerResult) (t : State) : Prop where
  coherent : Coherent t
  generation : t.eventGeneration = s.eventGeneration
  aftermath : Aftermath s r u v.terminalLifecycle (some v.exitStatus) t

theorem Replayed.endsApplication {s t : State} {r : ActionRecord} {u : Option WorkerUnit}
    {v : VerifiedWorkerResult} (h : Replayed s r u v t) (hk : r.kind = .application) :
    EndsApplication v.terminalLifecycle t := by
  cases r with
  | application w => exact h.aftermath.endsApplication
  | _ => cases hk

section Replays

variable {s : State} (h : Coherent s) {r : ActionRecord} (hr : r ∈ s.actions)
  {v : VerifiedWorkerResult} (hid : r.actionId = v.actionId) {m : EventMetadata}
  (hm : m.bootId = s.bootId)
include h hr hid hm

theorem Coherent.acknowledges (hk : r.kind ≠ .plan) (hl : r.lifecycle = .stopping) :
    Guarded (reduce s (resultAcknowledgement v m)) (Concludable s v.terminalLifecycle r)
      fun d => Replayed s r r.unit? v d.state := by
  refine h.reduces ?_ hm (by rintro b ⟨⟩)
  have hfound : s.actionForId v.actionId = some r := hid ▸ State.actionForId_of_mem hr
  change Guarded (cancellationAcknowledged s _) _ _
  unfold cancellationAcknowledged
  rw [show s.actionForId _ = some r from hfound]
  cases r with
  | planning w => exact absurd rfl hk
  | probe w =>
    dsimp only
    rw [if_pos (show w.lifecycle = .stopping from hl)]
    refine (h.acknowledgeProbe (State.probe_of_mem hr) hl _).guarded.mono fun d hd => ?_
    exact ⟨hd.1, hd.2.1, hd.2.2⟩
  | application w =>
    dsimp only
    rw [if_pos (show w.lifecycle = .stopping from hl)]
    refine (h.acknowledgeApplication (State.application_of_mem hr) hl _).guarded.mono fun d hd => ?_
    exact ⟨hd.1, hd.2.1, hd.2.2⟩
  | preparation w =>
    dsimp only
    rw [if_pos (show w.lifecycle = .stopping from hl)]
    refine (h.acknowledgePreparation (State.preparation_of_mem hr) hl _).guarded.mono fun d hd => ?_
    exact ⟨hd.1, hd.2.1, hd.2.2⟩
  | finalization w =>
    dsimp only
    rw [if_pos (show w.lifecycle = .stopping from hl)]
    refine (h.acknowledgeFinalization (State.finalization_of_mem hr) hl _).guarded.mono
      fun d hd => ?_
    exact ⟨hd.1, hd.2.1, hd.2.2⟩

/-- A doubt stops the worker in its slot and permits its acknowledgement. -/
theorem Coherent.doubts (hk : r.kind ≠ .plan) (hl : r.lifecycle = .dispatched)
    {l : ActionLifecycle} (hdoubt : l = .unknown ∨ l = .timedOut) :
    Guarded (reduce s (resultDoubt v m)) (Concludable s l r) fun d => Coherent d.state ∧
      d.state.eventGeneration = s.eventGeneration ∧
      ∃ q, Proceeds s r r.unit? .stopping d.state q ∧ Concludable d.state l q := by
  refine h.reduces ?_ hm (by rintro b ⟨⟩)
  have hfound : s.actionForId v.actionId = some r := hid ▸ State.actionForId_of_mem hr
  have hne : l ≠ .completed ∧ l ≠ .failed := by
    rcases hdoubt with rfl | rfl <;> decide
  change Guarded (workerStatusUnknown s _) _ _
  unfold workerStatusUnknown
  rw [show s.actionForId _ = some r from hfound]
  dsimp only
  rw [if_neg (by simp [hl])]
  cases r with
  | planning w => exact absurd rfl hk
  | probe w =>
    refine (h.doubtProbe (State.probe_of_mem hr) hl _).guarded.mono fun d hd => ?_
    obtain ⟨hcoherent, hgeneration, b, hb, hproceeds⟩ := hd
    exact ⟨hcoherent, hgeneration, .probe b, hproceeds, trivial⟩
  | application w =>
    refine ((h.doubtApplication (State.application_of_mem hr) hl _).guarded.mono
      fun d hd => ?_).congr ?_
    · obtain ⟨hcoherent, hgeneration, b, hb, hproceeds⟩ := hd
      exact ⟨hcoherent, hgeneration, .application b, hproceeds, fun hc => absurd hc hne.1⟩
    · exact iff_of_true trivial fun hc => absurd hc hne.1
  | preparation w =>
    have hwithdrawn : WithdrawnBy w l := ⟨hne.1, .inr hne.2⟩
    refine ((h.doubtPreparation (State.preparation_of_mem hr) hl _).guarded.mono
      fun d hd => ?_).congr ?_
    · obtain ⟨hcoherent, hgeneration, hphase, b, hb, hproceeds⟩ := hd
      exact ⟨hcoherent, hgeneration, .preparation b, hproceeds,
        fun _ => hcoherent.application_none hphase⟩
    · exact ⟨fun hnone _ => hnone, fun hperm => hperm hwithdrawn⟩
  | finalization w =>
    refine (h.doubtFinalization (State.finalization_of_mem hr) hl _).guarded.mono fun d hd => ?_
    obtain ⟨hcoherent, hgeneration, b, hb, hproceeds⟩ := hd
    exact ⟨hcoherent, hgeneration, .finalization b, hproceeds, trivial⟩

theorem Coherent.finishes (hk : r.kind ≠ .plan) (hl : r.lifecycle = .dispatched)
    (hplan : r.kind = .preparation → r.planHash? = v.planHash)
    {o : WorkerOutcome} (ho : resultOutcome v.terminalLifecycle = some o) :
    ∃ e, resultCompletionEvent v m = .ok e ∧
      Guarded (reduce s e) (Concludable s v.terminalLifecycle r)
        fun d => Replayed s r r.unit? v d.state := by
  have hkind : v.actionId.kind = r.kind := hid ▸ r.kind_eq
  unfold resultCompletionEvent
  rw [ho]
  dsimp only
  cases r with
  | planning w => exact absurd rfl hk
  | probe w =>
    replace hkind : v.actionId.kind = .probe := hkind
    split <;> rename_i hkv <;> cases hkind.symm.trans hkv
    refine ⟨_, rfl, ?_⟩
    refine h.reduces ?_ hm (by rintro b ⟨⟩)
    change Guarded (MonitorController.probeFinished s v.actionId o (some v.exitStatus)
      m.processedAtMs) _ _
    rw [← hid]
    exact (h.probeFinished (State.probe_of_mem hr) hl ho ..).guarded.mono fun d hd =>
      ⟨hd.1, hd.2.1, hd.2.2⟩
  | application w =>
    replace hkind : v.actionId.kind = .application := hkind
    split <;> rename_i hkv <;> cases hkind.symm.trans hkv
    refine ⟨_, rfl, ?_⟩
    refine h.reduces ?_ hm (by rintro b ⟨⟩)
    change Guarded (MonitorController.applicationFinished s v.actionId o (some v.exitStatus)
      m.processedAtMs) _ _
    rw [← hid]
    exact (h.applicationFinished (State.application_of_mem hr) hl ho ..).guarded.mono fun d hd =>
      ⟨hd.1, hd.2.1, hd.2.2⟩
  | preparation w =>
    replace hkind : v.actionId.kind = .preparation := hkind
    have hash : some w.planHash = v.planHash := hplan rfl
    split <;> rename_i hkv <;> cases hkind.symm.trans hkv
    rw [← hash]
    refine ⟨_, rfl, ?_⟩
    refine h.reduces ?_ hm (by rintro b ⟨⟩)
    change Guarded (MonitorController.preparationFinished s v.actionId o (some v.exitStatus)
      m.processedAtMs w.planHash) _ _
    rw [← hid]
    exact (h.preparationFinished (State.preparation_of_mem hr) hl ho ..).guarded.mono fun d hd =>
      ⟨hd.1, hd.2.1, hd.2.2⟩
  | finalization w =>
    replace hkind : v.actionId.kind = .finalization := hkind
    split <;> rename_i hkv <;> cases hkind.symm.trans hkv
    refine ⟨_, rfl, ?_⟩
    refine h.reduces ?_ hm (by rintro b ⟨⟩)
    change Guarded (MonitorController.finalizationFinished s v.actionId o (some v.exitStatus)
      m.processedAtMs) _ _
    rw [← hid]
    exact (h.finalizationFinished (State.finalization_of_mem hr) hl ho ..).guarded.mono fun d hd =>
      ⟨hd.1, hd.2.1, hd.2.2⟩

/-- A launched worker is as concludable as the admitted one. -/
theorem Coherent.launches (hk : r.kind ≠ .plan) (hl : r.lifecycle = .admitted) :
    ∃ e, resultDispatchEvent v m = .ok e ∧
      Guarded (reduce s e) (Launchable s r) fun d => Coherent d.state ∧
        d.state.eventGeneration = s.eventGeneration ∧
        ∃ q, Proceeds s r (some v.unit) .dispatched d.state q ∧
          ∀ l, Concludable d.state l q ↔ Concludable s l r := by
  have hkind : v.actionId.kind = r.kind := hid ▸ r.kind_eq
  unfold resultDispatchEvent
  cases r with
  | planning w => exact absurd rfl hk
  | probe w =>
    replace hkind : v.actionId.kind = .probe := hkind
    split <;> rename_i hkv <;> cases hkind.symm.trans hkv
    refine ⟨_, rfl, h.reduces ?_ hm (by rintro b ⟨⟩)⟩
    refine ((h.launchProbe (State.probe_of_mem hr) hl _ hid.symm).guarded.mono
      fun d hd => ?_).congr .rfl
    obtain ⟨hcoherent, hgeneration, b, hb, hproceeds⟩ := hd
    exact ⟨hcoherent, hgeneration, .probe b, hproceeds, fun l => .rfl⟩
  | application w =>
    replace hkind : v.actionId.kind = .application := hkind
    split <;> rename_i hkv <;> cases hkind.symm.trans hkv
    refine ⟨_, rfl, h.reduces ?_ hm (by rintro b ⟨⟩)⟩
    refine ((h.launchApplication (State.application_of_mem hr) hl _ hid.symm).guarded.mono
      fun d hd => ?_).congr ⟨fun hidle _ => hidle, fun hidle => hidle hl⟩
    obtain ⟨hcoherent, hgeneration, hprep, b, hb, hproceeds⟩ := hd
    refine ⟨hcoherent, hgeneration, .application b, hproceeds, fun l => ?_⟩
    simp only [Concludable, Awaits, hprep, hgeneration]
  | preparation w =>
    replace hkind : v.actionId.kind = .preparation := hkind
    split <;> rename_i hkv <;> cases hkind.symm.trans hkv
    refine ⟨_, rfl, h.reduces ?_ hm (by rintro b ⟨⟩)⟩
    refine ((h.launchPreparation (State.preparation_of_mem hr) hl _ hid.symm).guarded.mono
      fun d hd => ?_).congr ⟨fun hidle _ => hidle, fun hidle => hidle hl⟩
    obtain ⟨hcoherent, hgeneration, happ, b, hb, hproceeds⟩ := hd
    refine ⟨hcoherent, hgeneration, .preparation b, hproceeds, fun l => ?_⟩
    have hbl : b.lifecycle = .dispatched := hproceeds.record.lifecycle
    simp only [Concludable, WithdrawnBy, happ, hbl, show w.lifecycle = .admitted from hl,
      reduceCtorEq, false_or]
  | finalization w =>
    replace hkind : v.actionId.kind = .finalization := hkind
    split <;> rename_i hkv <;> cases hkind.symm.trans hkv
    refine ⟨_, rfl, h.reduces ?_ hm (by rintro b ⟨⟩)⟩
    refine ((h.launchFinalization (State.finalization_of_mem hr) hl _ hid.symm).guarded.mono
      fun d hd => ?_).congr .rfl
    obtain ⟨hcoherent, hgeneration, b, hb, hproceeds⟩ := hd
    exact ⟨hcoherent, hgeneration, .finalization b, hproceeds, fun l => .rfl⟩

/-- The end of a running worker returns exactly when it is concludable. -/
theorem Coherent.concludes (hk : r.kind ≠ .plan)
    (hl : r.lifecycle = .dispatched ∨ r.lifecycle = .stopping)
    (hplan : r.kind = .preparation → r.planHash? = v.planHash) :
    Guarded (concludeResult s r v m) (Concludable s v.terminalLifecycle r)
      (Replayed s r r.unit? v) := by
  unfold concludeResult
  split
  next hstopping =>
    refine ((h.acknowledges hr hid hm hk hstopping).bind fun d hd => .of_ok hd).congr ?_
    simp
  next hstopping =>
    have hdispatched := hl.resolve_right hstopping
    split
    next hdoubt =>
      have hkind : v.actionId.kind ≠ .plan := fun hv => hk (r.kind_eq.symm.trans (hid ▸ hv))
      refine (((h.doubts hr hid hm hk hdispatched hdoubt).and (resultDoubt_spares hkind)).bind
        (q := True) fun d hd => ?_).congr (by simp)
      obtain ⟨⟨hcoherent, hgeneration, q, hproceeds, hconcludable⟩, hspares⟩ := hd
      have hq := hproceeds.record
      have hboot : m.bootId = d.state.bootId := hm.trans hspares.bootId.symm
      refine ((hcoherent.acknowledges hproceeds.mem (hq.actionId.trans hid) hboot (hq.kind ▸ hk)
        hq.lifecycle).bind fun d' hd' => .of_ok ?_).congr ?_
      · exact ⟨hd'.coherent, hd'.generation.trans hgeneration,
          hproceeds.aftermath (hq.unit ▸ hd'.aftermath)⟩
      · simp [hconcludable]
    next hdoubt =>
      obtain ⟨o, ho⟩ : ∃ o, resultOutcome v.terminalLifecycle = some o := by
        have hterminal := v.terminal
        cases hvl : v.terminalLifecycle <;>
          simp_all [resultOutcome, ActionLifecycle.terminal]
      obtain ⟨e, he, hfinished⟩ := h.finishes hr hid hm hk hdispatched hplan ho
      rw [he, ok_bind]
      refine (hfinished.bind fun d hd => .of_ok hd).congr ?_
      simp

omit hm in
/-- A result is replayed exactly when its worker may be launched and concluded. -/
theorem Coherent.replays (hk : r.kind ≠ .plan)
    (hl : r.lifecycle = .admitted ∨ r.lifecycle = .dispatched ∨ r.lifecycle = .stopping)
    (hunit : r.lifecycle ≠ .admitted → r.unit? = some v.unit)
    (hplan : r.kind = .preparation → r.planHash? = v.planHash) :
    Guarded (applyVerifiedResult s r v)
      (Launchable s r ∧ Concludable s v.terminalLifecycle r)
      fun o => ∃ t, o = some t ∧ Replayed s r (some v.unit) v t := by
  unfold applyVerifiedResult
  split
  next => exact absurd rfl hk
  next =>
    dsimp only
    split
    next hadmitted =>
      obtain ⟨e, he, hlaunched⟩ :=
        h.launches hr hid (m := ⟨v.finishedMonotonicMs, s.bootId⟩) rfl hk hadmitted
      rw [he, ok_bind]
      refine (hlaunched.and (resultDispatch_spares he)).bind fun d hd => ?_
      obtain ⟨⟨hcoherent, hgeneration, q, hproceeds, hconcludable⟩, hspares⟩ := hd
      have hq := hproceeds.record
      have hfound : d.state.actionForId v.actionId = some q := by
        rw [← hid, ← hq.actionId]
        exact State.actionForId_of_mem hproceeds.mem
      rw [hfound]
      dsimp only
      refine ((hcoherent.concludes hproceeds.mem (hq.actionId.trans hid) hspares.bootId.symm
        (hq.kind ▸ hk) (.inl hq.lifecycle) fun hkind => ?_).bind fun t ht => .of_ok ?_).congr ?_
      · exact hq.planHash.trans (hplan (hq.kind ▸ hkind))
      · exact ⟨t, rfl, ht.coherent, ht.generation.trans hgeneration,
          hproceeds.aftermath (hq.unit ▸ ht.aftermath)⟩
      · simp [hconcludable]
    next hadmitted =>
      have hrunning := hl.resolve_left hadmitted
      refine ((h.concludes hr hid rfl hk hrunning hplan).bind
        fun t ht => .of_ok ⟨t, rfl, hunit hadmitted ▸ ht⟩).congr ?_
      have hlaunchable : Launchable s r := by
        cases r <;> first | trivial | exact fun hl => absurd hl hadmitted
      simp [hlaunchable]

end Replays

theorem related_of_none {r : ActionRecord} {v : VerifiedWorkerResult}
    (h : verifiedResultRelationshipError r v = none) :
    r.kind ≠ .plan ∧ (r.lifecycle ≠ .admitted → r.unit? = some v.unit) ∧
      (r.kind.deferred = true → r.planHash? = v.planHash) := by
  unfold verifiedResultRelationshipError at h
  rw [r.kind_eq] at h
  split at h
  next => cases h
  next hplan =>
    split at h
    next => cases h
    next hunit =>
      split at h
      next => cases h
      next hash =>
        refine ⟨?_, fun hl => ?_, fun hd => ?_⟩
        · cases r with
          | planning a => exact absurd rfl (hplan a)
          | _ => rintro ⟨⟩
        · by_contra hne
          exact hunit ⟨hl, hne⟩
        · by_contra hne
          exact hash ⟨hd, hne⟩

section Represented

variable {s t : State} {r : ActionRecord} {v : VerifiedWorkerResult}

theorem Coherent.find?_tombstone (h : Coherent s) (hr : r ∈ s.actions) :
    s.actionTombstones.find? (·.actionId = r.actionId) =
      if ht : r.lifecycle.terminal = true then some ⟨r.actionId, r.lifecycle, ht⟩ else none := by
  split
  next ht =>
    obtain ⟨u, hu, hid, hl⟩ := (h.ledger.recorded r hr _).mpr ⟨ht, rfl⟩
    have hsame : u = ⟨r.actionId, r.lifecycle, ht⟩ := ActionTombstone.ext hid hl
    rw [← hsame]
    refine find?_of_unique hu (by simp [hid]) fun w hw hwid => ?_
    exact List.inj_on_of_nodup_map h.ledger.tidy hw hu ((of_decide_eq_true hwid).trans hid.symm)
  next ht =>
    refine List.find?_eq_none.mpr fun u hu hid => ht ?_
    exact ((h.ledger.recorded r hr u.lifecycle).mp ⟨u, hu, of_decide_eq_true hid, rfl⟩).1

theorem verifiedResultIsRepresented_congr
    (hrecord : t.actionForId v.actionId = s.actionForId v.actionId)
    (htombstone : t.actionTombstones.find? (·.actionId = v.actionId) =
      s.actionTombstones.find? (·.actionId = v.actionId)) :
    verifiedResultIsRepresented t v = verifiedResultIsRepresented s v := by
  unfold verifiedResultIsRepresented
  rw [hrecord, htombstone]

theorem State.find?_burial (h : s.Tidy) (v : VerifiedWorkerResult) :
    (s.burial v.actionId v.terminalLifecycle).find? (·.actionId = v.actionId) =
      some v.tombstone := by
  have hnodup := h.burial v.actionId v.terminalLifecycle
  obtain ⟨kept, -, hburial⟩ := h.burial_eq_append v.actionId v.terminal
  rw [hburial] at hnodup ⊢
  refine find?_of_unique (a := v.tombstone) (List.mem_append_right _ List.mem_cons_self)
    (by simp [VerifiedWorkerResult.tombstone]) fun w hw hid => ?_
  exact List.inj_on_of_nodup_map hnodup hw (List.mem_append_right _ List.mem_cons_self)
    (of_decide_eq_true hid)

/-- A replayed result is represented, unless a failed worker had another plan. -/
theorem Replayed.represented_iff (h : Replayed s r (some v.unit) v t) (hs : Coherent s)
    (hr : r ∈ s.actions) (hid : r.actionId = v.actionId) (hk : r.kind ≠ .plan)
    (hl : r.lifecycle.terminal = false)
    (hplan : r.kind.deferred = true → r.planHash? = v.planHash) :
    verifiedResultIsRepresented t v = true ↔
      (v.terminalLifecycle.failedLifecycle = true → r.planHash? = v.planHash) := by
  have hkind : v.actionId.kind = r.kind := hid ▸ r.kind_eq
  have hfound {q : ActionRecord} (hslot : t.slot r.kind = some q) {u : Option WorkerUnit}
      {l : ActionLifecycle} {x : Option Int} (hq : Succeeds r u l x q) :
      t.actionForId v.actionId = some q := by
    rw [← hq.kind] at hslot
    rw [← hid, ← hq.actionId]
    exact State.actionForId_of_mem (State.mem_actions_of_slot hslot)
  have hworker {q : ActionRecord} (hq : q.kind = r.kind) : ∀ a, q ≠ .planning a := by
    rintro a rfl
    exact hk hq.symm
  unfold verifiedResultIsRepresented
  rw [hkind]
  cases h.aftermath with
  | gone hf hd hslot hts =>
    have hnone : t.actionForId v.actionId = none := by
      by_contra hne
      obtain ⟨q, hq⟩ := Option.ne_none_iff_exists'.mp hne
      obtain ⟨hmem, hqid⟩ := State.actionForId_eq_some hq
      have hqk : q.kind = r.kind := by rw [← q.kind_eq, hqid, hkind]
      exact absurd (hslot.symm.trans (hqk ▸ State.slot_of_mem_actions hmem)) (by simp)
    rw [hnone, hts, hid, State.find?_burial hs.ledger.tidy]
    dsimp only
    unfold Defers at hd
    rw [if_neg hd, if_neg (by simp [hf])]
    simp [hf]
  | failed hf q hslot hq hts =>
    have hd : ¬ Defers r.kind v.terminalLifecycle := by
      rintro ⟨hc, -⟩
      rw [hc] at hf
      cases hf
    rw [hfound hslot hq, hts, hid, State.find?_burial hs.ledger.tidy]
    dsimp only
    split
    next a ha => exact absurd (Option.some.inj ha) (hworker hq.kind a)
    next =>
      unfold Defers at hd
      rw [if_neg hd, if_pos hf]
      simp [hq.unit, hq.lifecycle, hq.exitStatus, hq.planHash, hf]
  | pending hd q hslot hq hts =>
    have hnone : t.actionTombstones.find? (·.actionId = v.actionId) = none := by
      rw [hts, ← hid, hs.find?_tombstone hr, dif_neg (by simp [hl])]
    rw [hfound hslot hq, hnone]
    dsimp only
    split
    next a ha => exact absurd (Option.some.inj ha) (hworker hq.kind a)
    next =>
      unfold Defers at hd
      rw [if_pos hd]
      simp [hq.unit, hq.lifecycle, hq.exitStatus, hq.planHash, hplan hd.2, hd.1,
        ActionLifecycle.failedLifecycle]

end Represented

end MonitorController
