import MonitorController.Foundation.Dict
import MonitorController.Codec.Persistence
import MonitorController.Values.Names

/-! # Worker namespace snapshots

What a scan of the worker namespace finds, and the maps by action identity on
which recovery compares it with the persisted state.
-/

namespace MonitorController

/-- Independently bound terminal transaction output from an inactive unit. -/
@[ext] structure VerifiedWorkerResult where
  unit : WorkerUnit
  terminalLifecycle : ActionLifecycle
  exitStatus : Nat
  finishedMonotonicMs : Nat
  planHash : Option PlanHash := none
  terminal : terminalLifecycle.terminal = true
  status_bound : exitStatus ≤ 255
  status_completed : terminalLifecycle = .completed ↔ exitStatus = 0

instance : DecidableEq VerifiedWorkerResult := fun _ _ =>
  decidable_of_iff' _ VerifiedWorkerResult.ext_iff

def VerifiedWorkerResult.actionId (r : VerifiedWorkerResult) : ActionId := r.unit.actionId

def VerifiedWorkerResult.tombstone (r : VerifiedWorkerResult) : ActionTombstone :=
  ⟨r.actionId, r.terminalLifecycle, r.terminal⟩

theorem nodup_noResults : (([] : List VerifiedWorkerResult).map (·.actionId)).Nodup := by simp

theorem agree_noResults : ∀ r ∈ ([] : List VerifiedWorkerResult),
    ∀ t ∈ ([] : List ActionTombstone).reverse.find? (·.actionId = r.actionId),
      t.lifecycle = r.terminalLifecycle := by
  simp

/-- Independently observed worker and durable terminal facts. -/
structure WorkerNamespaceSnapshot where
  units : List WorkerUnit := []
  verifiedTombstones : List ActionTombstone := []
  verifiedResults : List VerifiedWorkerResult := []
  actionSequenceHighWater : Nat := 0
  transitionSequenceHighWater : Nat := 0
  verifiedFinalizedProfile : Option Text := none
  ambiguities : List Text := []
  results_unique : (verifiedResults.map (·.actionId)).Nodup := by
    first | exact nodup_noResults | simp
  results_agree : ∀ r ∈ verifiedResults,
    ∀ t ∈ verifiedTombstones.reverse.find? (·.actionId = r.actionId),
      t.lifecycle = r.terminalLifecycle := by
    first | exact agree_noResults | simp

namespace WorkerNamespaceSnapshot

variable (snapshot : WorkerNamespaceSnapshot)

/-- The terminal evidence of the snapshot, results as tombstones after the plain tombstones. -/
def evidence : List ActionTombstone :=
  snapshot.verifiedTombstones ++ snapshot.verifiedResults.map (·.tombstone)

def verifiedTerminalIds : List ActionId := snapshot.evidence.map (·.actionId)

def scannedIds : List ActionId := snapshot.units.map (·.actionId)

end WorkerNamespaceSnapshot

def sortedByAction {α : Type} (identity : α → ActionId) (l : List α) : List α :=
  l.mergeSort fun a b => (identity a).value ≤ (identity b).value

@[simp] theorem mem_sortedByAction {α : Type} {identity : α → ActionId} {l : List α} {a : α} :
    a ∈ sortedByAction identity l ↔ a ∈ l := List.mem_mergeSort

theorem sortedByAction_perm {α : Type} (identity : α → ActionId) (l : List α) :
    (sortedByAction identity l).Perm l := List.mergeSort_perm _ _

/-- `_unit_map` behind the units which are already mapped. -/
def unitMapFrom (mapped : Dict String WorkerUnit) :
    List WorkerUnit → Dict String WorkerUnit × List String
  | [] => (mapped, [])
  | unit :: units =>
    let key := unit.actionId.value
    match mapped.get? key with
    | some previous =>
      let rest := unitMapFrom mapped units
      if previous ≠ unit then (rest.1, ("conflicting units for action " ++ key) :: rest.2)
      else (rest.1, ("duplicate unit for action " ++ key) :: rest.2)
    | none => unitMapFrom (mapped.insert key unit) units

def unitMap (units : List WorkerUnit) : Dict String WorkerUnit × List String :=
  unitMapFrom [] units

def uniqueUnits (units : List WorkerUnit) : List WorkerUnit :=
  sortedByAction (·.actionId) (unitMap units).1.values

/-- One verdict does not stand against another. -/
def Disputes (l l' : ActionLifecycle) : Prop :=
  l ≠ l' ∧ ¬ (l = .failed ∧ l' = .completed)

theorem not_disputes {l l' : ActionLifecycle} :
    ¬ Disputes l l' ↔ l = l' ∨ l = .failed ∧ l' = .completed := by
  unfold Disputes
  tauto

/-- No tombstone disputes the first verdict on its action. -/
def Undisputed (tombstones : List ActionTombstone) : Prop :=
  ∀ t ∈ tombstones, ∀ first ∈ tombstones.find? (·.actionId = t.actionId),
    ¬ Disputes first.lifecycle t.lifecycle

/-- `_merge_tombstones` behind the tombstones which are already merged. A failed verdict stands
against a completed one. -/
def mergeFrom (merged : Dict String ActionTombstone) :
    List ActionTombstone → Dict String ActionTombstone × List String
  | [] => (merged, [])
  | tombstone :: tombstones =>
    let key := tombstone.actionId.value
    match merged.get? key with
    | some previous =>
      if previous.lifecycle ≠ tombstone.lifecycle then
        if previous.lifecycle = .failed ∧ tombstone.lifecycle = .completed then
          mergeFrom merged tombstones
        else
          let rest := mergeFrom (merged.insert key tombstone) tombstones
          (rest.1, ("conflicting terminal lifecycle for action " ++ key) :: rest.2)
      else mergeFrom (merged.insert key tombstone) tombstones
    | none => mergeFrom (merged.insert key tombstone) tombstones

def mergeTombstones (persisted verified : List ActionTombstone) :
    List ActionTombstone × List String :=
  let merged := mergeFrom [] (persisted ++ verified)
  (sortedByAction (·.actionId) merged.1.values, merged.2)

theorem find?_spelling {α : Type} (identity : α → ActionId) (l : List α) (a : ActionId) :
    l.find? (fun x => (identity x).value = a.value) = l.find? fun x => identity x = a := by
  have hspelling : (fun x => decide ((identity x).value = a.value)) =
      fun x => decide (identity x = a) := by
    funext x
    exact decide_eq_decide.mpr ⟨ActionId.value_inj, congrArg _⟩
  rw [hspelling]

theorem nodup_spelling {α : Type} {identity : α → ActionId} {l : List α} :
    (l.map fun x => (identity x).value).Nodup ↔ (l.map identity).Nodup := by
  have hspelling : l.map (fun x => (identity x).value) = (l.map identity).map ActionId.value := by
    simp
  rw [hspelling]
  exact List.nodup_map_iff fun _ _ => ActionId.value_inj

/-- Entries are filed under the spelling of their action. -/
def Filed {ν : Type} (identity : ν → ActionId) (d : Dict String ν) : Prop :=
  d.keys.Nodup ∧ ∀ k v, d.get? k = some v → (identity v).value = k

namespace Filed

variable {ν : Type} {identity : ν → ActionId} {d : Dict String ν}

theorem nil : Filed identity [] :=
  ⟨List.nodup_nil, by rintro k v ⟨⟩⟩

theorem insert (h : Filed identity d) (v : ν) :
    Filed identity (d.insert (identity v).value v) := by
  refine ⟨Dict.nodup_insert h.1 _ _, fun k w hw => ?_⟩
  rw [Dict.get?_insert] at hw
  split at hw
  next hk => exact Option.some.inj hw ▸ hk
  next hk => exact h.2 k w hw

theorem mem_values (h : Filed identity d) {v : ν} :
    v ∈ d.values ↔ d.get? (identity v).value = some v := by
  rw [Dict.mem_values h.1]
  constructor
  · rintro ⟨k, hk⟩
    obtain rfl := h.2 k v hk
    exact hk
  · intro hv
    exact ⟨_, hv⟩

theorem nodup_values (h : Filed identity d) : (d.values.map identity).Nodup := by
  have hkeys : d.values.map (fun v => (identity v).value) = d.keys := by
    simp only [Dict.values, Dict.keys, List.map_map]
    refine List.map_congr_left fun e he => ?_
    exact h.2 e.1 e.2 ((Dict.mem_iff_get? h.1).mp he)
  exact nodup_spelling.mp (hkeys ▸ h.1)

end Filed

section Units

variable {mapped : Dict String WorkerUnit} {units : List WorkerUnit} {u : WorkerUnit}

theorem unitMapFrom_cons_none (h : mapped.get? u.actionId.value = none) :
    unitMapFrom mapped (u :: units) = unitMapFrom (mapped.insert u.actionId.value u) units := by
  simp only [unitMapFrom, h]

theorem unitMapFrom_cons_some {v : WorkerUnit} (h : mapped.get? u.actionId.value = some v) :
    (unitMapFrom mapped (u :: units)).1 = (unitMapFrom mapped units).1 ∧
      (unitMapFrom mapped (u :: units)).2 ≠ [] := by
  simp only [unitMapFrom, h]
  split <;> simp

/-- The first unit of an action is mapped. -/
theorem unitMapFrom_spec (h : Filed (·.actionId) mapped) :
    Filed (·.actionId) (unitMapFrom mapped units).1 ∧
      ∀ k, (unitMapFrom mapped units).1.get? k =
        (mapped.get? k).or (units.find? (·.actionId.value = k)) := by
  induction units generalizing mapped with
  | nil => exact ⟨h, fun k => by simp [unitMapFrom]⟩
  | cons unit units ih =>
    cases hk : mapped.get? unit.actionId.value with
    | some previous =>
      obtain ⟨hfiled, hget⟩ := ih h
      rw [(unitMapFrom_cons_some hk).1]
      refine ⟨hfiled, fun k => ?_⟩
      rw [hget]
      by_cases hu : unit.actionId.value = k
      · subst hu
        simp [hk]
      · simp [hu]
    | none =>
      obtain ⟨hfiled, hget⟩ := ih (h.insert unit)
      rw [unitMapFrom_cons_none hk]
      refine ⟨hfiled, fun k => ?_⟩
      rw [hget, Dict.get?_insert]
      by_cases hu : unit.actionId.value = k
      · subst hu
        simp [hk]
      · simp [hu]

theorem filed_unitMap (units : List WorkerUnit) : Filed (·.actionId) (unitMap units).1 :=
  (unitMapFrom_spec .nil).1

theorem get?_unitMap (units : List WorkerUnit) (k : String) :
    (unitMap units).1.get? k = units.find? (·.actionId.value = k) := by
  have hget : (unitMapFrom [] units).1.get? k =
      (Dict.get? k []).or (units.find? (·.actionId.value = k)) := (unitMapFrom_spec .nil).2 k
  simpa [unitMap] using hget

theorem unitMapFrom_reasons :
    (unitMapFrom mapped units).2 = [] ↔
      (units.map (·.actionId.value)).Nodup ∧
        ∀ u ∈ units, mapped.get? u.actionId.value = none := by
  induction units generalizing mapped with
  | nil => simp [unitMapFrom]
  | cons unit units ih =>
    cases hk : mapped.get? unit.actionId.value with
    | some previous => simp [(unitMapFrom_cons_some hk).2, hk]
    | none =>
      simp only [unitMapFrom_cons_none hk, ih, List.map_cons, List.nodup_cons,
        List.forall_mem_cons, hk, true_and, Dict.get?_insert, List.mem_map, not_exists, not_and]
      constructor
      · rintro ⟨hnodup, hnew⟩
        refine ⟨⟨fun u hu heq => ?_, hnodup⟩, fun u hu => ?_⟩
        · have hu := hnew u hu
          simp [heq] at hu
        · have hu := hnew u hu
          split at hu
          · cases hu
          · exact hu
      · rintro ⟨⟨hne, hnodup⟩, hnew⟩
        refine ⟨hnodup, fun u hu => ?_⟩
        rw [if_neg fun heq => hne u hu heq.symm]
        exact hnew u hu

theorem unitMap_reasons :
    (unitMap units).2 = [] ↔ (units.map (·.actionId)).Nodup := by
  rw [← nodup_spelling, unitMap, unitMapFrom_reasons]
  simp

theorem mem_uniqueUnits :
    u ∈ uniqueUnits units ↔ units.find? (·.actionId = u.actionId) = some u := by
  rw [uniqueUnits, mem_sortedByAction, (filed_unitMap units).mem_values, get?_unitMap,
    find?_spelling]

theorem nodup_uniqueUnits (units : List WorkerUnit) :
    ((uniqueUnits units).map (·.actionId)).Nodup :=
  ((sortedByAction_perm _ _).map _).nodup_iff.mpr (filed_unitMap units).nodup_values

end Units

section Tombstones

variable {merged : Dict String ActionTombstone} {tombstones : List ActionTombstone}

theorem mergeFrom_cons (merged : Dict String ActionTombstone) (t : ActionTombstone)
    (ts : List ActionTombstone) :
    (mergeFrom merged (t :: ts) = mergeFrom merged ts ∧
        ∃ previous, merged.get? t.actionId.value = some previous) ∨
      ((mergeFrom merged (t :: ts)).1 = (mergeFrom (merged.insert t.actionId.value t) ts).1 ∧
        ((mergeFrom merged (t :: ts)).2 = [] →
          (mergeFrom (merged.insert t.actionId.value t) ts).2 = [] ∧
            ∀ previous, merged.get? t.actionId.value = some previous →
              previous.lifecycle = t.lifecycle)) := by
  cases hk : merged.get? t.actionId.value with
  | none =>
    right
    simp [mergeFrom, hk]
  | some previous =>
    by_cases hlifecycle : previous.lifecycle = t.lifecycle
    · right
      simp [mergeFrom, hk, hlifecycle]
    · by_cases hstrict : previous.lifecycle = .failed ∧ t.lifecycle = .completed
      · left
        simp [mergeFrom, hk, hstrict]
      · right
        simp [mergeFrom, hk, hlifecycle, hstrict]

theorem mergeFrom_filed (h : Filed (·.actionId) merged) :
    Filed (·.actionId) (mergeFrom merged tombstones).1 := by
  induction tombstones generalizing merged with
  | nil => exact h
  | cons t ts ih =>
    rcases mergeFrom_cons merged t ts with ⟨heq, -⟩ | ⟨heq, -⟩
    · rw [heq]
      exact ih h
    · rw [heq]
      exact ih (h.insert t)

theorem mem_of_mergeFrom {k : String} {t : ActionTombstone}
    (h : (mergeFrom merged tombstones).1.get? k = some t) :
    merged.get? k = some t ∨ t ∈ tombstones := by
  induction tombstones generalizing merged with
  | nil => exact .inl h
  | cons u us ih =>
    rcases mergeFrom_cons merged u us with ⟨heq, -⟩ | ⟨heq, -⟩
    · rw [heq] at h
      exact (ih h).imp_right (List.mem_cons_of_mem _)
    · rw [heq] at h
      rcases ih h with hold | hmem
      · rw [Dict.get?_insert] at hold
        split at hold
        · exact .inr (Option.some.inj hold ▸ List.mem_cons_self)
        · exact .inl hold
      · exact .inr (List.mem_cons_of_mem _ hmem)

theorem mergeFrom_covers {k : String}
    (h : merged.get? k ≠ none ∨ ∃ t ∈ tombstones, t.actionId.value = k) :
    (mergeFrom merged tombstones).1.get? k ≠ none := by
  induction tombstones generalizing merged with
  | nil => simpa [mergeFrom] using h
  | cons u us ih =>
    rcases mergeFrom_cons merged u us with ⟨heq, previous, hprevious⟩ | ⟨heq, -⟩
    · rw [heq]
      refine ih ?_
      rcases h with hold | ⟨t, ht, hk⟩
      · exact .inl hold
      · rcases List.mem_cons.mp ht with rfl | ht
        · exact .inl (by simp [← hk, hprevious])
        · exact .inr ⟨t, ht, hk⟩
    · rw [heq]
      refine ih ?_
      rw [Dict.get?_insert]
      rcases h with hold | ⟨t, ht, hk⟩
      · exact .inl (by split <;> simp [hold])
      · rcases List.mem_cons.mp ht with rfl | ht
        · exact .inl (by simp [hk])
        · exact .inr ⟨t, ht, hk⟩

/-- Without a conflict the first evidence of an action stands. -/
theorem mergeFrom_first (h : Filed (·.actionId) merged)
    (hreasons : (mergeFrom merged tombstones).2 = []) (k : String) :
    (mergeFrom merged tombstones).1.get? k =
      (merged.get? k).or (tombstones.find? (·.actionId.value = k)) := by
  induction tombstones generalizing merged with
  | nil => simp [mergeFrom]
  | cons t ts ih =>
    rcases mergeFrom_cons merged t ts with ⟨heq, previous, hprevious⟩ | ⟨heq, hconflict⟩
    · rw [heq] at hreasons ⊢
      rw [ih h hreasons]
      by_cases hk : t.actionId.value = k
      · subst hk
        simp [hprevious]
      · simp [hk]
    · obtain ⟨hreasons, hagree⟩ := hconflict hreasons
      rw [heq, ih (h.insert t) hreasons, Dict.get?_insert]
      by_cases hk : t.actionId.value = k
      · subst hk
        cases hold : merged.get? t.actionId.value with
        | none => simp
        | some previous =>
          -- The tombstone repeats what is already merged.
          have hid := ActionId.value_inj (h.2 _ previous hold)
          have hlifecycle := hagree previous hold
          have hsame : t = previous := by
            cases t
            cases previous
            simp_all
          simp [hsame]
      · simp [hk]

def verdict (merged : Dict String ActionTombstone) (tombstones : List ActionTombstone)
    (key : String) : Option ActionLifecycle :=
  ((merged.get? key).or (tombstones.find? (·.actionId.value = key))).map (·.lifecycle)

theorem verdict_insert {u t : ActionTombstone} {us : List ActionTombstone}
    (h : ∀ previous ∈ merged.get? u.actionId.value, previous.lifecycle = u.lifecycle) :
    verdict (merged.insert u.actionId.value u) us t.actionId.value =
      verdict merged (u :: us) t.actionId.value := by
  unfold verdict
  rw [Dict.get?_insert]
  by_cases hid : u.actionId.value = t.actionId.value
  · rw [if_pos hid, ← hid]
    cases hk : merged.get? u.actionId.value with
    | none => simp
    | some previous => simp [h previous hk]
  · rw [if_neg hid, List.find?_cons_of_neg (by simpa using hid)]

/-- Nothing is reported when no evidence disputes the first verdict on its action. -/
theorem mergeFrom_eq_nil :
    (mergeFrom merged tombstones).2 = [] ↔ ∀ t ∈ tombstones,
      ∀ l ∈ verdict merged tombstones t.actionId.value, ¬ Disputes l t.lifecycle := by
  induction tombstones generalizing merged with
  | nil => simp [mergeFrom]
  | cons u us ih =>
    rw [List.forall_mem_cons]
    have hinserted (t : ActionTombstone) : (∀ previous ∈ merged.get? u.actionId.value,
        previous.lifecycle = u.lifecycle) → _ := @verdict_insert merged u t us
    cases hk : merged.get? u.actionId.value with
    | none =>
      have hfirst : ∀ l ∈ verdict merged (u :: us) u.actionId.value, ¬ Disputes l u.lifecycle := by
        intro l hl
        obtain rfl : u.lifecycle = l := by simpa [verdict, hk] using hl
        exact not_disputes.mpr (.inl rfl)
      have hrest : (mergeFrom merged (u :: us)).2 =
          (mergeFrom (merged.insert u.actionId.value u) us).2 := by
        simp only [mergeFrom, hk]
      have hinsert (t : ActionTombstone) := hinserted t (by simp [hk])
      rw [hrest, ih, and_iff_right hfirst]
      simp only [hinsert]
    | some previous =>
      have hverdict : verdict merged (u :: us) u.actionId.value = some previous.lifecycle := by
        simp [verdict, hk]
      simp only [hverdict, Option.mem_some_iff, forall_eq']
      by_cases hdisputes : Disputes previous.lifecycle u.lifecycle
      · refine iff_of_false ?_ fun hnone => hnone.1 hdisputes
        simp [mergeFrom, hk, hdisputes.1, hdisputes.2]
      rw [and_iff_right hdisputes]
      rcases not_disputes.mp hdisputes with hsame | hstrict
      · have hrest : (mergeFrom merged (u :: us)).2 =
            (mergeFrom (merged.insert u.actionId.value u) us).2 := by
          simp [mergeFrom, hk, hsame]
        have hinsert (t : ActionTombstone) := hinserted t (by simp [hk, hsame])
        simp only [hrest, ih, hinsert]
      · have hrest : (mergeFrom merged (u :: us)).2 = (mergeFrom merged us).2 := by
          simp [mergeFrom, hk, hstrict]
        have hskip (t : ActionTombstone) : verdict merged us t.actionId.value =
            verdict merged (u :: us) t.actionId.value := by
          unfold verdict
          by_cases hid : u.actionId.value = t.actionId.value
          · simp [← hid, hk]
          · rw [List.find?_cons_of_neg (by simpa using hid)]
        simp only [hrest, ih, hskip]

theorem mergeTombstones_eq_nil {persisted verified : List ActionTombstone} :
    (mergeTombstones persisted verified).2 = [] ↔ Undisputed (persisted ++ verified) := by
  rw [mergeTombstones, mergeFrom_eq_nil]
  simp only [verdict, find?_spelling ActionTombstone.actionId, Undisputed, Option.mem_map,
    forall_exists_index, and_imp, forall_apply_eq_imp_iff₂]
  rfl

theorem Undisputed.filter (h : Undisputed tombstones) (p : ActionId → Bool) :
    Undisputed (tombstones.filter (p ·.actionId)) := by
  intro t ht first hfirst
  obtain ⟨hmem, hp⟩ := List.mem_filter.mp ht
  refine h t hmem first ?_
  have hsame : (fun u : ActionTombstone => p u.actionId && decide (u.actionId = t.actionId)) =
      fun u => decide (u.actionId = t.actionId) := by
    funext u
    by_cases hid : u.actionId = t.actionId <;> simp [hid, hp]
  rw [List.find?_filter] at hfirst
  simpa [hsame] using hfirst

/-- Undisputed evidence has to stand up to the persisted evidence. -/
theorem undisputed_append {persisted verified : List ActionTombstone}
    (hnodup : (persisted.map (·.actionId)).Nodup) (h : Undisputed verified) :
    Undisputed (persisted ++ verified) ↔
      ∀ t ∈ persisted, ∀ u ∈ verified, u.actionId = t.actionId →
        ¬ Disputes t.lifecycle u.lifecycle := by
  have hfirst : ∀ t ∈ persisted, persisted.find? (·.actionId = t.actionId) = some t := by
    intro t ht
    refine find?_of_unique ht (by simp) fun w hw hid => ?_
    exact List.inj_on_of_nodup_map hnodup hw ht (of_decide_eq_true hid)
  constructor
  · intro hall t ht u hu hid
    refine hall u (List.mem_append_right _ hu) t ?_
    rw [hid, List.find?_append, hfirst t ht]
    rfl
  · intro hupheld t ht first hfound
    rw [List.find?_append] at hfound
    cases hold : persisted.find? (·.actionId = t.actionId) with
    | some u =>
      obtain rfl : u = first := by simpa [hold] using hfound
      have hu := List.mem_of_find?_eq_some hold
      have hid : u.actionId = t.actionId := by simpa using List.find?_some hold
      rcases List.mem_append.mp ht with ht | ht
      · obtain rfl := List.inj_on_of_nodup_map hnodup hu ht hid
        exact not_disputes.mpr (.inl rfl)
      · exact hupheld u hu t ht hid.symm
    | none =>
      rw [hold, Option.none_or] at hfound
      rcases List.mem_append.mp ht with ht | ht
      · exact absurd (hold.symm.trans (hfirst t ht)) (by simp)
      · exact h t ht first hfound

theorem mem_mergeTombstones {persisted verified : List ActionTombstone} {t : ActionTombstone} :
    t ∈ (mergeTombstones persisted verified).1 ↔
      (mergeFrom [] (persisted ++ verified)).1.get? t.actionId.value = some t := by
  rw [mergeTombstones, mem_sortedByAction, (mergeFrom_filed .nil).mem_values]

theorem mem_of_mergeTombstones {persisted verified : List ActionTombstone} {t : ActionTombstone}
    (h : t ∈ (mergeTombstones persisted verified).1) : t ∈ persisted ∨ t ∈ verified := by
  rcases mem_of_mergeFrom (mem_mergeTombstones.mp h) with hnil | hmem
  · cases hnil
  · exact List.mem_append.mp hmem

theorem mergeTombstones_ids {persisted verified : List ActionTombstone} {a : ActionId} :
    a ∈ (mergeTombstones persisted verified).1.map (·.actionId) ↔
      a ∈ (persisted ++ verified).map (·.actionId) := by
  constructor
  · intro h
    obtain ⟨t, ht, rfl⟩ := List.mem_map.mp h
    exact List.mem_map.mpr ⟨t, List.mem_append.mpr (mem_of_mergeTombstones ht), rfl⟩
  · intro h
    obtain ⟨t, ht, rfl⟩ := List.mem_map.mp h
    have hcovered : (mergeFrom [] (persisted ++ verified)).1.get? t.actionId.value ≠ none :=
      mergeFrom_covers (.inr ⟨t, ht, rfl⟩)
    obtain ⟨u, hu⟩ := Option.ne_none_iff_exists'.mp hcovered
    have hid := ActionId.value_inj ((mergeFrom_filed .nil).2 _ u hu)
    rw [← hid] at hu ⊢
    exact List.mem_map.mpr ⟨u, mem_mergeTombstones.mpr hu, rfl⟩

theorem nodup_mergeTombstones (persisted verified : List ActionTombstone) :
    ((mergeTombstones persisted verified).1.map (·.actionId)).Nodup :=
  ((sortedByAction_perm _ _).map _).nodup_iff.mpr (mergeFrom_filed .nil).nodup_values

theorem mem_mergeTombstones_of_persisted {persisted verified : List ActionTombstone}
    (hreasons : (mergeTombstones persisted verified).2 = [])
    (hnodup : (persisted.map (·.actionId)).Nodup) {t : ActionTombstone} (ht : t ∈ persisted) :
    t ∈ (mergeTombstones persisted verified).1 := by
  have hfirst : persisted.find? (·.actionId.value = t.actionId.value) = some t := by
    refine find?_of_unique ht (by simp) fun u hu hid => ?_
    exact List.inj_on_of_nodup_map hnodup hu ht (ActionId.value_inj (of_decide_eq_true hid))
  rw [mem_mergeTombstones, mergeFrom_first .nil hreasons, List.find?_append, hfirst]
  rfl

end Tombstones

end MonitorController
