import MonitorController.Reducer.Basic

/-! # Tombstones

Burying an action never fails: five slots can protect at most five of more than
768 tombstones. Pruning keeps the tombstone of every retained action.
-/

namespace MonitorController

section Retention

variable {isProtected : ActionId → Bool}

theorem length_retainTombstones (n : Nat) (l : List ActionTombstone) :
    (retainTombstones isProtected n l).2.length + n =
      l.length + (retainTombstones isProtected n l).1 := by
  fun_induction retainTombstones isProtected n l with
  | case1 n => rfl
  | case2 l => rfl
  | case3 n t l hp rest ih =>
    simp only [List.length_cons, rest]
    omega
  | case4 n t l hp ih =>
    simp only [List.length_cons]
    omega

theorem retainTombstones_sublist (n : Nat) (l : List ActionTombstone) :
    (retainTombstones isProtected n l).2.Sublist l := by
  fun_induction retainTombstones isProtected n l with
  | case1 n => exact List.Sublist.refl _
  | case2 l => exact List.Sublist.refl _
  | case3 n t l hp rest ih => exact ih.cons_cons t
  | case4 n t l hp ih => exact ih.cons t

theorem mem_retainTombstones {t : ActionTombstone} {n : Nat} {l : List ActionTombstone}
    (hp : isProtected t.actionId = true) (ht : t ∈ l) :
    t ∈ (retainTombstones isProtected n l).2 := by
  fun_induction retainTombstones isProtected n l with
  | case1 n => exact ht
  | case2 l => exact ht
  | case3 n t' l hp' rest ih =>
    rcases List.mem_cons.mp ht with rfl | h
    · exact List.mem_cons_self
    · exact List.mem_cons_of_mem _ (ih h)
  | case4 n t' l hp' ih =>
    rcases List.mem_cons.mp ht with rfl | h
    · exact absurd hp hp'
    · exact ih h

theorem retainTombstones_append {n : Nat} {l : List ActionTombstone} (m : List ActionTombstone)
    (h : n ≤ l.countP (!isProtected ·.actionId)) :
    (retainTombstones isProtected n (l ++ m)).2 = (retainTombstones isProtected n l).2 ++ m := by
  fun_induction retainTombstones isProtected n l with
  | case1 n =>
    obtain rfl : n = 0 := by simpa using h
    cases m <;> rfl
  | case2 l =>
    cases l ++ m <;> rfl
  | case3 n t l hp rest ih =>
    have hcount : n + 1 ≤ l.countP (!isProtected ·.actionId) := by simpa [hp] using h
    simp only [List.cons_append, retainTombstones, hp, if_true, ih hcount]
    rfl
  | case4 n t l hp ih =>
    have hcount : n ≤ l.countP (!isProtected ·.actionId) := by simpa [hp] using h
    simp only [List.cons_append, retainTombstones, hp, if_false, ih hcount, Bool.false_eq_true]

theorem retainTombstones_congr {isProtected' : ActionId → Bool} {n : Nat}
    {l : List ActionTombstone} (h : ∀ t ∈ l, isProtected t.actionId = isProtected' t.actionId) :
    retainTombstones isProtected n l = retainTombstones isProtected' n l := by
  fun_induction retainTombstones isProtected n l with
  | case1 n => cases n <;> rfl
  | case2 l => cases l <;> rfl
  | case3 n t l hp rest ih =>
    have hp' := hp
    rw [h t List.mem_cons_self] at hp'
    have hrest : rest = _ := ih fun u hu => h u (List.mem_cons_of_mem t hu)
    simp only [retainTombstones, hp', if_true, hrest]
  | case4 n t l hp ih =>
    have hp' := hp
    rw [h t List.mem_cons_self] at hp'
    simp only [retainTombstones, hp', if_false, Bool.false_eq_true]
    exact ih fun u hu => h u (List.mem_cons_of_mem t hu)

theorem retainTombstones_retainTombstones (m n : Nat) (l : List ActionTombstone)
    (h : m ≤ l.countP (!isProtected ·.actionId)) :
    (retainTombstones isProtected n (retainTombstones isProtected m l).2).2 =
      (retainTombstones isProtected (m + n) l).2 := by
  fun_induction retainTombstones isProtected m l with
  | case1 m =>
    obtain rfl : m = 0 := by simpa using h
    simp
  | case2 l => simp
  | case3 m t l hp rest ih =>
    have hcount : m + 1 ≤ l.countP (!isProtected ·.actionId) := by simpa [hp] using h
    have hsucc : m + 1 + n = m + n + 1 := by omega
    cases n with
    | zero => simp [retainTombstones, hp, rest]
    | succ n =>
      have ih := ih hcount
      rw [hsucc] at ih ⊢
      simp only [retainTombstones, hp, if_true]
      exact congrArg (t :: ·) ih
  | case4 m t l hp ih =>
    have hcount : m ≤ l.countP (!isProtected ·.actionId) := by simpa [hp] using h
    have hsucc : m + 1 + n = m + n + 1 := by omega
    rw [hsucc]
    simp only [retainTombstones, hp, if_false, Bool.false_eq_true]
    exact ih hcount

theorem retainTombstones_of_free {n : Nat} {l : List ActionTombstone}
    (h : ∀ t ∈ l, isProtected t.actionId = false) :
    (retainTombstones isProtected n l).2 = l.drop n := by
  fun_induction retainTombstones isProtected n l with
  | case1 n => simp
  | case2 l => rfl
  | case3 n t l hp rest ih => simp [h t List.mem_cons_self] at hp
  | case4 n t l hp ih =>
    rw [ih fun u hu => h u (List.mem_cons_of_mem t hu)]
    rfl

end Retention

namespace State

variable (s : State)

/-- No action has two tombstones. -/
def Tidy : Prop := (s.actionTombstones.map (·.actionId)).Nodup

/-- The tombstone list `_append_tombstone` leaves. -/
def burial (actionId : ActionId) (lifecycle : ActionLifecycle) : List ActionTombstone :=
  if h : lifecycle.terminal = true then
    let appended := s.actionTombstones.filter (·.actionId ≠ actionId) ++ [⟨actionId, lifecycle, h⟩]
    (retainTombstones s.retains (appended.length - actionTombstoneRetentionLimit) appended).2
  else s.actionTombstones

/-- The state `_append_tombstone` leaves. -/
def bury (actionId : ActionId) (lifecycle : ActionLifecycle) : State :=
  { s with
    actionTombstones := s.burial actionId lifecycle
    recoveryUnits := s.recoveryUnits.filter (·.actionId ≠ actionId) }

variable {s}

theorem length_actions_le : s.actions.length ≤ 5 := by
  have one : ∀ {α : Type} (o : Option α), o.toList.length ≤ 1 := fun o => by cases o <;> simp
  have h1 := one (s.probe.map ActionRecord.probe)
  have h2 := one (s.application.map ActionRecord.application)
  have h3 := one (s.planning.map ActionRecord.planning)
  have h4 := one (s.preparation.map ActionRecord.preparation)
  have h5 := one (s.finalization.map ActionRecord.finalization)
  simp only [actions, List.length_append]
  omega

theorem retains_iff {a : ActionId} : s.retains a = true ↔ ∃ r ∈ s.actions, r.actionId = a := by
  simp [retains]

theorem countP_retains_le {l : List ActionTombstone} (hl : (l.map (·.actionId)).Nodup) :
    l.countP (s.retains ·.actionId) ≤ 5 := by
  have hsub : (l.filter (s.retains ·.actionId)).map (·.actionId) ⊆ s.actions.map (·.actionId) := by
    intro a ha
    obtain ⟨t, ht, rfl⟩ := List.mem_map.mp ha
    obtain ⟨r, hr, hra⟩ := retains_iff.mp (List.mem_filter.mp ht).2
    exact List.mem_map.mpr ⟨r, hr, hra⟩
  have hnodup := (List.filter_sublist (p := (s.retains ·.actionId)) (l := l)).map (·.actionId)
    |>.nodup hl
  calc l.countP (s.retains ·.actionId)
      = ((l.filter (s.retains ·.actionId)).map (·.actionId)).length := by
        rw [List.length_map, List.countP_eq_length_filter]
    _ ≤ (s.actions.map (·.actionId)).length := (hnodup.subperm hsub).length_le
    _ ≤ 5 := by simpa using length_actions_le

theorem le_countP_unretained {l : List ActionTombstone} (hl : (l.map (·.actionId)).Nodup) :
    l.length ≤ l.countP (!s.retains ·.actionId) + 5 := by
  have hp := countP_retains_le (s := s) hl
  have hsum := List.length_eq_countP_add_countP (s.retains ·.actionId) (l := l)
  have hneg : l.countP (fun t => decide ¬ s.retains t.actionId = true) =
      l.countP (!s.retains ·.actionId) := by simp
  rw [hneg] at hsum
  omega

theorem excess_spent {l : List ActionTombstone} (hl : (l.map (·.actionId)).Nodup) :
    (retainTombstones s.retains (l.length - actionTombstoneRetentionLimit) l).1 = 0 := by
  have hcount := le_countP_unretained (s := s) hl
  rw [retainTombstones_fst]
  simp only [actionTombstoneRetentionLimit]
  omega

theorem boundActionTombstones_eq_ok {l : List ActionTombstone}
    (hl : (l.map (·.actionId)).Nodup) :
    boundActionTombstones s.retains l =
      .ok (retainTombstones s.retains (l.length - actionTombstoneRetentionLimit) l).2 := by
  simp only [boundActionTombstones, excess_spent hl, if_pos]

theorem Tidy.appended (h : s.Tidy) {a : ActionId} {l : ActionLifecycle} (hl : l.terminal = true) :
    ((s.actionTombstones.filter (·.actionId ≠ a) ++ [(⟨a, l, hl⟩ : ActionTombstone)]).map
      (·.actionId)).Nodup := by
  rw [List.map_append, List.nodup_append]
  refine ⟨(List.filter_sublist.map _).nodup h, by simp, ?_⟩
  rintro x hx y hy rfl
  obtain ⟨t, ht, rfl⟩ := List.mem_map.mp hx
  simp only [List.map_cons, List.map_nil, List.mem_singleton] at hy
  simp [hy] at ht

theorem Tidy.appendTombstone_eq (h : s.Tidy) (a : ActionId) {l : ActionLifecycle}
    (hl : l.terminal = true) : appendTombstone s a l = .ok (s.bury a l) := by
  simp only [appendTombstone, dif_pos hl, boundActionTombstones_eq_ok (h.appended hl),
    Outcome.ok_bind, bury, burial, clearRecoveryUnit]

theorem Tidy.burial (h : s.Tidy) (a : ActionId) (l : ActionLifecycle) :
    ((s.burial a l).map (·.actionId)).Nodup := by
  unfold State.burial
  split
  next hl => exact ((retainTombstones_sublist _ _).map _).nodup (h.appended hl)
  next => exact h

theorem Tidy.bury (h : s.Tidy) (a : ActionId) (l : ActionLifecycle) : (s.bury a l).Tidy :=
  h.burial a l

theorem Tidy.prune_append (h : s.Tidy) {a : ActionId} {older : List ActionTombstone}
    {last : List ActionTombstone} (hs : s.actionTombstones.filter (·.actionId ≠ a) = older ++ last)
    (hlast : last.length ≤ 1) {l : ActionLifecycle} (hl : l.terminal = true) :
    ∃ kept, kept.Sublist older ∧ s.burial a l = kept ++ last ++ [⟨a, l, hl⟩] := by
  have hnodup : (older.map (·.actionId)).Nodup := by
    have hfilter : ((s.actionTombstones.filter (·.actionId ≠ a)).map (·.actionId)).Nodup :=
      (List.filter_sublist.map _).nodup h
    rw [hs, List.map_append] at hfilter
    exact hfilter.of_append_left
  have hcount := le_countP_unretained (s := s) hnodup
  have hexcess : (older ++ (last ++ [(⟨a, l, hl⟩ : ActionTombstone)])).length -
      actionTombstoneRetentionLimit ≤ older.countP (!s.retains ·.actionId) := by
    simp only [List.length_append, List.length_singleton, actionTombstoneRetentionLimit]
    omega
  have hsplit := retainTombstones_append (last ++ [(⟨a, l, hl⟩ : ActionTombstone)]) hexcess
  rw [← List.append_assoc, ← List.append_assoc] at hsplit
  refine ⟨_, retainTombstones_sublist _ older, .trans ?_ hsplit⟩
  simp only [State.burial, dif_pos hl, hs]

theorem Tidy.burial_eq_append (h : s.Tidy) (a : ActionId) {l : ActionLifecycle}
    (hl : l.terminal = true) :
    ∃ kept, kept.Sublist s.actionTombstones ∧ s.burial a l = kept ++ [⟨a, l, hl⟩] := by
  have hsplit : s.actionTombstones.filter (·.actionId ≠ a) = _ ++ [] := (List.append_nil _).symm
  obtain ⟨kept, hkept, heq⟩ := h.prune_append hsplit (Nat.zero_le 1) hl
  exact ⟨kept, hkept.trans List.filter_sublist, by simpa using heq⟩

theorem Tidy.burial_snoc (h : s.Tidy) {a : ActionId} {older : List ActionTombstone}
    {t : ActionTombstone} (hs : s.actionTombstones = older ++ [t]) (hne : t.actionId ≠ a)
    {l : ActionLifecycle} (hl : l.terminal = true) :
    ∃ kept, s.burial a l = kept ++ [t] ++ [⟨a, l, hl⟩] := by
  have hfilter : s.actionTombstones.filter (·.actionId ≠ a) =
      older.filter (·.actionId ≠ a) ++ [t] := by
    rw [hs, List.filter_append]
    simp [hne]
  obtain ⟨kept, -, heq⟩ := h.prune_append hfilter le_rfl hl
  exact ⟨kept, heq⟩

theorem burial_of_free {a : ActionId} (ha : ∀ t ∈ s.actionTombstones, t.actionId ≠ a)
    (hfree : ∀ t ∈ s.actionTombstones, s.retains t.actionId = false) {l : ActionLifecycle}
    (hl : l.terminal = true) :
    s.burial a l =
      s.actionTombstones.drop (s.actionTombstones.length + 1 - actionTombstoneRetentionLimit) ++
        [⟨a, l, hl⟩] := by
  have hfilter : s.actionTombstones.filter (·.actionId ≠ a) = s.actionTombstones := by
    simpa [List.filter_eq_self] using ha
  have hcount : s.actionTombstones.countP (!s.retains ·.actionId) = s.actionTombstones.length :=
    List.countP_eq_length.mpr fun t ht => by simp [hfree t ht]
  simp only [State.burial, dif_pos hl, hfilter, List.length_append, List.length_singleton]
  rw [retainTombstones_append, retainTombstones_of_free hfree]
  rw [hcount]
  simp only [actionTombstoneRetentionLimit]
  omega

theorem Tidy.length_burial_le (h : s.Tidy) (a : ActionId) {l : ActionLifecycle}
    (hl : l.terminal = true) : (s.burial a l).length ≤ actionTombstoneRetentionLimit := by
  have hspent := excess_spent (s := s) (h.appended hl (a := a))
  simp only [State.burial, dif_pos hl]
  generalize s.actionTombstones.filter (·.actionId ≠ a) ++ [⟨a, l, hl⟩] = appended at hspent ⊢
  have hlength : (retainTombstones s.retains (appended.length - actionTombstoneRetentionLimit)
      appended).2.length + (appended.length - actionTombstoneRetentionLimit) = _ :=
    length_retainTombstones _ appended
  omega

theorem mem_burial {t : ActionTombstone} {a : ActionId} {l : ActionLifecycle}
    (hl : l.terminal = true) (ht : t ∈ s.burial a l) :
    (t ∈ s.actionTombstones ∧ t.actionId ≠ a) ∨ (t.actionId = a ∧ t.lifecycle = l) := by
  simp only [burial, dif_pos hl] at ht
  have := (retainTombstones_sublist _ _).subset ht
  simp only [List.mem_append, List.mem_filter, List.mem_singleton, decide_eq_true_eq] at this
  rcases this with h | rfl
  · exact .inl h
  · exact .inr ⟨rfl, rfl⟩

/-- The tombstone kept for a retained action is `l`. -/
def Buried (s : State) (a : ActionId) (l : ActionLifecycle) : Prop :=
  ∃ t ∈ s.actionTombstones, t.actionId = a ∧ t.lifecycle = l

theorem epitaph_eq_some (h : s.Tidy) {a : ActionId} {l : ActionLifecycle} :
    s.epitaph a = some l ↔ s.Buried a l := by
  constructor
  · intro he
    obtain ⟨t, ht, rfl⟩ := Option.map_eq_some_iff.mp he
    exact ⟨t, List.mem_of_find?_eq_some ht, by simpa using List.find?_some ht, rfl⟩
  · rintro ⟨t, ht, rfl, rfl⟩
    have hfind : s.actionTombstones.find? (·.actionId = t.actionId) = some t := by
      obtain ⟨u, hu⟩ := Option.isSome_iff_exists.mp
        (List.find?_isSome.mpr ⟨t, ht, by simp⟩ :
          (s.actionTombstones.find? (·.actionId = t.actionId)).isSome = true)
      have hut : u.actionId = t.actionId := by simpa using List.find?_some hu
      rw [hu, List.inj_on_of_nodup_map h (List.mem_of_find?_eq_some hu) ht hut]
    simp [epitaph, hfind]

theorem buried_bury (hl : l.terminal = true) (hr : s.retains a = true) :
    (s.bury a l).Buried a l := by
  refine ⟨⟨a, l, hl⟩, ?_, rfl, rfl⟩
  change _ ∈ s.burial a l
  simp only [burial, dif_pos hl]
  exact mem_retainTombstones hr (by simp)

theorem buried_bury_of_ne {a b : ActionId} {l m : ActionLifecycle} (hl : l.terminal = true)
    (hb : b ≠ a) (hr : s.retains b = true) : (s.bury a l).Buried b m ↔ s.Buried b m := by
  constructor
  · rintro ⟨t, ht, rfl, rfl⟩
    rcases mem_burial hl ht with ⟨h, -⟩ | ⟨h, -⟩
    · exact ⟨t, h, rfl, rfl⟩
    · exact absurd h hb
  · rintro ⟨t, ht, rfl, rfl⟩
    refine ⟨t, ?_, rfl, rfl⟩
    change t ∈ s.burial a l
    simp only [burial, dif_pos hl]
    exact mem_retainTombstones hr (by simp [ht, hb])

end State

end MonitorController
