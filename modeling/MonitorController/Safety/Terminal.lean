import MonitorController.Safety.Burials

/-! # Terminal evidence

The tombstones of retired actions. The history stays bounded, and an action
which leaves its slot keeps its tombstone unless a new topology begins while a
preparation is pending, or while the history is full and its head is retained.
-/

namespace MonitorController

/-- While a plan runs, the tombstone of an ended application beside it is the last one. -/
def Trails (s : State) : Prop :=
  ∀ a ∈ s.application, a.lifecycle.terminal = true → ∀ p ∈ s.planning,
    p.lifecycle.terminal = false →
    ∃ older t, s.actionTombstones = older ++ [t] ∧ t.actionId = a.actionId

section Classified

variable {s s' : State} {prior : Option CanonicalObservation} {o : CanonicalObservation}
  {d : Decision} {es : List Effect} {target : ProfileMatch}

theorem Waits.phase {nowMs : Nat} (h : Waits s nowMs d) : d.state.phase ≠ .applyFailed := by
  cases h with
  | wait phase aggressive index t hp hd hs =>
    rintro rfl
    rcases hp with hp | hp <;> cases hp

theorem Plans.phase (h : Plans s o target s' es) : s'.phase = s.phase := by
  cases h <;> rfl

theorem Advances.phase (h : Advances s o es d) (hs : s.phase = .verifying) :
    d.state.phase ≠ .applyFailed := by
  intro hp
  cases h with
  | finalized since c hv hc hproof hf => cases hp
  | adopted since c hv hc hproof hb => cases hp
  | finalizes since c q hv hc hproof hf hb hq hqs hn => cases hp
  | prepares since c p planHash hv hc hproof hf hb hl hls hh hqs => cases hs.symm.trans hp
  | settled since c t hv hc ht => cases hs.symm.trans hp

theorem Selects.phase (h : Selects s o d) : d.state.phase ≠ .applyFailed := by
  cases h with
  | waits hw hc ht => exact hw.phase
  | waitsKnown hw c hz hc hk => exact hw.phase
  | waitsSpent target ht hz hw hx hk hs => exact hw.phase
  | verifies target s' es s'' fs ht hx hv hp ha => exact ha.phase hp.phase
  | unknown phase since t hp hs hc ht =>
    rintro rfl
    rcases hp with ⟨hp, -⟩ | ⟨hp, -⟩ <;> cases hp
  | _ => nofun

theorem Classifies.failed (h : Classifies s o d) (hp : d.state.phase = .applyFailed) :
    d.state.planning = s.planning ∧ d.state.actionTombstones = s.actionTombstones := by
  cases h with
  | unplugging s' he hu => cases hp
  | retained s' hs hr => exact ⟨hs.samePlan.planning, hs.samePlan.tombstones⟩
  | selected s' s'' hs hr hd => exact absurd hp hd.phase

/-- An application which had ended before the sample excludes every cancellation. -/
theorem Recorded.trails (h : Recorded s o) (htrails : Trails s)
    (hf : Frees s prior o s' es) (hc : Classifies s' o d) (hsound : Sound d.state) :
    Trails d.state := by
  intro a ha hl p hp hlive
  have hphase : d.state.phase = .applyFailed := by
    rcases hsound.control.application_phase ha with ⟨hl', -⟩ | ⟨hl', -⟩ | ⟨-, hphase⟩
    · simp [hl', ActionLifecycle.terminal] at hl
    · rcases hl' with hl' | hl' <;> simp [hl', ActionLifecycle.terminal] at hl
    · exact hphase
  obtain ⟨hplan, htombs⟩ := hc.failed hphase
  have happ : s'.application = some a := by
    have hrenews := hc.frame.application
    rw [Option.mem_def.mp ha] at hrenews
    generalize hx : s'.application = x at hrenews
    cases hrenews with
    | kept => rfl
    | filled _ hb hadmitted =>
      rw [hadmitted] at hl
      cases hl
  rw [hplan] at hp
  rw [htombs]
  have alone {x : ApplicationAction} (hx : s.application = some x) :=
    h.control.application_alone (by simp [hx])
  cases hf with
  | entered ht hr => cases happ
  | idle ht hb =>
    obtain ⟨phase, aggressive, index, -, heq⟩ := leaveSlowWait_eq s prior o
    rw [heq] at happ hp ⊢
    exact htrails a happ hl p hp hlive
  | cancelled ht hcancel =>
    cases hcancel with
    | application b hb hbl hbc => cases happ
    | probe b hb hbl hbc =>
      rw [(alone happ).1] at hb
      cases hb
    | finalization b hb hbl hbc =>
      rw [(alone happ).2.1] at hb
      cases hb
    | preparation b hb hbl hbc =>
      have hactive := h.control.preparation_live hb (by rw [hbl]; rfl)
      rw [(alone happ).2.2] at hactive
      cases hactive
  | concluded b c ht hb hbl he hbc hcl =>
    have hactive := h.control.preparation_live hb (by rw [hbl]; rfl)
    rw [(alone happ).2.2] at hactive
    cases hactive

end Classified

section Steps

variable {s : State} {e : Event} {d : Decision}

theorem Known.epitaph {high : Nat} {tombstones : List ActionTombstone} {r : ActionRecord}
    (h : Known high tombstones r) (hl : r.lifecycle.terminal = true) :
    ∃ t ∈ tombstones, t.actionId = r.actionId ∧ t.lifecycle = r.lifecycle :=
  (h.buried r.lifecycle).mpr ⟨hl, rfl⟩

theorem Known.unburied {high : Nat} {tombstones : List ActionTombstone} {r : ActionRecord}
    (h : Known high tombstones r) (hl : r.lifecycle.terminal = false) :
    ∀ t ∈ tombstones, t.actionId ≠ r.actionId := by
  intro t ht hid
  have hterminal := ((h.buried t.lifecycle).mp ⟨t, ht, hid, rfl⟩).1
  rw [hl] at hterminal
  cases hterminal

/-- Unless a sample is classified, the slots carry their actions on. -/
theorem Sound.trails_kept (h : Sound s) (htrails : Trails s) (hk : Kept s d.state)
    (hi : Interred s d.state.actionIds d.state.actionTombstones) (hsound : Sound d.state) :
    Trails d.state := by
  intro a ha hl p hp hlive
  obtain ⟨a₀, ha₀, hca⟩ := hk.application.of_mem ha
  obtain ⟨p₀, hp₀, hcp⟩ := hk.planning.of_mem hp
  have haid : a.actionId = a₀.actionId := hca.actionId
  have hpid : p.actionId = p₀.actionId := hcp.actionId
  have hburied := (hsound.identities.application a ha).epitaph hl
  have hunburied := (hsound.identities.planning p hp).1.unburied hlive
  have htidy : s.Tidy := h.identities.tidy
  have hknown := h.identities.application a₀ ha₀
  have hknown' := (h.identities.planning p₀ hp₀).1
  obtain ⟨t, ht, hid, -⟩ := hburied
  cases hi with
  | nothing htombs hg =>
    rw [htombs] at ht hunburied
    have hl₀ : a₀.lifecycle.terminal = true := by
      by_contra hne
      exact hknown.unburied (Bool.eq_false_iff.mpr hne) t ht (hid.trans haid)
    have hlive₀ : p₀.lifecycle.terminal = false := by
      by_contra hne
      have hended : p₀.lifecycle.terminal = true := by simpa using hne
      obtain ⟨u, hu, hpu, -⟩ := hknown'.epitaph hended
      exact hunburied u hu (hpu.trans hpid.symm)
    obtain ⟨older, u, hs, hu⟩ := htrails a₀ ha₀ hl₀ p₀ hp₀ hlive₀
    exact ⟨older, u, htombs.trans hs, hu.trans haid.symm⟩
  | one r l hr hliver hlr htombs hcr hg =>
    rw [htombs] at ht hunburied
    obtain ⟨kept, -, hkept⟩ := htidy.burial_eq_append r.actionId hlr
    rcases State.mem_burial hlr ht with ⟨hold, -⟩ | ⟨htr, -⟩
    · -- The application had ended before, so that only its plan could end now.
      exfalso
      have hne : s.application ≠ none := by simp [Option.mem_def.mp ha₀]
      obtain ⟨hprobe, hfin, hactive⟩ := h.control.application_alone hne
      cases r with
      | probe b => exact absurd (State.probe_of_mem hr) (by simp [hprobe])
      | finalization b => exact absurd (State.finalization_of_mem hr) (by simp [hfin])
      | preparation b =>
        rw [h.control.preparation_live (State.preparation_of_mem hr) hliver] at hactive
        cases hactive
      | application b =>
        obtain rfl := Option.mem_unique (State.application_of_mem hr) ha₀
        exact hknown.unburied hliver t hold (hid.trans haid)
      | planning b =>
        obtain rfl := Option.mem_unique (State.planning_of_mem hr) hp₀
        exact hunburied _ (hkept ▸ List.mem_append_right _ (List.mem_singleton_self _)) hpid.symm
    · exact ⟨kept, _, htombs.trans hkept, htr.symm.trans hid⟩
  | beside b q x hb hq hliveq hgone hx htombs hxt hg =>
    obtain rfl := Option.mem_unique hq hp₀
    have hmem : p.actionId ∈ d.state.actionIds :=
      List.mem_map.mpr ⟨.planning p, State.mem_actions_planning hp, rfl⟩
    rw [hpid] at hmem
    exact absurd hmem hgone

end Steps

section Evidence

variable {s s' : State}

/-- The action is live before the step and gone after it. -/
def Retires (s s' : State) (a : ActionId) : Prop :=
  ∃ r ∈ s.actions, r.actionId = a ∧ r.lifecycle.terminal = false ∧ a ∉ s'.actionIds

/-- The action has a tombstone, a cancellation if it was never launched. If the step retired it,
only tombstones of actions which the step retired follow. -/
def Rests (s s' : State) (r : ActionRecord) : Prop :=
  ∃ older t newer, s'.actionTombstones = older ++ t :: newer ∧ t.actionId = r.actionId ∧
    (r.lifecycle = .admitted → t.lifecycle = .cancelled) ∧
    (r.lifecycle.terminal = false → ∀ u ∈ newer, Retires s s' u.actionId)

theorem Rests.of_ended {r : ActionRecord} (hl : r.lifecycle.terminal = true) {t : ActionTombstone}
    (ht : t ∈ s'.actionTombstones) (hid : t.actionId = r.actionId) : Rests s s' r := by
  obtain ⟨older, newer, heq⟩ := List.append_of_mem ht
  refine ⟨older, t, newer, heq, hid, fun ha => ?_, fun hlive => ?_⟩
  · rw [ha] at hl
    cases hl
  · rw [hl] at hlive
    cases hlive

theorem Rests.of_last {r : ActionRecord} {kept : List ActionTombstone} {t : ActionTombstone}
    (ht : s'.actionTombstones = kept ++ [t]) (hid : t.actionId = r.actionId)
    (hc : r.lifecycle = .admitted → t.lifecycle = .cancelled) : Rests s s' r :=
  ⟨kept, t, [], ht, hid, hc, fun _ u hu => by cases hu⟩

/-- What a step buries rests, unless a new topology begins. -/
theorem Sound.rests (h : Sound s) (htrails : Trails s)
    (hi : Interred s s'.actionIds s'.actionTombstones) {r : ActionRecord} (hr : r ∈ s.actions)
    (hg : r.actionId ∉ s'.actionIds) : Rests s s' r := by
  have htidy : s.Tidy := h.identities.tidy
  cases hi with
  | nothing htombs hgone =>
    have hl := hgone r hr hg
    obtain ⟨t, ht, hid, -⟩ := (h.identities.known hr).epitaph hl
    exact .of_ended hl (htombs ▸ ht) hid
  | one r₀ l hr₀ hlive hl htombs hc hgone =>
    obtain ⟨kept, -, hkept⟩ := htidy.burial_eq_append r₀.actionId hl
    by_cases heq : r = r₀
    · subst heq
      exact .of_last (htombs.trans hkept) rfl fun ha => hc ha hg
    · have hended := (hgone r hr hg).resolve_right heq
      have hne : r.actionId ≠ r₀.actionId := fun hid => heq (State.eq_of_actionId hr₀ hr hid)
      have hburied : s.Buried r.actionId r.lifecycle := (h.identities.known hr).epitaph hended
      obtain ⟨t, ht, hid, -⟩ := (State.buried_bury_of_ne hl hne
        (State.retains_iff.mpr ⟨r, hr, rfl⟩)).mpr hburied
      exact .of_ended hended (htombs ▸ ht) hid
  | beside a p x ha hp hlive hgone hx htombs hxt hall =>
    have hretired : Retires s s' p.actionId :=
      ⟨.planning p, State.mem_actions_planning hp, rfl, hlive, hgone⟩
    obtain ⟨kept, -, hkept⟩ := hx.burial_eq_append p.actionId (l := .cancelled) rfl
    rcases hall r hr with rfl | rfl
    · -- The tombstone of the application was the last one before the plan was buried.
      have hlast : ∃ older t, x.actionTombstones = older ++ [t] ∧ t.actionId = a.actionId ∧
          (a.lifecycle = .admitted → t.lifecycle = .cancelled) := by
        rcases hxt with ⟨hl, heq⟩ | ⟨hl, heq⟩
        · obtain ⟨older, t, hs, hid⟩ := htrails a ha hl p hp hlive
          refine ⟨older, t, heq.trans hs, hid, fun hadmitted => ?_⟩
          rw [hadmitted] at hl
          cases hl
        · obtain ⟨older, -, hs⟩ := htidy.burial_eq_append a.actionId (l := .cancelled) rfl
          exact ⟨older, _, heq.trans hs, rfl, fun _ => rfl⟩
      obtain ⟨older, t, hx', hid, hc⟩ := hlast
      have hne : t.actionId ≠ p.actionId := by
        rw [hid]
        intro heq
        have hkind := congrArg ActionId.kind heq
        rw [a.kind_application, p.kind_plan] at hkind
        cases hkind
      obtain ⟨kept', hkept'⟩ := hx.burial_snoc hx' hne (l := .cancelled) rfl
      refine ⟨kept', t, [⟨p.actionId, .cancelled, rfl⟩], ?_, hid, hc, fun _ u hu => ?_⟩
      · rw [htombs, hkept', List.append_assoc]
        rfl
      · obtain rfl := List.mem_singleton.mp hu
        exact hretired
    · exact .of_last (htombs.trans hkept) rfl fun _ => rfl

theorem Interred.bounded (hi : Interred s s'.actionIds s'.actionTombstones) (htidy : s.Tidy)
    (hs : s.actionTombstones.length ≤ actionTombstoneRetentionLimit) :
    s'.actionTombstones.length ≤ actionTombstoneRetentionLimit := by
  cases hi with
  | nothing ht hg => exact ht ▸ hs
  | one r l hr hlive hl ht hc hg => exact ht ▸ htidy.length_burial_le _ hl
  | beside a p x ha hp hlive hgone hx ht hxt hg => exact ht ▸ hx.length_burial_le _ rfl

end Evidence

section Entered

variable {s s' : State} {prior : Option CanonicalObservation} {o : CanonicalObservation}
  {d : Decision}

/-- A pending display worker is alone in its slot once the plan is dropped, and is buried last. -/
theorem Core.epochBurial_of_pending (h : Core s) {r : ActionRecord} (hr : r ∈ s.actions)
    (hl : r.lifecycle = .admitted) (hk : r.kind ≠ .plan) (hk' : r.kind ≠ .preparation) :
    s.dropPlan.actions = [r] ∧
      s.epochBurial.actionTombstones = s.dropPlan.burial r.actionId .cancelled := by
  cases r with
  | planning p => exact absurd rfl hk
  | preparation a => exact absurd rfl hk'
  | probe a =>
    have ha := State.probe_of_mem hr
    have hla : a.lifecycle = .admitted := hl
    obtain ⟨happ, -, -, hfin⟩ := h.control.probe_alone (by simp [ha])
    constructor
    · simp [State.actions, State.dropPlan, ha, happ, hfin]
    · simp [State.epochBurial, State.buryAdmitted, ha, happ, hfin, hla, ActionRecord.actionId]
  | application a =>
    have ha := State.application_of_mem hr
    have hla : a.lifecycle = .admitted := hl
    obtain ⟨hprobe, hfin, -⟩ := h.control.application_alone (by simp [ha])
    constructor
    · simp [State.actions, State.dropPlan, ha, hprobe, hfin]
    · simp [State.epochBurial, State.buryAdmitted, ha, hprobe, hfin, hla, ActionRecord.actionId]
  | finalization a =>
    have ha := State.finalization_of_mem hr
    have hla : a.lifecycle = .admitted := hl
    obtain ⟨hprobe, happ, -⟩ := h.control.finalization_alone (by simp [ha])
    constructor
    · simp [State.actions, State.dropPlan, ha, hprobe, happ]
    · simp [State.epochBurial, State.buryAdmitted, ha, hprobe, happ, hla, ActionRecord.actionId]

theorem State.epochBurial_of_settled (hn : ∀ r ∈ s.actions, r.lifecycle = .admitted →
    r.kind = .plan ∨ r.kind = .preparation) :
    s.epochBurial.actionTombstones = s.planTombstones := by
  have hprobe : ∀ a, s.probe = some a → a.lifecycle ≠ .admitted := fun a ha hl => by
    simpa [ActionRecord.kind] using hn _ (State.mem_actions_probe ha) hl
  have happ : ∀ a, s.application = some a → a.lifecycle ≠ .admitted := fun a ha hl => by
    simpa [ActionRecord.kind] using hn _ (State.mem_actions_application ha) hl
  have hfin : ∀ a, s.finalization = some a → a.lifecycle ≠ .admitted := fun a ha hl => by
    simpa [ActionRecord.kind] using hn _ (State.mem_actions_finalization ha) hl
  have skips {x : State} {w : Option WorkerAction} (hw : ∀ v ∈ w, v.lifecycle ≠ .admitted) :
      (x.buryAdmitted w).actionTombstones = x.actionTombstones := by
    unfold State.buryAdmitted
    cases w with
    | none => rfl
    | some v => exact if_neg (hw v rfl)
  have mapped {α : Type} {x : Option α} {f : α → WorkerAction}
      (hx : ∀ a, x = some a → (f a).lifecycle ≠ .admitted) :
      ∀ v ∈ x.map f, v.lifecycle ≠ .admitted := by
    intro v hv
    obtain ⟨a, ha, rfl⟩ := Option.map_eq_some_iff.mp hv
    exact hx a ha
  unfold State.epochBurial
  rw [skips (mapped hfin), skips (mapped happ), skips (mapped hprobe)]
  rfl

theorem Free.tombstones_of_unplanned (h : Free s o) (hc : Classifies s o d)
    (hp : s.planning = none) : d.state.actionTombstones = s.actionTombstones := by
  rcases h.buries hc with ⟨ht, -⟩ | ⟨p, hplan, -⟩
  · exact ht
  · rw [hp] at hplan
    cases hplan

theorem Recorded.entered_gone (h : Recorded s o) {t : Nat}
    (hc : Classifies (s.enterEpoch o t) o d) {r : ActionRecord} (hr : r ∈ s.actions) :
    r.actionId ∉ d.state.actionIds := by
  intro hmem
  have hfresh := hc.frame.actions.fresh r.actionId hmem (by simp [State.actionIds, State.actions,
    State.enterEpoch])
  have hle := (h.identities.known hr).bounded
  exact absurd hfresh.1 (Nat.not_lt.mpr hle)

/-- The state forgets an action when its topology ends: a pending preparation, or the plan or
preparation whose tombstone is the oldest of a full history when an admission is pending. -/
def Forgets (s : State) : Prop :=
  (∃ a ∈ s.preparation, a.lifecycle = .admitted) ∨
    s.actionTombstones.length = actionTombstoneRetentionLimit ∧
      (∃ w ∈ s.mutators, w.lifecycle = .admitted) ∧
      ∃ t ∈ s.actionTombstones.head?, (∃ p ∈ s.planning, p.actionId = t.actionId) ∨
        ∃ a ∈ s.preparation, a.actionId = t.actionId

theorem Forgets.pending (h : Forgets s) : ∃ w ∈ s.mutators, w.lifecycle = .admitted := by
  rcases h with ⟨a, ha, hl⟩ | ⟨-, hw, -⟩
  · exact ⟨_, State.mem_mutators_preparation ha, hl⟩
  · exact hw

theorem Core.burial_beside (h : Core s) {r : ActionRecord} (hr : r ∈ s.actions)
    (hl : r.lifecycle = .admitted) (halone : s.dropPlan.actions = [r])
    (hended : ∀ p ∈ s.planning, p.lifecycle.terminal = true) :
    s.dropPlan.burial r.actionId .cancelled =
      s.actionTombstones.drop (s.actionTombstones.length + 1 - actionTombstoneRetentionLimit) ++
        [⟨r.actionId, .cancelled, rfl⟩] := by
  have hsame : s.dropPlan.actionTombstones = s.actionTombstones :=
    State.planTombstones_of_ended hended
  have hunburied := (h.identities.known hr).unburied (by rw [hl]; rfl)
  rw [State.burial_of_free (by rw [hsame]; exact hunburied) _ rfl, hsame]
  intro t ht
  rw [hsame] at ht
  simpa [State.retains, halone] using (hunburied t ht).symm

/-- A display worker which is pending, other than a preparation. -/
def PendingWorker (s : State) (r : ActionRecord) : Prop :=
  r ∈ s.actions ∧ r.lifecycle = .admitted ∧ r.kind ≠ .plan ∧ r.kind ≠ .preparation

theorem State.planTombstones_eq (htidy : s.Tidy) {p : PlanningAction} (hp : s.planning = some p)
    (hl : p.lifecycle.terminal = false) :
    s.planTombstones = s.burial p.actionId .cancelled ∧
      ∃ kept, s.planTombstones = kept ++ [⟨p.actionId, .cancelled, rfl⟩] := by
  have heq : s.planTombstones = s.burial p.actionId .cancelled := by
    simp [State.planTombstones, hp, hl]
  obtain ⟨kept, -, hkept⟩ := htidy.burial_eq_append p.actionId (l := .cancelled) rfl
  exact ⟨heq, kept, heq.trans hkept⟩

section Burying

variable (h : Recorded s o) (hn : ∀ w ∈ s.mutators, w.lifecycle.mutatingInFlight = false)
  (hbound : s.actionTombstones.length ≤ actionTombstoneRetentionLimit)
  (htombs : d.state.actionTombstones = s.epochBurial.actionTombstones)
  (hgone : ∀ r ∈ s.actions, r.actionId ∉ d.state.actionIds)
include h htombs hgone

include hbound in
/-- Beside a pending display worker the evidence of the plan and the preparation may be lost. -/
theorem Recorded.rests_beside {r₀ : ActionRecord} (hr₀ : PendingWorker s r₀)
    (hkept : ¬ Forgets s) {r : ActionRecord} (hr : r ∈ s.actions) : Rests s d.state r := by
  obtain ⟨hmem, hadmitted, hk, hk'⟩ := hr₀
  have htidy : s.Tidy := h.identities.tidy
  obtain ⟨halone, hburial⟩ := h.epochBurial_of_pending hmem hadmitted hk hk'
  rw [hburial] at htombs
  have hlive₀ : r₀.lifecycle.terminal = false := by rw [hadmitted]; rfl
  obtain ⟨kept, -, hlast⟩ := htidy.dropPlan.burial_eq_append r₀.actionId (l := .cancelled) rfl
  by_cases heq : r = r₀
  · subst heq
    exact .of_last (htombs.trans hlast) rfl fun _ => rfl
  by_cases hplan : ∃ p, s.planning = some p ∧ p.lifecycle.terminal = false
  · -- The plan still runs: it is buried just before the worker.
    obtain ⟨p, hp, hl⟩ := hplan
    obtain ⟨-, older, hs⟩ := State.planTombstones_eq htidy hp hl
    have hr' : r = .planning p := by
      have hbeside := h.beside_plan hp hl
      rw [hbeside] at hr hmem
      cases happ : s.application with
      | none =>
        rw [happ] at hmem
        obtain rfl := List.mem_singleton.mp hmem
        exact absurd rfl hk
      | some a =>
        rw [happ] at hmem hr
        simp only [Option.map_some, Option.toList_some, List.cons_append, List.nil_append,
          List.mem_cons, List.not_mem_nil, or_false] at hmem hr
        rcases hr with rfl | hr
        · rcases hmem with rfl | rfl
          · exact absurd rfl heq
          · exact absurd rfl hk
        · exact hr
    subst hr'
    have hne : p.actionId ≠ r₀.actionId := fun hid => heq (State.eq_of_actionId hmem hr hid)
    obtain ⟨kept', hkept'⟩ := htidy.dropPlan.burial_snoc (t := ⟨p.actionId, .cancelled, rfl⟩) hs hne
      (l := .cancelled) rfl
    refine ⟨kept', ⟨p.actionId, .cancelled, rfl⟩, [⟨r₀.actionId, .cancelled, rfl⟩], ?_, rfl,
      fun _ => rfl, fun _ u hu => ?_⟩
    · rw [htombs, hkept', List.append_assoc]
      rfl
    · obtain rfl := List.mem_singleton.mp hu
      exact ⟨r₀, hmem, rfl, hlive₀, hgone r₀ hmem⟩
  · have hended : ∀ p ∈ s.planning, p.lifecycle.terminal = true := by
      intro p hp
      by_contra hne
      exact hplan ⟨p, hp, Bool.eq_false_iff.mpr hne⟩
    have hl : r.lifecycle.terminal = true := by
      by_cases hkr : r.kind = .plan
      · cases r with
        | planning p => exact hended p (State.planning_of_mem hr)
        | _ => cases hkr
      · by_contra hne
        exact heq (h.live_unique hmem hk hlive₀ hr hkr (Bool.eq_false_iff.mpr hne))
    obtain ⟨t, ht, hid, -⟩ := (h.identities.known hr).epitaph hl
    refine .of_ended hl ?_ hid
    rw [htombs, h.burial_beside hmem hadmitted halone hended]
    refine List.mem_append_left _ ?_
    by_cases hfull : s.actionTombstones.length = actionTombstoneRetentionLimit
    · -- One tombstone is pushed out, and it is not that of the plan or the preparation.
      have hone : s.actionTombstones.length + 1 - actionTombstoneRetentionLimit = 1 := by omega
      rw [hone]
      cases hs : s.actionTombstones with
      | nil => simp [hs] at ht
      | cons u rest =>
        rw [hs] at ht
        refine (List.mem_cons.mp ht).resolve_left ?_
        rintro rfl
        obtain ⟨w, hw, -, hwl⟩ := State.mutator_of_mem hmem hk
        refine hkept (.inr ⟨hfull, ⟨w, hw, hwl.trans hadmitted⟩, t, by simp [hs], ?_⟩)
        have hother : r ∉ s.dropPlan.actions := by simpa [halone] using heq
        cases r with
        | planning p => exact .inl ⟨p, State.planning_of_mem hr, hid.symm⟩
        | preparation a => exact .inr ⟨a, State.preparation_of_mem hr, hid.symm⟩
        | probe a =>
          have hslot : s.dropPlan.probe = some a := State.probe_of_mem (s := s) hr
          exact absurd (State.mem_actions_probe hslot) hother
        | application a =>
          have hslot : s.dropPlan.application = some a := State.application_of_mem (s := s) hr
          exact absurd (State.mem_actions_application hslot) hother
        | finalization a =>
          have hslot : s.dropPlan.finalization = some a := State.finalization_of_mem (s := s) hr
          exact absurd (State.mem_actions_finalization hslot) hother
    · have hzero : s.actionTombstones.length + 1 - actionTombstoneRetentionLimit = 0 := by omega
      rw [hzero]
      exact ht

omit hgone in
include hn in
/-- Without a pending display worker only a pending preparation is forgotten. -/
theorem Recorded.rests_settled (hnone : ∀ r, ¬ PendingWorker s r) (hkept : ¬ Forgets s)
    {r : ActionRecord} (hr : r ∈ s.actions) : Rests s d.state r := by
  have htidy : s.Tidy := h.identities.tidy
  have hended : r.kind ≠ .plan → r.lifecycle.terminal = true := by
    intro hk
    by_contra hl
    obtain ⟨w, hw, -, hwl⟩ := State.mutator_of_mem hr hk
    have hidle := hn w hw
    have hadmitted : r.lifecycle = .admitted := by
      rw [hwl] at hidle
      cases hlr : r.lifecycle <;>
        simp_all [ActionLifecycle.terminal, ActionLifecycle.mutatingInFlight]
    by_cases hk' : r.kind = .preparation
    · cases r with
      | preparation a => exact hkept (.inl ⟨a, State.preparation_of_mem hr, hadmitted⟩)
      | _ => cases hk'
    · exact hnone r ⟨hr, hadmitted, hk, hk'⟩
  have hsettled : s.epochBurial.actionTombstones = s.planTombstones :=
    State.epochBurial_of_settled fun r hr hl => by
      by_contra hk
      obtain ⟨hk, hk'⟩ := not_or.mp hk
      exact hnone r ⟨hr, hl, hk, hk'⟩
  rw [hsettled] at htombs
  by_cases hplan : ∃ p, s.planning = some p ∧ p.lifecycle.terminal = false
  · obtain ⟨p, hp, hl⟩ := hplan
    obtain ⟨hburial, older, hlast⟩ := State.planTombstones_eq htidy hp hl
    by_cases heq : r = .planning p
    · subst heq
      exact .of_last (htombs.trans hlast) rfl fun _ => rfl
    · have hmem := State.mem_actions_planning hp
      have hl' := hended fun hk => heq (State.eq_of_kind hmem hr hk)
      have hne : r.actionId ≠ p.actionId := fun hid => heq (State.eq_of_actionId hmem hr hid)
      have hburied : s.Buried r.actionId r.lifecycle := (h.identities.known hr).epitaph hl'
      obtain ⟨t, ht, hid, -⟩ := (State.buried_bury_of_ne (l := .cancelled) rfl hne
        (State.retains_iff.mpr ⟨r, hr, rfl⟩)).mpr hburied
      exact .of_ended hl' (htombs.trans hburial ▸ ht) hid
  · have hplanned : ∀ p ∈ s.planning, p.lifecycle.terminal = true := by
      intro p hp
      by_contra hne
      exact hplan ⟨p, hp, Bool.eq_false_iff.mpr hne⟩
    have hl : r.lifecycle.terminal = true := by
      by_cases hk : r.kind = .plan
      · cases r with
        | planning p => exact hplanned p (State.planning_of_mem hr)
        | _ => cases hk
      · exact hended hk
    rw [State.planTombstones_of_ended hplanned] at htombs
    obtain ⟨t, ht, hid, -⟩ := (h.identities.known hr).epitaph hl
    exact .of_ended hl (htombs ▸ ht) hid

omit hgone in
/-- What the state forgets leaves no evidence. -/
theorem Recorded.forgotten (hforgets : Forgets s) : ∃ r ∈ s.actions, ¬ Rests s d.state r := by
  have htidy : s.Tidy := h.identities.tidy
  have unburied {r : ActionRecord} (hn : ∀ t ∈ d.state.actionTombstones, t.actionId ≠ r.actionId) :
      ¬ Rests s d.state r := by
    rintro ⟨older, t, newer, heq, hid, -⟩
    exact hn t (heq ▸ List.mem_append_right _ List.mem_cons_self) hid
  by_cases hprep : ∃ a ∈ s.preparation, a.lifecycle = .admitted
  · obtain ⟨a, ha, hl⟩ := hprep
    have hmem := State.mem_actions_preparation ha
    have hsettled : s.epochBurial.actionTombstones = s.planTombstones :=
      State.epochBurial_of_settled fun r hr hl' => by
        by_contra hk
        obtain ⟨hk, hk'⟩ := not_or.mp hk
        have hsame := h.live_unique hmem (by simp [ActionRecord.kind])
          (congrArg ActionLifecycle.terminal hl) hr hk (congrArg ActionLifecycle.terminal hl')
        exact hk' (hsame ▸ rfl)
    rw [hsettled, State.planTombstones_of_ended (h.plan_ended ha)] at htombs
    refine ⟨_, hmem, unburied fun t ht => ?_⟩
    exact (h.identities.known hmem).unburied (congrArg ActionLifecycle.terminal hl) t (htombs ▸ ht)
  · obtain ⟨hfull, ⟨w, hw, hwl⟩, t, ht, hid⟩ := hforgets.resolve_left hprep
    have hpending : ∃ r, PendingWorker s r := by
      rcases State.mem_mutators.mp hw with ⟨a, ha, rfl⟩ | ⟨a, ha, rfl⟩ | ⟨a, ha, rfl⟩ | ⟨a, ha, rfl⟩
      · exact ⟨_, State.mem_actions_probe ha, hwl, by simp [ActionRecord.kind]⟩
      · exact ⟨_, State.mem_actions_application ha, hwl, by simp [ActionRecord.kind]⟩
      · exact absurd ⟨a, ha, hwl⟩ hprep
      · exact ⟨_, State.mem_actions_finalization ha, hwl, by simp [ActionRecord.kind]⟩
    obtain ⟨r₀, hmem, hadmitted, hk, hk'⟩ := hpending
    obtain ⟨halone, hburial⟩ := h.epochBurial_of_pending hmem hadmitted hk hk'
    obtain ⟨rest, hs⟩ : ∃ rest, s.actionTombstones = t :: rest := by
      cases hs : s.actionTombstones with
      | nil => simp [hs] at ht
      | cons u rest => exact ⟨rest, by simpa [hs] using ht⟩
    have htmem : t ∈ s.actionTombstones := hs ▸ List.mem_cons_self
    have hended : ∀ p ∈ s.planning, p.lifecycle.terminal = true := by
      intro p hp
      rcases hid with ⟨q, hq, hid⟩ | ⟨a, ha, -⟩
      · obtain rfl := Option.mem_unique hq hp
        by_contra hne
        exact (h.identities.planning q hp).1.unburied (Bool.eq_false_iff.mpr hne) t htmem hid.symm
      · exact h.plan_ended ha p hp
    have hone : s.actionTombstones.length + 1 - actionTombstoneRetentionLimit = 1 := by omega
    rw [hburial, h.burial_beside hmem hadmitted halone hended, hone, hs] at htombs
    have hout : ∀ u ∈ d.state.actionTombstones, u.actionId ≠ t.actionId := by
      intro u hu heq
      rw [htombs] at hu
      rcases List.mem_append.mp hu with hu | hu
      · have hnodup : (s.actionTombstones.map (·.actionId)).Nodup := htidy
        rw [hs, List.map_cons, List.nodup_cons] at hnodup
        exact hnodup.1 (List.mem_map.mpr ⟨u, hu, heq⟩)
      · obtain rfl := List.mem_singleton.mp hu
        exact (h.identities.known hmem).unburied (congrArg ActionLifecycle.terminal hadmitted) t
          htmem heq.symm
    rcases hid with ⟨p, hp, hid⟩ | ⟨a, ha, hid⟩
    · exact ⟨_, State.mem_actions_planning hp, unburied fun u hu heq => hout u hu (heq.trans hid)⟩
    · exact ⟨_, State.mem_actions_preparation ha, unburied fun u hu heq => hout u hu (heq.trans hid)⟩

end Burying

/-- A new topology leaves evidence of every action unless the state forgets one. -/
theorem Recorded.entered_rests_iff (h : Recorded s o) (hv : o.valid = true)
    (hn : ∀ w ∈ s.mutators, w.lifecycle.mutatingInFlight = false)
    (hbound : s.actionTombstones.length ≤ actionTombstoneRetentionLimit) {t : Nat}
    (hc : Classifies (s.enterEpoch o t) o d) :
    (∀ r ∈ s.actions, r.actionId ∉ d.state.actionIds → Rests s d.state r) ↔ ¬ Forgets s := by
  have htombs : d.state.actionTombstones = s.epochBurial.actionTombstones :=
    (h.entered hv t).tombstones_of_unplanned hc rfl
  have hgone : ∀ r ∈ s.actions, r.actionId ∉ d.state.actionIds := fun r hr => h.entered_gone hc hr
  constructor
  · intro hrests hforgets
    obtain ⟨r, hr, hlost⟩ := h.forgotten htombs hforgets
    exact hlost (hrests r hr (hgone r hr))
  · intro hkept r hr _
    by_cases hpending : ∃ r₀, PendingWorker s r₀
    · obtain ⟨r₀, hr₀⟩ := hpending
      exact h.rests_beside hbound htombs hgone hr₀ hkept hr
    · exact h.rests_settled hn htombs (not_exists.mp hpending) hkept hr

end Entered

section Runs

variable {s : State} {e : Event} {d : Decision}

theorem State.length_planTombstones_le (htidy : s.Tidy)
    (hs : s.actionTombstones.length ≤ actionTombstoneRetentionLimit) :
    s.planTombstones.length ≤ actionTombstoneRetentionLimit := by
  unfold State.planTombstones
  split
  · exact hs
  · split
    · exact hs
    · exact htidy.length_burial_le _ rfl

theorem State.length_buryAdmitted_le (htidy : s.Tidy)
    (hs : s.actionTombstones.length ≤ actionTombstoneRetentionLimit) (w : Option WorkerAction) :
    (s.buryAdmitted w).actionTombstones.length ≤ actionTombstoneRetentionLimit := by
  unfold State.buryAdmitted
  dsimp only
  split
  · exact hs
  · split
    · exact htidy.length_burial_le _ rfl
    · exact hs

theorem State.length_epochBurial_le (htidy : s.Tidy)
    (hs : s.actionTombstones.length ≤ actionTombstoneRetentionLimit) :
    s.epochBurial.actionTombstones.length ≤ actionTombstoneRetentionLimit := by
  have h₁ := htidy.dropPlan
  have h₂ := h₁.buryAdmitted (s.probe.map (·.toWorkerAction))
  have h₃ := h₂.buryAdmitted (s.application.map (·.toWorkerAction))
  exact State.length_buryAdmitted_le h₃ (State.length_buryAdmitted_le h₂
    (State.length_buryAdmitted_le h₁ (State.length_planTombstones_le htidy hs) _) _) _

/-- A sample is classified in its own topology, or in the new topology which it begins. -/
theorem Sound.interred_or_entered (h : Sound s) (hs : Step s e d)
    (hboot : ∀ b, e ≠ .bootChanged b) :
    Interred s d.state.actionIds d.state.actionTombstones ∧
        (∀ f, e = .observationCompleted f → FreshSample s f →
          s.physicalToken ≠ some f.observation.physicalToken → ¬ Quiet s) ∨
      ∃ f, e = .observationCompleted f ∧ FreshSample s f ∧
        s.physicalToken ≠ some f.observation.physicalToken ∧ Quiet s ∧
        ∃ d', Classifies ((recordObservation s f.observation).enterEpoch f.observation
          f.observation.observedAtMs) f.observation d' ∧ d.state = d'.state := by
  by_cases hc : Classified s e d
  · obtain ⟨f, rfl, hb, hf, hv, ⟨s', es, d', hfrees, hcl⟩⟩ := hc
    have hrecorded := h.recorded (f.same_boot.trans hb) hf
    by_cases ht : s.physicalToken = some f.observation.physicalToken
    · refine .inl ⟨(hrecorded.interred hv ht hfrees hcl).rebase rfl rfl rfl rfl, ?_⟩
      rintro _ ⟨⟩ - hne
      exact absurd ht hne
    · cases hfrees with
      | entered _ hr => exact .inr ⟨f, rfl, ⟨hb, hf, hv⟩, ht, hr, d', hcl, rfl⟩
      | idle hto hb => exact absurd hto ht
      | cancelled hto hc => exact absurd hto ht
      | concluded a b hto ha hl he hb hbl => exact absurd hto ht
  · refine .inl ⟨h.interred_unclassified hs hboot hc, ?_⟩
    rintro f rfl hx hne hquiet
    have hobserved := observed_of_step hs hx.boot hx.fresh
    rcases hobserved.stays_or_classified with hstays | ⟨hv, hreaches⟩
    · have hentered := hobserved.entered hx.valid hquiet
      exact hne (hstays.physicalToken.symm.trans hentered)
    · exact hc ⟨f, rfl, hx.boot, hx.fresh, hv, hreaches⟩

theorem Ends.not_booted {b : BootChanged} {r : ActionRecord} {l : ActionLifecycle} :
    ¬ Ends (.bootChanged b) r l := by
  generalize he : Event.bootChanged b = e
  intro h
  cases h with
  | finished hid _ _ =>
    subst he
    cases hid
  | acknowledged _ _ => cases he

theorem Step.rebooted_or {b : BootChanged} (h : Step s (.bootChanged b) d) :
    d.state = s ∨ d.state = MonitorController.rebooted s b := by
  cases h with
  | ignored _ hi => exact .inl rfl
  | booted _ hb => exact .inr rfl
  | stopRepeated _ r t hr hl he ht => cases he
  | closed _ r l v es t hr hk he hl hv hes ht => exact absurd he Ends.not_booted
  | failed _ r r' phase es t hr hc hf he hp hes =>
    cases he with
    | ended he => exact absurd he Ends.not_booted
  | preparationReported _ a b t ha he hb hl ht => exact absurd he Ends.not_booted
  | finalizationReported _ a b t ha he hb hl ht => exact absurd he Ends.not_booted
  | doubted _ r v t hr hk hl he ht => cases he

theorem Sound.trails_step (h : Sound s) (hs : Step s e d) (hsound : Sound d.state)
    (htrails : Trails s) : Trails d.state := by
  by_cases hc : Classified s e d
  · obtain ⟨f, rfl, hb, hf, -, ⟨s', es, d', hfrees, hcl⟩⟩ := hc
    have hrecorded := h.recorded (f.same_boot.trans hb) hf
    have htrails' : Trails (recordObservation s f.observation) := htrails
    have hafter := hrecorded.trails htrails' hfrees hcl hsound
    exact hafter
  · by_cases hboot : ∃ b, e = .bootChanged b
    · obtain ⟨b, rfl⟩ := hboot
      rcases hs.rebooted_or with heq | heq <;> rw [heq]
      · exact htrails
      · rintro a ⟨⟩
    · rcases hs.cases_on with ⟨hkept, -⟩ | hcl
      · exact h.trails_kept htrails hkept (h.interred_unclassified hs (not_exists.mp hboot) hc)
          hsound
      · exact absurd hcl hc

theorem Sound.bounded_step (h : Sound s) (hs : Step s e d)
    (hbound : s.actionTombstones.length ≤ actionTombstoneRetentionLimit) :
    d.state.actionTombstones.length ≤ actionTombstoneRetentionLimit := by
  by_cases hboot : ∃ b, e = .bootChanged b
  · obtain ⟨b, rfl⟩ := hboot
    rcases hs.rebooted_or with heq | heq <;> rw [heq] <;> exact hbound
  · rcases h.interred_or_entered hs (not_exists.mp hboot) with
      ⟨hi, -⟩ | ⟨f, rfl, hx, -, -, d', hc, heq⟩
    · exact hi.bounded h.identities.tidy hbound
    · have hrecorded := h.recorded (f.same_boot.trans hx.boot) hx.fresh
      rw [heq, (hrecorded.entered hx.valid _).tombstones_of_unplanned hc rfl]
      exact State.length_epochBurial_le h.identities.tidy hbound

theorem Reachable.trails (h : Reachable s) : Trails s := by
  refine Runs.Reachable.invariant (P := Trails) ?_ ?_ h
  · rintro _ ⟨bootId, instanceId, display, session, rfl⟩
    rintro a ⟨⟩
  · intro s e d s' hr htrails hmove
    have hreach : Reachable s := hr
    obtain ⟨hd, rfl⟩ := hmove
    obtain ⟨-, hstep, -, hsound⟩ := hreach.sound.reduces hd
    exact hreach.sound.trails_step hstep hsound htrails

theorem Reachable.bounded (h : Reachable s) :
    s.actionTombstones.length ≤ actionTombstoneRetentionLimit := by
  refine Runs.Reachable.invariant (P := fun s => s.actionTombstones.length ≤ _) ?_ ?_ h
  · rintro _ ⟨bootId, instanceId, display, session, rfl⟩
    exact Nat.zero_le _
  · intro s e d s' hr hbound hmove
    have hreach : Reachable s := hr
    obtain ⟨hd, rfl⟩ := hmove
    exact hreach.sound.bounded_step (hreach.sound.reduces hd).2.1 hbound

/-- A retired action leaves evidence unless a new topology begins in which it is forgotten. -/
theorem retired_rest_iff (hs : Reachable s) (hboot : ∀ b, e ≠ .bootChanged b)
    (hd : reduce s e = .ok d) :
    (∀ r ∈ s.actions, r.actionId ∉ d.state.actionIds → Rests s d.state r) ↔
      ¬ ∃ f, e = .observationCompleted f ∧ FreshSample s f ∧
        s.physicalToken ≠ some f.observation.physicalToken ∧ Forgets s := by
  have h := hs.sound
  obtain ⟨-, hstep, -, -⟩ := h.reduces hd
  rcases h.interred_or_entered hstep hboot with ⟨hi, hbusy⟩ | ⟨f, rfl, hx, hne, hquiet, d', hc, heq⟩
  · refine iff_of_true (fun r hr hg => h.rests hs.trails hi hr hg) ?_
    rintro ⟨f, rfl, hx, hne, hforgets⟩
    obtain ⟨w, hw, hwl⟩ := hforgets.pending
    refine hbusy f rfl hx hne fun v hv => ?_
    by_contra hflying
    exact h.none_admitted hv (by simpa using hflying) w hw hwl
  · have hrecorded := h.recorded (f.same_boot.trans hx.boot) hx.fresh
    have hiff := hrecorded.entered_rests_iff hx.valid hquiet hs.bounded hc
    rw [heq]
    refine Iff.trans hiff (not_congr ⟨fun hforgets => ⟨f, rfl, hx, hne, hforgets⟩, ?_⟩)
    rintro ⟨g, -, -, -, hforgets⟩
    exact hforgets

end Runs

namespace Scenario

theorem panelShown_accepted : (lit laptop laptop 3 3000).Accepted := by decide

/-- The plan is ready and the preparation of the desktop is admitted. -/
def staged : State :=
  (follow planned [.planRequested ⟨metadata 1000, planId, planKey, planId_kind⟩,
    .planCompleted ⟨metadata 1000, planId, planKey, ⟨laptop⟩, planId_kind⟩,
    .observationCompleted (shown laptop laptop 3 3000 panelShown_accepted)]).get rfl

theorem staged_reachable : Reachable staged :=
  (fresh_reachable.follow (Option.some_get _).symm).follow (Option.some_get _).symm

theorem monitorShown_accepted : (lit dock dock 4 4000).Accepted := by decide

def monitorShown : ObservationCompleted := shown dock dock 4 4000 monitorShown_accepted

def unstaged : Decision := decided staged (.observationCompleted monitorShown) rfl

end Scenario

open Scenario in
theorem retired_rest_iff_staged :
    (∀ r ∈ staged.actions, r.actionId ∉ unstaged.state.actionIds → Rests staged unstaged.state r) ↔
      ¬ ∃ f, Event.observationCompleted monitorShown = .observationCompleted f ∧
        FreshSample staged f ∧ staged.physicalToken ≠ some f.observation.physicalToken ∧
        Forgets staged :=
  retired_rest_iff staged_reachable (by rintro b ⟨⟩) (reduce_decided _ _ rfl)

open Scenario in
/-- The monitor's topology forgets the preparation which was to be launched. -/
theorem retired_rests_not : ¬ ∀ (s : State), Reachable s → ∀ e : Event, (∀ b, e ≠ .bootChanged b) →
    ∀ d : Decision, reduce s e = .ok d → ∀ r ∈ s.actions, r.actionId ∉ d.state.actionIds →
    Rests s d.state r := by
  intro h
  have hprepared : staged.preparation.isSome = true := rfl
  have hmem := State.mem_actions_preparation (s := staged) (Option.some_get hprepared).symm
  have hgone : preparationId ∉ unstaged.state.actionIds := by decide +kernel
  have hlost : ∀ t ∈ unstaged.state.actionTombstones, t.actionId ≠ preparationId := by
    decide +kernel
  obtain ⟨older, t, newer, htombs, hid, -⟩ := h staged staged_reachable
    (.observationCompleted monitorShown) (by rintro b ⟨⟩) unstaged (reduce_decided _ _ rfl) _ hmem
    hgone
  exact hlost t (htombs ▸ List.mem_append_right _ List.mem_cons_self) hid

end MonitorController
