import MonitorController.Safety.Invalid
import MonitorController.Safety.Freshness
import MonitorController.Safety.Topology

/-! # Burials

What a step buries. Apart from a new topology a step buries at most one live
action, or a pending application beside the running plan which it drops.
-/

namespace MonitorController

theorem State.eq_of_kind {s : State} {r r' : ActionRecord} (hr : r ∈ s.actions)
    (hr' : r' ∈ s.actions) (hk : r'.kind = r.kind) : r' = r := by
  have hslot := State.slot_of_mem_actions hr'
  rw [hk, State.slot_of_mem_actions hr] at hslot
  exact (Option.some.inj hslot).symm

theorem State.kind_of_gone {s s' : State} {kinds : List ActionKind}
    (h : ∀ k, k ∉ kinds → s'.slot k = s.slot k) {r : ActionRecord} (hr : r ∈ s.actions)
    (hg : r.actionId ∉ s'.actionIds) : r.kind ∈ kinds := by
  by_contra hk
  have hslot := State.slot_of_mem_actions hr
  rw [← h r.kind hk] at hslot
  exact hg (List.mem_map.mpr ⟨r, State.mem_actions_of_slot hslot, rfl⟩)

/-- Every action is still in a slot. -/
def Stay (s s' : State) : Prop := ∀ r ∈ s.actions, r.actionId ∈ s'.actionIds

theorem Stay.of_slot {s s' : State} {r r' : ActionRecord} (hr : r ∈ s.actions)
    (hr' : s'.slot r.kind = some r') (hid : r'.actionId = r.actionId)
    (hother : ∀ k, k ≠ r.kind → s'.slot k = s.slot k) : Stay s s' := by
  intro r₁ hr₁
  have hslot := State.slot_of_mem_actions hr₁
  by_cases hk : r₁.kind = r.kind
  · rw [hk, State.slot_of_mem_actions hr] at hslot
    obtain rfl := Option.some.inj hslot
    rw [← State.kind_of_slot hr'] at hr'
    exact List.mem_map.mpr ⟨r', State.mem_actions_of_slot hr', hid⟩
  · rw [← hother r₁.kind hk] at hslot
    exact List.mem_map.mpr ⟨r₁, State.mem_actions_of_slot hslot, rfl⟩

theorem Stay.refl (s : State) : Stay s s := fun r hr => List.mem_map.mpr ⟨r, hr, rfl⟩

/-- What a step buries, and which actions leave the slots with it: the identities and the
tombstones after the step. -/
inductive Interred (s : State) (ids : List ActionId) (tombstones : List ActionTombstone) : Prop
  | nothing (ht : tombstones = s.actionTombstones)
    (hg : ∀ r ∈ s.actions, r.actionId ∉ ids → r.lifecycle.terminal = true)
  | one (r : ActionRecord) (l : ActionLifecycle) (hr : r ∈ s.actions)
    (hlive : r.lifecycle.terminal = false) (hl : l.terminal = true)
    (ht : tombstones = s.burial r.actionId l)
    (hc : r.lifecycle = .admitted → r.actionId ∉ ids → l = .cancelled)
    (hg : ∀ r' ∈ s.actions, r'.actionId ∉ ids → r'.lifecycle.terminal = true ∨ r' = r)
  | beside (a p) (x : State) (ha : s.application = some a) (hp : s.planning = some p)
    (hlive : p.lifecycle.terminal = false) (hgone : p.actionId ∉ ids) (hx : x.Tidy)
    (ht : tombstones = x.burial p.actionId .cancelled)
    (hxt : a.lifecycle.terminal = true ∧ x.actionTombstones = s.actionTombstones ∨
      a.lifecycle = .admitted ∧ x.actionTombstones = s.burial a.actionId .cancelled)
    (hg : ∀ r ∈ s.actions, r = .application a ∨ r = .planning p)

namespace Interred

variable {s s' : State}

theorem of_stay (ht : s'.actionTombstones = s.actionTombstones) (hs : Stay s s') :
    Interred s s'.actionIds s'.actionTombstones :=
  .nothing ht fun r hr hg => absurd (hs r hr) hg

theorem rebase {u : State} {ids : List ActionId} {tombstones : List ActionTombstone}
    (h : Interred u ids tombstones) (hactions : u.actions = s.actions)
    (happ : u.application = s.application) (hplan : u.planning = s.planning)
    (ht : u.actionTombstones = s.actionTombstones) : Interred s ids tombstones := by
  have hburial := State.burial_congr ht (by rw [hactions])
  cases h with
  | nothing htombs hg => exact .nothing (htombs.trans ht) (hactions ▸ hg)
  | one r l hr hlive hl htombs hc hg =>
    exact .one r l (hactions ▸ hr) hlive hl (htombs.trans (hburial _ _)) hc (hactions ▸ hg)
  | beside a p x ha hp hlive hgone hx htombs hxt hg =>
    rw [ht, hburial] at hxt
    exact .beside a p x (happ ▸ ha) (hplan ▸ hp) hlive hgone hx htombs hxt (hactions ▸ hg)

theorem of_retired {r : ActionRecord} {l : ActionLifecycle} (hr : r ∈ s.actions)
    (hlive : r.lifecycle.terminal = false) (hl : l.terminal = true)
    (hc : r.lifecycle = .admitted → l = .cancelled)
    (ht : s'.actionTombstones = s.burial r.actionId l)
    (hslots : ∀ k, k ∉ [r.kind] → s'.slot k = s.slot k) :
    Interred s s'.actionIds s'.actionTombstones := by
  refine .one r l hr hlive hl ht (fun ha _ => hc ha) fun r' hr' hg => .inr ?_
  exact State.eq_of_kind hr hr' (List.mem_singleton.mp (State.kind_of_gone hslots hr' hg))

theorem of_ended {r : ActionRecord} {l : ActionLifecycle} (hr : r ∈ s.actions)
    (hlive : r.lifecycle.terminal = false) (hl : l.terminal = true)
    (ht : s'.actionTombstones = s.burial r.actionId l) (hs : Stay s s') :
    Interred s s'.actionIds s'.actionTombstones :=
  .one r l hr hlive hl ht (fun _ hg => absurd (hs r hr) hg) fun r' hr' hg => absurd (hs r' hr') hg

end Interred

section Samples

variable {s s' : State} {r : ActionRecord} {es : List Effect} {o : CanonicalObservation}
  {d : Decision}

/-- A withdrawn preparation leaves with its complete plan. -/
theorem Core.interred_withdrawn (h : Core s) (hw : Withdraws s r s' es)
    (hl : r.lifecycle = .admitted) :
    Interred s s'.actionIds s'.actionTombstones := by
  cases hw with
  | finalization a ha =>
    refine .of_retired (State.mem_actions_finalization ha) (by rw [hl]; rfl) rfl (fun _ => rfl) rfl ?_
    intro k hk
    cases k with
    | finalization => simp [ActionRecord.kind] at hk
    | _ => rfl
  | preparation a ha =>
    have hended : ∀ p ∈ s.planning, p.lifecycle.terminal = true := h.plan_ended ha
    have htombstones := State.planTombstones_of_ended
      (s := s.retire (.preparation a) .cancelled) hended
    refine .one (.preparation a) .cancelled (State.mem_actions_preparation ha) (by rw [hl]; rfl) rfl
      htombstones (fun _ _ => rfl) fun r' hr' hg => ?_
    have hkind : r'.kind ∈ [ActionKind.preparation, .plan] := by
      refine State.kind_of_gone (fun k hk => ?_) hr' hg
      cases k with
      | preparation => simp at hk
      | plan => simp at hk
      | _ => rfl
    cases r' with
    | preparation b =>
      exact .inr (congrArg _ (Option.mem_unique (State.preparation_of_mem hr') ha))
    | planning p => exact .inl (hended p (State.planning_of_mem hr'))
    | _ => simp [ActionRecord.kind] at hkind

theorem Core.interred_revoked (h : Core s) (hr : Revokes s r s' es)
    (hl : r.lifecycle = .admitted) :
    Interred s s'.actionIds s'.actionTombstones := by
  cases hr with
  | desktop hw => exact h.interred_withdrawn hw hl
  | probe a ha =>
    refine .of_retired (State.mem_actions_probe ha) (by rw [hl]; rfl) rfl (fun _ => rfl) rfl ?_
    intro k hk
    cases k with
    | probe => simp [ActionRecord.kind] at hk
    | _ => rfl
  | application a ha =>
    refine .of_retired (State.mem_actions_application ha) (by rw [hl]; rfl) rfl (fun _ => rfl) rfl ?_
    intro k hk
    cases k with
    | application => simp [ActionRecord.kind] at hk
    | _ => rfl

theorem Stops.actionTombstones (h : Stops s r s') : s'.actionTombstones = s.actionTombstones := by
  cases h <;> rfl

theorem Confirms.actionTombstones {f : Effect} (h : Confirms s o s' f) :
    s'.actionTombstones = s.actionTombstones := by
  cases h <;> rfl

theorem Stops.stay (h : Stops s r s') : Stay s s' := by
  cases h with
  | probe a ha hl =>
    exact .of_slot (State.mem_actions_probe ha) rfl rfl fun k hk => by
      cases k <;> first | rfl | exact absurd rfl hk
  | application a ha hl =>
    exact .of_slot (State.mem_actions_application ha) rfl rfl fun k hk => by
      cases k <;> first | rfl | exact absurd rfl hk
  | preparation a ha hl =>
    exact .of_slot (State.mem_actions_preparation ha) rfl rfl fun k hk => by
      cases k <;> first | rfl | exact absurd rfl hk
  | finalization a ha hl =>
    exact .of_slot (State.mem_actions_finalization ha) rfl rfl fun k hk => by
      cases k <;> first | rfl | exact absurd rfl hk

theorem Confirms.stay {f : Effect} (h : Confirms s o s' f) : Stay s s' := by
  cases h with
  | probe a ha hl hc =>
    exact .of_slot (State.mem_actions_probe ha) rfl rfl fun k hk => by
      cases k <;> first | rfl | exact absurd rfl hk
  | application a ha hl hc =>
    exact .of_slot (State.mem_actions_application ha) rfl rfl fun k hk => by
      cases k <;> first | rfl | exact absurd rfl hk
  | preparation a ha hl hc =>
    exact .of_slot (State.mem_actions_preparation ha) rfl rfl fun k hk => by
      cases k <;> first | rfl | exact absurd rfl hk
  | finalization a ha hl hc =>
    exact .of_slot (State.mem_actions_finalization ha) rfl rfl fun k hk => by
      cases k <;> first | rfl | exact absurd rfl hk

theorem Refuses.interred (h : Refuses s s') : Interred s s'.actionIds s'.actionTombstones := by
  cases h with
  | finalization a b v ha hl hb hbl hv =>
    have hmem := State.mem_actions_finalization ha
    refine .of_ended (l := .failed) hmem (congrArg ActionLifecycle.terminal hl) rfl rfl ?_
    exact .of_slot hmem rfl hb.actionId fun k hk => by
      cases k <;> first | rfl | exact absurd rfl hk
  | preparation a b ha hl hb hbl =>
    have hmem := State.mem_actions_preparation ha
    refine .of_ended (l := .failed) hmem (congrArg ActionLifecycle.terminal hl) rfl rfl ?_
    exact .of_slot hmem rfl hb.actionId fun k hk => by
      cases k <;> first | rfl | exact absurd rfl hk

/-- A confirmed finalization leaves with its plan and its preparation. -/
theorem Core.interred_completed (h : Core s) {a : FinalizationAction}
    (ha : s.finalization = some a) (hl : a.lifecycle = .resultPending)
    (ht : s'.actionTombstones = (s.bury a.actionId .completed).planTombstones)
    (hprobe : s'.probe = s.probe) (happ : s'.application = s.application) :
    Interred s s'.actionIds s'.actionTombstones := by
  obtain ⟨-, -, hprepared⟩ := h.control.finalization_alone (by simp [ha])
  obtain ⟨q, hq⟩ := h.control.preparation_isSome (by simp [hprepared])
  have hended : ∀ p ∈ s.planning, p.lifecycle.terminal = true := h.plan_ended hq
  rw [State.planTombstones_of_ended (s := s.bury a.actionId .completed) hended] at ht
  have hlive : (ActionRecord.finalization a).lifecycle.terminal = false :=
    congrArg ActionLifecycle.terminal hl
  refine .one (.finalization a) .completed (State.mem_actions_finalization ha) hlive rfl ht
    (fun hadmitted => absurd (hadmitted.symm.trans hl) (by decide)) fun r hr hg => ?_
  have hkind : r.kind ∈ [ActionKind.plan, .preparation, .finalization] := by
    refine State.kind_of_gone (fun k hk => ?_) hr hg
    cases k with
    | probe => exact congrArg (Option.map ActionRecord.probe) hprobe
    | application => exact congrArg (Option.map ActionRecord.application) happ
    | _ => simp at hk
  cases r with
  | planning p => exact .inl (hended p (State.planning_of_mem hr))
  | preparation b =>
    exact .inl (h.control.preparation_settled (by rw [hprepared]; rfl) b
      (State.preparation_of_mem hr))
  | finalization b =>
    exact .inr (congrArg _ (Option.mem_unique (State.finalization_of_mem hr) ha))
  | _ => simp [ActionRecord.kind] at hkind

theorem Core.interred_unclassified (h : Core s) {prior : Option CanonicalObservation}
    (ho : Observed s prior o d) (hn : ¬ (o.valid = true ∧ Reaches s prior o d)) :
    Interred s d.state.actionIds d.state.actionTombstones := by
  cases ho with
  | revoked r s' es t hv hl hr ht =>
    have hcore : Core (MonitorController.revokeProofs s o) := h.revokeProofs o
    exact (hcore.interred_revoked hr hl).rebase rfl rfl rfl rfl
  | invalid phase t hv hadmitted hp ht => exact .of_stay rfl (.refl s)
  | invalidInternal a t hv ha hi ht =>
    exact .of_stay rfl <| .of_slot (State.mem_actions_application ha) rfl rfl fun k hk => by
      cases k <;> first | rfl | exact absurd rfl hk
  | internal a t hv ha hi ht =>
    exact .of_stay rfl <| .of_slot (State.mem_actions_application ha) rfl rfl fun k hk => by
      cases k <;> first | rfl | exact absurd rfl hk
  | stopping w t hv hw hl ht => exact .of_stay rfl (.refl s)
  | stopped r s' t hv hs hi hc ht => exact .of_stay hs.actionTombstones hs.stay
  | refused s' t hv hs ht hc => exact hs.interred
  | running t hv ht hr hd => exact .of_stay rfl (.refl s)
  | completed a hv ha hl he => exact h.interred_completed ha hl rfl rfl rfl
  | uncertain a t hv ht ha hl he hd => exact .of_stay rfl (.refl s)
  | preparing a t hv ht ha hl he hd => exact .of_stay rfl (.refl s)
  | confirmed s' eff hv ht hc => exact .of_stay hc.actionTombstones hc.stay
  | classified s' es d hv hf hc => exact absurd ⟨hv, .intro s' es d hf hc⟩ hn

end Samples

section Steps

variable {s : State} {e : Event} {d : Decision}

theorem Core.unprepared (h : Core s) {p : PlanningAction} (hp : s.planning = some p)
    (hl : p.lifecycle.terminal = false) : s.preparation = none := by
  by_contra hne
  obtain ⟨a, ha⟩ := Option.ne_none_iff_exists'.mp hne
  have hended := h.plan_ended ha p hp
  rw [hl] at hended
  cases hended

theorem Core.beside_plan (h : Core s) {p : PlanningAction} (hp : s.planning = some p)
    (hl : p.lifecycle.terminal = false) :
    s.actions = (s.application.map ActionRecord.application).toList ++ [.planning p] := by
  have hprep := h.unprepared hp hl
  have hprobe : s.probe = none := by
    by_contra hne
    obtain ⟨-, hplan, -⟩ := h.control.probe_alone hne
    rw [hp] at hplan
    cases hplan
  have hfin : s.finalization = none := by
    by_contra hne
    have hprepared := (h.control.finalization_alone hne).2.2
    obtain ⟨q, hq⟩ := h.control.preparation_isSome (by simp [hprepared])
    rw [hprep] at hq
    cases hq
  simp [State.actions, hp, hprep, hprobe, hfin]

theorem stay_failSlot {r r' : ActionRecord} (hr : r ∈ s.actions) (hc : Continues r r')
    (l : ActionLifecycle) : Stay s (failSlot (s.bury r.actionId l) r') := by
  have hid := hc.actionId
  cases hc with
  | planning a l' x =>
    exact .of_slot hr rfl hid fun k hk => by cases k <;> first | rfl | exact absurd rfl hk
  | probe a w hk hw =>
    exact .of_slot hr rfl hid fun k hk => by cases k <;> first | rfl | exact absurd rfl hk
  | application a w hk hw =>
    exact .of_slot hr rfl hid fun k hk => by cases k <;> first | rfl | exact absurd rfl hk
  | preparation a w hk hw =>
    exact .of_slot hr rfl hid fun k hk => by cases k <;> first | rfl | exact absurd rfl hk
  | finalization a w hk hw =>
    exact .of_slot hr rfl hid fun k hk => by cases k <;> first | rfl | exact absurd rfl hk

theorem stay_stopSlot {r : ActionRecord} (hr : r ∈ s.actions) (v : UncertainVerdict) :
    Stay s (stopSlot s v r) := by
  cases r with
  | planning a => exact .refl s
  | probe a =>
    exact .of_slot hr rfl rfl fun k hk => by cases k <;> first | rfl | exact absurd rfl hk
  | application a =>
    exact .of_slot hr rfl rfl fun k hk => by cases k <;> first | rfl | exact absurd rfl hk
  | preparation a =>
    exact .of_slot hr rfl rfl fun k hk => by cases k <;> first | rfl | exact absurd rfl hk
  | finalization a =>
    exact .of_slot hr rfl rfl fun k hk => by cases k <;> first | rfl | exact absurd rfl hk

theorem Core.interred_hinted {s' : State} {es : List Effect} (h : Core s) (hh : Hints s s' es) :
    Interred s s'.actionIds s'.actionTombstones := by
  cases hh with
  | withdrawn hl hw => exact h.interred_withdrawn hw hl
  | reopened hq hf hp => exact .of_stay rfl (.refl s)
  | kept hp => exact .of_stay rfl (.refl s)

/-- A step on which no sample is classified buries at most one action. -/
theorem Sound.interred_unclassified (h : Sound s) (hs : Step s e d)
    (hboot : ∀ b, e ≠ .bootChanged b) (hn : ¬ Classified s e d) :
    Interred s d.state.actionIds d.state.actionTombstones := by
  cases hs with
  | ignored e hi => exact .of_stay rfl (.refl s)
  | observed e hb hf ho =>
    have hcore : Core (recordObservation s e.observation) :=
      (h.recorded (e.same_boot.trans hb) hf).toCore
    have hi := hcore.interred_unclassified ho fun hc => hn ⟨e, rfl, hb, hf, hc⟩
    exact hi.rebase rfl rfl rfl rfl
  | observationFailed e t ht => exact .of_stay rfl (.refl s)
  | timerFired e t ht => exact .of_stay rfl (.refl s)
  | hinted e s' es t hb hg ht hh =>
    have hcore := h.toCore.supersede hg.le e.metadata.processedAtMs
    exact (hcore.interred_hinted hh).rebase rfl rfl rfl rfl
  | dirtied e r s' es t hb hr he hl hg ht hw =>
    rcases hw with hw | ⟨-, rfl, -⟩
    · have hcore := h.toCore.supersede hg.le t
      exact (hcore.interred_withdrawn hw hl).rebase rfl rfl rfl rfl
    · exact .of_stay rfl (.refl s)
  | probeDispatched e a w ha hl hi hd =>
    subst hd
    exact .of_stay rfl <| .of_slot (State.mem_actions_probe ha) rfl rfl fun k hk => by
      cases k <;> first | rfl | exact absurd rfl hk
  | applicationDispatched e a w ha hl hi hd =>
    subst hd
    exact .of_stay rfl <| .of_slot (State.mem_actions_application ha) rfl rfl fun k hk => by
      cases k <;> first | rfl | exact absurd rfl hk
  | preparationDispatched e a w ha hl hi hd =>
    subst hd
    exact .of_stay rfl <| .of_slot (State.mem_actions_preparation ha) rfl rfl fun k hk => by
      cases k <;> first | rfl | exact absurd rfl hk
  | finalizationDispatched e a w ha hl hi hd =>
    subst hd
    exact .of_stay rfl <| .of_slot (State.mem_actions_finalization ha) rfl rfl fun k hk => by
      cases k <;> first | rfl | exact absurd rfl hk
  | planRequested e p hp hs hi hk =>
    exact .of_stay rfl <| .of_slot (State.mem_actions_planning hp) rfl rfl fun k hk => by
      cases k <;> first | rfl | exact absurd rfl hk
  | planCompleted e p t hp hs hi hk ht =>
    have hl := (h.control.planning_running hp).2 hs
    have hmem := State.mem_actions_planning hp
    refine .of_ended (l := .completed) hmem (congrArg ActionLifecycle.terminal hl) rfl rfl ?_
    exact .of_slot hmem rfl rfl fun k hk => by cases k <;> first | rfl | exact absurd rfl hk
  | planRetried e p t hp hs hi hk hr ht =>
    have hlive : p.lifecycle.terminal = false := by
      rcases hs with hs | hs
      · rw [(h.control.planning_running hp).1 hs]; rfl
      · rw [(h.control.planning_running hp).2 hs]; rfl
    have htombstones : s.planTombstones = s.burial p.actionId .cancelled := by
      simp [State.planTombstones, hp, hlive]
    refine .of_retired (State.mem_actions_planning hp) hlive rfl (fun _ => rfl) htombstones ?_
    intro k hk
    cases k with
    | plan => simp [ActionRecord.kind] at hk
    | preparation => exact congrArg (Option.map ActionRecord.preparation) (h.unprepared hp hlive).symm
    | _ => rfl
  | stopRepeated e r t hr hl he ht => exact .of_stay rfl (.refl s)
  | closed e r l v es t hr hk he hl hv hes ht =>
    have hlive := ActionLifecycle.live_of_inFlight he.live.1
    have hflying := he.live.1
    refine .of_retired (l := l) hr hlive he.live.2 (fun ha => ?_) (by cases r <;> rfl) ?_
    · simp [ha, ActionLifecycle.mutatingInFlight] at hflying
    · intro k hk
      cases r <;> cases k <;> first | rfl | simp [ActionRecord.kind] at hk
  | failed e r r' phase es t hr hc hf he hp hes =>
    refine .of_ended hr he.live (ActionLifecycle.terminal_of_failed hf) ?_ (stay_failSlot hr hc _)
    cases r' <;> rfl
  | preparationReported e a b t ha he hb hl ht =>
    exact .of_stay rfl <| .of_slot (State.mem_actions_preparation ha) rfl hb.actionId fun k hk => by
      cases k <;> first | rfl | exact absurd rfl hk
  | finalizationReported e a b t ha he hb hl ht =>
    exact .of_stay rfl <| .of_slot (State.mem_actions_finalization ha) rfl hb.actionId fun k hk => by
      cases k <;> first | rfl | exact absurd rfl hk
  | doubted e r v t hr hk hl he ht =>
    refine .of_stay ?_ (stay_stopSlot hr v)
    cases r <;> rfl
  | restarted e a s' es t ha hl hw ht =>
    have hcore : Core { s with controllerInstance := e.controllerInstance } := { h.toCore with }
    exact (hcore.interred_withdrawn hw hl).rebase rfl rfl rfl rfl
  | retried e a t ha hp ht =>
    refine .nothing rfl fun r hr hg => ?_
    have hkind : r.kind ∈ [ActionKind.finalization] := by
      refine State.kind_of_gone (fun k hk => ?_) hr hg
      cases k with
      | finalization => simp at hk
      | _ => rfl
    cases r with
    | finalization b =>
      have hfailed : b.lifecycle.failedLifecycle = true := by
        rcases h.control.finalization_phase (State.finalization_of_mem hr) with ⟨-, hq⟩ | ⟨-, hq⟩ |
          ⟨-, hq⟩ | ⟨hfailed, -⟩
        · simp [hp] at hq
        · simp [hp] at hq
        · simp [hp] at hq
        · exact hfailed
      exact ActionLifecycle.terminal_of_failed hfailed
    | _ => simp [ActionRecord.kind] at hkind
  | resumed e v es t hq hv hes => exact .of_stay rfl (.refl s)
  | booted e hb => exact absurd rfl (hboot e)

end Steps

/-- The plan stays in its slot, or it is dropped there and perhaps replaced. -/
inductive Drops (s s' : State) : Prop
  | kept (hp : s'.planning = s.planning) (ht : s'.actionTombstones = s.actionTombstones)
  | dropped (hp : ∀ p ∈ s'.planning, s.actionSequenceHighWater < p.actionId.sequence)
    (ht : s'.actionTombstones = s.planTombstones)

section Classification

variable {s s' : State} {o : CanonicalObservation} {target : ProfileMatch} {d : Decision}
  {es : List Effect}

theorem State.planTombstones_congr {t : State} (hactions : t.actions = s.actions)
    (hplan : t.planning = s.planning) (ht : t.actionTombstones = s.actionTombstones) :
    t.planTombstones = s.planTombstones := by
  unfold State.planTombstones
  rw [hplan, ht]
  simp only [State.burial_congr ht (by rw [hactions])]

theorem Verifies.drops (h : Verifies s o target s' es) :
    s'.actionSequenceHighWater = s.actionSequenceHighWater ∧
      (s' = s ∨ s'.planning = none ∧ s'.actionTombstones = s.planTombstones) := by
  cases h with
  | kept hs hi => exact ⟨rfl, .inl rfl⟩
  | replanned hs hi => exact ⟨rfl, .inr ⟨rfl, rfl⟩⟩
  | restarted hs => exact ⟨rfl, .inr ⟨rfl, rfl⟩⟩

theorem Plans.drops (h : Plans s o target s' es) (hc : s.Control) :
    s' = s ∨ s.planning = none ∧ s'.actionTombstones = s.actionTombstones ∧
      s'.candidate = s.candidate ∧ s'.desktopFinalizedProfile ≠ some target.profile ∧
      ∀ p ∈ s'.planning, s.actionSequenceHighWater < p.actionId.sequence := by
  cases h with
  | kept => exact .inl rfl
  | admitted hf hb hidle =>
    have hfit := hc.planning_fits
    rw [hidle] at hfit
    refine .inr ⟨by simpa [Fits, expectedPlanning] using hfit, rfl, rfl, hf, ?_⟩
    rintro p ⟨⟩
    exact Nat.lt_succ_self _

theorem Advances.drops (h : Advances s o es d) :
    d.state.planning = s.planning ∧ d.state.actionTombstones = s.actionTombstones ∨
      (d.state.planning = none ∧ d.state.actionTombstones = s.planTombstones) ∧
        ∃ c ∈ s.candidate, s.desktopFinalizedProfile = some c.profile := by
  cases h with
  | finalized since c hv hc hp hf => exact .inr ⟨⟨rfl, rfl⟩, c, hc, hf⟩
  | adopted since c hv hc hp hb => exact .inl ⟨rfl, rfl⟩
  | finalizes since c q hv hc hp hf hb hq hqs hn => exact .inl ⟨rfl, rfl⟩
  | prepares since c p planHash hv hc hp hf hb hl hls hh hqs => exact .inl ⟨rfl, rfl⟩
  | settled since c t hv hc ht => exact .inl ⟨rfl, rfl⟩

theorem Waits.drops {nowMs : Nat} (h : Waits s nowMs d) :
    d.state.planning = s.planning ∧ d.state.actionTombstones = s.actionTombstones := by
  cases h with
  | wait phase aggressive index t hp hd hs => exact ⟨rfl, rfl⟩

theorem State.planTombstones_of_none (h : s.planning = none) :
    s.planTombstones = s.actionTombstones := by
  simp [State.planTombstones, h]

theorem drops_verification {s₀ : State} {s'' : State} {fs : List Effect}
    (hcontrol : ({ s' with phase := .verifying } : State).Control)
    (hv : Verifies s₀ o target s' es) (hp : Plans { s' with phase := .verifying } o target s'' fs)
    (ha : Advances s'' o (es ++ fs) d) : Drops s₀ d.state := by
  have hcandidate := hv.candidate
  obtain ⟨hmark, hverified⟩ := hv.drops
  rcases hp.drops hcontrol with rfl | ⟨hnone, ht, hsame, hf, hnew⟩
  · rcases hverified with rfl | ⟨hnone, ht⟩
    · rcases ha.drops with ⟨hplan, htombs⟩ | ⟨⟨hplan, htombs⟩, -⟩
      · exact .kept hplan htombs
      · exact .dropped (by simp [hplan]) (htombs.trans (State.planTombstones_congr rfl rfl rfl))
    · rcases ha.drops with ⟨hplan, htombs⟩ | ⟨⟨hplan, htombs⟩, -⟩
      · exact .dropped (by simp [hplan, hnone]) (htombs.trans ht)
      · have hempty := State.planTombstones_of_none
          (s := { s' with phase := .verifying }) hnone
        exact .dropped (by simp [hplan]) ((htombs.trans hempty).trans ht)
  · -- The admitted plan is not dropped again, since its profile is not finalized.
    rcases ha.drops with ⟨hplan, htombs⟩ | ⟨-, c, hc, hfinal⟩
    · refine .dropped (fun p hp => hmark ▸ hnew p (hplan ▸ hp)) ((htombs.trans ht).trans ?_)
      rcases hverified with rfl | ⟨-, hdropped⟩
      · exact (State.planTombstones_of_none hnone).symm
      · exact hdropped
    · have hprofile := hcandidate c (hsame ▸ hc)
      rw [hprofile] at hfinal
      exact absurd hfinal hf

theorem Selects.drops (hd : Selects s o d) (h : Open s o) : Drops s d.state := by
  cases hd with
  | deferred hz hn => exact .kept rfl rfl
  | waits hw hc ht => exact .kept hw.drops.1 hw.drops.2
  | waitsKnown hw c hz hc hk => exact .kept hw.drops.1 hw.drops.2
  | waitsSpent target ht hz hw hx hk hs => exact .kept hw.drops.1 hw.drops.2
  | probes c hz hc action ha hk =>
    exact .dropped (by rintro p ⟨⟩) (State.planTombstones_congr rfl rfl rfl)
  | stable target ht hx hs =>
    obtain ⟨keys, -, profiles, heq⟩ := rearmAchievedApplication_eq (clearUnknown s) target.profile
    rw [heq]
    exact .kept rfl rfl
  | verifies target s' es s'' fs ht hx hv hp ha =>
    have hverifying := (h.clearUnknown.rearm target.profile).verify ht.2 hx hv
    have hdrops := drops_verification hverifying.control hv hp ha
    obtain ⟨keys, -, profiles, heq⟩ := rearmAchievedApplication_eq (clearUnknown s) target.profile
    rw [heq] at hdrops
    cases hdrops with
    | kept hplan ht => exact .kept hplan ht
    | dropped hplan ht => exact .dropped hplan (ht.trans (State.planTombstones_congr rfl rfl rfl))
  | applies target ht hz hx action ha hk => exact .kept rfl rfl
  | unknown phase since t hp hs hc ht => exact .kept rfl rfl

/-- The plan, the tombstones and the mark are the same. -/
structure SamePlan (s s' : State) : Prop where
  planning : s'.planning = s.planning
  tombstones : s'.actionTombstones = s.actionTombstones
  mark : s'.actionSequenceHighWater = s.actionSequenceHighWater

theorem SamePlan.trans {t : State} (h : SamePlan s t) (h' : SamePlan t s') : SamePlan s s' :=
  ⟨h'.planning.trans h.planning, h'.tombstones.trans h.tombstones, h'.mark.trans h.mark⟩

theorem Unplugs.samePlan {complete : Bool} (h : Unplugs s o s' complete) : SamePlan s s' := by
  cases h <;> exact ⟨rfl, rfl, rfl⟩

theorem Settles.samePlan (h : Settles s o s') : SamePlan s s' := by
  cases h with
  | external he => exact ⟨rfl, rfl, rfl⟩
  | unplugged he hu => exact hu.samePlan

theorem samePlan_retainFailure (s : State) (o : CanonicalObservation) :
    SamePlan s (retainFailure s o).1 := by
  rcases retainFailure_cases s o with hr | hr | ⟨-, hr⟩ | ⟨-, hr⟩ | ⟨-, hr⟩ <;> rw [hr] <;>
    exact ⟨rfl, rfl, rfl⟩

theorem Classifies.drops (hc : Classifies s o d) (h : Free s o) :
    (d.state.planning = s.planning ∧ d.state.actionTombstones = s.actionTombstones) ∨
      ∃ t, t.Tidy ∧ SamePlan s t ∧
        (∀ p ∈ s.planning, p.lifecycle.terminal = false → t.actions = [.planning p]) ∧
        Drops t d.state := by
  cases hc with
  | unplugging s' he hu => exact .inl ⟨hu.samePlan.planning, hu.samePlan.tombstones⟩
  | retained s' hs hr => exact .inl ⟨hs.samePlan.planning, hs.samePlan.tombstones⟩
  | selected s' s'' hs hr hd =>
    have hopen := (h.settled hs).released hr
    have hretain := samePlan_retainFailure s' o
    rw [hr] at hretain
    have hsame : SamePlan s s'' := hs.samePlan.trans hretain
    refine .inr ⟨s'', hopen.identities.tidy, hsame, fun p hp hlive => ?_, hd.drops hopen⟩
    have hplan : s''.planning = some p := hsame.planning.trans hp
    simp [State.actions, hopen.probe, hopen.application, hopen.finalization, hplan,
      hopen.unprepared hplan hlive]

/-- What leaves the slots of a free state, and what is buried then. -/
theorem Free.buries (h : Free s o) (hc : Classifies s o d) :
    (d.state.actionTombstones = s.actionTombstones ∧ ∀ p ∈ s.planning,
        p.lifecycle.terminal = false → p.actionId ∈ d.state.actionIds) ∨
      ∃ p ∈ s.planning, p.lifecycle.terminal = false ∧ p.actionId ∉ d.state.actionIds ∧
        ∃ t : State, t.Tidy ∧ t.actionTombstones = s.actionTombstones ∧
          t.actions = [.planning p] ∧
          d.state.actionTombstones = t.burial p.actionId .cancelled := by
  have stays (hplan : d.state.planning = s.planning) :
      ∀ p ∈ s.planning, p.lifecycle.terminal = false → p.actionId ∈ d.state.actionIds :=
    fun p hp _ => List.mem_map.mpr
      ⟨.planning p, State.mem_actions_planning (hplan.trans hp), rfl⟩
  rcases hc.drops h with ⟨hplan, ht⟩ | ⟨t, htidy, hsame, halone, hdrops⟩
  · exact .inl ⟨ht, stays hplan⟩
  · cases hdrops with
    | kept hplan ht =>
      exact .inl ⟨ht.trans hsame.tombstones, stays (hplan.trans hsame.planning)⟩
    | dropped hnew ht =>
      by_cases hlive : ∃ p ∈ s.planning, p.lifecycle.terminal = false
      · obtain ⟨p, hp, hlive⟩ := hlive
        have hplan : t.planning = some p := hsame.planning.trans hp
        refine .inr ⟨p, hp, hlive, fun hmem => ?_, t, htidy, hsame.tombstones, halone p hp hlive,
          ht.trans (by simp [State.planTombstones, hplan, hlive])⟩
        obtain ⟨r, hr, hid⟩ := List.mem_map.mp hmem
        have hkind : r.kind = .plan := by rw [← r.kind_eq, hid, p.kind_plan]
        cases r with
        | planning q =>
          have hlt := hnew q (State.planning_of_mem hr)
          have hle := (h.identities.planning p hp).1.bounded
          have hid : q.actionId = p.actionId := hid
          rw [hid, hsame.mark] at hlt
          exact absurd hlt (Nat.not_lt.mpr hle)
        | _ => cases hkind
      · have hended : ∀ p ∈ t.planning, p.lifecycle.terminal = true := by
          intro p hp
          by_contra hne
          exact hlive ⟨p, hsame.planning ▸ hp, by simpa using hne⟩
        rw [State.planTombstones_of_ended hended, hsame.tombstones] at ht
        exact .inl ⟨ht, fun p hp hl => absurd ⟨p, hp, hl⟩ hlive⟩

end Classification

section Classified

variable {s s' : State} {prior : Option CanonicalObservation} {o : CanonicalObservation}
  {d : Decision} {es : List Effect}

theorem Cancels.retires (h : Cancels s o s') :
    ∃ r ∈ s.actions, r.lifecycle = .admitted ∧ r.kind ≠ .plan ∧
      (∀ k, k ≠ r.kind → s'.slot k = s.slot k) ∧ s'.planning = s.planning ∧
      s'.actionTombstones = s.burial r.actionId .cancelled := by
  cases h with
  | probe a ha hl hc =>
    refine ⟨_, State.mem_actions_probe ha, hl, by simp [ActionRecord.kind], fun k hk => ?_, rfl, rfl⟩
    cases k <;> first | rfl | exact absurd rfl hk
  | application a ha hl hc =>
    refine ⟨_, State.mem_actions_application ha, hl, by simp [ActionRecord.kind], fun k hk => ?_,
      rfl, rfl⟩
    cases k <;> first | rfl | exact absurd rfl hk
  | preparation a ha hl hc =>
    refine ⟨_, State.mem_actions_preparation ha, hl, by simp [ActionRecord.kind], fun k hk => ?_,
      rfl, rfl⟩
    cases k <;> first | rfl | exact absurd rfl hk
  | finalization a ha hl hc =>
    refine ⟨_, State.mem_actions_finalization ha, hl, by simp [ActionRecord.kind], fun k hk => ?_,
      rfl, rfl⟩
    cases k <;> first | rfl | exact absurd rfl hk

/-- A sample of the same topology buries what it cancels or concludes, and the plan it drops. -/
theorem Recorded.interred (h : Recorded s o) (hv : o.valid = true)
    (ht : s.physicalToken = some o.physicalToken) (hf : Frees s prior o s' es)
    (hc : Classifies s' o d) : Interred s d.state.actionIds d.state.actionTombstones := by
  have hfree : Free s' o := h.free hv hf
  have hburies := hfree.buries hc
  -- Every other display worker has ended.
  have ended {r : ActionRecord} (hr : r ∈ s'.actions) (hk : r.kind ≠ .plan) :
      r.lifecycle.terminal = true := by
    obtain ⟨w, hw, -, hwl⟩ := State.mutator_of_mem hr hk
    exact hwl ▸ hfree.idle w hw
  cases hf with
  | entered hne hr => exact absurd ht hne
  | idle _ hb =>
    obtain ⟨phase, aggressive, index, -, heq⟩ := leaveSlowWait_eq s prior o
    rw [heq] at hburies ended
    rcases hburies with ⟨htombs, hplan⟩ | ⟨p, hp, hlive, hgone, t, htidy, htt, halone, htombs⟩
    · refine .nothing htombs fun r hr hg => ?_
      by_contra hl
      by_cases hk : r.kind = .plan
      · cases r with
        | planning p =>
          have hlive : p.lifecycle.terminal = false := Bool.eq_false_iff.mpr hl
          exact hg (hplan p (State.planning_of_mem hr) hlive)
        | _ => cases hk
      · exact hl (ended hr hk)
    · have hbeside := h.beside_plan hp hlive
      cases happ : s.application with
      | none =>
        rw [happ] at hbeside
        have hburial : ∀ a l, t.burial a l = s.burial a l :=
          State.burial_congr htt (by rw [halone, hbeside]; rfl)
        refine .one (.planning p) .cancelled (State.mem_actions_planning hp) hlive rfl
          (htombs.trans (hburial _ _)) (fun _ _ => rfl) fun r hr _ => .inr ?_
        rw [hbeside] at hr
        exact List.mem_singleton.mp hr
      | some a =>
        rw [happ] at hbeside
        have hended := ended (State.mem_actions_application happ) (by simp [ActionRecord.kind])
        refine .beside a p t happ hp hlive hgone htidy htombs (.inl ⟨hended, htt⟩) fun r hr => ?_
        rw [hbeside] at hr
        simpa using hr
  | cancelled _ hcancel =>
    obtain ⟨r₀, hmem, hadmitted, hk₀, hslots, hplan, htt₀⟩ := hcancel.retires
    have hlive₀ : r₀.lifecycle.terminal = false := by rw [hadmitted]; rfl
    -- The other actions are still there when the sample is classified.
    have stays {r : ActionRecord} (hr : r ∈ s.actions) (hne : r ≠ r₀) : r ∈ s'.actions := by
      have hslot := State.slot_of_mem_actions hr
      rw [← hslots r.kind fun hk => hne (State.eq_of_kind hmem hr hk)] at hslot
      exact State.mem_actions_of_slot hslot
    rcases hburies with ⟨htombs, hkept⟩ | ⟨p, hp, hlive, hgone, t, htidy, htt, halone, htombs⟩
    · refine .one r₀ .cancelled hmem hlive₀ rfl (htombs.trans htt₀) (fun _ _ => rfl)
        fun r hr hg => ?_
      by_cases hne : r = r₀
      · exact .inr hne
      · left
        by_contra hl
        by_cases hk : r.kind = .plan
        · cases r with
          | planning p =>
            have hlive : p.lifecycle.terminal = false := Bool.eq_false_iff.mpr hl
            exact hg (hkept p (State.planning_of_mem (stays hr hne)) hlive)
          | _ => cases hk
        · exact hl (ended (stays hr hne) hk)
    · rw [hplan] at hp
      have hbeside := h.beside_plan hp hlive
      have hactions {r : ActionRecord} (hr : r ∈ s.actions) :
          (∃ a, s.application = some a ∧ r = .application a) ∨ r = .planning p := by
        rw [hbeside] at hr
        cases happ : s.application with
        | none => simpa [happ] using hr
        | some a => simpa [happ] using hr
      rcases hactions hmem with ⟨a, happ, rfl⟩ | rfl
      · refine .beside a p t happ hp hlive hgone htidy htombs
          (.inr ⟨hadmitted, htt.trans htt₀⟩) fun r hr => ?_
        apply (hactions hr).imp_left
        rintro ⟨b, hb, hrb⟩
        rw [hrb, Option.some.inj (hb.symm.trans happ)]
      · exact absurd rfl hk₀
  | concluded a b _ ha hl he hb hbl =>
    have hlive : a.lifecycle.terminal = false := by rw [hl]; rfl
    have hmem := State.mem_actions_preparation ha
    have hended : ∀ p ∈ s.planning, p.lifecycle.terminal = true := h.plan_ended ha
    rcases hburies with ⟨htombs, -⟩ | ⟨p, hp, hrunning, -⟩
    · refine .one (.preparation a) .completed hmem hlive rfl htombs
        (fun hadmitted => absurd (hadmitted.symm.trans hl) (by decide)) fun r hr hg => ?_
      by_cases hne : r = .preparation a
      · exact .inr hne
      · left
        by_cases hk : r.kind = .plan
        · cases r with
          | planning p => exact hended p (State.planning_of_mem hr)
          | _ => cases hk
        · refine ended (State.mem_actions_of_slot (r := r) ?_) hk
          rw [← State.slot_of_mem_actions hr]
          cases r with
          | preparation c =>
            exact absurd (congrArg _ (Option.mem_unique (State.preparation_of_mem hr) ha)) hne
          | _ => rfl
    · rw [hended p hp] at hrunning
      cases hrunning

end Classified

end MonitorController
