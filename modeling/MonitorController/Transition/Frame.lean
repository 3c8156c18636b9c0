import MonitorController.Foundation.Fresh
import MonitorController.Transition.Slots

/-! # What classification leaves alone

Classification of a sample never changes the topology it is made on, and the
identities in the slots are old ones or above the old marks.
-/

namespace MonitorController

def State.actionIds (s : State) : List ActionId := s.actions.map (·.actionId)

/-- Actions and transitions are only added with fresh identities. -/
structure Grows (s s' : State) : Prop where
  actions : Fresh.Extends ActionId.sequence s.actionIds s'.actionIds s.actionSequenceHighWater
    s'.actionSequenceHighWater
  transitions : Fresh.Extends TransitionId.sequence s.transitions s'.transitions
    s.transitionSequenceHighWater s'.transitionSequenceHighWater

theorem State.mem_actionIds {s : State} {a : ActionId} : a ∈ s.actionIds ↔
    (∃ p ∈ s.probe, p.actionId = a) ∨ (∃ p ∈ s.application, p.actionId = a) ∨
      (∃ p ∈ s.planning, p.actionId = a) ∨ (∃ p ∈ s.preparation, p.actionId = a) ∨
      ∃ p ∈ s.finalization, p.actionId = a := by
  simp [actionIds, actions, ActionRecord.actionId]

theorem State.mem_transitions {s : State} {t : TransitionId} : t ∈ s.transitions ↔
    (∃ p ∈ s.planning, p.transitionId = t) ∨ (∃ p ∈ s.preparation, p.transitionId = t) ∨
      ∃ p ∈ s.finalization, p.transitionId = t := by
  simp [transitions]

theorem State.mem_transitions_iff {s : State} {t : TransitionId} : t ∈ s.transitions ↔
    ∃ r ∈ s.actions, r.transitionId? = some t := by
  rw [mem_transitions]
  constructor
  · rintro (⟨p, hp, rfl⟩ | ⟨p, hp, rfl⟩ | ⟨p, hp, rfl⟩)
    · exact ⟨_, mem_actions_planning hp, rfl⟩
    · exact ⟨_, mem_actions_preparation hp, rfl⟩
    · exact ⟨_, mem_actions_finalization hp, rfl⟩
  · rintro ⟨r, hr, ht⟩
    cases r with
    | probe a => cases ht
    | application a => cases ht
    | planning a => exact .inl ⟨a, planning_of_mem hr, Option.some.inj ht⟩
    | preparation a => exact .inr (.inl ⟨a, preparation_of_mem hr, Option.some.inj ht⟩)
    | finalization a => exact .inr (.inr ⟨a, finalization_of_mem hr, Option.some.inj ht⟩)

theorem Kept.grows {s s' : State} (h : Kept s s') : Grows s s' where
  actions := by
    refine .of_subset h.actionMark.ge fun a ha => ?_
    obtain ⟨r', hr', rfl⟩ := List.mem_map.mp ha
    obtain ⟨r, hr, hc⟩ := h.mem hr'
    exact List.mem_map.mpr ⟨r, hr, hc.actionId.symm⟩
  transitions := by
    refine .of_subset h.transitionMark.ge fun t ht => ?_
    obtain ⟨r', hr', ht'⟩ := State.mem_transitions_iff.mp ht
    obtain ⟨r, hr, hc⟩ := h.mem hr'
    exact State.mem_transitions_iff.mpr ⟨r, hr, hc.transitionId?.symm.trans ht'⟩

namespace Grows

variable {s s' : State}

theorem refl (s : State) : Grows s s := ⟨.refl _ _, .refl _ _⟩

theorem trans {t : State} (h : Grows s t) (h' : Grows t s') : Grows s s' :=
  ⟨h.actions.trans h'.actions, h.transitions.trans h'.transitions⟩

theorem of_sub (hw : s'.actionSequenceHighWater = s.actionSequenceHighWater)
    (ht : s'.transitionSequenceHighWater = s.transitionSequenceHighWater)
    (hprobe : s'.probe = s.probe ∨ s'.probe = none)
    (happ : s'.application = s.application ∨ s'.application = none)
    (hplan : s'.planning = s.planning ∨ s'.planning = none)
    (hprep : s'.preparation = s.preparation ∨ s'.preparation = none)
    (hfin : s'.finalization = s.finalization ∨ s'.finalization = none) : Grows s s' := by
  have slot {α : Type} {record : α → ActionRecord} {x y : Option α} (h : y = x ∨ y = none) :
      Slot record x y := by
    rcases h with rfl | rfl
    · exact .kept y
    · exact .emptied x
  exact Kept.grows ⟨hw, ht, slot hprobe, slot happ, slot hplan, slot hprep, slot hfin⟩

theorem same (hw : s'.actionSequenceHighWater = s.actionSequenceHighWater := by rfl)
    (ht : s'.transitionSequenceHighWater = s.transitionSequenceHighWater := by rfl)
    (hprobe : s'.probe = s.probe := by rfl) (happ : s'.application = s.application := by rfl)
    (hplan : s'.planning = s.planning := by rfl)
    (hprep : s'.preparation = s.preparation := by rfl)
    (hfin : s'.finalization = s.finalization := by rfl) : Grows s s' :=
  of_sub hw ht (.inl hprobe) (.inl happ) (.inl hplan) (.inl hprep) (.inl hfin)

theorem of_admitted {x : ActionId} (hx : x.sequence = s.actionSequenceHighWater + 1)
    (ha : ∀ a ∈ s'.actionIds, a ∈ s.actionIds ∨ x = a) (hr : s'.transitions ⊆ s.transitions)
    (hw : s'.actionSequenceHighWater = s.actionSequenceHighWater + 1 := by rfl)
    (ht : s'.transitionSequenceHighWater = s.transitionSequenceHighWater := by rfl) :
    Grows s s' := by
  refine ⟨?_, .of_subset ht.ge hr⟩
  rw [hw]
  exact .of_next hx ha

end Grows

/-- A slot is kept or emptied, or a worker above the mark is admitted into it. -/
inductive Renews {α : Type} (worker : α → WorkerAction) (mark : Nat) (x : Option α) :
    Option α → Prop
  | kept : Renews worker mark x x
  | emptied : Renews worker mark x none
  | filled (b) (hb : mark < (worker b).actionId.sequence) (hl : (worker b).lifecycle = .admitted) :
    Renews worker mark x (some b)

theorem Renews.trans {α : Type} {worker : α → WorkerAction} {lo mi : Nat} {x y z : Option α}
    (hle : lo ≤ mi) (h : Renews worker lo x y) (h' : Renews worker mi y z) :
    Renews worker lo x z := by
  cases h' with
  | kept => exact h
  | emptied => exact .emptied
  | filled b hb hl => exact .filled b (hle.trans_lt hb) hl

/-- The evidence, its topology, the last hint and the attempts at probes are the same, and only new
workers enter the slots. -/
structure Frame (s s' : State) : Prop extends Grows s s' where
  probe : Renews (·.toWorkerAction) s.actionSequenceHighWater s.probe s'.probe := by
    first | exact .kept | exact .emptied
  application : Renews (·.toWorkerAction) s.actionSequenceHighWater s.application s'.application := by
    first | exact .kept | exact .emptied
  preparation : Renews (·.toWorkerAction) s.actionSequenceHighWater s.preparation s'.preparation := by
    first | exact .kept | exact .emptied
  finalization : Renews (·.toWorkerAction) s.actionSequenceHighWater s.finalization s'.finalization := by
    first | exact .kept | exact .emptied
  bootId : s'.bootId = s.bootId := by rfl
  controllerInstance : s'.controllerInstance = s.controllerInstance := by rfl
  latest : s'.latestObservation = s.latestObservation := by rfl
  physicalEpoch : s'.physicalEpoch = s.physicalEpoch := by rfl
  physicalToken : s'.physicalToken = s.physicalToken := by rfl
  eventGeneration : s'.eventGeneration = s.eventGeneration := by rfl
  lastDrmAtMs : s'.lastDrmAtMs = s.lastDrmAtMs := by rfl
  attemptedProbeKeys : s'.attemptedProbeKeys = s.attemptedProbeKeys := by rfl
  required : s'.desktopFinalizationRequired = s.desktopFinalizationRequired := by rfl

theorem Frame.refl (s : State) : Frame s s where
  toGrows := .refl s
  probe := .kept
  application := .kept
  preparation := .kept
  finalization := .kept
  bootId := rfl
  controllerInstance := rfl
  latest := rfl
  physicalEpoch := rfl
  physicalToken := rfl
  eventGeneration := rfl
  lastDrmAtMs := rfl
  attemptedProbeKeys := rfl
  required := rfl

theorem Frame.trans {s t s' : State} (h : Frame s t) (h' : Frame t s') : Frame s s' where
  toGrows := h.toGrows.trans h'.toGrows
  probe := .trans h.actions.le h.probe h'.probe
  application := .trans h.actions.le h.application h'.application
  preparation := .trans h.actions.le h.preparation h'.preparation
  finalization := .trans h.actions.le h.finalization h'.finalization
  bootId := h'.bootId.trans h.bootId
  controllerInstance := h'.controllerInstance.trans h.controllerInstance
  latest := h'.latest.trans h.latest
  physicalEpoch := h'.physicalEpoch.trans h.physicalEpoch
  physicalToken := h'.physicalToken.trans h.physicalToken
  eventGeneration := h'.eventGeneration.trans h.eventGeneration
  lastDrmAtMs := h'.lastDrmAtMs.trans h.lastDrmAtMs
  attemptedProbeKeys := h'.attemptedProbeKeys.trans h.attemptedProbeKeys
  required := h'.required.trans h.required

section Classification

variable {s s' : State} {o : CanonicalObservation} {target : ProfileMatch} {d : Decision}

theorem frame_rearm (s : State) (profile : Text) : Frame s (rearmAchievedApplication s profile) := by
  obtain ⟨keys, -, profiles, heq⟩ := rearmAchievedApplication_eq s profile
  rw [heq]
  exact { Frame.refl s with toGrows := .same rfl rfl rfl rfl rfl rfl rfl }

theorem Waits.frame {nowMs : Nat} (h : Waits s nowMs d) : Frame s d.state := by
  cases h with
  | wait phase aggressive index t hp hd hs => exact { Frame.refl s with toGrows := .same rfl rfl rfl rfl rfl rfl rfl }

theorem Verifies.frame {es : List Effect} (h : Verifies s o target s' es) : Frame s s' := by
  cases h with
  | kept hs hi => exact .refl _
  | replanned hs hi =>
    exact { toGrows := .of_sub rfl rfl (.inl rfl) (.inl rfl) (.inr rfl) (.inr rfl) (.inl rfl) }
  | restarted hs =>
    exact { toGrows := .of_sub rfl rfl (.inl rfl) (.inl rfl) (.inr rfl) (.inr rfl) (.inl rfl) }

theorem Plans.frame {es : List Effect} (h : Plans s o target s' es) : Frame s s' := by
  cases h with
  | admitted hf hb hp =>
    refine { toGrows := ⟨.of_next (x := s.nextActionId .plan) rfl ?_,
      .of_next (x := s.nextTransitionId) rfl ?_⟩ }
    · intro a ha
      simp only [State.mem_actionIds, admitPlan, allocateAction, allocateTransition, planFor,
        Option.mem_def, Option.some.injEq, exists_eq_left'] at ha ⊢
      grind
    · intro t ht
      simp only [State.mem_transitions, admitPlan, allocateAction, allocateTransition, planFor,
        Option.mem_def, Option.some.injEq, exists_eq_left'] at ht ⊢
      grind
  | kept => exact .refl _

theorem Advances.frame {es : List Effect} (h : Advances s o es d) : Frame s d.state := by
  cases h with
  | finalized since candidate hv hc hp hf =>
    exact { toGrows := .of_sub rfl rfl (.inl rfl) (.inl rfl) (.inr rfl) (.inr rfl) (.inl rfl) }
  | adopted since candidate hv hc hp hb => exact { Frame.refl s with toGrows := .same rfl rfl rfl rfl rfl rfl rfl }
  | finalizes since candidate preparation hv hc hp hf hb hq hqs hn =>
    refine
      { Frame.refl s with
        toGrows := .of_admitted (x := s.nextActionId .finalization) rfl ?_ ?_ rfl rfl
        finalization := .filled _ (Nat.lt_succ_self _) rfl }
    · intro a ha
      simp only [State.mem_actionIds, allocateAction, finalizationFor, Option.mem_def,
        Option.some.injEq, exists_eq_left'] at ha ⊢
      grind
    · intro t ht
      simp only [State.mem_transitions, allocateAction, finalizationFor, hq, Option.mem_def,
        Option.some.injEq, exists_eq_left'] at ht ⊢
      grind
  | prepares since candidate planning planHash hv hc hp hf hb hl hls hh hqs =>
    refine
      { Frame.refl s with
        toGrows := .of_admitted (x := s.nextActionId .preparation) rfl ?_ ?_ rfl rfl
        preparation := .filled _ (Nat.lt_succ_self _) rfl }
    · intro a ha
      simp only [State.mem_actionIds, State.timed, allocateAction, preparationFor, Option.mem_def,
        Option.some.injEq, exists_eq_left'] at ha ⊢
      grind
    · intro t ht
      simp only [State.mem_transitions, State.timed, allocateAction, preparationFor, hl,
        Option.mem_def, Option.some.injEq, exists_eq_left'] at ht ⊢
      grind
  | settled since candidate t hv hc ht => exact { Frame.refl s with toGrows := .same rfl rfl rfl rfl rfl rfl rfl }

/-- A verification leaves the display workers, the external intent and the backoff alone. -/
structure Aside (s s' : State) : Prop where
  probe : s'.probe = s.probe
  application : s'.application = s.application
  externalIntent : s'.externalIntent = s.externalIntent
  unplugProof : s'.unplugProof = s.unplugProof
  backoffIndex : s'.backoffIndex = s.backoffIndex
  aggressiveDeadlineMs : s'.aggressiveDeadlineMs = s.aggressiveDeadlineMs

theorem Aside.trans {t : State} (h : Aside s t) (h' : Aside t s') : Aside s s' where
  probe := h'.probe.trans h.probe
  application := h'.application.trans h.application
  externalIntent := h'.externalIntent.trans h.externalIntent
  unplugProof := h'.unplugProof.trans h.unplugProof
  backoffIndex := h'.backoffIndex.trans h.backoffIndex
  aggressiveDeadlineMs := h'.aggressiveDeadlineMs.trans h.aggressiveDeadlineMs

theorem aside_rearm (s : State) (profile : Text) : Aside s (rearmAchievedApplication s profile) := by
  obtain ⟨keys, -, profiles, heq⟩ := rearmAchievedApplication_eq s profile
  rw [heq]
  exact ⟨rfl, rfl, rfl, rfl, rfl, rfl⟩

theorem Verifies.aside {es : List Effect} (h : Verifies s o target s' es) : Aside s s' := by
  cases h <;> exact ⟨rfl, rfl, rfl, rfl, rfl, rfl⟩

theorem Plans.aside {es : List Effect} (h : Plans s o target s' es) : Aside s s' := by
  cases h <;> exact ⟨rfl, rfl, rfl, rfl, rfl, rfl⟩

theorem Advances.aside {es : List Effect} (h : Advances s o es d) : Aside s d.state := by
  cases h <;> exact ⟨rfl, rfl, rfl, rfl, rfl, rfl⟩

theorem aside_verification {s'' : State} {es fs : List Effect}
    (hv : Verifies (rearmAchievedApplication (clearUnknown s) target.profile) o target s' es)
    (hp : Plans { s' with phase := .verifying } o target s'' fs)
    (ha : Advances s'' o (es ++ fs) d) : Aside s d.state := by
  have hclear : Aside s (clearUnknown s) := ⟨rfl, rfl, rfl, rfl, rfl, rfl⟩
  have hphase : Aside s' { s' with phase := .verifying } :=
    ⟨rfl, rfl, rfl, rfl, rfl, rfl⟩
  exact ((hclear.trans (aside_rearm _ target.profile)).trans hv.aside).trans
    ((hphase.trans hp.aside).trans ha.aside)

theorem Selects.frame (h : Selects s o d) : Frame s d.state := by
  have hclear : Frame s (clearUnknown s) :=
    { Frame.refl s with toGrows := .same rfl rfl rfl rfl rfl rfl rfl }
  cases h with
  | deferred hz => exact { Frame.refl s with toGrows := .same rfl rfl rfl rfl rfl rfl rfl }
  | waits hw => exact hw.frame
  | waitsKnown hw => exact hclear.trans hw.frame
  | waitsSpent target ht hz hw =>
    refine Frame.trans ?_ hw.frame
    exact { Frame.refl s with toGrows := .same rfl rfl rfl rfl rfl rfl rfl }
  | probes candidate hz hc action ha hk =>
    have hid : action.actionId.sequence = s.actionSequenceHighWater + 1 := by
      rw [ha]
      rfl
    refine
      { Frame.refl s with
        toGrows := .of_admitted (x := action.actionId) hid ?_ ?_ rfl rfl
        probe := .filled action (hid ▸ Nat.lt_succ_self _) (by rw [ha])
        preparation := .emptied }
    · intro a ha
      simp only [State.mem_actionIds, allocateAction, State.dropPlan, clearUnknown, Option.mem_def,
        Option.some.injEq, exists_eq_left', reduceCtorEq, false_and, exists_false, false_or] at ha ⊢
      grind
    · intro t ht
      simp only [State.mem_transitions, allocateAction, State.dropPlan, clearUnknown,
        Option.mem_def, reduceCtorEq, false_and, exists_false, false_or] at ht ⊢
      exact .inr (.inr ht)
  | stable target ht hx hs =>
    refine (hclear.trans (frame_rearm _ target.profile)).trans ?_
    exact
      { Frame.refl (rearmAchievedApplication (clearUnknown s) target.profile) with
        toGrows := .same rfl rfl rfl rfl rfl rfl rfl }
  | verifies target s' es s'' fs ht hx hv hp ha =>
    have hphase : Frame s' { s' with phase := .verifying } :=
      { Frame.refl s' with toGrows := .same rfl rfl rfl rfl rfl rfl rfl }
    exact (((hclear.trans (frame_rearm _ target.profile)).trans hv.frame).trans
      (hphase.trans hp.frame)).trans ha.frame
  | applies target ht hz hx action ha hk =>
    have hid : action.actionId.sequence = s.actionSequenceHighWater + 1 := by
      rw [ha]
      rfl
    refine
      { Frame.refl s with
        toGrows := .of_admitted (x := action.actionId) hid ?_ (fun t ht => ht) rfl rfl
        application := .filled action (hid ▸ Nat.lt_succ_self _) (by rw [ha]) }
    intro a ha
    simp only [State.mem_actionIds, allocateAction, clearUnknown, Option.mem_def,
      Option.some.injEq, exists_eq_left'] at ha ⊢
    grind
  | unknown phase since t hp hs => exact { Frame.refl s with toGrows := .same rfl rfl rfl rfl rfl rfl rfl }

theorem Unplugs.frame {complete : Bool} (h : Unplugs s o s' complete) : Frame s s' := by
  cases h <;> exact { Frame.refl s with toGrows := .same rfl rfl rfl rfl rfl rfl rfl }

theorem Settles.frame (h : Settles s o s') : Frame s s' := by
  cases h with
  | external he => exact { Frame.refl s with toGrows := .same rfl rfl rfl rfl rfl rfl rfl }
  | unplugged he hu => exact hu.frame

theorem frame_retainFailure (s : State) (o : CanonicalObservation) :
    Frame s (retainFailure s o).1 := by
  rcases retainFailure_cases s o with hr | hr | ⟨-, hr⟩ | ⟨-, hr⟩ | ⟨-, hr⟩ <;> rw [hr]
  · exact .refl _
  · exact .refl _
  · exact { toGrows := .of_sub rfl rfl (.inr rfl) (.inl rfl) (.inl rfl) (.inl rfl) (.inl rfl) }
  · exact { toGrows := .of_sub rfl rfl (.inl rfl) (.inr rfl) (.inl rfl) (.inl rfl) (.inl rfl) }
  · exact { toGrows := .of_sub rfl rfl (.inl rfl) (.inl rfl) (.inl rfl) (.inl rfl) (.inr rfl) }

theorem frame_releaseFailures (s : State) : Frame s (releaseFailures s) := by
  have released {α : Type} (p : Prop) [Decidable p] (x : Option α) :
      (if p then none else x) = x ∨ (if p then none else x) = none := by
    split
    · exact .inr rfl
    · exact .inl rfl
  have renews {α : Type} (worker : α → WorkerAction) (p : Prop) [Decidable p] (x : Option α) :
      Renews worker s.actionSequenceHighWater x (if p then none else x) := by
    split
    · exact .emptied
    · exact .kept
  exact
    { toGrows := .of_sub rfl rfl (released _ _) (released _ _) (.inl rfl) (.inl rfl) (released _ _)
      probe := renews _ _ _
      application := renews _ _ _
      finalization := renews _ _ _ }

theorem Classifies.frame (h : Classifies s o d) : Frame s d.state := by
  cases h with
  | unplugging s' he hu =>
    refine (hu.frame.trans (frame_releaseFailures s')).trans ?_
    exact { Frame.refl (releaseFailures s') with toGrows := .same rfl rfl rfl rfl rfl rfl rfl }
  | retained s' hs hr =>
    refine hs.frame.trans ?_
    exact { Frame.refl s' with toGrows := .same rfl rfl rfl rfl rfl rfl rfl }
  | selected s' s'' hs hr hd =>
    have hretain := frame_retainFailure s' o
    rw [hr] at hretain
    exact (hs.frame.trans hretain).trans hd.frame

theorem Observed.latest {prior : Option CanonicalObservation} (h : Observed s prior o d) :
    d.state.latestObservation = s.latestObservation := by
  cases h with
  | revoked r s' es t hv hl hr ht =>
    cases hr with
    | desktop hw => cases hw <;> rfl
    | probe a ha => rfl
    | application a ha => rfl
  | stopped r s' t hv hs hi hc ht => cases hs <;> rfl
  | refused s' t hv hs ht hc => cases hs <;> rfl
  | confirmed s' eff hv ht hc => cases hc <;> rfl
  | classified s' es d hv hf hc =>
    refine hc.frame.latest.trans ?_
    cases hf with
    | idle ht hb =>
      unfold leaveSlowWait
      split <;> rfl
    | cancelled ht hc => cases hc <;> rfl
    | _ => rfl
  | _ => rfl

end Classification

end MonitorController
