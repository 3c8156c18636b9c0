import MonitorController.Safety.Components
import MonitorController.Transition.Selection
import MonitorController.Transition.Workers

/-! # What a step keeps in the slots

Outside classification a slot holds the action it held before, further along
its lifecycle, or nothing. Only a classified sample fills a slot.
-/

namespace MonitorController

/-- The same admission, with other worker fields or another progress of its plan. What is no
longer pending does not return to it. -/
inductive Carries : ActionRecord → ActionRecord → Prop
  | probe (a w h) (hw : w.actionId = a.actionId)
    (hl : w.lifecycle = .admitted → a.lifecycle = .admitted) :
    Carries (.probe a) (.probe { a with toWorkerAction := w, kind_probe := h })
  | application (a w h) (hw : w.actionId = a.actionId)
    (hl : w.lifecycle = .admitted → a.lifecycle = .admitted) :
    Carries (.application a) (.application { a with toWorkerAction := w, kind_application := h })
  | planning (a l p x) (hl : l = .admitted → a.lifecycle = .admitted) :
    Carries (.planning a) (.planning { a with lifecycle := l, planHash := p, exitStatus := x })
  | preparation (a w h) (hw : w.actionId = a.actionId)
    (hl : w.lifecycle = .admitted → a.lifecycle = .admitted) :
    Carries (.preparation a) (.preparation { a with toWorkerAction := w, kind_preparation := h })
  | finalization (a w h) (hw : w.actionId = a.actionId)
    (hl : w.lifecycle = .admitted → a.lifecycle = .admitted) :
    Carries (.finalization a)
      (.finalization { a with toWorkerAction := w, kind_finalization := h })

def ActionRecord.transitionId? : ActionRecord → Option TransitionId
  | .planning a => some a.transitionId
  | .preparation a => some a.transitionId
  | .finalization a => some a.transitionId
  | _ => none

namespace Carries

variable {r r' r'' : ActionRecord}

theorem refl (r : ActionRecord) : Carries r r := by
  cases r with
  | probe a => exact .probe a a.toWorkerAction a.kind_probe rfl id
  | application a => exact .application a a.toWorkerAction a.kind_application rfl id
  | planning a => exact .planning a a.lifecycle a.planHash a.exitStatus id
  | preparation a => exact .preparation a a.toWorkerAction a.kind_preparation rfl id
  | finalization a => exact .finalization a a.toWorkerAction a.kind_finalization rfl id

theorem trans (h : Carries r r') (h' : Carries r' r'') : Carries r r'' := by
  cases h with
  | probe a w hk hw hl =>
    cases h' with | probe _ v hk' hv hl' => exact .probe a v hk' (hv.trans hw) (hl ∘ hl')
  | application a w hk hw hl =>
    cases h' with
    | application _ v hk' hv hl' =>
      exact .application a v hk' (hv.trans hw) (hl ∘ hl')
  | planning a l p x hl =>
    cases h' with | planning _ l' p' x' hl' => exact .planning a l' p' x' (hl ∘ hl')
  | preparation a w hk hw hl =>
    cases h' with
    | preparation _ v hk' hv hl' =>
      exact .preparation a v hk' (hv.trans hw) (hl ∘ hl')
  | finalization a w hk hw hl =>
    cases h' with
    | finalization _ v hk' hv hl' => exact .finalization a v hk' (hv.trans hw) (hl ∘ hl')

theorem actionId (h : Carries r r') : r'.actionId = r.actionId := by
  cases h with
  | planning a l p x hl => rfl
  | probe a w hk hw hl => exact hw
  | application a w hk hw hl => exact hw
  | preparation a w hk hw hl => exact hw
  | finalization a w hk hw hl => exact hw

theorem kind (h : Carries r r') : r'.kind = r.kind := by
  cases h <;> rfl

theorem transitionId? (h : Carries r r') : r'.transitionId? = r.transitionId? := by
  cases h <;> rfl

theorem admitted (h : Carries r r') (hl : r'.lifecycle = .admitted) : r.lifecycle = .admitted := by
  cases h with
  | planning a l p x hp => exact hp hl
  | probe a w hk hw hp => exact hp hl
  | application a w hk hw hp => exact hp hl
  | preparation a w hk hw hp => exact hp hl
  | finalization a w hk hw hp => exact hp hl

end Carries

theorem Continues.carries {r r' : ActionRecord} (h : Continues r r')
    (hl : r'.lifecycle ≠ .admitted) : Carries r r' := by
  cases h with
  | planning a l x => exact .planning a l a.planHash x (absurd · hl)
  | probe a w hk hw => exact .probe a w hk hw.actionId (absurd · hl)
  | application a w hk hw => exact .application a w hk hw.actionId (absurd · hl)
  | preparation a w hk hw => exact .preparation a w hk hw.actionId (absurd · hl)
  | finalization a w hk hw => exact .finalization a w hk hw.actionId (absurd · hl)

/-- What becomes of a slot into which nothing is admitted. -/
inductive Slot {α : Type} (record : α → ActionRecord) : Option α → Option α → Prop
  | kept (x) : Slot record x x
  | emptied (x) : Slot record x none
  | carried {a b} (h : Carries (record a) (record b)) : Slot record (some a) (some b)

namespace Slot

variable {α : Type} {record : α → ActionRecord} {x y z : Option α}

theorem of_carries {a b : α} (hx : x = some a) (h : Carries (record a) (record b)) :
    Slot record x (some b) := hx ▸ .carried h

theorem of_mem (h : Slot record x y) {b : α} (hb : b ∈ y) :
    ∃ a ∈ x, Carries (record a) (record b) := by
  cases h with
  | kept => exact ⟨b, hb, .refl _⟩
  | emptied => cases hb
  | carried h => exact ⟨_, rfl, Option.some.inj hb ▸ h⟩

theorem trans (h : Slot record x y) (h' : Slot record y z) : Slot record x z := by
  cases h' with
  | kept => exact h
  | emptied => exact .emptied x
  | carried h' =>
    obtain ⟨a, ha, hab⟩ := h.of_mem rfl
    exact .of_carries ha (hab.trans h')

end Slot

/-- Nothing is admitted: each slot carries its action on or is emptied. -/
structure Kept (s s' : State) : Prop where
  actionMark : s'.actionSequenceHighWater = s.actionSequenceHighWater := by rfl
  transitionMark : s'.transitionSequenceHighWater = s.transitionSequenceHighWater := by rfl
  probe : Slot .probe s.probe s'.probe := by
    first | exact .kept _ | exact .emptied _
  application : Slot .application s.application s'.application := by
    first | exact .kept _ | exact .emptied _
  planning : Slot .planning s.planning s'.planning := by
    first | exact .kept _ | exact .emptied _
  preparation : Slot .preparation s.preparation s'.preparation := by
    first | exact .kept _ | exact .emptied _
  finalization : Slot .finalization s.finalization s'.finalization := by
    first | exact .kept _ | exact .emptied _

namespace Kept

variable {s t s' : State}

theorem refl (s : State) : Kept s s :=
  ⟨rfl, rfl, .kept _, .kept _, .kept _, .kept _, .kept _⟩

theorem trans (h : Kept s t) (h' : Kept t s') : Kept s s' where
  actionMark := h'.actionMark.trans h.actionMark
  transitionMark := h'.transitionMark.trans h.transitionMark
  probe := h.probe.trans h'.probe
  application := h.application.trans h'.application
  planning := h.planning.trans h'.planning
  preparation := h.preparation.trans h'.preparation
  finalization := h.finalization.trans h'.finalization

theorem mem (h : Kept s s') {r' : ActionRecord} (hr : r' ∈ s'.actions) :
    ∃ r ∈ s.actions, Carries r r' := by
  rw [State.mem_actions] at hr
  rcases hr with ⟨a, ha, rfl⟩ | ⟨a, ha, rfl⟩ | ⟨a, ha, rfl⟩ | ⟨a, ha, rfl⟩ | ⟨a, ha, rfl⟩
  · obtain ⟨b, hb, hba⟩ := h.probe.of_mem ha
    exact ⟨.probe b, State.mem_actions_probe hb, hba⟩
  · obtain ⟨b, hb, hba⟩ := h.application.of_mem ha
    exact ⟨.application b, State.mem_actions_application hb, hba⟩
  · obtain ⟨b, hb, hba⟩ := h.planning.of_mem ha
    exact ⟨.planning b, State.mem_actions_planning hb, hba⟩
  · obtain ⟨b, hb, hba⟩ := h.preparation.of_mem ha
    exact ⟨.preparation b, State.mem_actions_preparation hb, hba⟩
  · obtain ⟨b, hb, hba⟩ := h.finalization.of_mem ha
    exact ⟨.finalization b, State.mem_actions_finalization hb, hba⟩

end Kept

/-- The external intent is retained, and no candidate and no unplug proof is new. -/
structure Bars (s s' : State) : Prop where
  externalIntent : s.externalIntent = true → s'.externalIntent = true := by exact id
  unplugProof : s'.unplugProof = s.unplugProof ∨ s'.unplugProof = none := by
    first | exact .inl rfl | exact .inr rfl
  candidate : s'.candidate = s.candidate ∨ s'.candidate = none := by
    first | exact .inl rfl | exact .inr rfl

theorem Bars.refl (s : State) : Bars s s := ⟨id, .inl rfl, .inl rfl⟩

theorem Bars.trans {s t s' : State} (h : Bars s t) (h' : Bars t s') : Bars s s' where
  externalIntent := h'.externalIntent ∘ h.externalIntent
  unplugProof := h'.unplugProof.elim (fun heq => h.unplugProof.imp heq.trans heq.trans) .inr
  candidate := h'.candidate.elim (fun heq => h.candidate.imp heq.trans heq.trans) .inr

/-- Nothing is admitted, in the same topology and with the same attempts at probes. -/
structure Stays (s s' : State) : Prop extends Kept s s', Bars s s' where
  bootId : s'.bootId = s.bootId := by rfl
  physicalEpoch : s'.physicalEpoch = s.physicalEpoch := by rfl
  physicalToken : s'.physicalToken = s.physicalToken := by rfl
  attemptedProbeKeys : s'.attemptedProbeKeys = s.attemptedProbeKeys := by rfl

namespace Stays

variable {s t s' : State}

theorem refl (s : State) : Stays s s := { Kept.refl s, Bars.refl s with }

theorem trans (h : Stays s t) (h' : Stays t s') : Stays s s' where
  toKept := h.toKept.trans h'.toKept
  toBars := h.toBars.trans h'.toBars
  bootId := h'.bootId.trans h.bootId
  physicalEpoch := h'.physicalEpoch.trans h.physicalEpoch
  physicalToken := h'.physicalToken.trans h.physicalToken
  attemptedProbeKeys := h'.attemptedProbeKeys.trans h.attemptedProbeKeys

theorem timed (h : Stays s s') (t : Nat) : Stays s (s'.timed t) := { h with }

end Stays

section Samples

variable {s s' : State} {o : CanonicalObservation} {r : ActionRecord} {es : List Effect}

theorem stays_retire (s : State) (r : ActionRecord) (l : ActionLifecycle) :
    Stays s (s.retire r l) := by
  cases r with
  | probe a => exact { Stays.refl s with probe := .emptied _ }
  | application a => exact { Stays.refl s with application := .emptied _ }
  | planning a => exact { Stays.refl s with planning := .emptied _ }
  | preparation a => exact { Stays.refl s with preparation := .emptied _ }
  | finalization a => exact { Stays.refl s with finalization := .emptied _ }

theorem Withdraws.stays (h : Withdraws s r s' es) : Stays s s' := by
  cases h with
  | preparation a ha =>
    exact { stays_retire s (.preparation a) .cancelled with planning := .emptied _ }
  | finalization a ha => exact stays_retire s _ _

theorem Revokes.stays (h : Revokes s r s' es) : Stays s s' := by
  cases h with
  | desktop h => exact h.stays
  | probe a ha => exact stays_retire s _ _
  | application a ha => exact stays_retire s _ _

theorem Cancels.stays (h : Cancels s o s') : Stays s s' := by
  cases h with
  | probe a ha hl hc => exact stays_retire s _ _
  | application a ha hl hc => exact stays_retire s _ _
  | preparation a ha hl hc => exact { stays_retire s (.preparation a) .cancelled with }
  | finalization a ha hl hc => exact { stays_retire s (.finalization a) .cancelled with }

theorem stays_leaveSlowWait (s : State) (prior : Option CanonicalObservation) :
    Stays s (leaveSlowWait s prior o) := by
  unfold leaveSlowWait
  split <;> exact { Stays.refl s with }

theorem Frees.kept {prior : Option CanonicalObservation} (h : Frees s prior o s' es) :
    Kept s s' := by
  cases h with
  | entered ht hr => exact {}
  | idle ht hb => exact (stays_leaveSlowWait s prior).toKept
  | cancelled ht hc => exact hc.stays.toKept
  | concluded a b ht ha hl he hb hbl =>
    exact { Kept.refl s with preparation := .of_carries ha (hb.carries (hbl.trans_ne (by decide))) }

theorem Frees.token {prior : Option CanonicalObservation} (h : Frees s prior o s' es) :
    s'.physicalToken = some o.physicalToken := by
  cases h with
  | entered ht hr => rfl
  | idle ht hb => exact (stays_leaveSlowWait s prior).physicalToken.trans ht
  | cancelled ht hc => exact hc.stays.physicalToken.trans ht
  | concluded a b ht ha hl he hb hbl => exact ht

/-- The sample is classified, on the state which it frees. -/
inductive Reaches (s : State) (prior : Option CanonicalObservation) (o : CanonicalObservation) :
    Decision → Prop
  | intro (s' es d) (hf : Frees s prior o s' es) (hc : Classifies s' o d) :
    Reaches s prior o ⟨d.state, es ++ d.effects⟩

theorem Stops.stays (h : Stops s r s') : Stays s s' := by
  cases h with
  | probe a ha hl =>
    exact { Stays.refl s with probe := .of_carries ha (.probe a a.stop a.kind_probe rfl nofun) }
  | application a ha hl =>
    exact
      { Stays.refl s with
        application := .of_carries ha (.application a a.stop a.kind_application rfl nofun) }
  | preparation a ha hl =>
    exact
      { Stays.refl s with
        preparation := .of_carries ha (.preparation a a.stop a.kind_preparation rfl nofun) }
  | finalization a ha hl =>
    exact
      { Stays.refl s with
        finalization := .of_carries ha (.finalization a a.stop a.kind_finalization rfl nofun) }

theorem Refuses.stays (h : Refuses s s') : Stays s s' := by
  cases h with
  | finalization a b v ha hl hb hbl hv =>
    exact
      { Stays.refl s with
        finalization := .of_carries ha (hb.carries (hbl.trans_ne (by decide))) }
  | preparation a b ha hl hb hbl =>
    exact
      { Stays.refl s with
        preparation := .of_carries ha (hb.carries (hbl.trans_ne (by decide))) }

theorem Confirms.stays {eff : Effect} (h : Confirms s o s' eff) : Stays s s' := by
  cases h with
  | probe a ha hl hc =>
    exact
      { Stays.refl s with
        probe := .of_carries ha (.probe a (a.refresh o.eventGeneration) a.kind_probe rfl id) }
  | application a ha hl hc =>
    exact
      { Stays.refl s with
        application := .of_carries ha
          (.application a (a.refresh o.eventGeneration) a.kind_application rfl id) }
  | preparation a ha hl hc =>
    exact
      { Stays.refl s with
        preparation := .of_carries ha
          (.preparation a (a.refresh o.eventGeneration) a.kind_preparation rfl id) }
  | finalization a ha hl hc =>
    exact
      { Stays.refl s with
        finalization := .of_carries ha
          (.finalization a (a.refresh o.eventGeneration) a.kind_finalization rfl id) }

theorem Unplugs.kept {complete : Bool} (h : Unplugs s o s' complete) : Kept s s' := by
  cases h <;> exact { Kept.refl s with }

theorem Settles.kept (h : Settles s o s') : Kept s s' := by
  cases h with
  | external he => exact { Kept.refl s with }
  | unplugged he hu => exact hu.kept

theorem kept_retainFailure (s : State) (o : CanonicalObservation) :
    Kept s (retainFailure s o).1 := by
  rcases retainFailure_cases s o with hr | hr | ⟨-, hr⟩ | ⟨-, hr⟩ | ⟨-, hr⟩ <;> rw [hr]
  · exact .refl s
  · exact .refl s
  · exact {}
  · exact {}
  · exact {}

theorem kept_releaseFailures (s : State) : Kept s (releaseFailures s) := by
  refine { Kept.refl s with probe := ?_, application := ?_, finalization := ?_ }
  all_goals
    dsimp only [releaseFailures]
    split
    · exact .emptied _
    · exact .kept _

/-- Nothing is admitted, or a selection is made on a state in which nothing was. -/
inductive Chooses (s : State) (o : CanonicalObservation) (d : Decision) : Prop
  | kept (hk : Kept s d.state)
  | selects (s₁ s₂) (hs : Settles s o s₁) (hr : retainFailure s₁ o = (s₂, false)) (hk : Kept s s₂)
    (hd : Selects s₂ o d)

theorem Classifies.chooses {d : Decision} (h : Classifies s o d) : Chooses s o d := by
  cases h with
  | unplugging s' he hu =>
    exact .kept { hu.kept.trans (kept_releaseFailures s') with }
  | retained s' hs hr => exact .kept { hs.kept with }
  | selected s' s'' hs hr hd =>
    have hretain := kept_retainFailure s' o
    rw [hr] at hretain
    exact .selects s' s'' hs hr (hs.kept.trans hretain) hd

theorem bars_strip (s : State) (p : Prop) [Decidable p] :
    (if p then none else s.candidate) = s.candidate ∨ (if p then none else s.candidate) = none := by
  split
  · exact .inr rfl
  · exact .inl rfl

theorem stays_recordObservation (s : State) (o : CanonicalObservation) :
    Stays s (recordObservation s o) :=
  { candidate := bars_strip s _ }

theorem stays_revokeProofs (s : State) (o : CanonicalObservation) : Stays s (revokeProofs s o) where
  externalIntent h := by simp [revokeProofs, h]
  candidate := bars_strip s _

theorem Observed.stays_or_classified {prior : Option CanonicalObservation} {d : Decision}
    (h : Observed s prior o d) :
    Stays s d.state ∨ o.valid = true ∧ Reaches s prior o d := by
  cases h with
  | revoked r s' es t hv hl hr ht =>
    exact .inl (((stays_revokeProofs s o).trans hr.stays).timed t)
  | invalid phase t hv hn hp ht => exact .inl { stays_revokeProofs s o with }
  | invalidInternal a t hv ha hi ht =>
    have hrevoked := stays_revokeProofs s o
    exact .inl
      { hrevoked with
        application := .of_carries ha (.application a a.stop a.kind_application rfl nofun) }
  | internal a t hv ha hi ht =>
    exact .inl
      { application := .of_carries ha (.application a a.stop a.kind_application rfl nofun) }
  | stopping w t hv hw hl ht => exact .inl {}
  | stopped r s' t hv hs hi hc ht => exact .inl (hs.stays.timed t)
  | refused s' t hv hs ht hc => exact .inl (hs.stays.timed t)
  | running t hv ht hr hd => exact .inl {}
  | completed a hv ha hl he => exact .inl {}
  | uncertain a t hv ht ha hl he hd => exact .inl {}
  | preparing a t hv ht ha hl he hd => exact .inl {}
  | confirmed s' eff hv ht hc => exact .inl (hc.stays.timed _)
  | classified s' es d hv hf hc => exact .inr ⟨hv, .intro s' es d hf hc⟩

end Samples

/-- The sample of the event is classified, on the state which records it. -/
def Classified (s : State) (e : Event) (d : Decision) : Prop :=
  ∃ f, e = .observationCompleted f ∧ f.metadata.bootId = s.bootId ∧
    ¬ staleObservation s f.observation ∧ f.observation.valid = true ∧
    Reaches (recordObservation s f.observation) s.latestObservation f.observation d

/-- The pending probe is launched, and its attempt is remembered. -/
inductive Probes (s : State) : Event → Decision → Prop
  | intro (f a b) {d} (ha : s.probe = some a) (hl : a.lifecycle = .admitted)
    (hb : d.state.probe = some b) (hbl : b.lifecycle = .dispatched)
    (hk : d.state.attemptedProbeKeys = insert a.key s.attemptedProbeKeys)
    (hepoch : d.state.physicalEpoch = s.physicalEpoch)
    (htoken : d.state.physicalToken = s.physicalToken) (hboot : d.state.bootId = s.bootId)
    (hbars : Bars s d.state) : Probes s (.probeDispatched f) d

section Steps

variable {s s' : State} {e : Event} {d : Decision}

theorem Hints.stays {es : List Effect} (h : Hints s s' es) : Stays s s' := by
  cases h with
  | withdrawn hl hw => exact hw.stays
  | reopened hq hf hp => exact { Stays.refl s with }
  | kept hp => exact .refl s

theorem stays_failSlot {r r' : ActionRecord} (hr : r ∈ s.actions) (hc : Continues r r')
    (hf : r'.lifecycle.failedLifecycle = true) (l : ActionLifecycle) :
    Stays s (failSlot (s.bury r.actionId l) r') := by
  have hcarries := hc.carries fun hl => by simp [hl, ActionLifecycle.failedLifecycle] at hf
  cases hc with
  | planning a l' x =>
    exact { Stays.refl s with planning := .of_carries (State.planning_of_mem hr) hcarries }
  | probe a w hk hw =>
    exact { Stays.refl s with probe := .of_carries (State.probe_of_mem hr) hcarries }
  | application a w hk hw =>
    exact { Stays.refl s with application := .of_carries (State.application_of_mem hr) hcarries }
  | preparation a w hk hw =>
    exact { Stays.refl s with preparation := .of_carries (State.preparation_of_mem hr) hcarries }
  | finalization a w hk hw =>
    exact { Stays.refl s with finalization := .of_carries (State.finalization_of_mem hr) hcarries }

theorem stays_stopSlot {r : ActionRecord} (hr : r ∈ s.actions) (v : UncertainVerdict) :
    Stays s (stopSlot s v r) := by
  cases r with
  | planning a => exact .refl s
  | probe a =>
    exact
      { Stays.refl s with
        probe := .of_carries (State.probe_of_mem hr)
          (.probe a (a.stopUncertain v.lifecycle v.post_stop) a.kind_probe rfl nofun) }
  | application a =>
    exact
      { Stays.refl s with
        application := .of_carries (State.application_of_mem hr)
          (.application a (a.stopUncertain v.lifecycle v.post_stop) a.kind_application rfl nofun) }
  | preparation a =>
    exact
      { Stays.refl s with
        preparation := .of_carries (State.preparation_of_mem hr)
          (.preparation a (a.stopUncertain v.lifecycle v.post_stop) a.kind_preparation rfl nofun) }
  | finalization a =>
    exact
      { Stays.refl s with
        finalization := .of_carries (State.finalization_of_mem hr)
          (.finalization a (a.stopUncertain v.lifecycle v.post_stop) a.kind_finalization rfl nofun) }

/-- Only a classified sample admits anything, and only a new boot forgets the topology. -/
theorem Step.cases_on (h : Step s e d) :
    Kept s d.state ∧ (Stays s d.state ∨ Probes s e d ∨ ∃ b, e = .bootChanged b ∧
      b.previousBootId = s.bootId ∧ d.state = rebooted s b) ∨ Classified s e d := by
  have stays (h : Stays s d.state) : Kept s d.state ∧ (Stays s d.state ∨ Probes s e d ∨
      ∃ b, e = .bootChanged b ∧ b.previousBootId = s.bootId ∧ d.state = rebooted s b) ∨
        Classified s e d :=
    .inl ⟨h.toKept, .inl h⟩
  cases h with
  | ignored e hi => exact stays (.refl s)
  | observed e hb hf ho =>
    rcases ho.stays_or_classified with hk | hc
    · exact stays ((stays_recordObservation s e.observation).trans hk)
    · exact .inr ⟨e, rfl, hb, hf, hc⟩
  | observationFailed e t ht => exact stays { Stays.refl s with }
  | timerFired e t ht => exact stays { Stays.refl s with }
  | hinted e s' es t hb hg ht hh =>
    have hs : Stays s (supersedeProofs s e.eventGeneration e.metadata.processedAtMs) := {}
    exact stays ((hs.trans hh.stays).timed t)
  | dirtied e r s' es t hb hr he hl hg ht hw =>
    have hs : Stays s (supersedeProofs s e.eventGeneration t) := {}
    rcases hw with hw | ⟨-, rfl, -⟩
    · exact stays ((hs.trans hw.stays).timed t)
    · exact stays (hs.timed t)
  | probeDispatched e a w ha hl hi hd =>
    refine .inl ⟨?_, .inr (.inl (.intro e a _ ha hl rfl (congrArg (·.lifecycle) hd) rfl rfl rfl rfl
      {}))⟩
    exact
      { Kept.refl s with
        probe := .of_carries ha (.probe a w _ (by rw [hd]; rfl) (by rw [hd]; nofun)) }
  | applicationDispatched e a w ha hl hi hd =>
    exact stays
      { Stays.refl s with
        application := .of_carries ha
          (.application a w _ (by rw [hd]; rfl) (by rw [hd]; nofun)) }
  | preparationDispatched e a w ha hl hi hd =>
    exact stays
      { Stays.refl s with
        preparation := .of_carries ha
          (.preparation a w _ (by rw [hd]; rfl) (by rw [hd]; nofun)) }
  | finalizationDispatched e a w ha hl hi hd =>
    exact stays
      { Stays.refl s with
        finalization := .of_carries ha
          (.finalization a w _ (by rw [hd]; rfl) (by rw [hd]; nofun)) }
  | planRequested e p hp hs hi hk =>
    exact stays
      { Stays.refl s with
        planning := .of_carries hp (.planning p _ p.planHash p.exitStatus nofun) }
  | planCompleted e p t hp hs hi hk ht =>
    exact stays
      { Stays.refl s with
        planning := .of_carries hp (.planning p _ _ p.exitStatus nofun) }
  | planRetried e p t hp hs hi hk hr ht => exact stays {}
  | stopRepeated e r t hr hl he ht => exact stays { Stays.refl s with }
  | closed e r l v es t hr hk he hl hv hes ht => exact stays { stays_retire s r l with }
  | failed e r r' phase es t hr hc hf he hp hes =>
    exact stays { stays_failSlot hr hc hf r'.lifecycle with }
  | preparationReported e a b t ha he hb hl ht =>
    exact stays
      { Stays.refl s with
        preparation := .of_carries ha (hb.carries (hl.trans_ne (by decide))) }
  | finalizationReported e a b t ha he hb hl ht =>
    exact stays
      { Stays.refl s with
        finalization := .of_carries ha (hb.carries (hl.trans_ne (by decide))) }
  | doubted e r v t hr hk hl he ht => exact stays ((stays_stopSlot hr v).timed t)
  | restarted e a s' es t ha hl hw ht =>
    have hs : Stays s { s with controllerInstance := e.controllerInstance } := { Stays.refl s with }
    exact stays { hs.trans hw.stays with }
  | retried e a t ha hp ht => exact stays {}
  | resumed e v es t hq hv hes => exact stays { Stays.refl s with }
  | booted e hb => exact .inl ⟨{}, .inr (.inr ⟨e, rfl, hb, rfl⟩)⟩

end Steps

end MonitorController
