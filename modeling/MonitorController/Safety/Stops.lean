import MonitorController.Safety.Freshness
import MonitorController.Safety.Topology

/-! # The way of a worker to its stop

Each step makes one of a few things of a display worker, as far as its stop is
concerned, and whatever it asks to stop is being stopped afterwards.
-/

namespace MonitorController

/-- A fresh sample of another topology. -/
def Interrupts (s : State) (e : Event) : Prop :=
  ∃ c, e = .observationCompleted c ∧ FreshSample s c ∧
    s.physicalToken ≠ some c.observation.physicalToken

/-- A stop is acknowledged with the completion of the action. -/
def Completes (s : State) (e : Event) (a : ActionId) : Prop :=
  ∃ c, e = .workerCancellationAcknowledged c ∧ c.metadata.bootId = s.bootId ∧ c.actionId = a ∧
    c.terminalLifecycle = .completed

/-- What one step makes of a worker, as far as its stop is concerned. -/
inductive Pursues (s : State) (e : Event) (d : Decision) (w v : WorkerAction) : Prop
  | same (hl : v.lifecycle = w.lifecycle) (hx : v.terminalAfterStop = w.terminalAfterStop)
  | running (hw : w.lifecycle = .admitted ∨ w.lifecycle = .dispatched)
    (hx : v.terminalAfterStop ≠ none → .stopAction w.actionId ∈ d.effects)
  | ended (hl : v.lifecycle.terminal = true)
  | reported (hw : w.lifecycle = .stopping) (hl : v.lifecycle = .resultPending)
    (he : w.actionId.kind = .finalization ∨
      w.actionId.kind = .preparation ∧ Completes s e w.actionId)
  | interrupted (hw : w.lifecycle = .resultPending) (hk : w.actionId.kind = .preparation)
    (hl : v.lifecycle = .stopping) (hx : v.terminalAfterStop = none) (he : Interrupts s e)

/-- What one step makes of a slot. -/
inductive Follows (s : State) (e : Event) (d : Decision) (x : Option WorkerAction) :
    Option WorkerAction → Prop
  | kept : Follows s e d x x
  | emptied : Follows s e d x none
  | filled (v) (hv : s.actionSequenceHighWater < v.actionId.sequence)
    (hl : v.lifecycle = .admitted) : Follows s e d x (some v)
  | pursued (w v) (hw : x = some w) (hi : v.actionId = w.actionId) (h : Pursues s e d w v) :
    Follows s e d x (some v)

/-- What one step makes of the display workers. -/
structure Tracks (s : State) (e : Event) (d : Decision) (t : State) : Prop where
  probe : Follows s e d (s.probe.map (·.toWorkerAction)) (t.probe.map (·.toWorkerAction)) := by
    first | exact .emptied | exact .kept
  application : Follows s e d (s.application.map (·.toWorkerAction))
      (t.application.map (·.toWorkerAction)) := by
    first | exact .emptied | exact .kept
  preparation : Follows s e d (s.preparation.map (·.toWorkerAction))
      (t.preparation.map (·.toWorkerAction)) := by
    first | exact .emptied | exact .kept
  finalization : Follows s e d (s.finalization.map (·.toWorkerAction))
      (t.finalization.map (·.toWorkerAction)) := by
    first | exact .emptied | exact .kept

section Steps

variable {s t : State} {e : Event} {d : Decision}

theorem Follows.of_mem {x y : Option WorkerAction} (h : Follows s e d x y) {v : WorkerAction}
    (hv : v ∈ y) :
    s.actionSequenceHighWater < v.actionId.sequence ∧ v.lifecycle = .admitted ∨
      ∃ w ∈ x, v.actionId = w.actionId ∧ Pursues s e d w v := by
  cases h with
  | kept => exact .inr ⟨v, hv, rfl, .same rfl rfl⟩
  | emptied => cases hv
  | filled v' hv' hl =>
    obtain rfl := Option.some.inj hv
    exact .inl ⟨hv', hl⟩
  | pursued w v' hw hi h =>
    obtain rfl := Option.some.inj hv
    exact .inr ⟨w, hw, hi, h⟩

theorem Tracks.mem (h : Tracks s e d t) {v : WorkerAction} (hv : v ∈ t.mutators) :
    s.actionSequenceHighWater < v.actionId.sequence ∧ v.lifecycle = .admitted ∨
      ∃ w ∈ s.mutators, v.actionId = w.actionId ∧ Pursues s e d w v := by
  have slot {α : Type} {x y : Option α} {worker : α → WorkerAction}
      (h : Follows s e d (x.map worker) (y.map worker)) (hx : ∀ a ∈ x, worker a ∈ s.mutators)
      {b : α} (hb : b ∈ y) : s.actionSequenceHighWater < (worker b).actionId.sequence ∧
          (worker b).lifecycle = .admitted ∨
        ∃ w ∈ s.mutators, (worker b).actionId = w.actionId ∧ Pursues s e d w (worker b) := by
    refine (h.of_mem (Option.mem_map_of_mem worker hb)).imp_right ?_
    rintro ⟨w, hw, hi, hp⟩
    obtain ⟨a, ha, rfl⟩ := Option.mem_map.mp hw
    exact ⟨_, hx a ha, hi, hp⟩
  rcases State.mem_mutators.mp hv with ⟨a, ha, rfl⟩ | ⟨a, ha, rfl⟩ | ⟨a, ha, rfl⟩ | ⟨a, ha, rfl⟩
  · exact slot h.probe (fun a ha => State.mem_mutators_probe ha) ha
  · exact slot h.application (fun a ha => State.mem_mutators_application ha) ha
  · exact slot h.preparation (fun a ha => State.mem_mutators_preparation ha) ha
  · exact slot h.finalization (fun a ha => State.mem_mutators_finalization ha) ha

theorem Follows.renews {α : Type} {worker : α → WorkerAction} {x : Option WorkerAction}
    {y z : Option α} {mark : Nat} (hm : mark = s.actionSequenceHighWater)
    (h : Follows s e d x (y.map worker)) (hr : Renews worker mark y z) :
    Follows s e d x (z.map worker) := by
  cases hr with
  | kept => exact h
  | emptied => exact .emptied
  | filled b hb hl => exact .filled (worker b) (hm ▸ hb) hl

theorem Tracks.frame {t' : State} (h : Tracks s e d t)
    (hm : t.actionSequenceHighWater = s.actionSequenceHighWater) (hf : Frame t t') :
    Tracks s e d t' where
  probe := h.probe.renews hm hf.probe
  application := h.application.renews hm hf.application
  preparation := h.preparation.renews hm hf.preparation
  finalization := h.finalization.renews hm hf.finalization

theorem Follows.stopped {w : WorkerAction} {x : Option WorkerAction} (hw : x = some w)
    (hl : w.lifecycle = .dispatched) : Follows s e d x (some w.stop) := by
  refine .pursued w w.stop hw rfl (.running (.inr hl) fun hx => absurd ?_ hx)
  exact WorkerAction.terminalAfterStop_eq_none (w := w) (by simp [hl])

theorem Follows.ended {w v : WorkerAction} {x : Option WorkerAction} (hw : x = some w)
    (hi : v.actionId = w.actionId) (hl : v.lifecycle.terminal = true) :
    Follows s e d x (some v) :=
  .pursued w v hw hi (.ended hl)

theorem Follows.same {w v : WorkerAction} {x : Option WorkerAction} (hw : x = some w)
    (hi : v.actionId = w.actionId) (hl : v.lifecycle = w.lifecycle)
    (hx : v.terminalAfterStop = w.terminalAfterStop) : Follows s e d x (some v) :=
  .pursued w v hw hi (.same hl hx)

theorem Follows.of_slot {α : Type} {x : Option α} {a : α} {worker : α → WorkerAction}
    {y : Option WorkerAction} (ha : x = some a)
    (h : ∀ {z : Option WorkerAction}, z = some (worker a) → Follows s e d z y) :
    Follows s e d (x.map worker) y :=
  h (by rw [ha]; rfl)

end Steps

section Samples

variable {s t : State} {c : ObservationCompleted} {prior : Option CanonicalObservation}
  {d : Decision}

theorem Frees.tracks {es : List Effect}
    (h : Frees (recordObservation s c.observation) prior c.observation t es) :
    Tracks s (.observationCompleted c) d t := by
  cases h with
  | entered ht hr => exact {}
  | idle ht hb =>
    unfold leaveSlowWait
    split <;> exact {}
  | cancelled ht hc => cases hc <;> exact {}
  | concluded a b ht ha hl he hb hbl =>
    cases hb with
    | preparation _ w hk hw =>
      refine { preparation := .of_slot (x := s.preparation) ha fun hz => ?_ }
      exact .ended hz hw.actionId (congrArg ActionLifecycle.terminal hbl)

/-- Only a new topology stops a preparation whose result is pending. -/
theorem Observed.tracks
    (h : Observed (recordObservation s c.observation) prior c.observation d)
    (hb : c.metadata.bootId = s.bootId) (hf : ¬ staleObservation s c.observation) :
    Tracks s (.observationCompleted c) d d.state := by
  cases h with
  | revoked r s' es t hv hl hr ht =>
    cases hr with
    | desktop hw => cases hw <;> exact {}
    | probe a ha => exact {}
    | application a ha => exact {}
  | invalid phase t hv hn hp ht => exact {}
  | invalidInternal a t hv ha hi ht =>
    refine { application := .of_slot (x := s.application) ha fun hz => ?_ }
    have hl : a.lifecycle = .dispatched ∨ a.lifecycle = .stopping := by simpa using hi.2.2
    rcases hl with hl | hl
    · exact .stopped hz hl
    · exact .same hz rfl hl.symm rfl
  | internal a t hv ha hi ht =>
    refine { application := .of_slot (x := s.application) ha fun hz => ?_ }
    exact .stopped hz (by simpa using hi.2.2)
  | stopping w t hv hw hl ht => exact {}
  | stopped r s' t hv hs hi hc ht =>
    cases hs with
    | probe a ha hl => exact { probe := .of_slot (x := s.probe) ha fun hz => .stopped hz hl }
    | application a ha hl =>
      exact { application := .of_slot (x := s.application) ha fun hz => .stopped hz hl }
    | finalization a ha hl =>
      exact { finalization := .of_slot (x := s.finalization) ha fun hz => .stopped hz hl }
    | preparation a ha hl =>
      refine { preparation := .of_slot (x := s.preparation) ha fun hz => ?_ }
      rcases hl with hl | hl
      · exact .stopped hz hl
      · refine .pursued _ a.stop hz rfl (.interrupted hl a.kind_preparation rfl ?_ ?_)
        · exact WorkerAction.terminalAfterStop_eq_none (w := a.toWorkerAction) (by simp [hl])
        · rcases hc with hc | ⟨_, ⟨⟩, -⟩ | ⟨_, ⟨⟩, hl', -⟩
          · exact ⟨c, rfl, ⟨hb, hf, hv⟩, hc⟩
          · simp [hl] at hl'
  | refused s' t hv hs ht hc =>
    cases hs with
    | finalization a b v ha hl hb' hbl hv' =>
      cases hb' with
      | finalization _ w hk hw =>
        refine { finalization := .of_slot (x := s.finalization) ha fun hz => ?_ }
        exact .ended hz hw.actionId (congrArg ActionLifecycle.terminal hbl)
    | preparation a b ha hl hb' hbl =>
      cases hb' with
      | preparation _ w hk hw =>
        refine { preparation := .of_slot (x := s.preparation) ha fun hz => ?_ }
        exact .ended hz hw.actionId (congrArg ActionLifecycle.terminal hbl)
  | confirmed s' eff hv ht hc =>
    cases hc with
    | probe a ha hl hc =>
      exact { probe := .of_slot (x := s.probe) ha fun hz => .same hz rfl rfl rfl }
    | application a ha hl hc =>
      exact { application := .of_slot (x := s.application) ha fun hz => .same hz rfl rfl rfl }
    | preparation a ha hl hc =>
      exact { preparation := .of_slot (x := s.preparation) ha fun hz => .same hz rfl rfl rfl }
    | finalization a ha hl hc =>
      exact { finalization := .of_slot (x := s.finalization) ha fun hz => .same hz rfl rfl rfl }
  | classified s' es d' hv hfrees hc => exact hfrees.tracks.frame hfrees.kept.actionMark hc.frame
  | _ => exact {}

end Samples

section Steps

variable {s : State} {e : Event} {d : Decision}

theorem Follows.dispatched {w v : WorkerAction} {x : Option WorkerAction} (hw : x = some w)
    (hl : w.lifecycle = .admitted) (hi : v.actionId = w.actionId)
    (hx : v.terminalAfterStop = w.terminalAfterStop) : Follows s e d x (some v) := by
  refine .pursued w v hw hi (.running (.inl hl) fun hn => absurd ?_ hn)
  exact hx.trans (WorkerAction.terminalAfterStop_eq_none (w := w) (by simp [hl]))

theorem Follows.reported {w v : WorkerAction} {r : ActionRecord} {x : Option WorkerAction}
    (hw : x = some w) (hi : v.actionId = w.actionId) (hl : v.lifecycle = .resultPending)
    (hr : r.actionId = w.actionId) (hrl : r.lifecycle = w.lifecycle)
    (hk : r.kind = .finalization ∨ r.kind = .preparation)
    (hb : e.metadata.bootId = s.bootId) (he : Ends e r .completed) :
    Follows s e d x (some v) := by
  refine .pursued w v hw hi ?_
  generalize hg : ActionLifecycle.completed = l at he
  cases he with
  | finished hf hd hm =>
    refine .running (.inr (hrl.symm.trans hd)) fun hn => absurd ?_ hn
    exact WorkerAction.terminalAfterStop_eq_none (w := v) (by simp [hl])
  | @acknowledged f r hf hd =>
    refine .reported (hrl.symm.trans hd) hl ?_
    have hkind : w.actionId.kind = r.kind := hr ▸ r.kind_eq
    rcases hk with hk | hk
    · exact .inl (hkind.trans hk)
    · exact .inr ⟨hkind.trans hk, f, rfl, hb, hf.trans hr, hg.symm⟩

theorem Follows.doubted {w : WorkerAction} {x : Option WorkerAction} {v : UncertainVerdict}
    {t : Nat} (hw : x = some w) (hl : w.lifecycle = .dispatched ∨ w.lifecycle = .stopping)
    (hd : d.effects =
      (if w.lifecycle = .stopping then [] else [Effect.stopAction w.actionId]) ++ [.schedule t]) :
    Follows s e d x (some (w.stopUncertain v.lifecycle v.post_stop)) := by
  rcases hl with hl | hl
  · refine .pursued w _ hw rfl (.running (.inr hl) fun _ => ?_)
    simp [hd, hl]
  · refine .same hw rfl hl.symm ?_
    simp [WorkerAction.stopUncertain, hl]

/-- One step tracks every display worker. -/
theorem Step.tracks (h : Step s e d) (hto : Addressed s e d) : Tracks s e d d.state := by
  rcases hto with rfl | hto
  · exact {}
  have boot {r : ActionRecord} {l : ActionLifecycle} (he : Ends e r l) :
      e.metadata.bootId = s.bootId := by
    refine hto.resolve_left ?_
    rintro ⟨b, rfl⟩
    cases he.reports
  cases h with
  | ignored e hi => exact {}
  | observed e hb hf ho => exact ho.tracks hb hf
  | observationFailed e t ht => exact {}
  | timerFired e t ht => exact {}
  | hinted e s' es t hb hg ht hh =>
    cases hh with
    | withdrawn hl hw => cases hw <;> exact {}
    | reopened hq hf hp => exact {}
    | kept hp => exact {}
  | dirtied e r s' es t hb hr he hl hg ht hw =>
    rcases hw with hw | ⟨-, rfl, -⟩
    · cases hw <;> exact {}
    · exact {}
  | probeDispatched e a w ha hl hi hd =>
    subst hd
    exact { probe := .of_slot ha fun hz => .dispatched hz hl rfl rfl }
  | applicationDispatched e a w ha hl hi hd =>
    subst hd
    exact { application := .of_slot ha fun hz => .dispatched hz hl rfl rfl }
  | preparationDispatched e a w ha hl hi hd =>
    subst hd
    exact { preparation := .of_slot ha fun hz => .dispatched hz hl rfl rfl }
  | finalizationDispatched e a w ha hl hi hd =>
    subst hd
    exact { finalization := .of_slot ha fun hz => .dispatched hz hl rfl rfl }
  | planRequested e p hp hs hi hk => exact {}
  | planCompleted e p t hp hs hi hk ht => exact {}
  | planRetried e p t hp hs hi hk hr ht => exact {}
  | stopRepeated e r t hr hl he ht => exact {}
  | closed e r l v es t hr hk he hl hv hes ht => cases r <;> exact {}
  | failed e r r' phase es t hr hc hf he hp hes =>
    have hended := ActionLifecycle.terminal_of_failed hf
    cases hc with
    | planning a l x => exact {}
    | probe a w hk hw =>
      exact { probe := .of_slot (State.probe_of_mem hr) fun hz => .ended hz hw.actionId hended }
    | application a w hk hw =>
      exact
        { application := .of_slot (State.application_of_mem hr) fun hz =>
            .ended hz hw.actionId hended }
    | preparation a w hk hw =>
      exact
        { preparation := .of_slot (State.preparation_of_mem hr) fun hz =>
            .ended hz hw.actionId hended }
    | finalization a w hk hw =>
      exact
        { finalization := .of_slot (State.finalization_of_mem hr) fun hz =>
            .ended hz hw.actionId hended }
  | preparationReported e a b t ha he hb hl ht =>
    cases hb with
    | preparation _ w hk hw =>
      exact
        { preparation := .of_slot ha fun hz =>
            .reported hz hw.actionId hl rfl rfl (.inr rfl) (boot he) he }
  | finalizationReported e a b t ha he hb hl ht =>
    cases hb with
    | finalization _ w hk hw =>
      exact
        { finalization := .of_slot ha fun hz =>
            .reported hz hw.actionId hl rfl rfl (.inl rfl) (boot he) he }
  | doubted e r v t hr hk hl he ht =>
    cases r with
    | planning a => exact absurd rfl hk
    | probe a =>
      exact { probe := .of_slot (State.probe_of_mem hr) fun hz => .doubted hz hl rfl }
    | application a =>
      exact { application := .of_slot (State.application_of_mem hr) fun hz => .doubted hz hl rfl }
    | preparation a =>
      exact { preparation := .of_slot (State.preparation_of_mem hr) fun hz => .doubted hz hl rfl }
    | finalization a =>
      exact
        { finalization := .of_slot (State.finalization_of_mem hr) fun hz => .doubted hz hl rfl }
  | restarted e a s' es t ha hl hw ht =>
    cases hw
    exact {}
  | retried e a t ha hp ht => exact {}
  | resumed e v es t hq hv hes => exact {}
  | booted e hb => exact {}

end Steps

section Stopped

variable {s s' : State} {o : CanonicalObservation} {e : Event} {d : Decision} {a : ActionId}
  {es : List Effect}

/-- The effects ask to stop nothing. -/
def Unstopping (es : List Effect) : Prop := ∀ a, Effect.stopAction a ∉ es

theorem unstopping_planDiscards (s : State) : Unstopping s.planDiscards := by
  intro a ha
  simp only [State.planDiscards, Option.mem_toList, Option.map_eq_some_iff] at ha
  obtain ⟨p, -, hp⟩ := ha
  cases hp

theorem Unstopping.append {fs : List Effect} (h : Unstopping es) (h' : Unstopping fs) :
    Unstopping (es ++ fs) := fun a ha => (List.mem_append.mp ha).elim (h a) (h' a)

theorem Advances.unstopping (h : Advances s o es d) (hes : Unstopping es) :
    Unstopping d.effects := by
  cases h with
  | finalized since candidate hv hc hp hf => exact hes.append (unstopping_planDiscards _)
  | adopted since candidate hv hc hp hb => exact hes
  | finalizes since candidate preparation hv hc hp hf hb hq hqs hn =>
    exact hes.append fun a ha => by simp [FinalizationAction.finalize] at ha
  | prepares since candidate planning planHash hv hc hp hf hb hl hls hh hqs =>
    refine (hes.append fun a ha => ?_).append fun a ha => ?_
    · simp [PreparationAction.prepare] at ha
    · simp at ha
  | settled since candidate t hv hc ht => exact hes.append fun a ha => by simp at ha

theorem Selects.unstopping (h : Selects s o d) : Unstopping d.effects := by
  have single {f : Effect} (hf : ∀ a, f ≠ .stopAction a) : Unstopping [f] := fun a ha =>
    hf a (List.mem_singleton.mp ha).symm
  cases h with
  | deferred hz => exact single nofun
  | waits hw => cases hw; exact single nofun
  | waitsKnown hw => cases hw; exact single nofun
  | waitsSpent target ht hz hw => cases hw; exact single nofun
  | probes candidate hz hc action ha hk =>
    exact (unstopping_planDiscards s).append (single nofun)
  | stable target ht hx hs => exact fun a ha => by cases ha
  | verifies target s' es s'' fs ht hx hv hp ha =>
    refine ha.unstopping (.append ?_ ?_)
    · cases hv with
      | kept hs hi => exact fun a ha => by cases ha
      | replanned hs hi => exact unstopping_planDiscards _
      | restarted hs => exact unstopping_planDiscards _
    · cases hp with
      | admitted hf hb hi => exact single nofun
      | kept hk => exact fun a ha => by cases ha
  | applies target ht hz hx action ha hk => exact single nofun
  | unknown phase since t hp hs => exact single nofun

theorem Classifies.unstopping (h : Classifies s o d) : Unstopping d.effects := by
  cases h with
  | unplugging s' he hu => exact fun a ha => by simp at ha
  | retained s' hs hr => exact fun a ha => by simp at ha
  | selected s' s'' hs hr hd => exact hd.unstopping

theorem Withdraws.unstopping {r : ActionRecord} (h : Withdraws s r s' es) : Unstopping es := by
  cases h with
  | preparation a ha => exact unstopping_planDiscards s
  | finalization a ha => exact fun a ha => by cases ha

/-- The state keeps the worker of the action as one which is being stopped. -/
def Stopping (s : State) (a : ActionId) : Prop :=
  ∃ v ∈ s.mutators, v.actionId = a ∧ v.lifecycle = .stopping

theorem Stopping.of_stopEffects (h : .stopAction a ∈ stopEffects s) : Stopping s a := by
  simp only [stopEffects, Option.mem_toList, Option.map_eq_some_iff] at h
  obtain ⟨w, hw, ha⟩ := h
  obtain ⟨hmem, hl⟩ := State.stoppingMutator_eq_some hw
  exact ⟨w, hmem, Effect.stopAction.inj ha, hl⟩

theorem Observed.stops {prior : Option CanonicalObservation} (h : Observed s prior o d)
    (ha : .stopAction a ∈ d.effects) : Stopping d.state a := by
  have single {b : ActionId} {t : Nat} (ha : .stopAction a ∈ [Effect.stopAction b, .schedule t]) :
      b = a := by simpa [eq_comm] using ha
  cases h with
  | revoked r s' es t hv hl hr ht =>
    have hes : Unstopping es := by
      cases hr with
      | desktop hw => exact hw.unstopping
      | probe b hb => exact fun a ha => by cases ha
      | application b hb => exact fun a ha => by cases ha
    exact absurd ha (hes.append (fun a ha => by simp at ha) a)
  | invalid phase t hv hn hp ht =>
    have ha : .stopAction a ∈ stopEffects s := by simpa using ha
    exact .of_stopEffects ha
  | invalidInternal b t hv hb hi ht =>
    exact ⟨_, State.mem_mutators_application rfl, single ha, rfl⟩
  | internal b t hv hb hi ht =>
    exact ⟨_, State.mem_mutators_application rfl, single ha, rfl⟩
  | stopping w t hv hw hl ht => exact ⟨w, hw, single ha, hl⟩
  | stopped r s' t hv hs hi hc ht =>
    cases hs with
    | probe b hb hl => exact ⟨_, State.mem_mutators_probe rfl, single ha, rfl⟩
    | application b hb hl => exact ⟨_, State.mem_mutators_application rfl, single ha, rfl⟩
    | preparation b hb hl => exact ⟨_, State.mem_mutators_preparation rfl, single ha, rfl⟩
    | finalization b hb hl => exact ⟨_, State.mem_mutators_finalization rfl, single ha, rfl⟩
  | refused s' t hv hs ht hc => simp at ha
  | running t hv ht hr hd => simp at ha
  | completed b hv hb hl he => exact absurd ha (unstopping_planDiscards s a)
  | uncertain b t hv ht hb hl he hd => simp at ha
  | preparing b t hv ht hb hl he hd => simp at ha
  | confirmed s' eff hv ht hc => cases hc <;> cases List.mem_singleton.mp ha
  | classified s' es d' hv hf hc =>
    have hes : Unstopping es := by
      cases hf with
      | entered ht hr => exact unstopping_planDiscards s
      | _ => exact fun a ha => by cases ha
    exact absurd ha (hes.append hc.unstopping a)

theorem Event.kind_of_finished (h : e.finished? = some a) : a.kind ≠ .plan := by
  cases e with
  | probeFinished e => exact Option.some.inj h ▸ e.kind_eq.trans_ne (by decide)
  | applicationFinished e => exact Option.some.inj h ▸ e.kind_eq.trans_ne (by decide)
  | preparationFinished e => exact Option.some.inj h ▸ e.kind_eq.trans_ne (by decide)
  | finalizationFinished e => exact Option.some.inj h ▸ e.kind_eq.trans_ne (by decide)
  | _ => cases h

/-- Whatever is asked to stop is being stopped. -/
theorem Step.stops (h : Step s e d) (ha : .stopAction a ∈ d.effects) : Stopping d.state a := by
  have wakes {es : List Effect} {reason : WakeReason} {t : Nat} (hes : Unstopping es)
      (ha : .stopAction a ∈ es ++ [.requestObservation reason] ++ [.schedule t]) : False := by
    have ha : Effect.stopAction a ∈ es := by simpa using ha
    exact hes a ha
  have none : Unstopping [] := fun a ha => by cases ha
  cases h with
  | observed e hb hf ho => exact ho.stops ha
  | observationFailed e t ht =>
    have ha : .stopAction a ∈ stopEffects s := by simpa using ha
    exact .of_stopEffects ha
  | hinted e s' es t hb hg ht hh =>
    refine (wakes ?_ ha).elim
    cases hh with
    | withdrawn hl hw => exact hw.unstopping
    | reopened hq hf hp => exact none
    | kept hp => exact none
  | dirtied e r s' es t hb hr he hl hg ht hw =>
    refine (wakes ?_ ha).elim
    rcases hw with hw | ⟨-, -, rfl⟩
    · exact hw.unstopping
    · exact none
  | planRetried e p t hp hs hi hk hr ht =>
    exact absurd ha ((unstopping_planDiscards s).append (fun a ha => by simp at ha) a)
  | stopRepeated e r t hr hl he ht =>
    have ha : r.actionId = a := by simpa [eq_comm] using ha
    have hk : r.kind ≠ .plan := r.kind_eq ▸ Event.kind_of_finished he
    obtain ⟨v, hv, hi, hvl⟩ := State.mutator_of_mem hr hk
    exact ⟨v, hv, hi.trans ha, hvl.trans hl⟩
  | closed e r l v es t hr hk he hl hv hes ht =>
    refine (wakes ?_ ha).elim
    rcases hes with rfl | ⟨-, rfl⟩
    · exact none
    · exact unstopping_planDiscards s
  | failed e r r' phase es t hr hc hf he hp hes =>
    rcases hes with rfl | rfl <;> simp at ha
  | doubted e r v t hr hk hl he ht =>
    have ha : r.actionId = a := by
      split at ha
      · simp at ha
      · simpa [eq_comm] using ha
    cases r with
    | planning b => exact absurd rfl hk
    | probe b => exact ⟨_, State.mem_mutators_probe rfl, ha, rfl⟩
    | application b => exact ⟨_, State.mem_mutators_application rfl, ha, rfl⟩
    | preparation b => exact ⟨_, State.mem_mutators_preparation rfl, ha, rfl⟩
    | finalization b => exact ⟨_, State.mem_mutators_finalization rfl, ha, rfl⟩
  | restarted e b s' es t hb hl hw ht => exact (wakes hw.unstopping ha).elim
  | resumed e v es t hq hv hes => rcases hes with rfl | rfl <;> simp at ha
  | _ => simp at ha

end Stopped

end MonitorController
