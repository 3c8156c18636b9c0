import MonitorController.Runtime.Controller
import MonitorController.Safety.Reports

/-! # The supervision of workers and deadlines

A dispatched worker has a monitor which runs or whose report is queued, and the
deadline of the state is armed or its firing is queued. The other tasks keep
both, and the consumer restores both with each event which it reduces.
-/

namespace MonitorController

/-- The monitor watches the worker. -/
structure Watches (s : State) (w : WorkerAction) (m : WorkerMonitor) : Prop where
  inFlight : w.lifecycle = .dispatched
  actionId : m.actionId = w.actionId
  deadline : w.workerDeadlineMs = some m.deadlineMs
  bootId : m.bootId = s.bootId

/-- A report of the monitor is among the events. -/
def Reported (es : List Event) (m : WorkerMonitor) : Prop :=
  ∃ e ∈ es, e.metadata.bootId = m.bootId ∧ Attests m.actionId m.deadlineMs e

/-- Every dispatched worker is watched, and a monitor which has stopped has reported. -/
structure Attended (r : Runtime) (es : List Event) : Prop where
  watched : ∀ w ∈ r.state.mutators, w.lifecycle = .dispatched →
    ∃ m ∈ r.workerMonitors, m.actionId = w.actionId
  monitors : ∀ m ∈ r.workerMonitors, (∃ w ∈ r.state.mutators, Watches r.state w m) ∧
    (m.running = true ∨ Reported es m)

/-- The deadline of the state is armed, or it has fired. -/
def Armed (r : Runtime) : Prop :=
  ∀ t ∈ r.state.nextTimerMs, r.scheduled = some (t, r.state.bootId) ∨
    ∃ e, .timerFired e ∈ r.queue ∧ e.metadata.bootId = r.state.bootId ∧ e.deadlineMs = t

theorem finishedEvent_attests {completion : WorkerCompletion} {metadata : EventMetadata} {e : Event}
    (h : finishedEvent completion metadata = .ok e) :
    e.metadata = metadata ∧ e.finished? = some completion.actionId := by
  unfold finishedEvent at h
  split at h
  next => cases h
  next outcome ho =>
    split at h
    next => cases h; exact ⟨rfl, rfl⟩
    next => cases h; exact ⟨rfl, rfl⟩
    next =>
      split at h
      next => cases h
      next => cases h; exact ⟨rfl, rfl⟩
    next => cases h; exact ⟨rfl, rfl⟩
    next => cases h

theorem completionEvent_attests {completion : WorkerCompletion} {metadata : EventMetadata}
    {deadlineMs : Nat} {e : Event} (h : completionEvent completion metadata deadlineMs = .ok e) :
    e.metadata = metadata ∧ Attests completion.actionId deadlineMs e := by
  unfold completionEvent at h
  split at h
  next => cases h; exact ⟨rfl, .unknown _ rfl⟩
  next => cases h; exact ⟨rfl, .timedOut _ rfl rfl (.inl rfl)⟩
  next => exact ⟨(finishedEvent_attests h).1, .finished (finishedEvent_attests h).2⟩

theorem monitorReport_attests (m : WorkerMonitor) (nowMs : Nat)
    (sighting : Sighting m.deadlineMs nowMs) :
    (monitorReport m nowMs sighting).metadata.bootId = m.bootId ∧
      Attests m.actionId m.deadlineMs (monitorReport m nowMs sighting) := by
  cases sighting with
  | overdue due => exact ⟨rfl, .timedOut _ rfl rfl (.inr due)⟩
  | unowned => exact ⟨rfl, .unknown _ rfl⟩
  | unexpected activity => exact ⟨rfl, .unknown _ rfl⟩
  | failed error => exact ⟨rfl, .unknown _ rfl⟩
  | inactive completion =>
    cases completion with
    | none => exact ⟨rfl, .unknown _ rfl⟩
    | some completion =>
      unfold monitorReport
      dsimp only
      split
      next => exact ⟨rfl, .unknown _ rfl⟩
      next hid =>
        have hid : completion.actionId = m.actionId := by simpa using hid
        split
        next e he =>
          obtain ⟨hmetadata, hattests⟩ := completionEvent_attests he
          exact ⟨by rw [hmetadata], hid ▸ hattests⟩
        next => exact ⟨rfl, .unknown _ rfl⟩

section Queue

variable {r : Runtime} {es fs : List Event}

theorem Reported.mono {m : WorkerMonitor} (h : Reported es m) (hs : es ⊆ fs) : Reported fs m := by
  obtain ⟨e, he, hb, ha⟩ := h
  exact ⟨e, hs he, hb, ha⟩

theorem Attended.mono (h : Attended r es) (hs : es ⊆ fs) : Attended r fs where
  watched := h.watched
  monitors m hm := ⟨(h.monitors m hm).1, (h.monitors m hm).2.imp_right (·.mono hs)⟩

theorem Attended.of_eq {r' : Runtime} (h : Attended r es) (hs : r'.state = r.state)
    (hm : r'.workerMonitors = r.workerMonitors) : Attended r' es := by
  constructor
  · rw [hs, hm]
    exact h.watched
  · rw [hs, hm]
    exact h.monitors

theorem Armed.mono {queue : List Event} (h : Armed r) (hs : r.queue ⊆ queue) :
    Armed { r with queue := queue } := by
  intro t ht
  refine (h t ht).imp_right ?_
  rintro ⟨e, he, hb, hd⟩
  exact ⟨e, hs he, hb, hd⟩

theorem armed_arm (r : Runtime) : Armed r.arm := by
  intro t ht
  have ht : r.state.nextTimerMs = some t := ht
  exact .inl (by simp [Runtime.arm, ht])

end Queue

section Interference

variable {c c' : Situation}

/-- The other tasks neither touch the state nor forget an event or a report. -/
theorem Interferes.attended (h : Interferes c c') (ha : Attended c.memory c.memory.queue) :
    Attended c'.memory c'.memory.queue := by
  have queued (event : Event) : c.memory.queue ⊆ c.memory.queue ++ [event] :=
    List.subset_append_left _ _
  have grown {r : Runtime} (event : Event) (hs : r.state = c.memory.state)
      (hm : r.workerMonitors = c.memory.workerMonitors)
      (hq : r.queue = c.memory.queue ++ [event]) : Attended r r.queue := by
    rw [hq]
    exact (ha.of_eq hs hm).mono (queued event)
  cases h with
  | hint nowMs fence hf => exact grown _ rfl rfl rfl
  | planned before after task nowMs created ht => exact grown _ rfl rfl rfl
  | planCancelled before after task hc ht => exact ha.of_eq rfl rfl
  | fired deadlineMs nowMs bootId hs hn => exact grown _ rfl rfl rfl
  | reported before after monitor nowMs sighting hr hm =>
    have hmono := ha.mono (queued (monitorReport monitor nowMs sighting))
    have hmem : monitor ∈ c.memory.workerMonitors := by simp [hm]
    have hsub {m : WorkerMonitor} (h : m ∈ before ∨ m ∈ after) : m ∈ c.memory.workerMonitors := by
      rw [hm]
      rcases h with h | h <;> simp [h]
    constructor
    · intro w hw hl
      obtain ⟨m, hm', hi⟩ := ha.watched w hw hl
      rw [hm, List.mem_append, List.mem_cons] at hm'
      rcases hm' with hm' | rfl | hm'
      · exact ⟨m, List.mem_append_left _ hm', hi⟩
      · exact ⟨{ m with running := false }, List.mem_append_right _ List.mem_cons_self, hi⟩
      · exact ⟨m, List.mem_append_right _ (List.mem_cons_of_mem _ hm'), hi⟩
    · intro m hm'
      rcases List.mem_append.mp hm' with hm' | hm'
      · exact hmono.monitors m (hsub (.inl hm'))
      · rcases List.mem_cons.mp hm' with rfl | hm'
        · obtain ⟨⟨w, hw, hwatch⟩, -⟩ := hmono.monitors monitor hmem
          refine ⟨⟨w, hw, ⟨hwatch.inFlight, hwatch.actionId, hwatch.deadline, hwatch.bootId⟩⟩, .inr ?_⟩
          exact ⟨_, List.mem_append_right _ List.mem_cons_self,
            monitorReport_attests monitor nowMs sighting⟩
        · exact hmono.monitors m (hsub (.inr hm'))

theorem Interferes.armed (h : Interferes c c') (ha : Armed c.memory) : Armed c'.memory := by
  have queued (event : Event) : c.memory.queue ⊆ c.memory.queue ++ [event] :=
    List.subset_append_left _ _
  cases h with
  | hint nowMs fence hf => exact ha.mono (queued _)
  | planned before after task nowMs created ht => exact ha.mono (queued _)
  | planCancelled before after task hc ht => exact ha
  | reported before after monitor nowMs sighting hr hm => exact ha.mono (queued _)
  | fired deadlineMs nowMs bootId hs hn =>
    intro t ht
    rcases ha t ht with harmed | ⟨e, he, hb, hd⟩
    · obtain ⟨rfl, rfl⟩ : deadlineMs = t ∧ bootId = c.memory.state.bootId := by
        simpa using hs.symm.trans harmed
      exact .inr ⟨_, List.mem_append_right _ List.mem_cons_self, rfl, rfl⟩
    · exact .inr ⟨e, queued _ he, hb, hd⟩

end Interference

section Adoption

theorem Sound.workerAt {s : State} (h : Sound s) {w : WorkerAction} (hw : w ∈ s.mutators) :
    WorkerAt s.eventGeneration w := by
  rcases State.mem_mutators.mp hw with ⟨a, ha, rfl⟩ | ⟨a, ha, rfl⟩ | ⟨a, ha, rfl⟩ | ⟨a, ha, rfl⟩
  · exact (h.attempts.probe a ha).1
  · exact (h.attempts.application a ha).1
  · exact h.attempts.preparation a ha
  · exact h.attempts.finalization a ha

variable {r : Runtime}

theorem expectedMonitor_spec (hs : Sound r.state) :
    (r.expectedMonitor = none ∧ ∀ w ∈ r.state.mutators, w.lifecycle ≠ .dispatched) ∨
      ∃ w ∈ r.state.mutators, ∃ m, r.expectedMonitor = some m ∧ Watches r.state w m ∧
        m.running = true ∧
        ∀ v ∈ r.state.mutators, v.lifecycle = .dispatched → v = w := by
  cases hm : r.expectedMonitor with
  | none =>
    refine .inl ⟨rfl, fun w hw hl => ?_⟩
    obtain ⟨hunit, hdeadline⟩ := (hs.workerAt hw).unit (by rw [hl]; rfl)
    obtain ⟨unit, hunit⟩ := Option.ne_none_iff_exists'.mp hunit
    obtain ⟨deadlineMs, hdeadline⟩ := Option.ne_none_iff_exists'.mp hdeadline
    have hnone := List.findSome?_eq_none_iff.mp hm w hw
    simp [hl, hunit, hdeadline] at hnone
  | some m =>
    obtain ⟨w, hw, hfound⟩ := List.exists_of_findSome?_eq_some hm
    split at hfound
    next unit deadlineMs hl hunit hdeadline =>
      cases hfound
      refine .inr ⟨w, hw, _, rfl, ⟨hl, rfl, hdeadline, rfl⟩, rfl, fun v hv hvl => ?_⟩
      refine (hs.toCore.live_alone hw (by rw [hl]; rfl) hv).resolve_right fun hterminal => ?_
      rw [hvl] at hterminal
      cases hterminal
    next => cases hfound

/-- `_reconcile_worker_monitor` starts the monitor which is missing and cancels every other. -/
theorem attended_reconcile (hs : Sound r.state) {es : List Event}
    (h : ∀ m ∈ r.workerMonitors, ∀ w ∈ r.state.mutators, w.lifecycle = .dispatched →
      m.actionId = w.actionId → Watches r.state w m ∧ (m.running = true ∨ Reported es m)) :
    Attended r.reconcileWorkerMonitor es := by
  rcases expectedMonitor_spec hs with ⟨hnone, hidle⟩ | ⟨w, hw, m, hsome, hwatch, hrun, hunique⟩
  · have hr : r.reconcileWorkerMonitor = { r with workerMonitors := [] } := by
      simp [Runtime.reconcileWorkerMonitor, hnone]
    rw [hr]
    exact ⟨fun w hw hl => absurd hl (hidle w hw), by simp⟩
  · by_cases hkept : r.workerMonitors.filter (·.actionId = m.actionId) = []
    · have hr : r.reconcileWorkerMonitor = { r with workerMonitors := [m] } := by
        simp only [Runtime.reconcileWorkerMonitor, hsome, if_pos hkept]
      rw [hr]
      refine ⟨fun v hv hl => ⟨m, List.mem_singleton_self m, ?_⟩, ?_⟩
      · exact hunique v hv hl ▸ hwatch.actionId
      · intro m' hm'
        obtain rfl := List.mem_singleton.mp hm'
        exact ⟨⟨w, hw, hwatch⟩, .inl hrun⟩
    · have hr : r.reconcileWorkerMonitor =
          { r with workerMonitors := r.workerMonitors.filter (·.actionId = m.actionId) } := by
        simp only [Runtime.reconcileWorkerMonitor, hsome, if_neg hkept]
      rw [hr]
      constructor
      · intro v hv hl
        obtain ⟨m', hm'⟩ := List.exists_mem_of_ne_nil _ hkept
        obtain ⟨-, hi⟩ := List.mem_filter.mp hm'
        exact ⟨m', hm', (by simpa using hi : m'.actionId = m.actionId).trans
          (hunique v hv hl ▸ hwatch.actionId)⟩
      · intro m' hm'
        obtain ⟨hmem, hi⟩ := List.mem_filter.mp hm'
        have hi : m'.actionId = w.actionId :=
          (by simpa using hi : m'.actionId = m.actionId).trans hwatch.actionId
        obtain ⟨hwatch', hreported⟩ := h m' hmem w hw hwatch.inFlight hi
        exact ⟨⟨w, hw, hwatch'⟩, hreported⟩

/-- With the reduced event the supervision is complete again: a worker whose report was consumed is
not in flight any more. -/
theorem Attended.adopted {e : Event} {d : Decision} {es : List Event} (h : Attended r (e :: es))
    (hs : Sound r.state) (hr : reduce r.state e = .ok d) :
    Attended (r.adopt e d.state).arm.reconcileWorkerMonitor es := by
  obtain ⟨-, hstep, -, hs'⟩ := hs.reduces hr
  refine attended_reconcile (r := (r.adopt e d.state).arm) hs' ?_
  intro m hm v hv hl hi
  obtain ⟨⟨w, hw, hwatch⟩, hreported⟩ := h.monitors m hm
  have hid : v.actionId = w.actionId := hi.symm.trans hwatch.actionId
  obtain rfl : v = w := by
    rcases hstep.started hv hl with hv | ⟨w', hw', hwi, hwl⟩
    · exact State.worker_unique hv hw hid
    · have heq := State.worker_unique hw' hw (hwi.trans hid)
      rw [heq, hwatch.inFlight] at hwl
      cases hwl
  have hboot : d.state.bootId = r.state.bootId := by
    refine hstep.bootId.resolve_right fun hnil => ?_
    have hv : v ∈ d.state.mutators := hv
    simp [hnil] at hv
  refine ⟨⟨hl, hi, hwatch.deadline, hwatch.bootId.trans hboot.symm⟩, hreported.imp_right ?_⟩
  rintro ⟨f, hf, hfb, hattests⟩
  rcases List.mem_cons.mp hf with rfl | hf
  · rw [hi] at hattests
    exact absurd hl (hs.landed hr (hfb.trans hwatch.bootId) hw hl hwatch.deadline hattests v hv rfl)
  · exact ⟨f, hf, hfb, hattests⟩

end Adoption

end MonitorController
