import MonitorController.Runtime.Contract

/-! # The consumer keeps its contract

The simple procedures take a ready consumer to a ready one. A dispatch holds a
request meanwhile, and a submitted worker until its acknowledgement is reduced.
-/

namespace MonitorController

open Procedures Controller

variable {authority : Authority} {origin : State} {α : Type} {Q : α → Situation → Prop}
  {c c' : Situation}

/-- The code takes a ready consumer to a ready one. -/
abbrev Maintains (authority : Authority) (origin : State) (p : Controller α) : Prop :=
  Sustains answers (contract authority origin) (Ready origin) Resumes p

section Requests

theorem ready_after {p : Controller α} (h : Maintains authority origin p) (hc : Ready origin c')
    (hr : Resumes c c') :
    Meets answers (contract authority origin) (fun _ c'' => Ready origin c'' ∧ Resumes c c'') p
      c' := by
  refine (h c' hc).mono ?_
  rintro a c'' ⟨hc'', hr'⟩
  exact ⟨hc'', IsTrans.trans (r := Resumes) _ _ _ hr hr'⟩

theorem meets_now {f : Nat → Controller α} (hs : Sane origin c.memory.state)
    (hn : c.world.submitted.Nodup)
    (h : ∀ atMs, Meets answers (contract authority origin) Q (f atMs) c) :
    Meets answers (contract authority origin) Q (now >>= f) c := by
  refine Meets.perform ⟨hs, hn, by rintro ⟨⟩, trivial⟩ ?_
  rintro atMs c' rfl
  exact h atMs

theorem meets_append {f : Unit → Controller α} {record : AuditAppend}
    (hs : Sane origin c.memory.state) (hn : c.world.submitted.Nodup)
    (h : Meets answers (contract authority origin) Q (f ()) c) :
    Meets answers (contract authority origin) Q (append record >>= f) c := by
  refine Meets.bind_iff.mpr (Meets.perform ⟨hs, hn, by rintro ⟨⟩, trivial⟩ ?_)
  rintro reply c' rfl
  cases reply with
  | error e => exact trivial
  | ok u => exact h

theorem meets_save {f : Unit → Controller α} {state : State} {e : Event} {es : List Effect}
    (hs : Sane origin c.memory.state) (hn : c.world.submitted.Nodup)
    (hr : reduce c.memory.state e = .ok ⟨state, es⟩)
    (h : Meets answers (contract authority origin) Q (f ())
      ⟨c.memory, { c.world with stored := state }⟩) :
    Meets answers (contract authority origin) Q (save state >>= f) c := by
  refine Meets.bind_iff.mpr
    (Meets.perform ⟨hs, hn, by rintro ⟨⟩, e, es, hr⟩ ?_)
  rintro reply c' hc'
  cases reply with
  | error e => exact trivial
  | ok u =>
    rcases hc' with rfl | ⟨⟨e, ⟨⟩⟩, -⟩
    exact h

theorem maintains_now : Maintains authority origin now := by
  refine Sustains.perform (fun c hc => ⟨hc.sane, hc.once, by rintro ⟨⟩, trivial⟩) ?_
  rintro c atMs c' hc rfl
  exact ⟨hc, Std.Refl.refl c'⟩

theorem maintains_append (record : AuditAppend) : Maintains authority origin (append record) := by
  intro c hc
  refine Meets.last (meets_append hc.sane hc.once ?_)
  exact ⟨hc, Std.Refl.refl c⟩

theorem maintains_appendFailure (boundary : String) (detail : Text) (recordedAtMs : Nat)
    (actionId : Option ActionId) :
    Maintains authority origin (appendFailure boundary detail recordedAtMs actionId) :=
  maintains_append _

theorem maintains_metadata (atMs : Nat) : Maintains authority origin (metadata atMs) :=
  Sustains.read fun c hc => ⟨hc, Std.Refl.refl c⟩

theorem maintains_processEvent (k : Consumption) :
    Maintains authority origin (Code.call (.processEvent k) : Controller Unit) :=
  Sustains.call (fun _ hc => hc.consumable k.event) fun _ _ _ h => h

theorem maintains_process (event : Event) : Maintains authority origin (process event) :=
  maintains_processEvent { event }

theorem maintains_await (q : Request) (hq : ∀ c, Ready origin c → Permitted authority origin c q)
    (ha : ∀ c reply c', answers c q reply c' → Suspends c c') :
    Maintains authority origin (ask q) := by
  refine Sustains.perform
    (fun c hc => ⟨hc.sane, hc.once, fun _ => hc.toAlert, hq c hc⟩) ?_
  intro c reply c' hc h
  exact ⟨(ha c reply c' h).ready hc, (ha c reply c' h).resumes⟩

/-- Memory which the invariants do not mention may change. -/
theorem Ready.memory {m : Runtime} (h : Ready origin c) (hs : m.state = c.memory.state)
    (hg : m.eventGeneration = c.memory.eventGeneration)
    (hd : m.fenceDepth = c.memory.fenceDepth) (hq : m.queue = c.memory.queue)
    (hm : m.workerMonitors = c.memory.workerMonitors) (ht : m.scheduled = c.memory.scheduled) :
    Ready origin ⟨m, c.world⟩ ∧ Resumes c ⟨m, c.world⟩ := by
  refine ⟨?_, ⟨hd, rfl, fun _ => rfl, fun _ => hq ▸ le_rfl⟩⟩
  exact
    { stored := h.stored.trans hs.symm
      sane := hs ▸ h.sane
      generation := by rw [hs, hg]; exact h.generation
      fence := by
        unfold Published
        rw [hg]
        exact h.fence
      once := h.once
      few := h.few
      armed := by
        unfold Armed
        rw [hs, hq, ht]
        exact h.armed
      attended := by
        rw [hq]
        exact h.attended.of_eq hs hm
      resolved := by
        rw [hs]
        exact h.resolved
      unfenced := by
        rw [hd]
        exact h.unfenced }

end Requests

section Effects

theorem maintains_requestObservation : Maintains authority origin requestObservation := by
  refine Sustains.read fun c hc => ?_
  refine Sustains.bind (R := Resumes) (I := Ready origin) ?_ (fun _ => ?_) c hc
  · exact Sustains.modify fun c hc => hc.memory rfl rfl rfl rfl rfl rfl
  refine maintains_now.bind fun startedMs => ?_
  extract_lets reduced
  have hreduced (observed) : Maintains authority origin (reduced observed) := by
    cases observed with
    | none => exact Sustains.pure _
    | some observed =>
      refine Sustains.read fun c hc => ?_
      dsimp only
      split
      · refine Sustains.bind (R := Resumes) (I := Ready origin) ?_ (fun _ => ?_) c hc
        · exact Sustains.modify fun c hc => hc.memory rfl rfl rfl rfl rfl rfl
        · exact maintains_process _
      · exact maintains_processEvent _ c hc
  split
  · exact (Sustains.pure _).bind hreduced
  · refine (maintains_await .observe (fun _ _ => trivial) fun _ _ _ h => h).bind fun reply => ?_
    split
    · refine maintains_now.bind fun finishedMs => ?_
      refine (maintains_appendFailure _ _ _ _).bind fun _ => ?_
      refine (maintains_metadata _).bind fun _ => ?_
      exact (maintains_processEvent _).bind fun _ => (Sustains.pure _).bind hreduced
    · exact maintains_now.bind fun finishedMs => (Sustains.pure _).bind hreduced

theorem maintains_requestPlan (request : RequestPlan) :
    Maintains authority origin (requestPlan request) := by
  refine Sustains.read fun c hc => ?_
  split
  · exact Sustains.pure _ c hc
  · refine Sustains.bind (R := Resumes) (I := Ready origin) maintains_now (fun atMs => ?_) c hc
    refine (maintains_metadata _).bind fun _ => (maintains_process _).bind fun _ => ?_
    refine Sustains.read fun c hc => ?_
    split
    · exact hc.memory rfl rfl rfl rfl rfl rfl
    · exact Sustains.pure _ c hc

theorem maintains_discardPlan (actionId : ActionId) (planHash : Option PlanHash) :
    Maintains authority origin (discardPlan actionId planHash) := by
  have await (q : Request) (hq : ∀ c, Ready origin c → Permitted authority origin c q)
      (ha : ∀ c reply c', answers c q reply c' → Suspends c c') := maintains_await q hq ha
  refine (await (.revokePlan actionId planHash) (fun _ _ => trivial) fun _ _ _ h => h).bind
    fun reply => ?_
  split
  · exact maintains_now.bind fun atMs => maintains_appendFailure _ _ _ _
  · refine Sustains.read fun c hc => ?_
    extract_lets discarded
    have hdiscarded (u) : Maintains authority origin (discarded u) := by
      refine (await (.discardPlan actionId planHash) (fun _ _ => trivial) fun _ _ _ h => h).bind
        fun reply => ?_
      split
      · exact maintains_now.bind fun atMs => maintains_appendFailure _ _ _ _
      · exact Sustains.pure _
    split
    · refine Sustains.bind (R := Resumes) (I := Ready origin) ?_ (fun _ => ?_) c hc
      · exact Sustains.modify fun c hc => hc.memory rfl rfl rfl rfl rfl rfl
      · refine (await (.waitTask actionId) (fun _ _ => trivial) fun _ _ _ h => h).bind fun _ => ?_
        exact hdiscarded ()
    · exact hdiscarded () c hc

theorem maintains_processUnknown (actionId : ActionId) (reason : Text) :
    Maintains authority origin (processUnknown actionId reason) :=
  maintains_now.bind fun _ => (maintains_metadata _).bind fun _ => maintains_process _

theorem maintains_confirmStopped (ha : authority = .active) (actionId : ActionId)
    (unit : WorkerUnit) : Maintains authority origin (confirmStopped actionId unit) := by
  refine (maintains_await (.workerActivity unit) (fun _ _ => ha) fun _ _ _ h => h).bind
    fun reply => ?_
  split
  · exact maintains_processUnknown _ _
  · exact maintains_processUnknown _ _
  · exact Sustains.pure _
  · refine (maintains_await (.workerCompletion unit) (fun _ _ => ha) fun _ _ _ h => h).bind
      fun reply => ?_
    split
    · exact maintains_processUnknown _ _
    · exact maintains_processUnknown _ _
    · split
      · exact maintains_processUnknown _ _
      · exact maintains_now.bind fun _ => (maintains_metadata _).bind fun _ => maintains_process _

theorem Runtime.worker_mem {r : Runtime} {kind : ActionKind} {w : WorkerAction}
    (h : r.worker kind = some w) : w ∈ r.state.mutators := by
  unfold Runtime.worker at h
  rw [State.mem_mutators]
  cases kind with
  | probe => exact .inl (by simpa [eq_comm] using h)
  | application => exact .inr (.inl (by simpa [eq_comm] using h))
  | preparation => exact .inr (.inr (.inl (by simpa [eq_comm] using h)))
  | finalization => exact .inr (.inr (.inr (by simpa [eq_comm] using h)))
  | plan => cases h

theorem maintains_stopAction {actionId : ActionId} (hk : actionId.kind ≠ .plan) :
    Maintains authority origin (stopAction authority actionId) := by
  unfold stopAction
  split
  next => exact maintains_processUnknown _ _
  next hshadow =>
    have hactive : authority = .active := by
      cases authority with
      | active => rfl
      | shadow => exact absurd rfl hshadow
    refine Sustains.read fun c hc => ?_
    split
    next => exact Sustains.pure _ c hc
    next w hw =>
      split
      next => exact Sustains.pure _ c hc
      next unit hunit =>
        split
        next => exact Sustains.pure _ c hc
        next hstop =>
          obtain ⟨hi, hl⟩ : w.actionId = actionId ∧ w.lifecycle = .stopping := by
            simpa [not_or] using hstop
          refine Meets.perform ⟨hc.sane, hc.once, fun _ => hc.toAlert, hactive, w,
            Runtime.worker_mem hw, hi, hl, rfl⟩ fun reply c' h => ?_
          have h : Suspends c c' := h
          split
          · exact ready_after (maintains_processUnknown _ _) (h.ready hc) h.resumes
          · exact ready_after (maintains_confirmStopped hactive _ _) (h.ready hc) h.resumes

end Effects

/-- A consumer which drains no fence. -/
structure Idle (origin : State) (c : Situation) : Prop extends Ready origin c where
  depth : c.memory.fenceDepth = 0

/-- The consumer is calm, drains no fence, and has neither written nor submitted a request since. -/
structure Rested (origin : State) (c c' : Situation) : Prop extends Calm origin c' where
  depth : c'.memory.fenceDepth = 0
  unstarted : c'.world.unstarted = c.world.unstarted
  submitted : c'.world.submitted = c.world.submitted

/-- A dispatch which waits for its start: no other request is written. -/
structure Prepared (origin : State) (prepared : PreparedDispatch) (c : Situation) : Prop
    extends Calm origin c where
  depth : c.memory.fenceDepth = 0
  unstarted : c.world.unstarted = [prepared]
  fresh : prepared.actionId ∉ c.world.submitted

/-- A dispatch which may have submitted a worker, of which the state does not know yet. -/
structure Unacknowledged (origin : State) (a : ActionId) (c : Situation) : Prop
    extends Alert origin c where
  depth : c.memory.fenceDepth = 0
  unstarted : c.world.unstarted = []
  bounded : a.sequence ≤ c.memory.state.actionSequenceHighWater
  resolved : ∀ b ∈ c.world.submitted, b = a ∨ Resolved c.memory.state b

section Fence

theorem Ready.idle (h : Ready origin c) (hr : Resumes c' c) (hd : c'.memory.fenceDepth = 0) :
    Idle origin c :=
  ⟨h, hr.fenceDepth.trans hd⟩

theorem idle_of_maintains {p : Controller α} (h : Maintains authority origin p)
    (hc : Idle origin c) :
    Meets answers (contract authority origin) (fun _ c' => Idle origin c') p c := by
  refine (h c hc.toReady).mono ?_
  rintro a c' ⟨hc', hr⟩
  exact hc'.idle hr hc.depth

theorem Calm.fenced (h : Calm origin c) (depth : Nat) :
    Calm origin ⟨{ c.memory with fenceDepth := depth }, c.world⟩ where
  stored := h.stored
  sane := h.sane
  generation := h.generation
  fence := h.fence
  once := h.once
  few := h.few
  armed := h.armed
  attended := h.attended.of_eq rfl rfl
  resolved := h.resolved

theorem Alert.world (h : Alert origin c) {w : Outside} (hs : w.stored = c.world.stored)
    (hf : w.fence = c.world.fence) (hstale : w.stale = c.world.stale) (honce : w.submitted.Nodup)
    (hfew : w.unstarted.length ≤ 1) : Alert origin ⟨c.memory, w⟩ where
  sane := h.sane
  generation := h.generation
  fence := by
    unfold Published
    rw [hstale, hf]
    exact h.fence
  once := honce
  few := hfew
  stored := hs.trans h.stored
  armed := h.armed
  attended := h.attended

theorem Calm.requests (h : Calm origin c) {requests abandoned : List PreparedDispatch}
    (hfew : requests.length ≤ 1) :
    Calm origin ⟨c.memory, { c.world with unstarted := requests, abandoned := abandoned }⟩ where
  toAlert := h.toAlert.world rfl rfl rfl h.once hfew
  resolved := h.resolved

theorem maintains_drainPreDispatchEvents (count : Nat) (hc : Ready origin c)
    (hd : 0 < c.memory.fenceDepth) (hq : count ≤ c.memory.queue.length) :
    Meets answers (contract authority origin) (fun _ c' => Ready origin c' ∧
      c'.memory.fenceDepth = c.memory.fenceDepth ∧ c'.world.unstarted = c.world.unstarted ∧
      c'.world.submitted = c.world.submitted) (drainPreDispatchEvents count) c := by
  induction count generalizing c with
  | zero => exact Meets.pure ⟨hc, rfl, rfl, rfl⟩
  | succ count ih =>
    refine Meets.read ?_
    split
    next hqueue => simp [hqueue] at hq
    next event rest hqueue =>
      have hlength : count ≤ rest.length := by simpa [hqueue] using hq
      refine Meets.modify (Meets.call (hc.popped hqueue) ?_)
      rintro c' ⟨hc', hr⟩
      have hdepth : c'.memory.fenceDepth = c.memory.fenceDepth := hr.fenceDepth
      refine (ih hc' (hdepth ▸ hd) (hlength.trans (hr.queue hd))).mono ?_
      rintro u c'' ⟨hc'', hdepth', hunstarted, hsubmitted⟩
      exact ⟨hc'', hdepth'.trans hdepth, hunstarted.trans hr.unstarted,
        hsubmitted.trans (hr.submitted hd)⟩

theorem rested_fence {p : Controller Unit} {f : Unit → Controller α} (hc : Calm origin c)
    (hd : c.memory.fenceDepth = 0)
    (hp : ∀ c', Ready origin c' → 0 < c'.memory.fenceDepth → c'.memory.queue = c.memory.queue →
      Meets answers (contract authority origin) (fun _ c'' => Ready origin c'' ∧
        c''.memory.fenceDepth = c'.memory.fenceDepth ∧ c''.world.unstarted = c'.world.unstarted ∧
        c''.world.submitted = c'.world.submitted) p c')
    (hf : ∀ c', Rested origin c c' → Meets answers (contract authority origin) Q (f ()) c') :
    Meets answers (contract authority origin) Q (do
      Code.modify fun r => { r with fenceDepth := r.fenceDepth + 1 }
      p
      Code.modify fun r => { r with fenceDepth := r.fenceDepth - 1 }
      f ()) c := by
  refine Meets.modify ?_
  have hready : Ready origin ⟨{ c.memory with fenceDepth := c.memory.fenceDepth + 1 }, c.world⟩ :=
    ⟨hc.fenced _, by rintro ⟨⟩⟩
  refine (hp _ hready (Nat.succ_pos _) rfl).bind ?_
  rintro u c' ⟨hc', hdepth, hunstarted, hsubmitted⟩
  refine Meets.modify (hf _ ⟨hc'.toCalm.fenced _, ?_, hunstarted, hsubmitted⟩)
  show c'.memory.fenceDepth - 1 = 0
  rw [hdepth, Nat.add_sub_cancel, hd]

theorem Rested.trans {c₀ c₁ c₂ : Situation} (h : Rested origin c₀ c₁) (h' : Rested origin c₁ c₂) :
    Rested origin c₀ c₂ where
  toCalm := h'.toCalm
  depth := h'.depth
  unstarted := h'.unstarted.trans h.unstarted
  submitted := h'.submitted.trans h.submitted

theorem rests_recordDirtyAdmission (effect : DispatchEffect) (hc : Calm origin c)
    (hd : c.memory.fenceDepth = 0) :
    Meets answers (contract authority origin) (fun _ => Rested origin c)
      (recordDirtyAdmission effect) c := by
  refine Meets.last (rested_fence (p := do
    let atMs ← now
    process (.admissionDirtied ⟨← metadata atMs, effect.actionId, (← Code.read).eventGeneration⟩))
    (f := .done) hc hd ?_ fun c' h => Meets.done h)
  intro c' hc' hd' _
  have hmaintains : Maintains authority origin (do
      let atMs ← now
      process (.admissionDirtied
        ⟨← metadata atMs, effect.actionId, (← Code.read).eventGeneration⟩)) := by
    refine maintains_now.bind fun atMs => (maintains_metadata _).bind fun _ => ?_
    exact Sustains.read fun c hc => maintains_process _ c hc
  refine (hmaintains c' hc').mono ?_
  rintro u c'' ⟨hc'', hr⟩
  exact ⟨hc'', hr.fenceDepth, hr.unstarted, hr.submitted hd'⟩

/-- What passes the fence still passes it when the consumer goes on. -/
theorem rests_preDispatchFence (effect : DispatchEffect) (hc : Calm origin c)
    (hd : c.memory.fenceDepth = 0) :
    Meets answers (contract authority origin)
      (fun passes c' => Rested origin c c' ∧
        (passes = true → c'.memory.finalDispatchFencePasses effect = true))
      (preDispatchFence effect) c := by
  refine Meets.perform ⟨hc.sane, hc.once, fun _ => hc.toAlert, trivial⟩ fun u c₁ h => ?_
  have h : Suspends c c₁ := h
  have hrested (c' : Situation) (h' : Rested origin c₁ c') : Rested origin c c' :=
    { h' with
      unstarted := h'.unstarted.trans h.undisturbed.unstarted
      submitted := h'.submitted.trans h.undisturbed.submitted }
  have hdepth : c₁.memory.fenceDepth = 0 := h.undisturbed.fenceDepth.trans hd
  refine rested_fence (p := do drainPreDispatchEvents (← Code.read).queue.length) (f := fun _ => do
    let r ← Code.read
    if r.eventGeneration ≠ effect.admittedEventGeneration then do
      recordDirtyAdmission effect
      pure false
    else pure (r.effectIsCurrent effect)) (h.calm hc) hdepth ?_ ?_
  · intro c' hc' hd' _
    exact Meets.read (maintains_drainPreDispatchEvents _ hc' hd' le_rfl)
  · intro c₂ h₂
    refine Meets.read ?_
    split
    next hgeneration =>
      refine (rests_recordDirtyAdmission effect h₂.toCalm h₂.depth).bind fun u c₃ h₃ => ?_
      exact Meets.pure ⟨hrested c₃ (h₂.trans h₃), by rintro ⟨⟩⟩
    next hgeneration =>
      have heq : c₂.memory.eventGeneration = effect.admittedEventGeneration := by
        simpa using hgeneration
      refine Meets.pure ⟨hrested c₂ h₂, fun hcurrent => ?_⟩
      simp [Runtime.finalDispatchFencePasses, heq, hcurrent]

end Fence

section Starts

theorem Calm.idle (h : Calm origin c) (hd : c.memory.fenceDepth = 0) (hu : c.world.unstarted = []) :
    Idle origin c := ⟨⟨h, fun _ => hu⟩, hd⟩

theorem maintains_rejectDispatch (effect : DispatchEffect) (boundary : String)
    (error : DispatchFailure) :
    Maintains authority origin (rejectDispatch effect boundary error) := by
  refine maintains_now.bind fun _ => (maintains_appendFailure _ _ _ _).bind fun _ => ?_
  exact maintains_now.bind fun _ => (maintains_metadata _).bind fun _ => maintains_process _

theorem idle_discardPrepared (ha : authority = .active) {prepared : PreparedDispatch}
    (hc : Calm origin c) (hd : c.memory.fenceDepth = 0) (hu : c.world.unstarted = [prepared]) :
    Meets answers (contract authority origin) (fun _ c' => Idle origin c')
      (discardPrepared prepared) c := by
  refine Meets.perform
    ⟨hc.sane, hc.once, fun _ => hc.toAlert, ha, by simp [hu]⟩ fun reply c' h => ?_
  have hidle {c₁ : Situation} (h : Suspends c c₁) (abandoned : List PreparedDispatch) :
      Idle origin ⟨c₁.memory, { c₁.world.handOver prepared with abandoned := abandoned }⟩ := by
    have hempty : (c₁.world.handOver prepared).unstarted = [] := by
      simp [Outside.handOver, h.undisturbed.unstarted, hu]
    have hcalm : Calm origin
        ⟨c₁.memory, { c₁.world.handOver prepared with abandoned := abandoned }⟩ :=
      (h.calm hc).requests ((congrArg List.length hempty).le.trans (Nat.zero_le 1))
    exact hcalm.idle (h.undisturbed.fenceDepth.trans hd) hempty
  cases reply with
  | ok u =>
    obtain ⟨c₁, h, rfl⟩ := h
    exact Meets.pure (hidle h c₁.world.abandoned)
  | error error =>
    obtain ⟨c₁, h, rfl⟩ := h
    exact idle_of_maintains (maintains_now.bind fun _ => maintains_appendFailure _ _ _ _)
      (hidle h (prepared :: c₁.world.abandoned))

theorem admitted_of_passes {effect : DispatchEffect}
    (h : c.memory.finalDispatchFencePasses effect = true) :
    ∃ w ∈ c.memory.state.mutators, w.actionId = effect.actionId ∧ w.lifecycle = .admitted ∧
      w.admittedEventGeneration = c.memory.eventGeneration := by
  simp only [Runtime.finalDispatchFencePasses, Runtime.effectIsCurrent, Bool.and_eq_true,
    decide_eq_true_eq, Option.any_eq_true] at h
  obtain ⟨hg, w, hw, ⟨hi, hl⟩, hadmitted⟩ := h
  exact ⟨w, Runtime.worker_mem hw, hi, hl, hadmitted.trans hg.symm⟩

theorem Calm.fresh {effect : DispatchEffect} (hc : Calm origin c)
    (h : c.memory.finalDispatchFencePasses effect = true) :
    effect.actionId ∉ c.world.submitted := by
  intro hmem
  obtain ⟨w, hw, hi, hl, -⟩ := admitted_of_passes h
  exact (hc.resolved _ hmem).launched w hw hi hl

/-- A request is written for a current effect only, and is then the only one. -/
theorem meets_writeDispatchRequest (ha : authority = .active) (effect : DispatchEffect)
    (hc : Idle origin c) (hp : c.memory.finalDispatchFencePasses effect = true) :
    Meets answers (contract authority origin)
      (fun written c' => match written with
        | none => Idle origin c'
        | some prepared => Prepared origin prepared.1 c')
      (writeDispatchRequest effect) c := by
  have rejected {c' : Situation} (error : DispatchFailure) (hc' : Idle origin c') :
      Meets answers (contract authority origin)
        (fun (written : Option { p : PreparedDispatch // p.actionId = effect.actionId }) c' =>
          match written with
          | none => Idle origin c'
          | some prepared => Prepared origin prepared.1 c')
        (do rejectDispatch effect "request_write" error; pure none) c' :=
    (idle_of_maintains (maintains_rejectDispatch effect _ _) hc').bind fun _ _ h => Meets.pure h
  refine Meets.read ?_
  split
  next error herror => exact rejected _ hc
  next context hcontext =>
    have hunstarted := hc.unfenced hc.depth
    refine Meets.perform ⟨hc.sane, hc.once, fun _ => hc.toAlert, ha, hc.depth,
      hunstarted, hc.fresh hp, hp, hcontext⟩ fun reply c' h => ?_
    split
    next error =>
      have h : Suspends c c' := h
      exact rejected _ ⟨h.ready hc.toReady, h.undisturbed.fenceDepth.trans hc.depth⟩
    next prepared =>
      obtain ⟨c₁, h, rfl⟩ : ∃ c₁, Suspends c c₁ ∧
        c' = ⟨c₁.memory, { c₁.world with unstarted := prepared :: c₁.world.unstarted }⟩ := h
      have hc₁ := h.calm hc.toCalm
      have hone : prepared :: c₁.world.unstarted = [prepared] := by
        rw [h.undisturbed.unstarted, hunstarted]
      have hcalm : Calm origin
          ⟨c₁.memory, { c₁.world with unstarted := prepared :: c₁.world.unstarted }⟩ :=
        hc₁.requests (by rw [hone]; rfl)
      have hdepth : c₁.memory.fenceDepth = 0 := h.undisturbed.fenceDepth.trans hc.depth
      split
      next hid =>
        refine Meets.pure ⟨hcalm, hdepth, hone, ?_⟩
        show prepared.actionId ∉ c₁.world.submitted
        rw [hid, h.undisturbed.submitted]
        exact hc.fresh hp
      next hid =>
        refine (idle_discardPrepared ha hcalm hdepth hone).bind fun _ c₂ hc₂ => ?_
        exact rejected _ hc₂

/-- What a started dispatch leaves, by whether nothing was submitted. -/
def StartLeaves (origin : State) (prepared : PreparedDispatch) (outcome : StartOutcome)
    (c : Situation) : Prop :=
  if outcome.unsubmitted then Prepared origin prepared c
  else Unacknowledged origin prepared.actionId c

/-- A start of which only whether the manager got its job is known. -/
structure Undecided (origin : State) (prepared : PreparedDispatch) (submitted : Bool)
    (c : Situation) : Prop extends Alert origin c where
  depth : c.memory.fenceDepth = 0
  unstarted : c.world.unstarted ⊆ [prepared]
  bounded : prepared.actionId.sequence ≤ c.memory.state.actionSequenceHighWater
  resolved : ∀ b ∈ c.world.submitted, b = prepared.actionId ∨ Resolved c.memory.state b
  unsubmitted : submitted = false → Prepared origin prepared c

theorem Suspends.prepared {prepared : PreparedDispatch} (h : Suspends c c')
    (hp : Prepared origin prepared c) : Prepared origin prepared c' where
  toCalm := h.calm hp.toCalm
  depth := h.undisturbed.fenceDepth.trans hp.depth
  unstarted := h.undisturbed.unstarted.trans hp.unstarted
  fresh := h.undisturbed.submitted ▸ hp.fresh

theorem Suspends.undecided {prepared : PreparedDispatch} {submitted : Bool} (h : Suspends c c')
    (hu : Undecided origin prepared submitted c) : Undecided origin prepared submitted c' where
  toAlert := h.alert hu.toAlert
  depth := h.undisturbed.fenceDepth.trans hu.depth
  unstarted := h.undisturbed.unstarted ▸ hu.unstarted
  bounded := h.undisturbed.state ▸ hu.bounded
  resolved := by
    rw [h.undisturbed.submitted, h.undisturbed.state]
    exact hu.resolved
  unsubmitted hf := h.prepared (hu.unsubmitted hf)

theorem Prepared.undecided {prepared : PreparedDispatch} {submitted : Bool}
    (h : Prepared origin prepared c)
    (hb : prepared.actionId.sequence ≤ c.memory.state.actionSequenceHighWater) :
    Undecided origin prepared submitted c where
  toAlert := h.toAlert
  depth := h.depth
  unstarted := by simp [h.unstarted]
  bounded := hb
  resolved b hmem := .inr (h.resolved b hmem)
  unsubmitted _ := h

theorem Undecided.conclude {prepared : PreparedDispatch} {submitted : Bool}
    {outcome : StartOutcome} (h : Undecided origin prepared submitted c)
    (ho : outcome.Allowed submitted) :
    StartLeaves origin prepared outcome ⟨c.memory, c.world.conclude prepared outcome⟩ := by
  unfold StartLeaves Outside.conclude
  split
  next hunsubmitted =>
    refine h.unsubmitted ?_
    cases submitted with
    | false => rfl
    | true =>
      rw [ho.1 rfl] at hunsubmitted
      cases hunsubmitted
  next =>
    have hempty : (c.world.handOver prepared).unstarted = [] := by
      refine List.filter_eq_nil_iff.mpr fun p hp => ?_
      simpa using h.unstarted hp
    exact
      { toAlert := h.toAlert.world rfl rfl rfl h.once (by simp [hempty])
        depth := h.depth
        unstarted := hempty
        bounded := h.bounded
        resolved := h.resolved }

theorem Prepared.submit {prepared : PreparedDispatch} (h : Prepared origin prepared c)
    (hb : prepared.actionId.sequence ≤ c.memory.state.actionSequenceHighWater) :
    Undecided origin prepared true ⟨c.memory, { c.world.handOver prepared with
      submitted := prepared.actionId :: c.world.submitted }⟩ := by
  have hempty : (c.world.handOver prepared).unstarted = [] := by
    simp [Outside.handOver, h.unstarted]
  exact
    { toAlert := h.toAlert.world rfl rfl rfl (List.nodup_cons.mpr ⟨h.fresh, h.once⟩)
        (by simp [hempty])
      depth := h.depth
      unstarted := by simp [hempty]
      bounded := hb
      resolved := fun b hmem => (List.mem_cons.mp hmem).imp_right (h.resolved b)
      unsubmitted := by rintro ⟨⟩ }

/-- A start submits its worker at most once, and only past the final fence. -/
theorem started_start (ha : authority = .active) (effect : DispatchEffect)
    (prepared : { p : PreparedDispatch // p.actionId = effect.actionId })
    (hc : Prepared origin prepared.1 c)
    (hb : prepared.1.actionId.sequence ≤ c.memory.state.actionSequenceHighWater) :
    Meets answers (contract authority origin) (StartLeaves origin prepared.1)
      (start effect prepared) c := by
  refine Meets.perform ⟨hc.sane, hc.once, fun _ => hc.toAlert, ha, hc.depth,
    hc.unstarted⟩ fun reply c' h => ?_
  split
  next outcome =>
    obtain ⟨c₁, h, rfl⟩ : ∃ c₁, Suspends c c₁ ∧
      c' = ⟨c₁.memory, c₁.world.conclude prepared.1 outcome.1⟩ := h
    exact Meets.pure ((h.undecided (hc.undecided hb)).conclude outcome.2)
  next =>
    have h : Suspends c c' := h
    have hc' := h.prepared hc
    have hb' : prepared.1.actionId.sequence ≤ c'.memory.state.actionSequenceHighWater :=
      h.undisturbed.state ▸ hb
    refine Meets.read ?_
    extract_lets passes concluded
    -- What is left once it is known whether the manager got the job.
    have hconcluded (submitted : Bool) (c₂ : Situation)
        (hu : Undecided origin prepared.1 submitted c₂) :
        Meets answers (contract authority origin) (StartLeaves origin prepared.1)
          (concluded submitted) c₂ := by
      refine Meets.perform ⟨hu.sane, hu.once, fun _ => hu.toAlert, ha, hu.depth⟩
        fun outcome c₃ h => Meets.pure ?_
      obtain ⟨c₁, h, rfl⟩ : ∃ c₁, Suspends c₂ c₁ ∧
        c₃ = ⟨c₁.memory, c₁.world.conclude prepared.1 outcome.1⟩ := h
      exact (h.undecided hu).conclude outcome.2
    split
    next hpasses =>
      obtain ⟨w, hw, hi, hl, hg⟩ := admitted_of_passes hpasses
      refine Meets.perform ⟨hc'.sane, hc'.once, fun _ => hc'.toAlert, ha, hc'.depth,
        hc'.unstarted, hc'.fresh, w, hw, hi.trans prepared.2.symm, hl, hg⟩ fun submitted c₂ h => ?_
      have h : c₂ = if submitted then
          ⟨c'.memory, { c'.world.handOver prepared.1 with
            submitted := prepared.1.actionId :: c'.world.submitted }⟩
        else c' := h
      cases submitted with
      | false =>
        obtain rfl : c₂ = c' := h
        exact hconcluded false c₂ (hc'.undecided hb')
      | true =>
        have h : c₂ = ⟨c'.memory, { c'.world.handOver prepared.1 with
            submitted := prepared.1.actionId :: c'.world.submitted }⟩ := h
        subst h
        exact hconcluded true _ (hc'.submit hb')
    next => exact Meets.bind_iff.mpr (Meets.pure (hconcluded false c' (hc'.undecided hb')))

/-- The acknowledgement of the worker settles the dispatch. -/
theorem idle_processDispatched {effect : DispatchEffect}
    {prepared : { p : PreparedDispatch // p.actionId = effect.actionId }}
    (h : Unacknowledged origin prepared.1.actionId c) (startedMs finishedMs : Nat) :
    Meets answers (contract authority origin) (fun _ c' => Idle origin c')
      (processDispatched effect prepared startedMs finishedMs) c := by
  refine Meets.read (Meets.last (Meets.call ?_ ?_))
  · have heard (metadata : EventMetadata) (hu : prepared.1.unit.actionId = effect.actionId) :
        (dispatchedEvent effect prepared.1.unit metadata hu).metadata = metadata ∧
          (dispatchedEvent effect prepared.1.unit metadata hu).dispatched? =
            some prepared.1.unit := by
      cases effect <;> exact ⟨rfl, rfl⟩
    obtain ⟨hmetadata, hheard⟩ := heard ⟨finishedMs, c.memory.state.bootId⟩
      (prepared.1.unit_matches.trans prepared.2)
    exact
      { toSteady := h.toSteady
        attended := h.attended.mono (List.subset_cons_self _ _)
        bounded := by
          intro a ha
          rcases h.resolved a ha with rfl | hr
          · exact h.bounded
          · exact hr.bounded
        owed := by
          intro a ha w hw hi hl
          rcases h.resolved a ha with rfl | hr
          · exact ⟨congrArg EventMetadata.bootId hmetadata, _, hheard, prepared.1.unit_matches⟩
          · exact absurd hl (hr.launched w hw hi)
        unfenced := fun _ => h.unstarted }
  · rintro c' ⟨hc', hr⟩
    exact hc'.idle hr h.depth

variable {effect : DispatchEffect}
  {prepared : { p : PreparedDispatch // p.actionId = effect.actionId }}

theorem idle_acknowledgeDispatch (h : Unacknowledged origin prepared.1.actionId c)
    (startedMs : Nat) :
    Meets answers (contract authority origin) (fun _ c' => Idle origin c')
      (acknowledgeDispatch effect prepared startedMs) c :=
  meets_now h.sane h.once fun _ => idle_processDispatched h _ _

theorem idle_markDispatchUncertain (h : Unacknowledged origin prepared.1.actionId c)
    (boundary : String) (error : DispatchFailure) (startedMs : Nat) :
    Meets answers (contract authority origin) (fun _ c' => Idle origin c')
      (markDispatchUncertain effect prepared boundary error startedMs) c := by
  refine meets_now h.sane h.once fun atMs => ?_
  refine (idle_processDispatched h _ _).bind fun _ c₁ hc₁ => ?_
  exact idle_of_maintains
    ((maintains_processUnknown _ _).bind fun _ => maintains_appendFailure _ _ _ _) hc₁

theorem finishedEvent_error {completion : WorkerCompletion} {metadata : EventMetadata}
    {error : Failure} (hl : completion.terminalLifecycle = .failed)
    (hk : completion.actionId.kind ≠ .plan) (h : finishedEvent completion metadata = .error error) :
    error = ⟨"ValueError", "preparation result lacks its bound plan hash"⟩ := by
  unfold finishedEvent at h
  rw [hl] at h
  dsimp only [ActionLifecycle.outcome] at h
  split at h
  next => cases h
  next => cases h
  next =>
    split at h
    next => cases h; rfl
    next => cases h
  next => cases h
  next hplan => exact absurd hplan hk

theorem idle_completeDefinitelyRejectedStart (ha : authority = .active)
    (h : Unacknowledged origin prepared.1.actionId c) (error : DispatchAdapterError)
    (completion : WorkerCompletion) (startedMs : Nat) :
    Meets answers (contract authority origin) (fun _ c' => Idle origin c')
      (completeDefinitelyRejectedStart effect prepared error completion startedMs) c := by
  unfold completeDefinitelyRejectedStart
  split
  next => exact idle_markDispatchUncertain h _ _ _
  next hcompletion =>
    obtain ⟨hi, hl⟩ : completion.actionId = effect.actionId ∧
        completion.terminalLifecycle = .failed := by
      simpa [not_or] using hcompletion
    refine (idle_acknowledgeDispatch h startedMs).bind fun _ c₁ hc₁ => ?_
    refine meets_now hc₁.sane hc₁.once fun atMs => Meets.read ?_
    dsimp only
    split
    next error herror =>
      exact Meets.raise ⟨ha, finishedEvent_error hl (hi ▸ effect.kind_ne_plan) herror⟩
    next event hevent =>
      exact idle_of_maintains
        ((maintains_process event).bind fun _ => maintains_appendFailure _ _ _ _) hc₁

theorem idle_handleFinalFenceRejection (ha : authority = .active)
    (h : Prepared origin prepared.1 c) :
    Meets answers (contract authority origin) (fun _ c' => Idle origin c')
      (handleFinalFenceRejection effect prepared) c := by
  refine (idle_discardPrepared ha h.toCalm h.depth h.unstarted).bind fun _ c₁ hc₁ => ?_
  refine Meets.read ?_
  split
  · refine (rests_recordDirtyAdmission effect hc₁.toCalm hc₁.depth).mono fun _ c₂ hc₂ => ?_
    exact hc₂.toCalm.idle hc₂.depth (hc₂.unstarted.trans (hc₁.unfenced hc₁.depth))
  · split
    · exact idle_of_maintains (maintains_rejectDispatch _ _ _) hc₁
    · exact Meets.pure hc₁

/-- However a start ends, the consumer is idle again. -/
theorem idle_startPrepared (ha : authority = .active) (h : Prepared origin prepared.1 c)
    (hb : prepared.1.actionId.sequence ≤ c.memory.state.actionSequenceHighWater)
    (startedMs : Nat) :
    Meets answers (contract authority origin) (fun _ c' => Idle origin c')
      (startPrepared effect prepared startedMs) c := by
  refine (started_start ha effect prepared h hb).bind fun outcome c₁ hstarted => ?_
  have unacknowledged (hs : outcome.unsubmitted = false) :
      Unacknowledged origin prepared.1.actionId c₁ := by
    simpa [StartLeaves, hs] using hstarted
  have unsubmitted (hs : outcome.unsubmitted = true) : Prepared origin prepared.1 c₁ := by
    simpa [StartLeaves, hs] using hstarted
  cases outcome with
  | accepted => exact idle_acknowledgeDispatch (unacknowledged rfl) _
  | fenceRejected => exact idle_handleFinalFenceRejection ha (unsubmitted rfl)
  | unexpected result => exact idle_markDispatchUncertain (unacknowledged rfl) _ _ _
  | failed error =>
    cases error with
    | other error => exact idle_markDispatchUncertain (unacknowledged rfl) _ _ _
    | adapter error =>
      dsimp only
      split
      next hnone =>
        have hprepared := unsubmitted (by simp [StartOutcome.unsubmitted, hnone])
        refine (idle_discardPrepared ha hprepared.toCalm hprepared.depth
          hprepared.unstarted).bind fun _ c₂ hc₂ => ?_
        exact idle_of_maintains (maintains_rejectDispatch _ _ _) hc₂
      next completion hsome =>
        exact idle_completeDefinitelyRejectedStart ha
          (unacknowledged (by simp [StartOutcome.unsubmitted, hsome])) _ _ _

end Starts

section Dispatches

theorem maintains_recordNullDispatch (effect : DispatchEffect) :
    Maintains authority origin (recordNullDispatch effect) := by
  refine maintains_now.bind fun _ => (maintains_append _).bind fun _ => ?_
  exact maintains_now.bind fun _ => (maintains_metadata _).bind fun _ => maintains_process _

/-- A dispatch leaves neither a written request nor an unacknowledged worker. -/
theorem idle_dispatch (effect : DispatchEffect) (hc : Idle origin c) :
    Meets answers (contract authority origin) (fun _ c' => Idle origin c')
      (dispatch authority effect) c := by
  refine (rests_preDispatchFence effect hc.toCalm hc.depth).bind ?_
  rintro passes c₁ ⟨hc₁, hpasses⟩
  have hidle : Idle origin c₁ :=
    hc₁.toCalm.idle hc₁.depth (hc₁.unstarted.trans (hc.unfenced hc.depth))
  split
  next htrue =>
    split
    next => exact idle_of_maintains (maintains_recordNullDispatch effect) hidle
    next hshadow =>
      have ha : authority = .active := by
        cases authority with
        | active => rfl
        | shadow => exact absurd rfl hshadow
      refine meets_now hidle.sane hidle.once fun startedMs => ?_
      refine (meets_writeDispatchRequest ha effect hidle (hpasses htrue)).bind ?_
      intro written c₂ hwritten
      split
      next => exact Meets.pure hwritten
      next prepared =>
        have hprepared : Prepared origin prepared.1 c₂ := hwritten
        refine (rests_preDispatchFence effect hprepared.toCalm hprepared.depth).bind ?_
        rintro passes c₃ ⟨hc₃, hpasses⟩
        have hunstarted : c₃.world.unstarted = [prepared.1] :=
          hc₃.unstarted.trans hprepared.unstarted
        split
        next htrue =>
          obtain ⟨w, hw, hi, -, -⟩ := admitted_of_passes (hpasses htrue)
          refine idle_startPrepared ha ⟨hc₃.toCalm, hc₃.depth, hunstarted, ?_⟩ ?_ startedMs
          · rw [hc₃.submitted]
            exact hprepared.fresh
          · exact hi.trans prepared.2.symm ▸ hc₃.sane.worker_bounded hw
        next => exact idle_discardPrepared ha hc₃.toCalm hc₃.depth hunstarted
  next => exact Meets.pure hidle

theorem maintains_dispatchUnfenced (effect : DispatchEffect) :
    Maintains authority origin (dispatchUnfenced authority effect) := by
  refine Sustains.read fun c hc => ?_
  split
  next hd =>
    refine (idle_dispatch effect ⟨hc, hd⟩).mono fun _ c' hc' => ⟨hc'.toReady, ?_⟩
    exact
      { fenceDepth := hc'.depth.trans hd.symm
        unstarted := (hc'.unfenced hc'.depth).trans (hc.unfenced hd).symm
        submitted := fun hpos => absurd hd hpos.ne'
        queue := fun hpos => absurd hd hpos.ne' }
  next => exact Sustains.pure _ c hc

/-- Every effect of the reducer maintains the consumer; it never asks to stop a plan. -/
theorem maintains_handleEffect {effect : Effect}
    (hstop : ∀ a, effect = .stopAction a → a.kind ≠ .plan) :
    Maintains authority origin (handleEffect authority effect) := by
  cases effect with
  | requestObservation reason => exact maintains_requestObservation
  | schedule deadlineMs => exact Sustains.pure _
  | requestPlan request => exact maintains_requestPlan request
  | activateProbe e => exact maintains_dispatchUnfenced _
  | applyProfile e => exact maintains_dispatchUnfenced _
  | prepareDesktop e => exact maintains_dispatchUnfenced _
  | finalizeDesktop e => exact maintains_dispatchUnfenced _
  | stopAction a => exact maintains_stopAction (hstop a rfl)
  | discardPlan a planHash => exact maintains_discardPlan a planHash

end Dispatches

section Consumption

namespace Runtime

variable (r : Runtime)

theorem reconcileWorkerMonitor_eq : ∃ monitors,
    r.reconcileWorkerMonitor = { r with workerMonitors := monitors } := by
  unfold reconcileWorkerMonitor
  split
  · exact ⟨_, rfl⟩
  · exact ⟨_, rfl⟩

end Runtime

theorem generation_adopt (r : Runtime) (e : Event) (state : State) :
    state.eventGeneration ≤ (r.adopt e state).eventGeneration := by
  unfold Runtime.adopt
  cases e with
  | bootChanged b => exact le_rfl
  | _ => exact le_max_right _ _

theorem Ready.arm (h : Ready origin c) :
    Ready origin ⟨c.memory.arm, c.world⟩ ∧ Resumes c ⟨c.memory.arm, c.world⟩ := by
  refine ⟨?_, ⟨rfl, rfl, fun _ => rfl, fun _ => le_rfl⟩⟩
  exact
    { stored := h.stored
      sane := h.sane
      generation := h.generation
      fence := h.fence
      once := h.once
      few := h.few
      armed := armed_arm _
      attended := h.attended.of_eq rfl rfl
      resolved := h.resolved
      unfenced := h.unfenced }

theorem Consumable.resolved {e : Event} {d : Decision} (h : Consumable origin e c)
    (hr : reduce c.memory.state e = .ok d) : ∀ a ∈ c.world.submitted, Resolved d.state a := by
  obtain ⟨-, hstep, -, -⟩ := h.sane.sound.reduces hr
  intro a ha
  by_cases hl : ∃ w ∈ c.memory.state.mutators, w.actionId = a ∧ w.lifecycle = .admitted
  · obtain ⟨w, hw, hi, hl⟩ := hl
    obtain ⟨hboot, u, hu, rfl⟩ := h.owed a ha w hw hi hl
    exact ⟨(h.bounded _ ha).trans hstep.grows.actions.le, h.sane.sound.heard hr hboot hu⟩
  · refine hstep.resolved ⟨h.bounded a ha, fun w hw hi hlw => hl ⟨w, hw, hi, hlw⟩⟩

/-- Once the reduced state is saved and announced, and its deadline and its worker are attended to,
the consumer is ready for the effects. -/
theorem Consumable.adopted {e : Event} {d : Decision} (h : Consumable origin e c)
    (hr : reduce c.memory.state e = .ok d) {w : Outside}
    (hw : Publishes (c.memory.adopt e d.state).eventGeneration
      { c.world with stored := d.state } w) :
    let c' : Situation := ⟨(c.memory.adopt e d.state).arm.reconcileWorkerMonitor, w⟩
    Ready origin c' ∧ Resumes c c' := by
  have hkeeps := hw.keeps
  have hattended := h.attended.adopted h.sane.sound hr
  have hsane : Sane origin d.state := h.sane.reduced hr
  have hgeneration := generation_adopt c.memory e d.state
  obtain ⟨monitors, hm⟩ := (c.memory.adopt e d.state).arm.reconcileWorkerMonitor_eq
  rw [hm] at hattended ⊢
  refine ⟨?_, ⟨rfl, hkeeps.unstarted, fun _ => hkeeps.submitted, fun _ => le_rfl⟩⟩
  exact
    { stored := hkeeps.stored
      sane := hsane
      generation := hgeneration
      fence := hw.published
      once := hkeeps.submitted ▸ h.once
      few := hkeeps.unstarted ▸ h.few
      armed := armed_arm (c.memory.adopt e d.state)
      attended := hattended
      resolved := hkeeps.submitted ▸ h.resolved hr
      unfenced := hkeeps.unstarted ▸ h.unfenced }

/-- The consumption of an event keeps the contract. -/
theorem meets_processEvent (k : Consumption) (hc : Consumable origin k.event c) :
    Meets answers (contract authority origin) (fun _ c' => Ready origin c' ∧ Resumes c c')
      (processEvent authority k) c := by
  refine Meets.read (meets_now hc.sane hc.once fun startedMs => ?_)
  split
  next error herror =>
    refine Meets.raise ⟨k.event, ?_⟩
    rcases hc.sane.sound.reduce_cases k.event with ⟨-, d, hd, -⟩ | ⟨hn, -⟩
    · rw [hd] at herror
      cases herror
    · exact hn
  next d hd =>
    have hsane : Sane origin d.state := hc.sane.reduced hd
    obtain ⟨-, hstep, -, -⟩ := hc.sane.sound.reduces hd
    refine meets_now hc.sane hc.once fun reducedMs => ?_
    refine meets_save hc.sane hc.once hd (meets_now hc.sane hc.once fun atMs => ?_)
    refine Meets.modify (Meets.read ?_)
    refine Meets.perform ⟨hsane, hc.once, by rintro ⟨⟩, rfl⟩ fun u c₁ h => ?_
    obtain ⟨w, hw, rfl⟩ := h
    refine meets_append hsane (hw.keeps.submitted ▸ hc.once) (Meets.modify ?_)
    obtain ⟨hready, hresumes⟩ := hc.adopted hd hw
    refine Sustains.followed (R := Resumes) (I := Ready origin)
      (Sustains.forM fun effect he => ?_) hready fun u c₂ hc₂ hr₂ => ?_
    · refine maintains_handleEffect ?_
      rintro a rfl
      obtain ⟨w, hw, rfl, -⟩ := hstep.stops he
      rcases State.mem_mutators.mp hw with ⟨b, -, rfl⟩ | ⟨b, -, rfl⟩ | ⟨b, -, rfl⟩ | ⟨b, -, rfl⟩
      · simp [b.kind_probe]
      · simp [b.kind_application]
      · simp [b.kind_preparation]
      · simp [b.kind_finalization]
    · obtain ⟨hc₃, hr₃⟩ := hc₂.arm
      refine Meets.last (Meets.modify (Meets.done ⟨hc₃, ?_⟩))
      exact IsTrans.trans (r := Resumes) _ _ _ hresumes (IsTrans.trans (r := Resumes) _ _ _ hr₂ hr₃)

theorem Idle.waiting (h : Idle origin c) : Waiting origin c where
  toSteady := h.toSteady
  armed := h.armed
  attended := h.attended
  resolved := h.resolved
  depth := h.depth
  unstarted := h.unfenced h.depth

theorem meets_serve (hc : Waiting origin c) :
    Meets answers (contract authority origin) (fun (_ : Unit) _ => False) serve c := by
  refine Meets.perform ⟨hc.sane, hc.once, by rintro ⟨⟩, hc⟩ fun event c' h => ?_
  obtain ⟨c₁, rest, h, hqueue, rfl⟩ : ∃ c₁ rest, Suspends c c₁ ∧
    c₁.memory.queue = event :: rest ∧ c' = ⟨{ c₁.memory with queue := rest }, c₁.world⟩ := h
  have hc₁ := h.waiting hc
  refine Meets.call (hc₁.popped hqueue) ?_
  rintro c₂ ⟨hc₂, hr⟩
  have hidle : Idle origin c₂ := ⟨hc₂, hr.fenceDepth.trans hc₁.depth⟩
  exact Meets.last (Meets.call hidle.waiting fun _ hfalse => hfalse.elim)

theorem consumer_meets (i : Call) (c : Situation) (h : (contract authority origin).pre i c) :
    Meets (consumer authority).answers (contract authority origin)
      (fun _ => (contract authority origin).post i c) ((consumer authority).body i) c := by
  cases i with
  | processEvent k => exact meets_processEvent k h
  | serve => exact meets_serve h

end Consumption

end MonitorController
