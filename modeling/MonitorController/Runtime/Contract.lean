import MonitorController.Runtime.Supervision
import MonitorController.Safety.Freshness

/-! # The contract of the consumer

What the consumer relies on whenever it waits, what the other tasks leave alone
meanwhile, and what holds when it asks its collaborators for anything.
-/

namespace MonitorController

open Procedures

/-- The states which the reducer reaches from a state. -/
abbrev Descends (origin : State) : State → Prop := Runs.Reachable (· = origin) Reduces

/-- What every state keeps which the controller reaches from the state it starts with. -/
structure Sane (origin s : State) : Prop where
  sound : Sound s
  bounded : ∀ a ∈ s.actionIds, a.sequence ≤ s.actionSequenceHighWater
  descends : Descends origin s

theorem Sound.sane {s : State} (h : Sound s) : Sane s s where
  sound := h
  bounded a ha := by
    obtain ⟨r, hr, rfl⟩ := List.mem_map.mp ha
    exact (h.identities.known hr).bounded
  descends := .start rfl

theorem Sane.reduced {origin s : State} {e : Event} {d : Decision} (h : Sane origin s)
    (hr : reduce s e = .ok d) : Sane origin d.state := by
  obtain ⟨-, hstep, -, hsound⟩ := h.sound.reduces hr
  have hext := hstep.grows.actions
  refine ⟨hsound, fun a ha => ?_, h.descends.move ⟨hr, rfl⟩⟩
  by_cases hold : a ∈ s.actionIds
  · exact (h.bounded a hold).trans hext.le
  · exact (hext.fresh a ha hold).2

theorem Sane.worker_bounded {origin s : State} (h : Sane origin s) {w : WorkerAction}
    (hw : w ∈ s.mutators) :
    w.actionId.sequence ≤ s.actionSequenceHighWater := by
  refine h.bounded _ ?_
  rw [State.mem_actionIds]
  rcases State.mem_mutators.mp hw with ⟨a, ha, rfl⟩ | ⟨a, ha, rfl⟩ | ⟨a, ha, rfl⟩ | ⟨a, ha, rfl⟩
  all_goals simp_all

/-- The state is announced, and at most one request awaits its worker. -/
structure Steady (origin : State) (c : Situation) : Prop where
  sane : Sane origin c.memory.state
  generation : c.memory.state.eventGeneration ≤ c.memory.eventGeneration
  fence : Published c
  once : c.world.submitted.Nodup
  few : c.world.unstarted.length ≤ 1

/-- The state is saved, its deadline is armed and its workers are supervised. -/
structure Alert (origin : State) (c : Situation) : Prop extends Steady origin c where
  stored : c.world.stored = c.memory.state
  armed : Armed c.memory
  attended : Attended c.memory c.memory.queue

/-- Every submitted worker is acknowledged. -/
structure Calm (origin : State) (c : Situation) : Prop extends Alert origin c where
  resolved : ∀ a ∈ c.world.submitted, Resolved c.memory.state a

/-- No request awaits its worker unless a fence is drained. -/
structure Ready (origin : State) (c : Situation) : Prop extends Calm origin c where
  unfenced : c.memory.fenceDepth = 0 → c.world.unstarted = []

/-- The consumer waits for an event. The state it starts with need not be saved. -/
structure Waiting (origin : State) (c : Situation) : Prop extends Steady origin c where
  armed : Armed c.memory
  attended : Attended c.memory c.memory.queue
  resolved : ∀ a ∈ c.world.submitted, Resolved c.memory.state a
  depth : c.memory.fenceDepth = 0
  unstarted : c.world.unstarted = []

/-- The event may be consumed: it accounts for a report of its own, and for a submitted worker
which is not acknowledged yet. -/
structure Consumable (origin : State) (e : Event) (c : Situation) : Prop
    extends Steady origin c where
  attended : Attended c.memory (e :: c.memory.queue)
  bounded : ∀ a ∈ c.world.submitted, a.sequence ≤ c.memory.state.actionSequenceHighWater
  owed : ∀ a ∈ c.world.submitted, ∀ w ∈ c.memory.state.mutators, w.actionId = a →
    w.lifecycle = .admitted → e.metadata.bootId = c.memory.state.bootId ∧
      ∃ u, e.dispatched? = some u ∧ u.actionId = a
  unfenced : c.memory.fenceDepth = 0 → c.world.unstarted = []

/-- Where the consumer goes on: a drained fence starts nothing and forgets no event. -/
structure Resumes (c c' : Situation) : Prop where
  fenceDepth : c'.memory.fenceDepth = c.memory.fenceDepth
  unstarted : c'.world.unstarted = c.world.unstarted
  submitted : 0 < c.memory.fenceDepth → c'.world.submitted = c.world.submitted
  queue : 0 < c.memory.fenceDepth → c.memory.queue.length ≤ c'.memory.queue.length

instance : IsPreorder Situation Resumes where
  refl _ := ⟨rfl, rfl, fun _ => rfl, fun _ => le_rfl⟩
  trans _ _ _ h h' :=
    { fenceDepth := h'.fenceDepth.trans h.fenceDepth
      unstarted := h'.unstarted.trans h.unstarted
      submitted := fun hd => (h'.submitted (h.fenceDepth ▸ hd)).trans (h.submitted hd)
      queue := fun hd => (h.queue hd).trans (h'.queue (h.fenceDepth ▸ hd)) }

/-- What the other tasks leave alone. -/
structure Undisturbed (c c' : Situation) : Prop where
  state : c'.memory.state = c.memory.state
  fenceDepth : c'.memory.fenceDepth = c.memory.fenceDepth
  queue : c.memory.queue <+: c'.memory.queue
  generation : c.memory.eventGeneration ≤ c'.memory.eventGeneration
  stored : c'.world.stored = c.world.stored
  unstarted : c'.world.unstarted = c.world.unstarted
  abandoned : c'.world.abandoned = c.world.abandoned
  submitted : c'.world.submitted = c.world.submitted

/-- What a publication leaves alone. -/
structure Publishes.Keeps (w w' : Outside) : Prop where
  stored : w'.stored = w.stored
  unstarted : w'.unstarted = w.unstarted
  abandoned : w'.abandoned = w.abandoned
  submitted : w'.submitted = w.submitted

section Interference

variable {origin : State} {c c' : Situation}

theorem Publishes.keeps {generation : EventGeneration} {w w' : Outside}
    (h : Publishes generation w w') : Publishes.Keeps w w' := by
  cases h <;> exact ⟨rfl, rfl, rfl, rfl⟩

theorem Publishes.published {w w' : Outside} {r : Runtime}
    (h : Publishes r.eventGeneration w w') : Published ⟨r, w'⟩ := by
  cases h with
  | replaced => exact .inr (.inr rfl)
  | withdrawn => exact .inr (.inl rfl)
  | failed => exact .inl rfl

theorem Interferes.undisturbed (h : Interferes c c') : Undisturbed c c' := by
  cases h with
  | hint nowMs w hw =>
    have hkeeps := hw.keeps
    exact ⟨rfl, rfl, List.prefix_append _ _, Nat.le_succ _, hkeeps.stored, hkeeps.unstarted,
      hkeeps.abandoned, hkeeps.submitted⟩
  | planned before after task nowMs created ht =>
    exact ⟨rfl, rfl, List.prefix_append _ _, le_rfl, rfl, rfl, rfl, rfl⟩
  | planCancelled before after task hc ht =>
    exact ⟨rfl, rfl, List.prefix_rfl, le_rfl, rfl, rfl, rfl, rfl⟩
  | reported before after monitor nowMs sighting hr hm =>
    exact ⟨rfl, rfl, List.prefix_append _ _, le_rfl, rfl, rfl, rfl, rfl⟩
  | fired deadlineMs nowMs bootId hs hn =>
    exact ⟨rfl, rfl, List.prefix_append _ _, le_rfl, rfl, rfl, rfl, rfl⟩

theorem Interferes.fence (h : Interferes c c') (hf : Published c) : Published c' := by
  cases h with
  | hint nowMs w hw => exact hw.published
  | _ => exact hf

theorem Suspends.undisturbed (h : Suspends c c') : Undisturbed c c' := by
  induction h with
  | refl => exact ⟨rfl, rfl, List.prefix_rfl, le_rfl, rfl, rfl, rfl, rfl⟩
  | tail _ h ih =>
    have h := h.undisturbed
    exact ⟨h.state.trans ih.state, h.fenceDepth.trans ih.fenceDepth, ih.queue.trans h.queue,
      ih.generation.trans h.generation, h.stored.trans ih.stored, h.unstarted.trans ih.unstarted,
      h.abandoned.trans ih.abandoned, h.submitted.trans ih.submitted⟩

theorem Suspends.steady (h : Suspends c c') (hs : Steady origin c) : Steady origin c' := by
  induction h with
  | refl => exact hs
  | tail _ h ih =>
    have hu := h.undisturbed
    exact
      { sane := hu.state ▸ ih.sane
        generation := hu.state ▸ ih.generation.trans hu.generation
        fence := h.fence ih.fence
        once := hu.submitted ▸ ih.once
        few := hu.unstarted ▸ ih.few }

theorem Suspends.armed (h : Suspends c c') (ha : Armed c.memory) : Armed c'.memory := by
  induction h with
  | refl => exact ha
  | tail _ h ih => exact h.armed ih

theorem Suspends.attended (h : Suspends c c') (ha : Attended c.memory c.memory.queue) :
    Attended c'.memory c'.memory.queue := by
  induction h with
  | refl => exact ha
  | tail _ h ih => exact h.attended ih

theorem Suspends.resolved (h : Suspends c c')
    (hr : ∀ a ∈ c.world.submitted, Resolved c.memory.state a) :
    ∀ a ∈ c'.world.submitted, Resolved c'.memory.state a := by
  rw [h.undisturbed.submitted, h.undisturbed.state]
  exact hr

theorem Suspends.alert (h : Suspends c c') (ha : Alert origin c) : Alert origin c' where
  toSteady := h.steady ha.toSteady
  stored := by rw [h.undisturbed.stored, h.undisturbed.state, ha.stored]
  armed := h.armed ha.armed
  attended := h.attended ha.attended

theorem Suspends.waiting (h : Suspends c c') (hw : Waiting origin c) : Waiting origin c' where
  toSteady := h.steady hw.toSteady
  armed := h.armed hw.armed
  attended := h.attended hw.attended
  resolved := h.resolved hw.resolved
  depth := h.undisturbed.fenceDepth.trans hw.depth
  unstarted := h.undisturbed.unstarted.trans hw.unstarted

theorem Suspends.calm (h : Suspends c c') (hc : Calm origin c) : Calm origin c' where
  toAlert := h.alert hc.toAlert
  resolved := h.resolved hc.resolved

theorem Suspends.ready (h : Suspends c c') (hr : Ready origin c) : Ready origin c' where
  toCalm := h.calm hr.toCalm
  unfenced := by
    rw [h.undisturbed.fenceDepth, h.undisturbed.unstarted]
    exact hr.unfenced

theorem Suspends.resumes (h : Suspends c c') : Resumes c c' where
  fenceDepth := h.undisturbed.fenceDepth
  unstarted := h.undisturbed.unstarted
  submitted _ := h.undisturbed.submitted
  queue _ := h.undisturbed.queue.length_le

theorem Steady.consumable {e : Event} {queue : List Event} (h : Steady origin c)
    (hr : ∀ a ∈ c.world.submitted, Resolved c.memory.state a)
    (hu : c.memory.fenceDepth = 0 → c.world.unstarted = [])
    (ha : Attended c.memory (e :: queue)) :
    Consumable origin e ⟨{ c.memory with queue := queue }, c.world⟩ where
  sane := h.sane
  generation := h.generation
  fence := h.fence
  once := h.once
  few := h.few
  attended := ha.of_eq rfl rfl
  bounded a hmem := (hr a hmem).bounded
  owed a hmem w hw hi hl := absurd hl ((hr a hmem).launched w hw hi)
  unfenced := hu

theorem Ready.consumable (h : Ready origin c) (e : Event) : Consumable origin e c :=
  h.toSteady.consumable h.resolved h.unfenced (h.attended.mono (List.subset_cons_self _ _))

theorem Ready.popped {event : Event} {rest : List Event} (h : Ready origin c)
    (hq : c.memory.queue = event :: rest) :
    Consumable origin event ⟨{ c.memory with queue := rest }, c.world⟩ :=
  h.toSteady.consumable h.resolved h.unfenced (hq ▸ h.attended)

theorem Waiting.popped {event : Event} {rest : List Event} (h : Waiting origin c)
    (hq : c.memory.queue = event :: rest) :
    Consumable origin event ⟨{ c.memory with queue := rest }, c.world⟩ :=
  h.toSteady.consumable h.resolved (fun _ => h.unstarted) (hq ▸ h.attended)

end Interference

/-- The requests with which the consumer performs the effects. -/
def Request.external : Request → Bool
  | .monotonicMs | .save _ | .publish _ | .append _ | .nextEvent => false
  | _ => true

/-- What holds when the consumer makes a request. -/
def Permitted (authority : Authority) (origin : State) (c : Situation) : Request → Prop
  | .save state => ∃ e es, reduce c.memory.state e = .ok ⟨state, es⟩
  | .publish generation => generation = c.memory.eventGeneration
  | .nextEvent => Waiting origin c
  | .writeRequest effect context => authority = .active ∧ c.memory.fenceDepth = 0 ∧
      c.world.unstarted = [] ∧ effect.actionId ∉ c.world.submitted ∧
      c.memory.finalDispatchFencePasses effect = true ∧
      workerRequestContext c.memory.state effect = .ok context
  | .approachFence prepared => authority = .active ∧ c.memory.fenceDepth = 0 ∧
      c.world.unstarted = [prepared]
  | .submit prepared => authority = .active ∧ c.memory.fenceDepth = 0 ∧
      c.world.unstarted = [prepared] ∧ prepared.actionId ∉ c.world.submitted ∧
      ∃ w ∈ c.memory.state.mutators, w.actionId = prepared.actionId ∧ w.lifecycle = .admitted ∧
        w.admittedEventGeneration = c.memory.eventGeneration
  | .concludeStart _ _ => authority = .active ∧ c.memory.fenceDepth = 0
  | .discardPrepared prepared => authority = .active ∧ prepared ∈ c.world.unstarted
  | .stop actionId lifecycle => authority = .active ∧ ∃ w ∈ c.memory.state.mutators,
      w.actionId = actionId ∧ w.lifecycle = .stopping ∧
        lifecycle = w.terminalAfterStop.getD .cancelled
  | .workerActivity _ | .workerCompletion _ => authority = .active
  | _ => True

/-- The contract of the consumer which has started with a state. -/
def contract (authority : Authority) (origin : State) :
    Contract Runtime Outside Call Request Fault where
  pre
    | .processEvent k, c => Consumable origin k.event c
    | .serve, c => Waiting origin c
  post
    | .processEvent _, c, c' => Ready origin c' ∧ Resumes c c'
    | .serve, _, _ => False
  asks q c := Sane origin c.memory.state ∧ c.world.submitted.Nodup ∧
    (q.external = true → Alert origin c) ∧ Permitted authority origin c q
  raises
    | .reduction _, c => ∃ e, Unanswerable c.memory.state e
    | .persistence _, _ | .audit _, _ => True
    | .failure e, _ => authority = .active ∧
        e = ⟨"ValueError", "preparation result lacks its bound plan hash"⟩

end MonitorController
