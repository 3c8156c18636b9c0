import MonitorController.Runtime.Consumer
import MonitorController.Safety.Totality

/-! # The executions of the consumer

Whatever the collaborators answer and the other tasks do meanwhile, and wherever
the process dies: what every execution of the consumer keeps to.
-/

namespace MonitorController

open Procedures Controller

/-- The situation in which the consumer starts: nothing is left of an earlier dispatch, and the
state accounts for the workers which were submitted before. -/
structure Starting (c : Situation) : Prop where
  memory : c.memory = .initial c.memory.state
  sane : Sane c.memory.state c.memory.state
  fence : Published c
  unstarted : c.world.unstarted = []
  once : c.world.submitted.Nodup
  resolved : ∀ a ∈ c.world.submitted, Resolved c.memory.state a

variable {authority : Authority} {α : Type} {c c' : Situation}
  {t : List (Exchange Runtime Outside Request.Reply)}

section Start

theorem Starting.waiting (h : Starting c) {event : Event} : Waiting c.memory.state
    ⟨(c.memory.arm.enqueue event).reconcileWorkerMonitor, c.world⟩ := by
  have hmonitors : c.memory.workerMonitors = [] := by rw [h.memory]; rfl
  have hgeneration : c.memory.eventGeneration = c.memory.state.eventGeneration := by
    rw [h.memory]
    rfl
  have hattended : Attended (c.memory.arm.enqueue event).reconcileWorkerMonitor
      (c.memory.arm.enqueue event).queue := by
    refine attended_reconcile (r := c.memory.arm.enqueue event) h.sane.sound ?_
    intro m hm
    have hm : m ∈ c.memory.workerMonitors := hm
    simp [hmonitors] at hm
  have harmed : Armed (c.memory.arm.enqueue event) :=
    (armed_arm c.memory).mono (List.subset_append_left _ [event])
  obtain ⟨monitors, hr⟩ := (c.memory.arm.enqueue event).reconcileWorkerMonitor_eq
  rw [hr] at hattended ⊢
  exact
    { sane := h.sane
      generation := hgeneration.ge
      fence := h.fence
      once := h.once
      few := by simp [h.unstarted]
      armed := harmed
      attended := hattended
      resolved := h.resolved
      depth := by
        show c.memory.fenceDepth = 0
        rw [h.memory]
        rfl
      unstarted := h.unstarted }

theorem Starting.meets_run (h : Starting c) :
    Meets answers (contract authority c.memory.state) (fun (_ : Unit) _ => False) run c := by
  refine meets_now h.sane h.once fun atMs => Meets.modify ?_
  exact Meets.last (Meets.call h.waiting fun _ hfalse => hfalse.elim)

/-- An execution of the consumer from its start; it may be cut anywhere. -/
abbrev Execution (authority : Authority) (c : Situation)
    (t : List (Exchange Runtime Outside Request.Reply)) (o : Ending Fault Unit) (c' : Situation) :
    Prop := Exec (consumer authority) run c t o c'

variable {o : Ending Fault Unit}

theorem Execution.asks (h : Execution authority c t o c') (hs : Starting c) :
    ∀ x ∈ t, (contract authority c.memory.state).asks x.request x.before :=
  (h.keeps consumer_meets hs.meets_run).1

theorem Execution.ends (h : Execution authority c t o c') (hs : Starting c) :
    (contract authority c.memory.state).Ends (fun (_ : Unit) _ => False) o c' :=
  (h.keeps consumer_meets hs.meets_run).2

end Start

section Histories

/-- The action whose worker a reply confirms to be submitted. -/
def submission : (q : Request) → q.Reply → Option ActionId
  | .submit prepared, submitted => if submitted then some prepared.actionId else none
  | _, _ => none

/-- The actions whose workers were submitted, in their order. -/
def submissions (t : List (Exchange Runtime Outside Request.Reply)) : List ActionId :=
  t.filterMap fun x => submission x.request x.reply

/-- The request which a reply leaves written, and the consumer gives up. -/
def abandonment : (q : Request) → q.Reply → Option PreparedDispatch
  | .discardPrepared prepared, .error _ => some prepared
  | _, _ => none

/-- The requests which could not be discarded, in their order. -/
def abandonments (t : List (Exchange Runtime Outside Request.Reply)) : List PreparedDispatch :=
  t.filterMap fun x => abandonment x.request x.reply

/-- The requests which reach the worker of an action, or its transaction. -/
def Request.acts : Request → Bool
  | .writeRequest _ _ | .approachFence _ | .submit _ | .concludeStart _ _ | .discardPrepared _
  | .stop _ _ | .workerActivity _ | .workerCompletion _ => true
  | _ => false

/-- What a request leaves of the saved state, of the submissions and of the abandoned requests. -/
structure Records (q : Request) (reply : q.Reply) (w w' : Outside) : Prop where
  submitted : w'.submitted = (submission q reply).toList ++ w.submitted
  abandoned : w'.abandoned = (abandonment q reply).toList ++ w.abandoned
  stored : w'.stored = w.stored ∨ q = .save w'.stored

theorem Suspends.records {q : Request} {reply : q.Reply} (h : Suspends c c')
    (hs : submission q reply = none) (ha : abandonment q reply = none) :
    Records q reply c.world c'.world where
  submitted := by rw [hs, h.undisturbed.submitted]; rfl
  abandoned := by rw [ha, h.undisturbed.abandoned]; rfl
  stored := .inl h.undisturbed.stored

theorem Records.conclude {q : Request} {reply : q.Reply} {w w' : Outside}
    (h : Records q reply w w') (prepared : PreparedDispatch) (outcome : StartOutcome) :
    Records q reply w (w'.conclude prepared outcome) := by
  unfold Outside.conclude
  split
  · exact h
  · exact ⟨h.submitted, h.abandoned, h.stored⟩

/-- Only the manager's confirmation submits a worker, only a failed discard abandons a request, and
only a save replaces the saved state. -/
theorem answers_records {q : Request} {reply : q.Reply} (h : answers c q reply c') :
    Records q reply c.world c'.world := by
  cases q with
  | monotonicMs => exact h ▸ ⟨rfl, rfl, .inl rfl⟩
  | append record => exact h ▸ ⟨rfl, rfl, .inl rfl⟩
  | save state =>
    rcases h with rfl | ⟨-, rfl⟩
    · exact ⟨rfl, rfl, .inr rfl⟩
    · exact ⟨rfl, rfl, .inl rfl⟩
  | publish generation =>
    obtain ⟨w, hw, rfl⟩ := h
    exact ⟨hw.keeps.submitted, hw.keeps.abandoned, .inl hw.keeps.stored⟩
  | submit prepared =>
    have h : c' = if reply then
        ⟨c.memory, { c.world.handOver prepared with
          submitted := prepared.actionId :: c.world.submitted }⟩
      else c := h
    cases reply with
    | false => exact h ▸ ⟨rfl, rfl, .inl rfl⟩
    | true => exact h ▸ ⟨rfl, rfl, .inl rfl⟩
  | nextEvent =>
    obtain ⟨c₁, rest, h, -, rfl⟩ := h
    exact h.records rfl rfl
  | writeRequest effect context =>
    cases reply with
    | error error => exact Suspends.records h rfl rfl
    | ok prepared =>
      obtain ⟨c₁, h, rfl⟩ := h
      exact ⟨h.undisturbed.submitted, h.undisturbed.abandoned, .inl h.undisturbed.stored⟩
  | approachFence prepared =>
    cases reply with
    | none => exact Suspends.records h rfl rfl
    | some outcome =>
      obtain ⟨c₁, h, rfl⟩ := h
      exact (h.records rfl rfl).conclude _ _
  | concludeStart prepared submitted =>
    obtain ⟨c₁, h, rfl⟩ := h
    exact (h.records rfl rfl).conclude _ _
  | discardPrepared prepared =>
    cases reply with
    | ok u =>
      obtain ⟨c₁, h, rfl⟩ := h
      exact ⟨h.undisturbed.submitted, h.undisturbed.abandoned, .inl h.undisturbed.stored⟩
    | error error =>
      obtain ⟨c₁, h, rfl⟩ := h
      exact ⟨h.undisturbed.submitted, congrArg (prepared :: ·) h.undisturbed.abandoned,
        .inl h.undisturbed.stored⟩
  | _ => exact Suspends.records h rfl rfl

variable {o : Ending Fault α} {p : Controller α}

theorem recorded_of_exec {β : Type} (f : (q : Request) → q.Reply → Option β)
    (recorded : Outside → List β) (hf : ∀ {c c' : Situation} {q : Request} {reply : q.Reply},
      answers c q reply c' → recorded c'.world = (f q reply).toList ++ recorded c.world)
    (h : Exec (consumer authority) p c t o c') :
    recorded c'.world =
      (t.filterMap fun x => f x.request x.reply).reverse ++ recorded c.world := by
  induction h with
  | cut => rfl
  | done => rfl
  | raise => rfl
  | read h ih => exact ih
  | modify h ih => exact ih
  | @ask _ q r k c c₁ t o c' hr h ih =>
    rw [ih, hf hr]
    cases hs : f q r <;> simp [hs]
  | called hi h ihi ih =>
    rw [ih, ihi]
    simp
  | calledRaised hi ih => exact ih
  | calledCut hi ih => exact ih

theorem submitted_of_exec (h : Exec (consumer authority) p c t o c') :
    c'.world.submitted = (submissions t).reverse ++ c.world.submitted :=
  recorded_of_exec submission Outside.submitted (fun hr => (answers_records hr).submitted) h

/-- The abandoned requests are those which were abandoned before, and those which could not be
discarded since. -/
theorem abandoned_of_exec (h : Exec (consumer authority) p c t o c') :
    c'.world.abandoned = (abandonments t).reverse ++ c.world.abandoned :=
  recorded_of_exec abandonment Outside.abandoned (fun hr => (answers_records hr).abandoned) h

theorem stored_of_exec (h : Exec (consumer authority) p c t o c') :
    c'.world.stored = c.world.stored ∨ ∃ x ∈ t, x.request = .save c'.world.stored := by
  induction h with
  | cut => exact .inl rfl
  | done => exact .inl rfl
  | raise => exact .inl rfl
  | read h ih => exact ih
  | modify h ih => exact ih
  | ask hr h ih =>
    rcases ih with heq | ⟨x, hx, hsave⟩
    · refine (answers_records hr).stored.imp heq.trans fun hsave => ?_
      exact ⟨_, List.mem_cons_self, heq ▸ hsave⟩
    · exact .inr ⟨x, List.mem_cons_of_mem _ hx, hsave⟩
  | called hi h ihi ih =>
    rcases ih with heq | ⟨x, hx, hsave⟩
    · rcases ihi with heqi | ⟨x, hx, hsave⟩
      · exact .inl (heq.trans heqi)
      · exact .inr ⟨x, List.mem_append_left _ hx, heq ▸ hsave⟩
    · exact .inr ⟨x, List.mem_append_right _ hx, hsave⟩
  | calledRaised hi ih => exact ih
  | calledCut hi ih => exact ih

end Histories

theorem Execution.stored_sane {o : Ending Fault Unit} (h : Execution authority c t o c')
    (hs : Starting c) :
    c'.world.stored = c.world.stored ∨ Sane c.memory.state c'.world.stored := by
  refine (stored_of_exec h).imp_right ?_
  rintro ⟨⟨before, q, reply, after⟩, hx, rfl⟩
  obtain ⟨hsane, -, -, e, es, hr⟩ := h.asks hs _ hx
  exact hsane.reduced hr

theorem Execution.submitted_nodup {o : Ending Fault Unit} (h : Execution authority c t o c')
    (hs : Starting c) : c'.world.submitted.Nodup := by
  rcases h.world with hw | ⟨⟨before, q, reply, after⟩, hx, hw⟩
  · exact hw ▸ hs.once
  · rw [hw, (answers_records (h.answered _ hx)).submitted]
    obtain ⟨-, honce, -, hpermitted⟩ := h.asks hs _ hx
    cases q with
    | submit prepared =>
      obtain ⟨-, -, -, hfresh, -⟩ := hpermitted
      cases reply with
      | false => exact honce
      | true => exact List.nodup_cons.mpr ⟨hfresh, honce⟩
    | _ => exact honce

namespace Scenario

def written (actionId : ActionId) : PreparedDispatch where
  actionId := actionId
  unit := ⟨actionId, laptop⟩
  reference := laptop
  unit_matches := rfl
  hashed := by simp

/-- What becomes of a dispatch: its worker runs until it fails, the fence rejects it, its start is
in doubt, or the monitor is plugged in while its worker runs. -/
inductive Course where
  | accepts | rejects | doubts | plugs
  deriving DecidableEq

theorem dark_accepted : (dark laptop laptop 1 0).Accepted := by decide

/-- The sample after the first hint: the monitor is there, or another topology. -/
def second (course : Course) : ObservationFields :=
  { if course = .plugs then plugged laptop laptop 2 1000 else dark dock dock 2 1000 with
    beginEventGeneration := 1
    endEventGeneration := 1 }

theorem second_accepted (course : Course) : (second course).Accepted := by
  cases course <;> decide

theorem accepted_allowed : StartOutcome.accepted.Allowed true := by
  simp [StartOutcome.Allowed, StartOutcome.unsubmitted]

theorem lost_allowed : (StartOutcome.unexpected "lost").Allowed true := by
  simp [StartOutcome.Allowed, StartOutcome.unsubmitted]

theorem fenceRejected_allowed : StartOutcome.fenceRejected.Allowed false := by
  simp [StartOutcome.Allowed]

def failure (actionId : ActionId) : WorkerCompletion where
  actionId := actionId
  terminalLifecycle := .failed
  exitStatus := 1
  terminal := rfl
  status_bound := by decide
  status_completed := by decide

/-- The monitor of a running worker reports its failure, or else a hint arrives. -/
def awakened (course : Course) (c : Situation) : Event × Situation :=
  match course, c.memory.workerMonitors with
  | .accepts, [⟨actionId, unit, deadlineMs, bootId, true⟩] =>
    let monitor : WorkerMonitor := ⟨actionId, unit, deadlineMs, bootId, true⟩
    (monitorReport monitor 0 (.inactive (some (failure actionId))),
      ⟨{ c.memory with queue := [], workerMonitors := [{ monitor with running := false }] },
        c.world⟩)
  | _, _ =>
    (.drmHintReceived ⟨⟨0, c.memory.state.bootId⟩, c.memory.eventGeneration + 1⟩,
      ⟨{ c.memory.notifyDrmHint 0 with queue := [] },
        { c.world with fence := none, stale := false }⟩)

/-- An environment in which the panel is dark, and every other request succeeds, but for the discard
of a written request. -/
def obliging (course : Course) (c : Situation) : (q : Request) → q.Reply × Situation
  | .monotonicMs => (0, c)
  | .save state => (.ok (), ⟨c.memory, { c.world with stored := state }⟩)
  | .publish generation =>
    ((), ⟨c.memory, { c.world with fence := some generation, stale := false }⟩)
  | .nextEvent =>
    match c.memory.queue with
    | event :: rest => (event, ⟨{ c.memory with queue := rest }, c.world⟩)
    | [] => awakened course c
  | .observe =>
    if c.memory.eventGeneration = 1 then (.ok ⟨second course, second_accepted course⟩, c)
    else (.ok ⟨dark laptop laptop 1 0, dark_accepted⟩, c)
  | .writeRequest effect _ =>
    (.ok (written effect.actionId),
      ⟨c.memory, { c.world with unstarted := written effect.actionId :: c.world.unstarted }⟩)
  | .approachFence prepared =>
    if course = .rejects then
      (some ⟨.fenceRejected, fenceRejected_allowed⟩,
        ⟨c.memory, c.world.conclude prepared .fenceRejected⟩)
    else (none, c)
  | .submit prepared =>
    (true, ⟨c.memory, { c.world.handOver prepared with
      submitted := prepared.actionId :: c.world.submitted }⟩)
  | .concludeStart prepared true =>
    if course = .doubts then
      (⟨.unexpected "lost", lost_allowed⟩,
        ⟨c.memory, c.world.conclude prepared (.unexpected "lost")⟩)
    else
      (⟨.accepted, accepted_allowed⟩,
        ⟨c.memory, c.world.conclude prepared .accepted⟩)
  | .concludeStart prepared false =>
    (⟨.fenceRejected, fenceRejected_allowed⟩,
      ⟨c.memory, c.world.conclude prepared .fenceRejected⟩)
  | .discardPrepared prepared =>
    (.error ⟨"OSError", "request is busy"⟩, ⟨c.memory, c.world.giveUp prepared⟩)
  | .append _ | .revokePlan _ _ | .discardPlan _ _ | .stop _ _ => (.ok (), c)
  | .sleep | .waitTask _ => ((), c)
  | .workerActivity _ => (.ok (.inl .inactive), c)
  | .workerCompletion _ => (.ok none, c)

theorem answers_awakened (course : Course) {c : Situation} (hq : c.memory.queue = []) :
    answers c .nextEvent (awakened course c).1 (awakened course c).2 := by
  unfold awakened
  split
  next _ actionId unit deadlineMs bootId hm =>
    refine ⟨_, [], .single (.reported c [] [] ⟨actionId, unit, deadlineMs, bootId, true⟩ 0
      (.inactive (some (failure actionId))) rfl hm), ?_, rfl⟩
    simp [Runtime.enqueue, hq]
  next =>
    refine ⟨_, [], .single (.hint c 0 _ .withdrawn), ?_, rfl⟩
    simp [Runtime.notifyDrmHint, Runtime.enqueue, hq]

theorem answers_obliging (course : Course) (c : Situation) (q : Request) :
    answers c q (obliging course c q).1 (obliging course c q).2 := by
  have here : Suspends c c := .refl
  cases q with
  | monotonicMs => rfl
  | append record => rfl
  | save state => exact .inl rfl
  | publish generation => exact ⟨_, .replaced, rfl⟩
  | nextEvent =>
    cases hq : c.memory.queue with
    | cons event rest => simp only [obliging, hq]; exact ⟨c, rest, here, hq, rfl⟩
    | nil =>
      simp only [obliging, hq]
      exact answers_awakened course hq
  | writeRequest effect context => exact ⟨c, here, rfl⟩
  | submit prepared => rfl
  | approachFence prepared => cases course <;> first | exact here | exact ⟨c, here, rfl⟩
  | concludeStart prepared submitted =>
    cases submitted <;> cases course <;> exact ⟨c, here, rfl⟩
  | discardPrepared prepared => exact ⟨c, here, rfl⟩
  | observe =>
    simp only [obliging]
    split <;> exact here
  | _ => exact here

def launch : Situation := ⟨.initial fresh, { stored := fresh, fence := none }⟩

theorem launch_starting : Starting launch where
  memory := rfl
  sane := fresh_reachable.sound.sane
  fence := .inr (.inl rfl)
  unstarted := rfl
  once := .nil
  resolved := by simp [launch]

/-- The execution of the service from there, until its first dispatches have ended. -/
def launched (authority : Authority) (course : Course) :
    List (Exchange Runtime Outside Request.Reply) × Ending Fault Unit × Situation :=
  simulate (consumer authority).body (obliging course) 68 run launch

theorem launched_execution (authority : Authority) (course : Course) :
    Execution authority launch (launched authority course).1 (launched authority course).2.1
      (launched authority course).2.2 :=
  exec_simulate (answers_obliging course) _ run launch

theorem launched_doubts :
    let t := (launched .active .doubts).1
    (t.any fun x => x.request.external) = true ∧
    (t.any fun x => x.request matches .writeRequest _ _) = true ∧
    (t.any fun x => x.request matches .submit _) = true ∧
    (t.any fun x => x.request matches .stop _ _) = true ∧
    (t.any fun x => x.before.memory.state.phase ≠ fresh.phase) = true ∧
    submissions t = [load] ∧
    (launched .active .doubts).2.2.world.stored.phase ≠ fresh.phase := by decide +kernel

theorem launched_accepts :
    let t := (launched .active .accepts).1
    (t.any fun x => x.request matches .nextEvent &&
      x.before.memory.state.mutators.any (·.lifecycle = .dispatched)) = true ∧
    (t.any fun x => x.request matches .nextEvent && x.before.world.fence ≠ none) = true ∧
    (submissions t).map (·.sequence) = [1, 2] := by decide +kernel

theorem launched_rejects :
    let t := (launched .active .rejects).1
    (t.any fun x => x.request matches .discardPrepared _) = true ∧
    (t.any fun x => x.request matches .nextEvent && x.before.world.abandoned ≠ []) = true ∧
    (abandonments t).map (·.actionId.sequence) = [1, 2] := by decide +kernel

end Scenario

section Guarantees

open Scenario

variable {o : Ending Fault Unit}

/-- No effect is performed on a state which is not saved. -/
theorem effects_follow_save (hs : Starting c) (h : Execution authority c t o c') :
    ∀ x ∈ t, x.request.external = true → x.before.world.stored = x.before.memory.state := by
  intro x hx hexternal
  obtain ⟨-, -, halert, -⟩ := h.asks hs x hx
  exact (halert hexternal).stored

theorem effects_follow_save_launched :
    (∀ x ∈ (launched .active .doubts).1, x.request.external = true →
      x.before.world.stored = x.before.memory.state) ∧
    ((launched .active .doubts).1.any fun x => x.request.external) = true :=
  ⟨effects_follow_save launch_starting (launched_execution .active .doubts), launched_doubts.1⟩

/-- The consumer runs the reducer: whenever it asks for anything, reductions have led from the state
which it started with to the one in memory. -/
theorem consumer_runs_reducer (hs : Starting c) (h : Execution authority c t o c') :
    ∀ x ∈ t, Descends c.memory.state x.before.memory.state := by
  intro x hx
  obtain ⟨hsane, -⟩ := h.asks hs x hx
  exact hsane.descends

theorem consumer_runs_reducer_launched :
    (∀ x ∈ (launched .active .doubts).1, Descends fresh x.before.memory.state) ∧
    ((launched .active .doubts).1.any fun x => x.before.memory.state.phase ≠ fresh.phase) = true :=
  ⟨consumer_runs_reducer launch_starting (launched_execution .active .doubts),
    launched_doubts.2.2.2.2.1⟩

/-- Wherever the process dies, the file holds what it held, or a sound state to which reductions
have led from the one which the consumer started with. -/
theorem crash_leaves_reduced_state (hs : Starting c) (h : Execution authority c t o c') :
    c'.world.stored = c.world.stored ∨
      Descends c.memory.state c'.world.stored ∧ Sound c'.world.stored :=
  (h.stored_sane hs).imp_right fun hsane => ⟨hsane.descends, hsane.sound⟩

theorem crash_leaves_reduced_state_launched :
    ((launched .active .doubts).2.2.world.stored = fresh ∨
      Descends fresh (launched .active .doubts).2.2.world.stored ∧
        Sound (launched .active .doubts).2.2.world.stored) ∧
    (launched .active .doubts).2.2.world.stored.phase ≠ fresh.phase :=
  ⟨crash_leaves_reduced_state launch_starting (launched_execution .active .doubts),
    launched_doubts.2.2.2.2.2.2⟩

/-- Whenever the consumer waits, no dispatched worker is unsupervised and no deadline is lost: a
worker's monitor runs or has reported, and the deadline of the state is armed or has fired. -/
theorem waits_supervised (hs : Starting c) (h : Execution authority c t o c') :
    ∀ x ∈ t, x.request.external = true ∨ x.request = .nextEvent →
      Armed x.before.memory ∧ Attended x.before.memory x.before.memory.queue := by
  rintro ⟨before, q, reply, after⟩ hx hq
  obtain ⟨-, -, halert, hpermitted⟩ := h.asks hs _ hx
  rcases hq with hexternal | rfl
  · exact ⟨(halert hexternal).armed, (halert hexternal).attended⟩
  · exact ⟨hpermitted.armed, hpermitted.attended⟩

theorem waits_supervised_launched :
    (∀ x ∈ (launched .active .accepts).1, x.request.external = true ∨ x.request = .nextEvent →
      Armed x.before.memory ∧ Attended x.before.memory x.before.memory.queue) ∧
    ((launched .active .accepts).1.any fun x => x.request matches .nextEvent &&
      x.before.memory.state.mutators.any (·.lifecycle = .dispatched)) = true :=
  ⟨waits_supervised launch_starting (launched_execution .active .accepts), launched_accepts.1⟩

/-- No action is submitted twice, not even when its start has an uncertain end. -/
theorem submits_once (hs : Starting c) (h : Execution authority c t o c') :
    (submissions t).Nodup ∧ ∀ a ∈ submissions t, a ∉ c.world.submitted := by
  have hnodup := h.submitted_nodup hs
  rw [submitted_of_exec h, List.nodup_append] at hnodup
  obtain ⟨hsubmissions, -, hdisjoint⟩ := hnodup
  exact ⟨List.nodup_reverse.mp hsubmissions,
    fun a ha hmem => hdisjoint a (List.mem_reverse.mpr ha) a hmem rfl⟩

theorem submits_once_launched :
    (((submissions (launched .active .accepts).1).Nodup ∧
        ∀ a ∈ submissions (launched .active .accepts).1, a ∉ launch.world.submitted) ∧
      (submissions (launched .active .accepts).1).map (·.sequence) = [1, 2]) ∧
    ((submissions (launched .active .doubts).1).Nodup ∧
      ∀ a ∈ submissions (launched .active .doubts).1, a ∉ launch.world.submitted) ∧
    submissions (launched .active .doubts).1 = [load] :=
  ⟨⟨submits_once launch_starting (launched_execution .active .accepts), launched_accepts.2.2⟩,
    submits_once launch_starting (launched_execution .active .doubts), launched_doubts.2.2.2.2.2.1⟩

/-- A unit is stopped only while the saved state is stopping its worker, and with the outcome which
that state has decided. -/
theorem stops_as_saved (hs : Starting c) (h : Execution authority c t o c') :
    ∀ x ∈ t, ∀ a lifecycle, x.request = .stop a lifecycle →
      ∃ w ∈ x.before.world.stored.mutators, w.actionId = a ∧ w.lifecycle = .stopping ∧
        lifecycle = w.terminalAfterStop.getD .cancelled := by
  rintro ⟨before, q, reply, after⟩ hx a lifecycle rfl
  obtain ⟨-, -, halert, -, hstopping⟩ := h.asks hs _ hx
  exact (halert rfl).stored ▸ hstopping

theorem stops_as_saved_launched :
    (∀ x ∈ (launched .active .doubts).1, ∀ a lifecycle, x.request = .stop a lifecycle →
      ∃ w ∈ x.before.world.stored.mutators, w.actionId = a ∧ w.lifecycle = .stopping ∧
        lifecycle = w.terminalAfterStop.getD .cancelled) ∧
    ((launched .active .doubts).1.any fun x => x.request matches .stop _ _) = true :=
  ⟨stops_as_saved launch_starting (launched_execution .active .doubts), launched_doubts.2.2.2.1⟩

/-- A request is discarded only while no worker was started for it. -/
theorem discards_unstarted (hs : Starting c) (h : Execution authority c t o c') :
    ∀ x ∈ t, ∀ prepared, x.request = .discardPrepared prepared →
      prepared ∈ x.before.world.unstarted := by
  rintro ⟨before, q, reply, after⟩ hx prepared rfl
  obtain ⟨-, -, -, -, hunstarted⟩ := h.asks hs _ hx
  exact hunstarted

theorem discards_unstarted_launched :
    (∀ x ∈ (launched .active .rejects).1, ∀ prepared, x.request = .discardPrepared prepared →
      prepared ∈ x.before.world.unstarted) ∧
    ((launched .active .rejects).1.any fun x => x.request matches .discardPrepared _) = true :=
  ⟨discards_unstarted launch_starting (launched_execution .active .rejects), launched_rejects.1⟩

/-- The finalizer's fence never shows an old generation while the consumer waits, unless its last
publication could neither replace nor remove it, and the generation which was announced last is
never behind the state's. -/
theorem announces_generation (hs : Starting c) (h : Execution authority c t o c') :
    ∀ x ∈ t, x.request.external = true ∨ x.request = .nextEvent →
      Published x.before ∧
      x.before.memory.state.eventGeneration ≤ x.before.memory.eventGeneration := by
  rintro ⟨before, q, reply, after⟩ hx hq
  obtain ⟨-, -, halert, hpermitted⟩ := h.asks hs _ hx
  rcases hq with hexternal | rfl
  · exact ⟨(halert hexternal).fence, (halert hexternal).generation⟩
  · exact ⟨hpermitted.fence, hpermitted.generation⟩

theorem announces_generation_launched :
    (∀ x ∈ (launched .active .accepts).1, x.request.external = true ∨ x.request = .nextEvent →
      Published x.before ∧
      x.before.memory.state.eventGeneration ≤ x.before.memory.eventGeneration) ∧
    ((launched .active .accepts).1.any fun x => x.request matches .nextEvent &&
      x.before.world.fence ≠ none) = true :=
  ⟨announces_generation launch_starting (launched_execution .active .accepts),
    launched_accepts.2.1⟩

/-- The shadow service never reaches for a worker, and submits none. -/
theorem shadow_never_acts (hs : Starting c) (h : Execution .shadow c t o c') :
    (∀ x ∈ t, x.request.acts = false) ∧ c'.world.submitted = c.world.submitted := by
  have hacts : ∀ x ∈ t, x.request.acts = false := by
    rintro ⟨before, q, reply, after⟩ hx
    obtain ⟨-, -, -, hpermitted⟩ := h.asks hs _ hx
    cases q with
    | writeRequest effect context => cases hpermitted.1
    | approachFence prepared => cases hpermitted.1
    | submit prepared => cases hpermitted.1
    | concludeStart prepared submitted => cases hpermitted.1
    | discardPrepared prepared => cases hpermitted.1
    | stop a lifecycle => cases hpermitted.1
    | workerActivity unit => cases hpermitted
    | workerCompletion unit => cases hpermitted
    | _ => rfl
  refine ⟨hacts, ?_⟩
  have hnone : submissions t = [] := by
    refine List.filterMap_eq_nil_iff.mpr ?_
    rintro ⟨before, q, reply, after⟩ hx
    have hq := hacts _ hx
    cases q with
    | submit prepared => cases hq
    | _ => rfl
  rw [submitted_of_exec h, hnone]
  rfl

theorem shadow_never_acts_launched :
    ((∀ x ∈ (launched .shadow .accepts).1, x.request.acts = false) ∧
      (launched .shadow .accepts).2.2.world.submitted = launch.world.submitted) ∧
    ((launched .shadow .accepts).1.any fun x =>
      x.request matches .append (.wouldDispatch _)) = true :=
  ⟨shadow_never_acts launch_starting (launched_execution .shadow .accepts), by decide +kernel⟩

/-- The consumer ends by an exception only: of the reducer, on an event which it cannot answer, of
the state store, of the audit log, or over a preparation which failed without its plan hash. -/
theorem consumer_ends (hs : Starting c) (h : Execution authority c t o c') :
    (∀ u, o ≠ .returned u) ∧
    (∀ error, o = .raised (.reduction error) → ∃ e, Unanswerable c'.memory.state e) ∧
    ∀ error, o = .raised (.failure error) → authority = .active ∧
      error = ⟨"ValueError", "preparation result lacks its bound plan hash"⟩ := by
  have hends := h.ends hs
  refine ⟨?_, ?_, ?_⟩
  · rintro u rfl
    exact hends
  · rintro error rfl
    exact hends
  · rintro error rfl
    exact hends

theorem consumer_ends_launched :
    ((∀ u, (launched .active .plugs).2.1 ≠ .returned u) ∧
      (∀ error, (launched .active .plugs).2.1 = .raised (.reduction error) →
        ∃ e, Unanswerable (launched .active .plugs).2.2.memory.state e) ∧
      ∀ error, (launched .active .plugs).2.1 = .raised (.failure error) →
        Authority.active = .active ∧
          error = ⟨"ValueError", "preparation result lacks its bound plan hash"⟩) ∧
    ((launched .active .plugs).2.1 matches .raised (.reduction _)) = true :=
  ⟨consumer_ends launch_starting (launched_execution .active .plugs), by decide +kernel⟩

end Guarantees

end MonitorController
