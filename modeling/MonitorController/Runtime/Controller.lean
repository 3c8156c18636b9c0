import MonitorController.Foundation.Procedures
import MonitorController.Reducer.Reduce
import MonitorController.Runtime.Audit
import MonitorController.Runtime.Dispatch
import Mathlib.Logic.Relation

/-! # The serialized controller

One task consumes the events: it reduces, persists the state and then performs
the effects, some of which are events again. While it waits for an adapter the
other tasks announce hints, report workers and plans, and fire the deadline;
they never touch the state.
-/

namespace MonitorController

open Procedures Procedures.Code

/-- The production dispatcher, or the `NullDispatcher` of the shadow service. -/
inductive Authority where
  | active | shadow
  deriving DecidableEq

/-- A planning task; a cancelled one may still finish. -/
structure PlanningTask where
  request : RequestPlan
  bootId : BootId
  cancelled : Bool := false

/-- A worker monitor; it stays in the table when it has reported. -/
structure WorkerMonitor where
  actionId : ActionId
  unit : WorkerUnit
  deadlineMs : Nat
  bootId : BootId
  running : Bool := true

/-- The memory of the controller, with its queue and its scheduler. -/
structure Runtime where
  state : State
  queue : List Event := []
  eventGeneration : EventGeneration
  fenceDepth : Nat := 0
  planningTasks : List PlanningTask := []
  workerMonitors : List WorkerMonitor := []
  pendingBootObservation : Option (CanonicalObservation × Nat) := none
  scheduled : Option (Nat × BootId) := none

/-- What outlives the process: the saved state, the event-generation fence of the finalizer and
whether its last publication could neither replace nor remove it, the written requests whose worker
was not started yet, those which were given up since they could not be discarded, and the actions
whose worker was submitted. -/
structure Outside where
  stored : State
  fence : Option EventGeneration
  stale : Bool := false
  unstarted : List PreparedDispatch := []
  abandoned : List PreparedDispatch := []
  submitted : List ActionId := []

/-- The state `SerializedController` is constructed in. -/
def Runtime.initial (state : State) : Runtime where
  state := state
  eventGeneration := state.eventGeneration

/-! ## The environment -/

/-- `_run_plan`, from the reply of `create_plan`; a plan for other inputs is refused. -/
def planOutcome (task : PlanningTask) (nowMs : Nat)
    (created : Except (Failure × Bool) (PlanningInputKey × PlanHash)) : Event :=
  let request := task.request
  let failed (error : Failure) (retryable : Bool) : Event :=
    .planFailed
      { metadata := ⟨nowMs, task.bootId⟩
        actionId := request.actionId
        inputKey := request.inputKey
        reason := exceptionDetail error
        retryable := retryable
        kind_plan := request.kind_plan }
  match created with
  | .error (error, retryable) => failed error retryable
  | .ok (inputKey, planHash) =>
    if request.inputKey ≠ inputKey then
      failed ⟨"ValueError", "planner completion changed its exact admitted input key"⟩ false
    else .planCompleted ⟨⟨nowMs, task.bootId⟩, request.actionId, inputKey, planHash, request.kind_plan⟩

/-- What a worker monitor learns. -/
inductive Sighting (deadlineMs nowMs : Nat) where
  | overdue (due : deadlineMs ≤ nowMs)
  | unowned
  | inactive (completion : Option WorkerCompletion)
  | unexpected (activity : String)
  | failed (error : Failure)

/-- `_monitor_worker`: the one event with which it ends. -/
def monitorReport (monitor : WorkerMonitor) (nowMs : Nat) :
    Sighting monitor.deadlineMs nowMs → Event :=
  let metadata : EventMetadata := ⟨nowMs, monitor.bootId⟩
  let unknown (reason : Text) : Event := .workerStatusUnknown ⟨metadata, monitor.actionId, reason⟩
  fun
  | .overdue due =>
    .workerTimedOut ⟨metadata, monitor.actionId, monitor.deadlineMs, false, fun _ => due⟩
  | .unowned => unknown ⟨"supervisor: null dispatcher cannot own an acknowledged worker", rfl⟩
  | .inactive none => unknown ⟨"supervisor: worker inactive without an exact result", rfl⟩
  | .inactive (some completion) =>
    if completion.actionId ≠ monitor.actionId then
      unknown ⟨"supervisor: terminal result action identity differs", rfl⟩
    else
      match completionEvent completion metadata monitor.deadlineMs with
      | .ok event => event
      | .error error => unknown (boundedReason "worker_query" (exceptionDetail error).value)
  | .unexpected activity =>
    unknown (boundedReason "worker_query" ("unexpected worker activity: " ++ activity))
  | .failed error => unknown (boundedReason "worker_query" (exceptionDetail error).value)

abbrev Situation := Config Runtime Outside

namespace Runtime

variable (r : Runtime)

/-- `put_nowait`. -/
def enqueue (event : Event) : Runtime := { r with queue := r.queue ++ [event] }

/-- `notify_drm_hint`, less the publication of the generation. -/
def notifyDrmHint (nowMs : Nat) : Runtime :=
  let generation := r.eventGeneration + 1
  { r with eventGeneration := generation }.enqueue
    (.drmHintReceived ⟨⟨nowMs, r.state.bootId⟩, generation⟩)

end Runtime

/-- `GenerationFencePublisher.publish`; a fence which cannot be replaced is withdrawn, as far as
that is possible. -/
inductive Publishes (generation : EventGeneration) (w : Outside) : Outside → Prop
  | replaced : Publishes generation w { w with fence := some generation, stale := false }
  | withdrawn : Publishes generation w { w with fence := none, stale := false }
  | failed : Publishes generation w { w with stale := true }

/-- The finalizer finds the announced generation or no fence, unless the last publication failed. -/
def Published (c : Situation) : Prop :=
  c.world.stale = true ∨ c.world.fence = none ∨ c.world.fence = some c.memory.eventGeneration

/-- What the other tasks do while the consumer waits. -/
inductive Interferes : Situation → Situation → Prop
  | hint (c : Situation) (nowMs : Nat) (w)
    (hw : Publishes (c.memory.notifyDrmHint nowMs).eventGeneration c.world w) :
    Interferes c ⟨c.memory.notifyDrmHint nowMs, w⟩
  | planned (c : Situation) (before after task) (nowMs : Nat) (created)
    (ht : c.memory.planningTasks = before ++ task :: after) :
    Interferes c
      ⟨{ c.memory with planningTasks := before ++ after }.enqueue
        (planOutcome task nowMs created), c.world⟩
  | planCancelled (c : Situation) (before after task) (hc : task.cancelled = true)
    (ht : c.memory.planningTasks = before ++ task :: after) :
    Interferes c ⟨{ c.memory with planningTasks := before ++ after }, c.world⟩
  | reported (c : Situation) (before after monitor) (nowMs : Nat) (sighting)
    (hr : monitor.running = true) (hm : c.memory.workerMonitors = before ++ monitor :: after) :
    Interferes c
      ⟨{ c.memory with
          workerMonitors := before ++ { monitor with running := false } :: after }.enqueue
        (monitorReport monitor nowMs sighting), c.world⟩
  | fired (c : Situation) (deadlineMs nowMs : Nat) (bootId)
    (hs : c.memory.scheduled = some (deadlineMs, bootId)) (hn : deadlineMs ≤ nowMs) :
    Interferes c
      ⟨{ c.memory with scheduled := none }.enqueue (.timerFired ⟨⟨nowMs, bootId⟩, deadlineMs⟩),
        c.world⟩

/-- The configurations at the two ends of an `await`. -/
abbrev Suspends : Situation → Situation → Prop := Relation.ReflTransGen Interferes

/-- How `ActionDispatcher.start` ends. -/
inductive StartOutcome where
  | accepted
  | fenceRejected
  | unexpected (result : String)
  | failed (error : DispatchFailure)

/-- The outcomes which guarantee that nothing was submitted. -/
def StartOutcome.unsubmitted : StartOutcome → Bool
  | .fenceRejected => true
  | .failed (.adapter error) => error.completion.isNone
  | _ => false

/-- The outcomes of a start, by whether it has submitted. -/
def StartOutcome.Allowed (submitted : Bool) (outcome : StartOutcome) : Prop :=
  (submitted = true → outcome.unsubmitted = false) ∧ (outcome = .accepted → submitted = true)

/-- What the consumer asks of its collaborators. -/
inductive Request where
  | monotonicMs
  | save (state : State)
  | publish (generation : EventGeneration)
  | append (record : AuditAppend)
  | sleep
  | nextEvent
  | observe
  | revokePlan (actionId : ActionId) (planHash : Option PlanHash)
  | discardPlan (actionId : ActionId) (planHash : Option PlanHash)
  | waitTask (actionId : ActionId)
  | writeRequest (effect : DispatchEffect) (context : WorkerRequestContext)
  | approachFence (prepared : PreparedDispatch)
  | submit (prepared : PreparedDispatch)
  | concludeStart (prepared : PreparedDispatch) (submitted : Bool)
  | discardPrepared (prepared : PreparedDispatch)
  | stop (actionId : ActionId) (terminalLifecycle : ActionLifecycle)
  | workerActivity (unit : WorkerUnit)
  | workerCompletion (unit : WorkerUnit)

/-- The replies, an exception being one of them. The first part of a start may end it before the
final fence; `submit` follows the fence at once and says whether the manager got the job. -/
abbrev Request.Reply : Request → Type
  | .monotonicMs => Nat
  | .save _ | .append _ | .revokePlan _ _ | .discardPlan _ _ | .stop _ _ => Except Failure Unit
  | .publish _ | .sleep | .waitTask _ => Unit
  | .nextEvent => Event
  | .observe => Except Failure CanonicalObservation
  | .writeRequest _ _ => Except DispatchFailure PreparedDispatch
  | .approachFence _ => Option { outcome : StartOutcome // outcome.Allowed false }
  | .submit _ => Bool
  | .concludeStart _ submitted => { outcome : StartOutcome // outcome.Allowed submitted }
  | .discardPrepared _ => Except Failure Unit
  | .workerActivity _ => Except Failure (WorkerActivity ⊕ String)
  | .workerCompletion _ => Except Failure (Option WorkerCompletion)

namespace Outside

variable (w : Outside)

def handOver (prepared : PreparedDispatch) : Outside :=
  { w with unstarted := w.unstarted.filter (· ≠ prepared) }

/-- A request which could not be discarded may stay written, and is forgotten. -/
def giveUp (prepared : PreparedDispatch) : Outside :=
  { w.handOver prepared with abandoned := prepared :: w.abandoned }

/-- A start which may have submitted hands the request over. -/
def conclude (prepared : PreparedDispatch) (outcome : StartOutcome) : Outside :=
  if outcome.unsubmitted then w else w.handOver prepared

end Outside

/-- The replies of the collaborators. What they do to the world they do within the reply; a failed
save may or may not have replaced the state. -/
def answers (c : Situation) : (q : Request) → q.Reply → Situation → Prop
  | .monotonicMs, _, c' | .append _, _, c' => c' = c
  | .save state, reply, c' =>
    c' = ⟨c.memory, { c.world with stored := state }⟩ ∨ (∃ e, reply = .error e) ∧ c' = c
  | .publish generation, _, c' => ∃ w, Publishes generation c.world w ∧ c' = ⟨c.memory, w⟩
  | .submit prepared, submitted, c' =>
    c' = if submitted then
        ⟨c.memory, { c.world.handOver prepared with
          submitted := prepared.actionId :: c.world.submitted }⟩
      else c
  | .nextEvent, event, c' => ∃ c₁ rest, Suspends c c₁ ∧ c₁.memory.queue = event :: rest ∧
      c' = ⟨{ c₁.memory with queue := rest }, c₁.world⟩
  | .writeRequest _ _, .ok prepared, c' => ∃ c₁, Suspends c c₁ ∧
      c' = ⟨c₁.memory, { c₁.world with unstarted := prepared :: c₁.world.unstarted }⟩
  | .approachFence prepared, some outcome, c' => ∃ c₁, Suspends c c₁ ∧
      c' = ⟨c₁.memory, c₁.world.conclude prepared outcome.1⟩
  | .concludeStart prepared _, outcome, c' => ∃ c₁, Suspends c c₁ ∧
      c' = ⟨c₁.memory, c₁.world.conclude prepared outcome.1⟩
  | .discardPrepared prepared, .ok (), c' => ∃ c₁, Suspends c c₁ ∧
      c' = ⟨c₁.memory, c₁.world.handOver prepared⟩
  | .discardPrepared prepared, .error _, c' => ∃ c₁, Suspends c c₁ ∧
      c' = ⟨c₁.memory, c₁.world.giveUp prepared⟩
  | _, _, c' => Suspends c c'

/-! ## The consumer -/

/-- What ends the consumer: the exception of the reducer, of the state store, of the audit log, or
one of its own. -/
inductive Fault where
  | reduction (error : ControllerError)
  | persistence (error : Failure)
  | audit (error : Failure)
  | failure (error : Failure)

/-- An event with the durations which its audit record repeats. -/
structure Consumption where
  event : Event
  observationDurationMs : Option Nat := none
  commandDurationMs : Option Nat := none

/-- The recursive procedures: `_process_event`, and the loop of `run`. -/
inductive Call where
  | processEvent (c : Consumption)
  | serve

abbrev Controller := Code Runtime Call Request.Reply Fault

namespace Controller

def ask (q : Request) : Controller q.Reply := perform q

def save (state : State) : Controller Unit := do
  match ← ask (.save state) with
  | .ok () => pure ()
  | .error error => .raise (.persistence error)

def append (record : AuditAppend) : Controller Unit := do
  match ← ask (.append record) with
  | .ok () => pure ()
  | .error error => .raise (.audit error)

/-- `_audit.append_runtime_failure`. -/
def appendFailure (boundary : String) (detail : Text) (recordedAtMs : Nat)
    (actionId : Option ActionId) : Controller Unit :=
  append (.runtimeFailure boundary detail.value recordedAtMs (actionId.map (·.value)))

def now : Controller Nat := ask .monotonicMs

def process (event : Event) : Controller Unit := call (.processEvent { event })

/-- `EventMetadata` of an event which the consumer makes itself. -/
def metadata (atMs : Nat) : Controller EventMetadata := do
  pure ⟨atMs, (← read).state.bootId⟩

end Controller

open Controller

namespace Runtime

variable (r : Runtime)

/-- `_scheduler.arm` of the state's deadline. -/
def arm : Runtime :=
  { r with scheduled := r.state.nextTimerMs.map fun deadline => (deadline, r.state.bootId) }

def expectedMonitor : Option WorkerMonitor :=
  r.state.mutators.findSome? fun w =>
    match w.lifecycle, w.unit, w.workerDeadlineMs with
    | .dispatched, some unit, some deadlineMs =>
      some { actionId := w.actionId, unit, deadlineMs, bootId := r.state.bootId }
    | _, _, _ => none

def reconcileWorkerMonitor : Runtime :=
  match r.expectedMonitor with
  | none => { r with workerMonitors := [] }
  | some expected =>
    let kept := r.workerMonitors.filter (·.actionId = expected.actionId)
    { r with workerMonitors := if kept = [] then [expected] else kept }

/-- The reduced state becomes authoritative, and its generation is never announced again. -/
def adopt (event : Event) (state : State) : Runtime :=
  { r with
    state := state
    eventGeneration :=
      match event with
      | .bootChanged _ => state.eventGeneration
      | _ => max r.eventGeneration state.eventGeneration }

def worker (kind : ActionKind) : Option WorkerAction :=
  match kind with
  | .probe => r.state.probe.map (·.toWorkerAction)
  | .application => r.state.application.map (·.toWorkerAction)
  | .preparation => r.state.preparation.map (·.toWorkerAction)
  | .finalization => r.state.finalization.map (·.toWorkerAction)
  | .plan => none

def effectIsCurrent (effect : DispatchEffect) : Bool :=
  (r.worker effect.actionId.kind).any fun w =>
    w.actionId = effect.actionId && w.lifecycle = .admitted &&
      w.admittedEventGeneration = effect.admittedEventGeneration

def finalDispatchFencePasses (effect : DispatchEffect) : Bool :=
  r.eventGeneration = effect.admittedEventGeneration && r.effectIsCurrent effect

/-- `_planning_tasks[action_id]`. -/
def plans (actionId : ActionId) : Bool := r.planningTasks.any (·.request.actionId = actionId)

/-- `task.cancel()`. -/
def cancelPlanning (actionId : ActionId) : Runtime :=
  { r with
    planningTasks := r.planningTasks.map fun task =>
      if task.request.actionId = actionId then { task with cancelled := true } else task }

end Runtime

section Effects

/-- `_request_observation`; an observation of another boot waits until the boot has changed. -/
def requestObservation : Controller Unit := do
  let pending := (← read).pendingBootObservation
  modify fun r => { r with pendingBootObservation := none }
  let startedMs ← now
  let observed ← match pending with
    | some (observation, durationMs) => pure (some (observation, durationMs, startedMs))
    | none => do
      match ← ask .observe with
      | .error error => do
        let finishedMs := max startedMs (← now)
        let reason := boundedReason "observation" (exceptionDetail error).value
        appendFailure "observation" reason finishedMs none
        call (.processEvent
          { event := .observationFailed ⟨← metadata finishedMs, reason⟩
            observationDurationMs := some (finishedMs - startedMs) })
        pure none
      | .ok observation => do
        let finishedMs := max startedMs (← now)
        pure (some (observation, finishedMs - startedMs, finishedMs))
  match observed with
  | none => pure ()
  | some (observation, durationMs, finishedMs) => do
    let bootId := (← read).state.bootId
    if h : bootId ≠ observation.bootId then do
      modify fun r => { r with pendingBootObservation := some (observation, durationMs) }
      process (.bootChanged ⟨⟨finishedMs, observation.bootId⟩, bootId, h⟩)
    else
      call (.processEvent
        { event := .observationCompleted ⟨⟨finishedMs, observation.bootId⟩, observation, rfl⟩
          observationDurationMs := some durationMs })

def requestPlan (request : RequestPlan) : Controller Unit := do
  if (← read).plans request.actionId then pure ()
  else do
    process (.planRequested
      ⟨← metadata (← now), request.actionId, request.inputKey, request.kind_plan⟩)
    let r ← read
    if r.state.planning.any fun p => p.actionId = request.actionId && p.lifecycle = .dispatched then
      modify fun r =>
        { r with planningTasks := r.planningTasks ++ [{ request, bootId := r.state.bootId }] }
    else pure ()

/-- `_discard_plan`: the publication is revoked before its task is cancelled. -/
def discardPlan (actionId : ActionId) (planHash : Option PlanHash) : Controller Unit := do
  match ← ask (.revokePlan actionId planHash) with
  | .error error => appendFailure "revoke_plan" (exceptionDetail error) (← now) (some actionId)
  | .ok () => do
    if (← read).plans actionId then do
      modify (·.cancelPlanning actionId)
      ask (.waitTask actionId)
    match ← ask (.discardPlan actionId planHash) with
    | .error error => appendFailure "discard_plan" (exceptionDetail error) (← now) (some actionId)
    | .ok () => pure ()

/-- The worker's status is unknown for a reason which the consumer saw itself. -/
def processUnknown (actionId : ActionId) (reason : Text) : Controller Unit := do
  process (.workerStatusUnknown ⟨← metadata (← now), actionId, reason⟩)

/-- The end of `_stop_action`, once the manager has been asked to stop the unit. -/
def confirmStopped (actionId : ActionId) (unit : WorkerUnit) : Controller Unit := do
  let unknown (boundary : String) (error : Failure) : Controller Unit :=
    processUnknown actionId (boundedReason boundary (exceptionDetail error).value)
  match ← ask (.workerActivity unit) with
  | .error error => unknown "query_after_stop" error
  | .ok (.inr activity) =>
    processUnknown actionId
      (boundedReason "query_after_stop" ("unexpected worker activity: " ++ activity))
  | .ok (.inl .active) => pure ()
  | .ok (.inl .inactive) => do
    let lacking : Text := ⟨"result_after_stop: inactive worker lacks its exact result", rfl⟩
    match ← ask (.workerCompletion unit) with
    | .error error => unknown "result_after_stop" error
    | .ok none => processUnknown actionId lacking
    | .ok (some completion) =>
      if completion.actionId ≠ actionId then processUnknown actionId lacking
      else
        process (.workerCancellationAcknowledged
          { metadata := ← metadata (← now)
            actionId := actionId
            terminalLifecycle := completion.terminalLifecycle
            exitStatus := completion.exitStatus
            terminal := completion.terminal
            status_bound := completion.status_bound
            status_completed := completion.status_completed })

/-- `_stop_action`; only the display workers are looked up. -/
def stopAction (authority : Authority) (actionId : ActionId) : Controller Unit := do
  if authority = .shadow then
    processUnknown actionId ⟨"null dispatcher cannot prove worker inactivity or outcome", rfl⟩
  else if actionId.kind = .plan then .raise (.failure ⟨"KeyError", "ActionKind.PLAN"⟩)
  else
    match (← read).worker actionId.kind with
    | none => pure ()
    | some w =>
      match w.unit with
      | none => pure ()
      | some unit =>
        if w.actionId ≠ actionId ∨ w.lifecycle ≠ .stopping then pure ()
        else
          match ← ask (.stop actionId (w.terminalAfterStop.getD .cancelled)) with
          | .error error =>
            processUnknown actionId (boundedReason "stop" (exceptionDetail error).value)
          | .ok () => confirmStopped actionId unit

end Effects

section Dispatch

def recordDirtyAdmission (effect : DispatchEffect) : Controller Unit := do
  modify fun r => { r with fenceDepth := r.fenceDepth + 1 }
  let atMs ← now
  process (.admissionDirtied
    ⟨← metadata atMs, effect.actionId, (← read).eventGeneration⟩)
  modify fun r => { r with fenceDepth := r.fenceDepth - 1 }

/-- `_drain_pre_dispatch_events`: as many events as were queued at first. -/
def drainPreDispatchEvents : Nat → Controller Unit
  | 0 => pure ()
  | count + 1 => do
    match (← read).queue with
    | [] => .raise (.failure ⟨"QueueEmpty", ""⟩)
    | event :: rest => do
      modify fun r => { r with queue := rest }
      process event
      drainPreDispatchEvents count

def preDispatchFence (effect : DispatchEffect) : Controller Bool := do
  ask .sleep
  modify fun r => { r with fenceDepth := r.fenceDepth + 1 }
  drainPreDispatchEvents (← read).queue.length
  modify fun r => { r with fenceDepth := r.fenceDepth - 1 }
  let r ← read
  if r.eventGeneration ≠ effect.admittedEventGeneration then do
    recordDirtyAdmission effect
    pure false
  else pure (r.effectIsCurrent effect)

def rejectDispatch (effect : DispatchEffect) (boundary : String) (error : DispatchFailure) :
    Controller Unit := do
  let reason := match error with
    | .adapter error => error.text
    | .other error => boundedReason boundary (exceptionDetail error).value
  appendFailure boundary reason (← now) (some effect.actionId)
  process (.dispatchRejected ⟨← metadata (← now), effect.actionId, reason⟩)

def discardPrepared (prepared : PreparedDispatch) : Controller Unit := do
  match ← ask (.discardPrepared prepared) with
  | .ok () => pure ()
  | .error error =>
    appendFailure "prepared_request_cleanup" (exceptionDetail error) (← now)
      (some prepared.actionId)

/-- `_write_dispatch_request`; the returned request is for the action. -/
def writeDispatchRequest (effect : DispatchEffect) :
    Controller (Option { p : PreparedDispatch // p.actionId = effect.actionId }) := do
  match workerRequestContext (← read).state effect with
  | .error error => do
    rejectDispatch effect "request_write" (.other error)
    pure none
  | .ok context =>
    match ← ask (.writeRequest effect context) with
    | .error error => do
      rejectDispatch effect "request_write" error
      pure none
    | .ok prepared =>
      if h : prepared.actionId = effect.actionId then pure (some ⟨prepared, h⟩)
      else do
        discardPrepared prepared
        rejectDispatch effect "request_write"
          (.other ⟨"ValueError", "prepared request has a different action ID"⟩)
        pure none

variable (effect : DispatchEffect) (prepared : { p : PreparedDispatch // p.actionId = effect.actionId })

/-- The acknowledgement of the worker, and its identity in an uncertain start. -/
def processDispatched (startedMs finishedMs : Nat) : Controller Unit := do
  call (.processEvent
    { event := dispatchedEvent effect prepared.1.unit (← metadata finishedMs)
        (prepared.1.unit_matches.trans prepared.2)
      commandDurationMs := some (finishedMs - startedMs) })

def acknowledgeDispatch (startedMs : Nat) : Controller Unit := do
  processDispatched effect prepared startedMs (max startedMs (← now))

/-- `_mark_dispatch_uncertain`: the exclusion is persisted before any diagnostic. -/
def markDispatchUncertain (boundary : String) (error : DispatchFailure) (startedMs : Nat) :
    Controller Unit := do
  let reason := boundedReason boundary error.exceptionDetail.value
  let finishedMs := max startedMs (← now)
  processDispatched effect prepared startedMs finishedMs
  processUnknown effect.actionId reason
  appendFailure boundary reason finishedMs (some effect.actionId)

def completeDefinitelyRejectedStart (error : DispatchAdapterError) (completion : WorkerCompletion)
    (startedMs : Nat) : Controller Unit := do
  if completion.actionId ≠ effect.actionId ∨ completion.terminalLifecycle ≠ .failed then
    markDispatchUncertain effect prepared "unit_start_terminal_result" (.adapter error) startedMs
  else do
    acknowledgeDispatch effect prepared startedMs
    let finishedMs := max startedMs (← now)
    match finishedEvent completion (← metadata finishedMs) with
    | .error error => .raise (.failure error)
    | .ok event => do
      process event
      appendFailure "unit_start" error.text finishedMs (some effect.actionId)

def handleFinalFenceRejection : Controller Unit := do
  discardPrepared prepared.1
  let r ← read
  if r.eventGeneration ≠ effect.admittedEventGeneration then recordDirtyAdmission effect
  else if r.effectIsCurrent effect then
    rejectDispatch effect "unit_start"
      (.other ⟨"RuntimeError", "adapter rejected a passing final fence"⟩)
  else pure ()

/-- `ActionDispatcher.start`: between a passing fence and the submission nothing waits. -/
def start : Controller StartOutcome := do
  match ← ask (.approachFence prepared.1) with
  | some outcome => pure outcome.1
  | none => do
    let passes := (← read).finalDispatchFencePasses effect
    let submitted ← if passes then ask (.submit prepared.1) else pure false
    pure (← ask (.concludeStart prepared.1 submitted)).1

/-- `_start_prepared` and `_handle_start_result`. -/
def startPrepared (startedMs : Nat) : Controller Unit := do
  match ← start effect prepared with
  | .accepted => acknowledgeDispatch effect prepared startedMs
  | .fenceRejected => handleFinalFenceRejection effect prepared
  | .unexpected result =>
    markDispatchUncertain effect prepared "unit_start_result"
      (.other ⟨"TypeError", "unexpected start result: " ++ result⟩) startedMs
  | .failed (.other error) =>
    markDispatchUncertain effect prepared "unit_start" (.other error) startedMs
  | .failed (.adapter error) =>
    match error.completion with
    | none => do
      discardPrepared prepared.1
      rejectDispatch effect "unit_start" (.adapter error)
    | some completion =>
      completeDefinitelyRejectedStart effect prepared error completion startedMs

end Dispatch

/-- The kind under which the shadow service records an effect. -/
def DispatchEffect.wouldDispatch (effect : DispatchEffect) (recordedAtMs : Nat) : WouldDispatch where
  kind := match effect with
    | .probe _ => .wouldProbe
    | .application _ => .wouldApply
    | .preparation _ => .wouldPrepare
    | .finalization _ => .wouldFinalize
  actionId := effect.actionId
  effect := effect.effect
  recordedAtMs := recordedAtMs
  matching := by cases effect <;> rfl

def recordNullDispatch (effect : DispatchEffect) : Controller Unit := do
  append (.wouldDispatch (effect.wouldDispatch (← now)))
  process (.dispatchRejected ⟨← metadata (← now), effect.actionId,
    ⟨"null dispatcher: worker launch intentionally unavailable", rfl⟩⟩)

def dispatch (authority : Authority) (effect : DispatchEffect) : Controller Unit := do
  if ← preDispatchFence effect then
    if authority = .shadow then recordNullDispatch effect
    else do
      let startedMs ← now
      match ← writeDispatchRequest effect with
      | none => pure ()
      | some prepared => do
        if ← preDispatchFence effect then startPrepared effect prepared startedMs
        else discardPrepared prepared.1
  else pure ()

/-- An effect is dispatched unless a fence is being drained. -/
def dispatchUnfenced (authority : Authority) (effect : DispatchEffect) : Controller Unit := do
  if (← read).fenceDepth = 0 then dispatch authority effect else pure ()

def handleEffect (authority : Authority) : Effect → Controller PUnit
  | .requestObservation _ => requestObservation
  | .schedule _ => pure ()
  | .requestPlan request => requestPlan request
  | .activateProbe e => dispatchUnfenced authority (.probe e)
  | .applyProfile e => dispatchUnfenced authority (.application e)
  | .prepareDesktop e => dispatchUnfenced authority (.preparation e)
  | .finalizeDesktop e => dispatchUnfenced authority (.finalization e)
  | .stopAction actionId => stopAction authority actionId
  | .discardPlan actionId planHash _ => discardPlan actionId planHash

def auditTiming (c : Consumption) (startedMs reducedMs persistedMs : Nat) :
    DecisionAuditTiming where
  processingStartedMs := startedMs
  reductionFinishedMs := max startedMs reducedMs
  persistenceFinishedMs := max (max startedMs reducedMs) persistedMs
  observationDurationMs := c.observationDurationMs
  commandDurationMs := c.commandDurationMs
  ordered := ⟨Nat.le_max_left _ _, Nat.le_max_left _ _⟩

def processEvent (authority : Authority) (c : Consumption) : Controller Unit := do
  let prior := (← read).state
  let startedMs ← now
  match reduce prior c.event with
  | .error error => .raise (.reduction error)
  | .ok decision => do
    let reducedMs ← now
    save decision.state
    let persistedMs ← now
    modify (·.adopt c.event decision.state)
    ask (.publish (← read).eventGeneration)
    append (.decision prior c.event decision (auditTiming c startedMs reducedMs persistedMs))
    modify (·.arm.reconcileWorkerMonitor)
    decision.effects.forM (handleEffect authority)
    modify (·.arm)

/-- `run`, from `process_next` on. -/
def serve : Controller Unit := do
  let event ← ask .nextEvent
  process event
  call .serve

/-- `start`, and the loop of `run`. -/
def run : Controller Unit := do
  let atMs ← now
  modify fun r =>
    (r.arm.enqueue (.controllerStarted
      ⟨⟨atMs, r.state.bootId⟩, r.state.controllerInstance⟩)).reconcileWorkerMonitor
  call .serve

def consumer (authority : Authority) : System Runtime Outside Call Request.Reply Fault where
  body
    | .processEvent c => processEvent authority c
    | .serve => serve
  answers := answers

end MonitorController
