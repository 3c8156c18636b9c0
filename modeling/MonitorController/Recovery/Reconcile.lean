import MonitorController.Reducer.Reduce
import MonitorController.Recovery.Snapshot

/-! # Folding verified results into the persisted state

The transaction result of an inactive worker is replayed through the reducer,
without the effects, until the persisted action represents it.
-/

namespace MonitorController

namespace ActionRecord

def unit? (r : ActionRecord) : Option WorkerUnit := r.worker?.bind (·.unit)

def exitStatus : ActionRecord → Option Int
  | .probe a => a.exitStatus
  | .application a => a.exitStatus
  | .planning a => a.exitStatus
  | .preparation a => a.exitStatus
  | .finalization a => a.exitStatus

def planHash? : ActionRecord → Option PlanHash
  | .probe _ | .application _ => none
  | .planning a => a.planHash
  | .preparation a => some a.planHash
  | .finalization a => some a.planHash

end ActionRecord

def resultDispatchEvent (result : VerifiedWorkerResult) (metadata : EventMetadata) : Result Event :=
  match h : result.actionId.kind with
  | .probe => .ok (.probeDispatched ⟨metadata, result.actionId, result.unit, h, rfl⟩)
  | .application => .ok (.applicationDispatched ⟨metadata, result.actionId, result.unit, h, rfl⟩)
  | .preparation => .ok (.preparationDispatched ⟨metadata, result.actionId, result.unit, h, rfl⟩)
  | .finalization => .ok (.finalizationDispatched ⟨metadata, result.actionId, result.unit, h, rfl⟩)
  | .plan => .error (.value "planning action cannot have a verified systemd result")

/-- The worker outcome which a terminal lifecycle stands for. -/
def resultOutcome : ActionLifecycle → Option WorkerOutcome
  | .completed => some .succeeded
  | .failed => some .failed
  | .cancelled => some .cancelled
  | _ => none

def resultCompletionEvent (result : VerifiedWorkerResult) (metadata : EventMetadata) :
    Result Event :=
  match resultOutcome result.terminalLifecycle with
  | none => .error (.value "unknown and timed-out results require cancellation reconciliation")
  | some outcome =>
    let exitStatus : Option Int := some result.exitStatus
    match h : result.actionId.kind with
    | .probe => .ok (.probeFinished ⟨metadata, result.actionId, outcome, exitStatus, h⟩)
    | .application => .ok (.applicationFinished ⟨metadata, result.actionId, outcome, exitStatus, h⟩)
    | .preparation =>
      match result.planHash with
      | none => .error (.value "verified preparation result lacks its exact plan hash")
      | some planHash =>
        .ok (.preparationFinished ⟨⟨metadata, result.actionId, outcome, exitStatus, h⟩, planHash⟩)
    | .finalization =>
      .ok (.finalizationFinished ⟨metadata, result.actionId, outcome, exitStatus, h⟩)
    | .plan => .error (.value "planning action cannot have a verified systemd result")

def resultAcknowledgement (result : VerifiedWorkerResult) (metadata : EventMetadata) : Event :=
  .workerCancellationAcknowledged
    { metadata
      actionId := result.actionId
      terminalLifecycle := result.terminalLifecycle
      exitStatus := result.exitStatus
      terminal := result.terminal
      status_bound := result.status_bound
      status_completed := result.status_completed }

def resultDoubt (result : VerifiedWorkerResult) (metadata : EventMetadata) : Event :=
  .workerStatusUnknown
    { metadata
      actionId := result.actionId
      reason := ⟨"recovery: exact inactive worker terminal result",
        nonempty_of_mem (c := 'r') (by simp) (by decide)⟩ }

/-- The kinds whose completed result still awaits a confirming observation. -/
def ActionKind.deferred : ActionKind → Bool
  | .preparation | .finalization => true
  | _ => false

def verifiedResultIsRepresented (s : State) (result : VerifiedWorkerResult) : Bool :=
  let action := s.actionForId result.actionId
  let tombstone := s.actionTombstones.find? (·.actionId = result.actionId)
  match action with
  | some (.planning _) => false
  | _ =>
    if result.terminalLifecycle = .completed ∧ result.actionId.kind.deferred then
      match action with
      | none => false
      | some a =>
        if a.unit? ≠ some result.unit ∨ a.exitStatus ≠ some (result.exitStatus : Int) ∨
            a.planHash? ≠ result.planHash then false
        else if a.lifecycle = .resultPending then tombstone.isNone
        else a.lifecycle = .completed ∧ tombstone = some result.tombstone
    else if result.terminalLifecycle.failedLifecycle then
      match action with
      | none => false
      | some a =>
        a.unit? = some result.unit ∧ a.lifecycle = result.terminalLifecycle ∧
          a.exitStatus = some (result.exitStatus : Int) ∧ a.planHash? = result.planHash ∧
          tombstone = some result.tombstone
    else action = none ∧ tombstone = some result.tombstone

def verifiedResultRelationshipError (action : ActionRecord) (result : VerifiedWorkerResult) :
    Option String :=
  match action with
  | .planning _ => some "planning actions cannot have systemd terminal results"
  | _ =>
    if action.lifecycle ≠ .admitted ∧ action.unit? ≠ some result.unit then
      some "worker identity conflicts with verified terminal transaction output"
    else if action.actionId.kind.deferred ∧ action.planHash? ≠ result.planHash then
      some "plan proof conflicts with verified terminal transaction output"
    else if action.lifecycle ∉ [ActionLifecycle.admitted, .dispatched, .stopping, .resultPending] ∧
        action.lifecycle.terminal = false then
      some ("cannot reconcile a terminal result from " ++ action.lifecycle.value)
    else none

def concludeResult (s : State) (action : ActionRecord) (result : VerifiedWorkerResult)
    (metadata : EventMetadata) : Result State :=
  if action.lifecycle = .stopping then do
    let d ← reduce s (resultAcknowledgement result metadata)
    .ok d.state
  else if result.terminalLifecycle = .unknown ∨ result.terminalLifecycle = .timedOut then do
    let doubted ← reduce s (resultDoubt result metadata)
    let d ← reduce doubted.state (resultAcknowledgement result metadata)
    .ok d.state
  else do
    let event ← resultCompletionEvent result metadata
    let d ← reduce s event
    .ok d.state

def applyVerifiedResult (s : State) (action : ActionRecord) (result : VerifiedWorkerResult) :
    Result (Option State) :=
  match action with
  | .planning _ => .ok none
  | _ => do
    let metadata : EventMetadata := ⟨result.finishedMonotonicMs, s.bootId⟩
    if action.lifecycle = .admitted then do
      let event ← resultDispatchEvent result metadata
      let d ← reduce s event
      match d.state.actionForId result.actionId with
      | none => .ok none
      | some promoted => do
        let concluded ← concludeResult d.state promoted result metadata
        .ok (some concluded)
    else do
      let concluded ← concludeResult s action result metadata
      .ok (some concluded)

/-- What the reconciliation of results has gathered so far. -/
structure Reconciliation where
  state : State
  matched : List ActionId := []
  changed : Bool := false
  reasons : List String := []

def Reconciliation.blame (r : Reconciliation) (reason : String) : Reconciliation :=
  { r with reasons := r.reasons ++ [reason] }

def reconcileAction (r : Reconciliation) (action : ActionRecord) (result : VerifiedWorkerResult) :
    Result Reconciliation :=
  let r := { r with matched := result.actionId :: r.matched }
  let key := result.actionId.value
  match verifiedResultRelationshipError action result with
  | some problem => .ok (r.blame ("persisted " ++ key ++ ": " ++ problem))
  | none =>
    if action.lifecycle.terminal ∨ action.lifecycle = .resultPending then
      if verifiedResultIsRepresented r.state result then .ok r
      else .ok (r.blame ("persisted result state for " ++ key ++
        " conflicts with verified terminal transaction output"))
    else do
      match ← applyVerifiedResult r.state action result with
      | none => .ok (r.blame ("persisted action " ++ key ++ " vanished during " ++
          "terminal reconciliation"))
      | some reconciled =>
        let r := { r with state := reconciled }
        if verifiedResultIsRepresented reconciled result then .ok { r with changed := true }
        else .ok (r.blame ("verified terminal result for " ++ key ++
          " does not match its persisted action proof"))

/-- One result; a result of no retained worker action changes nothing. -/
def reconcileResult (r : Reconciliation) (result : VerifiedWorkerResult) : Result Reconciliation :=
  match r.state.actionForId result.actionId with
  | none | some (.planning _) => .ok r
  | some action => reconcileAction r action result

def reconcileVerifiedResults (persisted : State) (results : List VerifiedWorkerResult) :
    Result Reconciliation :=
  (sortedByAction (·.actionId) results).foldlM reconcileResult { state := persisted }

end MonitorController
