import MonitorController.Foundation.Words
import MonitorController.Transactions.Records
import MonitorController.Transition.Moves

/-! # Dispatches

An admitted effect which starts a worker, the proof that its request repeats,
and what the adapters answer about the worker.
-/

namespace MonitorController

/-- An exception, by its class and its text. -/
structure Failure where
  kind : String
  text : String
  deriving DecidableEq, Repr

/-- `" ".join(value.split())[:size]`, with a default for a blank text. -/
def clipped (value : String) (size : Nat) (default : String) : List Char :=
  let clean := ([' '].intercalate (Words.words isSpace value.toList)).take size
  if clean = [] then default.toList else clean

def boundedReason (boundary detail : String) : Text where
  value := String.ofList
    (clipped boundary 64 "adapter" ++ ':' :: ' ' :: clipped detail 448 "unspecified failure")
  nonblank := nonempty_of_mem (c := ':') (by simp) rfl

def exceptionDetail (error : Failure) : Text := boundedReason error.kind error.text

/-- Adapter boundary at which an admitted operation definitely failed. -/
inductive DispatchFailureStage where
  | requestWrite | unitStart | preparedRequestCleanup
  deriving DecidableEq, Repr

def DispatchFailureStage.value : DispatchFailureStage → String
  | .requestWrite => "request_write"
  | .unitStart => "unit_start"
  | .preparedRequestCleanup => "prepared_request_cleanup"

/-- Supervisor evidence about whether a keyed unit may still mutate. -/
inductive WorkerActivity where
  | active | inactive
  deriving DecidableEq, Repr

/-- Validated terminal output bound to an exact non-active worker identity. -/
structure WorkerCompletion where
  actionId : ActionId
  terminalLifecycle : ActionLifecycle
  exitStatus : Nat
  planHash : Option PlanHash := none
  status_bound : exitStatus ≤ maxExitStatus
  terminal : terminalLifecycle.terminal = true
  status_completed : terminalLifecycle = .completed ↔ exitStatus = 0

/-- A bounded adapter operation with a definite non-running outcome. -/
structure DispatchAdapterError where
  stage : DispatchFailureStage
  detail : String
  completion : Option WorkerCompletion := none

/-- `str(error)`. -/
def DispatchAdapterError.text (error : DispatchAdapterError) : Text where
  value := error.stage.value ++ ": " ++ error.detail
  nonblank := nonempty_of_mem (c := ':') (by simp) rfl

/-- What an adapter call of a dispatch raises. -/
inductive DispatchFailure where
  | adapter (error : DispatchAdapterError)
  | other (error : Failure)

/-- `_exception_detail` of either. -/
def DispatchFailure.exceptionDetail : DispatchFailure → Text
  | .adapter error => MonitorController.exceptionDetail ⟨"DispatchAdapterError", error.text.value⟩
  | .other error => MonitorController.exceptionDetail error

inductive DispatchEffect where
  | probe (effect : ActivateProbe)
  | application (effect : ApplyProfile)
  | preparation (effect : PrepareDesktop)
  | finalization (effect : FinalizeDesktop)

namespace DispatchEffect

def actionId : DispatchEffect → ActionId
  | .probe e => e.actionId
  | .application e => e.actionId
  | .preparation e => e.actionId
  | .finalization e => e.actionId

def admittedEventGeneration : DispatchEffect → EventGeneration
  | .probe e => e.admittedEventGeneration
  | .application e => e.admittedEventGeneration
  | .preparation e => e.admittedEventGeneration
  | .finalization e => e.admittedEventGeneration

def observationKey : DispatchEffect → ObservationKey
  | .probe e => e.observationKey
  | .application e => e.observationKey
  | .preparation e => e.observationKey
  | .finalization e => e.observationKey

def effect : DispatchEffect → Effect
  | .probe e => .activateProbe e
  | .application e => .applyProfile e
  | .preparation e => .prepareDesktop e
  | .finalization e => .finalizeDesktop e

theorem kind_ne_plan (e : DispatchEffect) : e.actionId.kind ≠ .plan := by
  cases e with
  | probe e => simp [actionId, e.kind_probe]
  | application e => simp [actionId, e.kind_application]
  | preparation e => simp [actionId, e.kind_preparation]
  | finalization e => simp [actionId, e.kind_finalization]

end DispatchEffect

/-- Opaque request plus the worker identity fixed before submission. -/
structure PreparedDispatch where
  actionId : ActionId
  unit : WorkerUnit
  reference : Text
  requestSha256 : Option String := none
  unit_matches : unit.actionId = actionId
  hashed : ∀ h ∈ requestSha256, "sha256:".toList <+: h.toList
  deriving DecidableEq

section Context

/-- Persisted observation proof needed to materialize a worker request. -/
structure WorkerRequestContext where
  physicalEpoch : Nat
  physicalToken : PhysicalToken
  outputMapping : List OutputMapping
  expectedTopology : ExpectedTopology
  layout : Option Text := none
  planningActionId : Option ActionId := none
  preparationActionId : Option ActionId := none
  proofDurationMs : Option Nat := none
  probeBaseHash : Option String := none
  probeEdidIntegrity : Option EdidIntegrity := none
  profileConfigurationHashes : List ConfigurationContentHash := []

namespace WorkerRequestContext

variable (context : WorkerRequestContext)

/-- `__post_init__`, as the message of the first check which fails. -/
def refusal : Option String :=
  if context.planningActionId.any (·.kind ≠ .plan) then
    some "worker request planning identity has the wrong action kind"
  else if context.preparationActionId.any (·.kind ≠ .preparation) then
    some "worker request preparation identity has the wrong action kind"
  else if context.preparationActionId.isNone ≠ context.proofDurationMs.isNone then
    some "worker preparation identity and final proof must be supplied together"
  else if context.probeBaseHash.isNone ≠ context.probeEdidIntegrity.isNone then
    some "worker probe identity hash and integrity must be supplied together"
  else if context.probeEdidIntegrity.any (!·.probeAdmissible) then
    some "worker probe proof requires broken extensions"
  else if ¬ ValidHashes context.profileConfigurationHashes then
    some "worker profile configuration hashes must be sorted and unique"
  else if context.probeBaseHash.any (!lowerSha256 ·) then
    some "worker probe base identity must be a lowercase SHA-256 digest"
  else none

def make : Except Failure WorkerRequestContext :=
  match context.refusal with
  | some message => .error ⟨"ValueError", message⟩
  | none => .ok context

end WorkerRequestContext

variable (s : State) (o : CanonicalObservation)

/-- `require(condition)` of the context, whose failure is a `ValueError`. -/
def demandProof (condition : Prop) [Decidable condition] (message : String) : Except Failure Unit :=
  if condition then .ok () else .error ⟨"ValueError", message⟩

def observedTopology : Except Failure ExpectedTopology :=
  let fields : TopologyFields :=
    ⟨o.kernelConnectedOutputs, o.kernelExternalOutputs, o.xConnectedOutputs, o.xActiveOutputs⟩
  match h : fields.refusal with
  | some message => .error ⟨"TransactionProtocolError", message⟩
  | none => .ok ⟨fields, h⟩

/-- The context, from the part which every kind of worker shares and what its kind adds. -/
def sharedContext (mapping : List OutputMapping)
    (extend : WorkerRequestContext → WorkerRequestContext) :
    Except Failure WorkerRequestContext := do
  let topology ← observedTopology o
  (extend { physicalEpoch := s.physicalEpoch, physicalToken := o.physicalToken,
            outputMapping := mapping, expectedTopology := topology }).make

/-- `_worker_request_context` for a probe. -/
def probeContext (effect : ActivateProbe) : Except Failure WorkerRequestContext := do
  demandProof (effect.key.physicalEpoch = s.physicalEpoch)
    "probe effect physical epoch is no longer current"
  let lacking : Failure :=
    ⟨"ValueError", "probe effect lacks exact broken-extension identity proof"⟩
  let identityMatches := o.baseIdentityProfiles.filter fun item =>
    item.profile = effect.key.profile ∧ item.output = effect.output
  match o.probeCandidate, o.edidIntegrity.find? (·.output = effect.output) with
  | some candidate, some edid =>
    if candidate.output = effect.output ∧ candidate.internalOutput = effect.internalOutput ∧
        candidate.preferredMode = effect.preferredMode ∧
        candidate.profile = effect.key.profile ∧ identityMatches.length = 1 ∧
        edid.baseHash ≠ none ∧ edid.integrity.probeAdmissible = true then
      sharedContext s o [] fun context =>
        { context with
          probeBaseHash := edid.baseHash
          probeEdidIntegrity := some edid.integrity }
    else .error lacking
  | _, _ => .error lacking

/-- `_worker_request_context` for an application. -/
def applicationContext (effect : ApplyProfile) : Except Failure WorkerRequestContext := do
  demandProof (effect.key.physicalEpoch = s.physicalEpoch ∧
      effect.mapping.physicalEpoch = s.physicalEpoch ∧
      effect.mapping.observationKey = effect.observationKey)
    "application effect proof is outside its admitted epoch"
  let matching := o.eligibleProfiles.filter fun item =>
    item.profile = effect.profile ∧ item.mapping = effect.mapping.outputs
  match matching with
  | [item] =>
    sharedContext s o effect.mapping.outputs fun context =>
      { context with profileConfigurationHashes := item.configurationHashes }
  | _ => .error ⟨"ValueError", "application effect lacks one exact saved-profile proof"⟩

/-- What `_worker_request_context` demands of both desktop workers: the candidate and the plan. -/
def desktopProof (effect : DispatchEffect) (transitionId : TransitionId) (planHash : PlanHash)
    (profile : Text) : Except Failure (CandidateSelection × PlanningAction) :=
  match s.candidate, s.planning with
  | some candidate, some planning =>
    if candidate.observationKey = effect.observationKey ∧
        candidate.mapping.physicalEpoch = s.physicalEpoch ∧
        planning.transitionId = transitionId ∧ planning.planHash = some planHash ∧
        planning.profile = profile ∧ planning.inputKey.physicalEpoch = s.physicalEpoch ∧
        planning.inputKey.observationKey = effect.observationKey ∧
        planning.inputKey.mapping = candidate.mapping.outputs ∧
        planning.inputKey.activeOutputs = o.xActiveOutputs then
      .ok (candidate, planning)
    else .error ⟨"ValueError", "desktop effect lacks its exact mapping and plan proof"⟩
  | _, _ => .error ⟨"ValueError", "desktop effect lacks its exact mapping and plan proof"⟩

/-- `_worker_request_context` for a preparation. -/
def preparationContext (effect : PrepareDesktop) : Except Failure WorkerRequestContext := do
  let (candidate, planning) ←
    desktopProof s o (.preparation effect) effect.transitionId effect.planHash effect.profile
  sharedContext s o candidate.mapping.outputs fun context =>
    { context with
      layout := some planning.inputKey.layout
      planningActionId := some planning.actionId }

/-- `_worker_request_context` for a finalization, with the duration of its proof. -/
def finalizationContext (effect : FinalizeDesktop) : Except Failure WorkerRequestContext := do
  let (candidate, planning) ←
    desktopProof s o (.finalization effect) effect.transitionId effect.planHash effect.profile
  let lacking : Failure := ⟨"ValueError", "finalization effect lacks matching prepared proof"⟩
  match s.preparation, s.verifySinceMs with
  | some preparation, some since =>
    if s.preparationState = .prepared ∧ preparation.lifecycle = .completed ∧
        preparation.transitionId = effect.transitionId ∧
        preparation.transitionKey = effect.transitionKey ∧
        preparation.planHash = effect.planHash ∧ preparation.profile = effect.profile ∧
        since ≤ o.observedAtMs then
      sharedContext s o candidate.mapping.outputs fun context =>
        { context with
          layout := some planning.inputKey.layout
          planningActionId := some planning.actionId
          preparationActionId := some preparation.actionId
          proofDurationMs := some (o.observedAtMs - since) }
    else .error lacking
  | _, _ => .error lacking

def workerRequestContext (s : State) (effect : DispatchEffect) :
    Except Failure WorkerRequestContext :=
  let lacking : Failure :=
    ⟨"ValueError", "admitted effect lacks its exact persisted observation proof"⟩
  match s.latestObservation with
  | none => .error lacking
  | some o =>
    if o.valid = true ∧ o.observationKey = effect.observationKey ∧
        o.eventGeneration = effect.admittedEventGeneration ∧
        s.physicalToken = some o.physicalToken then
      match effect with
      | .probe e => probeContext s o e
      | .application e => applicationContext s o e
      | .preparation e => preparationContext s o e
      | .finalization e => finalizationContext s o e
    else .error lacking

end Context

section Events

def dispatchedEvent (effect : DispatchEffect) (unit : WorkerUnit) (metadata : EventMetadata)
    (hu : unit.actionId = effect.actionId) : Event :=
  match effect with
  | .probe e => .probeDispatched ⟨metadata, e.actionId, unit, e.kind_probe, hu⟩
  | .application e => .applicationDispatched ⟨metadata, e.actionId, unit, e.kind_application, hu⟩
  | .preparation e => .preparationDispatched ⟨metadata, e.actionId, unit, e.kind_preparation, hu⟩
  | .finalization e => .finalizationDispatched ⟨metadata, e.actionId, unit, e.kind_finalization, hu⟩

/-- The outcome of a lifecycle which has an ordinary completion event. -/
def ActionLifecycle.outcome : ActionLifecycle → Option WorkerOutcome
  | .completed => some .succeeded
  | .failed => some .failed
  | .cancelled => some .cancelled
  | _ => none

def finishedEvent (completion : WorkerCompletion) (metadata : EventMetadata) :
    Except Failure Event :=
  let status : Option Int := some completion.exitStatus
  match completion.terminalLifecycle.outcome with
  | none =>
    .error ⟨"ValueError", "unknown/timed-out completion requires its dedicated reducer event"⟩
  | some outcome =>
    match h : completion.actionId.kind with
    | .probe => .ok (.probeFinished ⟨metadata, completion.actionId, outcome, status, h⟩)
    | .application => .ok (.applicationFinished ⟨metadata, completion.actionId, outcome, status, h⟩)
    | .preparation =>
      match completion.planHash with
      | none => .error ⟨"ValueError", "preparation result lacks its bound plan hash"⟩
      | some planHash =>
        .ok (.preparationFinished ⟨⟨metadata, completion.actionId, outcome, status, h⟩, planHash⟩)
    | .finalization =>
      .ok (.finalizationFinished ⟨metadata, completion.actionId, outcome, status, h⟩)
    | .plan => .error ⟨"ValueError", "planning actions cannot produce systemd worker completion"⟩

/-- `_completion_event`: an outcome which no worker reports goes to the stop protocol. -/
def completionEvent (completion : WorkerCompletion) (metadata : EventMetadata) (deadlineMs : Nat) :
    Except Failure Event :=
  match completion.terminalLifecycle with
  | .unknown =>
    .ok (.workerStatusUnknown ⟨metadata, completion.actionId,
      ⟨"supervisor: exact terminal transaction outcome is unknown", rfl⟩⟩)
  | .timedOut =>
    .ok (.workerTimedOut
      { metadata, actionId := completion.actionId, deadlineMs, managerConfirmed := true
        due := by rintro ⟨⟩ })
  | _ => finishedEvent completion metadata

end Events

end MonitorController
