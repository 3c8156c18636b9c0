import Mathlib.Algebra.GroupWithZero.Nat
import MonitorController.Transactions.UnitNames
import MonitorController.Values.Observation

/-! # Transaction records

The records of one worker action: its request, the controller's and the
worker's claims, a stop intent and the terminal result. Every record repeats
the binding of the request, and carries the digest of its own content.
-/

namespace MonitorController

/-- `TransactionProtocolError` and its kinds, and the missing file which callers tell apart. -/
inductive StoreError where
  | fileNotFound
  | protocol (message : String)
  | immutable (message : String)
  | executionAlreadyClaimed (message : String)
  deriving DecidableEq, Repr

abbrev Stored := Except StoreError

section Texts

/-- `_validate_text`, as the message of its failure. -/
def textRefusal (maximum : Nat) (name value : String) : Option String :=
  if nonempty value = false ∨ '\x00' ∈ value.toList ∨ maximum < value.length then
    some (name ++ " must be non-empty, bounded text without NUL bytes")
  else none

/-- `_validate_sorted_unique_strings`. -/
def sortedStringsRefusal (name : String) (values : List Text) : Option String :=
  (values.findSome? fun v => textRefusal 4096 name v.value) <|>
    if SortedUniqueStrings values then none else some (name ++ " must be sorted and unique")

def lowerSha256 (value : String) : Bool :=
  value.length = 64 && value.toList.all fun c => ('0' ≤ c && c ≤ '9') || ('a' ≤ c && c ≤ 'f')

end Texts

structure TopologyFields where
  kernelConnectedOutputs : List Text
  kernelExternalOutputs : List Text
  xConnectedOutputs : List Text
  xActiveOutputs : List Text
  deriving DecidableEq

/-- `__post_init__`, as the message of the first check which fails. -/
def TopologyFields.refusal (t : TopologyFields) : Option String :=
  sortedStringsRefusal "kernel_connected_outputs" t.kernelConnectedOutputs <|>
  sortedStringsRefusal "kernel_external_outputs" t.kernelExternalOutputs <|>
  sortedStringsRefusal "x_connected_outputs" t.xConnectedOutputs <|>
  sortedStringsRefusal "x_active_outputs" t.xActiveOutputs <|>
  if ¬ t.kernelExternalOutputs ⊆ t.kernelConnectedOutputs then
    some "expected kernel external outputs must be kernel-connected"
  else if ¬ t.xActiveOutputs ⊆ t.xConnectedOutputs then
    some "expected active X outputs must be X-connected"
  else none

/-- Exact connected and active topology admitted by one observation. -/
structure ExpectedTopology extends TopologyFields where
  accepted : toTopologyFields.refusal = none
  deriving DecidableEq

inductive PayloadValue where
  | text (value : String)
  | integer (value : Int)
  | boolean (value : Bool)
  | null
  deriving DecidableEq

/-- What every record of an action shares with its request. -/
structure Binding where
  actionId : ActionId
  actionKind : ActionKind
  unitName : Text
  requestSha256 : String
  deriving DecidableEq

structure RequestFields where
  actionId : ActionId
  actionKind : ActionKind
  unitName : Text
  physicalEpoch : Nat
  physicalToken : PhysicalToken
  admittedEventGeneration : EventGeneration
  observationKey : ObservationKey
  outputMapping : List OutputMapping
  expectedTopology : ExpectedTopology
  profile : Option Text := none
  layout : Option Text := none
  transitionId : Option TransitionId := none
  transitionKey : Option TransitionKey := none
  planHash : Option PlanHash := none
  payload : List (String × PayloadValue) := []
  deriving DecidableEq

/-- `_validate_mapping`. -/
def mappingRefusal (mapping : List OutputMapping) : Option String :=
  if ¬ SortedUniqueKeys (mapping.map (·.key)) then
    some "request output mapping must be sorted and unique"
  else if ¬ ((mapping.map (·.savedOutput)).Nodup ∧ (mapping.map (·.liveOutput)).Nodup) then
    some "request output mapping must be a bijection"
  else none

/-- `_validate_payload`; its values are scalars by construction. -/
def payloadRefusal (payload : List (String × PayloadValue)) : Option String :=
  if ¬ SortedUniqueKeys (payload.map (·.1)) then
    some "request payload fields must be sorted and unique"
  else
    payload.findSome? fun (name, value) =>
      textRefusal 64 "request payload field" name <|>
        match value with
        | .text value => textRefusal 1024 ("request payload " ++ name) value
        | _ => none

def probePayloadFields : List String :=
  ["base_identity_hash", "edid_integrity", "internal_output", "preferred_mode", "probe_output"]

/-- `EdidIntegrity(value)`. -/
def EdidIntegrity.ofValue (value : String) : Option EdidIntegrity :=
  [EdidIntegrity.absent, .baseInvalid, .baseValidExtensionsIncomplete, .baseValidExtensionsInvalid,
    .complete].find? (·.value = value)

namespace RequestFields

variable (request : RequestFields)

/-- `dict(request.payload)[name]`, where it is a text. -/
def payloadText? (name : String) : Option String :=
  (request.payload.find? (·.1 = name)).bind fun
    | (_, .text value) => some value
    | _ => none

/-- `_validate_probe_payload`. -/
def probeRefusal : Option String :=
  let names := request.payload.map (·.1)
  let unproven (name : String) : Option String :=
    match request.payloadText? name with
    | none => some ("probe request " ++ name ++ " must be text")
    | some value => textRefusal 4096 ("probe request " ++ name) value
  if request.layout.isSome ∨ request.planHash.isSome then
    some "probe request cannot carry layout or staged-plan authority"
  else if ¬ (names ⊆ probePayloadFields ∧ probePayloadFields ⊆ names) then
    some "probe request payload must contain exactly its five proof fields"
  else if ¬ (request.payloadText? "base_identity_hash").any lowerSha256 then
    some "probe request base identity must be a lowercase SHA-256 digest"
  else
    match (request.payloadText? "edid_integrity").bind EdidIntegrity.ofValue with
    | none => some "probe request extension integrity is invalid"
    | some integrity =>
      if integrity.probeAdmissible = false then
        some "probe request requires base-identity-proving EDID evidence"
      else
        unproven "internal_output" <|> unproven "preferred_mode" <|> unproven "probe_output" <|>
          if request.payloadText? "probe_output" = request.payloadText? "internal_output" then
            some "probe request target and internal output must differ"
          else none

/-- What the kind of the action demands of the transition, the profile and the mapping. -/
def kindRefusal : Option String :=
  match request.actionKind with
  | .plan => none
  | .preparation | .finalization =>
    if request.transitionId.isNone ∨ request.transitionKey.isNone ∨ request.planHash.isNone ∨
        request.profile.isNone ∨ request.layout.isNone then
      some "desktop worker request lacks transition, plan, profile, or layout"
    else if request.outputMapping = [] then
      some "desktop worker request requires an output mapping"
    else none
  | .application =>
    if request.transitionId.isSome ∨ request.transitionKey.isSome then
      some "probe/application request cannot carry a desktop transition"
    else if request.profile.isNone ∨ request.outputMapping = [] then
      some "application request requires a profile and output mapping"
    else none
  | .probe =>
    if request.transitionId.isSome ∨ request.transitionKey.isSome then
      some "probe/application request cannot carry a desktop transition"
    else if request.outputMapping ≠ [] then
      some "probe request cannot claim an unproven profile output mapping"
    else if request.profile.isNone then
      some "probe request requires its unique base-identity profile"
    else none

/-- `__post_init__`, as the message of the first check which fails. -/
def refusal : Option String :=
  if request.actionId.kind ≠ request.actionKind then
    some "request action kind does not match its action ID"
  else if request.actionKind = .plan then some "pure planning tasks are not systemd workers"
  else if ¬ unitNamePattern request.unitName.value.toList ∨
      '/' ∈ request.unitName.value.toList then
    some "request unit name is malformed"
  else
    mappingRefusal request.outputMapping <|>
    (request.profile.bind fun profile => textRefusal 4096 "request profile" profile.value) <|>
    (request.layout.bind fun layout => textRefusal 4096 "request layout" layout.value) <|>
    if request.transitionId.isNone ≠ request.transitionKey.isNone then
      some "request transition ID and key must either both be set or both absent"
    else if request.transitionId.any
        (·.controllerInstance ≠ request.actionId.controllerInstance) then
      some "request action and transition must share a controller instance"
    else
      request.kindRefusal <|> payloadRefusal request.payload <|>
        if request.actionKind = .probe then request.probeRefusal else none

end RequestFields

/-- One immutable worker authorization, less its own digest. -/
structure RequestBody extends RequestFields where
  accepted : toRequestFields.refusal = none
  deriving DecidableEq

structure TransactionRequest extends RequestBody where
  requestSha256 : String
  deriving DecidableEq

def TransactionRequest.binding (request : TransactionRequest) : Binding :=
  ⟨request.actionId, request.actionKind, request.unitName, request.requestSha256⟩

inductive BoundRecordKind where
  | prepared | submissionClaim | executionClaim
  deriving DecidableEq, Repr

/-- Independent binding of action, unit and request digest, less its own digest. -/
structure BoundBody extends Binding where
  recordKind : BoundRecordKind
  deriving DecidableEq

structure BoundTransactionRecord extends BoundBody where
  recordSha256 : String
  deriving DecidableEq

/-- `_STOPPABLE_LIFECYCLES`. -/
def ActionLifecycle.stoppable : ActionLifecycle → Bool
  | .cancelled | .timedOut | .unknown => true
  | _ => false

structure StopIntentBody extends Binding where
  terminalLifecycle : ActionLifecycle
  stoppable : terminalLifecycle.stoppable = true
  deriving DecidableEq

/-- Durable terminal intent written before a unit is asked to stop. -/
structure StopIntent extends StopIntentBody where
  intentSha256 : String
  deriving DecidableEq

def maxExitStatus : Nat := 255

structure ResultBody extends Binding where
  outcome : ActionLifecycle
  exitStatus : Nat
  startedMonotonicMs : Nat
  finishedMonotonicMs : Nat
  detail : Text
  planHash : Option PlanHash
  kind_matches : actionId.kind = actionKind
  worker : actionKind ≠ .plan
  unit_valid : validateUnitName unitName.value = .ok ()
  detail_bounded : textRefusal 512 "result detail" detail.value = none
  status_bound : exitStatus ≤ maxExitStatus
  terminal : outcome.terminal = true
  status_completed : outcome = .completed ↔ exitStatus = 0
  ordered : startedMonotonicMs ≤ finishedMonotonicMs
  deriving DecidableEq

/-- One immutable terminal worker report bound to the request and unit. -/
structure TransactionResult extends ResultBody where
  resultSha256 : String
  deriving DecidableEq

/-- `_content_sha256` of the canonical encoding of a record, its own digest left out. -/
structure ContentSha256 where
  request : RequestBody → String
  bound : BoundBody → String
  stopIntent : StopIntentBody → String
  result : ResultBody → String

/-- One immutable file which is published with a transaction request. -/
structure TransactionArtifact where
  relativePath : String
  content : List UInt8
  executable : Bool
  deriving DecidableEq

section Hashes

variable (sha : ContentSha256)

def withRequestHash (request : TransactionRequest) : Stored TransactionRequest :=
  let digest := sha.request request.toRequestBody
  if request.requestSha256 ≠ "" ∧ request.requestSha256 ≠ digest then
    .error (.protocol "supplied request hash does not match request content")
  else .ok ⟨request.toRequestBody, digest⟩

/-- `with_bound_record_hash` of a record which has no digest yet. -/
def withBoundRecordHash (record : BoundBody) : BoundTransactionRecord :=
  ⟨record, sha.bound record⟩

def withStopIntentHash (intent : StopIntentBody) : StopIntent :=
  ⟨intent, sha.stopIntent intent⟩

def withResultHash (result : TransactionResult) : Stored TransactionResult :=
  let digest := sha.result result.toResultBody
  if result.resultSha256 ≠ "" ∧ result.resultSha256 ≠ digest then
    .error (.protocol "supplied result hash does not match result content")
  else .ok ⟨result.toResultBody, digest⟩

def TransactionRequest.record (request : TransactionRequest) (kind : BoundRecordKind) :
    BoundTransactionRecord :=
  withBoundRecordHash sha ⟨request.binding, kind⟩

end Hashes

def validateBoundRecord (request : TransactionRequest) (record : BoundTransactionRecord) :
    Stored Unit :=
  if record.toBinding = request.binding then .ok ()
  else .error (.protocol "bound record does not match the exact request action, unit, and digest")

def validateStopIntentBinding (request : TransactionRequest) (intent : StopIntent) :
    Stored Unit :=
  if intent.toBinding = request.binding then .ok ()
  else .error (.protocol "stop intent does not match the exact request action, unit, and digest")

def validateResultBinding (request : TransactionRequest) (result : TransactionResult) :
    Stored Unit :=
  if result.toBinding ≠ request.binding then
    .error (.protocol "result is not bound to the exact request action and unit")
  else if result.planHash ≠ request.planHash then
    .error (.protocol "result plan hash does not match its request")
  else .ok ()

/-! ## Artifacts -/

def maxTransactionArtifacts : Nat := 32

def maxTransactionArtifactBytes : Nat := 128 * 1024

def maxTransactionArtifactTotalBytes : Nat := 512 * 1024

/-- `_validate_artifact_path`: a canonical relative path below `artifacts/`. -/
def artifactPathCanonical (value : String) : Bool :=
  let parts := value.splitOn "/"
  parts.head? = some "artifacts" && 2 ≤ parts.length && value.length ≤ 1024 &&
    parts.all fun part =>
      part ≠ "" && part ≠ "." && part ≠ ".." && !part.toList.contains '\x00' && part.length ≤ 255

/-- `_validated_artifacts`, with the checks of `TransactionArtifact` itself. -/
def validatedArtifacts (artifacts : List TransactionArtifact) : Stored (List TransactionArtifact) :=
  if artifacts.any fun item => !artifactPathCanonical item.relativePath then
    .error (.protocol "transaction artifact path must be canonical below artifacts/")
  else if artifacts.any fun item =>
      item.content.isEmpty || maxTransactionArtifactBytes < item.content.length then
    .error (.protocol "transaction artifact size is outside the accepted bounds")
  else
    let ordered := artifacts.mergeSort fun a b => a.relativePath ≤ b.relativePath
    if maxTransactionArtifacts < ordered.length then
      .error (.protocol "transaction artifact count exceeds its limit")
    else if ¬ (ordered.map (·.relativePath)).Nodup then
      .error (.protocol "transaction artifact paths must be unique")
    else if maxTransactionArtifactTotalBytes < (ordered.map (·.content.length)).sum then
      .error (.protocol "transaction artifacts exceed their aggregate size limit")
    else .ok ordered

end MonitorController
