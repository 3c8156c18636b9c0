import MonitorController.Foundation.Interleaving
import MonitorController.Transactions.Records

/-! # The transaction store

The store works beneath retained directory descriptors. A published action
directory is known by its number, in the order of publication; its name leads
to it until it is removed. Installing a record, publishing a bundle and
removing an entry are atomic accesses, and so is each read.
-/

namespace MonitorController

open Programs

/-- A claim record, with the number of the call which installed it. -/
structure Claim where
  record : BoundTransactionRecord
  call : Nat
  deriving DecidableEq

/-- One action directory, with the action and the request it was published for. -/
structure ActionDirectory where
  action : ActionId
  origin : TransactionRequest
  live : Bool
  request : Option TransactionRequest
  prepared : Option BoundTransactionRecord
  artifacts : Option (List TransactionArtifact)
  submissionClaim : Option Claim
  executionClaim : Option Claim
  stopIntent : Option StopIntent
  result : Option TransactionResult
  deriving DecidableEq

namespace ActionDirectory

variable (d : ActionDirectory)

def bound : BoundRecordKind → Option BoundTransactionRecord
  | .prepared => d.prepared
  | .submissionClaim => d.submissionClaim.map (·.record)
  | .executionClaim => d.executionClaim.map (·.record)

def names : List String :=
  (if d.artifacts.isSome then ["artifacts"] else []) ++
  (if d.executionClaim.isSome then ["execution-claim.json"] else []) ++
  (if d.prepared.isSome then ["prepared.json"] else []) ++
  (if d.request.isSome then ["request.json"] else []) ++
  (if d.result.isSome then ["result.json"] else []) ++
  (if d.stopIntent.isSome then ["stop-intent.json"] else []) ++
  (if d.submissionClaim.isSome then ["submission-claim.json"] else [])

def artifact (path : String) : Option TransactionArtifact :=
  (d.artifacts.getD []).find? (·.relativePath = path)

def withoutArtifact (path : String) : ActionDirectory :=
  { d with artifacts := d.artifacts.map (·.filter (·.relativePath ≠ path)) }

end ActionDirectory

/-- The transaction root and the descriptors which the processes retain. -/
structure Root (Proc : Type) where
  published : Nat
  directory : Nat → Option ActionDirectory
  names : ActionId → Option Nat
  descriptors : Proc → ActionId → Option Nat

/-- A root without any published action. -/
def Root.Empty {Proc : Type} (root : Root Proc) : Prop :=
  root.published = 0 ∧ (∀ d, root.directory d = none) ∧ (∀ a, root.names a = none) ∧
    ∀ p a, root.descriptors p a = none

/-- How an exclusive installation ends. -/
inductive Installation where
  | created | fileExists | fileNotFound
  deriving DecidableEq, Repr

/-- One access of the store to the file system. -/
inductive Access where
  | openAction (a : ActionId)
  | validateDirectory (d : Nat)
  | readRequest (d : Nat)
  | readBoundRecord (d : Nat) (kind : BoundRecordKind)
  | readStopIntent (d : Nat)
  | readResult (d : Nat)
  | artifactPaths (d : Nat)
  | readArtifact (d : Nat) (path : String) (executable : Bool)
  | publish (request : TransactionRequest) (prepared : BoundTransactionRecord)
      (artifacts : List TransactionArtifact)
  | createSubmissionClaim (d : Nat) (claim : BoundTransactionRecord)
  | createExecutionClaim (d : Nat) (claim : BoundTransactionRecord)
  | createStopIntent (d : Nat) (intent : StopIntent)
  | createResult (d : Nat) (result : TransactionResult)
  | listDirectory (d : Nat)
  | unlinkArtifact (d : Nat) (path : String)
  | removeArtifactRoot (d : Nat)
  | unlinkPrepared (d : Nat)
  | unlinkRequest (d : Nat)
  | removeDirectory (a : ActionId)
  | closeAction (a : ActionId)
  | close

/-- What an access answers; a Boolean tells whether a change was made. -/
abbrev Access.Reply : Access → Type
  | .openAction _ => Stored Nat
  | .validateDirectory _ => Stored Unit
  | .readRequest _ => Stored TransactionRequest
  | .readBoundRecord _ _ => Stored BoundTransactionRecord
  | .readStopIntent _ => Stored StopIntent
  | .readResult _ => Stored TransactionResult
  | .artifactPaths _ => List String
  | .readArtifact _ _ _ => Stored (List UInt8)
  | .publish _ _ _ => Bool
  | .createSubmissionClaim _ _ => Installation
  | .createExecutionClaim _ _ => Installation
  | .createStopIntent _ _ => Installation
  | .createResult _ _ => Installation
  | .listDirectory _ => List String
  | .unlinkArtifact _ _ => Bool
  | .removeArtifactRoot _ => Bool
  | .unlinkPrepared _ => Bool
  | .unlinkRequest _ => Bool
  | .removeDirectory _ => Bool
  | .closeAction _ => Unit
  | .close => Unit

namespace Root

variable {Proc : Type} (root : Root Proc)

def isLive (d : Nat) : Bool := ((root.directory d).map (·.live)).getD false

/-- One record of a directory; a removed directory is empty. -/
def read {α : Type} (d : Nat) (f : ActionDirectory → Option α) : Stored α :=
  match (root.directory d).bind f with
  | some a => .ok a
  | none => .error .fileNotFound

def set (d : Nat) (directory : ActionDirectory) : Root Proc :=
  { root with directory := Function.update root.directory d (some directory) }

@[simp] theorem set_directory_self (d : Nat) (directory : ActionDirectory) :
    (root.set d directory).directory d = some directory := Function.update_self ..

@[simp] theorem set_published (d : Nat) (directory : ActionDirectory) :
    (root.set d directory).published = root.published := rfl

theorem set_directory_of_ne {d e : Nat} (h : e ≠ d) (directory : ActionDirectory) :
    (root.set d directory).directory e = root.directory e := Function.update_of_ne h ..

/-- Exclusive creation of one record: it is refused where one is present, and in a directory
which is no longer there. -/
def install {α : Type} (d : Nat) (get : ActionDirectory → Option α)
    (put : ActionDirectory → ActionDirectory) : Installation × Root Proc :=
  match root.directory d with
  | none => (.fileNotFound, root)
  | some directory =>
    if !directory.live then (.fileNotFound, root)
    else if (get directory).isSome then (.fileExists, root)
    else (.created, root.set d (put directory))

def remove {α : Type} (d : Nat) (get : ActionDirectory → Option α)
    (put : ActionDirectory → ActionDirectory) : Bool × Root Proc :=
  match root.directory d with
  | none => (false, root)
  | some directory =>
    if (get directory).isSome then (true, root.set d (put directory)) else (false, root)

variable [DecidableEq Proc] (p : Proc)

/-- The descriptor of an action, retained from the first time it is opened. -/
def openAction (a : ActionId) : Stored Nat × Root Proc :=
  match root.descriptors p a with
  | some d =>
    if root.isLive d then (.ok d, root)
    else (.error (.protocol "transaction action directory has unsafe metadata"), root)
  | none =>
    match root.names a with
    | none => (.error .fileNotFound, root)
    | some d =>
      (.ok d, { root with
        descriptors := Function.update root.descriptors p
          (Function.update (root.descriptors p) a (some d)) })

/-- The bundle gets the name of its action, unless that name is taken. -/
def publish (request : TransactionRequest) (prepared : BoundTransactionRecord)
    (artifacts : List TransactionArtifact) : Bool × Root Proc :=
  match root.names request.actionId with
  | some _ => (false, root)
  | none =>
    (true, { root with
      published := root.published + 1
      directory := Function.update root.directory root.published (some {
        action := request.actionId
        origin := request
        live := true
        request := some request
        prepared := some prepared
        artifacts := if artifacts.isEmpty then none else some artifacts
        submissionClaim := none
        executionClaim := none
        stopIntent := none
        result := none })
      names := Function.update root.names request.actionId (some root.published) })

/-- An empty directory loses its name; one with entries is left. -/
def removeDirectory (a : ActionId) : Bool × Root Proc :=
  match root.names a with
  | none => (false, root)
  | some d =>
    match root.directory d with
    | none => (false, root)
    | some directory =>
      if directory.names.isEmpty then
        (true, { root.set d { directory with live := false } with
          names := Function.update root.names a none })
      else (false, root)

/-- What the file system answers to an access of a process in its numbered call. -/
def perform (call : Nat) : (q : Access) → Root Proc → q.Reply × Root Proc
  | .openAction a, root => root.openAction p a
  | .validateDirectory d, root =>
    (if root.isLive d then .ok ()
      else .error (.protocol "transaction action directory has unsafe metadata"), root)
  | .readRequest d, root => (root.read d (·.request), root)
  | .readBoundRecord d kind, root => (root.read d (·.bound kind), root)
  | .readStopIntent d, root => (root.read d (·.stopIntent), root)
  | .readResult d, root => (root.read d (·.result), root)
  | .artifactPaths d, root =>
    ((((root.directory d).bind (·.artifacts)).getD []).map (·.relativePath), root)
  | .readArtifact d path executable, root =>
    (root.read d fun directory =>
      ((directory.artifact path).filter (·.executable = executable)).map (·.content), root)
  | .publish request prepared artifacts, root => root.publish request prepared artifacts
  | .createSubmissionClaim d claim, root =>
    root.install d (·.submissionClaim) ({ · with submissionClaim := some ⟨claim, call⟩ })
  | .createExecutionClaim d claim, root =>
    root.install d (·.executionClaim) ({ · with executionClaim := some ⟨claim, call⟩ })
  | .createStopIntent d intent, root =>
    root.install d (·.stopIntent) ({ · with stopIntent := some intent })
  | .createResult d result, root =>
    root.install d (·.result) ({ · with result := some result })
  | .listDirectory d, root => (((root.directory d).map (·.names)).getD [], root)
  | .unlinkArtifact d path, root =>
    root.remove d (·.artifact path) (·.withoutArtifact path)
  | .removeArtifactRoot d, root =>
    root.remove d (fun directory => directory.artifacts.filter (·.isEmpty))
      ({ · with artifacts := none })
  | .unlinkPrepared d, root => root.remove d (·.prepared) ({ · with prepared := none })
  | .unlinkRequest d, root => root.remove d (·.request) ({ · with request := none })
  | .removeDirectory a, root => root.removeDirectory a
  | .closeAction a, root =>
    ((), { root with
      descriptors := Function.update root.descriptors p
        (Function.update (root.descriptors p) a none) })
  | .close, root =>
    ((), { root with descriptors := Function.update root.descriptors p fun _ => none })

end Root

/-! ## The operations of the store -/

abbrev StoreProgram := Program Access.Reply StoreError

namespace Store

open Program

abbrev access (q : Access) : StoreProgram q.Reply := ask q

def attempt {α : Type} (p : StoreProgram (Stored α)) : StoreProgram α := do
  lift (← p)

def demand (p : StoreProgram Bool) (e : StoreError) : StoreProgram Unit := do
  require (← p) e

def actionDescriptor (a : ActionId) : StoreProgram Nat :=
  attempt (access (.openAction a))

/-- `_read_regular_file_at`: the directory is validated before and after the read. -/
def readRegularFile {α : Type} (d : Nat) (p : StoreProgram (Stored α)) : StoreProgram α := do
  attempt (access (.validateDirectory d))
  let record ← attempt p
  attempt (access (.validateDirectory d))
  return record

def readRequestAt (d : Nat) (a : ActionId) : StoreProgram TransactionRequest := do
  let request ← readRegularFile d (access (.readRequest d))
  require (request.actionId = a) (.protocol "request path and action identity do not match")
  return request

def readBoundRecordAt (d : Nat) (kind : BoundRecordKind) :
    StoreProgram BoundTransactionRecord := do
  let record ← readRegularFile d (access (.readBoundRecord d kind))
  require (record.recordKind = kind)
    (.protocol "bound transaction record has the wrong semantic kind")
  return record

def readRequest (a : ActionId) : StoreProgram TransactionRequest := do
  let descriptor ← actionDescriptor a
  let request ← readRequestAt descriptor a
  let prepared ← readBoundRecordAt descriptor .prepared
  lift (validateBoundRecord request prepared)
  return request

def readSubmissionClaim (a : ActionId) : StoreProgram BoundTransactionRecord := do
  let request ← readRequest a
  let claim ← readBoundRecordAt (← actionDescriptor a) .submissionClaim
  lift (validateBoundRecord request claim)
  return claim

/-- A missing file is reported as the protocol error of the record which requires it. -/
def requiring {α : Type} (message : String) (p : StoreProgram α) : StoreProgram α :=
  handle p fun
    | .fileNotFound => raise (.protocol message)
    | e => raise e

def requireSubmission (a : ActionId) (recordName : String) : StoreProgram Unit := do
  let _ ← requiring (recordName ++ " requires a durable manager-submission claim")
    (readSubmissionClaim a)
  return ()

def readExecutionClaim (a : ActionId) : StoreProgram BoundTransactionRecord := do
  let request ← readRequest a
  requireSubmission a "execution claim"
  let claim ← readBoundRecordAt (← actionDescriptor a) .executionClaim
  lift (validateBoundRecord request claim)
  return claim

/-- The refusal of a claim which is already there, after it has been validated. -/
def alreadyClaimed {α : Type} (descriptor : Nat) (request : TransactionRequest)
    (kind : BoundRecordKind) (message : String) : StoreProgram α := do
  let existing ← readBoundRecordAt descriptor kind
  lift (validateBoundRecord request existing)
  raise (.executionAlreadyClaimed message)

def readStopIntent (a : ActionId) : StoreProgram StopIntent := do
  let request ← readRequest a
  let descriptor ← actionDescriptor a
  let intent ← readRegularFile descriptor (access (.readStopIntent descriptor))
  lift (validateStopIntentBinding request intent)
  requireSubmission a "stop intent"
  return intent

def validateResultAuthorization (result : TransactionResult) : StoreProgram Unit := do
  requireSubmission result.actionId "worker result"
  if result.outcome = .completed then
    let _ ← requiring "completed worker result requires a durable execution claim"
      (readExecutionClaim result.actionId)

def readResult (a : ActionId) : StoreProgram TransactionResult := do
  let request ← readRequest a
  let descriptor ← actionDescriptor a
  let result ← readRegularFile descriptor (access (.readResult descriptor))
  lift (validateResultBinding request result)
  validateResultAuthorization result
  return result

def validateArtifactsAt (d : Nat) (artifacts : List TransactionArtifact) :
    StoreProgram Unit := do
  let actual ← access (.artifactPaths d)
  require (actual = artifacts.map (·.relativePath))
    (.protocol "transaction artifact tree differs from its exact manifest")
  artifacts.forM fun artifact => do
    let content ← readRegularFile d (access (.readArtifact d artifact.relativePath artifact.executable))
    require (content = artifact.content)
      (.immutable ("transaction artifact " ++ artifact.relativePath ++ " changed"))

section Operations

variable (sha : ContentSha256)

/-- `_install_prepared_bundle`: a name which another creator took is left to the caller. -/
def installPreparedBundle (request : TransactionRequest) (prepared : BoundTransactionRecord)
    (artifacts : List TransactionArtifact) : StoreProgram Unit := do
  let _ ← access (.publish request prepared artifacts)
  return ()

def createRequest (request : TransactionRequest) (artifacts : List TransactionArtifact) :
    StoreProgram TransactionRequest := do
  let artifacts ← lift (validatedArtifacts artifacts)
  let request ← lift (withRequestHash sha request)
  let prepared := request.record sha .prepared
  let descriptor ← handle (actionDescriptor request.actionId) fun
    | .fileNotFound => do
      installPreparedBundle request prepared artifacts
      actionDescriptor request.actionId
    | e => raise e
  let existing ← readRequestAt descriptor request.actionId
  let existingPrepared ← readBoundRecordAt descriptor .prepared
  lift (validateBoundRecord existing existingPrepared)
  require (existing = request ∧ existingPrepared = prepared)
    (.immutable ("request for " ++ request.actionId.value ++ " is already immutable"))
  if ¬ artifacts.isEmpty then validateArtifactsAt descriptor artifacts
  return existing

def claimSubmission (a : ActionId) : StoreProgram BoundTransactionRecord := do
  let request ← readRequest a
  let claim := request.record sha .submissionClaim
  let descriptor ← actionDescriptor a
  match ← access (.createSubmissionClaim descriptor claim) with
  | .created => return claim
  | .fileNotFound => raise .fileNotFound
  | .fileExists =>
    alreadyClaimed descriptor request .submissionClaim
      ("submission for " ++ a.value ++ " was already claimed")

def claimExecution (a : ActionId) : StoreProgram BoundTransactionRecord := do
  let request ← readRequest a
  requireSubmission a "execution claim"
  let claim := request.record sha .executionClaim
  let descriptor ← actionDescriptor a
  match ← access (.createExecutionClaim descriptor claim) with
  | .created => return claim
  | .fileNotFound => raise .fileNotFound
  | .fileExists =>
    alreadyClaimed descriptor request .executionClaim
      ("execution for " ++ a.value ++ " was already claimed")

/-- The stop intent of a request; only an exact stop lifecycle makes one. -/
def stopIntentOf (request : TransactionRequest) (lifecycle : ActionLifecycle) :
    Stored StopIntent :=
  if h : lifecycle.stoppable = true then
    .ok (withStopIntentHash sha ⟨request.binding, lifecycle, h⟩)
  else .error (.protocol "stop intent must be cancelled, timed out, or unknown")

def createStopIntent (a : ActionId) (lifecycle : ActionLifecycle) : StoreProgram StopIntent := do
  let request ← readRequest a
  requireSubmission request.actionId "stop intent"
  let intent ← lift (stopIntentOf sha request lifecycle)
  let descriptor ← actionDescriptor a
  match ← access (.createStopIntent descriptor intent) with
  | .created => return intent
  | .fileNotFound => raise .fileNotFound
  | .fileExists => do
    let existing ← readStopIntent a
    require (existing = intent)
      (.immutable ("stop intent for " ++ a.value ++ " is already immutable"))
    return existing

def writeResult (result : TransactionResult) : StoreProgram TransactionResult := do
  let request ← readRequest result.actionId
  let result ← lift (withResultHash sha result)
  lift (validateResultBinding request result)
  validateResultAuthorization result
  let descriptor ← actionDescriptor result.actionId
  match ← access (.createResult descriptor result) with
  | .created => return result
  | .fileNotFound => raise .fileNotFound
  | .fileExists => do
    let existing ← readResult result.actionId
    require (existing = result)
      (.immutable ("result for " ++ result.actionId.value ++ " is already immutable"))
    return existing

/-- `_remove_child_directory_at` of the artifact tree. -/
def removeArtifacts (d : Nat) : StoreProgram Unit := do
  let paths ← access (.artifactPaths d)
  paths.forM fun path =>
    demand (access (.unlinkArtifact d path)) (.protocol "transaction child entry cannot be removed")
  demand (access (.removeArtifactRoot d))
    (.protocol "transaction child directory cannot be removed")

/-- Only a request, its preparation and its artifacts are listed. -/
def unacknowledged (names : List String) : Bool :=
  names.all (fun name => name = "prepared.json" || name = "request.json" || name = "artifacts") &&
    names.contains "prepared.json" && names.contains "request.json"

def discardUnacknowledged (request : TransactionRequest) : StoreProgram Unit := do
  let existing ← readRequest request.actionId
  let expected ← lift (withRequestHash sha request)
  require (existing = expected) (.immutable "prepared request identity changed before cleanup")
  let descriptor ← actionDescriptor request.actionId
  let names ← access (.listDirectory descriptor)
  require (unacknowledged names)
    (.immutable "cannot discard a transaction containing submission evidence")
  if names.contains "artifacts" then removeArtifacts descriptor
  demand (access (.unlinkPrepared descriptor))
    (.immutable "prepared transaction evidence changed during cleanup")
  demand (access (.unlinkRequest descriptor))
    (.immutable "prepared transaction evidence changed during cleanup")
  demand (access (.removeDirectory request.actionId))
    (.immutable "transaction directory contains unexpected evidence")
  access (.closeAction request.actionId)

end Operations

end Store

namespace Store

/-- A call of the store. -/
inductive Operation where
  | createRequest (request : TransactionRequest) (artifacts : List TransactionArtifact)
  | claimSubmission (a : ActionId)
  | claimExecution (a : ActionId)
  | createStopIntent (a : ActionId) (lifecycle : ActionLifecycle)
  | writeResult (result : TransactionResult)
  | discardUnacknowledged (request : TransactionRequest)
  | readRequest (a : ActionId)
  | readSubmissionClaim (a : ActionId)
  | readExecutionClaim (a : ActionId)
  | readStopIntent (a : ActionId)
  | readResult (a : ActionId)
  | close
  deriving DecidableEq

/-- What a call of the store returns. -/
inductive Value where
  | request (request : TransactionRequest)
  | record (record : BoundTransactionRecord)
  | stopIntent (intent : StopIntent)
  | result (result : TransactionResult)
  | none
  deriving DecidableEq

def program (sha : ContentSha256) : Operation → StoreProgram Value
  | .createRequest request artifacts => do return .request (← createRequest sha request artifacts)
  | .claimSubmission a => do return .record (← claimSubmission sha a)
  | .claimExecution a => do return .record (← claimExecution sha a)
  | .createStopIntent a lifecycle => do return .stopIntent (← createStopIntent sha a lifecycle)
  | .writeResult result => do return .result (← writeResult sha result)
  | .discardUnacknowledged request => do
    discardUnacknowledged sha request
    return .none
  | .readRequest a => do return .request (← readRequest a)
  | .readSubmissionClaim a => do return .record (← readSubmissionClaim a)
  | .readExecutionClaim a => do return .record (← readExecutionClaim a)
  | .readStopIntent a => do return .stopIntent (← readStopIntent a)
  | .readResult a => do return .result (← readResult a)
  | .close => do
    access .close
    return .none

/-- The processes which call the store on one transaction root. -/
def machine (Proc : Type) [DecidableEq Proc] (sha : ContentSha256) :
    Interleaving.Machine (Root Proc) Proc Operation Access.Reply StoreError Value where
  program := program sha
  perform p n := Root.perform p n

end Store

end MonitorController
