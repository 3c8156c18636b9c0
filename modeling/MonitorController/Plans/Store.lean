import Mathlib.Algebra.GroupWithZero.Nat
import MonitorController.Foundation.Interleaving
import MonitorController.Values.Evidence
import MonitorController.Values.Names
import Mathlib.Data.List.Sort

/-! # The plan store

A desktop plan is staged beneath the name of its planning identity, and a
revocation marker beside it withdraws that name. A published plan directory is
known by its number, in the order of publication. Renames and the exclusive
creation of the marker are atomic accesses, and so is every other check and
read. The store is generic in what a plan is; it works on one planning identity.
-/

namespace MonitorController

open Programs

/-- `PlanCodecError`, its kind `ImmutablePlanError`, and the missing file which callers tell
apart. -/
inductive PlanError where
  | fileNotFound
  | codec (message : String)
  | immutable (message : String)
  deriving DecidableEq, Repr

def maxPlanArtifacts : Nat := 64

def maxPlanArtifactBytes : Nat := 512 * 1024

def maxPlanArtifactTotalBytes : Nat := 2 * 1024 * 1024

/-- `_artifact_path`: a canonical relative path beneath `artifacts`. -/
def artifactPath (value : String) : Bool :=
  let parts := value.splitOn "/"
  2 ≤ parts.length && parts.head? = some "artifacts" &&
    parts.all fun part => part ≠ "" && part ≠ "." && part ≠ ".." && part.length ≤ 255

/-- One private file staged beside the plan. -/
structure PlanArtifact where
  relativePath : String
  content : List UInt8
  canonical : artifactPath relativePath = true
  sized : content ≠ [] ∧ content.length ≤ maxPlanArtifactBytes
  deriving DecidableEq

/-- `PlanArtifact.__post_init__`. -/
def PlanArtifact.make (relativePath : String) (content : List UInt8) :
    Except PlanError PlanArtifact :=
  if canonical : artifactPath relativePath = true then
    if sized : content ≠ [] ∧ content.length ≤ maxPlanArtifactBytes then
      .ok ⟨relativePath, content, canonical, sized⟩
    else .error (.codec "plan artifact is empty or exceeds its size limit")
  else .error (.codec "plan artifact path is not canonical beneath artifacts/")

theorem PlanArtifact.make_self (artifact : PlanArtifact) :
    make artifact.relativePath artifact.content = .ok artifact := by
  unfold make
  rw [dif_pos artifact.canonical, dif_pos artifact.sized]

/-- One artifact in the manifest of a plan. -/
structure PlanArtifactManifestEntry where
  relativePath : String
  sha256 : String
  canonical : artifactPath relativePath = true
  deriving DecidableEq

/-- What the store uses of a plan: the identity in its guards, its manifest, and the hashes. The
hash of a plan which cannot be encoded is an error. -/
structure PlanCodec (Plan : Type) where
  actionId : Plan → ActionId
  artifacts : Plan → List PlanArtifactManifestEntry
  contentHash : List UInt8 → String
  hashPlan : Plan → List PlanArtifact → Except PlanError PlanHash

def PlanCodec.entry {Plan : Type} (codec : PlanCodec Plan) (artifact : PlanArtifact) :
    PlanArtifactManifestEntry :=
  ⟨artifact.relativePath, codec.contentHash artifact.content, artifact.canonical⟩

/-- A plan and exactly the artifacts of its manifest. -/
@[ext]
structure DesktopPlanBundle {Plan : Type} (codec : PlanCodec Plan) where
  plan : Plan
  artifacts : List PlanArtifact
  few : artifacts.length ≤ maxPlanArtifacts
  ordered : (artifacts.map (·.relativePath)).Pairwise (· < ·)
  bounded : (artifacts.map (·.content.length)).sum ≤ maxPlanArtifactTotalBytes
  manifest : codec.artifacts plan = artifacts.map codec.entry

variable {Plan : Type} {codec : PlanCodec Plan}

namespace DesktopPlanBundle

instance [DecidableEq Plan] : DecidableEq (DesktopPlanBundle codec) := fun b b' =>
  decidable_of_iff (b.plan = b'.plan ∧ b.artifacts = b'.artifacts)
    ⟨fun h => DesktopPlanBundle.ext h.1 h.2, fun h => h ▸ ⟨rfl, rfl⟩⟩

/-- `DesktopPlanBundle.__post_init__`. -/
def make (codec : PlanCodec Plan) (plan : Plan) (artifacts : List PlanArtifact) :
    Except PlanError (DesktopPlanBundle codec) :=
  if few : artifacts.length ≤ maxPlanArtifacts then
    if ordered : (artifacts.map (·.relativePath)).Pairwise (· < ·) then
      if bounded : (artifacts.map (·.content.length)).sum ≤ maxPlanArtifactTotalBytes then
        if manifest : codec.artifacts plan = artifacts.map codec.entry then
          .ok ⟨plan, artifacts, few, ordered, bounded, manifest⟩
        else .error (.codec "plan artifact bytes differ from their manifest")
      else .error (.codec "plan artifacts exceed the aggregate size limit")
    else .error (.codec "plan artifacts must be sorted and unique")
  else .error (.codec "plan has too many artifacts")

theorem make_self (b : DesktopPlanBundle codec) : make codec b.plan b.artifacts = .ok b := by
  unfold make
  simp only [b.few, b.ordered, b.bounded, b.manifest, dif_pos]

/-- `hash_plan_bundle`. -/
def hash (b : DesktopPlanBundle codec) : Except PlanError PlanHash :=
  codec.hashPlan b.plan b.artifacts

end DesktopPlanBundle

/-- The revocation marker of the identity: absent, created and still empty, or written. A written
marker remembers how many plans had been published by then. -/
inductive Marker where
  | absent
  | created
  | written (published : Nat)
  deriving DecidableEq

def Marker.isWritten : Marker → Bool
  | .written _ => true
  | _ => false

/-- One published directory, with the bundle, the hash and the process it was published by. The
changes are those which the metadata of the directory shows. -/
structure PlanDirectory (codec : PlanCodec Plan) (Proc : Type) where
  origin : DesktopPlanBundle codec
  originHash : PlanHash
  process : Proc
  plan : Option Plan
  sha256 : Option PlanHash
  artifacts : Option (List PlanArtifact)
  changes : Nat

namespace PlanDirectory

variable {Proc : Type} (D : PlanDirectory codec Proc)

def names : List String :=
  (if D.artifacts.isSome then ["artifacts"] else []) ++
  (if D.plan.isSome then ["plan.json"] else []) ++
  (if D.sha256.isSome then ["plan.sha256"] else [])

/-- The relative paths of all regular files, in the order of the walk. -/
def files : List String :=
  (D.artifacts.getD []).map (·.relativePath) ++
  (if D.plan.isSome then ["plan.json"] else []) ++
  (if D.sha256.isSome then ["plan.sha256"] else [])

def artifact (path : String) : Option PlanArtifact :=
  (D.artifacts.getD []).find? (·.relativePath = path)

def withoutArtifact (path : String) : PlanDirectory codec Proc :=
  { D with artifacts := D.artifacts.map (·.filter (·.relativePath ≠ path)) }

end PlanDirectory

/-- The part of the staging root which belongs to the planning identity. -/
structure PlanRoot (codec : PlanCodec Plan) (Proc : Type) where
  marker : Marker
  name : Option Nat
  published : Nat
  directory : Nat → Option (PlanDirectory codec Proc)

/-- Nothing has been published or revoked yet. -/
def PlanRoot.Empty {Proc : Type} (root : PlanRoot codec Proc) : Prop :=
  root.marker = .absent ∧ root.name = none ∧ root.published = 0 ∧ ∀ d, root.directory d = none

/-- One access of the store to the file system. -/
inductive PlanAccess (codec : PlanCodec Plan) where
  | readMarker
  | createMarker
  | writeMarker
  | openPublished
  | stat (d : Nat)
  | readPlan (d : Nat)
  | readArtifact (d : Nat) (path : String)
  | listFiles (d : Nat)
  | readHash (d : Nat)
  | publish (bundle : DesktopPlanBundle codec) (planHash : PlanHash)
  | detach
  | listDirectory (d : Nat)
  | artifactPaths (d : Nat)
  | unlinkArtifact (d : Nat) (path : String)
  | removeArtifactRoot (d : Nat)
  | unlinkPlan (d : Nat)
  | unlinkHash (d : Nat)
  | removeDirectory (d : Nat)

/-- What an access answers; a Boolean tells whether a change was made, and a directory which was
opened or renamed is told by its number. -/
abbrev PlanAccess.Reply : PlanAccess codec → Type
  | .readMarker => Marker
  | .createMarker => Bool
  | .writeMarker => Unit
  | .openPublished => Option Nat
  | .stat _ => Nat
  | .readPlan _ => Option Plan
  | .readArtifact _ _ => Option (List UInt8)
  | .listFiles _ => List String
  | .readHash _ => Option PlanHash
  | .publish _ _ => Bool
  | .detach => Option Nat
  | .listDirectory _ => List String
  | .artifactPaths _ => List String
  | .unlinkArtifact _ _ => Bool
  | .removeArtifactRoot _ => Bool
  | .unlinkPlan _ => Bool
  | .unlinkHash _ => Bool
  | .removeDirectory _ => Bool

namespace PlanRoot

variable {Proc : Type} (root : PlanRoot codec Proc)

def set (d : Nat) (D : PlanDirectory codec Proc) : PlanRoot codec Proc :=
  { root with directory := Function.update root.directory d (some D) }

@[simp] theorem set_directory_self (d : Nat) (D : PlanDirectory codec Proc) :
    (root.set d D).directory d = some D := Function.update_self ..

@[simp] theorem set_published (d : Nat) (D : PlanDirectory codec Proc) :
    (root.set d D).published = root.published := rfl

theorem set_directory_of_ne {d e : Nat} (h : e ≠ d) (D : PlanDirectory codec Proc) :
    (root.set d D).directory e = root.directory e := Function.update_of_ne h ..

def remove (d : Nat) (present : PlanDirectory codec Proc → Bool)
    (put : PlanDirectory codec Proc → PlanDirectory codec Proc) : Bool × PlanRoot codec Proc :=
  match root.directory d with
  | none => (false, root)
  | some D => if present D then (true, root.set d (put D)) else (false, root)

def createMarker : Bool × PlanRoot codec Proc :=
  match root.marker with
  | .absent => (true, { root with marker := .created })
  | _ => (false, root)

def writeMarker : Unit × PlanRoot codec Proc :=
  match root.marker with
  | .created => ((), { root with marker := .written root.published })
  | _ => ((), root)

/-- `renameat2` with `RENAME_NOREPLACE` to the name of the identity. -/
def publish (p : Proc) (bundle : DesktopPlanBundle codec) (planHash : PlanHash) :
    Bool × PlanRoot codec Proc :=
  match root.name with
  | some _ => (false, root)
  | none =>
    (true, { root with
      published := root.published + 1
      name := some root.published
      directory := Function.update root.directory root.published (some {
        origin := bundle
        originHash := planHash
        process := p
        plan := some bundle.plan
        sha256 := some planHash
        artifacts := if bundle.artifacts.isEmpty then none else some bundle.artifacts
        changes := 0 }) })

/-- The published directory, whichever it is, is renamed to a private name. -/
def detach : Option Nat × PlanRoot codec Proc :=
  match root.name with
  | none => (none, root)
  | some d =>
    match root.directory d with
    | none => (none, root)
    | some D => (some d, { root.set d { D with changes := D.changes + 1 } with name := none })

def perform (p : Proc) : (q : PlanAccess codec) → PlanRoot codec Proc →
    q.Reply × PlanRoot codec Proc
  | .readMarker, root => (root.marker, root)
  | .createMarker, root => root.createMarker
  | .writeMarker, root => root.writeMarker
  | .openPublished, root => (root.name, root)
  | .stat d, root => (((root.directory d).map (·.changes)).getD 0, root)
  | .readPlan d, root => ((root.directory d).bind (·.plan), root)
  | .readArtifact d path, root =>
    (((root.directory d).bind (·.artifact path)).map (·.content), root)
  | .listFiles d, root => (((root.directory d).map (·.files)).getD [], root)
  | .readHash d, root => ((root.directory d).bind (·.sha256), root)
  | .publish bundle planHash, root => root.publish p bundle planHash
  | .detach, root => root.detach
  | .listDirectory d, root => (((root.directory d).map (·.names)).getD [], root)
  | .artifactPaths d, root =>
    ((((root.directory d).bind (·.artifacts)).getD []).map (·.relativePath), root)
  | .unlinkArtifact d path, root =>
    root.remove d (fun D => (D.artifact path).isSome) (·.withoutArtifact path)
  | .removeArtifactRoot d, root =>
    root.remove d (fun D => D.artifacts = some [])
      fun D => { D with artifacts := none, changes := D.changes + 1 }
  | .unlinkPlan d, root =>
    root.remove d (·.plan.isSome) fun D => { D with plan := none, changes := D.changes + 1 }
  | .unlinkHash d, root =>
    root.remove d (·.sha256.isSome) fun D => { D with sha256 := none, changes := D.changes + 1 }
  -- Nothing leads to a directory which has been renamed and emptied.
  | .removeDirectory d, root => (((root.directory d).map (·.names.isEmpty)).getD false, root)

end PlanRoot

/-! ## The operations of the plan store -/

abbrev PlanProgram (codec : PlanCodec Plan) := Program (@PlanAccess.Reply _ codec) PlanError

namespace PlanStore

open Program

abbrev access (q : PlanAccess codec) : PlanProgram codec q.Reply := ask q

def present {α : Type} : Option α → PlanProgram codec α
  | some value => .done value
  | none => .raise .fileNotFound

/-- An entry which has to be removed for the operation to go on. -/
def demand (p : PlanProgram codec Bool) (e : PlanError) : PlanProgram codec Unit := do
  require (← p) e

def planAction (a : ActionId) : PlanProgram codec Unit :=
  require (a.kind = .plan) (.codec "plan store accepts only planning action IDs")

/-- The content of the marker is the identity, so that a written marker is the right one. -/
def readMarker (a : ActionId) : PlanProgram codec Unit := do
  match ← access .readMarker with
  | .absent => raise .fileNotFound
  -- An empty marker has no safe metadata.
  | .created =>
    raise (.codec ("staged plan file '." ++ a.value ++ ".revoked' has unsafe metadata"))
  | .written _ => return ()

def isRevoked (a : ActionId) : PlanProgram codec Bool := do
  planAction a
  handle (do
    readMarker a
    return true) fun
    | .fileNotFound => return false
    | e => raise e

def revoke (a : ActionId) : PlanProgram codec Unit := do
  planAction a
  if ← access .createMarker then
    access .writeMarker
  else readMarker a

def readArtifactAt (d : Nat) (entry : PlanArtifactManifestEntry) :
    PlanProgram codec PlanArtifact := do
  let content ← present (← access (.readArtifact d entry.relativePath))
  require (codec.contentHash content = entry.sha256)
    (.immutable "staged plan artifact content changed")
  lift (PlanArtifact.make entry.relativePath content)

def readArtifactsAt (d : Nat) : List PlanArtifactManifestEntry →
    PlanProgram codec (List PlanArtifact)
  | [] => return []
  | entry :: entries => do
    let artifact ← readArtifactAt d entry
    let artifacts ← readArtifactsAt d entries
    return artifact :: artifacts

def readPublishedAt (d : Nat) (a : ActionId) :
    PlanProgram codec (DesktopPlanBundle codec × Nat) := do
  let before ← access (.stat d)
  let plan ← present (← access (.readPlan d))
  require (codec.actionId plan = a) (.codec "staged plan path and action identity differ")
  let artifacts ← readArtifactsAt d (codec.artifacts plan)
  let files ← access (.listFiles d)
  let expected := (codec.artifacts plan).map (·.relativePath) ++ ["plan.json", "plan.sha256"]
  require (files.insertionSort (· ≤ ·) = expected.insertionSort (· ≤ ·))
    (.codec "staged plan directory has an unexpected file set")
  let bundle ← lift (DesktopPlanBundle.make codec plan artifacts)
  let storedHash ← present (← access (.readHash d))
  let actual ← lift bundle.hash
  require (actual = storedHash) (.immutable "staged plan content hash changed")
  let after ← access (.stat d)
  require (before = after) (.immutable "staged plan directory changed during read")
  return (bundle, before)

/-- `_read_published_with_identity`: the bundle, the directory it was read from and the metadata
of the directory. -/
def readPublishedWithIdentity (a : ActionId) :
    PlanProgram codec (DesktopPlanBundle codec × Nat × Nat) := do
  planAction a
  let d ← present (← access .openPublished)
  let (bundle, details) ← readPublishedAt d a
  return (bundle, d, details)

def read (a : ActionId) : PlanProgram codec (DesktopPlanBundle codec) := do
  if ← isRevoked a then
    raise (.immutable "planning identity is revoked")
  else
    let (bundle, _) ← readPublishedWithIdentity a
    return bundle

def removeArtifacts (d : Nat) : PlanProgram codec Unit := do
  let paths ← access (.artifactPaths d)
  paths.forM fun path =>
    demand (access (.unlinkArtifact d path)) (.codec "plan cleanup entry cannot be removed")
  demand (access (.removeArtifactRoot d)) (.codec "plan cleanup directory cannot be removed")

def removeEntry (d : Nat) (name : String) : PlanProgram codec Unit :=
  if name = "artifacts" then removeArtifacts d
  else if name = "plan.json" then
    demand (access (.unlinkPlan d)) (.codec "plan cleanup entry cannot be removed")
  else demand (access (.unlinkHash d)) (.codec "plan cleanup entry cannot be removed")

/-- `_remove_directory_tree_at` for a detached directory. -/
def removeDirectoryTree (d : Nat) : PlanProgram codec Unit := do
  let names ← access (.listDirectory d)
  names.forM (removeEntry d)
  demand (access (.removeDirectory d)) (.codec "plan cleanup directory cannot be removed")

/-- The plan which has been read is detached, if it is still the published one, and removed. -/
def discardRead (expectedHash : Option PlanHash) (bundle : DesktopPlanBundle codec)
    (d details : Nat) : PlanProgram codec Unit := do
  let actual ← lift bundle.hash
  require (∀ h ∈ expectedHash, actual = h)
    (.immutable "refusing to discard a different staged plan")
  let source ← present (← access .openPublished)
  let sourceDetails ← access (.stat source)
  require (source = d ∧ sourceDetails = details)
    (.immutable "published plan changed before discard")
  let detached ← present (← access .detach)
  require (detached = source)
    (.immutable "detached plan inode differs from validated plan")
  removeDirectoryTree source

def discardPublished (a : ActionId) (expectedHash : Option PlanHash) : PlanProgram codec Unit := do
  let published ← handle (do return some (← readPublishedWithIdentity a)) fun
    | .fileNotFound => return none
    | e => raise e
  match published with
  | none => return ()
  | some (bundle, d, details) => discardRead expectedHash bundle d details

def discard (a : ActionId) (expectedHash : Option PlanHash) : PlanProgram codec Unit := do
  planAction a
  let revoked ← isRevoked a
  require revoked (.immutable "plan must be durably revoked before discard")
  discardPublished a expectedHash

variable [DecidableEq Plan]

/-- A plan which is there already has to be the one to be staged. -/
def stageExisting (a : ActionId) (bundle : DesktopPlanBundle codec) (planHash : PlanHash)
    (message : String) : PlanProgram codec PlanHash := do
  let existing ← read a
  require (existing = bundle) (.immutable message)
  let actual ← lift existing.hash
  require (actual = planHash) (.immutable message)
  return planHash

/-- The plan is published under its name; a revocation which came first takes it back. -/
def stagePublish (a : ActionId) (bundle : DesktopPlanBundle codec) (planHash : PlanHash) :
    PlanProgram codec PlanHash := do
  if ← isRevoked a then
    raise (.immutable "planning identity was revoked before publication")
  else if ← access (.publish bundle planHash) then
    if ← isRevoked a then
      discardPublished a (some planHash)
      raise (.immutable "late plan publication rejected after revocation")
    else return planHash
  else stageExisting a bundle planHash "concurrent plan publication differs"

def stage (a : ActionId) (bundle : DesktopPlanBundle codec) : PlanProgram codec PlanHash := do
  planAction a
  require (codec.actionId bundle.plan = a)
    (.codec "plan bundle action differs from staging directory")
  if ← isRevoked a then
    raise (.immutable "planning identity was revoked before publication")
  else
    let planHash ← lift bundle.hash
    match ← access .openPublished with
    | some _ =>
      stageExisting a bundle planHash "published planning identity is immutable"
    | none => stagePublish a bundle planHash

/-- A call of the store. -/
inductive Operation (codec : PlanCodec Plan) where
  | stage (bundle : DesktopPlanBundle codec)
  | read
  | revoke
  | isRevoked
  | discard (expectedHash : Option PlanHash)
  deriving DecidableEq

/-- What a call returns. -/
inductive Value (codec : PlanCodec Plan) where
  | hash (planHash : PlanHash)
  | bundle (bundle : DesktopPlanBundle codec)
  | flag (revoked : Bool)
  | none
  deriving DecidableEq

def program (a : ActionId) : Operation codec → PlanProgram codec (Value codec)
  | .stage bundle => do return .hash (← stage a bundle)
  | .read => do return .bundle (← read a)
  | .revoke => do
    revoke a
    return .none
  | .isRevoked => do return .flag (← isRevoked a)
  | .discard expectedHash => do
    discard a expectedHash
    return .none

/-- The processes which call the store on one planning identity. -/
def machine (codec : PlanCodec Plan) (Proc : Type) (a : ActionId) :
    Interleaving.Machine (PlanRoot codec Proc) Proc (Operation codec)
      (@PlanAccess.Reply _ codec) PlanError (Value codec) where
  program := program a
  perform p _ := PlanRoot.perform p

end PlanStore

end MonitorController
