import MonitorController.Recovery.Reconcile

/-! # Recovery

`recover_state` compares the persisted state with the worker namespace, exit by
exit: a failed scan, a missing record, another display, another boot, and the
same boot with or without a reason against authority.
-/

namespace MonitorController

/-- A recovery state plus an explicit authority decision. -/
structure RecoveryResult where
  state : State
  authorityAllowed : Bool
  requiresFreshObservation : Bool
  reasons : List String := []
  denied : authorityAllowed = false → state.phase = .recovering := by simp

def actionHighWater (persisted : Option State) (snapshot : WorkerNamespaceSnapshot)
    (tombstones : List ActionTombstone) (units : List WorkerUnit) : Nat :=
  let known : List ActionId :=
    match persisted with
    | none => []
    | some s => s.identities
  let identities := units.map (·.actionId) ++ snapshot.evidence.map (·.actionId) ++
    tombstones.map (·.actionId) ++ known
  (snapshot.actionSequenceHighWater ::
    (persisted.map (·.actionSequenceHighWater)).toList ++ identities.map (·.sequence)).foldr max 0

def transitionHighWater (persisted : Option State) (snapshot : WorkerNamespaceSnapshot) : Nat :=
  let known : List Nat :=
    match persisted with
    | none => []
    | some s => s.transitionSequenceHighWater :: s.transitions.map (·.sequence)
  (snapshot.transitionSequenceHighWater :: known).foldr max 0

def terminalEvidenceReason (s : State) (action : ActionRecord) : List String :=
  let tombstone := s.tombstoneOf action.actionId
  if action.lifecycle.terminal ∧ ∀ t ∈ tombstone, t.lifecycle ≠ action.lifecycle then
    ["retained terminal action " ++ action.actionId.value ++ " lacks matching terminal evidence"]
  else if ∃ t ∈ tombstone, action.lifecycle.terminal = false ∨ t.lifecycle ≠ action.lifecycle then
    ["retained action " ++ action.actionId.value ++ " conflicts with terminal evidence"]
  else []

def persistedTerminalEvidenceReasons (s : State) : List String :=
  s.actions.flatMap (terminalEvidenceReason s) ++
    (s.recoveryUnits.filter fun u => s.actionTombstones.any (·.actionId = u.actionId)).map fun u =>
      "possibly-live recovery worker " ++ u.actionId.value ++ " also has terminal evidence"

/-- `_minimum_recovery_state`, for the units which may still be live. -/
def minimumRecoveryState (currentBootId : BootId) (controllerInstance : ControllerInstanceId)
    (displayIdentity : DisplayIdentity) (snapshot : WorkerNamespaceSnapshot)
    (tombstones : List ActionTombstone) (persisted : Option State) (units : List WorkerUnit) :
    State :=
  let recoveryUnits := uniqueUnits units
  let finalizationRequired := persisted.any (·.desktopFinalizationRequired)
  let finalizedProfile := if finalizationRequired then none else snapshot.verifiedFinalizedProfile
  { bootId := currentBootId
    controllerInstance := controllerInstance
    displayIdentity := displayIdentity
    phase := .recovering
    desktopFinalizedProfile := finalizedProfile
    desktopFinalizationRequired := finalizationRequired
    baselineAdoption := finalizedProfile.isNone && !finalizationRequired
    actionSequenceHighWater := actionHighWater persisted snapshot tombstones recoveryUnits
    transitionSequenceHighWater := transitionHighWater persisted snapshot
    actionTombstones := tombstones
    recoveryUnits := recoveryUnits
    requirement := fun h => by simp [finalizedProfile, h] }

def bootMismatchState (persisted : State) (currentBootId : BootId)
    (controllerInstance : ControllerInstanceId) (snapshot : WorkerNamespaceSnapshot)
    (tombstones : List ActionTombstone) : State :=
  { persisted with
    bootId := currentBootId
    controllerInstance := controllerInstance
    phase := .recovering
    planningState := .planIdle
    preparationState := .prepareIdle
    latestObservation := none
    physicalToken := none
    candidate := none
    aggressiveDeadlineMs := none
    nextTimerMs := none
    backoffIndex := 0
    verifySinceMs := none
    lastDrmAtMs := none
    stableXProfile := none
    desktopFinalizedProfile := none
    desktopFinalizationRequired := true
    externalIntent := false
    baselineAdoption := false
    attemptedProbeKeys := ∅
    probe := none
    attemptedApplicationKeys := ∅
    immediateRetryUsedProfiles := ∅
    application := none
    planning := none
    preparation := none
    finalization := none
    unknownKey := none
    unknownSinceMs := none
    unplugProof := none
    observationGeneration := 0
    eventGeneration := 0
    actionSequenceHighWater := actionHighWater (some persisted) snapshot tombstones snapshot.units
    transitionSequenceHighWater := transitionHighWater (some persisted) snapshot
    actionTombstones := tombstones
    recoveryUnits := uniqueUnits snapshot.units
    requirement := fun _ => ⟨rfl, rfl⟩ }

def representedWorkerUnits (persisted : State) : List WorkerUnit :=
  persisted.actions.filterMap (·.unit?)

def retainedUnits (persisted : State) (verifiedTerminalIds : List ActionId) : List WorkerUnit :=
  persisted.recoveryUnits.filter (·.actionId ∉ verifiedTerminalIds)

def sameBootRecoveryUnits (persisted : State) (snapshot : WorkerNamespaceSnapshot)
    (verifiedTerminalIds : List ActionId) : List WorkerUnit :=
  uniqueUnits (retainedUnits persisted verifiedTerminalIds ++ snapshot.units)

/-- A retained worker is compared with the unit which the scan found for it. -/
def workerReason (scanned : Dict String WorkerUnit) (verifiedTerminalIds : List ActionId)
    (action : ActionRecord) : List String :=
  let key := action.actionId.value
  match action.unit? with
  | none => []
  | some unit =>
    match scanned.get? key with
    | none =>
      if action.actionId ∉ verifiedTerminalIds ∧ action.lifecycle.mutatingInFlight then
        ["persisted in-flight worker " ++ key ++ " is not discoverable"]
      else []
    | some scannedUnit =>
      if scannedUnit ≠ unit then ["worker unit identity differs for action " ++ key]
      else if action.lifecycle ∉ [ActionLifecycle.dispatched, .stopping] then
        ["scanner-confirmed possibly-live worker " ++ key ++ " conflicts with " ++
          "persisted " ++ action.lifecycle.value ++ " lifecycle"]
      else []

/-- `_same_boot_relationship_reasons`. The retained actions stand for the two dictionaries of the
source, whose keys are the spellings of their identities. -/
def sameBootRelationshipReasons (persisted : State) (snapshot : WorkerNamespaceSnapshot)
    (verifiedTerminalIds : List ActionId) : List String :=
  let scanned := unitMap snapshot.units
  let retained := unitMap (retainedUnits persisted verifiedTerminalIds)
  let expected := (persisted.actions.filter (·.unit?.isSome)).map (·.actionId.value)
  let differing := scanned.1.keys.filter fun key =>
    retained.1.get? key ≠ none ∧ scanned.1.get? key ≠ retained.1.get? key
  let absent := scanned.1.keys.filter fun key => key ∉ expected ∧ key ∉ retained.1.keys
  let orphaned := retained.1.keys.filter (· ∉ expected)
  scanned.2 ++ retained.2 ++
    differing.map ("recovery worker unit identity differs for action " ++ ·) ++
    persisted.actions.flatMap (workerReason scanned.1 verifiedTerminalIds) ++
    absent.map (fun key => "surviving worker " ++ key ++ " is absent from persisted state") ++
    orphaned.map fun key =>
      if key ∈ scanned.1.keys then "persisted recovery worker " ++ key ++ " remains live"
      else "persisted recovery worker " ++ key ++ " lacks a verified terminal tombstone"

/-- Terminal evidence for a worker which the scan found alive. -/
def contradictionReasons (snapshot : WorkerNamespaceSnapshot) (tombstones : List ActionTombstone)
    (finding : String) : List String :=
  let contradicted := snapshot.scannedIds.dedup.filter (· ∈ tombstones.map (·.actionId))
  (sortedByAction id contradicted).map fun actionId =>
    "surviving worker " ++ actionId.value ++ finding

/-- Terminal evidence of the workers which the scan did not find. -/
def uncontradicted (snapshot : WorkerNamespaceSnapshot) (tombstones : List ActionTombstone) :
    List ActionTombstone :=
  tombstones.filter (·.actionId ∉ snapshot.scannedIds)

/-- The reasons against authority which the snapshot alone gives. -/
def snapshotReasons (snapshot : WorkerNamespaceSnapshot) : List String :=
  let merged := mergeTombstones [] snapshot.evidence
  snapshot.ambiguities.map (·.value) ++ (unitMap snapshot.units).2 ++ merged.2 ++
    contradictionReasons snapshot merged.1 " also has a verified terminal tombstone"

/-- The bounded terminal evidence which the snapshot alone gives. -/
def snapshotTombstones (snapshot : WorkerNamespaceSnapshot) : Result (List ActionTombstone) :=
  boundActionTombstones (fun _ => false)
    (uncontradicted snapshot (mergeTombstones [] snapshot.evidence).1)

/-- A fail-closed exit: the state is checked and authority is denied. -/
def denyAuthority (s : State) (reasons : List String) (h : s.phase = .recovering) :
    Result RecoveryResult := do
  assertControllerInvariants s
  .ok ⟨s, false, true, reasons, fun _ => h⟩

def deferredResultIds (reconciliation : Reconciliation) : List ActionId :=
  reconciliation.matched.filter fun a =>
    (reconciliation.state.actionForId a).any (·.lifecycle = .resultPending)

/-- The persisted evidence joined with that of the snapshot. -/
def sameBootTombstones (snapshot : WorkerNamespaceSnapshot) (reconciliation : Reconciliation) :
    List ActionTombstone × List String :=
  mergeTombstones reconciliation.state.actionTombstones
    (snapshot.evidence.filter (·.actionId ∉ deferredResultIds reconciliation))

/-- The profile which the desktop journal proves must be the persisted one. -/
def profileReasons (snapshot : WorkerNamespaceSnapshot) (s : State) : List String :=
  if snapshot.verifiedFinalizedProfile ≠ none ∧
      snapshot.verifiedFinalizedProfile ≠ s.desktopFinalizedProfile then
    ["verified finalized profile disagrees with persisted state"]
  else []

def sameBootReasons (snapshot : WorkerNamespaceSnapshot) (reconciliation : Reconciliation) :
    List String :=
  let merged := sameBootTombstones snapshot reconciliation
  snapshotReasons snapshot ++ merged.2 ++
    contradictionReasons snapshot merged.1 " also has a terminal tombstone" ++
    profileReasons snapshot reconciliation.state ++ reconciliation.reasons ++
    persistedTerminalEvidenceReasons reconciliation.state ++
    sameBootRelationshipReasons reconciliation.state snapshot snapshot.verifiedTerminalIds

/-- The reconciled state under the authority of a new controller. -/
def authorizedState (controllerInstance : ControllerInstanceId) (snapshot : WorkerNamespaceSnapshot)
    (reconciled : State) (tombstones : List ActionTombstone) : State :=
  let recoveryUnits := sameBootRecoveryUnits reconciled snapshot snapshot.verifiedTerminalIds
  { reconciled with
    controllerInstance := controllerInstance
    recoveryUnits := recoveryUnits
    actionSequenceHighWater := actionHighWater (some reconciled) snapshot tombstones recoveryUnits
    transitionSequenceHighWater := transitionHighWater (some reconciled) snapshot
    actionTombstones := tombstones }

/-- `recover_state` for a persisted state of the current boot and display. -/
def recoverSameBoot (persisted : State) (currentBootId : BootId)
    (controllerInstance : ControllerInstanceId) (displayIdentity : DisplayIdentity)
    (snapshot : WorkerNamespaceSnapshot) : Result RecoveryResult := do
  let reconciliation ← reconcileVerifiedResults persisted snapshot.verifiedResults
  let reconciled := reconciliation.state
  let tombstones ← boundActionTombstones reconciled.retains
    (uncontradicted snapshot (sameBootTombstones snapshot reconciliation).1)
  let reasons := sameBootReasons snapshot reconciliation
  if reasons ≠ [] then
    denyAuthority
      (minimumRecoveryState currentBootId controllerInstance displayIdentity snapshot tombstones
        (some reconciled)
        (sameBootRecoveryUnits reconciled snapshot snapshot.verifiedTerminalIds)) reasons rfl
  else do
    let s := authorizedState controllerInstance snapshot reconciled tombstones
    assertControllerInvariants s
    .ok ⟨s, true, reconciliation.changed, [], by simp⟩

/-- `recover_state` after a complete scan of the namespace. -/
def recoverScanned (persisted : Option State) (currentBootId : BootId)
    (controllerInstance : ControllerInstanceId) (displayIdentity : DisplayIdentity)
    (snapshot : WorkerNamespaceSnapshot) (corruption : Option String) : Result RecoveryResult := do
  let reasons := snapshotReasons snapshot
  let tombstones ← snapshotTombstones snapshot
  match persisted with
  | none => do
    let cleanFirstStart := corruption = none ∧ reasons = [] ∧ snapshot.units = []
    let missing :=
      match corruption with
      | some error => "authoritative state is corrupt: " ++ error
      | none => "authoritative state is missing"
    let s := minimumRecoveryState currentBootId controllerInstance displayIdentity snapshot
      tombstones none snapshot.units
    assertControllerInvariants s
    .ok ⟨s, cleanFirstStart, true, reasons ++ [missing], fun _ => rfl⟩
  | some s =>
    if s.displayIdentity ≠ displayIdentity then
      denyAuthority
        (minimumRecoveryState currentBootId controllerInstance displayIdentity snapshot tombstones
          (some s) snapshot.units)
        (reasons ++ ["persisted display identity does not match requested display identity"]) rfl
    else if s.bootId ≠ currentBootId then
      denyAuthority (bootMismatchState s currentBootId controllerInstance snapshot tombstones)
        reasons rfl
    else recoverSameBoot s currentBootId controllerInstance displayIdentity snapshot

/-- `recover_state`. The scan is a snapshot, or the rendered exception which it raised. -/
def recoverState (persisted : Option State) (currentBootId : BootId)
    (controllerInstance : ControllerInstanceId) (displayIdentity : DisplayIdentity)
    (scan : Except String WorkerNamespaceSnapshot) (corruption : Option String) :
    Result RecoveryResult :=
  match scan with
  | .ok snapshot =>
    recoverScanned persisted currentBootId controllerInstance displayIdentity snapshot corruption
  | .error error =>
    let units :=
      match persisted with
      | none => []
      | some s => uniqueUnits (s.recoveryUnits ++ representedWorkerUnits s)
    denyAuthority
      (minimumRecoveryState currentBootId controllerInstance displayIdentity {} [] persisted units)
      ["worker namespace scan failed: " ++ error] rfl

end MonitorController
