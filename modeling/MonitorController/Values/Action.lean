import MonitorController.Values.Evidence

/-! # Keyed actions

The five persisted action records. The four display mutators share the worker
fields and their constructor checks; the replacements the reducer makes are
stated once, each with the checks it has to pass.
-/

namespace MonitorController

/-- A rejected constructor or a violated central invariant, with its message. -/
inductive ControllerError where
  | value (message : String)
  | invariant (message : String)
  | recursion
  deriving DecidableEq, Repr

abbrev Result := Except ControllerError

/-- Deduplication identity for a safe activation probe. -/
structure ProbeAttemptKey where
  physicalEpoch : Nat
  profile : Text
  observationKey : ObservationKey
  deriving DecidableEq

/-- Deduplication identity for an explicit profile application. -/
structure ApplicationAttemptKey where
  physicalEpoch : Nat
  profile : Text
  observationKey : ObservationKey
  deriving DecidableEq

/-- Recoverable systemd worker unit identity. -/
structure WorkerUnit where
  actionId : ActionId
  unitName : Text
  deriving DecidableEq

theorem forall_mem_noPostStop : ∀ l ∈ (none : Option ActionLifecycle), l = .unknown ∨ l = .timedOut := by
  simp

/-- The fields and constructor checks which all display mutators share. -/
structure WorkerAction where
  actionId : ActionId
  admittedEventGeneration : EventGeneration
  lifecycle : ActionLifecycle := .admitted
  unit : Option WorkerUnit := none
  workerDeadlineMs : Option Nat := none
  exitStatus : Option Int := none
  terminalAfterStop : Option ActionLifecycle := none
  unit_matches : ∀ u ∈ unit, u.actionId = actionId := by simp
  admitted_undated : lifecycle = .admitted → workerDeadlineMs = none := by simp
  post_stop : ∀ l ∈ terminalAfterStop, l = .unknown ∨ l = .timedOut := by
    first | exact forall_mem_noPostStop | simp
  post_stop_stopping : terminalAfterStop ≠ none → lifecycle = .stopping := by simp
  deriving DecidableEq

namespace WorkerAction

variable (w : WorkerAction)

theorem terminalAfterStop_eq_none {w : WorkerAction} (h : w.lifecycle ≠ .stopping) :
    w.terminalAfterStop = none := by
  by_contra hn
  exact h (w.post_stop_stopping hn)

/-- A retained admission takes the event generation of the sample which confirmed it. -/
def refresh (generation : EventGeneration) : WorkerAction :=
  { w with admittedEventGeneration := generation }

def dispatch (unit : WorkerUnit) (deadlineMs : Nat) (hu : unit.actionId = w.actionId)
    (hl : w.lifecycle = .admitted) : WorkerAction :=
  { w with
    lifecycle := .dispatched
    unit := some unit
    workerDeadlineMs := some deadlineMs
    unit_matches := by rintro u ⟨⟩; exact hu
    admitted_undated := by simp
    post_stop_stopping := by simp [w.terminalAfterStop_eq_none (by simp [hl])] }

/-- Cancellation is requested; an earlier post-stop verdict is kept. -/
def stop : WorkerAction :=
  { w with
    lifecycle := .stopping
    admitted_undated := by simp
    post_stop_stopping := by simp }

/-- Cancellation is requested because the worker is uncertain. -/
def stopUncertain (terminal : ActionLifecycle) (ht : terminal = .unknown ∨ terminal = .timedOut) :
    WorkerAction :=
  { w with
    lifecycle := .stopping
    terminalAfterStop := if w.lifecycle = .stopping then w.terminalAfterStop else some terminal
    admitted_undated := by simp
    post_stop := by
      intro l hl
      split at hl
      · exact w.post_stop l hl
      · exact Option.mem_some.mp hl ▸ ht
    post_stop_stopping := by simp }

def settle (lifecycle : ActionLifecycle) (exitStatus : Option Int)
    (hl : lifecycle ≠ .admitted) : WorkerAction :=
  { w with
    lifecycle := lifecycle
    exitStatus := exitStatus
    terminalAfterStop := none
    admitted_undated := fun h => absurd h hl
    post_stop := by simp
    post_stop_stopping := by simp }

/-- A completed cancellation resumes the ordinary completion path. -/
def resume : WorkerAction :=
  { w with
    lifecycle := .dispatched
    terminalAfterStop := none
    admitted_undated := by simp
    post_stop := by simp
    post_stop_stopping := by simp }

/-- `replace(action, lifecycle=lifecycle)`, which the constructor may refuse. -/
def withLifecycle (lifecycle : ActionLifecycle) :
    Result { v : WorkerAction // v.actionId = w.actionId } :=
  if hs : w.terminalAfterStop ≠ none ∧ lifecycle ≠ .stopping then
    .error (.value "post-stop terminal lifecycle requires stopping exclusion")
  else if ha : lifecycle = .admitted ∧ w.workerDeadlineMs ≠ none then
    .error (.value "admitted action cannot already have a worker deadline")
  else
    .ok ⟨{ w with
      lifecycle := lifecycle
      admitted_undated := fun h => by_contra fun hd => ha ⟨h, hd⟩
      post_stop_stopping := fun h => by_contra fun hl => hs ⟨h, hl⟩ }, rfl⟩

end WorkerAction

/-- Persisted safe activation-probe action. -/
structure ProbeAction extends WorkerAction where
  key : ProbeAttemptKey
  output : Text
  internalOutput : Text
  preferredMode : Text
  kind_probe : actionId.kind = .probe
  deriving DecidableEq

/-- Persisted explicit autorandr application action. -/
@[ext] structure ApplicationAction extends WorkerAction where
  key : ApplicationAttemptKey
  profile : Text
  scope : ProfileScope
  mapping : MappingProof
  kind_application : actionId.kind = .application
  profile_key : key.profile = profile
  profile_mapping : mapping.profile = profile

instance : DecidableEq ApplicationAction := fun _ _ => decidable_of_iff' _ ApplicationAction.ext_iff

/-- Persisted planning action carrying its current exact input manifest. -/
@[ext] structure PlanningAction where
  actionId : ActionId
  transitionId : TransitionId
  inputKey : PlanningInputKey
  profile : Text
  lifecycle : ActionLifecycle := .admitted
  planHash : Option PlanHash := none
  exitStatus : Option Int := none
  kind_plan : actionId.kind = .plan
  profile_input : inputKey.profile = profile

instance : DecidableEq PlanningAction := fun _ _ => decidable_of_iff' _ PlanningAction.ext_iff

/-- Persisted repeatable desktop-preparation action. -/
structure PreparationAction extends WorkerAction where
  transitionId : TransitionId
  transitionKey : TransitionKey
  planHash : PlanHash
  observationKey : ObservationKey
  profile : Text
  kind_preparation : actionId.kind = .preparation
  deriving DecidableEq

/-- Persisted disruptive desktop-finalization action. -/
structure FinalizationAction extends WorkerAction where
  transitionId : TransitionId
  transitionKey : TransitionKey
  planHash : PlanHash
  observationKey : ObservationKey
  profile : Text
  kind_finalization : actionId.kind = .finalization
  deriving DecidableEq

theorem PreparationAction.kind_renewed (a : PreparationAction)
    (worker : { v : WorkerAction // v.actionId = a.actionId }) :
    worker.1.actionId.kind = .preparation :=
  (congrArg ActionId.kind worker.2).trans a.kind_preparation

theorem FinalizationAction.kind_renewed (a : FinalizationAction)
    (worker : { v : WorkerAction // v.actionId = a.actionId }) :
    worker.1.actionId.kind = .finalization :=
  (congrArg ActionId.kind worker.2).trans a.kind_finalization

/-- `ActionRecord`, the union of the five action classes. -/
inductive ActionRecord where
  | probe (action : ProbeAction)
  | application (action : ApplicationAction)
  | planning (action : PlanningAction)
  | preparation (action : PreparationAction)
  | finalization (action : FinalizationAction)
  deriving DecidableEq

namespace ActionRecord

def actionId : ActionRecord → ActionId
  | .probe a => a.actionId
  | .application a => a.actionId
  | .planning a => a.actionId
  | .preparation a => a.actionId
  | .finalization a => a.actionId

def lifecycle : ActionRecord → ActionLifecycle
  | .probe a => a.lifecycle
  | .application a => a.lifecycle
  | .planning a => a.lifecycle
  | .preparation a => a.lifecycle
  | .finalization a => a.lifecycle

/-- The worker fields of a display mutator; a plan has none. -/
def worker? : ActionRecord → Option WorkerAction
  | .probe a => some a.toWorkerAction
  | .application a => some a.toWorkerAction
  | .planning _ => none
  | .preparation a => some a.toWorkerAction
  | .finalization a => some a.toWorkerAction

end ActionRecord

/-- Two-sided no-external-output proof accumulated over time. -/
@[ext] structure UnplugProof where
  firstObservationKey : ObservationKey
  firstObservedAtMs : Nat
  latestObservationKey : ObservationKey
  latestObservedAtMs : Nat
  observationCount : Nat
  ordered : firstObservedAtMs ≤ latestObservedAtMs
  counted : 1 ≤ observationCount

instance : DecidableEq UnplugProof := fun _ _ => decidable_of_iff' _ UnplugProof.ext_iff

/-- Recovery-relevant terminal action identity. -/
@[ext] structure ActionTombstone where
  actionId : ActionId
  lifecycle : ActionLifecycle
  terminal : lifecycle.terminal = true

instance : DecidableEq ActionTombstone := fun _ _ => decidable_of_iff' _ ActionTombstone.ext_iff

def actionTombstoneRetentionLimit : Nat := 768

/-- The retention loop: drop the oldest unprotected tombstones while any are in excess. -/
def retainTombstones (isProtected : ActionId → Bool) :
    Nat → List ActionTombstone → Nat × List ActionTombstone
  | excess, [] => (excess, [])
  | 0, tombstones => (0, tombstones)
  | excess + 1, tombstone :: tombstones =>
    if isProtected tombstone.actionId then
      let rest := retainTombstones isProtected (excess + 1) tombstones
      (rest.1, tombstone :: rest.2)
    else retainTombstones isProtected excess tombstones

theorem retainTombstones_fst {isProtected : ActionId → Bool} (n : Nat) (l : List ActionTombstone) :
    (retainTombstones isProtected n l).1 = n - l.countP (!isProtected ·.actionId) := by
  fun_induction retainTombstones isProtected n l with
  | case1 n => simp
  | case2 l => simp
  | case3 n t l hp rest ih => simp [rest, hp, ih]
  | case4 n t l hp ih =>
    simp only [ih, List.countP_cons, Bool.not_eq_true] at hp ⊢
    simp [hp]

def boundActionTombstones (isProtected : ActionId → Bool) (tombstones : List ActionTombstone) :
    Result (List ActionTombstone) :=
  let excess := tombstones.length - actionTombstoneRetentionLimit
  let rest := retainTombstones isProtected excess tombstones
  if rest.1 = 0 then .ok rest.2
  else .error (.value "protected action tombstones exceed the retention limit")

end MonitorController
