import Mathlib.Data.Finset.Basic

/-! # Domain identities

Immutable identity values of the controller. Every text is nonblank and every
allocated sequence number positive by construction.
-/

namespace MonitorController

/-- The characters for which Python's `str.isspace` holds. -/
def isSpace (c : Char) : Bool :=
  let n := c.toNat
  (9 ≤ n && n ≤ 13) || (28 ≤ n && n ≤ 32) || n = 0x85 || n = 0xA0 || n = 0x1680 ||
    (0x2000 ≤ n && n ≤ 0x200A) || n = 0x2028 || n = 0x2029 || n = 0x202F || n = 0x205F ||
    n = 0x3000

/-- `_require_nonempty`: the text is neither empty nor blank. -/
def nonempty (value : String) : Bool :=
  value.toList.any fun c => !isSpace c

/-- A text accepted by `_require_nonempty`. -/
structure Text where
  value : String
  nonblank : nonempty value = true
  deriving DecidableEq

theorem nonempty_of_mem {value : String} {c : Char} (hc : c ∈ value.toList)
    (hs : isSpace c = false) : nonempty value = true :=
  List.any_eq_true.mpr ⟨c, hc, by simp [hs]⟩

abbrev UUID := BitVec 128

/-- Kernel boot identity used to fence monotonic values. -/
structure BootId where
  value : UUID
  deriving DecidableEq

/-- Fresh controller identity used in every newly allocated action ID. -/
structure ControllerInstanceId where
  value : UUID
  deriving DecidableEq

/-- X display controlled by a state record; equality compares canonical spellings. -/
structure DisplayIdentity where
  value : Text
  deriving DecidableEq

def safeSessionChar (c : Char) : Bool :=
  c.isAlphanum || c = '_' || c = '.' || c = '-'

/-- Logind session whose mutable desktop state a record describes. -/
structure GraphicalSessionId where
  value : Text
  safe : value.value.toList.all safeSessionChar = true
  deriving DecidableEq

/-- Sequence allocated to completed canonical observation samples. -/
abbrev ObservationGeneration := Nat

/-- Sequence incremented by generation-sensitive runtime input. -/
abbrev EventGeneration := Nat

structure ObservationKey where
  value : Text
  deriving DecidableEq

structure PhysicalToken where
  value : Text
  deriving DecidableEq

structure PlanHash where
  value : Text
  deriving DecidableEq

structure TransitionKey where
  value : Text
  deriving DecidableEq

/-- Main display-convergence and finalization phases. -/
inductive ControllerPhase where
  | recovering | quiescent | discoverFast | probePending | probing | probeFailed
  | applyPending | applying | applyFailed | verifying | waitSlow | unsupported
  | finalizePending | finalizing | finalizeStopping | finalizeFailed
  deriving DecidableEq, Repr

/-- Orthogonal pure planning lifecycle. -/
inductive PlanningState where
  | planIdle | planPending | planning | planReady | planFailed
  deriving DecidableEq, Repr

/-- Orthogonal repeatable desktop-preparation lifecycle. -/
inductive PreparationState where
  | prepareIdle | preparePending | preparing | prepared | prepareStopping | prepareFailed
  deriving DecidableEq, Repr

/-- Hardware scope of an autorandr profile. -/
inductive ProfileScope where
  | internalOnly | externalOnly | mixed
  deriving DecidableEq, Repr

inductive EdidIntegrity where
  | absent | baseInvalid | baseValidExtensionsIncomplete | baseValidExtensionsInvalid | complete
  deriving DecidableEq, Repr

/-- `PROBE_ADMISSIBLE_EDID_INTEGRITIES`: the integrities which prove the base identity. -/
def EdidIntegrity.probeAdmissible : EdidIntegrity → Bool
  | .baseValidExtensionsIncomplete | .baseValidExtensionsInvalid | .complete => true
  | .absent | .baseInvalid => false

inductive ObservationValidity where
  | valid | invalid
  deriving DecidableEq, Repr

inductive ObservationInvalidityReason where
  | eventGenerationChanged | topologyChanged | commandTimedOut | parseFailed | inconsistentEvidence
  deriving DecidableEq, Repr

inductive RawEvidenceSource where
  | drmConnectors | drmEdid | xrandrQuery | xrandrProperties | autorandrFingerprint
  | autorandrProfiles | dpms
  deriving DecidableEq, Repr

/-- Whether the screens are awake, as DPMS reports it. -/
inductive DisplayPower where
  | on | asleep
  deriving DecidableEq, Repr

/-- Kinds of keyed work which can be admitted by the reducer. -/
inductive ActionKind where
  | plan | probe | application | preparation | finalization
  deriving DecidableEq, Repr

/-- Durable action lifecycle, including admission and acknowledgement. -/
inductive ActionLifecycle where
  | admitted | dispatched | stopping | resultPending | completed | failed | cancelled | unknown
  | timedOut
  deriving DecidableEq, Repr

/-- `TERMINAL_ACTION_LIFECYCLES`. -/
def ActionLifecycle.terminal : ActionLifecycle → Bool
  | .completed | .failed | .cancelled | .unknown | .timedOut => true
  | .admitted | .dispatched | .stopping | .resultPending => false

/-- `_MUTATING_IN_FLIGHT`: the worker may still own the display. -/
def ActionLifecycle.mutatingInFlight : ActionLifecycle → Bool
  | .dispatched | .stopping | .resultPending => true
  | _ => false

/-- `_FAILED_LIFECYCLES`. -/
def ActionLifecycle.failedLifecycle : ActionLifecycle → Bool
  | .failed | .unknown | .timedOut => true
  | _ => false

inductive WorkerOutcome where
  | succeeded | failed | cancelled
  deriving DecidableEq, Repr

/-- Reasons for requesting a canonical observation. -/
inductive WakeReason where
  | startup | drmHint | timer | workerCompleted | recovery | dirtyAdmission
  deriving DecidableEq, Repr

/-- Never-reused keyed action identity. -/
structure ActionId where
  controllerInstance : ControllerInstanceId
  kind : ActionKind
  sequence : Nat
  positive : 0 < sequence
  deriving DecidableEq

/-- Never-reused desktop transition identity. -/
structure TransitionId where
  controllerInstance : ControllerInstanceId
  sequence : Nat
  positive : 0 < sequence
  deriving DecidableEq

end MonitorController
