import Mathlib.Data.Finset.Card
import MonitorController.Safety.Checks

/-! # What may be persisted

The bounds and the cross-field rules which the codec adds to the central
invariants before it encodes a state and after it decodes one.
-/

namespace MonitorController

/-- What the codec raises: its own `StateCodecError`, or a plain exception which escapes it. -/
inductive CodecError where
  | stateCodec (message : String)
  | value (message : String)
  | type (message : String)
  | recursion
  deriving DecidableEq, Repr

abbrev Coded := Except CodecError

/-- `_fail`. -/
def codecFail {α : Type} (message : String) : Coded α := .error (.stateCodec message)

/-- A check which fails with the codec's own error. -/
def refuse (condition : Prop) [Decidable condition] (message : String) : Coded PUnit :=
  if condition then codecFail message else .ok ⟨⟩

@[simp] theorem refuse_eq_ok {condition : Prop} [Decidable condition] {message : String} :
    refuse condition message = .ok ⟨⟩ ↔ ¬ condition := by
  unfold refuse codecFail
  split <;> simp_all

def maxTombstones : Nat := 1024

def maxRecoveryUnits : Nat := 256

def maxAttemptKeys : Nat := 4096

/-- `_validate_action_record`; a plan has no worker. -/
def validateActionRecord (action : ActionRecord) : Coded PUnit :=
  match action.worker? with
  | none => .ok ⟨⟩
  | some w => do
    refuse (w.lifecycle = .admitted ∧
      (w.unit ≠ none ∨ w.workerDeadlineMs ≠ none ∨ w.exitStatus ≠ none))
      "admitted action cannot have dispatch or result data"
    refuse (w.lifecycle = .dispatched ∧
      (w.unit = none ∨ w.workerDeadlineMs = none ∨ w.exitStatus ≠ none))
      "dispatched action requires its worker unit and deadline"

def validateRecoveringRelationships (s : State) : Coded PUnit :=
  if s.phase ≠ .recovering then .ok ⟨⟩
  else do
    refuse (s.actions ≠ []) "recovering state cannot retain action identities"
    refuse (s.planningState ≠ .planIdle) "recovering state requires idle planning"
    refuse (s.preparationState ≠ .prepareIdle) "recovering state requires idle preparation"

/-- `tombstones_by_id.get`: of several tombstones of one action the last counts. -/
def State.tombstoneOf (s : State) (a : ActionId) : Option ActionTombstone :=
  s.actionTombstones.reverse.find? (·.actionId = a)

/-- `_validate_terminal_evidence` for one action. -/
def validateTerminalEvidence (s : State) (action : ActionRecord) : Coded PUnit := do
  refuse (action.lifecycle.terminal = true ∧
    ∀ t ∈ s.tombstoneOf action.actionId, t.lifecycle ≠ action.lifecycle)
    "retained terminal action requires a matching terminal tombstone"
  refuse (∃ t ∈ s.tombstoneOf action.actionId, action.lifecycle.terminal = false ∨
    t.lifecycle ≠ action.lifecycle)
    "retained action and terminal tombstone lifecycles must match"

/-- The key of `sequence_kinds` is the same. -/
def sameSequence (a b : ActionId) : Bool :=
  b.controllerInstance = a.controllerInstance && b.sequence = a.sequence

/-- `sequence_kinds`: every controller sequence is looked up among the identities before it. -/
def validateSequenceKinds (seen : List ActionId) : List ActionId → Coded PUnit
  | [] => .ok ⟨⟩
  | a :: rest => do
    refuse (∃ previous ∈ seen.find? (sameSequence a), previous.kind ≠ a.kind)
      "one controller sequence is assigned to multiple action kinds"
    validateSequenceKinds (a :: seen) rest

/-- The identities which a state retains: of actions, tombstones and possibly-live workers. -/
def State.identities (s : State) : List ActionId :=
  s.actions.map (·.actionId) ++ s.actionTombstones.map (·.actionId) ++
    s.recoveryUnits.map (·.actionId)

def validatePersistenceRelationships (s : State) : Coded PUnit := do
  forM s.actions (validateTerminalEvidence s)
  refuse (∃ u ∈ s.recoveryUnits, ∃ t ∈ s.actionTombstones, t.actionId = u.actionId)
    "possibly-live worker cannot also have terminal evidence"
  validateRecoveringRelationships s
  validateSequenceKinds [] s.identities
  forM s.actions validateActionRecord
  refuse (∃ a ∈ s.probe, a.lifecycle = .admitted ∧ a.key ∈ s.attemptedProbeKeys)
    "admitted probe key cannot already be attempted"
  refuse (∃ a ∈ s.application, a.lifecycle = .admitted ∧ a.key ∈ s.attemptedApplicationKeys)
    "admitted application key cannot already be attempted"
  refuse ((∃ k ∈ s.attemptedProbeKeys, k.physicalEpoch ≠ s.physicalEpoch) ∨
    ∃ k ∈ s.attemptedApplicationKeys, k.physicalEpoch ≠ s.physicalEpoch)
    "attempt history belongs to another physical epoch"

/-- The central invariants, a violation of which the codec reports as its own error. -/
def checkRelationships (s : State) : Coded Unit :=
  match assertControllerInvariants s with
  | .ok () => .ok ()
  | .error (.value message) | .error (.invariant message) =>
    codecFail ("state relationships are invalid: " ++ message)
  | .error .recursion => .error .recursion

def validateBoundedState (s : State) : Coded Unit := do
  refuse (maxTombstones < s.actionTombstones.length) "state contains too many action tombstones"
  refuse (maxRecoveryUnits < s.recoveryUnits.length)
    "state contains too many recovery worker units"
  refuse (maxAttemptKeys < s.attemptedProbeKeys.card) "state contains too many attempted probe keys"
  refuse (maxAttemptKeys < s.attemptedApplicationKeys.card)
    "state contains too many attempted application keys"
  validatePersistenceRelationships s
  checkRelationships s

def validateState (s : State) : Coded Unit := validateBoundedState s

/-- The worker fields fit the lifecycle of their action. -/
structure Recordable (w : WorkerAction) : Prop where
  admitted : w.lifecycle = .admitted →
    w.unit = none ∧ w.workerDeadlineMs = none ∧ w.exitStatus = none
  dispatched : w.lifecycle = .dispatched →
    w.unit ≠ none ∧ w.workerDeadlineMs ≠ none ∧ w.exitStatus = none

/-- The cross-field rules of a state which may be persisted. -/
structure Persistable (s : State) : Prop where
  ended : ∀ r ∈ s.actions, r.lifecycle.terminal = true →
    ∃ t ∈ s.tombstoneOf r.actionId, t.lifecycle = r.lifecycle
  buried : ∀ r ∈ s.actions, ∀ t ∈ s.tombstoneOf r.actionId,
    r.lifecycle.terminal = true ∧ t.lifecycle = r.lifecycle
  possiblyLive : ∀ u ∈ s.recoveryUnits, ∀ t ∈ s.actionTombstones, t.actionId ≠ u.actionId
  recovering : s.phase = .recovering →
    s.actions = [] ∧ s.planningState = .planIdle ∧ s.preparationState = .prepareIdle
  sequences : ∀ a ∈ s.identities, ∀ b ∈ s.identities, sameSequence a b = true → a.kind = b.kind
  workers : ∀ r ∈ s.actions, ∀ w ∈ r.worker?, Recordable w
  probe : ∀ a ∈ s.probe, a.lifecycle = .admitted → a.key ∉ s.attemptedProbeKeys
  application : ∀ a ∈ s.application, a.lifecycle = .admitted → a.key ∉ s.attemptedApplicationKeys
  probeEpoch : ∀ k ∈ s.attemptedProbeKeys, k.physicalEpoch = s.physicalEpoch
  applicationEpoch : ∀ k ∈ s.attemptedApplicationKeys, k.physicalEpoch = s.physicalEpoch

/-- The history of a state is within the hard limits of the codec. -/
structure WithinLimits (s : State) : Prop where
  tombstones : s.actionTombstones.length ≤ maxTombstones
  recoveryUnits : s.recoveryUnits.length ≤ maxRecoveryUnits
  probeKeys : s.attemptedProbeKeys.card ≤ maxAttemptKeys
  applicationKeys : s.attemptedApplicationKeys.card ≤ maxAttemptKeys

section Rules

variable {s : State}

theorem validateActionRecord_eq_ok {r : ActionRecord} :
    validateActionRecord r = .ok ⟨⟩ ↔ ∀ w ∈ r.worker?, Recordable w := by
  unfold validateActionRecord
  cases hw : r.worker? with
  | none => simp
  | some w =>
    simp only [Outcome.seq_eq_ok, refuse_eq_ok, Option.mem_some_iff, forall_eq']
    constructor
    · rintro ⟨hadmitted, hdispatched⟩
      constructor
      · intro hl
        simpa [hl] using hadmitted
      · intro hl
        simpa [hl, not_or] using hdispatched
    · rintro ⟨hadmitted, hdispatched⟩
      constructor
      · rintro ⟨hl, hdata⟩
        simp [hadmitted hl] at hdata
      · rintro ⟨hl, hdata⟩
        simp [hdispatched hl] at hdata

theorem validateRecoveringRelationships_eq_ok :
    validateRecoveringRelationships s = .ok ⟨⟩ ↔ (s.phase = .recovering →
      s.actions = [] ∧ s.planningState = .planIdle ∧ s.preparationState = .prepareIdle) := by
  unfold validateRecoveringRelationships
  split
  next h => simp [h]
  next h => simp_all [Outcome.seq_eq_ok]

theorem validateTerminalEvidence_eq_ok {r : ActionRecord} :
    validateTerminalEvidence s r = .ok ⟨⟩ ↔
      (r.lifecycle.terminal = true → ∃ t ∈ s.tombstoneOf r.actionId, t.lifecycle = r.lifecycle) ∧
      ∀ t ∈ s.tombstoneOf r.actionId, r.lifecycle.terminal = true ∧ t.lifecycle = r.lifecycle := by
  unfold validateTerminalEvidence
  simp only [Outcome.seq_eq_ok, refuse_eq_ok]
  cases s.tombstoneOf r.actionId with
  | none => simp
  | some t => cases hl : r.lifecycle.terminal <;> simp

theorem sameSequence_trans {a b c : ActionId} (h : sameSequence a b = true)
    (h' : sameSequence b c = true) : sameSequence a c = true := by
  simp only [sameSequence, Bool.and_eq_true, decide_eq_true_eq] at h h' ⊢
  exact ⟨h'.1.trans h.1, h'.2.trans h.2⟩

theorem sameSequence_comm {a b : ActionId} : sameSequence a b = sameSequence b a := by
  simp only [sameSequence, eq_comm]

/-- The last identity of a sequence decides its kind for all of them. -/
theorem validateSequenceKinds_eq_ok {seen l : List ActionId}
    (hseen : ∀ a ∈ seen, ∀ b ∈ seen, sameSequence a b = true → a.kind = b.kind) :
    validateSequenceKinds seen l = .ok ⟨⟩ ↔
      ∀ a ∈ seen ++ l, ∀ b ∈ seen ++ l, sameSequence a b = true → a.kind = b.kind := by
  induction l generalizing seen with
  | nil => simpa [validateSequenceKinds] using hseen
  | cons a l ih =>
    simp only [validateSequenceKinds, Outcome.seq_eq_ok, refuse_eq_ok]
    have hmem : ∀ b, b ∈ (a :: seen) ++ l ↔ b ∈ seen ++ (a :: l) := by
      intro b
      simp only [List.cons_append, List.mem_cons, List.mem_append]
      tauto
    -- An earlier identity of the sequence has the kind of the one which was found.
    have hfirst : (¬ ∃ p ∈ seen.find? (sameSequence a), p.kind ≠ a.kind) ↔
        ∀ b ∈ seen, sameSequence a b = true → b.kind = a.kind := by
      cases hf : seen.find? (sameSequence a) with
      | none =>
        have hnone := List.find?_eq_none.mp hf
        simp only [Option.not_mem_none, false_and, exists_false, not_false_eq_true, true_iff]
        intro b hb hs
        exact absurd hs (hnone b hb)
      | some p =>
        have hp := List.mem_of_find?_eq_some hf
        have hsp := List.find?_some hf
        simp only [Option.mem_some_iff, exists_eq_left', not_not]
        constructor
        · intro hk b hb hs
          have hbp : sameSequence b p = true := sameSequence_trans (sameSequence_comm.trans hs) hsp
          exact (hseen b hb p hp hbp).trans hk
        · intro h
          exact h p hp hsp
    rw [hfirst]
    constructor
    · rintro ⟨hk, hrest⟩
      have hseen' : ∀ b ∈ a :: seen, ∀ c ∈ a :: seen, sameSequence b c = true →
          b.kind = c.kind := by
        intro b hb c hc hs
        rcases List.mem_cons.mp hb with rfl | hb' <;> rcases List.mem_cons.mp hc with rfl | hc'
        · rfl
        · exact (hk c hc' hs).symm
        · exact hk b hb' (sameSequence_comm.trans hs)
        · exact hseen b hb' c hc' hs
      intro b hb c hc hs
      exact (ih hseen').mp hrest b ((hmem b).mpr hb) c ((hmem c).mpr hc) hs
    · intro h
      have hall : ∀ b ∈ (a :: seen) ++ l, ∀ c ∈ (a :: seen) ++ l, sameSequence b c = true →
          b.kind = c.kind := fun b hb c hc => h b ((hmem b).mp hb) c ((hmem c).mp hc)
      refine ⟨fun b hb hs => ?_, (ih fun b hb c hc => ?_).mpr hall⟩
      · exact hall b (by simp [hb]) a (by simp) (sameSequence_comm.trans hs)
      · exact hall b (List.mem_append_left _ hb) c (List.mem_append_left _ hc)

/-- The codec's relationship check accepts exactly the states which follow its rules. -/
theorem validatePersistenceRelationships_eq_ok :
    validatePersistenceRelationships s = .ok ⟨⟩ ↔ Persistable s := by
  unfold validatePersistenceRelationships
  simp only [Outcome.seq_eq_ok, Outcome.forM_eq_ok, refuse_eq_ok, validateTerminalEvidence_eq_ok,
    validateRecoveringRelationships_eq_ok, validateActionRecord_eq_ok,
    validateSequenceKinds_eq_ok (List.forall_mem_nil _), List.nil_append]
  constructor
  · rintro ⟨hended, hlive, hrecovering, hsequences, hworkers, hprobe, happlication, hepoch⟩
    push Not at hlive hprobe happlication hepoch
    exact ⟨fun r hr => (hended r hr).1, fun r hr => (hended r hr).2, hlive, hrecovering, hsequences,
      hworkers, hprobe, happlication, hepoch.1, hepoch.2⟩
  · intro h
    refine ⟨fun r hr => ⟨h.ended r hr, h.buried r hr⟩, ?_, h.recovering, h.sequences, h.workers, ?_,
      ?_, ?_⟩
    · rintro ⟨u, hu, t, ht, hid⟩
      exact h.possiblyLive u hu t ht hid
    · rintro ⟨a, ha, hl, hk⟩
      exact h.probe a ha hl hk
    · rintro ⟨a, ha, hl, hk⟩
      exact h.application a ha hl hk
    · rintro (⟨k, hk, hne⟩ | ⟨k, hk, hne⟩)
      · exact hne (h.probeEpoch k hk)
      · exact hne (h.applicationEpoch k hk)

theorem checkRelationships_eq_ok :
    checkRelationships s = .ok () ↔ assertControllerInvariants s = .ok () := by
  unfold checkRelationships codecFail
  split <;> simp_all

theorem validateState_eq_ok :
    validateState s = .ok () ↔
      WithinLimits s ∧ Persistable s ∧ assertControllerInvariants s = .ok () := by
  unfold validateState validateBoundedState
  simp only [Outcome.seq_eq_ok, refuse_eq_ok, not_lt, validatePersistenceRelationships_eq_ok,
    checkRelationships_eq_ok]
  constructor
  · rintro ⟨htombstones, hunits, hprobe, happlication, hrules⟩
    exact ⟨⟨htombstones, hunits, hprobe, happlication⟩, hrules⟩
  · rintro ⟨⟨htombstones, hunits, hprobe, happlication⟩, hrules⟩
    exact ⟨htombstones, hunits, hprobe, happlication, hrules⟩

end Rules

end MonitorController
