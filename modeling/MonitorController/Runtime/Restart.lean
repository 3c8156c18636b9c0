import MonitorController.Recovery.Exits
import MonitorController.Runtime.Executions

/-! # Starting with a recovered state

Recovery replays the results of the ended workers through the reducer. When it grants authority
and no worker was found alive, the consumer starts with a state which is as sound as the one that
the process before it has saved.
-/

namespace MonitorController

open Outcome Procedures

section Replays

variable {origin s : State} {results : List VerifiedWorkerResult} {v : VerifiedWorkerResult}

theorem Descends.reduced {e : Event} {d : Decision} (h : Descends origin s)
    (hd : reduce s e = .ok d) : Descends origin d.state :=
  h.move ⟨hd, rfl⟩

theorem concludeResult_descends {r : ActionRecord} {m : EventMetadata} (h : Descends origin s) :
    Ensures (concludeResult s r v m) (Descends origin) := by
  intro t ht
  unfold concludeResult at ht
  split at ht
  next =>
    obtain ⟨d, hd, ht⟩ := bind_eq_ok.mp ht
    obtain rfl := Except.ok.inj ht
    exact h.reduced hd
  next =>
    split at ht
    next =>
      obtain ⟨doubted, hdoubted, ht⟩ := bind_eq_ok.mp ht
      obtain ⟨d, hd, ht⟩ := bind_eq_ok.mp ht
      obtain rfl := Except.ok.inj ht
      exact (h.reduced hdoubted).reduced hd
    next =>
      obtain ⟨e, he, ht⟩ := bind_eq_ok.mp ht
      obtain ⟨d, hd, ht⟩ := bind_eq_ok.mp ht
      obtain rfl := Except.ok.inj ht
      exact h.reduced hd

theorem applyVerifiedResult_descends {r : ActionRecord} (h : Descends origin s) :
    Ensures (applyVerifiedResult s r v) fun o => ∀ t ∈ o, Descends origin t := by
  intro o ho
  unfold applyVerifiedResult at ho
  split at ho
  next =>
    obtain rfl := Except.ok.inj ho
    simp
  next =>
    dsimp only at ho
    split at ho
    next =>
      obtain ⟨e, he, ho⟩ := bind_eq_ok.mp ho
      obtain ⟨d, hd, ho⟩ := bind_eq_ok.mp ho
      split at ho
      next =>
        obtain rfl := Except.ok.inj ho
        simp
      next =>
        obtain ⟨t, ht, ho⟩ := bind_eq_ok.mp ho
        obtain rfl := Except.ok.inj ho
        simpa using concludeResult_descends (h.reduced hd) t ht
    next =>
      obtain ⟨t, ht, ho⟩ := bind_eq_ok.mp ho
      obtain rfl := Except.ok.inj ho
      simpa using concludeResult_descends h t ht

theorem reconcileResult_descends {c : Reconciliation} (h : Descends origin c.state) :
    Ensures (reconcileResult c v) fun c' => Descends origin c'.state := by
  intro c' hc'
  unfold reconcileResult at hc'
  split at hc'
  next => exact Except.ok.inj hc' ▸ h
  next => exact Except.ok.inj hc' ▸ h
  next q _ hq =>
    unfold reconcileAction at hc'
    dsimp only [Reconciliation.blame] at hc'
    split at hc'
    next => exact Except.ok.inj hc' ▸ h
    next =>
      split at hc'
      next => split at hc' <;> exact Except.ok.inj hc' ▸ h
      next =>
        obtain ⟨o, ho, hc'⟩ := bind_eq_ok.mp hc'
        have hreplayed : ∀ t ∈ o, Descends origin t := applyVerifiedResult_descends h o ho
        cases o with
        | none => exact Except.ok.inj hc' ▸ h
        | some t =>
          dsimp only at hc'
          split at hc' <;> exact Except.ok.inj hc' ▸ hreplayed t rfl

theorem reconcileVerifiedResults_descends (s : State) (results : List VerifiedWorkerResult) :
    Ensures (reconcileVerifiedResults s results) fun c => Descends s c.state :=
  Ensures.foldlM (fun _ hc _ _ => reconcileResult_descends hc) (.start rfl)

end Replays

/-! ## The start of the active service -/

/-- What ends the start of the active service. -/
inductive StartupFault where
  | activeStartup (message : String)
  | controller (error : ControllerError)

/-- What is left of a state in another boot or graphical session: the history of the identities. -/
def State.inSession (persisted : State) (bootId : BootId)
    (controllerInstance : ControllerInstanceId) (displayIdentity : DisplayIdentity)
    (graphicalSessionId : GraphicalSessionId) : State where
  bootId := bootId
  controllerInstance := controllerInstance
  displayIdentity := displayIdentity
  graphicalSessionId := some graphicalSessionId
  desktopFinalizationRequired := true
  baselineAdoption := false
  actionSequenceHighWater := persisted.actionSequenceHighWater
  transitionSequenceHighWater := persisted.transitionSequenceHighWater
  actionTombstones := persisted.actionTombstones
  requirement := State.requirement_blank

/-- The state of a recovery is one of the graphical session. -/
def RecoveryResult.inSession (recovery : RecoveryResult)
    (graphicalSessionId : GraphicalSessionId) : RecoveryResult :=
  { recovery with
    state := { recovery.state with graphicalSessionId := some graphicalSessionId }
    denied := recovery.denied }

section Load

variable (quoted : String → String) (bootId : BootId) (controllerInstance : ControllerInstanceId)
  (displayIdentity : DisplayIdentity) (graphicalSessionId : GraphicalSessionId)
  (scan : Except String WorkerNamespaceSnapshot)

def recoverInSession (persisted : Option State) (corruption : Option String) :
    Except StartupFault RecoveryResult := do
  let recovery ← (recoverState persisted bootId controllerInstance displayIdentity scan
    corruption).mapError .controller
  .ok (recovery.inSession graphicalSessionId)

/-- `load_active_state` in the active namespace, from what the store reads of its file. Python
quotes a text as `quoted` does. -/
def loadActiveState (stored : Option (Except String State)) : Except StartupFault RecoveryResult :=
  let recovered :=
    recoverInSession bootId controllerInstance displayIdentity graphicalSessionId scan
  match stored with
  | none => recovered none none
  | some (.error corruption) => recovered none (some corruption)
  | some (.ok persisted) =>
    if persisted.displayIdentity ≠ displayIdentity then
      .error (.activeStartup ("active state display identity does not match this service: " ++
        quoted persisted.displayIdentity.value.value ++ " != " ++
        quoted displayIdentity.value.value))
    else if persisted.bootId ≠ bootId ∨
        persisted.graphicalSessionId ≠ some graphicalSessionId then
      recovered (some (persisted.inSession bootId controllerInstance displayIdentity
        graphicalSessionId)) none
    else recovered (some persisted) none

end Load

section Recovered

variable {boot : BootId} {controller : ControllerInstanceId} {display : DisplayIdentity}
  {snapshot : WorkerNamespaceSnapshot} {tombstones : List ActionTombstone} {c : Reconciliation}

theorem uniqueUnits_nil : uniqueUnits [] = [] :=
  sortedByAction_eq_nil.mpr rfl

theorem high_le_actionHighWater {s : State} {units : List WorkerUnit} :
    s.actionSequenceHighWater ≤ actionHighWater (some s) snapshot tombstones units :=
  List.le_max_of_le' 0 (List.mem_cons_of_mem _ List.mem_cons_self) le_rfl

/-- A first start is sound with whatever tombstones it finds. -/
theorem sound_minimumRecoveryState (hnodup : (tombstones.map (·.actionId)).Nodup) :
    Sound (minimumRecoveryState boot controller display snapshot tombstones none []) where
  toCore :=
    { (sound_initial boot controller display none).toCore with
      desktop := ⟨by rintro ⟨⟩, by rintro a ⟨⟩, by rintro a ⟨⟩, by rintro a ⟨⟩,
        fun _ => ⟨rfl, rfl⟩⟩
      identities := ⟨hnodup, fun t ht => tombstone_le_actionHighWater ht, uniqueUnits_nil,
        by rintro a ⟨⟩, by rintro a ⟨⟩, by rintro a ⟨⟩, by rintro a ⟨⟩, by rintro a ⟨⟩⟩ }
  started := (sound_initial boot controller display none).started
  inScope := (sound_initial boot controller display none).inScope
  pending := (sound_initial boot controller display none).pending
  verified := (sound_initial boot controller display none).verified
  wake := (sound_initial boot controller display none).wake

/-- Without live units the authorized state is as sound as the reconciled one. -/
theorem Sound.authorized (h : Sound c.state) (hunits : snapshot.units = [])
    (hsub : tombstones.Sublist (sameBootTombstones snapshot c).1)
    (hchecked : assertControllerInvariants
      (authorizedState controller snapshot c.state tombstones) = .ok ()) :
    Sound (authorizedState controller snapshot c.state tombstones) := by
  have hempty : sameBootRecoveryUnits c.state snapshot snapshot.verifiedTerminalIds = [] := by
    have hnone : c.state.recoveryUnits = [] := h.identities.recoveryUnits
    simp only [sameBootRecoveryUnits, retainedUnits, hnone, hunits, List.filter_nil,
      List.nil_append, uniqueUnits_nil]
  have hknown : ∀ r ∈ c.state.actions, Known
      (authorizedState controller snapshot c.state tombstones).actionSequenceHighWater
      tombstones r := by
    intro r hr
    refine ⟨action_le_actionHighWater hr, fun l => ?_⟩
    by_cases hp : c.state.phase = .recovering
    · rw [h.actions_of_unobserved (h.started.mp hp)] at hr
      cases hr
    · have hcoherent : Coherent (authorizedState controller snapshot c.state tombstones) :=
        (coherent_iff (s := authorizedState controller snapshot c.state tombstones) hp).mp hchecked
      exact hcoherent.ledger.recorded r hr l
  have htransition {t : TransitionId} (ht : t ∈ c.state.transitions) :
      t.sequence ≤ transitionHighWater (some c.state) snapshot := le_transitionHighWater ht
  exact
    { h with
      identities :=
        { tidy := (hsub.map _).nodup (nodup_mergeTombstones _ _)
          buried := fun t ht => tombstone_le_actionHighWater ht
          recoveryUnits := hempty
          probe := fun a ha => hknown _ (State.mem_actions_probe ha)
          application := fun a ha => hknown _ (State.mem_actions_application ha)
          planning := fun a ha => ⟨hknown _ (State.mem_actions_planning ha),
            htransition (State.mem_transitions.mpr (.inl ⟨a, ha, rfl⟩))⟩
          preparation := fun a ha => ⟨hknown _ (State.mem_actions_preparation ha),
            htransition (State.mem_transitions.mpr (.inr (.inl ⟨a, ha, rfl⟩)))⟩
          finalization := fun a ha => ⟨hknown _ (State.mem_actions_finalization ha),
            htransition (State.mem_transitions.mpr (.inr (.inr ⟨a, ha, rfl⟩)))⟩ } }

/-- A retained action with evidence of its end is no longer admitted. -/
theorem Sound.not_admitted (h : Sound c.state) (hreasons : sameBootReasons snapshot c = [])
    (hbound : boundActionTombstones c.state.retains
      (uncontradicted snapshot (sameBootTombstones snapshot c).1) = .ok tombstones)
    (hchecked : assertControllerInvariants
      (authorizedState controller snapshot c.state tombstones) = .ok ())
    {r : ActionRecord} (hr : r ∈ c.state.actions)
    (hevidence : r.actionId ∈ snapshot.verifiedTerminalIds) : r.lifecycle ≠ .admitted := by
  intro hl
  obtain ⟨t, ht, hid⟩ := List.mem_map.mp hevidence
  have hundeferred : t.actionId ∉ deferredResultIds c := by
    rw [hid]
    simp [deferredResultIds, State.actionForId_of_mem hr, hl]
  -- The evidence is merged, and kept for the retained action.
  have hmerged : r.actionId ∈ (sameBootTombstones snapshot c).1.map (·.actionId) := by
    refine mergeTombstones_ids.mpr (List.mem_map.mpr ⟨t, List.mem_append_right _ ?_, hid⟩)
    exact List.mem_filter.mpr ⟨ht, decide_eq_true hundeferred⟩
  obtain ⟨u, hu, huid⟩ := List.mem_map.mp hmerged
  have hkept : u ∈ tombstones := (Unopposed.of_reasons hreasons).mem_bounded hbound hr hu huid
  by_cases hp : c.state.phase = .recovering
  · rw [h.actions_of_unobserved (h.started.mp hp)] at hr
    cases hr
  · have hcoherent : Coherent (authorizedState controller snapshot c.state tombstones) :=
      (coherent_iff (s := authorizedState controller snapshot c.state tombstones) hp).mp hchecked
    have hended := (hcoherent.ledger.recorded r hr u.lifecycle).mp ⟨u, hkept, huid, rfl⟩
    rw [hl] at hended
    cases hended.1

theorem evidence_le_actionHighWater {persisted : Option State} {units : List WorkerUnit}
    {a : ActionId} (ha : a ∈ snapshot.verifiedTerminalIds) :
    a.sequence ≤ actionHighWater persisted snapshot tombstones units := by
  refine List.le_max_of_le' 0 (List.mem_cons_of_mem _ (List.mem_append_right _ ?_)) le_rfl
  refine List.mem_map.mpr ⟨a, ?_, rfl⟩
  simp only [List.mem_append]
  exact .inl (.inl (.inr ha))

theorem Descends.sound {origin s : State} (h : Descends origin s) (ho : Sound origin) :
    Sound s ∧ ∀ a, Resolved origin a → Resolved s a := by
  refine Runs.Reachable.invariant (P := fun s => Sound s ∧ ∀ a, Resolved origin a → Resolved s a)
    ?_ ?_ h
  · rintro _ rfl
    exact ⟨ho, fun a ha => ha⟩
  · rintro s e d s' - ⟨hs, hresolved⟩ ⟨hd, rfl⟩
    obtain ⟨-, hstep, -, hsound⟩ := hs.reduces hd
    exact ⟨hsound, fun a ha => hstep.resolved (hresolved a ha)⟩

end Recovered

/-- What a scan says of a worker which was submitted: it is alive or has ended, or else the scan is
ambiguous. -/
def Scanned (snapshot : WorkerNamespaceSnapshot) (a : ActionId) : Prop :=
  a ∈ snapshot.scannedIds ∨ a ∈ snapshot.verifiedTerminalIds ∨ snapshot.ambiguities ≠ []

/-- With the authority of recovery, and without a live worker, the consumer may start: the recovered
state is sound, and knows of every submitted worker which the persisted state or the scan knows. -/
theorem starting_of_recovery {persisted : Option State} {boot : BootId}
    {controller : ControllerInstanceId} {display : DisplayIdentity}
    {snapshot : WorkerNamespaceSnapshot} {corruption : Option String} {result : RecoveryResult}
    {w : Outside} (hsound : ∀ s ∈ persisted, Sound s)
    (hresult : recoverState persisted boot controller display (.ok snapshot) corruption =
      .ok result)
    (hauthority : result.authorityAllowed = true) (hunits : snapshot.units = [])
    (hfence : Published ⟨.initial result.state, w⟩) (hunstarted : w.unstarted = [])
    (honce : w.submitted.Nodup)
    (hknown : ∀ a ∈ w.submitted, (∃ s ∈ persisted, Resolved s a) ∨ Scanned snapshot a) :
    Starting ⟨.initial result.state, w⟩ := by
  obtain ⟨snapshot', hscan, hsnapshot, hcases⟩ := recoverState_authority hresult hauthority
  obtain rfl := Except.ok.inj hscan
  have hended : ∀ a ∈ w.submitted,
      (∃ s ∈ persisted, Resolved s a) ∨ a ∈ snapshot.verifiedTerminalIds := by
    intro a ha
    obtain hresolved | hlive | hended | hambiguous := hknown a ha
    · exact .inl hresolved
    · rw [WorkerNamespaceSnapshot.scannedIds, hunits] at hlive
      cases hlive
    · exact .inr hended
    · exact absurd (snapshotReasons_eq_nil.mp hsnapshot).1 hambiguous
  have hstart : Sound result.state ∧ ∀ a ∈ w.submitted, Resolved result.state a := by
    cases persisted with
    | none =>
      obtain ⟨tombstones, ht, h⟩ := bind_eq_ok.mp hresult
      obtain ⟨u, -, hok⟩ := bind_eq_ok.mp h
      obtain rfl := Except.ok.inj hok
      obtain ⟨bounded, hbound, hsub⟩ := boundActionTombstones_unprotected
        (l := uncontradicted snapshot (mergeTombstones [] snapshot.evidence).1)
      obtain rfl := Except.ok.inj (ht.symm.trans hbound)
      refine ⟨?_, fun a ha => ?_⟩
      · dsimp only
        rw [hunits]
        exact sound_minimumRecoveryState (uncontradicted_merge hsub).1
      · obtain ⟨s, ⟨⟩, -⟩ | hevidence := hended a ha
        exact ⟨evidence_le_actionHighWater hevidence, by rintro w ⟨⟩⟩
    | some s =>
      obtain ⟨⟨⟩, -⟩ | ⟨s', hs', -, -, c, tombstones, hc, hbound, hchecked, hreasons, hstate⟩ :=
        hcases
      obtain rfl := Option.some.inj hs'
      have hdescends := reconcileVerifiedResults_descends s snapshot.verifiedResults c hc
      obtain ⟨hreplayed, hresolved⟩ := hdescends.sound (hsound s rfl)
      rw [hstate] at hchecked ⊢
      refine ⟨hreplayed.authorized hunits (bounded_sublist hbound) hchecked, fun a ha => ?_⟩
      obtain ⟨s', hs', hlaunched⟩ | hevidence := hended a ha
      · obtain rfl := Option.some.inj hs'
        have hlaunched := hresolved a hlaunched
        exact ⟨hlaunched.bounded.trans high_le_actionHighWater, hlaunched.launched⟩
      · refine ⟨evidence_le_actionHighWater hevidence, ?_⟩
        have hnone (r : ActionRecord) (hr : r ∈ c.state.actions) (hid : r.actionId = a) :
            r.lifecycle ≠ .admitted :=
          hreplayed.not_admitted hreasons hbound hchecked hr (hid ▸ hevidence)
        intro worker hworker hid
        rcases State.mem_mutators.mp hworker with ⟨b, hb, rfl⟩ | ⟨b, hb, rfl⟩ | ⟨b, hb, rfl⟩ |
          ⟨b, hb, rfl⟩
        · exact hnone (.probe b) (State.mem_actions_probe hb) hid
        · exact hnone (.application b) (State.mem_actions_application hb) hid
        · exact hnone (.preparation b) (State.mem_actions_preparation hb) hid
        · exact hnone (.finalization b) (State.mem_actions_finalization hb) hid
  constructor
  case memory => rfl
  case sane => exact hstart.1.sane
  case fence => exact hfence
  case unstarted => exact hunstarted
  case once => exact honce
  case resolved => exact hstart.2

/-- The process dies. A request which waits for its worker is given up. -/
def Outside.died (w : Outside) : Outside :=
  { w with unstarted := [], abandoned := w.unstarted ++ w.abandoned }

section Sessions

variable {s : State} {boot : BootId} {controller : ControllerInstanceId} {display : DisplayIdentity}
  {session : GraphicalSessionId}

theorem Sound.inSession (h : Sound s) : Sound (s.inSession boot controller display session) where
  toCore :=
    { (sound_initial boot controller display (some session)).toCore with
      desktop := ⟨by rintro ⟨⟩, by rintro a ⟨⟩, by rintro a ⟨⟩, by rintro a ⟨⟩,
        fun _ => ⟨rfl, rfl⟩⟩
      identities := ⟨h.identities.tidy, h.identities.buried, rfl, by rintro a ⟨⟩, by rintro a ⟨⟩,
        by rintro a ⟨⟩, by rintro a ⟨⟩, by rintro a ⟨⟩⟩ }
  started := (sound_initial boot controller display none).started
  inScope := (sound_initial boot controller display none).inScope
  pending := (sound_initial boot controller display none).pending
  verified := (sound_initial boot controller display none).verified
  wake := (sound_initial boot controller display none).wake

theorem Resolved.inSession {a : ActionId} (h : Resolved s a) :
    Resolved (s.inSession boot controller display session) a :=
  ⟨h.bounded, by rintro w ⟨⟩⟩

/-- The name of the session has no part in what the consumer starts with. -/
theorem Starting.inSession {w : Outside} (h : Starting ⟨.initial s, w⟩) :
    Starting ⟨.initial { s with graphicalSessionId := some session }, w⟩ where
  memory := rfl
  sane := Sound.sane { h.sane.sound with }
  fence := h.fence
  unstarted := h.unstarted
  once := h.once
  resolved := fun a ha => ⟨(h.resolved a ha).bounded, (h.resolved a ha).launched⟩

end Sessions

theorem recoverInSession_ok {persisted : Option State} {boot : BootId}
    {controller : ControllerInstanceId} {display : DisplayIdentity} {session : GraphicalSessionId}
    {scan : Except String WorkerNamespaceSnapshot} {corruption : Option String}
    {result : RecoveryResult}
    (h : recoverInSession boot controller display session scan persisted corruption = .ok result) :
    ∃ recovery, recoverState persisted boot controller display scan corruption = .ok recovery ∧
      result = recovery.inSession session := by
  unfold recoverInSession at h
  cases hrecovery : recoverState persisted boot controller display scan corruption with
  | error e =>
    rw [hrecovery] at h
    cases h
  | ok recovery =>
    rw [hrecovery] at h
    exact ⟨recovery, rfl, (Except.ok.inj h).symm⟩

/-- What is loaded from the file of a state is recovered from it, or, in another boot or session,
from what is left of it. -/
theorem loadActiveState_ok {quoted : String → String} {s : State} {boot : BootId}
    {controller : ControllerInstanceId} {display : DisplayIdentity} {session : GraphicalSessionId}
    {scan : Except String WorkerNamespaceSnapshot} {result : RecoveryResult}
    (h : loadActiveState quoted boot controller display session scan (some (.ok s)) = .ok result) :
    ∃ persisted recovery,
      (persisted = s ∨ persisted = s.inSession boot controller display session) ∧
      recoverState (some persisted) boot controller display scan none = .ok recovery ∧
      result = recovery.inSession session := by
  unfold loadActiveState at h
  dsimp only at h
  split at h
  next => cases h
  next =>
    split at h
    next => exact ⟨_, (recoverInSession_ok h).imp fun _ hrecovery => ⟨.inr rfl, hrecovery⟩⟩
    next => exact ⟨_, (recoverInSession_ok h).imp fun _ hrecovery => ⟨.inl rfl, hrecovery⟩⟩

/-! ## The lives of the active service -/

/-- A start whose state file is sound as well. -/
structure Durable (c : Situation) : Prop extends Starting c where
  stored : Sound c.world.stored

/-- What the next process starts with once a process has died: recovery grants it authority over the
saved state, a scan finds no live worker, and it publishes the generation of the recovered state. -/
inductive Restarts (quoted : String → String) (c : Situation) : Situation → Prop
  | loaded {boot : BootId} {controller : ControllerInstanceId} {display : DisplayIdentity}
      {session : GraphicalSessionId} {snapshot : WorkerNamespaceSnapshot} {result : RecoveryResult}
      {w : Outside}
      (hresult : loadActiveState quoted boot controller display session (.ok snapshot)
        (some (.ok c.world.stored)) = .ok result)
      (hauthority : result.authorityAllowed = true) (hunits : snapshot.units = [])
      (hscanned : ∀ a ∈ c.world.submitted, Resolved c.world.stored a ∨ Scanned snapshot a)
      (hpublished : Publishes result.state.eventGeneration c.world.died w) :
      Restarts quoted c ⟨.initial result.state, w⟩

/-- A life is an execution, cut anywhere, and the start which follows it. -/
def Relives (quoted : String → String) (c : Situation)
    (life : List (Exchange Runtime Outside Request.Reply) × Ending Fault Unit)
    (c' c'' : Situation) : Prop :=
  Execution .active c life.1 life.2 c' ∧ Restarts quoted c' c''

/-- The service starts so after any number of lives. -/
def Lives (quoted : String → String) : Situation → Prop :=
  Runs.Reachable Durable (Relives quoted)

variable {quoted : String → String} {c c' c'' : Situation}
  {t : List (Exchange Runtime Outside Request.Reply)} {o : Ending Fault Unit}

/-- Wherever the process dies, the next one starts soundly. -/
theorem Durable.restarts (hs : Durable c) (h : Execution .active c t o c')
    (hnext : Restarts quoted c' c'') : Durable c'' := by
  obtain @⟨_, _, _, _, _, _, w, hresult, hauthority, hunits, hscanned, hpublished⟩ := hnext
  obtain ⟨persisted, recovery, hpersisted, hrecovery, rfl⟩ := loadActiveState_ok hresult
  have hsound : Sound c'.world.stored :=
    (h.stored_sane hs.toStarting).elim (fun heq => heq ▸ hs.stored) (·.sound)
  have hloaded : Sound persisted ∧ ∀ a, Resolved c'.world.stored a → Resolved persisted a := by
    obtain rfl | rfl := hpersisted
    · exact ⟨hsound, fun a ha => ha⟩
    · exact ⟨hsound.inSession, fun a ha => ha.inSession⟩
  have hkeeps := hpublished.keeps
  have hsubmitted : w.submitted = c'.world.submitted := hkeeps.submitted
  have hfence : Published ⟨.initial recovery.state, w⟩ :=
    Publishes.published (r := .initial recovery.state) hpublished
  have hstarting : Starting ⟨.initial recovery.state, w⟩ := by
    refine starting_of_recovery ?_ hrecovery hauthority hunits hfence hkeeps.unstarted ?_ ?_
    · rintro s ⟨⟩
      exact hloaded.1
    · rw [hsubmitted]
      exact h.submitted_nodup hs.toStarting
    · intro a ha
      rw [hsubmitted] at ha
      exact (hscanned a ha).imp_left fun hresolved => ⟨_, rfl, hloaded.2 a hresolved⟩
  exact { hstarting.inSession with stored := hkeeps.stored ▸ hsound }

theorem Lives.durable (h : Lives quoted c) : Durable c :=
  Runs.Reachable.invariant (fun _ hs => hs)
    (fun _ _ _ _ _ hs hlife => hs.restarts hlife.1 hlife.2) h

namespace Scenario

theorem c1_safe : "c1".toList.all safeSessionChar = true := by decide

def session : GraphicalSessionId := ⟨⟨"c1", by decide⟩, c1_safe⟩

/-- The service starts in a graphical session. -/
def seated : State := .initial boot controller ⟨panel⟩ (some session)

theorem seated_sound : Sound seated :=
  sound_initial boot controller ⟨panel⟩ (some session)

def seatedLaunch : Situation := ⟨.initial seated, { stored := seated, fence := none }⟩

theorem seatedLaunch_durable : Durable seatedLaunch where
  memory := rfl
  sane := seated_sound.sane
  fence := .inr (.inl rfl)
  unstarted := rfl
  once := .nil
  resolved := by simp [seatedLaunch]
  stored := seated_sound

/-- The process dies right after it has submitted its first worker, which is only admitted yet. -/
def interrupted : List (Exchange Runtime Outside Request.Reply) × Ending Fault Unit × Situation :=
  simulate (consumer .active).body (obliging .accepts) 49 run seatedLaunch

theorem failed_terminal : ActionLifecycle.failed.terminal = true := rfl

theorem failed_status : 1 ≤ 255 := by decide

theorem failed_uncompleted : ActionLifecycle.failed = .completed ↔ 1 = 0 := by decide

def loadFailed : VerifiedWorkerResult where
  unit := ⟨load, laptop⟩
  terminalLifecycle := .failed
  exitStatus := 1
  finishedMonotonicMs := 5000
  terminal := failed_terminal
  status_bound := failed_status
  status_completed := failed_uncompleted

theorem loadFailed_unique : ([loadFailed].map (·.actionId)).Nodup := List.nodup_singleton _

theorem loadFailed_agrees : ∀ r ∈ [loadFailed],
    ∀ t ∈ [loadFailed.tombstone].reverse.find? (·.actionId = r.actionId),
      t.lifecycle = r.terminalLifecycle := by
  decide

/-- The scan finds that the worker has failed meanwhile. -/
def endedScan : WorkerNamespaceSnapshot where
  verifiedTombstones := [loadFailed.tombstone]
  verifiedResults := [loadFailed]
  actionSequenceHighWater := load.sequence
  results_unique := loadFailed_unique
  results_agree := loadFailed_agrees

/-- The next process starts in the same session. -/
def reloaded : Except StartupFault RecoveryResult :=
  loadActiveState id boot controller ⟨panel⟩ session (.ok endedScan)
    (some (.ok interrupted.2.2.world.stored))

theorem interrupted_reloads :
    (reloaded.toOption.map fun r => (r.authorityAllowed, r.state.phase)) =
      some (true, .applyFailed) ∧
    (interrupted.2.2.world.stored.mutators.map fun w => (w.actionId, w.lifecycle)) =
      [(load, .admitted)] ∧
    interrupted.2.2.world.submitted = [load] := by
  decide +kernel

end Scenario

end MonitorController
