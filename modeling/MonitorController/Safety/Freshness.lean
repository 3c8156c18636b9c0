import MonitorController.Safety.Totality
import MonitorController.Transition.Frame

/-! # Identities are never reused

Only classification hands out identities, above the marks. The reducer is a
ledger of action and of transition identities, and an event which names no
retained action is ignored.
-/

namespace MonitorController

def Event.actionId? : Event → Option ActionId
  | .planRequested e => some e.actionId
  | .planCompleted e => some e.actionId
  | .planFailed e => some e.actionId
  | .admissionDirtied e => some e.actionId
  | .probeDispatched e => some e.actionId
  | .probeFinished e => some e.actionId
  | .applicationDispatched e => some e.actionId
  | .applicationFinished e => some e.actionId
  | .preparationDispatched e => some e.actionId
  | .preparationFinished e => some e.actionId
  | .finalizationDispatched e => some e.actionId
  | .finalizationFinished e => some e.actionId
  | .dispatchRejected e => some e.actionId
  | .workerStatusUnknown e => some e.actionId
  | .workerTimedOut e => some e.actionId
  | .workerCancellationAcknowledged e => some e.actionId
  | .observationCompleted _ | .observationFailed _ | .timerFired _ | .drmHintReceived _
  | .controllerStarted _ | .bootChanged _ => none

section Steps

variable {s : State} {e : Event} {d : Decision}

theorem Step.grows (h : Step s e d) : Grows s d.state := by
  rcases h.cases_on with ⟨hk, -⟩ | ⟨f, -, -, -, -, ⟨s', es, d', hf, hc⟩⟩
  · exact hk.grows
  · have hrecorded : Grows s (recordObservation s f.observation) := .same
    exact (hrecorded.trans hf.kept.grows).trans hc.frame.toGrows

theorem Event.actionId?_of_finished {a : ActionId} (h : e.finished? = some a) :
    e.actionId? = some a := by
  cases e with
  | probeFinished e => exact h
  | applicationFinished e => exact h
  | preparationFinished e => exact h
  | finalizationFinished e => exact h
  | _ => cases h

theorem Ends.names {r : ActionRecord} {l : ActionLifecycle} (h : Ends e r l) :
    e.actionId? = some r.actionId := by
  cases h with
  | finished he hr hl => exact Event.actionId?_of_finished he
  | acknowledged he hr => exact congrArg some he

theorem Fails.names {r : ActionRecord} {l : ActionLifecycle} (h : Fails e r l) :
    e.actionId? = some r.actionId := by
  cases h with
  | ended h => exact h.names
  | rejected he hr => exact congrArg some he
  | unknown he hk hr => exact congrArg some he
  | planFailed he hk hr => exact congrArg some he

/-- An event which names no retained action changes nothing. -/
theorem Step.unnamed (h : Step s e d) {a : ActionId} (ha : e.actionId? = some a)
    (hn : a ∉ s.actionIds) : d = ⟨s, []⟩ := by
  have named {r : ActionRecord} (hr : r ∈ s.actions) (he : e.actionId? = some r.actionId) :
      d = ⟨s, []⟩ := by
    rw [Option.some.inj (ha.symm.trans he)] at hn
    exact absurd (List.mem_map.mpr ⟨r, hr, rfl⟩) hn
  cases h with
  | ignored e hi => rfl
  | observed e hb hf ho => cases ha
  | observationFailed e t ht => cases ha
  | timerFired e t ht => cases ha
  | hinted e s' es t hb hg ht hh => cases ha
  | dirtied e r s' es t hb hr he hl hg ht hw => exact named hr (congrArg some he.symm)
  | probeDispatched e b w hb hl hi hd =>
    exact named (State.mem_actions_probe hb) (congrArg some hi.symm)
  | applicationDispatched e b w hb hl hi hd =>
    exact named (State.mem_actions_application hb) (congrArg some hi.symm)
  | preparationDispatched e b w hb hl hi hd =>
    exact named (State.mem_actions_preparation hb) (congrArg some hi.symm)
  | finalizationDispatched e b w hb hl hi hd =>
    exact named (State.mem_actions_finalization hb) (congrArg some hi.symm)
  | planRequested e p hp hs hi hk =>
    exact named (State.mem_actions_planning hp) (congrArg some hi.symm)
  | planCompleted e p t hp hs hi hk ht =>
    exact named (State.mem_actions_planning hp) (congrArg some hi.symm)
  | planRetried e p t hp hs hi hk hr ht =>
    exact named (State.mem_actions_planning hp) (congrArg some hi.symm)
  | stopRepeated e r t hr hl he ht => exact named hr (Event.actionId?_of_finished he)
  | closed e r l v es t hr hk he hl hv hes ht => exact named hr he.names
  | failed e r r' phase es t hr hc hf he hp hes => exact named hr he.names
  | preparationReported e b c t hb he hc hl ht =>
    exact named (State.mem_actions_preparation hb) he.names
  | finalizationReported e b c t hb he hc hl ht =>
    exact named (State.mem_actions_finalization hb) he.names
  | doubted e r v t hr hk hl he ht =>
    refine named hr ?_
    cases he with
    | unknown he => exact congrArg some he
    | timedOut he => exact congrArg some he
  | restarted e b s' es t hb hl hw ht => cases ha
  | retried e b t hb hp ht => cases ha
  | resumed e v es t hq hv hes => cases ha
  | booted e hb => cases ha

end Steps

theorem Sound.inert {s : State} (h : Sound s) {e : Event} {a : ActionId}
    (ha : e.actionId? = some a) (hn : a ∉ s.actionIds) : reduce s e = .ok ⟨s, []⟩ := by
  rcases h.reduce_cases e with ⟨-, d, hd, hstep, -⟩ | ⟨hu, -⟩
  · rw [hd, hstep.unnamed ha hn]
  · cases e with
    | planFailed e =>
      obtain ⟨-, -, -, -, p, hp, hi, -⟩ := hu
      rw [← Option.some.inj ha, ← hi] at hn
      exact absurd (State.mem_actionIds.mpr (.inr (.inr (.inl ⟨p, hp, rfl⟩)))) hn
    | observationCompleted e => cases ha
    | _ => cases hu

theorem actionLedger : Fresh.Ledger Starts Reduces ActionId.sequence State.actionIds
    State.actionSequenceHighWater where
  start := by
    rintro _ ⟨bootId, instanceId, display, session, rfl⟩
    rfl
  step := by
    rintro s e d _ hs ⟨hr, rfl⟩
    exact (Reachable.sound hs).reduces hr |>.2.1.grows.actions

theorem transitionLedger : Fresh.Ledger Starts Reduces TransitionId.sequence State.transitions
    State.transitionSequenceHighWater where
  start := by
    rintro _ ⟨bootId, instanceId, display, session, rfl⟩
    rfl
  step := by
    rintro s e d _ hs ⟨hr, rfl⟩
    exact (Reachable.sound hs).reduces hr |>.2.1.grows.transitions

/-- Identities are handed out in increasing order, the marks never decrease, and an action which
left its slot never returns and is named in vain. -/
theorem identities_never_reused {newer older : List (Runs.Move State Event Decision)}
    {m : Runs.Move State Event Decision} {s : State} (h : Run (newer ++ m :: older) s) :
    (∀ a ∈ m.after.actionIds, a ∉ m.before.actionIds → ∀ n ∈ older, ∀ b ∈ n.after.actionIds,
      b.sequence < a.sequence) ∧
    (∀ t ∈ m.after.transitions, t ∉ m.before.transitions → ∀ n ∈ older,
      ∀ u ∈ n.after.transitions, u.sequence < t.sequence) ∧
    m.after.actionSequenceHighWater ≤ s.actionSequenceHighWater ∧
    m.after.transitionSequenceHighWater ≤ s.transitionSequenceHighWater ∧
    ∀ a ∈ m.before.actionIds, a ∉ m.after.actionIds → a ∉ s.actionIds ∧
      ∀ e : Event, e.actionId? = some a → reduce s e = .ok ⟨s, []⟩ := by
  refine ⟨fun a ha han n hn b hb => actionLedger.increases h ha han hn hb,
    fun t ht htn n hn u hu => transitionLedger.increases h ht htn hn hu,
    actionLedger.mark_le h, transitionLedger.mark_le h, fun a ha hgone => ?_⟩
  have hdeparted := actionLedger.departed h ha hgone
  exact ⟨hdeparted, fun e he => (Reachable.sound h.reachable).inert he hdeparted⟩

namespace Scenario

/-- The load is admitted, and withdrawn when the next sample recognises no profile. -/
def loadAdmitted : Decision := decided fresh (.observationCompleted darkSampled) rfl

def unrecognised : Event := .observationCompleted (sampled (plain laptop dock 2 1000) (by decide) rfl)

def loadWithdrawn : Decision := decided loadAdmitted.state unrecognised rfl

theorem withdrawn_run :
    Run ([] ++ ⟨loadAdmitted.state, unrecognised, loadWithdrawn, loadWithdrawn.state⟩ ::
      [⟨fresh, .observationCompleted darkSampled, loadAdmitted, loadAdmitted.state⟩])
      loadWithdrawn.state :=
  .move (.move (.start ⟨_, _, _, _, rfl⟩) ⟨reduce_decided _ _ _, rfl⟩) ⟨reduce_decided _ _ _, rfl⟩

end Scenario

open Scenario in
theorem identities_never_reused_withdrawn :
    load ∉ loadWithdrawn.state.actionIds ∧
      reduce loadWithdrawn.state (.applicationDispatched loadDispatched) =
        .ok ⟨loadWithdrawn.state, []⟩ := by
  obtain ⟨hgone, hinert⟩ := (identities_never_reused withdrawn_run).2.2.2.2 load (by decide)
    (by decide)
  exact ⟨hgone, hinert (.applicationDispatched loadDispatched) rfl⟩

end MonitorController
