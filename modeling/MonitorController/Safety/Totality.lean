import MonitorController.Safety.Reachable

/-! # Totality

The reducer returns on exactly the answerable events. Two consequences concern
internal-only loads under external evidence and plan results beside a load.
-/

namespace MonitorController

/-- The state a list of events leads to, while the reducer returns on each. -/
def follow : State → List Event → Option State
  | s, [] => some s
  | s, e :: es =>
    match reduce s e with
    | .ok d => follow d.state es
    | .error _ => none

theorem Reachable.follow {s s' : State} (hs : Reachable s) {es : List Event}
    (h : follow s es = some s') : Reachable s' := by
  induction es generalizing s with
  | nil => exact Option.some.inj h ▸ hs
  | cons e es ih =>
    unfold MonitorController.follow at h
    split at h
    next d hd => exact ih (hs.move ⟨hd, rfl⟩) h
    next => cases h

/-- The moves of a list of events behind those already made, while the reducer returns on each. -/
def trail : State → List Event → List (Runs.Move State Event Decision) →
    List (Runs.Move State Event Decision)
  | _, [], ms => ms
  | s, e :: es, ms =>
    match reduce s e with
    | .ok d => trail d.state es (⟨s, e, d, d.state⟩ :: ms)
    | .error _ => ms

theorem Run.trail {ms : List (Runs.Move State Event Decision)} {s s' : State} (hs : Run ms s)
    {es : List Event} (h : follow s es = some s') : Run (trail s es ms) s' := by
  induction es generalizing ms s with
  | nil => exact Option.some.inj h ▸ hs
  | cons e es ih =>
    unfold MonitorController.follow at h
    unfold MonitorController.trail
    split at h
    next d hd => exact ih (.move hs ⟨hd, rfl⟩) h
    next => cases h

def decided (s : State) (e : Event) (h : (reduce s e).toOption.isSome = true) : Decision :=
  (reduce s e).toOption.get h

theorem reduce_decided (s : State) (e : Event) (h : (reduce s e).toOption.isSome = true) :
    reduce s e = .ok (decided s e h) := by
  obtain ⟨d, hd⟩ := Option.isSome_iff_exists.mp h
  have hok : reduce s e = .ok d := by
    cases hr : reduce s e with
    | ok d' =>
      rw [hr] at hd
      exact congrArg Except.ok (Option.some.inj hd)
    | error x =>
      rw [hr] at hd
      cases hd
  rw [hok]
  exact congrArg Except.ok (Option.get_of_eq_some h hd).symm

namespace Scenario

/-! A laptop with one panel and one monitor, for the runs on fixed inputs. -/

def laptop : Text := ⟨"laptop", by decide⟩
def dock : Text := ⟨"dock", by decide⟩
def panel : Text := ⟨"eDP-1", by decide⟩
def monitor : Text := ⟨"HDMI-1", by decide⟩
def boot : BootId := ⟨0⟩
def controller : ControllerInstanceId := ⟨1⟩

def fresh : State := .initial boot controller ⟨panel⟩ none

theorem fresh_reachable : Reachable fresh := .start ⟨_, _, _, _, rfl⟩

def laptopMatch : ProfileMatch where
  profile := laptop
  scope := .internalOnly
  layout := laptop
  mapping := [⟨panel, panel⟩]
  activeOutputs := [panel]
  configurationHashes := [⟨laptop, laptop⟩]
  hashes_nonempty := by decide
  planning_valid := by decide
  hashes_valid := by decide
  mapping_valid := by decide
  active_valid := by decide

def plain (token key : Text) (generation observedAtMs : Nat) : ObservationFields where
  observedAtMs := observedAtMs
  observationGeneration := generation
  bootId := boot
  physicalToken := ⟨token⟩
  beginEventGeneration := 0
  endEventGeneration := 0
  kernelConnectedOutputs := [panel]
  kernelExternalOutputs := []
  xConnectedOutputs := [panel]
  xActiveOutputs := []
  xExternalOutputs := []
  connectorIdentities := []
  liveFingerprints := []
  baseIdentityProfiles := []
  edidIntegrity := []
  probeCandidate := none
  eligibleProfiles := []
  currentProfiles := []
  exactProfile := none
  observationKey := ⟨key⟩
  validity := .valid
  invalidityReason := none
  rawEvidence := []

def dark (token key : Text) (generation observedAtMs : Nat) : ObservationFields :=
  { plain token key generation observedAtMs with eligibleProfiles := [laptopMatch] }

def lit (token key : Text) (generation observedAtMs : Nat) : ObservationFields :=
  { dark token key generation observedAtMs with
    xActiveOutputs := [panel]
    currentProfiles := [laptop]
    exactProfile := some laptop }

def plugged (token key : Text) (generation observedAtMs : Nat) : ObservationFields :=
  { plain token key generation observedAtMs with
    kernelExternalOutputs := [monitor]
    validity := .invalid
    invalidityReason := some .commandTimedOut }

def metadata (processedAtMs : Nat) : EventMetadata := ⟨processedAtMs, boot⟩

def sampled (o : ObservationFields) (h : o.Accepted) (hb : o.bootId = boot) : ObservationCompleted :=
  ⟨metadata o.observedAtMs, ⟨o, h⟩, hb⟩

def shown (token key : Text) (generation observedAtMs : Nat)
    (h : (lit token key generation observedAtMs).Accepted := by decide) : ObservationCompleted :=
  sampled (lit token key generation observedAtMs) h rfl

/-- The load of the panel's profile, the first action of the run. -/
def load : ActionId := ⟨controller, .application, 1, Nat.one_pos⟩

theorem load_kind : load.kind = .application := rfl

def loadDispatched : ApplicationDispatched := ⟨metadata 0, load, ⟨load, laptop⟩, rfl, rfl⟩

def darkSampled : ObservationCompleted := sampled (dark laptop laptop 1 0) (by decide) rfl

def monitorPlugged : ObservationCompleted := sampled (plugged laptop laptop 2 1000) (by decide) rfl

def loading : State :=
  (follow fresh [.observationCompleted darkSampled, .applicationDispatched loadDispatched]).get rfl

theorem loading_reachable : Reachable loading := fresh_reachable.follow (Option.some_get _).symm

/-- The monitor's topology, on which the panel's profile can still be loaded. -/
def docked : Event := .observationCompleted (sampled (dark dock dock 2 1000) (by decide) rfl)

/-- A load is admitted while the plan of the profile it replaces is still pending. -/
def replacing : State :=
  (follow fresh [.observationCompleted (sampled (plain dock dock 1 0) (by decide) rfl),
    .observationCompleted (sampled (lit laptop laptop 2 1000) (by decide) rfl),
    .observationCompleted (sampled (dark laptop dock 3 2000) (by decide) rfl)]).get rfl

theorem replacing_reachable : Reachable replacing :=
  fresh_reachable.follow (Option.some_get _).symm

def planRetried : PlanFailed where
  metadata := metadata 2000
  actionId := (replacing.planning.get rfl).actionId
  inputKey := (replacing.planning.get rfl).inputKey
  reason := dock
  retryable := true
  kind_plan := (replacing.planning.get rfl).kind_plan

end Scenario

/-- The reducer returns on exactly the answerable events. -/
theorem reduce_returns_iff {s : State} (hs : Reachable s) (e : Event) :
    (∃ d, reduce s e = .ok d) ↔ ¬ Unanswerable s e := by
  constructor
  · rintro ⟨d, hd⟩
    exact (hs.sound.reduces hd).1
  · intro hn
    rcases hs.sound.reduce_cases e with ⟨-, d, hd, -⟩ | ⟨hu, -⟩
    · exact ⟨d, hd⟩
    · exact absurd hu hn

open Scenario in
/-- While the panel's profile loads, its topology may change, but no monitor may appear. -/
theorem reduce_returns_iff_loading :
    ((∃ d, reduce loading docked = .ok d) ↔ ¬ Unanswerable loading docked) ∧
    ((∃ d, reduce loading (.observationCompleted monitorPlugged) = .ok d) ↔
      ¬ Unanswerable loading (.observationCompleted monitorPlugged)) ∧
    ¬ Unanswerable loading docked ∧ Unanswerable loading (.observationCompleted monitorPlugged) :=
  ⟨reduce_returns_iff loading_reachable _, reduce_returns_iff loading_reachable _,
    by decide, by decide⟩

/-- A monitor which appears while the panel's profile loads makes the reducer raise. -/
theorem reduce_raises : ¬ ∀ s, Reachable s → ∀ e, ∃ d, reduce s e = .ok d := by
  intro h
  obtain ⟨d, hd⟩ := h _ Scenario.loading_reachable (.observationCompleted Scenario.monitorPlugged)
  have hraise : (reduce Scenario.loading (.observationCompleted Scenario.monitorPlugged)).isOk =
      false := by rfl
  rw [hd] at hraise
  cases hraise

/-- The load stays in its slot and is being stopped. -/
def stopsLoad (a : ApplicationAction) (d : Decision) : Prop :=
  .stopAction a.actionId ∈ d.effects ∧ d.state.phase = .applying ∧
    ∃ b ∈ d.state.application, b.actionId = a.actionId ∧ b.lifecycle = .stopping

/-- External evidence never stops a running internal-only load, since the reducer raises. -/
theorem external_stops_no_load {s : State} (hs : Reachable s) {a : ApplicationAction}
    (ha : s.application = some a) (hi : a.scope = .internalOnly)
    (hl : a.lifecycle = .dispatched ∨ a.lifecycle = .stopping) {e : ObservationCompleted}
    (hb : e.metadata.bootId = s.bootId) (hf : ¬ staleObservation s e.observation)
    (he : e.observation.hasExternalHardware = true) :
    ¬ ∃ d, reduce s (.observationCompleted e) = .ok d ∧ stopsLoad a d := by
  rintro ⟨d, hd, -⟩
  have hanswered := (hs.sound.reduces hd).1
  refine hanswered ⟨hb, hf, .inl ⟨he, a, ha, hi, ?_⟩⟩
  split
  · exact hl.imp_right .inl
  · rcases hl with hl | hl <;> simp [hl]

theorem external_stops_no_load_loading :
    ¬ ∃ d, reduce Scenario.loading (.observationCompleted Scenario.monitorPlugged) = .ok d ∧
      stopsLoad (Scenario.loading.application.get rfl) d :=
  external_stops_no_load Scenario.loading_reachable (Option.some_get _).symm rfl (.inl rfl) rfl
    (by decide) rfl

/-- The load of the panel's profile is not stopped when the monitor appears. -/
theorem external_raises : ¬ ∀ s a e, Reachable s → s.application = some a →
    a.scope = .internalOnly → (a.lifecycle = .dispatched ∨ a.lifecycle = .stopping) →
    e.metadata.bootId = s.bootId → ¬ staleObservation s e.observation →
    e.observation.hasExternalHardware = true →
    ∃ d, reduce s (.observationCompleted e) = .ok d ∧ stopsLoad a d := by
  intro h
  obtain ⟨d, hd, -⟩ := h _ (Scenario.loading.application.get rfl) Scenario.monitorPlugged
    Scenario.loading_reachable (Option.some_get _).symm rfl (.inl rfl) rfl (by decide) rfl
  have hraise : (reduce Scenario.loading (.observationCompleted Scenario.monitorPlugged)).isOk =
      false := by rfl
  rw [hd] at hraise
  cases hraise

def Event.planning : Event → Bool
  | .planRequested _ | .planCompleted _ | .planFailed _ => true
  | _ => false

/-- The display slots are untouched, and so is the phase an occupied one owns. -/
def sparesDisplay (s s' : State) : Prop :=
  s'.probe = s.probe ∧ s'.application = s.application ∧ s'.finalization = s.finalization ∧
    (s.probe ≠ none ∨ s.application ≠ none ∨ s.finalization ≠ none → s'.phase = s.phase)

theorem Event.reports_of_planning {e : Event} (h : e.planning = true) : e.reports = false := by
  cases e with
  | planRequested e => rfl
  | planCompleted e => rfl
  | planFailed e => rfl
  | _ => cases h

theorem Ends.not_planning {e : Event} {r : ActionRecord} {l : ActionLifecycle} (h : Ends e r l) :
    e.planning = false := by
  by_contra hp
  have hreports := h.reports
  simp [Event.reports_of_planning (by simpa using hp)] at hreports

theorem Fails.kind_plan {e : Event} {r : ActionRecord} {l : ActionLifecycle} (h : Fails e r l)
    (he : e.planning = true) : r.kind = .plan := by
  cases h with
  | ended h => simp [h.not_planning] at he
  | rejected hi hl => cases he
  | unknown hi hk hl => cases he
  | planFailed hi hk hl => exact hk

theorem Sound.planning_spares {s : State} (h : Sound s) {e : Event} {d : Decision}
    (he : e.planning = true) (hs : Step s e d) (hto : Addressed s e d) (hn : ¬ Unanswerable s e) :
    sparesDisplay s d.state := by
  have unchanged : sparesDisplay s s := ⟨rfl, rfl, rfl, fun _ => rfl⟩
  rcases hto with rfl | hto
  · exact unchanged
  cases hs with
  | ignored e hi => exact unchanged
  | planRequested e p hp hs hi hk => exact ⟨rfl, rfl, rfl, fun _ => rfl⟩
  | planCompleted e p t hp hs hi hk ht => exact ⟨rfl, rfl, rfl, fun _ => rfl⟩
  | planRetried e p t hp hs hi hk hr ht =>
    refine ⟨rfl, rfl, rfl, fun hne => ?_⟩
    have hlive : p.lifecycle.terminal = false := by
      rcases hs with hs | hs
      · rw [(h.control.planning_running hp).1 hs]; rfl
      · rw [(h.control.planning_running hp).2 hs]; rfl
    obtain ⟨hidle, hprep⟩ := h.control.planning_live hp hlive
    rcases hto with ⟨b, ⟨⟩⟩ | hb
    rcases hne with hne | hne | hne
    · exact absurd (h.control.probing hne).1 hidle
    · exact absurd ⟨hb, hr, hne, hs, p, hp, hi, hk⟩ hn
    · exact absurd (h.control.prepared hne) (by simp [hprep])
  | failed e r r' phase es t hr hc hf hfail hp hes =>
    have hk := hfail.kind_plan he
    cases hc with
    | planning a l x =>
      have hphase : phase = s.phase := hp.elim id fun hq => absurd hq.1 (by simp [ActionRecord.kind])
      exact ⟨rfl, rfl, rfl, fun _ => hphase⟩
    | probe a w hk' hw => cases hk
    | application a w hk' hw => cases hk
    | preparation a w hk' hw => cases hk
    | finalization a w hk' hw => cases hk
  | doubted e r v t hr hk hl hd ht => cases hd <;> cases he
  | stopRepeated e r t hr hl hfin ht =>
    have hreports := Event.reports_of_finished hfin
    simp [Event.reports_of_planning he] at hreports
  | closed e r l v es t hr hk hend hl hv hes ht => simp [hend.not_planning] at he
  | preparationReported e a b t ha hend hb hl ht => simp [hend.not_planning] at he
  | finalizationReported e a b t ha hend hb hl ht => simp [hend.not_planning] at he
  | _ => cases he

/-- A plan result spares the display work exactly unless it retries beside an application. -/
theorem planning_spares_iff {s : State} (hs : Reachable s) {e : Event} (he : e.planning = true) :
    (∃ d, reduce s e = .ok d ∧ sparesDisplay s d.state) ↔
      ¬ ∃ f, e = .planFailed f ∧ f.metadata.bootId = s.bootId ∧ retriesOccupied s f := by
  have hiff : Unanswerable s e ↔
      ∃ f, e = .planFailed f ∧ f.metadata.bootId = s.bootId ∧ retriesOccupied s f := by
    cases e with
    | planFailed f => simp [Unanswerable]
    | planRequested f => simp [Unanswerable]
    | planCompleted f => simp [Unanswerable]
    | _ => cases he
  rw [← hiff]
  constructor
  · rintro ⟨d, hd, -⟩
    exact (hs.sound.reduces hd).1
  · intro hn
    rcases hs.sound.reduce_cases e with ⟨-, d, hd, hstep, hto, -⟩ | ⟨hu, -⟩
    · exact ⟨d, hd, hs.sound.planning_spares he hstep hto hn⟩
    · exact absurd hu hn

theorem planning_spares_iff_replacing :
    (∃ d, reduce Scenario.replacing (.planFailed Scenario.planRetried) = .ok d ∧
        sparesDisplay Scenario.replacing d.state) ↔
      ¬ ∃ f, Event.planFailed Scenario.planRetried = .planFailed f ∧
        f.metadata.bootId = Scenario.replacing.bootId ∧ retriesOccupied Scenario.replacing f :=
  planning_spares_iff Scenario.replacing_reachable rfl

/-- A plan which is retried beside an admitted load makes the reducer raise. -/
theorem planning_raises : ¬ ∀ s, Reachable s → ∀ e : Event, e.planning = true →
    ∃ d, reduce s e = .ok d ∧ sparesDisplay s d.state := by
  intro h
  obtain ⟨d, hd, -⟩ :=
    h _ Scenario.replacing_reachable (.planFailed Scenario.planRetried) rfl
  have hraise : (reduce Scenario.replacing (.planFailed Scenario.planRetried)).isOk = false := by rfl
  rw [hd] at hraise
  cases hraise

end MonitorController
