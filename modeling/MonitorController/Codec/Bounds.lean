import MonitorController.Codec.Persistable

/-! # History within the limits

Tombstones are pruned, but attempts are forgotten only with their topology or
when their profile is reached: one topology with ever new evidence outgrows the
limit on them.
-/

namespace MonitorController

/-- The event launches an admitted worker while the history of such attempts is full. -/
def Overfills (s : State) : Event → Prop
  | .probeDispatched e => e.metadata.bootId = s.bootId ∧ maxAttemptKeys ≤ s.attemptedProbeKeys.card ∧
      ∃ a ∈ s.probe, a.lifecycle = .admitted ∧ a.actionId = e.actionId
  | .applicationDispatched e =>
      e.metadata.bootId = s.bootId ∧ maxAttemptKeys ≤ s.attemptedApplicationKeys.card ∧
      ∃ a ∈ s.application, a.lifecycle = .admitted ∧ a.actionId = e.actionId
  | _ => False

theorem eq_of_decision {s : State} {es : List Effect} {d : Decision}
    (h : decision s es = .ok d) : d = ⟨s, es⟩ := by
  obtain ⟨u, -, hok⟩ := Outcome.bind_eq_ok.mp h
  exact (Except.ok.inj hok).symm

section Runs

variable {s : State} {e : Event} {d : Decision}

theorem Reachable.withinLimits_iff (h : Reachable s) :
    WithinLimits s ↔ s.attemptedProbeKeys.card ≤ maxAttemptKeys ∧
      s.attemptedApplicationKeys.card ≤ maxAttemptKeys := by
  constructor
  · intro hw
    exact ⟨hw.probeKeys, hw.applicationKeys⟩
  · rintro ⟨hprobe, happlication⟩
    have hunits : s.recoveryUnits = [] := h.sound.identities.recoveryUnits
    have hlimit : actionTombstoneRetentionLimit ≤ maxTombstones := by decide
    exact ⟨h.bounded.trans hlimit, by simp [hunits], hprobe, happlication⟩

theorem Reachable.validates_iff (h : Reachable s) : validateState s = .ok () ↔ WithinLimits s := by
  rw [validateState_eq_ok]
  constructor
  · rintro ⟨hw, -⟩
    exact hw
  · intro hw
    exact ⟨hw, h.persistable, h.sound.checked⟩

theorem Sound.probeDispatched (h : Sound s) {f : ProbeDispatched} {a : ProbeAction}
    (hb : f.metadata.bootId = s.bootId) (ha : s.probe = some a) (hl : a.lifecycle = .admitted)
    (hi : a.actionId = f.actionId) (hd : reduce s (.probeDispatched f) = .ok d) :
    ∃ b : ProbeAction, b.lifecycle = .dispatched ∧ b.key = a.key ∧ d.state =
      { s with
        phase := .probing
        probe := some b
        attemptedProbeKeys := insert a.key s.attemptedProbeKeys
        nextTimerMs := none } := by
  have hp := h.control.probe_pending ha hl
  rw [h.reduce_eq (e := .probeDispatched f) hb (by rintro b ⟨⟩)] at hd
  unfold reduceEvent MonitorController.probeDispatched at hd
  simp only [ha] at hd
  rw [dif_pos ⟨hp, hi, hl⟩] at hd
  obtain ⟨deadline, -, hok⟩ := Outcome.bind_eq_ok.mp hd
  have hstate := congrArg Decision.state (eq_of_decision hok)
  refine ⟨_, ?_, ?_, hstate⟩ <;> rfl

theorem Sound.applicationDispatched (h : Sound s) {f : ApplicationDispatched}
    {a : ApplicationAction} (hb : f.metadata.bootId = s.bootId) (ha : s.application = some a)
    (hl : a.lifecycle = .admitted) (hi : a.actionId = f.actionId)
    (hd : reduce s (.applicationDispatched f) = .ok d) :
    d.state.attemptedApplicationKeys = insert a.key s.attemptedApplicationKeys := by
  have hp := h.control.application_pending ha hl
  rw [h.reduce_eq (e := .applicationDispatched f) hb (by rintro b ⟨⟩)] at hd
  unfold reduceEvent MonitorController.applicationDispatched at hd
  simp only [ha] at hd
  rw [dif_pos ⟨hp, hi, hl⟩] at hd
  obtain ⟨deadline, -, hok⟩ := Outcome.bind_eq_ok.mp hd
  rw [eq_of_decision hok]

theorem Sound.probeFinished (h : Sound s) {f : ProbeFinished} {a : ProbeAction}
    (hb : f.metadata.bootId = s.bootId) (ha : s.probe = some a) (hp : s.phase = .probing)
    (hl : a.lifecycle = .dispatched) (hi : a.actionId = f.actionId) (ho : f.outcome = .succeeded)
    (hd : reduce s (.probeFinished f) = .ok d) :
    d.state = ({ s.bury a.actionId .completed with
      phase := .discoverFast
      probe := none }).timed f.metadata.processedAtMs := by
  have ht : s.Tidy := h.identities.tidy
  rw [h.reduce_eq (e := .probeFinished f) hb (by rintro b ⟨⟩)] at hd
  unfold reduceEvent MonitorController.probeFinished at hd
  have hguard : ¬ (a.actionId ≠ f.actionId ∨ s.phase ≠ .probing) := by
    simp [hi, hp]
  simp only [ha, if_neg hguard, hl, reduceCtorEq, if_false, ho,
    ht.appendTombstone_eq a.actionId (l := .completed) rfl, Outcome.ok_bind] at hd
  have hstate := congrArg Decision.state (eq_of_decision hd)
  exact hstate

/-- A step leaves the limits exactly when it overfills the history. -/
theorem Reachable.overfills_iff (h : Reachable s) (hw : WithinLimits s) (hd : reduce s e = .ok d) :
    Overfills s e ↔ ¬ WithinLimits d.state := by
  have hsound := h.sound
  obtain ⟨-, hstep, hto, -⟩ := hsound.reduces hd
  have hafter : Reachable d.state := h.move ⟨hd, rfl⟩
  rw [hafter.withinLimits_iff]
  constructor
  · intro ho
    cases e with
    | probeDispatched f =>
      obtain ⟨hb, hfull, a, ha, hl, hi⟩ := ho
      rintro ⟨hprobe, -⟩
      have hnew : a.key ∉ s.attemptedProbeKeys := h.unattempted.pending a ha hl
      obtain ⟨b, -, -, heq⟩ := hsound.probeDispatched hb ha hl hi hd
      rw [heq, Finset.card_insert_of_notMem hnew] at hprobe
      omega
    | applicationDispatched f =>
      obtain ⟨hb, hfull, a, ha, hl, hi⟩ := ho
      rintro ⟨-, happlication⟩
      have hnew : a.key ∉ s.attemptedApplicationKeys := h.untried.pending a ha hl
      rw [hsound.applicationDispatched hb ha hl hi hd, Finset.card_insert_of_notMem hnew]
        at happlication
      omega
    | _ => cases ho
  · intro hn
    by_contra ho
    apply hn
    have hboot (hne : ∀ b, e ≠ .bootChanged b) (hne' : d ≠ ⟨s, []⟩) :
        e.metadata.bootId = s.bootId := by
      rcases hto with heq | ⟨b, heq⟩ | hb
      · exact absurd heq hne'
      · exact absurd heq (hne b)
      · exact hb
    by_cases hidle : d = ⟨s, []⟩
    · rw [hidle]
      exact ⟨hw.probeKeys, hw.applicationKeys⟩
    cases hstep.remembers with
    | kept hprobe hkeys =>
      exact ⟨(Finset.card_le_card hprobe).trans hw.probeKeys,
        (Finset.card_le_card hkeys).trans hw.applicationKeys⟩
    | probe f a he ha hl hi hprobe hkeys =>
      subst he
      rw [hprobe, hkeys]
      refine ⟨(Finset.card_insert_le _ _).trans ?_, hw.applicationKeys⟩
      by_contra hfull
      exact ho ⟨hboot (by rintro b ⟨⟩) hidle, by omega, a, ha, hl, hi⟩
    | application f a he ha hl hi hprobe hkeys hb =>
      subst he
      rw [hprobe, hkeys]
      refine ⟨hw.probeKeys, (Finset.card_insert_le _ _).trans ?_⟩
      by_contra hfull
      exact ho ⟨hboot (by rintro b ⟨⟩) hidle, by omega, a, ha, hl, hi⟩

theorem Run.withinLimits {ms : List (Runs.Move State Event Decision)} (h : Run ms s)
    (hn : ∀ m ∈ ms, ¬ Overfills m.before m.event) : WithinLimits s := by
  induction h with
  | start hs =>
    obtain ⟨bootId, instanceId, display, session, rfl⟩ := hs
    exact ⟨Nat.zero_le _, Nat.zero_le _, Nat.zero_le _, Nat.zero_le _⟩
  | move h hs ih =>
    obtain ⟨hnew, hold⟩ := List.forall_mem_cons.mp hn
    obtain ⟨hd, rfl⟩ := hs
    have hreach : Reachable _ := h.reachable
    by_contra hafter
    exact hnew ((hreach.overfills_iff (ih hold) hd).mpr hafter)

/-- A run stays within the limits, so that all its states may be persisted, exactly when it
overfills no history. -/
theorem history_within_limits_iff {ms : List (Runs.Move State Event Decision)} (h : Run ms s) :
    (∀ m ∈ ms, ¬ Overfills m.before m.event) ↔
      (WithinLimits s ∧ validateState s = .ok ()) ∧
        ∀ m ∈ ms, WithinLimits m.before ∧ validateState m.before = .ok () := by
  have persists {t : State} (ht : Reachable t) (hw : WithinLimits t) :
      WithinLimits t ∧ validateState t = .ok () := ⟨hw, ht.validates_iff.mpr hw⟩
  induction h with
  | start hs =>
    have hstart : Run [] _ := .start hs
    constructor
    · intro hn
      exact ⟨persists hstart.reachable (Run.withinLimits hstart hn), List.forall_mem_nil _⟩
    · intro _
      exact List.forall_mem_nil _
  | move h hs ih =>
    have hreach : Reachable _ := h.reachable
    have hrun : Run _ _ := h.move hs
    obtain ⟨hd, rfl⟩ := hs
    rw [List.forall_mem_cons, List.forall_mem_cons]
    constructor
    · rintro ⟨hnew, hold⟩
      have hall := ih.mp hold
      have hafter := Run.withinLimits hrun (List.forall_mem_cons.mpr ⟨hnew, hold⟩)
      exact ⟨persists hrun.reachable hafter, hall⟩
    · rintro ⟨⟨hafter, -⟩, hall⟩
      refine ⟨fun ho => ?_, ih.mpr hall⟩
      exact (hreach.overfills_iff hall.1.1 hd).mp ho hafter

theorem history_within_limits_probing :
    WithinLimits Scenario.probeRelaunched.state ∧
      validateState Scenario.probeRelaunched.state = .ok () := by
  refine ((history_within_limits_iff Scenario.probing_run).mp fun m hm => ?_).1
  simp only [List.nil_append, List.mem_cons, List.not_mem_nil, or_false] at hm
  rcases hm with rfl | rfl | rfl
  · rintro ⟨-, hfull, -⟩
    exact absurd hfull (by decide)
  · rintro ⟨-, hfull, -⟩
    exact absurd hfull (by decide)
  · rintro ⟨⟩

end Runs

namespace Scenario

def freshKey (n : Nat) : Text :=
  ⟨String.ofList (List.replicate (n + 1) 'k'), nonempty_of_mem (c := 'k') (by simp) (by decide)⟩

theorem freshKey_inj {m n : Nat} (h : freshKey m = freshKey n) : m = n := by
  have hlength := congrArg (fun t : Text => t.value.toList.length) h
  simpa [freshKey] using hlength

theorem recognised_accepted (key : Text) (generation observedAtMs : Nat) :
    (recognised dock key generation observedAtMs).Accepted := by
  have h : (recognised dock dock 1 0).Accepted := by decide
  exact h

def freshSampled (n : Nat) : ObservationCompleted :=
  sampled (recognised dock (freshKey n) (n + 1) n) (recognised_accepted _ _ _) rfl

/-- A monitor whose evidence changed `n` times since it was docked. -/
structure Docked (n : Nat) (s : State) : Prop where
  reachable : Reachable s
  bootId : s.bootId = boot
  token : s.physicalToken = some ⟨dock⟩
  application : s.application = none
  planning : s.planning = none
  preparation : s.preparation = none
  finalization : s.finalization = none
  observationGeneration : s.observationGeneration ≤ n
  eventGeneration : s.eventGeneration = 0
  latest : ∀ o ∈ s.latestObservation, o.observedAtMs ≤ n
  pending : ∀ a ∈ s.probe, ∃ i < n, a.key.observationKey = ⟨freshKey i⟩
  attempted : ∀ k ∈ s.attemptedProbeKeys, ∃ i < n, k.observationKey = ⟨freshKey i⟩

section Docked

variable {n : Nat} {s : State}

theorem Docked.fresh (h : Docked n s) :
    ⟨s.physicalEpoch, dock, ⟨freshKey n⟩⟩ ∉ s.attemptedProbeKeys := by
  intro hk
  obtain ⟨i, hi, heq⟩ := h.attempted _ hk
  obtain rfl := freshKey_inj (congrArg (fun k : ObservationKey => k.value) heq)
  exact Nat.lt_irrefl _ hi

theorem Docked.recent (h : Docked n s) : ¬ staleObservation s (freshSampled n).observation := by
  rintro ⟨prior, hp, hg | ht | he⟩
  · have hnext : n + 1 ≤ s.observationGeneration := hg
    exact absurd (hnext.trans h.observationGeneration) (Nat.not_succ_le_self n)
  · exact absurd ht (Nat.not_lt.mpr (h.latest prior hp))
  · rw [h.eventGeneration] at he
    exact Nat.not_lt_zero _ he

/-- New evidence admits a probe. -/
theorem Docked.admits (h : Docked n s) (hp : s.phase = .discoverFast) (hnone : s.probe = none)
    (hprep : s.preparationState = .prepareIdle) :
    ∃ s' a, Docked (n + 1) s' ∧ s'.probe = some a ∧ a.lifecycle = .admitted ∧
      s'.preparationState = .prepareIdle ∧ s'.attemptedProbeKeys = s.attemptedProbeKeys := by
  have hs := h.reachable.sound
  have hanswered : ¬ Unanswerable s (.observationCompleted (freshSampled n)) := by
    rintro ⟨-, -, ⟨-, a, ha, -⟩ | ⟨-, -, -, a, ha, -⟩⟩
    · rw [Option.mem_def] at ha
      cases ha.symm.trans h.application
    · cases ha.symm.trans h.preparation
  obtain ⟨d, hd⟩ := (reduce_returns_iff h.reachable _).mpr hanswered
  have hreach : Reachable d.state := h.reachable.move ⟨hd, rfl⟩
  rw [hs.reduce_eq (e := .observationCompleted (freshSampled n)) h.bootId.symm
    (by rintro b ⟨⟩)] at hd
  unfold reduceEvent observe at hd
  have hvalid : (freshSampled n).observation.valid = true := rfl
  have hexternal : (freshSampled n).observation.hasExternalHardware = true := rfl
  have hpower : (freshSampled n).observation.displayPower = .on := rfl
  have htoken : s.physicalToken = some (freshSampled n).observation.physicalToken := h.token
  have hkey : (freshSampled n).observation.observationKey = ⟨freshKey n⟩ := rfl
  have hcandidate : (freshSampled n).observation.probeCandidate =
    some ⟨dock, monitor, panel, dock, by decide⟩ := rfl
  simp only [if_neg h.recent, hvalid, if_true, observeValid, recordObservation, h.application,
    observeUnstopped, State.stoppingMutator, State.mutators, hnone, h.preparation, h.finalization,
    Option.toList, Option.map_none, List.append_nil, List.find?_nil, htoken, ne_eq, not_true,
    if_false, leaveSlowWait, hp, reduceCtorEq, false_and, observeCurrent, hprep, classifyBehind,
    classifyObservation, classificationDepth, observePendingAction, classifyUnpending, hexternal,
    classifySettled, acceptExternal, retainFailure, Bool.false_eq_true, classifyTarget, hcandidate,
    not_false_eq_true, hpower, clearUnknown, admitProbe, hkey, if_neg h.fresh, discardPlanning,
    h.planning, Outcome.ok_bind] at hd
  obtain ⟨d', hd', hok⟩ := Outcome.bind_eq_ok.mp hd
  obtain rfl : d' = d := Except.ok.inj hok
  rw [eq_of_decision hd'] at hreach
  refine ⟨_, _, ⟨hreach, h.bootId, rfl, rfl, rfl, rfl, rfl, ?_, ?_, ?_, ?_, ?_⟩, rfl, rfl, rfl, rfl⟩
  · exact max_le (h.observationGeneration.trans (Nat.le_succ n)) le_rfl
  · exact (congrArg (max · 0) h.eventGeneration).trans rfl
  · rintro o ⟨⟩
    exact Nat.le_succ n
  · rintro a ⟨⟩
    exact ⟨n, Nat.lt_succ_self n, rfl⟩
  · intro k hk
    obtain ⟨i, hi, heq⟩ := h.attempted k hk
    exact ⟨i, hi.trans (Nat.lt_succ_self n), heq⟩

theorem Docked.launches (h : Docked n s) {a : ProbeAction} (ha : s.probe = some a)
    (hl : a.lifecycle = .admitted) :
    ∃ s' b, Docked n s' ∧ s'.phase = .probing ∧ s'.probe = some b ∧ b.lifecycle = .dispatched ∧
      s'.preparationState = s.preparationState ∧
      s'.attemptedProbeKeys.card = s.attemptedProbeKeys.card + 1 := by
  let f : ProbeDispatched :=
    ⟨metadata 0, a.actionId, ⟨a.actionId, dock⟩, a.kind_probe, rfl⟩
  obtain ⟨d, hd⟩ := (reduce_returns_iff h.reachable (.probeDispatched f)).mpr (by rintro ⟨⟩)
  have hreach : Reachable d.state := h.reachable.move ⟨hd, rfl⟩
  have hnew : a.key ∉ s.attemptedProbeKeys := h.reachable.unattempted.pending a ha hl
  obtain ⟨b, hb, hkey, heq⟩ := h.reachable.sound.probeDispatched h.bootId.symm ha hl rfl hd
  rw [heq] at hreach
  have hcurrent := h.pending a ha
  refine ⟨_, b, ⟨hreach, h.bootId, h.token, h.application, h.planning, h.preparation,
    h.finalization, h.observationGeneration, h.eventGeneration, h.latest, ?_, ?_⟩, rfl, rfl, hb, rfl,
    Finset.card_insert_of_notMem hnew⟩
  · rintro c ⟨⟩
    rwa [hkey]
  · intro k hk
    rcases Finset.mem_insert.mp hk with rfl | hk
    · exact hcurrent
    · exact h.attempted k hk

theorem Docked.finishes (h : Docked n s) (hp : s.phase = .probing) {a : ProbeAction}
    (ha : s.probe = some a) (hl : a.lifecycle = .dispatched) :
    ∃ s', Docked n s' ∧ s'.phase = .discoverFast ∧ s'.probe = none ∧
      s'.preparationState = s.preparationState ∧ s'.attemptedProbeKeys = s.attemptedProbeKeys := by
  let f : ProbeFinished := ⟨metadata 0, a.actionId, .succeeded, some 0, a.kind_probe⟩
  obtain ⟨d, hd⟩ := (reduce_returns_iff h.reachable (.probeFinished f)).mpr (by rintro ⟨⟩)
  have hreach : Reachable d.state := h.reachable.move ⟨hd, rfl⟩
  rw [h.reachable.sound.probeFinished h.bootId.symm ha hp hl rfl rfl hd] at hreach
  exact ⟨_, ⟨hreach, h.bootId, h.token, h.application, h.planning, h.preparation, h.finalization,
    h.observationGeneration, h.eventGeneration, h.latest, by rintro c ⟨⟩, h.attempted⟩, rfl, rfl,
    rfl, rfl⟩

end Docked

def dockedPlain : State :=
  (follow fresh [.observationCompleted (sampled (plain dock dock 0 0) (by decide) rfl)]).get rfl

theorem docked_attempts (n : Nat) :
    ∃ s, Docked n s ∧ s.phase = .discoverFast ∧ s.probe = none ∧
      s.preparationState = .prepareIdle ∧ s.attemptedProbeKeys.card = n := by
  induction n with
  | zero =>
    have hreach : Reachable dockedPlain := fresh_reachable.follow (Option.some_get _).symm
    refine ⟨dockedPlain, ⟨hreach, rfl, rfl, rfl, rfl, rfl, rfl, le_rfl, rfl, ?_, ?_, ?_⟩, rfl, rfl,
      rfl, rfl⟩
    · rintro o ⟨⟩
      exact le_rfl
    · rintro a ⟨⟩
    · intro k hk
      exact absurd hk (Finset.notMem_empty k)
  | succ n ih =>
    obtain ⟨s, hs, hp, hnone, hprep, hcard⟩ := ih
    obtain ⟨t, a, ht, ha, hl, htprep, htkeys⟩ := hs.admits hp hnone hprep
    obtain ⟨u, b, hu, hup, hb, hbl, huprep, hucard⟩ := ht.launches ha hl
    obtain ⟨v, hv, hvp, hvnone, hvprep, hvkeys⟩ := hu.finishes hup hb hbl
    refine ⟨v, hv, hvp, hvnone, ?_, ?_⟩
    · rw [hvprep, huprep, htprep]
    · rw [hvkeys, hucard, htkeys, hcard]

end Scenario

/-- Within one topology the attempts outgrow their limit. -/
theorem history_exceeds_limits :
    ¬ ∀ s, Reachable s → s.actionTombstones.length ≤ maxTombstones ∧
      s.attemptedProbeKeys.card ≤ maxAttemptKeys ∧
      s.attemptedApplicationKeys.card ≤ maxAttemptKeys := by
  intro h
  obtain ⟨s, hs, -, -, -, hcard⟩ := Scenario.docked_attempts (maxAttemptKeys + 1)
  obtain ⟨-, hprobe, -⟩ := h s hs.reachable
  exact absurd (hcard.symm.trans_le hprobe) (Nat.not_succ_le_self _)

end MonitorController
