import MonitorController.Recovery.Coherent

/-! # Turns of one worker

A worker which is launched, doubted, ended or reported keeps the state
coherent, unless it leaves another retained worker in the wrong phase.
-/

namespace MonitorController

open Outcome

/-- An admitted preparation rests on the proof which no later hint has superseded. -/
def Awaits (s : State) (p : PreparationAction) : Prop :=
  p.lifecycle = .admitted ∧ p.admittedEventGeneration = s.eventGeneration

namespace Coherent

variable {s : State} (h : Coherent s)
include h

section Slots

theorem probe_free {a : ApplicationAction} (ha : s.application = some a) : s.probe = none := by
  have h1 := h.probe_fits
  have h2 := h.application_fits
  cases hp : s.phase <;>
    simp_all [Fits, expectedProbeLifecycles, expectedApplicationLifecycles]

theorem finalization_free {a : ApplicationAction} (ha : s.application = some a) :
    s.finalization = none := by
  have h1 := h.finalization_fits
  have h2 := h.application_fits
  cases hp : s.phase <;>
    simp_all [Fits, expectedFinalizationLifecycles, expectedApplicationLifecycles]

theorem others_free {a : FinalizationAction} (ha : s.finalization = some a) :
    s.probe = none ∧ s.application = none := by
  have h1 := h.probe_fits
  have h2 := h.application_fits
  have h3 := h.finalization_fits
  constructor <;> cases hp : s.phase <;>
    simp_all [Fits, expectedFinalizationLifecycles, expectedApplicationLifecycles,
      expectedProbeLifecycles]

theorem application_free {a : ProbeAction} (ha : s.probe = some a) : s.application = none := by
  have h1 := h.probe_fits
  have h2 := h.application_fits
  cases hp : s.phase <;>
    simp_all [Fits, expectedProbeLifecycles, expectedApplicationLifecycles]

theorem preparation_free {a : PreparationAction} (ha : s.preparation = some a)
    (hl : a.lifecycle.terminal = false) : s.probe = none ∧ s.finalization = none := by
  constructor
  · by_contra hne
    exact absurd ((h.alone hne).2.2.1.symm.trans ha) (by rintro ⟨⟩)
  · by_contra hne
    obtain ⟨f, hf⟩ := Option.ne_none_iff_exists'.mp hne
    obtain ⟨-, q, hq, hcompleted, -⟩ := h.prepared f hf
    obtain rfl := Option.some.inj (ha.symm.trans (Option.mem_def.mp hq))
    simp [hcompleted, ActionLifecycle.terminal] at hl

theorem admitted_of_pending {a : PreparationAction} (ha : s.preparation = some a)
    (hp : s.preparationState = .preparePending) : a.lifecycle = .admitted := by
  have hfit := h.preparation_fits
  simpa [ha, hp, Fits, expectedPreparation] using hfit

theorem baseline_false {a : PreparationAction} (ha : s.preparation = some a) :
    s.baselineAdoption = false := by
  by_contra hb
  have hidle := (h.baseline (by simpa using hb)).2
  have hfit := h.preparation_fits
  simp [ha, hidle, Fits, expectedPreparation] at hfit

end Slots

/-- A probe's turn. -/
theorem probeTurn {w : ProbeAction} (hw : s.probe = some w) {phase : ControllerPhase}
    {b : Option ProbeAction} {keys : Finset ProbeAttemptKey} {t : Option Nat}
    {ts : List ActionTombstone} {us : List WorkerUnit}
    (he : Entered s (.probe w) (b.map .probe) ts us)
    (hphase : phase = .probing ∨ phase = .probeFailed ∨ phase = .discoverFast)
    (hfits : Fits (b.map (·.lifecycle)) (expectedProbeLifecycles phase))
    (hworker : ∀ c ∈ b, Equipped s.eventGeneration c.toWorkerAction)
    (hattempted : ∀ c ∈ b, c.unit ≠ none → c.key ∈ keys)
    (hwake : phase ≠ .probing → t ≠ none) :
    Coherent { s with
      phase := phase
      probe := b
      attemptedProbeKeys := keys
      nextTimerMs := t
      actionTombstones := ts
      recoveryUnits := us } := by
  have hfree := h.application_free hw
  have halone := h.alone (by simp [hw])
  have hledger : Ledger { s with
      phase := phase
      probe := b
      attemptedProbeKeys := keys
      nextTimerMs := t
      actionTombstones := ts
      recoveryUnits := us } := Ledger.turn
    h.ledger (State.mem_actions_probe hw) rfl rfl rfl (fun _ ht => ht)
    (by intro k hk; cases k <;> first | rfl | exact absurd rfl hk) he
  constructor
  case ledger => exact hledger
  case probe_fits => exact hfits
  case live => rcases hphase with rfl | rfl | rfl <;> simp
  case application_fits =>
    rcases hphase with rfl | rfl | rfl <;> simp [hfree, Fits, expectedApplicationLifecycles]
  case finalization_fits =>
    rcases hphase with rfl | rfl | rfl <;>
      simp [halone.2.2.2, Fits, expectedFinalizationLifecycles]
  case probe_worker => exact hworker
  case wake =>
    rintro o - ⟨-, -, -, hu⟩
    refine hwake ?_
    rintro rfl
    cases hu
  case probe_fresh => rcases hphase with rfl | rfl | rfl <;> simp
  case application_fresh => rcases hphase with rfl | rfl | rfl <;> simp
  case finalization_fresh => rcases hphase with rfl | rfl | rfl <;> simp
  case alone => exact fun _ => halone
  case verified => rcases hphase with rfl | rfl | rfl <;> simp
  case probe_attempted => exact fun c hc _ => hattempted c hc
  case planning_fits => exact h.planning_fits
  case staged => exact h.staged
  case preparation_fits => exact h.preparation_fits
  case planned => exact h.planned
  case baseline => exact h.baseline
  case exclusive => exact h.exclusive
  case application_worker => exact h.application_worker
  case preparation_worker => exact h.preparation_worker
  case finalization_worker => exact h.finalization_worker
  case evidence => exact h.evidence
  case candidate_epoch => exact h.candidate_epoch
  case candidate_scope => exact h.candidate_scope
  case in_scope => exact h.in_scope
  case preparation_fresh => exact h.preparation_fresh
  case prepared => exact h.prepared
  case unfinalized => exact h.unfinalized
  case unplug => exact h.unplug
  case application_attempted => exact h.application_attempted

/-- An application's turn. -/
theorem applicationTurn {w : ApplicationAction} (hw : s.application = some w)
    {phase : ControllerPhase} {b : Option ApplicationAction} {keys : Finset ApplicationAttemptKey}
    {t since : Option Nat} {ts : List ActionTombstone} {us : List WorkerUnit}
    (he : Entered s (.application w) (b.map .application) ts us)
    (hphase : phase = .applying ∨ phase = .applyFailed ∨ phase = .discoverFast)
    (hfits : Fits (b.map (·.lifecycle)) (expectedApplicationLifecycles phase))
    (hworker : ∀ c ∈ b, Equipped s.eventGeneration c.toWorkerAction)
    (hscope : ∀ c ∈ b, c.scope = w.scope)
    (hexclusive : ∀ c ∈ b, ∀ p ∈ s.preparation,
      c.lifecycle.mutatingInFlight = true → p.lifecycle.mutatingInFlight = false)
    (hattempted : ∀ c ∈ b, c.unit ≠ none → c.key ∈ keys)
    (hwake : phase ≠ .applying → t ≠ none)
    (hproof : since = s.verifySinceMs ∨ ∀ p ∈ s.preparation, ¬ Awaits s p) :
    Coherent { s with
      phase := phase
      application := b
      attemptedApplicationKeys := keys
      nextTimerMs := t
      verifySinceMs := since
      actionTombstones := ts
      recoveryUnits := us } := by
  have hprobe := h.probe_free hw
  have hfinal := h.finalization_free hw
  have hledger : Ledger { s with
      phase := phase
      application := b
      attemptedApplicationKeys := keys
      nextTimerMs := t
      verifySinceMs := since
      actionTombstones := ts
      recoveryUnits := us } := Ledger.turn
    h.ledger (State.mem_actions_application hw) rfl rfl rfl
    (fun _ ht => ht) (by intro k hk; cases k <;> first | rfl | exact absurd rfl hk) he
  constructor
  case ledger => exact hledger
  case application_fits => exact hfits
  case live => rcases hphase with rfl | rfl | rfl <;> simp
  case probe_fits =>
    rcases hphase with rfl | rfl | rfl <;> simp [hprobe, Fits, expectedProbeLifecycles]
  case finalization_fits =>
    rcases hphase with rfl | rfl | rfl <;> simp [hfinal, Fits, expectedFinalizationLifecycles]
  case exclusive => exact hexclusive
  case application_worker => exact hworker
  case in_scope =>
    intro o ho hexternal c hc
    rw [hscope c hc]
    exact h.in_scope o ho hexternal w hw
  case wake =>
    rintro o - ⟨-, -, -, hu⟩
    refine hwake ?_
    rintro rfl
    cases hu
  case probe_fresh => rcases hphase with rfl | rfl | rfl <;> simp
  case application_fresh => rcases hphase with rfl | rfl | rfl <;> simp
  case finalization_fresh => rcases hphase with rfl | rfl | rfl <;> simp
  case preparation_fresh =>
    intro p hp hpending hcurrent
    rcases hproof with rfl | hnone
    · exact h.preparation_fresh p hp hpending hcurrent
    · exact absurd ⟨h.admitted_of_pending hp hpending, hcurrent⟩ (hnone p hp)
  case verified => rcases hphase with rfl | rfl | rfl <;> simp
  case application_attempted => exact fun c hc _ => hattempted c hc
  case alone => exact h.alone
  case planning_fits => exact h.planning_fits
  case staged => exact h.staged
  case preparation_fits => exact h.preparation_fits
  case planned => exact h.planned
  case baseline => exact h.baseline
  case probe_worker => exact h.probe_worker
  case preparation_worker => exact h.preparation_worker
  case finalization_worker => exact h.finalization_worker
  case evidence => exact h.evidence
  case candidate_epoch => exact h.candidate_epoch
  case candidate_scope => exact h.candidate_scope
  case prepared => exact h.prepared
  case unfinalized => exact h.unfinalized
  case unplug => exact h.unplug
  case probe_attempted => exact h.probe_attempted

/-- A finalization's turn. The preparation which it rests on has ended. -/
theorem finalizationTurn {w : FinalizationAction} (hw : s.finalization = some w)
    {phase : ControllerPhase} {b : Option FinalizationAction} {t since : Option Nat}
    {ts : List ActionTombstone} {us : List WorkerUnit}
    (he : Entered s (.finalization w) (b.map .finalization) ts us)
    (hphase : phase = .finalizing ∨ phase = .finalizeStopping ∨ phase = .finalizeFailed ∨
      phase = .discoverFast)
    (hfits : Fits (b.map (·.lifecycle)) (expectedFinalizationLifecycles phase))
    (hworker : ∀ c ∈ b, Equipped s.eventGeneration c.toWorkerAction)
    (hsame : ∀ c ∈ b, c.transitionId = w.transitionId ∧ c.transitionKey = w.transitionKey ∧
      c.planHash = w.planHash ∧ c.profile = w.profile)
    (hwake : unresolvedPhase phase = true → t ≠ none) :
    Coherent { s with
      phase := phase
      finalization := b
      nextTimerMs := t
      verifySinceMs := since
      actionTombstones := ts
      recoveryUnits := us } := by
  obtain ⟨hprobe, happlication⟩ := h.others_free hw
  obtain ⟨hready, q, hq, hcompleted, hsource⟩ := h.prepared w hw
  have htransitions : ∀ i ∈ ({ s with finalization := b } : State).transitions,
      i ∈ s.transitions := by
    intro i hi
    simp only [State.transitions, List.mem_append, Option.mem_toList] at hi ⊢
    rcases hi with hi | hi
    · exact .inl hi
    · obtain ⟨c, hc, rfl⟩ := Option.mem_map.mp hi
      rw [(hsame c hc).1, hw]
      exact .inr rfl
  have hledger : Ledger { s with
      phase := phase
      finalization := b
      nextTimerMs := t
      verifySinceMs := since
      actionTombstones := ts
      recoveryUnits := us } := Ledger.turn
    h.ledger (State.mem_actions_finalization hw) rfl rfl rfl htransitions
    (by intro k hk; cases k <;> first | rfl | exact absurd rfl hk) he
  constructor
  case ledger => exact hledger
  case finalization_fits => exact hfits
  case live => rcases hphase with rfl | rfl | rfl | rfl <;> simp
  case probe_fits =>
    rcases hphase with rfl | rfl | rfl | rfl <;> simp [hprobe, Fits, expectedProbeLifecycles]
  case application_fits =>
    rcases hphase with rfl | rfl | rfl | rfl <;>
      simp [happlication, Fits, expectedApplicationLifecycles]
  case finalization_worker => exact hworker
  case wake => exact fun o _ ho => hwake ho.2.2.2
  case probe_fresh => rcases hphase with rfl | rfl | rfl | rfl <;> simp
  case application_fresh => rcases hphase with rfl | rfl | rfl | rfl <;> simp
  case finalization_fresh => rcases hphase with rfl | rfl | rfl | rfl <;> simp
  case preparation_fresh =>
    intro p _ hpending
    exact absurd (hpending.symm.trans hready) (by simp)
  case prepared =>
    intro c hc
    obtain ⟨h1, h2, h3, h4⟩ := hsame c hc
    rw [h1, h2, h3, h4]
    exact ⟨hready, q, hq, hcompleted, hsource⟩
  case alone =>
    intro hne
    exact absurd hprobe hne
  case verified => rcases hphase with rfl | rfl | rfl | rfl <;> simp
  case unfinalized =>
    intro c hc
    rw [(hsame c hc).2.2.2]
    exact h.unfinalized w hw
  case planning_fits => exact h.planning_fits
  case staged => exact h.staged
  case preparation_fits => exact h.preparation_fits
  case planned => exact h.planned
  case baseline => exact h.baseline
  case exclusive => exact h.exclusive
  case probe_worker => exact h.probe_worker
  case application_worker => exact h.application_worker
  case preparation_worker => exact h.preparation_worker
  case evidence => exact h.evidence
  case candidate_epoch => exact h.candidate_epoch
  case candidate_scope => exact h.candidate_scope
  case in_scope => exact h.in_scope
  case unplug => exact h.unplug
  case probe_attempted => exact h.probe_attempted
  case application_attempted => exact h.application_attempted

/-- A preparation's turn. An application which stays retained holds the phase. -/
theorem preparationTurn {w : PreparationAction} (hw : s.preparation = some w)
    (hlive : w.lifecycle.terminal = false) {phase : ControllerPhase}
    (preparationState : PreparationState) {b : Option PreparationAction} {t since : Option Nat}
    {ts : List ActionTombstone} {us : List WorkerUnit}
    (he : Entered s (.preparation w) (b.map .preparation) ts us)
    (hfits : Fits (b.map (·.lifecycle)) (expectedPreparation preparationState))
    (hpending : preparationState ≠ .preparePending)
    (hphase : phase = s.phase ∨ phase = .discoverFast ∧ s.application = none)
    (hworker : ∀ c ∈ b, Equipped s.eventGeneration c.toWorkerAction)
    (hsame : ∀ c ∈ b, c.transitionId = w.transitionId ∧ c.planHash = w.planHash ∧
      c.profile = w.profile)
    (hexclusive : ∀ a ∈ s.application, ∀ c ∈ b,
      a.lifecycle.mutatingInFlight = true → c.lifecycle.mutatingInFlight = false)
    (hproof : since = s.verifySinceMs ∨ since = none)
    (hwake : t = s.nextTimerMs ∧ phase = s.phase ∨ t ≠ none) :
    Coherent { s with
      phase := phase
      preparationState := preparationState
      preparation := b
      nextTimerMs := t
      verifySinceMs := since
      actionTombstones := ts
      recoveryUnits := us } := by
  obtain ⟨hprobe, hfinal⟩ := h.preparation_free hw hlive
  have htransitions : ∀ i ∈ ({ s with preparation := b } : State).transitions,
      i ∈ s.transitions := by
    intro i hi
    simp only [State.transitions, List.mem_append, Option.mem_toList] at hi ⊢
    rcases hi with (hi | hi) | hi
    · exact .inl (.inl hi)
    · obtain ⟨c, hc, rfl⟩ := Option.mem_map.mp hi
      rw [(hsame c hc).1, hw]
      exact .inl (.inr rfl)
    · exact .inr hi
  have hledger : Ledger { s with
      phase := phase
      preparationState := preparationState
      preparation := b
      nextTimerMs := t
      verifySinceMs := since
      actionTombstones := ts
      recoveryUnits := us } := Ledger.turn
    h.ledger (State.mem_actions_preparation hw) rfl rfl rfl htransitions
    (by intro k hk; cases k <;> first | rfl | exact absurd rfl hk) he
  constructor
  case ledger => exact hledger
  case preparation_fits => exact hfits
  case live =>
    rcases hphase with rfl | ⟨rfl, -⟩
    · exact h.live
    · simp
  case probe_fits =>
    rcases hphase with rfl | ⟨rfl, -⟩
    · exact h.probe_fits
    · simp [hprobe, Fits, expectedProbeLifecycles]
  case application_fits =>
    rcases hphase with rfl | ⟨rfl, hnone⟩
    · exact h.application_fits
    · simp [hnone, Fits, expectedApplicationLifecycles]
  case finalization_fits =>
    rcases hphase with rfl | ⟨rfl, -⟩
    · exact h.finalization_fits
    · simp [hfinal, Fits, expectedFinalizationLifecycles]
  case planned =>
    intro c hc
    obtain ⟨h1, h2, h3⟩ := hsame c hc
    rw [h1, h2, h3]
    exact h.planned w hw
  case baseline =>
    intro hb
    exact absurd (hb.symm.trans (h.baseline_false hw)) (by simp)
  case exclusive => exact hexclusive
  case preparation_worker => exact hworker
  case wake =>
    intro o ho hopen
    rcases hwake with ⟨rfl, rfl⟩ | hset
    · exact h.wake o ho hopen
    · exact hset
  case probe_fresh =>
    intro a ha
    exact absurd (hprobe.symm.trans ha) (by simp)
  case application_fresh =>
    rcases hphase with rfl | ⟨rfl, -⟩
    · exact h.application_fresh
    · simp
  case preparation_fresh => exact fun _ _ hp => absurd hp hpending
  case finalization_fresh =>
    intro a ha
    exact absurd (hfinal.symm.trans ha) (by simp)
  case prepared =>
    intro a ha
    exact absurd (hfinal.symm.trans ha) (by simp)
  case alone =>
    intro hne
    exact absurd hprobe hne
  case verified =>
    rcases hphase with rfl | ⟨rfl, -⟩
    · intro hp hsince
      rcases hproof with rfl | rfl
      · exact h.verified hp hsince
      · exact absurd rfl hsince
    · simp
  case planning_fits => exact h.planning_fits
  case staged => exact h.staged
  case probe_worker => exact h.probe_worker
  case application_worker => exact h.application_worker
  case finalization_worker => exact h.finalization_worker
  case evidence => exact h.evidence
  case candidate_epoch => exact h.candidate_epoch
  case candidate_scope => exact h.candidate_scope
  case in_scope => exact h.in_scope
  case unfinalized => exact h.unfinalized
  case unplug => exact h.unplug
  case probe_attempted => exact h.probe_attempted
  case application_attempted => exact h.application_attempted

end Coherent

end MonitorController
