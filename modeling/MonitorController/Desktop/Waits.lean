import Mathlib.Algebra.Order.Group.Int
import MonitorController.Desktop.Panel
import MonitorController.Foundation.Stability

/-! # Stability waits

The finalizer waits for the panel, for the system tray and for the item of the
network applet. Each wait samples until the state is the same for long enough,
or until its deadline.
-/

namespace MonitorController

open Stability

section States

deriving instance DecidableEq for PanelHealth

/-- Both signals without which no applet may dock. -/
structure TrayState where
  selectionOwner : Option Nat
  wrapperPids : List Nat
  deriving DecidableEq

def TrayState.ready (state : TrayState) : Bool :=
  state.selectionOwner.isSome && !state.wrapperPids.isEmpty

/-- The ready state and the count of its unchanged comparisons. -/
structure StableTray where
  state : TrayState
  stableSamples : Nat
  deriving DecidableEq

structure StatusNotifierState where
  watcherPid : Option Int
  nmAppletRegistered : Bool
  wrapperPids : List Int
  deriving DecidableEq

def StatusNotifierState.current (state : StatusNotifierState) : Bool :=
  state.nmAppletRegistered && state.watcherPid.any fun pid => pid ∈ state.wrapperPids

/-- What a wait raises. -/
inductive WaitFault where
  | valueError (message : String)
  | panelReadiness (message : String) (latest : PanelHealth)
  | trayReadiness (message : String)
  deriving DecidableEq

def notSampled : PanelHealth := ⟨false, "panel was not sampled", [], none, ""⟩

def panelTimedOut (latest : PanelHealth) : WaitFault :=
  .panelReadiness ("panel readiness timed out: " ++ latest.reason) latest

/-- `hex(n)`. -/
def hexText (n : Nat) : String := "0x" ++ String.ofList (Nat.toDigits 16 n)

def trayTimedOut (latest : TrayState) : WaitFault :=
  let owner := (latest.selectionOwner.map hexText).getD "none"
  let joined := ",".intercalate (latest.wrapperPids.map toString)
  .trayReadiness ("system tray did not stabilize: owner=" ++ owner ++ " wrappers=" ++
    if joined = "" then "none" else joined)

end States

section Waits

variable {τ : Type} [LinearOrder τ] [Add τ] [Zero τ] (monotonic : Nat → τ)
  (timeoutSeconds intervalSeconds : τ) (requiredStableSamples : Int)

/-- Whether the reading of the clock at the loop's own number is before the deadline, which was
taken from the first reading. -/
def beforeDeadline (i : Nat) : Bool := monotonic (i + 1) < monotonic 0 + timeoutSeconds

def waitParameters (subject : String) : Except WaitFault Unit :=
  if timeoutSeconds ≤ 0 ∨ intervalSeconds ≤ 0 then
    .error (.valueError (subject ++ " wait timeout and interval must be positive"))
  else if requiredStableSamples ≤ 0 then
    .error (.valueError (subject ++ " wait stable-sample count must be positive"))
  else .ok ()

/-- `wait_for_panel_health`, for as many rounds as there is fuel: a fresh verdict counts for one. -/
def waitForPanelHealth (sample : Nat → PanelHealth) (fuel : Nat) :
    Option (Except WaitFault PanelHealth) :=
  match waitParameters timeoutSeconds intervalSeconds requiredStableSamples "panel" with
  | .error fault => some (.error fault)
  | .ok () =>
    (watchUntil (·.healthy) 1 requiredStableSamples.toNat sample
      (beforeDeadline monotonic timeoutSeconds) fuel 0 none .start).map fun
        | .ok (latest, _) => .ok latest
        | .error latest => .error (panelTimedOut (latest.getD notSampled))

/-- `wait_for_stable_tray`: a fresh state counts for nothing. -/
def waitForStableTray (sample : Nat → TrayState) (fuel : Nat) :
    Option (Except WaitFault StableTray) :=
  match waitParameters timeoutSeconds intervalSeconds requiredStableSamples "tray" with
  | .error fault => some (.error fault)
  | .ok () =>
    (watchUntil (·.ready) 0 requiredStableSamples.toNat sample
      (beforeDeadline monotonic timeoutSeconds) fuel 0 none .start).map fun
        | .ok (latest, stable) => .ok ⟨latest, stable⟩
        | .error latest => .error (trayTimedOut (latest.getD ⟨none, []⟩))

/-- `wait_for_status_notifier_item`: the clock is read after each sample. -/
def waitForStatusNotifierItem (sample : Nat → StatusNotifierState) (fuel : Nat) :
    Option (Except WaitFault StatusNotifierState) :=
  match waitParameters timeoutSeconds intervalSeconds requiredStableSamples "StatusNotifier" with
  | .error fault => some (.error fault)
  | .ok () =>
    (watchLatest (·.current) 0 requiredStableSamples.toNat sample
      (beforeDeadline monotonic timeoutSeconds) fuel 0 .start).map .ok

end Waits

section Exact

variable {τ : Type} [LinearOrder τ] [Add τ] [Zero τ] {monotonic : Nat → τ}
  {timeoutSeconds intervalSeconds : τ} {requiredStableSamples : Int}

/-- The deadline is first found to be over at a round. -/
def TimeUp (monotonic : Nat → τ) (timeoutSeconds : τ) (k : Nat) : Prop :=
  monotonic 0 + timeoutSeconds ≤ monotonic (k + 1) ∧
    ∀ j < k, monotonic (j + 1) < monotonic 0 + timeoutSeconds

omit [Zero τ] in
theorem timeUp_iff {k : Nat} : TimeUp monotonic timeoutSeconds k ↔
    beforeDeadline monotonic timeoutSeconds k = false ∧
      ∀ j < k, beforeDeadline monotonic timeoutSeconds j = true := by
  simp only [TimeUp, beforeDeadline, decide_eq_false_iff_not, not_lt, decide_eq_true_iff]

omit [Add τ] in
theorem waitParameters_ok (htimeout : 0 < timeoutSeconds) (hinterval : 0 < intervalSeconds)
    (hrequired : 0 < requiredStableSamples) (subject : String) :
    waitParameters timeoutSeconds intervalSeconds requiredStableSamples subject = .ok () := by
  rw [waitParameters, if_neg (by simp [htimeout, hinterval]), if_neg (by omega)]

/-- A wait which maps the end of a watch ends with a result exactly if the watch ends with
something that is mapped to it. -/
theorem exists_fuel_map {β γ : Type} {loop : Nat → Option β} {f : β → γ} {r : γ} :
    (∃ fuel, (loop fuel).map f = some r) ↔ ∃ b, (∃ fuel, loop fuel = some b) ∧ f b = r := by
  constructor
  · rintro ⟨fuel, h⟩
    obtain ⟨b, hb, rfl⟩ := Option.map_eq_some_iff.mp h
    exact ⟨b, ⟨fuel, hb⟩, rfl⟩
  · rintro ⟨b, ⟨fuel, hb⟩, rfl⟩
    exact ⟨fuel, by rw [hb]; rfl⟩

theorem waitForPanelHealth_ok_iff (htimeout : 0 < timeoutSeconds) (hinterval : 0 < intervalSeconds)
    (hrequired : 0 < requiredStableSamples) {sample : Nat → PanelHealth} {health : PanelHealth} :
    (∃ fuel, waitForPanelHealth monotonic timeoutSeconds intervalSeconds requiredStableSamples
      sample fuel = some (.ok health)) ↔
    ∃ k, FirstRun (·.healthy) sample requiredStableSamples.toNat k health ∧
      ∀ j ≤ k, monotonic (j + 1) < monotonic 0 + timeoutSeconds := by
  have hpos : 0 < requiredStableSamples.toNat := by omega
  have hwatch := fun n => @watchUntil_ok_iff _ _ (·.healthy) 1 requiredStableSamples.toNat sample
    (beforeDeadline monotonic timeoutSeconds) health (Nat.le_refl 1) hpos n
  simp only [waitForPanelHealth, waitParameters_ok htimeout hinterval hrequired, exists_fuel_map]
  constructor
  · rintro ⟨⟨latest⟩ | ⟨latest, n⟩, hloop, hresult⟩
    · cases hresult
    · cases hresult
      obtain ⟨k, hrun, htime, -⟩ := (hwatch n).mp hloop
      exact ⟨k, hrun, fun j hj => of_decide_eq_true (htime j hj)⟩
  · rintro ⟨k, hrun, htime⟩
    exact ⟨.ok (health, _), (hwatch _).mpr ⟨k, hrun, fun j hj => decide_eq_true (htime j hj), rfl⟩, rfl⟩

theorem waitForPanelHealth_error_iff (htimeout : 0 < timeoutSeconds)
    (hinterval : 0 < intervalSeconds) (hrequired : 0 < requiredStableSamples)
    {sample : Nat → PanelHealth} {fault : WaitFault} :
    (∃ fuel, waitForPanelHealth monotonic timeoutSeconds intervalSeconds requiredStableSamples
      sample fuel = some (.error fault)) ↔
    ∃ k, TimeUp monotonic timeoutSeconds k ∧
      (∀ j < k, ∀ other, ¬ IsRun (·.healthy) sample requiredStableSamples.toNat j other) ∧
      fault = panelTimedOut ((latestBefore sample k).getD notSampled) := by
  have hpos : 0 < requiredStableSamples.toNat := by omega
  have hwatch := fun latest => @watchUntil_error_iff _ _ (·.healthy) 1 requiredStableSamples.toNat
    sample (beforeDeadline monotonic timeoutSeconds) (Nat.le_refl 1) hpos latest
  simp only [waitForPanelHealth, waitParameters_ok htimeout hinterval hrequired, exists_fuel_map,
    timeUp_iff]
  constructor
  · rintro ⟨⟨latest⟩ | ⟨latest, n⟩, hloop, hresult⟩
    · obtain ⟨k, hout, htime, hnone, rfl⟩ := (hwatch latest).mp hloop
      exact ⟨k, ⟨hout, htime⟩, hnone, (Except.error.inj hresult).symm⟩
    · cases hresult
  · rintro ⟨k, ⟨hout, htime⟩, hnone, rfl⟩
    exact ⟨.error _, (hwatch _).mpr ⟨k, hout, htime, hnone, rfl⟩, rfl⟩

theorem waitForStableTray_ok_iff (htimeout : 0 < timeoutSeconds) (hinterval : 0 < intervalSeconds)
    (hrequired : 0 < requiredStableSamples) {sample : Nat → TrayState} {stable : StableTray} :
    (∃ fuel, waitForStableTray monotonic timeoutSeconds intervalSeconds requiredStableSamples
      sample fuel = some (.ok stable)) ↔
    ∃ k, FirstRun (·.ready) sample (requiredStableSamples.toNat + 1) k stable.state ∧
      stable.stableSamples = requiredStableSamples.toNat ∧
      ∀ j ≤ k, monotonic (j + 1) < monotonic 0 + timeoutSeconds := by
  have hpos : 0 < requiredStableSamples.toNat := by omega
  have hwatch := fun n => @watchUntil_ok_iff _ _ (·.ready) 0 requiredStableSamples.toNat sample
    (beforeDeadline monotonic timeoutSeconds) stable.state (Nat.zero_le 1) hpos n
  have hcount : ∀ k, FirstRun (·.ready) sample (requiredStableSamples.toNat + 1) k stable.state →
      countAt (·.ready) 0 sample k = requiredStableSamples.toNat := by
    intro k hrun
    obtain ⟨hdone, hfirst, -⟩ := (firstRun_iff (Nat.zero_le 1) hpos).mp hrun
    exact countAt_of_first hpos hdone hfirst
  simp only [waitForStableTray, waitParameters_ok htimeout hinterval hrequired, exists_fuel_map]
  constructor
  · rintro ⟨⟨latest⟩ | ⟨latest, n⟩, hloop, hresult⟩
    · cases hresult
    · cases hresult
      obtain ⟨k, hrun, htime, hn⟩ := (hwatch n).mp hloop
      exact ⟨k, hrun, hn.trans (hcount k hrun), fun j hj => of_decide_eq_true (htime j hj)⟩
  · rintro ⟨k, hrun, hn, htime⟩
    exact ⟨.ok (stable.state, stable.stableSamples), (hwatch _).mpr
      ⟨k, hrun, fun j hj => decide_eq_true (htime j hj), hn.trans (hcount k hrun).symm⟩, rfl⟩

theorem waitForStableTray_error_iff (htimeout : 0 < timeoutSeconds)
    (hinterval : 0 < intervalSeconds) (hrequired : 0 < requiredStableSamples)
    {sample : Nat → TrayState} {fault : WaitFault} :
    (∃ fuel, waitForStableTray monotonic timeoutSeconds intervalSeconds requiredStableSamples
      sample fuel = some (.error fault)) ↔
    ∃ k, TimeUp monotonic timeoutSeconds k ∧
      (∀ j < k, ∀ other, ¬ IsRun (·.ready) sample (requiredStableSamples.toNat + 1) j other) ∧
      fault = trayTimedOut ((latestBefore sample k).getD ⟨none, []⟩) := by
  have hpos : 0 < requiredStableSamples.toNat := by omega
  have hwatch := fun latest => @watchUntil_error_iff _ _ (·.ready) 0 requiredStableSamples.toNat
    sample (beforeDeadline monotonic timeoutSeconds) (Nat.zero_le 1) hpos latest
  simp only [waitForStableTray, waitParameters_ok htimeout hinterval hrequired, exists_fuel_map,
    timeUp_iff]
  constructor
  · rintro ⟨⟨latest⟩ | ⟨latest, n⟩, hloop, hresult⟩
    · obtain ⟨k, hout, htime, hnone, rfl⟩ := (hwatch latest).mp hloop
      exact ⟨k, ⟨hout, htime⟩, hnone, (Except.error.inj hresult).symm⟩
    · cases hresult
  · rintro ⟨k, ⟨hout, htime⟩, hnone, rfl⟩
    exact ⟨.error _, (hwatch _).mpr ⟨k, hout, htime, hnone, rfl⟩, rfl⟩

/-- The last wait never raises. -/
theorem waitForStatusNotifierItem_iff (htimeout : 0 < timeoutSeconds)
    (hinterval : 0 < intervalSeconds) (hrequired : 0 < requiredStableSamples)
    {sample : Nat → StatusNotifierState} {result : Except WaitFault StatusNotifierState} :
    (∃ fuel, waitForStatusNotifierItem monotonic timeoutSeconds intervalSeconds
      requiredStableSamples sample fuel = some result) ↔
    ∃ state, result = .ok state ∧
      ((∃ k, FirstRun (·.current) sample (requiredStableSamples.toNat + 1) k state ∧
          ∀ j < k, monotonic (j + 1) < monotonic 0 + timeoutSeconds) ∨
        ∃ k, TimeUp monotonic timeoutSeconds k ∧
          (∀ j ≤ k, ∀ other,
            ¬ IsRun (·.current) sample (requiredStableSamples.toNat + 1) j other) ∧
          state = sample k) := by
  have hpos : 0 < requiredStableSamples.toNat := by omega
  have hwatch := fun state => @watchLatest_iff _ _ (·.current) 0 requiredStableSamples.toNat sample
    (beforeDeadline monotonic timeoutSeconds) state (Nat.zero_le 1) hpos
  simp only [waitForStatusNotifierItem, waitParameters_ok htimeout hinterval hrequired,
    exists_fuel_map, hwatch, timeUp_iff, and_assoc, beforeDeadline, decide_eq_true_iff]
  constructor
  · rintro ⟨state, hends, rfl⟩
    exact ⟨state, rfl, hends⟩
  · rintro ⟨state, rfl, hends⟩
    exact ⟨state, hends, rfl⟩

/-- Each wait ends with its value exactly at the end of the first run of it, which the panel wants
as long as the required count and the two others longer by one sample. Without such a run in time
the first two waits raise, and the last one gives the latest sample. -/
theorem waits_exact (htimeout : 0 < timeoutSeconds) (hinterval : 0 < intervalSeconds)
    (hrequired : 0 < requiredStableSamples) :
    (∀ (sample : Nat → PanelHealth) (result : Except WaitFault PanelHealth),
      (∃ fuel, waitForPanelHealth monotonic timeoutSeconds intervalSeconds requiredStableSamples
        sample fuel = some result) ↔
      (∃ k health, FirstRun (·.healthy) sample requiredStableSamples.toNat k health ∧
        (∀ j ≤ k, monotonic (j + 1) < monotonic 0 + timeoutSeconds) ∧ result = .ok health) ∨
      ∃ k, TimeUp monotonic timeoutSeconds k ∧
        (∀ j < k, ∀ other, ¬ IsRun (·.healthy) sample requiredStableSamples.toNat j other) ∧
        result = .error (panelTimedOut ((latestBefore sample k).getD notSampled))) ∧
    (∀ (sample : Nat → TrayState) (result : Except WaitFault StableTray),
      (∃ fuel, waitForStableTray monotonic timeoutSeconds intervalSeconds requiredStableSamples
        sample fuel = some result) ↔
      (∃ k state, FirstRun (·.ready) sample (requiredStableSamples.toNat + 1) k state ∧
        (∀ j ≤ k, monotonic (j + 1) < monotonic 0 + timeoutSeconds) ∧
        result = .ok ⟨state, requiredStableSamples.toNat⟩) ∨
      ∃ k, TimeUp monotonic timeoutSeconds k ∧
        (∀ j < k, ∀ other, ¬ IsRun (·.ready) sample (requiredStableSamples.toNat + 1) j other) ∧
        result = .error (trayTimedOut ((latestBefore sample k).getD ⟨none, []⟩))) ∧
    ∀ (sample : Nat → StatusNotifierState) (result : Except WaitFault StatusNotifierState),
      (∃ fuel, waitForStatusNotifierItem monotonic timeoutSeconds intervalSeconds
        requiredStableSamples sample fuel = some result) ↔
      (∃ k state, FirstRun (·.current) sample (requiredStableSamples.toNat + 1) k state ∧
        (∀ j < k, monotonic (j + 1) < monotonic 0 + timeoutSeconds) ∧ result = .ok state) ∨
      ∃ k, TimeUp monotonic timeoutSeconds k ∧
        (∀ j ≤ k, ∀ other,
          ¬ IsRun (·.current) sample (requiredStableSamples.toNat + 1) j other) ∧
        result = .ok (sample k) := by
  refine ⟨fun sample result => ?_, fun sample result => ?_, fun sample result => ?_⟩
  · cases result with
    | ok health =>
      rw [waitForPanelHealth_ok_iff htimeout hinterval hrequired]
      constructor
      · rintro ⟨k, hrun, htime⟩
        exact .inl ⟨k, health, hrun, htime, rfl⟩
      · rintro (⟨k, other, hrun, htime, hresult⟩ | ⟨k, -, -, hresult⟩)
        · cases hresult
          exact ⟨k, hrun, htime⟩
        · cases hresult
    | error fault =>
      rw [waitForPanelHealth_error_iff htimeout hinterval hrequired]
      constructor
      · rintro ⟨k, hup, hnone, rfl⟩
        exact .inr ⟨k, hup, hnone, rfl⟩
      · rintro (⟨k, other, -, -, hresult⟩ | ⟨k, hup, hnone, hresult⟩)
        · cases hresult
        · exact ⟨k, hup, hnone, Except.error.inj hresult⟩
  · cases result with
    | ok stable =>
      rw [waitForStableTray_ok_iff htimeout hinterval hrequired]
      constructor
      · rintro ⟨k, hrun, hcount, htime⟩
        exact .inl ⟨k, stable.state, hrun, htime, by rw [← hcount]⟩
      · rintro (⟨k, state, hrun, htime, hresult⟩ | ⟨k, -, -, hresult⟩)
        · cases hresult
          exact ⟨k, hrun, rfl, htime⟩
        · cases hresult
    | error fault =>
      rw [waitForStableTray_error_iff htimeout hinterval hrequired]
      constructor
      · rintro ⟨k, hup, hnone, rfl⟩
        exact .inr ⟨k, hup, hnone, rfl⟩
      · rintro (⟨k, state, -, -, hresult⟩ | ⟨k, hup, hnone, hresult⟩)
        · cases hresult
        · exact ⟨k, hup, hnone, Except.error.inj hresult⟩
  · rw [waitForStatusNotifierItem_iff htimeout hinterval hrequired]
    constructor
    · rintro ⟨state, rfl, ⟨k, hrun, htime⟩ | ⟨k, hup, hnone, rfl⟩⟩
      · exact .inl ⟨k, state, hrun, htime, rfl⟩
      · exact .inr ⟨k, hup, hnone, rfl⟩
    · rintro (⟨k, state, hrun, htime, rfl⟩ | ⟨k, hup, hnone, rfl⟩)
      · exact ⟨state, rfl, .inl ⟨k, hrun, htime⟩⟩
      · exact ⟨sample k, rfl, .inr ⟨k, hup, hnone, rfl⟩⟩

/-- With a clock that counts its readings, two samples of an item that is there are enough. -/
theorem waits_exact_item :
    ∃ fuel, waitForStatusNotifierItem (fun i => (i : Int)) 5 1 1
      (fun i => if i = 0 then ⟨none, false, []⟩ else ⟨some 7, true, [7]⟩) fuel =
        some (.ok ⟨some 7, true, [7]⟩) := by
  have hexact := @waits_exact Int _ _ _ (fun i => (i : Int)) 5 1 1 (by decide) (by decide)
    (by decide)
  apply (hexact.2.2 _ _).mpr
  refine .inl ⟨2, _, ⟨⟨by decide, by decide, fun i hi => ?_⟩, fun j hj other hrun => ?_⟩,
    by decide, rfl⟩
  · obtain rfl | rfl : i = 0 ∨ i = 1 := by
      have hlt : i < 2 := hi
      omega
    · rfl
    · rfl
  · have hfirst := hrun.2.2 0 (by decide)
    have hsecond := hrun.2.2 1 (by decide)
    have hgood := hrun.2.1
    have hlong := hrun.1
    obtain rfl | rfl : j = 0 ∨ j = 1 := by omega
    · exact absurd hlong (by decide)
    · rw [← hsecond] at hgood
      exact absurd hgood (by decide)

end Exact

end MonitorController
