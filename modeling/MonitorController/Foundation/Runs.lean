import Mathlib.Data.List.Pairwise

/-! # Runs of a labelled system

A system is given by its initial states and its labelled steps. Runs carry
their whole history, so that a property of the past is an invariant of runs.
-/

namespace Runs

variable {σ ε δ : Type*}

/-- One step of a run, with the states around it. -/
structure Move (σ ε δ : Type*) where
  before : σ
  event : ε
  output : δ
  after : σ

/-- A finite run, its moves listed from the newest to the oldest. -/
inductive Run (init : σ → Prop) (step : σ → ε → δ → σ → Prop) : List (Move σ ε δ) → σ → Prop
  | start {s} (h : init s) : Run init step [] s
  | move {ms s e d s'} (h : Run init step ms s) (hs : step s e d s') :
    Run init step (⟨s, e, d, s'⟩ :: ms) s'

variable {init : σ → Prop} {step : σ → ε → δ → σ → Prop}

/-- Some run ends in the state. -/
def Reachable (init : σ → Prop) (step : σ → ε → δ → σ → Prop) (s : σ) : Prop :=
  ∃ ms, Run init step ms s

theorem Run.history {P : List (Move σ ε δ) → σ → Prop} (start : ∀ s, init s → P [] s)
    (move : ∀ ms s e d s', Run init step ms s → P ms s → step s e d s' →
      P (⟨s, e, d, s'⟩ :: ms) s') {ms : List (Move σ ε δ)} {s : σ} (h : Run init step ms s) :
    P ms s := by
  induction h with
  | start h => exact start _ h
  | move h hs ih => exact move _ _ _ _ _ h ih hs

theorem Run.reachable {ms : List (Move σ ε δ)} {s : σ} (h : Run init step ms s) :
    Reachable init step s := ⟨ms, h⟩

theorem Reachable.start {s : σ} (h : init s) : Reachable init step s := ⟨[], .start h⟩

theorem Reachable.move {s s' : σ} {e : ε} {d : δ} (h : Reachable init step s)
    (hs : step s e d s') : Reachable init step s' := by
  obtain ⟨ms, h⟩ := h
  exact ⟨_, .move h hs⟩

theorem Reachable.invariant {P : σ → Prop} (start : ∀ s, init s → P s)
    (move : ∀ s e d s', Reachable init step s → P s → step s e d s' → P s') {s : σ}
    (h : Reachable init step s) : P s := by
  obtain ⟨ms, h⟩ := h
  exact h.history start fun ms s e d s' hr => move s e d s' hr.reachable

theorem Run.older {newer older : List (Move σ ε δ)} {m : Move σ ε δ} {s : σ}
    (h : Run init step (newer ++ m :: older) s) :
    Run init step older m.before ∧ step m.before m.event m.output m.after := by
  induction newer generalizing s with
  | nil =>
    cases h with
    | move h hs => exact ⟨h, hs⟩
  | cons n newer ih =>
    cases h with
    | move h hs => exact ih h

/-- Of two moves of a run, one is older than the other unless they are the same. -/
theorem mem_order {l : List (Move σ ε δ)} {m n : Move σ ε δ} (hm : m ∈ l) (hn : n ∈ l) :
    m = n ∨ (∃ newer older, l = newer ++ m :: older ∧ n ∈ older) ∨
      ∃ newer older, l = newer ++ n :: older ∧ m ∈ older := by
  induction l with
  | nil => cases hm
  | cons k l ih =>
    rcases List.mem_cons.mp hm with hmk | hml
    · rcases List.mem_cons.mp hn with hnk | hnl
      · exact .inl (hmk.trans hnk.symm)
      · exact .inr (.inl ⟨[], l, hmk ▸ rfl, hnl⟩)
    · rcases List.mem_cons.mp hn with hnk | hnl
      · exact .inr (.inr ⟨[], l, hnk ▸ rfl, hml⟩)
      · rcases ih hml hnl with heq | ⟨newer, older, rfl, h⟩ | ⟨newer, older, rfl, h⟩
        · exact .inl heq
        · exact .inr (.inl ⟨k :: newer, older, rfl, h⟩)
        · exact .inr (.inr ⟨k :: newer, older, rfl, h⟩)

theorem Run.since {P : σ → Prop} {newer older : List (Move σ ε δ)} {m : Move σ ε δ} {s : σ}
    (h : Run init step (newer ++ m :: older) s) (start : P m.after)
    (move : ∀ s e d s', Reachable init step s → P s → step s e d s' → P s') : P s := by
  induction newer generalizing s with
  | nil =>
    cases h with
    | move h hs => exact start
  | cons n newer ih =>
    cases h with
    | move h hs => exact move _ _ _ _ h.reachable (ih h) hs

end Runs
