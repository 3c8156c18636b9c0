import Mathlib.Tactic.Basic

/-! # Outcomes of partial computations

A computation that may fail is an `Except`. `Returns` is total correctness and
`Ensures` partial correctness; both are closed under sequencing, so that a
function is specified once and its callers cite the specification.
-/

namespace Outcome

universe u v

variable {ε : Type u} {α β : Type v}

/-- The computation returns a value satisfying the postcondition. -/
def Returns (x : Except ε α) (P : α → Prop) : Prop :=
  ∃ a, x = .ok a ∧ P a

/-- Whenever the computation returns, the value satisfies the postcondition. -/
def Ensures (x : Except ε α) (P : α → Prop) : Prop :=
  ∀ a, x = .ok a → P a

theorem Returns.of_ok {a : α} {P : α → Prop} (h : P a) : Returns (ε := ε) (.ok a) P :=
  ⟨a, rfl, h⟩

theorem Returns.mono {x : Except ε α} {P Q : α → Prop} (h : Returns x P)
    (hpq : ∀ a, P a → Q a) : Returns x Q := by
  obtain ⟨a, hx, ha⟩ := h
  exact ⟨a, hx, hpq a ha⟩

theorem Returns.bind {x : Except ε α} {f : α → Except ε β} {P : α → Prop} {Q : β → Prop}
    (h : Returns x P) (hf : ∀ a, P a → Returns (f a) Q) : Returns (x >>= f) Q := by
  obtain ⟨a, rfl, ha⟩ := h
  exact hf a ha

theorem Ensures.mono {x : Except ε α} {P Q : α → Prop} (h : Ensures x P)
    (hpq : ∀ a, P a → Q a) : Ensures x Q :=
  fun a ha => hpq a (h a ha)

theorem bind_eq_ok {x : Except ε α} {f : α → Except ε β} {b : β} :
    x >>= f = .ok b ↔ ∃ a, x = .ok a ∧ f a = .ok b := by
  cases x with
  | error e => simp [Bind.bind, Except.bind]
  | ok a => simp [Bind.bind, Except.bind]

theorem eq_ok_of_toOption {x : Except ε α} {γ : Type*} {f : α → γ} {c : γ}
    (h : x.toOption.map f = some c) : ∃ a, x = .ok a ∧ f a = c := by
  cases x with
  | error e => cases h
  | ok a => exact ⟨a, rfl, Option.some.inj h⟩

def failure : Except ε α → Option ε
  | .error e => some e
  | .ok _ => none

theorem eq_error_of_failure {x : Except ε α} {e : ε} (h : failure x = some e) : x = .error e := by
  cases x with
  | error e' => exact congrArg Except.error (Option.some.inj h)
  | ok a => cases h

theorem Ensures.bind {x : Except ε α} {f : α → Except ε β} {P : α → Prop} {Q : β → Prop}
    (h : Ensures x P) (hf : ∀ a, P a → Ensures (f a) Q) : Ensures (x >>= f) Q := by
  intro b hb
  obtain ⟨a, hx, hfa⟩ := bind_eq_ok.mp hb
  exact hf a (h a hx) b hfa

theorem Ensures.foldlM {γ : Type u} {f : β → γ → Except ε β} {P : β → Prop} {l : List γ}
    (h : ∀ b, P b → ∀ c ∈ l, Ensures (f b c) P) {b : β} (hb : P b) :
    Ensures (l.foldlM f b) P := by
  induction l generalizing b with
  | nil =>
    rintro _ ⟨⟩
    exact hb
  | cons c l ih =>
    rw [List.foldlM_cons]
    refine (h b hb c List.mem_cons_self).bind fun a ha => ?_
    exact ih (fun x hx d hd => h x hx d (List.mem_cons_of_mem _ hd)) ha

@[simp] theorem ok_bind (a : α) (f : α → Except ε β) : ((.ok a : Except ε α) >>= f) = f a := rfl

@[simp] theorem error_bind (e : ε) (f : α → Except ε β) :
    ((.error e : Except ε α) >>= f) = .error e := rfl

/-- The computation fails with no error of a kind. -/
def Avoids (x : Except ε α) (F : ε → Prop) : Prop :=
  ∀ e, x = .error e → ¬ F e

section Avoids

variable {F : ε → Prop}

@[simp] theorem avoids_ok {a : α} : Avoids (.ok a : Except ε α) F :=
  fun _ h => nomatch h

@[simp] theorem avoids_error {e : ε} : Avoids (.error e : Except ε α) F ↔ ¬ F e := by
  constructor
  · intro h
    exact h e rfl
  · intro h e' he
    exact Except.error.inj he ▸ h

theorem avoids_bind {x : Except ε α} {f : α → Except ε β} :
    Avoids (x >>= f) F ↔ Avoids x F ∧ ∀ a, x = .ok a → Avoids (f a) F := by
  cases x with
  | error e =>
    rw [error_bind, avoids_error, avoids_error]
    simp
  | ok a =>
    rw [ok_bind]
    simp

theorem avoids_check {p : Prop} [Decidable p] {e : ε} {x : Except ε α} (he : F e) :
    Avoids (if p then .error e else x) F ↔ ¬ p ∧ Avoids x F := by
  split
  · rename_i h
    rw [avoids_error]
    exact iff_of_false (fun hnot => hnot he) fun hp => hp.1 h
  · rename_i h
    rw [and_iff_right h]

end Avoids

/-- The computation returns exactly when it is permitted, and then satisfies the postcondition. -/
structure Guarded (x : Except ε α) (permitted : Prop) (P : α → Prop) : Prop where
  returns : permitted → Returns x P
  ensures : Ensures x fun a => permitted ∧ P a

namespace Guarded

variable {x : Except ε α} {p q : Prop} {P : α → Prop}

theorem of_ok {a : α} (h : P a) : Guarded (ε := ε) (.ok a) True P := by
  constructor
  · exact fun _ => .of_ok h
  · rintro _ ⟨⟩
    exact ⟨trivial, h⟩

theorem mono {Q : α → Prop} (h : Guarded x p P) (hpq : ∀ a, P a → Q a) : Guarded x p Q where
  returns hp := (h.returns hp).mono hpq
  ensures := h.ensures.mono fun a ha => ⟨ha.1, hpq a ha.2⟩

theorem congr (h : Guarded x p P) (hpq : p ↔ q) : Guarded x q P := by
  rwa [← propext hpq]

theorem and {Q : α → Prop} (h : Guarded x p P) (hx : Ensures x Q) :
    Guarded x p fun a => P a ∧ Q a := by
  constructor
  · intro hp
    obtain ⟨a, ha, hPa⟩ := h.returns hp
    exact ⟨a, ha, hPa, hx a ha⟩
  · intro a ha
    obtain ⟨hp, hPa⟩ := h.ensures a ha
    exact ⟨hp, hPa, hx a ha⟩

theorem bind {f : α → Except ε β} {Q : β → Prop} (h : Guarded x p P)
    (hf : ∀ a, P a → Guarded (f a) q Q) : Guarded (x >>= f) (p ∧ q) Q := by
  constructor
  · rintro ⟨hp, hq⟩
    exact (h.returns hp).bind fun a ha => (hf a ha).returns hq
  · intro b hb
    obtain ⟨a, hx, hfa⟩ := bind_eq_ok.mp hb
    obtain ⟨hp, ha⟩ := h.ensures a hx
    obtain ⟨hq, hQ⟩ := (hf a ha).ensures b hfa
    exact ⟨⟨hp, hq⟩, hQ⟩

/-- A fold returns when every element of it is permitted; the invariant is about the elements
which are left. -/
theorem foldlM {γ : Type u} {f : β → γ → Except ε β} {I : List γ → β → Prop} {r : γ → Prop}
    (h : ∀ c l b, I (c :: l) b → Guarded (f b c) (r c) (I l)) {l : List γ} {b : β}
    (hb : I l b) : Guarded (l.foldlM f b) (∀ c ∈ l, r c) (I []) := by
  induction l generalizing b with
  | nil => exact (of_ok hb).congr (by simp)
  | cons c l ih =>
    rw [List.foldlM_cons]
    exact ((h c l b hb).bind fun a ha => ih ha).congr (by simp)

end Guarded

theorem seq_eq_ok {x y : Except ε PUnit} :
    (do x; y) = .ok ⟨⟩ ↔ x = .ok ⟨⟩ ∧ y = .ok ⟨⟩ := by
  cases x with
  | error e => simp
  | ok u => simp

theorem forM_eq_ok {l : List α} {f : α → Except ε PUnit} :
    forM l f = .ok ⟨⟩ ↔ ∀ a ∈ l, f a = .ok ⟨⟩ := by
  induction l with
  | nil => simp [pure, Except.pure]
  | cons a l ih => rw [List.forM_cons, seq_eq_ok, ih, List.forall_mem_cons]

end Outcome
