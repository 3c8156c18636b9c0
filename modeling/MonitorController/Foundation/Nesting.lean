import Mathlib.Tactic.Basic
import MonitorController.Foundation.Placeholders

/-! # Nested brackets

A text between brackets may hold brackets of its own. A scan which counts the
depth takes a text apart into what stands between its outermost brackets.
-/

namespace Nesting

open Placeholders (Brackets)

universe u

variable {α : Type u} [DecidableEq α] (b : Brackets α)

/-- The depth behind a text, unless the text closes more than was open. -/
def depthAfter : Nat → List α → Option Nat
  | d, [] => some d
  | d, a :: t =>
    if a = b.opening then depthAfter (d + 1) t
    else if a = b.closing then
      if d = 0 then none else depthAfter (d - 1) t
    else depthAfter d t

/-- Every bracket has its partner. -/
def Balanced (t : List α) : Prop := depthAfter b 0 t = some 0

/-- What stands between the outermost brackets. `part` is the text behind the last of them which was
opened. -/
def split : Int → List α → List α → List (List α)
  | _, _, [] => []
  | depth, part, a :: t =>
    if a = b.opening then split (depth + 1) (if depth = 0 then [] else part ++ [a]) t
    else if a = b.closing then
      if depth - 1 = 0 then part :: split (depth - 1) (part ++ [a]) t
      else split (depth - 1) (part ++ [a]) t
    else split depth (part ++ [a]) t

variable {b} {t rest part part' : List α} {a : α}

section Steps

variable {depth : Int} {d m : Nat}

theorem split_opening :
    split b depth part (b.opening :: t) =
      split b (depth + 1) (if depth = 0 then [] else part ++ [b.opening]) t :=
  if_pos rfl

theorem split_closing (h : depth ≠ 1) :
    split b depth part (b.closing :: t) = split b (depth - 1) (part ++ [b.closing]) t := by
  have hdepth : depth - 1 ≠ 0 := by omega
  exact (if_neg b.ne.symm).trans ((if_pos rfl).trans (if_neg hdepth))

theorem split_closing_one :
    split b 1 part (b.closing :: t) = part :: split b 0 (part ++ [b.closing]) t :=
  (if_neg b.ne.symm).trans ((if_pos rfl).trans (if_pos rfl))

theorem split_cons (ha : a ≠ b.opening ∧ a ≠ b.closing) :
    split b depth part (a :: t) = split b depth (part ++ [a]) t :=
  (if_neg ha.1).trans (if_neg ha.2)

theorem depthAfter_opening : depthAfter b d (b.opening :: t) = depthAfter b (d + 1) t :=
  if_pos rfl

theorem depthAfter_closing : depthAfter b (d + 1) (b.closing :: t) = depthAfter b d t :=
  (if_neg b.ne.symm).trans ((if_pos rfl).trans (if_neg (Nat.succ_ne_zero d)))

theorem depthAfter_zero_closing : depthAfter b 0 (b.closing :: t) = none :=
  (if_neg b.ne.symm).trans ((if_pos rfl).trans (if_pos rfl))

theorem depthAfter_cons (ha : a ≠ b.opening ∧ a ≠ b.closing) :
    depthAfter b d (a :: t) = depthAfter b d t :=
  (if_neg ha.1).trans (if_neg ha.2)

/-- A text which never closes more than was open is read bracket by bracket. -/
theorem depth_induction {motive : ∀ d t, depthAfter b d t = some m → Prop}
    (nil : motive m [] rfl)
    (opening : ∀ d t h h', motive (d + 1) t h → motive d (b.opening :: t) h')
    (closing : ∀ d t h h', motive d t h → motive (d + 1) (b.closing :: t) h')
    (cons : ∀ d a t h h', a ≠ b.opening ∧ a ≠ b.closing → motive d t h → motive d (a :: t) h')
    (d : Nat) (t : List α) (h : depthAfter b d t = some m) : motive d t h := by
  induction t generalizing d with
  | nil =>
    obtain rfl := Option.some.inj h
    exact nil
  | cons a t ih =>
    by_cases hopening : a = b.opening
    · subst hopening
      exact opening d t (depthAfter_opening.symm.trans h) h (ih _ _)
    by_cases hclosing : a = b.closing
    · subst hclosing
      cases d with
      | zero =>
        rw [depthAfter_zero_closing] at h
        cases h
      | succ d => exact closing d t (depthAfter_closing.symm.trans h) h (ih _ _)
    · have ha := And.intro hopening hclosing
      exact cons d a t ((depthAfter_cons ha).symm.trans h) h ha (ih _ _)

end Steps

section Append

variable {d m : Nat}

/-- Inside of brackets nothing is cut off. -/
theorem split_inside (h : depthAfter b d t = some m) :
    split b (d + 1) part (t ++ rest) = split b (m + 1) (part ++ t) rest := by
  induction d, t, h using depth_induction generalizing part with
  | nil => rw [List.nil_append, List.append_nil]
  | opening d t h h' ih =>
    have hstep := @ih (part ++ [b.opening])
    rw [List.cons_append, split_opening, if_neg (by omega), List.append_cons part b.opening t,
      ← hstep]
    norm_cast
  | closing d t h h' ih =>
    have hstep := @ih (part ++ [b.closing])
    have hdepth : ((d + 1 : Nat) : Int) + 1 - 1 = d + 1 := by omega
    rw [List.cons_append, split_closing (by omega), List.append_cons part b.closing t, ← hstep,
      hdepth]
  | cons d a t h h' ha ih =>
    rw [List.cons_append, split_cons ha, ih, List.append_cons part a t]

/-- Outside of all brackets the text before is forgotten. -/
theorem split_part {depth : Int} (h : depth ≤ 0) :
    split b depth part t = split b depth part' t := by
  induction t generalizing depth part part' with
  | nil => rfl
  | cons a t ih =>
    by_cases hopening : a = b.opening
    · subst hopening
      rw [split_opening, split_opening]
      by_cases hzero : depth = 0
      · rw [if_pos hzero, if_pos hzero]
      · rw [if_neg hzero, if_neg hzero]
        exact ih (by omega)
    by_cases hclosing : a = b.closing
    · subst hclosing
      rw [split_closing (by omega), split_closing (by omega)]
      exact ih (by omega)
    · rw [split_cons ⟨hopening, hclosing⟩, split_cons ⟨hopening, hclosing⟩]
      exact ih h

/-- A balanced text is taken apart on its own. -/
theorem split_append (h : depthAfter b d t = some 0) :
    split b d part (t ++ rest) = split b d part t ++ split b 0 [] rest := by
  induction d, t, h using depth_induction generalizing part with
  | nil => exact split_part le_rfl
  | opening d t h h' ih =>
    rw [List.cons_append, split_opening, split_opening]
    exact_mod_cast ih
  | closing d t h h' ih =>
    rw [List.cons_append]
    cases d with
    | zero =>
      have hone : ((0 + 1 : Nat) : Int) = 1 := rfl
      rw [hone, split_closing_one, split_closing_one, List.cons_append]
      exact congrArg (part :: ·) ih
    | succ d =>
      have hdepth : ((d + 1 + 1 : Nat) : Int) - 1 = (d + 1 : Nat) := by omega
      rw [split_closing (by omega), split_closing (by omega), hdepth]
      exact ih
  | cons d a t h h' ha ih =>
    rw [List.cons_append, split_cons ha, split_cons ha]
    exact ih

theorem split_plain (h : b.Plain t) : split b 0 part (t ++ rest) = split b 0 [] rest := by
  induction t generalizing part with
  | nil => exact split_part le_rfl
  | cons a t ih =>
    obtain ⟨ha, ht⟩ := Brackets.plain_cons.mp h
    rw [List.cons_append, split_cons ha]
    exact ih ht

theorem depthAfter_plain (h : b.Plain t) : depthAfter b d (t ++ rest) = depthAfter b d rest := by
  induction t with
  | nil => rfl
  | cons a t ih =>
    obtain ⟨ha, ht⟩ := Brackets.plain_cons.mp h
    rw [List.cons_append, depthAfter_cons ha, ih ht]

theorem split_wrap (h : Balanced b t) :
    split b 0 part (b.wrap t ++ rest) = t :: split b 0 [] rest := by
  have hinside : split b 1 [] (t ++ b.closing :: rest) = split b 1 ([] ++ t) (b.closing :: rest) :=
    split_inside h
  rw [Brackets.wrap, List.cons_append, List.append_assoc, split_opening, if_pos rfl,
    List.singleton_append]
  exact hinside.trans (split_closing_one.trans (congrArg (t :: ·) (split_part le_rfl)))

end Append

end Nesting
