import Mathlib.Order.Nat
import MonitorController.Foundation.Runs

/-! # Fresh names

A state lists the names it holds and keeps a mark above all numbers handed out
so far. If every step only adds names between the old and the new mark, names
are handed out in increasing order and a name which was given up never returns.
-/

namespace Fresh

variable {α : Type*} {num : α → Nat}

/-- What is not an old name is numbered between the marks, and no two of these are alike. -/
structure Extends (num : α → Nat) (old new : List α) (lo hi : Nat) : Prop where
  le : lo ≤ hi
  fresh : ∀ a ∈ new, a ∉ old → lo < num a ∧ num a ≤ hi
  distinct : ∀ a ∈ new, a ∉ old → ∀ b ∈ new, b ∉ old → num b = num a → b = a

namespace Extends

variable {old mid new : List α} {lo mi hi : Nat}

theorem refl (old : List α) (lo : Nat) : Extends num old old lo lo :=
  ⟨le_rfl, fun _ ha hn => absurd ha hn, fun _ ha hn => absurd ha hn⟩

theorem of_subset (hle : lo ≤ hi) (h : new ⊆ old) : Extends num old new lo hi :=
  ⟨hle, fun _ ha hn => absurd (h ha) hn, fun _ ha hn => absurd (h ha) hn⟩

theorem of_next {x : α} (hx : num x = lo + 1) (h : ∀ a ∈ new, a ∈ old ∨ x = a) :
    Extends num old new lo (lo + 1) where
  le := Nat.le_succ lo
  fresh := by
    intro a ha hn
    obtain rfl := (h a ha).resolve_left hn
    omega
  distinct := by
    intro a ha hn b hb hbn _
    rw [← (h a ha).resolve_left hn, ← (h b hb).resolve_left hbn]

theorem trans (h : Extends num old mid lo mi) (h' : Extends num mid new mi hi) :
    Extends num old new lo hi where
  le := h.le.trans h'.le
  fresh := by
    intro a ha hn
    by_cases hm : a ∈ mid
    · exact ⟨(h.fresh a hm hn).1, (h.fresh a hm hn).2.trans h'.le⟩
    · exact ⟨h.le.trans_lt (h'.fresh a ha hm).1, (h'.fresh a ha hm).2⟩
  distinct := by
    intro a ha hn b hb hbn heq
    by_cases ham : a ∈ mid <;> by_cases hbm : b ∈ mid
    · exact h.distinct a ham hn b hbm hbn heq
    · have hale := (h.fresh a ham hn).2
      have hlt := (h'.fresh b hb hbm).1
      omega
    · have hble := (h.fresh b hbm hbn).2
      have hlt := (h'.fresh a ha ham).1
      omega
    · exact h'.distinct a ha ham b hb hbm heq

end Extends

open Runs

variable {σ ε δ : Type*} {init : σ → Prop} {step : σ → ε → δ → σ → Prop} {names : σ → List α}
  {mark : σ → Nat}

/-- Every run starts without names, and its steps only add fresh ones. -/
structure Ledger (init : σ → Prop) (step : σ → ε → δ → σ → Prop) (num : α → Nat)
    (names : σ → List α) (mark : σ → Nat) : Prop where
  start : ∀ s, init s → names s = []
  step : ∀ s e d s', Reachable init step s → step s e d s' →
    Extends num (names s) (names s') (mark s) (mark s')

namespace Ledger

variable (l : Ledger init step num names mark)
include l

theorem bounded {s : σ} (h : Reachable init step s) : ∀ a ∈ names s, num a ≤ mark s := by
  obtain ⟨ms, h⟩ := h
  induction h with
  | start h => simp [l.start _ h]
  | @move ms s e d s' h hs ih =>
    have hext := l.step s e d s' h.reachable hs
    intro a ha
    by_cases hold : a ∈ names s
    · exact (ih a hold).trans hext.le
    · exact (hext.fresh a ha hold).2

theorem mark_le {newer older : List (Move σ ε δ)} {m : Move σ ε δ} {s : σ}
    (h : Run init step (newer ++ m :: older) s) : mark m.after ≤ mark s :=
  h.since (P := fun s => mark m.after ≤ mark s) le_rfl fun s e d s' hr hle hs =>
    hle.trans (l.step s e d s' hr hs).le

theorem increases {newer older : List (Move σ ε δ)} {m n : Move σ ε δ} {s : σ}
    (h : Run init step (newer ++ m :: older) s) {a b : α} (ha : a ∈ names m.after)
    (han : a ∉ names m.before) (hn : n ∈ older) (hb : b ∈ names n.after) : num b < num a := by
  obtain ⟨hbefore, hs⟩ := h.older
  obtain ⟨mid, old, rfl⟩ := List.append_of_mem hn
  have hafter : Reachable init step n.after := (hbefore.older.1.reachable).move hbefore.older.2
  have hle := (l.bounded hafter b hb).trans (l.mark_le hbefore)
  exact hle.trans_lt ((l.step _ _ _ _ hbefore.reachable hs).fresh a ha han).1

theorem departed {newer older : List (Move σ ε δ)} {m : Move σ ε δ} {s : σ}
    (h : Run init step (newer ++ m :: older) s) {a : α} (ha : a ∈ names m.before)
    (hgone : a ∉ names m.after) : a ∉ names s := by
  obtain ⟨hbefore, hs⟩ := h.older
  have hle : num a ≤ mark m.after :=
    (l.bounded hbefore.reachable a ha).trans (l.step _ _ _ _ hbefore.reachable hs).le
  refine (h.since (P := fun s => a ∉ names s ∧ num a ≤ mark s) ⟨hgone, hle⟩ ?_).1
  rintro s e d s' hr ⟨hn, hle⟩ hs
  have hext := l.step s e d s' hr hs
  exact ⟨fun hmem => absurd (hext.fresh a hmem hn).1 (by omega), hle.trans hext.le⟩

end Ledger

end Fresh
