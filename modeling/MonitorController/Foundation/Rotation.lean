import Mathlib.Logic.Function.Basic
import Mathlib.Tactic.SplitIfs

/-! # Rotated files

A rotation gives every kept file the name of the next older one, by renaming
them from the oldest to the newest. The first name becomes free, and what stood
under the last one is gone.
-/

universe u

namespace Rotation

variable {β : Type u}

/-- What stands under each name; the newest file is numbered zero. -/
abbrev Slots (β : Type u) := Nat → Option β

namespace Slots

/-- `unlink(missing_ok=True)`. -/
def unlink (i : Nat) (slots : Slots β) : Slots β := Function.update slots i none

/-- `if source.exists(): source.replace(target)`. -/
def replace (i j : Nat) (slots : Slots β) : Slots β :=
  match slots i with
  | none => slots
  | some _ => Function.update (Function.update slots j (slots i)) i none

/-- Rename the files with these numbers, the greatest one first. -/
def shift : Nat → Slots β → Slots β
  | 0, slots => slots
  | i + 1, slots => shift i (slots.replace (i + 1) (i + 2))

/-- Keep so many files, and none of them under the first name. -/
def rotate (keep : Nat) (slots : Slots β) : Slots β :=
  if keep = 1 then slots.unlink 0
  else (shift (keep - 2) (slots.unlink (keep - 1))).replace 0 1

variable {slots : Slots β} {i j k keep : Nat}

theorem unlink_apply : slots.unlink i k = if k = i then none else slots k := by
  rw [unlink, Function.update_apply]

/-- Onto a free name a file is moved, or there is none to move. -/
theorem replace_apply (hfree : slots j = none) :
    slots.replace i j k = if k = i then none else if k = j then slots i else slots k := by
  unfold replace
  cases hsource : slots i with
  | none =>
    by_cases hi : k = i
    · rw [if_pos hi, hi]
      exact hsource
    · rw [if_neg hi]
      by_cases hj : k = j
      · rw [if_pos hj, hj]
        exact hfree
      · rw [if_neg hj]
  | some content =>
    dsimp only
    rw [Function.update_apply, Function.update_apply]

/-- With a free name behind the last one, all files between move by one. -/
theorem shift_apply (hfree : slots (i + 1) = none) : shift i slots k =
    if k = 0 ∨ i + 1 < k then slots k else if k = 1 then none else slots (k - 1) := by
  induction i generalizing slots with
  | zero =>
    rw [shift]
    by_cases hk : k = 0 ∨ 0 + 1 < k
    · rw [if_pos hk]
    · obtain rfl : k = 1 := by omega
      rw [if_neg hk, if_pos rfl, hfree]
  | succ i ih =>
    have hfree' : slots.replace (i + 1) (i + 2) (i + 1) = none := by
      rw [replace_apply hfree, if_pos rfl]
    rw [shift, ih hfree']
    simp only [replace_apply hfree]
    split_ifs
    all_goals first | rfl | (exfalso; omega) | exact congrArg slots (by omega)

/-- A rotation moves every kept file by one. -/
theorem rotate_apply (hkeep : 0 < keep) : slots.rotate keep k =
    if k = 0 then none else if k < keep then slots (k - 1) else slots k := by
  unfold rotate
  by_cases hone : keep = 1
  · rw [if_pos hone, unlink_apply]
    split_ifs
    all_goals first | rfl | (exfalso; omega)
  · rw [if_neg hone]
    have hlast : slots.unlink (keep - 1) (keep - 2 + 1) = none := by
      rw [unlink_apply, if_pos (by omega)]
    have hshift := fun k => @shift_apply _ (slots.unlink (keep - 1)) (keep - 2) k hlast
    have hfree : shift (keep - 2) (slots.unlink (keep - 1)) 1 = none := by
      rw [hshift, if_neg (by omega), if_pos rfl]
    rw [replace_apply hfree, hshift, hshift]
    simp only [unlink_apply]
    split_ifs
    all_goals first | rfl | (exfalso; omega) | exact congrArg slots (by omega)

/-- A file put under the free name leaves everything as it was only if all kept files were it. -/
theorem update_rotate_eq_iff (hkeep : 0 < keep) {content : β} :
    Function.update (slots.rotate keep) 0 (some content) = slots ↔
      ∀ i < keep, slots i = some content := by
  constructor
  · intro heq i hi
    have hat := fun k => congrFun heq k
    induction i with
    | zero => rw [← hat 0, Function.update_self]
    | succ i ih =>
      rw [← hat (i + 1), Function.update_of_ne (Nat.succ_ne_zero i), rotate_apply hkeep,
        if_neg (Nat.succ_ne_zero i), if_pos hi]
      exact ih (by omega)
  · intro hall
    funext k
    rw [Function.update_apply, rotate_apply hkeep]
    split_ifs with hzero hlt
    · rw [hzero, hall 0 hkeep]
    · rw [hall k hlt, hall (k - 1) (by omega)]
    · rfl

end Slots

end Rotation
