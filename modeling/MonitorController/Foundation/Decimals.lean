import Mathlib.Algebra.Order.Field.Basic
import Mathlib.Data.Rat.Floor
import Mathlib.Tactic.FieldSimp
import Mathlib.Tactic.Linarith

/-! # Decimal arithmetic

Python's decimal numbers keep all digits they are written with, but the result
of an operation is rounded to the digits of a context, a tie to the even side.
-/

namespace Decimals

/-- A decimal number as its digits without the point, and the count of those after it. -/
structure Decimal where
  mantissa : Int
  places : Nat
  deriving DecidableEq, Repr

/-- How many digits the result of an operation keeps. -/
inductive Arithmetic where
  | exact
  | digits (n : Nat)

def digitCount (n : Nat) : Nat := (Nat.toDigits 10 n).length

def halfEven (n unit : Nat) : Nat :=
  let kept := n / unit
  let rest := 2 * (n % unit)
  if rest < unit then kept else if unit < rest then kept + 1 else kept + kept % 2

namespace Decimal

def ofInt (n : Int) : Decimal := ⟨n, 0⟩

def value (d : Decimal) : ℚ := d.mantissa / 10 ^ d.places

def sub (a b : Decimal) : Decimal :=
  ⟨a.mantissa * 10 ^ (max a.places b.places - a.places) -
    b.mantissa * 10 ^ (max a.places b.places - b.places), max a.places b.places⟩

def mul (a b : Decimal) : Decimal := ⟨a.mantissa * b.mantissa, a.places + b.places⟩

end Decimal

namespace Arithmetic

/-- The result of an operation. A carry into one more digit leaves a zero behind, which is cut off
as well. -/
def fix : Arithmetic → Decimal → Decimal
  | .exact, d => d
  | .digits n, d =>
    let excess := digitCount d.mantissa.natAbs - n
    if excess = 0 then d
    else
      let kept := halfEven d.mantissa.natAbs (10 ^ excess)
      if kept < 10 ^ n then ⟨d.mantissa.sign * kept * 10 ^ (excess - d.places), d.places - excess⟩
      else ⟨d.mantissa.sign * ↑(kept / 10) * 10 ^ (excess + 1 - d.places), d.places - (excess + 1)⟩

variable (arithmetic : Arithmetic)

def sub (a b : Decimal) : Decimal := arithmetic.fix (a.sub b)

def mul (a b : Decimal) : Decimal := arithmetic.fix (a.mul b)

/-- A number without a fraction has more digits than a result keeps. Such a result stands for one
with a positive exponent. -/
def overlong (d : Decimal) : Bool :=
  match arithmetic with
  | .exact => false
  | .digits n => d.places = 0 && n < digitCount d.mantissa.natAbs

/-- `str(value)`: small fractions and long results are written with an exponent. -/
def text (d : Decimal) : String :=
  let digits := (toString d.mantissa.natAbs).toList
  let sign := if d.mantissa < 0 then ['-'] else []
  let zeros := List.replicate (d.places - digits.length) '0'
  let scientific (digits : List Char) (exponent : String) :=
    digits.take 1 ++ (if digits.length = 1 then [] else '.' :: digits.tail) ++
      'E' :: exponent.toList
  let body :=
    if arithmetic.overlong d then
      match arithmetic with
      | .exact => digits
      | .digits n => scientific (digits.take n) ("+" ++ toString (digits.length - 1))
    else if d.places = 0 then digits
    else if digits.length + 6 ≤ d.places then
      scientific digits ("-" ++ toString (d.places + 1 - digits.length))
    else if digits.length ≤ d.places then '0' :: '.' :: (zeros ++ digits)
    else digits.take (digits.length - d.places) ++ '.' :: digits.drop (digits.length - d.places)
  String.ofList (sign ++ body)

end Arithmetic

section Rounding

variable {n k unit : Nat}

theorem halfEven_le (hunit : 0 < unit) (h : n ≤ k * unit) : halfEven n unit ≤ k := by
  have hsplit := Nat.div_add_mod n unit
  have hlt := Nat.mod_lt n hunit
  have hle : n / unit ≤ k := Nat.div_le_of_le_mul (by rwa [Nat.mul_comm])
  obtain hless | heq := hle.lt_or_eq
  · unfold halfEven
    dsimp only
    split_ifs <;> omega
  · -- the whole part is the bound already, so nothing is left to round
    have hrest : n % unit = 0 := by
      rw [heq, Nat.mul_comm] at hsplit
      omega
    unfold halfEven
    dsimp only
    rw [hrest, if_pos (by omega)]
    exact hle

end Rounding

section Values

variable {a b d : Decimal} {arithmetic : Arithmetic} {n : Nat}

namespace Decimal

theorem sub_value : (a.sub b).value = a.value - b.value := by
  have hpow : ∀ d : Decimal, d.places ≤ max a.places b.places →
      (d.mantissa * 10 ^ (max a.places b.places - d.places) : ℚ) / 10 ^ max a.places b.places =
        d.value := by
    intro d hle
    unfold Decimal.value
    rw [div_eq_div_iff (by positivity) (by positivity), mul_assoc, ← pow_add,
      Nat.sub_add_cancel hle]
  rw [← hpow a (le_max_left ..), ← hpow b (le_max_right ..), ← sub_div]
  unfold Decimal.value Decimal.sub
  push_cast
  rfl

theorem mul_value : (a.mul b).value = a.value * b.value := by
  unfold Decimal.value Decimal.mul
  push_cast
  rw [pow_add, div_mul_div_comm]

theorem ofInt_value (n : Int) : (ofInt n).value = n := by
  simp [ofInt, value]

theorem value_nonneg_iff : 0 ≤ a.value ↔ 0 ≤ a.mantissa := by
  unfold value
  rw [le_div_iff₀ (by positivity), zero_mul]
  exact_mod_cast Iff.rfl

theorem shift_value (m : Int) (cut places : Nat) :
    (⟨m * 10 ^ (cut - places), places - cut⟩ : Decimal).value = m * 10 ^ cut / 10 ^ places := by
  unfold value
  dsimp only
  push_cast
  rw [div_eq_div_iff (by positivity) (by positivity), mul_assoc, mul_assoc, ← pow_add, ← pow_add]
  congr 2
  omega

end Decimal

namespace Arithmetic

theorem digitCount_le_iff {m k : Nat} (hk : 0 < k) : digitCount m ≤ k ↔ m < 10 ^ k :=
  Nat.length_toDigits_le_iff (by omega) hk

/-- The value which a result of too many digits is rounded to. -/
theorem fix_value (hn : 0 < n) (h : digitCount d.mantissa.natAbs - n ≠ 0) :
    ((digits n).fix d).value = d.mantissa.sign *
      (halfEven d.mantissa.natAbs (10 ^ (digitCount d.mantissa.natAbs - n)) *
        10 ^ (digitCount d.mantissa.natAbs - n)) / 10 ^ d.places := by
  unfold fix
  dsimp only
  rw [if_neg h]
  generalize hexcess : digitCount d.mantissa.natAbs - n = excess at *
  have hfull : d.mantissa.natAbs ≤ 10 ^ n * 10 ^ excess := by
    rw [← pow_add]
    exact ((digitCount_le_iff (by omega)).mp (by omega)).le
  have hle := halfEven_le (by positivity) hfull
  generalize halfEven d.mantissa.natAbs (10 ^ excess) = kept at *
  split_ifs with hkept
  · rw [Decimal.shift_value]
    push_cast
    rw [mul_assoc]
  · -- the carry has made it a one with zeros behind
    obtain rfl : kept = 10 ^ n := by omega
    obtain ⟨k, rfl⟩ := Nat.exists_eq_add_of_lt hn
    rw [Decimal.shift_value, zero_add, Nat.pow_succ, Nat.mul_div_cancel _ (by omega)]
    push_cast
    ring

theorem fix_nonneg (h : 0 ≤ d.value) : 0 ≤ (arithmetic.fix d).value := by
  rw [Decimal.value_nonneg_iff] at h ⊢
  unfold fix
  split
  · exact h
  · have hsign : 0 ≤ d.mantissa.sign := Int.sign_nonneg_iff.mpr h
    dsimp only
    split_ifs
    · exact h
    · positivity
    · positivity

/-- Rounding does not pass a whole number which has fewer digits. -/
theorem fix_le {bound : Nat} (hn : 0 < n) (hbound : bound < 10 ^ n) (h : d.value ≤ bound) :
    ((digits n).fix d).value ≤ bound := by
  by_cases hexcess : digitCount d.mantissa.natAbs - n = 0
  · unfold fix
    dsimp only
    rwa [if_pos hexcess]
  rw [fix_value hn hexcess]
  generalize hcut : digitCount d.mantissa.natAbs - n = cut at *
  obtain hneg | hpos := lt_or_ge d.mantissa 0
  · rw [Int.sign_eq_neg_one_of_neg hneg]
    refine le_trans (div_nonpos_of_nonpos_of_nonneg ?_ (by positivity)) (Nat.cast_nonneg bound)
    push_cast
    rw [neg_one_mul, neg_nonpos]
    positivity
  have hnat : d.mantissa.natAbs ≤ bound * 10 ^ d.places := by
    unfold Decimal.value at h
    rw [div_le_iff₀ (by positivity)] at h
    have hmantissa : d.mantissa ≤ bound * 10 ^ d.places := by exact_mod_cast h
    rw [← Int.natAbs_of_nonneg hpos] at hmantissa
    exact_mod_cast hmantissa
  have hlong : 10 ^ (n + cut - 1) ≤ d.mantissa.natAbs := by
    rw [← Nat.not_lt, ← digitCount_le_iff (by omega)]
    omega
  have hplaces : cut ≤ d.places := by
    by_contra hlt
    have hpow : 10 ^ (n + d.places) ≤ 10 ^ (n + cut - 1) :=
      Nat.pow_le_pow_right (by omega) (by omega)
    have hbig : bound * 10 ^ d.places < 10 ^ n * 10 ^ d.places :=
      Nat.mul_lt_mul_of_pos_right hbound (by positivity)
    rw [← pow_add] at hbig
    omega
  have hkept : halfEven d.mantissa.natAbs (10 ^ cut) * 10 ^ cut ≤ bound * 10 ^ d.places := by
    have hsplit : 10 ^ d.places = 10 ^ (d.places - cut) * 10 ^ cut := by
      rw [← pow_add, Nat.sub_add_cancel hplaces]
    rw [hsplit, ← mul_assoc] at hnat ⊢
    exact Nat.mul_le_mul_right _ (halfEven_le (by positivity) hnat)
  have hkept' : (halfEven d.mantissa.natAbs (10 ^ cut) * 10 ^ cut : ℚ) ≤ bound * 10 ^ d.places := by
    exact_mod_cast hkept
  have hsign : d.mantissa.sign ≤ 1 := by
    obtain h | h | h := Int.sign_trichotomy d.mantissa <;> omega
  have hsign' : (d.mantissa.sign : ℚ) ≤ 1 := by exact_mod_cast hsign
  rw [div_le_iff₀ (by positivity)]
  exact (mul_le_of_le_one_left (by positivity) hsign').trans hkept'

end Arithmetic

end Values

end Decimals
