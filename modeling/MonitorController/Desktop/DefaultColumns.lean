import Mathlib.Data.List.TakeWhile
import MonitorController.Desktop.Layout

/-! # The default of the second column

A layout which gives no width for its second column leaves it what the other
columns and the gutters do not take. The remainder is computed in percent, from
gutters rounded to whole percents, written out and read again.
-/

namespace MonitorController

open Decimals

section Text

variable {field : String} {arithmetic : Arithmetic} {d a b : Decimal} {n : Nat}

/-- `str(value)` has no exponent. -/
def PlainlyWritten (arithmetic : Arithmetic) (d : Decimal) : Prop :=
  arithmetic.overlong d = false ∧ d.places < digitCount d.mantissa.natAbs + 6

theorem isDigit_of_mem_digits {c : Char} (h : c ∈ Nat.toDigits 10 n) : c.isDigit :=
  Nat.isDigit_of_mem_toDigits (by omega) (by omega) h

theorem unsigned_signed {m : Int} {c : Char} {cs : List Char} (hc : c.isDigit) :
    unsigned ((if m < 0 then ['-'] else []) ++ c :: cs) = (if m < 0 then -1 else 1, c :: cs) := by
  split
  · rfl
  · show unsigned (c :: cs) = (1, c :: cs)
    unfold unsigned
    split
    · rename_i h
      obtain ⟨rfl, -⟩ := List.cons.inj h
      cases hc
    · rename_i h
      obtain ⟨rfl, -⟩ := List.cons.inj h
      cases hc
    · rfl

theorem sign_mul_natAbs (m : Int) : (if m < 0 then -1 else 1) * (m.natAbs : Int) = m := by
  split <;> omega

theorem decimal_of_digits {m : Int} {whole : List Char} (hwhole : ∀ c ∈ whole, c.isDigit)
    (hne : whole ≠ []) (hvalue : Nat.ofDigitChars 10 whole 0 = m.natAbs) :
    decimal (String.ofList ((if m < 0 then ['-'] else []) ++ whole)) field = .ok ⟨m, 0⟩ := by
  obtain ⟨c, cs, rfl⟩ := List.exists_cons_of_ne_nil hne
  unfold decimal
  rw [String.toList_ofList, unsigned_signed (hwhole c (by simp))]
  dsimp only
  have htake : (c :: cs).takeWhile Char.isDigit = c :: cs :=
    List.takeWhile_eq_self_iff.mpr hwhole
  have hdrop : (c :: cs).dropWhile Char.isDigit = [] :=
    List.dropWhile_eq_nil_iff.mpr hwhole
  rw [htake, hdrop, hvalue, sign_mul_natAbs]
  rfl

theorem decimal_of_fraction (field : String) {m : Int} {whole fraction : List Char}
    (hwhole : ∀ c ∈ whole, c.isDigit) (hne : whole ≠ [])
    (hfraction : ∀ c ∈ fraction, c.isDigit) (hne' : fraction ≠ [])
    (hvalue : Nat.ofDigitChars 10 (whole ++ fraction) 0 = m.natAbs) :
    decimal (String.ofList ((if m < 0 then ['-'] else []) ++ (whole ++ '.' :: fraction))) field =
      .ok ⟨m, fraction.length⟩ := by
  obtain ⟨c, cs, rfl⟩ := List.exists_cons_of_ne_nil hne
  unfold decimal
  rw [String.toList_ofList, List.cons_append, unsigned_signed (hwhole c (by simp)),
    ← List.cons_append]
  have htake : (c :: cs ++ '.' :: fraction).takeWhile Char.isDigit = c :: cs := by
    rw [List.takeWhile_append_of_pos hwhole, List.takeWhile_cons_of_neg (by decide),
      List.append_nil]
  have hdrop : (c :: cs ++ '.' :: fraction).dropWhile Char.isDigit = '.' :: fraction := by
    rw [List.dropWhile_append_of_pos hwhole, List.dropWhile_cons_of_neg (by decide)]
  have hall : allDigits fraction = true := by
    rw [allDigits, Bool.and_eq_true, List.all_eq_true, Bool.not_eq_true', List.isEmpty_eq_false_iff]
    exact ⟨hne', hfraction⟩
  simp only [htake, hdrop]
  rw [if_pos hall, hvalue, sign_mul_natAbs]

theorem decimal_of_exponent (field : String) {m : Int} {digits exponent : List Char}
    (hdigits : ∀ c ∈ digits, c.isDigit) (hne : digits ≠ []) :
    decimal (String.ofList ((if m < 0 then ['-'] else []) ++
      (digits.take 1 ++ (if digits.length = 1 then [] else '.' :: digits.tail) ++
        'E' :: exponent))) field = .error (field ++ " must be a plain decimal") := by
  obtain ⟨c, cs, rfl⟩ := List.exists_cons_of_ne_nil hne
  have hc : c.isDigit := hdigits c (by simp)
  have hdrop : ∀ {rest : List Char} {p : Char}, ¬ p.isDigit →
      (c :: p :: rest).dropWhile Char.isDigit = p :: rest := by
    intro rest p hp
    rw [List.dropWhile_cons_of_pos hc, List.dropWhile_cons_of_neg hp]
  show decimal (String.ofList (_ ++ c :: ((if (c :: cs).length = 1 then [] else '.' :: cs) ++
    'E' :: exponent))) field = _
  unfold decimal
  rw [String.toList_ofList, unsigned_signed hc]
  by_cases hone : (c :: cs).length = 1
  · rw [if_pos hone]
    simp only [List.nil_append, hdrop (by decide : ¬ 'E'.isDigit)]
    rfl
  · rw [if_neg hone]
    have hall : allDigits (cs ++ 'E' :: exponent) = false := by
      rw [allDigits, List.all_append, List.all_cons, show 'E'.isDigit = false from rfl,
        Bool.false_and, Bool.and_false, Bool.and_false]
    simp only [List.cons_append, hdrop (by decide : ¬ '.'.isDigit), hall, Bool.false_eq_true,
      if_false]

/-- A number is read back from its text unless that has an exponent. -/
theorem decimal_text (h : PlainlyWritten arithmetic d) : decimal (arithmetic.text d) field = .ok d := by
  obtain ⟨hoverlong, h⟩ := h
  obtain ⟨m, places⟩ := d
  have hdigits : ∀ c ∈ Nat.toDigits 10 m.natAbs, c.isDigit := fun c => isDigit_of_mem_digits
  have hne : Nat.toDigits 10 m.natAbs ≠ [] := Nat.toDigits_ne_nil
  have hvalue : Nat.ofDigitChars 10 (Nat.toDigits 10 m.natAbs) 0 = m.natAbs :=
    Nat.ofDigitChars_ten_toDigits
  unfold Arithmetic.text
  unfold digitCount at h
  simp only [hoverlong, Bool.false_eq_true, if_false] at h ⊢
  rw [Nat.toString_eq_ofList_toDigits, String.toList_ofList]
  generalize Nat.toDigits 10 m.natAbs = digits at *
  have hexponent : ¬ digits.length + 6 ≤ places := by omega
  by_cases hplaces : places = 0
  · rw [if_pos hplaces, hplaces]
    exact decimal_of_digits hdigits hne hvalue
  rw [if_neg hplaces, if_neg hexponent]
  by_cases hshort : digits.length ≤ places
  · rw [if_pos hshort]
    have hzero : ∀ c ∈ ['0'], c.isDigit := by simp
    have hfraction : ∀ c ∈ List.replicate (places - digits.length) '0' ++ digits, c.isDigit := by
      intro c hc
      obtain hc | hc := List.mem_append.mp hc
      · rw [List.eq_of_mem_replicate hc]
        rfl
      · exact hdigits c hc
    have hsame : Nat.ofDigitChars 10
        (['0'] ++ (List.replicate (places - digits.length) '0' ++ digits)) 0 = m.natAbs := by
      rw [Nat.ofDigitChars_append, Nat.ofDigitChars_append, Nat.ofDigitChars_replicate_zero]
      exact hvalue
    have hread := decimal_of_fraction field hzero (by simp) hfraction (by simp [hne])
      hsame
    rw [List.length_append, List.length_replicate, Nat.sub_add_cancel hshort] at hread
    exact hread
  · rw [if_neg hshort]
    have hsame : Nat.ofDigitChars 10 (digits.take (digits.length - places) ++
        digits.drop (digits.length - places)) 0 = m.natAbs := by
      rw [List.take_append_drop]
      exact hvalue
    have hread := decimal_of_fraction field
      (fun c hc => hdigits c (List.mem_of_mem_take hc))
      (by rw [ne_eq, List.take_eq_nil_iff, not_or]; exact ⟨by omega, hne⟩)
      (fun c hc => hdigits c (List.mem_of_mem_drop hc))
      (by rw [ne_eq, List.drop_eq_nil_iff]; omega) hsame
    rw [List.length_drop, Nat.sub_sub_self (by omega)] at hread
    exact hread

theorem decimal_text_exponent {precision : Nat} (hprecision : 0 < precision)
    (h : ¬ PlainlyWritten (.digits precision) d) :
    decimal ((Arithmetic.digits precision).text d) field =
      .error (field ++ " must be a plain decimal") := by
  obtain ⟨m, places⟩ := d
  have hdigits : ∀ c ∈ Nat.toDigits 10 m.natAbs, c.isDigit := fun c => isDigit_of_mem_digits
  have hne : Nat.toDigits 10 m.natAbs ≠ [] := Nat.toDigits_ne_nil
  unfold PlainlyWritten digitCount at h
  unfold Arithmetic.text
  dsimp only at h ⊢
  rw [Nat.toString_eq_ofList_toDigits, String.toList_ofList]
  generalize Nat.toDigits 10 m.natAbs = digits at *
  cases hoverlong : (Arithmetic.digits precision).overlong ⟨m, places⟩ with
  | true =>
    simp only [if_true]
    refine decimal_of_exponent field (fun c hc => hdigits c (List.mem_of_mem_take hc)) ?_
    rw [ne_eq, List.take_eq_nil_iff, not_or]
    exact ⟨by omega, hne⟩
  | false =>
    have hexponent : digits.length + 6 ≤ places := by
      by_contra hlt
      exact h ⟨hoverlong, by omega⟩
    have hplaces : places ≠ 0 := by omega
    simp only [Bool.false_eq_true, if_false]
    rw [if_neg hplaces, if_pos hexponent]
    exact decimal_of_exponent field hdigits hne

end Text

section Sizes

variable {d : Decimal}

/-- A fraction so small that it is written with an exponent. -/
def Tiny (d : Decimal) : Prop := 6 < d.places ∧ |d.value| < 1 / 10 ^ 6

theorem not_tiny_iff : ¬ Tiny d ↔ d.places < digitCount d.mantissa.natAbs + 6 := by
  have hpos : 0 < digitCount d.mantissa.natAbs := Nat.length_toDigits_pos
  rw [Tiny, not_and_or, not_lt, not_lt]
  by_cases hplaces : d.places ≤ 6
  · simp only [hplaces, true_or, true_iff]
    omega
  · obtain ⟨k, hk⟩ : ∃ k, d.places = k + 1 + 6 := ⟨d.places - 7, by omega⟩
    have habs : |d.value| = (d.mantissa.natAbs : ℚ) / 10 ^ d.places := by
      rw [Decimal.value, abs_div, abs_of_pos (by positivity : (0 : ℚ) < 10 ^ d.places),
        Nat.cast_natAbs, Int.cast_abs]
    have hsmall : 1 / 10 ^ 6 ≤ |d.value| ↔ 10 ^ (k + 1) ≤ d.mantissa.natAbs := by
      rw [habs, hk, pow_add, div_le_div_iff₀ (by positivity) (by positivity), one_mul,
        mul_le_mul_iff_left₀ (by positivity)]
      exact_mod_cast Iff.rfl
    have hlong : 10 ^ (k + 1) ≤ d.mantissa.natAbs ↔ k + 1 < digitCount d.mantissa.natAbs := by
      rw [← Nat.not_lt, ← Arithmetic.digitCount_le_iff (Nat.succ_pos k), Nat.not_le]
    rw [hsmall, hlong]
    omega

theorem plain_iff (h : 0 ≤ d.value ∧ d.value ≤ 100) : PlainlyWritten defaultContext d ↔ ¬ Tiny d := by
  rw [PlainlyWritten, not_tiny_iff, and_iff_right]
  unfold defaultContext Arithmetic.overlong
  rw [Bool.and_eq_false_imp]
  intro hplaces
  obtain ⟨hnonneg, hle⟩ := h
  rw [Decimal.value_nonneg_iff] at hnonneg
  unfold Decimal.value at hle
  rw [of_decide_eq_true hplaces, pow_zero, div_one] at hle
  have hmantissa : d.mantissa ≤ 100 := by exact_mod_cast hle
  rw [decide_eq_false_iff_not, Nat.not_lt, Arithmetic.digitCount_le_iff (by omega)]
  omega

end Sizes

section Columns

open Outcome

variable {layout : LayoutScreen} {live : DisplayScreenSnapshot} {area : ActiveArea}
  {number : Nat} {assignment : String}

/-- A parameter is absent, or empty. -/
def LayoutScreen.Omits (layout : LayoutScreen) (name : String) : Prop :=
  layout.parameterOr name "" = ""

instance (name : String) : Decidable (layout.Omits name) :=
  inferInstanceAs (Decidable (_ = _))

theorem LayoutScreen.Omits.default {name default : String} (h : layout.Omits name) :
    layout.parameterOr name default = default := by
  unfold Omits parameterOr at h
  unfold parameterOr
  split
  · rfl
  · rename_i value hvalue
    rw [hvalue] at h
    dsimp only at h
    split at h
    · rename_i hempty
      rw [if_pos hempty]
    · rename_i hempty
      exact absurd h hempty

/-- The percentages which a layout screen gives or leaves to a constant. -/
structure Shares where
  singleWidth : Decimal
  singleHeight : Decimal
  col1 : Decimal
  col3 : Decimal
  row1 : Decimal

/-- A percentage which is written plainly and within bounds. -/
def LayoutScreen.Gives (layout : LayoutScreen) (name default : String) (d : Decimal) : Prop :=
  decimal (layout.parameterOr name default) name = .ok d ∧ 0 ≤ d.value ∧ d.value ≤ 100

/-- All percentages of a layout screen but those of the second column and row, and of the logs. -/
structure Shares.Given (s : Shares) (layout : LayoutScreen) : Prop where
  singleWidth : layout.Gives "single_width_pc_of_active" "100" s.singleWidth
  singleHeight : layout.Gives "single_height_pc_of_active" "100" s.singleHeight
  col1 : layout.Gives "col1_width_pc_of_active" "50" s.col1
  col3 : layout.Gives "col3_width_pc_of_active" "0" s.col3
  row1 : layout.Gives "row1_height_pc_of_active" "50" s.row1

/-- The columns which are not defaulted and the gutters leave some width, and so do the rows. -/
structure Shares.LeaveRoom (s : Shares) (area : ActiveArea) : Prop where
  columns : share .exact s.col1 area.width + share .exact s.col3 area.width + area.cols12Margin +
    (if s.col3.value = 0 then 0 else area.cols23Margin : Int) ≤ area.width
  rows : 2 * share .exact s.row1 area.height + area.rows12Margin ≤ area.height

def Shares.col2Left (s : Shares) (area : ActiveArea) : Decimal :=
  let col12MarginPc := .ofInt (roundedPercent area.cols12Margin area.width)
  let left := defaultContext.sub (.ofInt 100) s.col1
  if s.col3.mantissa ≠ 0 then
    defaultContext.sub (defaultContext.sub (defaultContext.sub left s.col3) col12MarginPc)
      (.ofInt (roundedPercent area.cols23Margin area.width))
  else defaultContext.sub left col12MarginPc

def Shares.row2Left (s : Shares) (area : ActiveArea) : Decimal :=
  defaultContext.sub (defaultContext.sub (.ofInt 100) s.row1)
    (.ofInt (roundedPercent area.rows12Margin area.height))

/-- What the shares of the three columns leave of the width. -/
def Shares.gutterShare (s : Shares) (area : ActiveArea) : ℚ :=
  area.width - share defaultContext s.col1 area.width -
    share defaultContext (s.col2Left area) area.width - share defaultContext s.col3 area.width

/-- When the defaults are accepted: the rounded gutters leave something, what they leave is not
tiny, and their rounding takes no more than the truncated columns give back. -/
structure Shares.DefaultsFit (s : Shares) (area : ActiveArea) : Prop where
  col2 : 0 ≤ (s.col2Left area).value
  row2 : 0 ≤ (s.row2Left area).value
  col2_written : ¬ Tiny (s.col2Left area)
  row2_written : ¬ Tiny (s.row2Left area)
  width : (∀ pc ∈ [s.col1, s.col2Left area, s.col3], share defaultContext pc area.width < 2 ^ 63) →
    area.cols12Margin +
        (if ⌊share defaultContext s.col3 area.width⌋ = 0 then 0 else area.cols23Margin) ≤
      ⌈Int.fract (share defaultContext s.col1 area.width) +
        Int.fract (share defaultContext s.col3 area.width) + s.gutterShare area⌉

/-- The errors about columns, rows, percentages and decimals. -/
def ShareFault (e : String) : Prop :=
  (∃ field, e = field ++ " must be a plain decimal") ∨
  (∃ field, e = field ++ " must be within [0, 100]") ∨
  e ∈ ["single-window percentages must be within (0, 100]", "percentage reference must be positive",
    "column widths and gutters exceed active width",
    "legacy row heights and gutter exceed active height"]

theorem ending_append {field text : String} (h : 2 ≤ text.toList.length) :
    (field ++ text).toList.reverse.take 2 = text.toList.reverse.take 2 := by
  rw [String.toList_append, List.reverse_append, List.take_append_of_le_length]
  rw [List.length_reverse]
  exact h

theorem ShareFault.ending {e : String} (h : ShareFault e) :
    e.toList.reverse.take 2 ∈ [['l', 'a'], [']', '0'], ['e', 'v'], ['h', 't'], ['t', 'h']] := by
  obtain ⟨field, rfl⟩ | ⟨field, rfl⟩ | h := h
  · rw [ending_append (by decide)]
    decide
  · rw [ending_append (by decide)]
    decide
  · simp only [List.mem_cons, List.not_mem_nil, or_false] at h
    obtain rfl | rfl | rfl | rfl := h <;> decide

theorem decimalToInt_avoids {q : ℚ} {field : String} :
    Avoids (decimalToInt q field) ShareFault := by
  unfold decimalToInt
  split
  · exact avoids_ok
  · rw [avoids_error]
    intro h
    have hending := h.ending
    rw [ending_append (by decide)] at hending
    revert hending
    decide

theorem decimalToInt_eq_ok_iff {q : ℚ} {field : String} {n : Int} (hq : 0 ≤ q) :
    decimalToInt q field = .ok n ↔ q < 2 ^ 63 ∧ n = ⌊q⌋ := by
  have hfloor : ⌊q⌋ < 2 ^ 63 ↔ q < 2 ^ 63 := by
    rw [Int.floor_lt]
    push_cast
    rfl
  have hpos := Int.floor_nonneg.mpr hq
  unfold decimalToInt
  rw [truncate_of_nonneg hq]
  split
  · rename_i hrange
    rw [Except.ok.injEq, and_iff_right (hfloor.mp hrange.2), eq_comm]
  · rename_i hrange
    refine iff_of_false (nomatch ·) fun h => hrange ⟨by omega, hfloor.mpr h.1⟩

theorem roundedPercent_nonneg {n reference : Int} (hn : 0 ≤ n) (hreference : 0 < reference) :
    0 ≤ roundedPercent n reference := by
  have hfloor : 0 ≤ n * 100 / reference := Int.ediv_nonneg (by omega) hreference.le
  unfold roundedPercent
  dsimp only
  split_ifs <;> omega

theorem percent_eq_ok {n reference : Int} (hreference : 0 < reference) :
    percent n reference = .ok (roundedPercent n reference) :=
  if_neg (by omega)

theorem within_avoids {d : Decimal} {name : String} :
    Avoids (within d name) ShareFault ↔ 0 ≤ d.value ∧ d.value ≤ 100 := by
  unfold within
  rw [avoids_check (.inr (.inl ⟨name, rfl⟩)), not_or, not_lt, not_lt, and_iff_left avoids_ok]

theorem within_eq_ok_iff {d : Decimal} {name : String} :
    within d name = .ok () ↔ 0 ≤ d.value ∧ d.value ≤ 100 := by
  unfold within
  split
  · rename_i h
    refine iff_of_false (nomatch ·) fun hbounds => ?_
    obtain h | h := h
    · exact absurd hbounds.1 (not_le.mpr h)
    · exact absurd hbounds.2 (not_le.mpr h)
  · rename_i h
    rw [not_or, not_lt, not_lt] at h
    exact iff_of_true rfl h

theorem singleWindow_avoids {s : Shares} (hs : s.Given layout) :
    Avoids (singleWindow defaultContext layout area) ShareFault ↔
      0 < s.singleWidth.value ∧ 0 < s.singleHeight.value := by
  obtain ⟨hwidth, hwidth0, hwidth100⟩ := hs.singleWidth
  obtain ⟨hheight, hheight0, hheight100⟩ := hs.singleHeight
  unfold singleWindow
  rw [hwidth, hheight, ok_bind, ok_bind, avoids_check (.inr (.inr (by simp))), not_not]
  simp only [hwidth100, hheight100, true_and, and_true, and_iff_left_iff_imp]
  intro _
  simp only [avoids_bind, decimalToInt_avoids, avoids_ok, implies_true, and_true]

theorem singleWindow_eq_ok {s : Shares} (hs : s.Given layout)
    (hfits : area.Fits defaultContext live)
    (hpos : 0 < s.singleWidth.value ∧ 0 < s.singleHeight.value) :
    (∃ single, singleWindow defaultContext layout area = .ok single) ↔
      share defaultContext s.singleWidth area.width < 2 ^ 63 ∧
        share defaultContext s.singleHeight area.height < 2 ^ 63 := by
  obtain ⟨hwidth, hwidth0, hwidth100⟩ := hs.singleWidth
  obtain ⟨hheight, hheight0, hheight100⟩ := hs.singleHeight
  unfold singleWindow
  rw [hwidth, hheight, ok_bind, ok_bind,
    if_neg (not_not.mpr ⟨hpos.1, hwidth100, hpos.2, hheight100⟩)]
  simp only [bind_eq_ok]
  have hw : 0 ≤ share defaultContext s.singleWidth area.width :=
    share_nonneg hfits.width_pos.le hpos.1.le
  have hh : 0 ≤ share defaultContext s.singleHeight area.height :=
    share_nonneg hfits.height_pos.le hpos.2.le
  constructor
  · rintro ⟨single, width, hw', height, hh', -⟩
    exact ⟨((decimalToInt_eq_ok_iff hw).mp hw').1, ((decimalToInt_eq_ok_iff hh).mp hh').1⟩
  · rintro ⟨hw', hh'⟩
    exact ⟨_, _, (decimalToInt_eq_ok_iff hw).mpr ⟨hw', rfl⟩, _,
      (decimalToInt_eq_ok_iff hh).mpr ⟨hh', rfl⟩, rfl⟩

theorem singleWindow_percentages {s : Shares} {single : SingleWindow} (hs : s.Given layout)
    (h : singleWindow defaultContext layout area = .ok single) :
    (0 ≤ single.widthPc.value ∧ single.widthPc.value ≤ 100) ∧
      0 ≤ single.heightPc.value ∧ single.heightPc.value ≤ 100 := by
  unfold singleWindow at h
  rw [hs.singleWidth.1, hs.singleHeight.1, ok_bind, ok_bind] at h
  split at h
  · cases h
  · obtain ⟨width, -, h⟩ := bind_eq_ok.mp h
    obtain ⟨height, -, h⟩ := bind_eq_ok.mp h
    obtain rfl := Except.ok.inj h
    exact ⟨hs.singleWidth.2, hs.singleHeight.2⟩

theorem sub_le_hundred {a b : Decimal} (ha : a.value ≤ 100) (hb : 0 ≤ b.value) :
    (defaultContext.sub a b).value ≤ 100 := by
  have hle : (a.sub b).value ≤ (100 : Nat) := by
    rw [Decimal.sub_value]
    push_cast
    linarith
  exact_mod_cast Arithmetic.fix_le (by omega) (by omega) hle

theorem ofInt_roundedPercent_nonneg {n reference : Int} (hn : 0 ≤ n) (hreference : 0 < reference) :
    0 ≤ (Decimal.ofInt (roundedPercent n reference)).value := by
  rw [Decimal.ofInt_value]
  exact_mod_cast roundedPercent_nonneg hn hreference

theorem hundred_le : (Decimal.ofInt 100).value ≤ 100 := by
  rw [Decimal.ofInt_value]
  norm_num

theorem Shares.col2Left_le {s : Shares} (hs : s.Given layout)
    (hfits : area.Fits defaultContext live) : (s.col2Left area).value ≤ 100 := by
  have h12 := ofInt_roundedPercent_nonneg hfits.cols12 hfits.width_pos
  have h23 := ofInt_roundedPercent_nonneg hfits.cols23 hfits.width_pos
  have hleft := sub_le_hundred hundred_le hs.col1.2.1
  unfold col2Left
  dsimp only
  split
  · exact sub_le_hundred (sub_le_hundred (sub_le_hundred hleft hs.col3.2.1) h12) h23
  · exact sub_le_hundred hleft h12

theorem Shares.row2Left_le {s : Shares} (hs : s.Given layout)
    (hfits : area.Fits defaultContext live) : (s.row2Left area).value ≤ 100 :=
  sub_le_hundred (sub_le_hundred hundred_le hs.row1.2.1)
    (ofInt_roundedPercent_nonneg hfits.rows12 hfits.height_pos)

section Steps

variable {α : Type} {d : Decimal} {field : String}

theorem decimal_text_bind_avoids {f : Decimal → Except String α} :
    Avoids (decimal (defaultContext.text d) field >>= f) ShareFault ↔
      PlainlyWritten defaultContext d ∧ Avoids (f d) ShareFault := by
  by_cases h : PlainlyWritten defaultContext d
  · rw [decimal_text h, ok_bind, and_iff_right h]
  · rw [defaultContext, decimal_text_exponent (by omega) h, error_bind, avoids_error]
    exact iff_of_false (not_not.mpr (.inl ⟨field, rfl⟩)) fun hplain => h hplain.1

theorem within_bind_avoids {f : Unit → Except String α} :
    Avoids (within d field >>= f) ShareFault ↔
      (0 ≤ d.value ∧ d.value ≤ 100) ∧ Avoids (f ()) ShareFault := by
  rw [avoids_bind, within_avoids]
  constructor
  · rintro ⟨hbounds, h⟩
    exact ⟨hbounds, h () (within_eq_ok_iff.mpr hbounds)⟩
  · rintro ⟨hbounds, h⟩
    exact ⟨hbounds, fun _ _ => h⟩

theorem decimalToInt_bind_avoids {q : ℚ} {f : Int → Except String α} (hq : 0 ≤ q) :
    Avoids (decimalToInt q field >>= f) ShareFault ↔ (q < 2 ^ 63 → Avoids (f ⌊q⌋) ShareFault) := by
  rw [avoids_bind, and_iff_right decimalToInt_avoids]
  constructor
  · intro h hlt
    exact h _ ((decimalToInt_eq_ok_iff hq).mpr ⟨hlt, rfl⟩)
  · intro h n hn
    obtain ⟨hlt, rfl⟩ := (decimalToInt_eq_ok_iff hq).mp hn
    exact h hlt

end Steps

/-- What truncating the two outer columns gives back is what the gutters may exceed their rounded
percentages by. -/
theorem columns_fit_iff {left middle right : ℚ} (width : Int) {gutters : Int} :
    ⌊left⌋ + ⌊middle⌋ + ⌊right⌋ + gutters ≤ width ↔
      gutters ≤ ⌈Int.fract left + Int.fract right + (width - left - middle - right)⌉ := by
  have hmiddle : Int.fract left + Int.fract right + (width - left - middle - right) =
      -middle + (width - ⌊left⌋ - ⌊right⌋ : Int) := by
    unfold Int.fract
    push_cast
    ring
  rw [hmiddle, Int.ceil_add_intCast, Int.ceil_neg]
  omega

/-- A rounded share is at most half of a size if the exact one is, unless it is too long. -/
theorem floor_share_le {pc : Decimal} {size n : Int} (hn : 0 ≤ n)
    (hle : 2 * share .exact pc size ≤ n) (hsmall : share defaultContext pc size < 2 ^ 63) :
    2 * ⌊share defaultContext pc size⌋ ≤ n := by
  have hfloor := Int.floor_le (share defaultContext pc size)
  suffices hhalf : 2 * share defaultContext pc size ≤ n by
    have hcast : (2 * ⌊share defaultContext pc size⌋ : ℚ) ≤ n := by linarith
    exact_mod_cast hcast
  obtain ⟨m, rfl⟩ := Int.eq_ofNat_of_zero_le hn
  by_cases hlong : 50 * m < 10 ^ 28
  · have hexact : (pc.mul (.ofInt size)).value ≤ (50 * m : Nat) := by
      unfold share Arithmetic.mul Arithmetic.fix at hle
      push_cast at hle ⊢
      linarith
    have hrounded := Arithmetic.fix_le (by omega) hlong hexact
    unfold share defaultContext Arithmetic.mul
    push_cast at hrounded ⊢
    linarith
  · have hbig : (10 ^ 28 : ℚ) ≤ 50 * m := by exact_mod_cast Nat.not_lt.mp hlong
    push_cast
    linarith

/-- The grid is refused for its defaults only. -/
theorem grid_avoids {s : Shares} (hs : s.Given layout) (hfits : area.Fits defaultContext live)
    (hcol2 : layout.Omits "col2_width_pc_of_active")
    (hrow2 : layout.Omits "row2_height_pc_of_active") (hroom : s.LeaveRoom area) :
    Avoids (grid defaultContext layout area) ShareFault ↔ s.DefaultsFit area := by
  have hw := hfits.width_pos
  have hh := hfits.height_pos
  obtain ⟨hcol1, hcol1_bounds⟩ := hs.col1
  obtain ⟨hcol3, hcol3_bounds⟩ := hs.col3
  obtain ⟨hrow1, hrow1_bounds⟩ := hs.row1
  unfold grid
  rw [percent_eq_ok hw, percent_eq_ok hw, percent_eq_ok hh, hcol1, hcol3]
  simp only [ok_bind]
  rw [hcol2.default]
  change Avoids (decimal (defaultContext.text (s.col2Left area)) _ >>= _) _ ↔ _
  rw [decimal_text_bind_avoids, hrow1, ok_bind, hrow2.default]
  change _ ∧ Avoids (decimal (defaultContext.text (s.row2Left area)) _ >>= _) _ ↔ _
  rw [decimal_text_bind_avoids, within_bind_avoids, within_bind_avoids, within_bind_avoids,
    within_bind_avoids, within_bind_avoids, and_iff_right hcol1_bounds, and_iff_right hcol3_bounds,
    and_iff_right hrow1_bounds]
  by_cases hleft : 0 ≤ (s.col2Left area).value
  swap
  · exact iff_of_false (fun h => hleft h.2.2.1.1) fun h => hleft h.col2
  by_cases hleft' : 0 ≤ (s.row2Left area).value
  swap
  · exact iff_of_false (fun h => hleft' h.2.2.2.1.1) fun h => hleft' h.row2
  have hcol2_bounds := And.intro hleft (s.col2Left_le hs hfits)
  have hrow2_bounds := And.intro hleft' (s.row2Left_le hs hfits)
  rw [plain_iff hcol2_bounds, plain_iff hrow2_bounds, and_iff_right hcol2_bounds,
    and_iff_right hrow2_bounds, decimalToInt_bind_avoids (share_nonneg hw.le hcol1_bounds.1),
    decimalToInt_bind_avoids (share_nonneg hw.le hleft),
    decimalToInt_bind_avoids (share_nonneg hw.le hcol3_bounds.1),
    avoids_check (.inr (.inr (by simp)))]
  have hfit : area.width < ⌊share defaultContext s.col1 area.width⌋ +
      ⌊share defaultContext (s.col2Left area) area.width⌋ +
      ⌊share defaultContext s.col3 area.width⌋ + (area.cols12Margin +
        if ⌊share defaultContext s.col3 area.width⌋ ≠ 0 then area.cols23Margin else 0) ↔
      ¬ area.cols12Margin +
          (if ⌊share defaultContext s.col3 area.width⌋ = 0 then 0 else area.cols23Margin) ≤
        ⌈Int.fract (share defaultContext s.col1 area.width) +
          Int.fract (share defaultContext s.col3 area.width) + s.gutterShare area⌉ := by
    rw [Shares.gutterShare, ← columns_fit_iff area.width, not_le, ite_not]
  constructor
  · rintro ⟨htiny2, htiny, hwidths⟩
    refine ⟨hleft, hleft', htiny2, htiny, fun hsmall => ?_⟩
    simp only [List.forall_mem_cons] at hsmall
    have hnot := (hwidths hsmall.1 hsmall.2.1 hsmall.2.2.1).1
    exact not_not.mp (mt hfit.mpr hnot)
  · rintro ⟨-, -, htiny2, htiny, hwidths⟩
    refine ⟨htiny2, htiny, ?_⟩
    intro hsmall1 hsmall2 hsmall3
    constructor
    · intro hnot
      apply hfit.mp hnot
      apply hwidths
      simp only [List.forall_mem_cons]
      exact ⟨hsmall1, hsmall2, hsmall3, by simp⟩
    · have hrow : 0 ≤ share defaultContext s.row1 area.height :=
        share_nonneg hh.le hrow1_bounds.1
      rw [decimalToInt_bind_avoids hrow, decimalToInt_bind_avoids hrow]
      intro hsmall _
      have hrows := hroom.rows
      have hexact : (0 : ℚ) ≤ share .exact s.row1 area.height :=
        share_nonneg hh.le hrow1_bounds.1
      have hhalf : 2 * share .exact s.row1 area.height ≤ (area.height - area.rows12Margin : Int) := by
        push_cast
        linarith
      have hnonneg : 0 ≤ area.height - area.rows12Margin := by
        have hcast : (0 : ℚ) ≤ (area.height - area.rows12Margin : Int) := by linarith
        exact_mod_cast hcast
      have hfloor := floor_share_le hnonneg hhalf hsmall
      rw [if_neg (by omega)]
      exact avoids_ok

/-- After the grid a screen can fail for other reasons only. -/
theorem resolveScreen_avoids {s : Shares} (hs : s.Given layout)
    (harea : activeArea defaultContext layout live = .ok area)
    (hlogs : 0 ≤ area.logsHeightPc.value ∧ area.logsHeightPc.value ≤ 100) :
    Avoids (resolveScreen defaultContext layout live number assignment) ShareFault ↔
      (0 < s.singleWidth.value ∧ 0 < s.singleHeight.value) ∧
        (share defaultContext s.singleWidth area.width < 2 ^ 63 →
          share defaultContext s.singleHeight area.height < 2 ^ 63 →
            Avoids (grid defaultContext layout area) ShareFault) := by
  obtain ⟨hfits, -⟩ := activeArea_fits harea
  have hlogsPc : decimalToInt area.logsHeightPc.value "logs_height_pc" =
      .ok ⌊area.logsHeightPc.value⌋ :=
    (decimalToInt_eq_ok_iff hlogs.1).mpr ⟨by linarith, rfl⟩
  unfold resolveScreen
  rw [harea, ok_bind, hlogsPc, ok_bind, percent_eq_ok live.width_positive, ok_bind,
    percent_eq_ok live.height_positive, ok_bind, avoids_bind, singleWindow_avoids hs]
  refine and_congr_right fun hpos => ?_
  have hok := singleWindow_eq_ok hs hfits hpos
  constructor
  · intro h hwidth hheight
    obtain ⟨single, hsingle⟩ := hok.mpr ⟨hwidth, hheight⟩
    obtain ⟨hw, hh⟩ := singleWindow_percentages hs hsingle
    have hrest := h single hsingle
    rw [(decimalToInt_eq_ok_iff hw.1).mpr ⟨by linarith [hw.2], rfl⟩, ok_bind,
      (decimalToInt_eq_ok_iff hh.1).mpr ⟨by linarith [hh.2], rfl⟩, ok_bind, avoids_bind] at hrest
    exact hrest.1
  · intro h single hsingle
    obtain ⟨hwidth, hheight⟩ := hok.mp ⟨single, hsingle⟩
    have hgrid := h hwidth hheight
    simp only [avoids_bind, decimalToInt_avoids, hgrid, true_and]
    intros
    split
    · rw [avoids_error]
      intro hfault
      have hending := hfault.ending
      revert hending
      decide
    · exact avoids_ok

def constantShares : Shares :=
  ⟨⟨100, 0⟩, ⟨100, 0⟩, ⟨50, 0⟩, ⟨0, 0⟩, ⟨50, 0⟩⟩

theorem constantShares_given {layout : LayoutScreen}
    (h : ∀ name ∈ ["single_width_pc_of_active", "single_height_pc_of_active",
      "col1_width_pc_of_active", "col3_width_pc_of_active", "row1_height_pc_of_active"],
      layout.Omits name) : constantShares.Given layout := by
  simp only [List.forall_mem_cons] at h
  obtain ⟨hwidth, hheight, hcol1, hcol3, hrow1, -⟩ := h
  have hconstant : ∀ {name default : String} {d : Decimal}, layout.Omits name →
      decimal default name = .ok d → 0 ≤ d.value ∧ d.value ≤ 100 → layout.Gives name default d := by
    intro name default d homits hread hbounds
    refine ⟨?_, hbounds⟩
    rw [homits.default]
    exact hread
  constructor
  · exact hconstant hwidth (by decide +kernel) (by norm_num [constantShares, Decimal.value])
  · exact hconstant hheight (by decide +kernel) (by norm_num [constantShares, Decimal.value])
  · exact hconstant hcol1 (by decide +kernel) (by norm_num [constantShares, Decimal.value])
  · exact hconstant hcol3 (by decide +kernel) (by norm_num [constantShares, Decimal.value])
  · exact hconstant hrow1 (by decide +kernel) (by norm_num [constantShares, Decimal.value])

def threeShares : Shares :=
  ⟨⟨100, 0⟩, ⟨100, 0⟩, ⟨405, 1⟩, ⟨2525, 2⟩, ⟨48, 0⟩⟩

def threeArea : ActiveArea :=
  { leftMargin := 20, rightMargin := 0, topMargin := 0, bottomMargin := 0, panelHeight := 0,
    logsHeightPc := ⟨5, 0⟩, cols12Margin := 10, cols23Margin := 10, rows12Margin := 6,
    logsHeight := 54, width := 1900, height := 1026 }

/-- A gutter of four pixels, on a screen so wide that it rounds to no percent. -/
def gutteredLayout : LayoutScreen :=
  ⟨"laptop", none, 1, [("cols_1_2_margin", "4")], by decide, Nat.one_pos⟩

end Columns

end MonitorController
