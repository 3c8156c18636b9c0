import MonitorController.Foundation.Decimals
import MonitorController.Foundation.Outcome

/-! # Layout geometry

A layout gives the margins, columns and rows of a screen in pixels or in
percentages. Together with the observed size of the screen they determine every
coordinate a window may be placed at.
-/

namespace MonitorController

open Decimals

def defaultContext : Arithmetic := .digits 28

def unsigned : List Char → Int × List Char
  | '+' :: digits => (1, digits)
  | '-' :: digits => (-1, digits)
  | digits => (1, digits)

def allDigits (digits : List Char) : Bool := !digits.isEmpty && digits.all Char.isDigit

/-- The longest number which Python's `int` reads from a text. -/
def maxIntegerDigits : Nat := 4300

def nonnegativeInteger (value field : String) : Except String Int :=
  let (sign, digits) := unsigned value.toList
  if allDigits digits = false then .error (field ++ " must be an integer")
  else if maxIntegerDigits < digits.length then .error (field ++ " must be an integer")
  else if sign * Nat.ofDigitChars 10 digits 0 < 0 then .error (field ++ " cannot be negative")
  else .ok (sign * Nat.ofDigitChars 10 digits 0)

/-- `_decimal`: a plain decimal, at least one digit after a point. -/
def decimal (value field : String) : Except String Decimal :=
  let (sign, digits) := unsigned value.toList
  let whole := digits.takeWhile Char.isDigit
  match digits.dropWhile Char.isDigit with
  | [] =>
    if whole.isEmpty then .error (field ++ " must be a plain decimal")
    else .ok ⟨sign * Nat.ofDigitChars 10 whole 0, 0⟩
  | '.' :: fraction =>
    if allDigits fraction then
      .ok ⟨sign * Nat.ofDigitChars 10 (whole ++ fraction) 0, fraction.length⟩
    else .error (field ++ " must be a plain decimal")
  | _ => .error (field ++ " must be a plain decimal")

/-- `int(value)`: rounding towards zero. -/
def truncate (q : ℚ) : Int := q.num.tdiv q.den

def decimalToInt (value : ℚ) (field : String) : Except String Int :=
  if -2 ^ 63 ≤ truncate value ∧ truncate value < 2 ^ 63 then .ok (truncate value)
  else .error (field ++ " is outside the signed 64-bit range")

def share (arithmetic : Arithmetic) (percentage : Decimal) (size : Int) : ℚ :=
  (arithmetic.mul percentage (.ofInt size)).value / 100

/-- `_dimension`: pixels, or a percentage of a reference. -/
def dimension (arithmetic : Arithmetic) (value : String) (reference : Int) : Except String Int :=
  if value.toList.getLast? = some '%' then do
    let percentage ← decimal (String.ofList value.toList.dropLast) "percentage dimension"
    if percentage.value < 0 ∨ 100 < percentage.value then
      .error "percentage dimension must be within [0, 100]"
    else decimalToInt (share arithmetic percentage reference) "percentage dimension"
  else nonnegativeInteger value "pixel dimension"

/-- `round(Fraction(value * 100, reference))`: the nearer integer, the even one of two. -/
def roundedPercent (value reference : Int) : Int :=
  let n := value * 100
  let floor := n / reference
  let rest := 2 * (n % reference)
  if rest < reference then floor
  else if reference < rest then floor + 1
  else if floor % 2 = 0 then floor else floor + 1

def percent (value reference : Int) : Except String Int :=
  if reference ≤ 0 then .error "percentage reference must be positive"
  else .ok (roundedPercent value reference)

/-- One active output's immutable geometry. -/
structure DisplayScreenSnapshot where
  output : String
  width : Int
  height : Int
  x : Int
  y : Int
  widthMm : Int
  heightMm : Int
  primary : Bool
  width_positive : 0 < width
  height_positive : 0 < height

/-- A screen declaration before observed geometry is applied. -/
structure LayoutScreen where
  name : String
  assignment : Option String
  head : Nat
  parameters : List (String × String)
  sorted : (parameters.map (·.1)).Pairwise (· < ·)
  head_positive : 0 < head

def LayoutScreen.parameterOr (layout : LayoutScreen) (name default : String) : String :=
  match layout.parameters.find? (·.1 = name) with
  | none => default
  | some (_, value) => if value = "" then default else value

/-- The screen area left by the margins, the panel and the logs. -/
structure ActiveArea where
  leftMargin : Int
  rightMargin : Int
  topMargin : Int
  bottomMargin : Int
  panelHeight : Int
  logsHeightPc : Decimal
  cols12Margin : Int
  cols23Margin : Int
  rows12Margin : Int
  logsHeight : Int
  width : Int
  height : Int
  deriving DecidableEq

/-- Everything `_resolve_screen` derives, under the names it is looked up by. -/
structure Geometry where
  width : Int
  height : Int
  x_offset : Int
  y_offset : Int
  right : Int
  num : Nat
  head : Nat
  left_margin : Int
  right_margin : Int
  top_margin : Int
  bottom_margin : Int
  panel_height : Int
  logs_height_pc : Int
  logs_height : Int
  cols_1_2_margin : Int
  cols_2_3_margin : Int
  rows_1_2_margin : Int
  active_left : Int
  active_top : Int
  active_width : Int
  active_height : Int
  active_width_pc : Int
  active_height_pc : Int
  active_middle_x : Int
  active_middle_y : Int
  full_left : Int
  full_top : Int
  full_width : Int
  full_height : Int
  single_width_pc_of_active : Int
  single_height_pc_of_active : Int
  single_width : Int
  single_height : Int
  single_left : Int
  single_top : Int
  single_middle_x : Int
  single_middle_y : Int
  cols_1_2_margin_pc_of_active : Int
  cols_2_3_margin_pc_of_active : Int
  rows_1_2_margin_pc_of_active : Int
  col1_width_pc_of_active : Int
  col2_width_pc_of_active : Int
  col3_width_pc_of_active : Int
  row1_height_pc_of_active : Int
  row2_height_pc_of_active : Int
  col1_width : Int
  col2_width : Int
  col3_width : Int
  col1_left : Int
  col1_right : Int
  col2_left : Int
  col2_right : Int
  col3_left : Int
  col3_right : Int
  col1_middle : Int
  col2_middle : Int
  col3_middle : Int
  cols_1_2_width : Int
  cols_1_2_middle : Int
  row1_height : Int
  row2_height : Int
  row1_top : Int
  row1_bottom : Int
  row2_top : Int
  row2_bottom : Int
  row1_middle : Int
  row2_middle : Int

/-- One layout screen paired with exact observed geometry. -/
structure ResolvedScreen where
  number : Nat
  output : String
  name : String
  assignment : String
  head : Nat
  primary : Bool
  x : Int
  y : Int
  widthMm : Int
  heightMm : Int
  sourceParameters : List (String × String)
  geometry : Geometry

section Resolve

variable (arithmetic : Arithmetic) (layout : LayoutScreen) (live : DisplayScreenSnapshot)

def logsHeightPc : Except String Decimal :=
  decimal (layout.parameterOr "logs_height_pc" "0") "logs_height_pc"

/-- The area between the strips; the bottom margin does not reduce it. -/
def activeArea : Except String ActiveArea := do
  let leftMargin ← dimension arithmetic (layout.parameterOr "left_margin" "0") live.width
  let rightMargin ← dimension arithmetic (layout.parameterOr "right_margin" "0") live.width
  let topMargin ← dimension arithmetic (layout.parameterOr "top_margin" "0") live.height
  let bottomMargin ← dimension arithmetic (layout.parameterOr "bottom_margin" "0") live.height
  let panelHeight ← nonnegativeInteger (layout.parameterOr "panel_height" "0") "panel_height"
  let logsPc ← logsHeightPc layout
  let cols12Margin ← dimension arithmetic (layout.parameterOr "cols_1_2_margin" "0") live.width
  let cols23Margin ← dimension arithmetic
    (layout.parameterOr "cols_2_3_margin" (layout.parameterOr "cols_1_2_margin" "0")) live.width
  let rows12Margin ← dimension arithmetic (layout.parameterOr "rows_1_2_margin" "0") live.height
  let logsHeight ← decimalToInt (share arithmetic logsPc live.height) "logs_height"
  let width := live.width - leftMargin - rightMargin
  let height := live.height - topMargin - panelHeight - logsHeight
  if width ≤ 0 ∨ height ≤ 0 then .error "layout margins leave no active screen area"
  else .ok { leftMargin, rightMargin, topMargin, bottomMargin, panelHeight, logsHeightPc := logsPc,
             cols12Margin, cols23Margin, rows12Margin, logsHeight, width, height }

def within (value : Decimal) (name : String) : Except String Unit :=
  if value.value < 0 ∨ 100 < value.value then .error (name ++ " must be within [0, 100]")
  else .ok ()

/-- The size of a single window, in percent and in pixels. -/
structure SingleWindow where
  widthPc : Decimal
  heightPc : Decimal
  width : Int
  height : Int

def singleWindow (area : ActiveArea) : Except String SingleWindow := do
  let widthPc ← decimal (layout.parameterOr "single_width_pc_of_active" "100")
    "single_width_pc_of_active"
  let heightPc ← decimal (layout.parameterOr "single_height_pc_of_active" "100")
    "single_height_pc_of_active"
  if ¬ (0 < widthPc.value ∧ widthPc.value ≤ 100 ∧ 0 < heightPc.value ∧ heightPc.value ≤ 100) then
    .error "single-window percentages must be within (0, 100]"
  else do
    let width ← decimalToInt (share arithmetic widthPc area.width) "single_width"
    let height ← decimalToInt (share arithmetic heightPc area.height) "single_height"
    .ok { widthPc, heightPc, width, height }

/-- The columns and rows of the active area. -/
structure Grid where
  col12MarginPc : Int
  col23MarginPc : Int
  rowMarginPc : Int
  col1Pc : Decimal
  col2Pc : Decimal
  col3Pc : Decimal
  row1Pc : Decimal
  row2Pc : Decimal
  col1Width : Int
  col2Width : Int
  col3Width : Int
  row1Height : Int
  row2Height : Int

def grid (area : ActiveArea) : Except String Grid := do
  let col12MarginPc ← percent area.cols12Margin area.width
  let col23MarginPc ← percent area.cols23Margin area.width
  let rowMarginPc ← percent area.rows12Margin area.height
  let col1Pc ← decimal (layout.parameterOr "col1_width_pc_of_active" "50")
    "col1_width_pc_of_active"
  let col3Pc ← decimal (layout.parameterOr "col3_width_pc_of_active" "0")
    "col3_width_pc_of_active"
  let col2Default :=
    if col3Pc.mantissa ≠ 0 then
      arithmetic.sub (arithmetic.sub (arithmetic.sub (arithmetic.sub (.ofInt 100) col1Pc) col3Pc)
        (.ofInt col12MarginPc)) (.ofInt col23MarginPc)
    else arithmetic.sub (arithmetic.sub (.ofInt 100) col1Pc) (.ofInt col12MarginPc)
  let col2Pc ← decimal (layout.parameterOr "col2_width_pc_of_active"
    (arithmetic.text col2Default))
    "col2_width_pc_of_active"
  let row1Pc ← decimal (layout.parameterOr "row1_height_pc_of_active" "50")
    "row1_height_pc_of_active"
  let row2Default := arithmetic.sub (arithmetic.sub (.ofInt 100) row1Pc) (.ofInt rowMarginPc)
  let row2Pc ← decimal (layout.parameterOr "row2_height_pc_of_active"
    (arithmetic.text row2Default))
    "row2_height_pc_of_active"
  within col1Pc "col1_width_pc_of_active"
  within col2Pc "col2_width_pc_of_active"
  within col3Pc "col3_width_pc_of_active"
  within row1Pc "row1_height_pc_of_active"
  within row2Pc "row2_height_pc_of_active"
  let col1Width ← decimalToInt (share arithmetic col1Pc area.width) "col1_width"
  let col2Width ← decimalToInt (share arithmetic col2Pc area.width) "col2_width"
  let col3Width ← decimalToInt (share arithmetic col3Pc area.width) "col3_width"
  let gutters := area.cols12Margin + if col3Width ≠ 0 then area.cols23Margin else 0
  if area.width < col1Width + col2Width + col3Width + gutters then
    .error "column widths and gutters exceed active width"
  else do
    let row1Height ← decimalToInt (share arithmetic row1Pc area.height) "row1_height"
    let row2Height ← decimalToInt (share arithmetic row1Pc area.height) "row2_height"
    if area.height < row1Height + area.rows12Margin + row2Height then
      .error "legacy row heights and gutter exceed active height"
    else
      .ok { col12MarginPc, col23MarginPc, rowMarginPc, col1Pc, col2Pc, col3Pc, row1Pc, row2Pc,
            col1Width, col2Width, col3Width, row1Height, row2Height }

def geometryOf (number : Nat) (area : ActiveArea) (single : SingleWindow) (cells : Grid)
    (logsPc widthPc heightPc singleWidthPc singleHeightPc : Int)
    (col1Pc col2Pc col3Pc row1Pc row2Pc : Int) : Geometry :=
  let middleX := area.leftMargin + area.width / 2
  let middleY := area.topMargin + area.height / 2
  let col1Left := area.leftMargin
  let col1Right := col1Left + cells.col1Width
  let col2Left := col1Right + area.cols12Margin
  let col2Right := col2Left + cells.col2Width
  let col3Left := col2Right + area.cols23Margin
  let col3Right := col3Left + cells.col3Width
  let row1Top := area.topMargin
  let row1Bottom := row1Top + cells.row1Height
  let row2Top := row1Bottom + area.rows12Margin
  let row2Bottom := row2Top + cells.row2Height
  { width := live.width
    height := live.height
    x_offset := live.x
    y_offset := live.y
    right := live.x + live.width
    num := number
    head := layout.head
    left_margin := area.leftMargin
    right_margin := area.rightMargin
    top_margin := area.topMargin
    bottom_margin := area.bottomMargin
    panel_height := area.panelHeight
    logs_height_pc := logsPc
    logs_height := area.logsHeight
    cols_1_2_margin := area.cols12Margin
    cols_2_3_margin := area.cols23Margin
    rows_1_2_margin := area.rows12Margin
    active_left := area.leftMargin
    active_top := area.topMargin
    active_width := area.width
    active_height := area.height
    active_width_pc := widthPc
    active_height_pc := heightPc
    active_middle_x := middleX
    active_middle_y := middleY
    full_left := 0
    full_top := 0
    full_width := live.width
    full_height := live.height - area.panelHeight
    single_width_pc_of_active := singleWidthPc
    single_height_pc_of_active := singleHeightPc
    single_width := single.width
    single_height := single.height
    single_left := area.leftMargin + (area.width - single.width) / 2
    single_top := area.topMargin + (area.height - single.height) / 2
    single_middle_x := middleX
    single_middle_y := middleY
    cols_1_2_margin_pc_of_active := cells.col12MarginPc
    cols_2_3_margin_pc_of_active := cells.col23MarginPc
    rows_1_2_margin_pc_of_active := cells.rowMarginPc
    col1_width_pc_of_active := col1Pc
    col2_width_pc_of_active := col2Pc
    col3_width_pc_of_active := col3Pc
    row1_height_pc_of_active := row1Pc
    row2_height_pc_of_active := row2Pc
    col1_width := cells.col1Width
    col2_width := cells.col2Width
    col3_width := cells.col3Width
    col1_left := col1Left
    col1_right := col1Right
    col2_left := col2Left
    col2_right := col2Right
    col3_left := col3Left
    col3_right := col3Right
    col1_middle := col1Left + cells.col1Width / 2
    col2_middle := col2Left + cells.col2Width / 2
    col3_middle := col3Left + cells.col3Width / 2
    cols_1_2_width := col2Right - col1Left
    cols_1_2_middle := col1Left + (col2Right - col1Left) / 2
    row1_height := cells.row1Height
    row2_height := cells.row2Height
    row1_top := row1Top
    row1_bottom := row1Bottom
    row2_top := row2Top
    row2_bottom := row2Bottom
    row1_middle := row1Top + cells.row1Height / 2
    row2_middle := row2Top + cells.row2Height / 2 }

def resolveScreen (number : Nat) (assignment : String) : Except String ResolvedScreen := do
  let area ← activeArea arithmetic layout live
  let logsPc ← decimalToInt area.logsHeightPc.value "logs_height_pc"
  let widthPc ← percent area.width live.width
  let heightPc ← percent area.height live.height
  let single ← singleWindow arithmetic layout area
  let singleWidthPc ← decimalToInt single.widthPc.value "single_width_pc_of_active"
  let singleHeightPc ← decimalToInt single.heightPc.value "single_height_pc_of_active"
  let cells ← grid arithmetic layout area
  let col1Pc ← decimalToInt cells.col1Pc.value "col1_width_pc_of_active"
  let col2Pc ← decimalToInt cells.col2Pc.value "col2_width_pc_of_active"
  let col3Pc ← decimalToInt cells.col3Pc.value "col3_width_pc_of_active"
  let row1Pc ← decimalToInt cells.row1Pc.value "row1_height_pc_of_active"
  let row2Pc ← decimalToInt cells.row2Pc.value "row2_height_pc_of_active"
  if (layout.parameters.any fun p => p.1 = "" || p.2 = "") then
    .error "named source value must not be empty"
  else
    .ok { number, output := live.output, name := layout.name, assignment, head := layout.head,
          primary := live.primary, x := live.x, y := live.y, widthMm := live.widthMm,
          heightMm := live.heightMm, sourceParameters := layout.parameters,
          geometry := geometryOf layout live number area single cells logsPc widthPc heightPc
            singleWidthPc singleHeightPc col1Pc col2Pc col3Pc row1Pc row2Pc }

end Resolve

section Numbers

variable {value field : String} {reference n : Int} {q : ℚ} {arithmetic : Arithmetic}
  {percentage : Decimal}

theorem nonnegativeInteger_nonneg (h : nonnegativeInteger value field = .ok n) : 0 ≤ n := by
  unfold nonnegativeInteger at h
  dsimp only at h
  split at h
  · cases h
  · split at h
    · cases h
    · split at h
      · cases h
      · rename_i hsign
        exact Except.ok.inj h ▸ Int.not_lt.mp hsign

theorem decimalToInt_eq (h : decimalToInt q field = .ok n) : n = truncate q := by
  unfold decimalToInt at h
  split at h
  · exact (Except.ok.inj h).symm
  · cases h

theorem truncate_of_nonneg (h : 0 ≤ q) : truncate q = ⌊q⌋ := by
  rw [truncate, Int.tdiv_eq_ediv_of_nonneg (Rat.num_nonneg.mpr h), Rat.floor_def']

theorem truncate_nonneg (h : 0 ≤ q) : 0 ≤ truncate q := by
  rw [truncate_of_nonneg h]
  exact Int.floor_nonneg.mpr h

theorem truncate_le (h : 0 ≤ q) (hle : q ≤ n) : truncate q ≤ n := by
  rw [truncate_of_nonneg h]
  exact Int.cast_le.mp ((Int.floor_le q).trans hle)

theorem truncate_nonneg_iff : 0 ≤ truncate q ↔ -1 < q := by
  rcases le_or_gt 0 q with h | h
  · exact iff_of_true (truncate_nonneg h) (by linarith)
  · have hneg : truncate q = -⌊-q⌋ := by
      rw [← truncate_of_nonneg (by linarith : 0 ≤ -q), truncate, truncate, Rat.num_neg_eq_neg_num,
        Rat.den_neg_eq_den, Int.neg_tdiv, neg_neg]
    rw [hneg, Int.neg_nonneg, ← Int.lt_add_one_iff, zero_add, Int.floor_lt]
    push_cast
    constructor <;> intro h <;> linarith

theorem share_exact : share .exact percentage n = percentage.value * n / 100 := by
  rw [share, Arithmetic.mul, Arithmetic.fix, Decimal.mul_value, Decimal.ofInt_value]

theorem share_nonneg (hreference : 0 ≤ reference) (hpc : 0 ≤ percentage.value) :
    0 ≤ share arithmetic percentage reference := by
  have hproduct : 0 ≤ (percentage.mul (.ofInt reference)).value := by
    rw [Decimal.mul_value, Decimal.ofInt_value]
    exact mul_nonneg hpc (by exact_mod_cast hreference)
  exact div_nonneg (Arithmetic.fix_nonneg hproduct) (by norm_num)

theorem dimension_nonneg (hreference : 0 ≤ reference)
    (h : dimension arithmetic value reference = .ok n) : 0 ≤ n := by
  unfold dimension at h
  split at h
  · obtain ⟨percentage, -, h⟩ := Outcome.bind_eq_ok.mp h
    split at h
    · cases h
    · rename_i hbounds
      rw [decimalToInt_eq h]
      exact truncate_nonneg (share_nonneg hreference (not_lt.mp fun hlt => hbounds (.inl hlt)))
  · exact nonnegativeInteger_nonneg h

theorem share_bounds (hreference : 0 ≤ reference) (hpc : 0 ≤ percentage.value)
    (hle : percentage.value ≤ 100) :
    0 ≤ truncate (share .exact percentage reference) ∧
      truncate (share .exact percentage reference) ≤ reference := by
  have hreference' : (0 : ℚ) ≤ reference := by exact_mod_cast hreference
  have hshare : 0 ≤ share .exact percentage reference := share_nonneg hreference hpc
  refine ⟨truncate_nonneg hshare, truncate_le hshare ?_⟩
  rw [share_exact]
  nlinarith

end Numbers

section Inside

variable {arithmetic : Arithmetic} {layout : LayoutScreen} {live : DisplayScreenSnapshot}
  {area : ActiveArea} {number : Nat} {assignment : String} {screen : ResolvedScreen}

/-- What the strips leave of the screen. -/
structure ActiveArea.Fits (arithmetic : Arithmetic) (area : ActiveArea)
    (live : DisplayScreenSnapshot) : Prop where
  left : 0 ≤ area.leftMargin
  right : 0 ≤ area.rightMargin
  top : 0 ≤ area.topMargin
  panel : 0 ≤ area.panelHeight
  cols12 : 0 ≤ area.cols12Margin
  cols23 : 0 ≤ area.cols23Margin
  rows12 : 0 ≤ area.rows12Margin
  logs : area.logsHeight = truncate (share arithmetic area.logsHeightPc live.height)
  width_eq : area.width = live.width - area.leftMargin - area.rightMargin
  height_eq : area.height = live.height - area.topMargin - area.panelHeight - area.logsHeight
  width_pos : 0 < area.width
  height_pos : 0 < area.height

theorem activeArea_fits (h : activeArea arithmetic layout live = .ok area) :
    area.Fits arithmetic live ∧ logsHeightPc layout = .ok area.logsHeightPc := by
  unfold activeArea at h
  obtain ⟨left, hleft, h⟩ := Outcome.bind_eq_ok.mp h
  obtain ⟨right, hright, h⟩ := Outcome.bind_eq_ok.mp h
  obtain ⟨top, htop, h⟩ := Outcome.bind_eq_ok.mp h
  obtain ⟨bottom, -, h⟩ := Outcome.bind_eq_ok.mp h
  obtain ⟨panel, hpanel, h⟩ := Outcome.bind_eq_ok.mp h
  obtain ⟨logsPc, hlogsPc, h⟩ := Outcome.bind_eq_ok.mp h
  obtain ⟨cols12, hcols12, h⟩ := Outcome.bind_eq_ok.mp h
  obtain ⟨cols23, hcols23, h⟩ := Outcome.bind_eq_ok.mp h
  obtain ⟨rows12, hrows12, h⟩ := Outcome.bind_eq_ok.mp h
  obtain ⟨logs, hlogs, h⟩ := Outcome.bind_eq_ok.mp h
  dsimp only at h
  split at h
  · cases h
  · rename_i hactive
    obtain ⟨hwidth, hheight⟩ := not_or.mp hactive
    obtain rfl := Except.ok.inj h
    have hw := live.width_positive.le
    have hh := live.height_positive.le
    refine ⟨?_, hlogsPc⟩
    constructor
    · exact dimension_nonneg hw hleft
    · exact dimension_nonneg hw hright
    · exact dimension_nonneg hh htop
    · exact nonnegativeInteger_nonneg hpanel
    · exact dimension_nonneg hw hcols12
    · exact dimension_nonneg hw hcols23
    · exact dimension_nonneg hh hrows12
    · exact decimalToInt_eq hlogs
    · rfl
    · rfl
    · exact Int.not_le.mp hwidth
    · exact Int.not_le.mp hheight

theorem singleWindow_fits {single : SingleWindow} (hfits : area.Fits .exact live)
    (h : singleWindow .exact layout area = .ok single) :
    0 ≤ single.width ∧ single.width ≤ area.width ∧ 0 ≤ single.height ∧
      single.height ≤ area.height := by
  unfold singleWindow at h
  obtain ⟨widthPc, -, h⟩ := Outcome.bind_eq_ok.mp h
  obtain ⟨heightPc, -, h⟩ := Outcome.bind_eq_ok.mp h
  split at h
  · cases h
  · rename_i hbounds
    obtain ⟨hw, hw', hh, hh'⟩ := not_not.mp hbounds
    obtain ⟨width, hwidth, h⟩ := Outcome.bind_eq_ok.mp h
    obtain ⟨height, hheight, h⟩ := Outcome.bind_eq_ok.mp h
    obtain rfl := Except.ok.inj h
    have hwide := share_bounds hfits.width_pos.le hw.le hw'
    have hhigh := share_bounds hfits.height_pos.le hh.le hh'
    rw [← decimalToInt_eq hwidth] at hwide
    rw [← decimalToInt_eq hheight] at hhigh
    exact ⟨hwide.1, hwide.2, hhigh⟩

theorem within_eq_ok {value : Decimal} {name : String} (h : within value name = .ok ()) :
    0 ≤ value.value := by
  unfold within at h
  split at h
  · cases h
  · rename_i hbounds
    exact not_lt.mp (not_or.mp hbounds).1

/-- The cells of the grid are no wider and no higher than the active area. -/
structure Grid.Fits (cells : Grid) (area : ActiveArea) : Prop where
  col1 : 0 ≤ cells.col1Width
  col2 : 0 ≤ cells.col2Width
  col3 : 0 ≤ cells.col3Width
  row1 : 0 ≤ cells.row1Height
  row2 : 0 ≤ cells.row2Height
  cols12 : cells.col1Width + cells.col2Width + area.cols12Margin ≤ area.width
  cols : 0 < cells.col3Width → cells.col1Width + cells.col2Width + cells.col3Width +
    area.cols12Margin + area.cols23Margin ≤ area.width
  rows : cells.row1Height + area.rows12Margin + cells.row2Height ≤ area.height

theorem grid_fits {cells : Grid} (hfits : area.Fits arithmetic live)
    (h : grid arithmetic layout area = .ok cells) : cells.Fits area := by
  unfold grid at h
  obtain ⟨col12MarginPc, -, h⟩ := Outcome.bind_eq_ok.mp h
  obtain ⟨col23MarginPc, -, h⟩ := Outcome.bind_eq_ok.mp h
  obtain ⟨rowMarginPc, -, h⟩ := Outcome.bind_eq_ok.mp h
  obtain ⟨col1Pc, -, h⟩ := Outcome.bind_eq_ok.mp h
  obtain ⟨col3Pc, -, h⟩ := Outcome.bind_eq_ok.mp h
  obtain ⟨col2Pc, -, h⟩ := Outcome.bind_eq_ok.mp h
  obtain ⟨row1Pc, -, h⟩ := Outcome.bind_eq_ok.mp h
  obtain ⟨row2Pc, -, h⟩ := Outcome.bind_eq_ok.mp h
  obtain ⟨⟨⟩, hcol1, h⟩ := Outcome.bind_eq_ok.mp h
  obtain ⟨⟨⟩, hcol2, h⟩ := Outcome.bind_eq_ok.mp h
  obtain ⟨⟨⟩, hcol3, h⟩ := Outcome.bind_eq_ok.mp h
  obtain ⟨⟨⟩, hrow1, h⟩ := Outcome.bind_eq_ok.mp h
  obtain ⟨⟨⟩, -, h⟩ := Outcome.bind_eq_ok.mp h
  obtain ⟨col1Width, hwidth1, h⟩ := Outcome.bind_eq_ok.mp h
  obtain ⟨col2Width, hwidth2, h⟩ := Outcome.bind_eq_ok.mp h
  obtain ⟨col3Width, hwidth3, h⟩ := Outcome.bind_eq_ok.mp h
  have hshare : ∀ {d : Decimal} {n : Int} {s : String}, 0 ≤ d.value → ∀ {r : Int}, 0 < r →
      decimalToInt (share arithmetic d r) s = .ok n → 0 ≤ n := by
    intro d n s hd r hr hn
    rw [decimalToInt_eq hn]
    exact truncate_nonneg (share_nonneg hr.le hd)
  have hcells1 := hshare (within_eq_ok hcol1) hfits.width_pos hwidth1
  have hcells2 := hshare (within_eq_ok hcol2) hfits.width_pos hwidth2
  have hcells3 := hshare (within_eq_ok hcol3) hfits.width_pos hwidth3
  dsimp only at h
  generalize hgutters : area.cols12Margin + (if col3Width ≠ 0 then area.cols23Margin else 0) =
    gutters at h
  split at h
  · cases h
  · rename_i hcols
    obtain ⟨row1Height, hheight1, h⟩ := Outcome.bind_eq_ok.mp h
    obtain ⟨row2Height, hheight2, h⟩ := Outcome.bind_eq_ok.mp h
    split at h
    · cases h
    · rename_i hrows
      obtain rfl := Except.ok.inj h
      have hgutter := hfits.cols23
      constructor
      · exact hcells1
      · exact hcells2
      · exact hcells3
      · exact hshare (within_eq_ok hrow1) hfits.height_pos hheight1
      · exact hshare (within_eq_ok hrow1) hfits.height_pos hheight2
      · show col1Width + col2Width + area.cols12Margin ≤ area.width
        split at hgutters <;> omega
      · intro hpos
        change 0 < col3Width at hpos
        rw [if_pos hpos.ne'] at hgutters
        show col1Width + col2Width + col3Width + area.cols12Margin + area.cols23Margin ≤ area.width
        omega
      · exact Int.not_lt.mp hrows

/-- Everything a window may be placed in lies within the screen. -/
structure Geometry.Inside (g : Geometry) : Prop where
  active_left : 0 ≤ g.active_left
  active_right : g.active_left + g.active_width ≤ g.width
  active_top : 0 ≤ g.active_top
  active_bottom : g.active_top + g.active_height ≤ g.height
  above_strips : g.active_top + g.active_height + g.panel_height + g.logs_height ≤ g.height
  single_left : g.active_left ≤ g.single_left
  single_right : g.single_left + g.single_width ≤ g.active_left + g.active_width
  single_top : g.active_top ≤ g.single_top
  single_bottom : g.single_top + g.single_height ≤ g.active_top + g.active_height
  col1_left : g.col1_left = g.active_left
  col1_right : g.col1_right = g.col1_left + g.col1_width
  col2_left : g.col2_left = g.col1_right + g.cols_1_2_margin
  col2_right : g.col2_right = g.col2_left + g.col2_width
  col2_inside : g.col2_right ≤ g.active_left + g.active_width
  col3_left : 0 < g.col3_width → g.col3_left = g.col2_right + g.cols_2_3_margin
  col3_right : 0 < g.col3_width → g.col3_right = g.col3_left + g.col3_width
  col3_inside : 0 < g.col3_width → g.col3_right ≤ g.active_left + g.active_width
  row1_top : g.row1_top = g.active_top
  row1_bottom : g.row1_bottom = g.row1_top + g.row1_height
  row2_top : g.row2_top = g.row1_bottom + g.rows_1_2_margin
  row2_bottom : g.row2_bottom = g.row2_top + g.row2_height
  row2_inside : g.row2_bottom ≤ g.active_top + g.active_height
  gutters : 0 ≤ g.cols_1_2_margin ∧ 0 ≤ g.cols_2_3_margin ∧ 0 ≤ g.rows_1_2_margin
  widths : ∀ w ∈ [g.width, g.active_width, g.full_width, g.single_width, g.col1_width,
    g.col2_width, g.col3_width, g.cols_1_2_width], 0 ≤ w
  heights : ∀ h ∈ [g.height, g.active_height, g.full_height, g.panel_height, g.logs_height,
    g.single_height, g.row1_height, g.row2_height], 0 ≤ h

/-- The parts which a resolved screen is made of. -/
theorem resolveScreen_parts (h : resolveScreen .exact layout live number assignment = .ok screen) :
    ∃ area single cells, area.Fits .exact live ∧ logsHeightPc layout = .ok area.logsHeightPc ∧
      0 ≤ single.width ∧ single.width ≤ area.width ∧ 0 ≤ single.height ∧
      single.height ≤ area.height ∧ cells.Fits area ∧
      ∃ a b c d e f g i j k, screen.geometry =
        geometryOf layout live number area single cells a b c d e f g i j k := by
  unfold resolveScreen at h
  obtain ⟨area, harea, h⟩ := Outcome.bind_eq_ok.mp h
  obtain ⟨logsPc, -, h⟩ := Outcome.bind_eq_ok.mp h
  obtain ⟨widthPc, -, h⟩ := Outcome.bind_eq_ok.mp h
  obtain ⟨heightPc, -, h⟩ := Outcome.bind_eq_ok.mp h
  obtain ⟨single, hsingle, h⟩ := Outcome.bind_eq_ok.mp h
  obtain ⟨singleWidthPc, -, h⟩ := Outcome.bind_eq_ok.mp h
  obtain ⟨singleHeightPc, -, h⟩ := Outcome.bind_eq_ok.mp h
  obtain ⟨cells, hcells, h⟩ := Outcome.bind_eq_ok.mp h
  obtain ⟨col1Pc, -, h⟩ := Outcome.bind_eq_ok.mp h
  obtain ⟨col2Pc, -, h⟩ := Outcome.bind_eq_ok.mp h
  obtain ⟨col3Pc, -, h⟩ := Outcome.bind_eq_ok.mp h
  obtain ⟨row1Pc, -, h⟩ := Outcome.bind_eq_ok.mp h
  obtain ⟨row2Pc, -, h⟩ := Outcome.bind_eq_ok.mp h
  split at h
  · cases h
  · obtain ⟨hfits, hlogs⟩ := activeArea_fits harea
    obtain ⟨hw, hw', hh, hh'⟩ := singleWindow_fits hfits hsingle
    exact ⟨area, single, cells, hfits, hlogs, hw, hw', hh, hh', grid_fits hfits hcells,
      _, _, _, _, _, _, _, _, _, _, congrArg ResolvedScreen.geometry (Except.ok.inj h).symm⟩

/-- In exact arithmetic the geometry of a screen lies inside of it exactly if the log strip, rounded
towards zero, has no negative height. -/
theorem resolveScreen_inside_iff
    (h : resolveScreen .exact layout live number assignment = .ok screen) :
    screen.geometry.Inside ↔
      ∀ pc, logsHeightPc layout = .ok pc → -100 < pc.value * live.height := by
  obtain ⟨area, single, cells, hfits, hlogs, hw, hw', hh, hh', hcells, a, b, c, d, e, f, g, i, j, k,
    hgeometry⟩ := resolveScreen_parts h
  have hstrip : 0 ≤ area.logsHeight ↔ -100 < area.logsHeightPc.value * live.height := by
    rw [hfits.logs, truncate_nonneg_iff, share_exact]
    constructor <;> intro h <;> linarith
  have hall : (∀ pc, logsHeightPc layout = .ok pc → -100 < pc.value * live.height) ↔
      0 ≤ area.logsHeight := by
    rw [hstrip]
    constructor
    · intro hpc
      exact hpc _ hlogs
    · intro hlt pc hpc
      exact Except.ok.inj (hlogs.symm.trans hpc) ▸ hlt
  rw [hall, hgeometry]
  constructor
  · intro hinside
    exact hinside.heights _ (by simp [geometryOf])
  · intro hnonneg
    obtain ⟨hleft, hright, htop, hpanel, hcols12, hcols23, hrows12, -, hwidth, hheight, hwide,
      hhigh⟩ := hfits
    obtain ⟨hcol1, hcol2, hcol3, hrow1, hrow2, hfit2, hfit3, hfitRows⟩ := hcells
    have hscreen := live.width_positive
    have hscreen' := live.height_positive
    constructor
    case widths =>
      simp only [geometryOf, List.forall_mem_cons, List.not_mem_nil, false_implies, implies_true,
        and_true]
      omega
    case heights =>
      simp only [geometryOf, List.forall_mem_cons, List.not_mem_nil, false_implies, implies_true,
        and_true]
      omega
    case col3_inside =>
      intro hpos
      have hfit := hfit3 hpos
      simp only [geometryOf]
      omega
    case col3_left =>
      intro _
      rfl
    case col3_right =>
      intro _
      rfl
    all_goals first
      | rfl
      | simp only [geometryOf]
        omega

def plainLayout : LayoutScreen :=
  ⟨"laptop", none, 1, [], by decide, by decide⟩

def laptopScreen : DisplayScreenSnapshot :=
  ⟨"eDP-1", 1920, 1080, 0, 0, 310, 170, true, by decide, by decide⟩

/-- Three columns with gutters, the second one and the second row defaulted. -/
def threeColumns : LayoutScreen :=
  ⟨"laptop", none, 1, [("col1_width_pc_of_active", "40.5"), ("col3_width_pc_of_active", "25.25"),
    ("cols_1_2_margin", "10"), ("left_margin", "20"), ("logs_height_pc", "5"),
    ("row1_height_pc_of_active", "48"), ("rows_1_2_margin", "6")], by decide, by decide⟩

theorem resolveScreen_inside_three :
    ∃ screen, resolveScreen .exact threeColumns laptopScreen 1 "primary" = .ok screen ∧
      screen.geometry.Inside := by
  have hruns : (resolveScreen .exact threeColumns laptopScreen 1 "primary").toOption.map
      (·.geometry.active_height) = some 1026 := by decide +kernel
  obtain ⟨screen, hscreen, -⟩ := Outcome.eq_ok_of_toOption hruns
  refine ⟨screen, hscreen, (resolveScreen_inside_iff hscreen).mpr fun pc hpc => ?_⟩
  have hlogs : logsHeightPc threeColumns = .ok ⟨5, 0⟩ := by decide +kernel
  obtain rfl := Except.ok.inj (hlogs.symm.trans hpc)
  norm_num [Decimal.value, laptopScreen]

/-- The share of the log strip is the only percentage which may be negative. -/
def negativeLogs : LayoutScreen :=
  ⟨"laptop", none, 1, [("logs_height_pc", "-10")], by decide, by decide⟩

/-- Under a negative log strip the active area reaches below the screen. -/
theorem resolveScreen_outside :
    ∃ screen, resolveScreen .exact negativeLogs laptopScreen 1 "primary" = .ok screen ∧
      screen.geometry.logs_height = -108 ∧
      screen.geometry.active_top + screen.geometry.active_height = screen.geometry.height + 108 ∧
      ¬ screen.geometry.Inside := by
  have hruns : (resolveScreen .exact negativeLogs laptopScreen 1 "primary").toOption.map
      (fun s => (s.geometry.logs_height, s.geometry.active_top, s.geometry.active_height,
        s.geometry.height)) = some (-108, 0, 1188, 1080) := by decide +kernel
  obtain ⟨screen, hscreen, hvalues⟩ := Outcome.eq_ok_of_toOption hruns
  simp only [Prod.mk.injEq] at hvalues
  obtain ⟨hlogs, htop, hactive, hheight⟩ := hvalues
  refine ⟨screen, hscreen, hlogs, by omega, fun hinside => ?_⟩
  have hbottom := hinside.active_bottom
  omega

end Inside

end MonitorController
