import Mathlib.Data.Prod.Lex
import Mathlib.Data.String.Basic
import MonitorController.Desktop.Layout
import MonitorController.Desktop.LayoutPaths
import MonitorController.Foundation.Dict
import MonitorController.Foundation.Placeholders
import MonitorController.Foundation.Words

/-! # Layout placeholders

Window rules name the coordinates of a screen by placeholders. The table of a
set of screens has a text for each of them, and expansion replaces one after
the other, the longest first.
-/

namespace MonitorController

open Placeholders Words

section Tables

def screenFields : List String :=
  ["assignment", "bottom_margin", "col1_width_pc_of_active", "col2_width_pc_of_active",
    "col3_width_pc_of_active", "cols_1_2_margin", "cols_2_3_margin", "gkrellm_width", "head",
    "left", "left_margin", "logs_height_pc", "name", "panel_height", "right", "right_margin",
    "right_margin_OLD", "row1_height_pc_of_active", "row2_height_pc_of_active", "rows_1_2_margin",
    "scale", "single_height_pc_of_active", "single_width_pc_of_active", "top_margin"]

/-- The named integers of a resolved screen, sorted by name. -/
def Geometry.named (g : Geometry) : List (String × Int) :=
  [("active_height", g.active_height), ("active_height_pc", g.active_height_pc),
    ("active_left", g.active_left), ("active_middle_x", g.active_middle_x),
    ("active_middle_y", g.active_middle_y), ("active_top", g.active_top),
    ("active_width", g.active_width), ("active_width_pc", g.active_width_pc),
    ("bottom_margin", g.bottom_margin), ("col1_left", g.col1_left), ("col1_middle", g.col1_middle),
    ("col1_right", g.col1_right), ("col1_width", g.col1_width),
    ("col1_width_pc_of_active", g.col1_width_pc_of_active), ("col2_left", g.col2_left),
    ("col2_middle", g.col2_middle), ("col2_right", g.col2_right), ("col2_width", g.col2_width),
    ("col2_width_pc_of_active", g.col2_width_pc_of_active), ("col3_left", g.col3_left),
    ("col3_middle", g.col3_middle), ("col3_right", g.col3_right), ("col3_width", g.col3_width),
    ("col3_width_pc_of_active", g.col3_width_pc_of_active),
    ("cols_1_2_margin", g.cols_1_2_margin),
    ("cols_1_2_margin_pc_of_active", g.cols_1_2_margin_pc_of_active),
    ("cols_1_2_middle", g.cols_1_2_middle), ("cols_1_2_width", g.cols_1_2_width),
    ("cols_2_3_margin", g.cols_2_3_margin),
    ("cols_2_3_margin_pc_of_active", g.cols_2_3_margin_pc_of_active),
    ("full_height", g.full_height), ("full_left", g.full_left), ("full_top", g.full_top),
    ("full_width", g.full_width), ("head", g.head), ("height", g.height),
    ("left_margin", g.left_margin), ("logs_height", g.logs_height),
    ("logs_height_pc", g.logs_height_pc), ("num", g.num), ("panel_height", g.panel_height),
    ("right", g.right), ("right_margin", g.right_margin), ("row1_bottom", g.row1_bottom),
    ("row1_height", g.row1_height), ("row1_height_pc_of_active", g.row1_height_pc_of_active),
    ("row1_middle", g.row1_middle), ("row1_top", g.row1_top), ("row2_bottom", g.row2_bottom),
    ("row2_height", g.row2_height), ("row2_height_pc_of_active", g.row2_height_pc_of_active),
    ("row2_middle", g.row2_middle), ("row2_top", g.row2_top),
    ("rows_1_2_margin", g.rows_1_2_margin),
    ("rows_1_2_margin_pc_of_active", g.rows_1_2_margin_pc_of_active),
    ("single_height", g.single_height),
    ("single_height_pc_of_active", g.single_height_pc_of_active), ("single_left", g.single_left),
    ("single_middle_x", g.single_middle_x), ("single_middle_y", g.single_middle_y),
    ("single_top", g.single_top), ("single_width", g.single_width),
    ("single_width_pc_of_active", g.single_width_pc_of_active), ("top_margin", g.top_margin),
    ("width", g.width), ("x_offset", g.x_offset), ("y_offset", g.y_offset)]

def stick : String := "If \x7bMatches (Stuck=no)\x7d \x7bStick\x7d"

def unstick : String := "If \x7bMatches (Stuck=yes)\x7d \x7bStick\x7d"

def rendered (name value : String) : String :=
  value ++ if "_pc".toList.isSuffixOf name.toList then "%" else ""

def screenTexts (screen : ResolvedScreen) : Dict String String :=
  (Dict.update [] screen.sourceParameters).update
    (screen.geometry.named.map fun e => (e.1, toString e.2))

def setHead (screen : ResolvedScreen) : String := "SetHead " ++ toString screen.head

def textFields (screen : ResolvedScreen) : Dict String String :=
  (screenTexts screen).update [("SetHead", setHead screen), ("assignment", screen.assignment),
    ("name", screen.name), ("output", screen.output)]

def placeholdersOf (word : String) (fields : Dict String String) : List (String × String) :=
  fields.map fun e => ("<" ++ word ++ e.1 ++ ">", rendered e.1 e.2)

/-- The placeholders of a screen by its number and by its assignment. -/
def screenPlaceholders (screen : ResolvedScreen) : List (String × String) :=
  placeholdersOf ("s" ++ toString screen.number ++ "_") (textFields screen) ++
    placeholdersOf ("s_" ++ screen.assignment ++ "_") (textFields screen)

def placeRightHandSide (primary : ResolvedScreen) (screens : List ResolvedScreen) :
    Option String :=
  let g := primary.geometry
  if 0 < g.col3_width then
    some ("MacroCmd \x7bSetHead " ++ toString primary.head ++ "\x7d \x7bMoveTo " ++
      toString g.col3_left ++ " " ++ toString g.row1_top ++ "\x7d \x7bResizeTo " ++
      toString g.col3_width ++ " " ++ toString g.active_height ++ "\x7d \x7b" ++ stick ++ "\x7d")
  else
    (screens.find? (·.assignment = "secondary")).map fun secondary =>
      "MacroCmd \x7bSetHead " ++ toString secondary.head ++ "\x7d \x7b" ++ stick ++ "\x7d"

def placeholderValues (screens : List ResolvedScreen) : Except LayoutFault (Dict String String) :=
  let values := Dict.update [("<stick>", stick), ("<unstick>", unstick)]
    (screens.flatMap screenPlaceholders)
  match screens.find? (·.assignment = "primary") with
  | none => .error (.layoutPlanning "resolved layout has no primary assignment")
  | some primary =>
    match placeRightHandSide primary screens with
    | none => .ok values
    | some command => .ok (values.insert "<place_RHS>" command)

def currentScreenPlaceholders (screen : ResolvedScreen) : Dict String String :=
  Dict.update [] (placeholdersOf "sX_" ((screenTexts screen).insert "SetHead" (setHead screen)))

end Tables

section Names

def geometryNames : List String :=
  ["active_height", "active_height_pc", "active_left", "active_middle_x", "active_middle_y",
    "active_top", "active_width", "active_width_pc", "bottom_margin", "col1_left", "col1_middle",
    "col1_right", "col1_width", "col1_width_pc_of_active", "col2_left", "col2_middle", "col2_right",
    "col2_width", "col2_width_pc_of_active", "col3_left", "col3_middle", "col3_right", "col3_width",
    "col3_width_pc_of_active", "cols_1_2_margin", "cols_1_2_margin_pc_of_active", "cols_1_2_middle",
    "cols_1_2_width", "cols_2_3_margin", "cols_2_3_margin_pc_of_active", "full_height", "full_left",
    "full_top", "full_width", "head", "height", "left_margin", "logs_height", "logs_height_pc",
    "num", "panel_height", "right", "right_margin", "row1_bottom", "row1_height",
    "row1_height_pc_of_active", "row1_middle", "row1_top", "row2_bottom", "row2_height",
    "row2_height_pc_of_active", "row2_middle", "row2_top", "rows_1_2_margin",
    "rows_1_2_margin_pc_of_active", "single_height", "single_height_pc_of_active", "single_left",
    "single_middle_x", "single_middle_y", "single_top", "single_width", "single_width_pc_of_active",
    "top_margin", "width", "x_offset", "y_offset"]

theorem Geometry.named_names (g : Geometry) : g.named.map (·.1) = geometryNames := rfl

def fieldNames : List String :=
  screenFields ++ geometryNames ++ ["SetHead", "assignment", "name", "output"]

def angle : Brackets Char := ⟨'<', '>', by decide⟩

instance (w : List Char) : Decidable (angle.Plain w) :=
  List.decidableBAll _ w

theorem bytes_eq_flatMap (s : String) :
    s.toByteArray.data.toList = s.toList.flatMap String.utf8EncodeChar := by
  rw [← String.utf8Encode_toList]
  simp [List.utf8Encode]

theorem notMem_of_bytes {c : Char} {b : UInt8} (hc : String.utf8EncodeChar c = [b]) {s : String}
    (h : b ∉ s.toByteArray.data.toList) : c ∉ s.toList := by
  intro hmem
  rw [bytes_eq_flatMap] at h
  exact h (List.mem_flatMap.mpr ⟨c, hmem, hc ▸ List.mem_singleton_self b⟩)

theorem suffix_bytes {l m : List Char} (h : l <:+ m) :
    l.flatMap String.utf8EncodeChar <:+ m.flatMap String.utf8EncodeChar := by
  obtain ⟨t, rfl⟩ := h
  rw [List.flatMap_append]
  exact List.suffix_append _ _

theorem placeholder_bytes :
    (∀ text ∈ stick :: unstick :: fieldNames, (60 : UInt8) ∉ text.toByteArray.data.toList ∧
      (62 : UInt8) ∉ text.toByteArray.data.toList) ∧
    ∀ name ∈ fieldNames,
      (95 :: name.toByteArray.data.toList <:+ "_assignment".toByteArray.data.toList ∨
        "_assignment".toByteArray.data.toList <:+ 95 :: name.toByteArray.data.toList) →
        name = "assignment" := by
  decide +kernel

theorem text_plain {text : String} (h : text ∈ stick :: unstick :: fieldNames) :
    angle.Plain text.toList := by
  obtain ⟨hopening, hclosing⟩ := placeholder_bytes.1 text h
  intro c hc
  constructor
  · rintro rfl
    exact notMem_of_bytes (by decide) hopening hc
  · rintro rfl
    exact notMem_of_bytes (by decide) hclosing hc

theorem fieldNames_plain : ∀ name ∈ fieldNames, angle.Plain name.toList :=
  fun _ h => text_plain (List.mem_cons_of_mem _ (List.mem_cons_of_mem _ h))

theorem eq_assignment : ∀ name ∈ fieldNames,
    ('_' :: name.toList <:+ "_assignment".toList ∨ "_assignment".toList <:+ '_' :: name.toList) →
      name = "assignment" := by
  intro name hname h
  have hcons : ('_' :: name.toList).flatMap String.utf8EncodeChar =
      95 :: name.toByteArray.data.toList := by
    rw [List.flatMap_cons, bytes_eq_flatMap]
    rfl
  apply placeholder_bytes.2 name hname
  rw [← hcons, bytes_eq_flatMap]
  exact h.imp suffix_bytes suffix_bytes

end Names

section Expansion

def maxScalarChars : Nat := 16384

def boundedScalar (value field : String) : Except LayoutFault Unit :=
  if value.toList.all isSpace ∨ '\x00' ∈ value.toList ∨ maxScalarChars < value.length then
    .error (.layoutPlanning (field ++ " must be bounded non-empty text"))
  else .ok ()

def asciiLetter (c : Char) : Bool := ('A' ≤ c && c ≤ 'Z') || ('a' ≤ c && c ≤ 'z')

def wellFormedName : List Char → Bool
  | [] => false
  | c :: name => asciiLetter c && name.all fun c => asciiAlnum c || c = '_'

/-- `_PLACEHOLDER.search`: the name of the first well-formed placeholder. -/
def searchPlaceholder : List Char → Option (List Char)
  | [] => none
  | c :: text =>
    let name := text.takeWhile fun c => asciiAlnum c || c = '_'
    if c = '<' ∧ wellFormedName name ∧ (text.drop name.length).head? = some '>' then some name
    else searchPlaceholder text

/-- `result.replace(placeholder, replacement)`. -/
def replaceText (result : String) (e : String × String) : String :=
  String.ofList (replaceAll [(e.1.toList, e.2.toList)] result.toList)

/-- The longest placeholder first, and those of one length by their text. -/
def replacementOrder (replacements : Dict String String) : List (String × String) :=
  sortedBy (fun e => toLex (-(e.1.length : Int), e.1)) replacements

def replacedText (value : String) (replacements : Dict String String) : String :=
  (replacementOrder replacements).foldl replaceText value

def expandPlaceholders (value : String) (replacements : Dict String String) :
    Except LayoutFault String :=
  let result := replacedText value replacements
  match searchPlaceholder result.toList with
  | some name =>
    .error (.layoutPlanning ("unknown layout placeholder: <" ++ String.ofList name ++ ">"))
  | none => do
    boundedScalar result "expanded Fluxbox scalar"
    .ok result

end Expansion

section Entries

variable {screen : ResolvedScreen} {screens : List ResolvedScreen} {e : String × String}
  {word : String} {fields base : Dict String String}

/-- The parser lets no other parameters through. -/
def KnownParameters (screens : List ResolvedScreen) : Prop :=
  ∀ screen ∈ screens, ∀ p ∈ screen.sourceParameters, p.1 ∈ screenFields

theorem mem_screenTexts (h : ∀ p ∈ screen.sourceParameters, p.1 ∈ screenFields)
    (he : e ∈ screenTexts screen) : e.1 ∈ fieldNames := by
  obtain he | he := Dict.mem_of_mem_update he
  · obtain he | he := Dict.mem_of_mem_update he
    · cases he
    · exact List.mem_append_left _ (List.mem_append_left _ (h e he))
  · obtain ⟨p, hp, rfl⟩ := List.mem_map.mp he
    have hname : p.1 ∈ geometryNames :=
      screen.geometry.named_names ▸ List.mem_map.mpr ⟨p, hp, rfl⟩
    exact List.mem_append_left _ (List.mem_append_right _ hname)

theorem mem_textFields (h : ∀ p ∈ screen.sourceParameters, p.1 ∈ screenFields)
    (he : e ∈ textFields screen) : e.1 ∈ fieldNames := by
  obtain he | he := Dict.mem_of_mem_update he
  · exact mem_screenTexts h he
  · refine List.mem_append_right _ ?_
    simp only [List.mem_cons, List.not_mem_nil, or_false] at he ⊢
    obtain rfl | rfl | rfl | rfl := he <;> simp

theorem nodup_screenTexts : (screenTexts screen).keys.Nodup :=
  Dict.nodup_update (Dict.nodup_update List.nodup_nil)

theorem nodup_textFields : (textFields screen).keys.Nodup :=
  Dict.nodup_update nodup_screenTexts

theorem textFields_assignment : Dict.get? "assignment" (textFields screen) =
    some screen.assignment := by
  apply Dict.get?_update
  · simp
  · intro e he
    simp only [List.mem_cons, List.not_mem_nil, or_false] at he
    obtain rfl | rfl | rfl | rfl := he <;> simp

theorem mem_placeholdersOf : e ∈ placeholdersOf word fields ↔
    ∃ p ∈ fields, ("<" ++ word ++ p.1 ++ ">", rendered p.1 p.2) = e :=
  List.mem_map

theorem digits_plain (n : Nat) : angle.Plain (toString n).toList := by
  rw [Nat.toString_eq_ofList_toDigits, String.toList_ofList]
  intro c hc
  have hdigit : c.isDigit := Nat.isDigit_of_mem_toDigits (by omega) (by omega) hc
  constructor <;> rintro rfl <;> cases hdigit

theorem integer_plain (n : Int) : angle.Plain (toString n).toList := by
  cases n with
  | ofNat n => exact digits_plain n
  | negSucc n =>
    have htext : toString (Int.negSucc n) = "-" ++ toString (n + 1) := rfl
    rw [htext, String.toList_append]
    exact Brackets.Plain.append (by decide) (digits_plain _)

theorem append_plain {s t : String} :
    angle.Plain (s ++ t).toList ↔ angle.Plain s.toList ∧ angle.Plain t.toList := by
  rw [String.toList_append]
  exact List.forall_mem_append

theorem stick_plain : angle.Plain stick.toList := text_plain List.mem_cons_self

theorem unstick_plain : angle.Plain unstick.toList :=
  text_plain (List.mem_cons_of_mem _ List.mem_cons_self)

theorem placeRightHandSide_plain {primary : ResolvedScreen} {command : String}
    (h : placeRightHandSide primary screens = some command) : angle.Plain command.toList := by
  unfold placeRightHandSide at h
  dsimp only at h
  split at h
  · rw [← Option.some.inj h]
    simp only [append_plain, integer_plain, digits_plain, stick_plain, and_true]
    decide
  · obtain ⟨secondary, -, hcommand⟩ := Option.map_eq_some_iff.mp h
    rw [← hcommand]
    simp only [append_plain, digits_plain, stick_plain, and_true]
    decide

/-- What every table holds besides the placeholders of the screens. -/
def commonPlaceholders : List String := ["<stick>", "<unstick>", "<place_RHS>"]

theorem mem_placeholderValues (h : placeholderValues screens = .ok base) (he : e ∈ base) :
    (e.1 ∈ commonPlaceholders ∧ angle.Plain e.2.toList) ∨
      ∃ screen ∈ screens, e ∈ screenPlaceholders screen := by
  have hupdate : ∀ e ∈ Dict.update [("<stick>", stick), ("<unstick>", unstick)]
      (screens.flatMap screenPlaceholders),
      (e.1 ∈ commonPlaceholders ∧ angle.Plain e.2.toList) ∨
        ∃ screen ∈ screens, e ∈ screenPlaceholders screen := by
    intro e he
    obtain he | he := Dict.mem_of_mem_update he
    · left
      simp only [List.mem_cons, List.not_mem_nil, or_false] at he
      obtain rfl | rfl := he
      · exact ⟨by simp [commonPlaceholders], stick_plain⟩
      · exact ⟨by simp [commonPlaceholders], unstick_plain⟩
    · exact .inr (List.mem_flatMap.mp he)
  unfold placeholderValues at h
  dsimp only at h
  split at h
  · cases h
  · split at h
    · obtain rfl := Except.ok.inj h
      exact hupdate e he
    · rename_i hcommand
      obtain rfl := Except.ok.inj h
      obtain he | he := Dict.mem_of_mem_insert he
      · exact hupdate e he
      · rw [he]
        exact .inl ⟨by simp [commonPlaceholders], placeRightHandSide_plain hcommand⟩

theorem nodup_placeholderValues (h : placeholderValues screens = .ok base) : base.keys.Nodup := by
  have hupdate : (Dict.keys (Dict.update [("<stick>", stick), ("<unstick>", unstick)]
      (screens.flatMap screenPlaceholders))).Nodup :=
    Dict.nodup_update (by simp [Dict.keys])
  unfold placeholderValues at h
  dsimp only at h
  split at h
  · cases h
  · split at h
    · obtain rfl := Except.ok.inj h
      exact hupdate
    · obtain rfl := Except.ok.inj h
      exact Dict.nodup_insert hupdate _ _

theorem mem_keys_placeholderValues (h : placeholderValues screens = .ok base)
    (hscreen : screen ∈ screens) (he : e ∈ screenPlaceholders screen) : e.1 ∈ base.keys := by
  have hupdate : e.1 ∈ Dict.keys (Dict.update [("<stick>", stick), ("<unstick>", unstick)]
      (screens.flatMap screenPlaceholders)) :=
    Dict.mem_keys_update.mpr (.inr
      (List.mem_map.mpr ⟨e, List.mem_flatMap.mpr ⟨screen, hscreen, he⟩, rfl⟩))
  unfold placeholderValues at h
  dsimp only at h
  split at h
  · cases h
  · split at h
    · obtain rfl := Except.ok.inj h
      exact hupdate
    · obtain rfl := Except.ok.inj h
      exact Dict.mem_keys_insert.mpr (.inl hupdate)

/-- A table of `_placeholder_values`, with the placeholders of a current screen or without. -/
def PlaceholderTable (screens : List ResolvedScreen) (replacements : Dict String String) : Prop :=
  ∃ base, placeholderValues screens = .ok base ∧ (replacements = base ∨
    ∃ current ∈ screens, replacements = base.update (currentScreenPlaceholders current))

def currentTexts (screen : ResolvedScreen) : Dict String String :=
  (screenTexts screen).insert "SetHead" (setHead screen)

variable {replacements : Dict String String}

theorem PlaceholderTable.nodup (h : PlaceholderTable screens replacements) :
    replacements.keys.Nodup := by
  obtain ⟨base, hbase, h | ⟨current, -, h⟩⟩ := h
  · rw [h]
    exact nodup_placeholderValues hbase
  · rw [h]
    exact Dict.nodup_update (nodup_placeholderValues hbase)

/-- Where an entry of a table comes from. -/
inductive Source (screens : List ResolvedScreen) (e : String × String) : Prop where
  | common (h : e.1 ∈ commonPlaceholders) (hplain : angle.Plain e.2.toList)
  | numbered (screen : ResolvedScreen) (hscreen : screen ∈ screens)
      (h : e ∈ placeholdersOf ("s" ++ toString screen.number ++ "_") (textFields screen))
  | assigned (screen : ResolvedScreen) (hscreen : screen ∈ screens)
      (h : e ∈ placeholdersOf ("s_" ++ screen.assignment ++ "_") (textFields screen))
  | current (screen : ResolvedScreen) (hscreen : screen ∈ screens)
      (h : e ∈ placeholdersOf "sX_" (currentTexts screen))

theorem PlaceholderTable.source (h : PlaceholderTable screens replacements)
    (he : e ∈ replacements) : Source screens e := by
  have hvalues : ∀ {base}, placeholderValues screens = .ok base → e ∈ base → Source screens e := by
    intro base hbase he
    obtain ⟨hcommon, hplain⟩ | ⟨screen, hscreen, he⟩ := mem_placeholderValues hbase he
    · exact .common hcommon hplain
    · obtain he | he := List.mem_append.mp he
      · exact .numbered screen hscreen he
      · exact .assigned screen hscreen he
  obtain ⟨base, hbase, h | ⟨current, hcurrent, h⟩⟩ := h
  · exact hvalues hbase (h ▸ he)
  · rw [h] at he
    obtain he | he := Dict.mem_of_mem_update he
    · exact hvalues hbase he
    · unfold currentScreenPlaceholders at he
      obtain he | he := Dict.mem_of_mem_update he
      · cases he
      · exact .current current hcurrent he

theorem mem_currentTexts (h : ∀ p ∈ screen.sourceParameters, p.1 ∈ screenFields)
    (he : e ∈ currentTexts screen) : e.1 ∈ fieldNames := by
  unfold currentTexts at he
  obtain he | he := Dict.mem_of_mem_insert he
  · exact mem_screenTexts h he
  · rw [he]
    exact List.mem_append_right _ (by simp)

/-- The placeholder of an assignment by the assignment itself. -/
def assignmentKey (assignment : String) : String :=
  "<" ++ ("s_" ++ assignment ++ "_") ++ "assignment" ++ ">"

theorem PlaceholderTable.mem_assignmentKey (h : PlaceholderTable screens replacements)
    (hscreen : screen ∈ screens) : assignmentKey screen.assignment ∈ replacements.keys := by
  have hmem : (assignmentKey screen.assignment, rendered "assignment" screen.assignment) ∈
      screenPlaceholders screen := by
    refine List.mem_append_right _
      (mem_placeholdersOf.mpr ⟨("assignment", screen.assignment), ?_, rfl⟩)
    exact (Dict.mem_iff_get? nodup_textFields).mpr textFields_assignment
  obtain ⟨base, hbase, h⟩ := h
  have hkey := mem_keys_placeholderValues hbase hscreen hmem
  obtain h | ⟨current, -, h⟩ := h
  · rw [h]
    exact hkey
  · rw [h]
    exact Dict.mem_keys_update.mpr (.inl hkey)

theorem digits_ne_underscore (n : Nat) (rest : List Char) :
    ¬ ['_'] <+: (toString n).toList ++ rest := by
  rw [Nat.toString_eq_ofList_toDigits, String.toList_ofList]
  cases hdigits : Nat.toDigits 10 n with
  | nil => exact absurd hdigits Nat.toDigits_ne_nil
  | cons c cs =>
    have hc : c.isDigit := Nat.isDigit_of_mem_toDigits (by omega) (by omega)
      (hdigits ▸ List.mem_cons_self)
    rw [List.cons_append, List.cons_prefix_cons]
    rintro ⟨rfl, -⟩
    cases hc

theorem rendered_assignment (value : String) : rendered "assignment" value = value := by
  unfold rendered
  rw [if_neg (by decide), String.append_empty]

/-- The only text for the placeholder of an assignment is the assignment. -/
theorem Source.eq_assignment (hknown : KnownParameters screens) (h : Source screens e)
    {assignment : String} (hkey : e.1 = assignmentKey assignment) : e.2 = assignment := by
  have hchars : e.1.toList = '<' :: 's' :: '_' ::
      (assignment.toList ++ ("_assignment".toList ++ ['>'])) := by
    rw [hkey, assignmentKey]
    simp
  have hstart : ['<', 's', '_'] <+: e.1.toList := by
    rw [hchars]
    simp
  cases h with
  | common hcommon _ =>
    have hnone : ∀ key ∈ commonPlaceholders, ¬ ['<', 's', '_'] <+: key.toList := by decide
    exact absurd hstart (hnone _ hcommon)
  | numbered screen hscreen h =>
    obtain ⟨p, -, rfl⟩ := mem_placeholdersOf.mp h
    exfalso
    refine digits_ne_underscore screen.number ('_' :: (p.1.toList ++ ['>'])) ?_
    simpa using hstart
  | current screen hscreen h =>
    obtain ⟨p, -, rfl⟩ := mem_placeholdersOf.mp h
    simp at hstart
  | assigned screen hscreen h =>
    obtain ⟨p, hp, rfl⟩ := mem_placeholdersOf.mp h
    have hname := mem_textFields (hknown screen hscreen) hp
    have hsame : screen.assignment.toList ++ '_' :: p.1.toList =
        assignment.toList ++ "_assignment".toList := by
      have happend : (screen.assignment.toList ++ '_' :: p.1.toList) ++ ['>'] =
          (assignment.toList ++ "_assignment".toList) ++ ['>'] := by
        simpa using hchars
      exact List.append_cancel_right happend
    have hsuffix : '_' :: p.1.toList <:+ "_assignment".toList ∨
        "_assignment".toList <:+ '_' :: p.1.toList :=
      List.suffix_or_suffix_of_suffix (List.suffix_append screen.assignment.toList _)
        (hsame.symm ▸ List.suffix_append assignment.toList _)
    have hp1 := MonitorController.eq_assignment p.1 hname hsuffix
    obtain ⟨name, value⟩ := p
    obtain rfl : name = "assignment" := hp1
    have hvalue := (Dict.mem_iff_get? nodup_textFields).mp hp
    rw [textFields_assignment] at hvalue
    obtain rfl := Option.some.inj hvalue
    have hend : '_' :: "assignment".toList = "_assignment".toList := by decide
    have hassignment : screen.assignment.toList = assignment.toList := by
      rw [hend] at hsame
      exact List.append_cancel_right hsame
    rw [← String.toList_inj, ← hassignment, rendered_assignment]

theorem PlaceholderTable.assignment_plain (h : PlaceholderTable screens replacements)
    (hknown : KnownParameters screens)
    (hplain : ∀ v ∈ replacements.values, angle.Plain v.toList) (hscreen : screen ∈ screens) :
    angle.Plain screen.assignment.toList := by
  obtain ⟨e, he, hkey⟩ := List.mem_map.mp (h.mem_assignmentKey hscreen)
  have hvalue := (h.source he).eq_assignment hknown hkey
  exact hvalue ▸ hplain e.2 (List.mem_map.mpr ⟨e, he, rfl⟩)

theorem placeholder_toList (word name : String) :
    ("<" ++ word ++ name ++ ">").toList = angle.wrap (word.toList ++ name.toList) := by
  simp [Brackets.wrap, angle]

theorem commonPlaceholders_wrap : ∀ key ∈ commonPlaceholders,
    ∃ w ∈ ["stick", "unstick", "place_RHS"],
      angle.Plain w.toList ∧ key.toList = angle.wrap w.toList := by
  decide

/-- Every key of a table is a placeholder. -/
theorem PlaceholderTable.bracketed (h : PlaceholderTable screens replacements)
    (hknown : KnownParameters screens)
    (hplain : ∀ v ∈ replacements.values, angle.Plain v.toList) (he : e ∈ replacements) :
    angle.Bracketed (e.1.toList, e.2.toList) := by
  have hof : ∀ {word : String} {fields : Dict String String}, angle.Plain word.toList →
      (∀ p ∈ fields, p.1 ∈ fieldNames) → e ∈ placeholdersOf word fields →
      ∃ w, angle.Plain w ∧ e.1.toList = angle.wrap w := by
    intro word fields hword hfields he
    obtain ⟨p, hp, rfl⟩ := mem_placeholdersOf.mp he
    exact ⟨_, hword.append (fieldNames_plain p.1 (hfields p hp)), placeholder_toList word p.1⟩
  constructor
  · cases h.source he with
    | common hcommon =>
      obtain ⟨w, -, hw, hkey⟩ := commonPlaceholders_wrap e.1 hcommon
      exact ⟨w.toList, hw, hkey⟩
    | numbered screen hscreen hmem =>
      refine hof ?_ (fun p hp => mem_textFields (hknown screen hscreen) hp) hmem
      rw [String.toList_append, String.toList_append]
      exact (Brackets.Plain.append (by decide) (digits_plain _)).append (by decide)
    | assigned screen hscreen hmem =>
      refine hof ?_ (fun p hp => mem_textFields (hknown screen hscreen) hp) hmem
      rw [String.toList_append, String.toList_append]
      exact (Brackets.Plain.append (by decide)
        (h.assignment_plain hknown hplain hscreen)).append (by decide)
    | current screen hscreen hmem =>
      exact hof (by decide) (fun p hp => mem_currentTexts (hknown screen hscreen) hp) hmem
  · exact hplain e.2 (List.mem_map.mpr ⟨e, he, rfl⟩)

end Entries

section Order

variable {replacements : Dict String String} {value : String}

def orderedTable (replacements : Dict String String) : List (List Char × List Char) :=
  (replacementOrder replacements).map fun e => (e.1.toList, e.2.toList)

theorem replacedText_toList :
    (replacedText value replacements).toList =
      replaceEach (orderedTable replacements) value.toList := by
  unfold replacedText orderedTable
  generalize replacementOrder replacements = entries
  induction entries generalizing value with
  | nil => rfl
  | cons e entries ih =>
    rw [List.foldl_cons, ih, replaceText, String.toList_ofList]
    rfl

theorem mem_orderedTable {e : List Char × List Char} :
    e ∈ orderedTable replacements ↔ ∃ d ∈ replacements, (d.1.toList, d.2.toList) = e := by
  rw [orderedTable, List.mem_map]
  simp only [replacementOrder, mem_sortedBy]

theorem nodup_orderedTable (h : replacements.keys.Nodup) :
    ((orderedTable replacements).map (·.1)).Nodup := by
  rw [orderedTable, List.map_map]
  have hperm := ((sortedBy_perm (f := fun e : String × String => toLex (-(e.1.length : Int), e.1))
    replacements).map fun e => e.1.toList)
  refine hperm.nodup_iff.mpr ?_
  have hkeys : (replacements.map fun e => e.1.toList) = replacements.keys.map String.toList := by
    rw [Dict.keys, List.map_map]
    rfl
  rw [hkeys]
  exact h.map fun _ _ => String.toList_inj.mp

theorem mem_keys_orderedTable {w : List Char} :
    angle.wrap w ∈ (orderedTable replacements).map (·.1) ↔
      String.ofList (angle.wrap w) ∈ replacements.keys := by
  constructor
  · intro h
    obtain ⟨e, he, hkey⟩ := List.mem_map.mp h
    obtain ⟨d, hd, rfl⟩ := mem_orderedTable.mp he
    exact List.mem_map.mpr ⟨d, hd, by rw [← hkey, String.ofList_toList]⟩
  · intro h
    obtain ⟨d, hd, hkey⟩ := List.mem_map.mp h
    refine List.mem_map.mpr ⟨_, mem_orderedTable.mpr ⟨d, hd, rfl⟩, ?_⟩
    rw [hkey, String.toList_ofList]

end Order

end MonitorController
