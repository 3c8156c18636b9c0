import Mathlib.Algebra.GroupWithZero.Nat
import Mathlib.Logic.Relation
import MonitorController.Desktop.LayoutPaths
import MonitorController.Foundation.Dict
import MonitorController.Foundation.Lines

/-! # Layout includes

A layout is expanded by putting the lines of an included file in the place of
the line which includes it. The expansion ends on every set of files, and it
keeps lines apart unless an included file lacks its last line end.
-/

namespace MonitorController

open Words

def maxLayoutFileBytes : Nat := 256 * 1024

def maxLayoutTotalBytes : Nat := 2 * 1024 * 1024

def maxLayoutFiles : Nat := 128

def maxIncludeDepth : Nat := 32

def maxLayoutLines : Nat := 20000

section Lines

def includeMarker : List Char := "<INCLUDE".toList

def bracket (c : Char) : Bool := c = '<' || c = '>'

/-- `_INCLUDE`: the indent and the path of an include directive. -/
def matchInclude (line : List Char) : Option (List Char × List Char) :=
  let indent := line.takeWhile (· = ' ')
  let directive := line.dropWhile (· = ' ')
  let blanks := (directive.drop includeMarker.length).takeWhile (· = ' ')
  let body := (directive.drop includeMarker.length).dropWhile (· = ' ')
  let path := body.takeWhile (!bracket ·)
  match body.dropWhile (!bracket ·) with
  | '>' :: trailing =>
    if includeMarker.isPrefixOf directive = false ∨ trailing.all (· = ' ') = false then none
    -- only where nothing else is left does the path take the last blank
    else if path = [] then if 2 ≤ blanks.length then some (indent, [' ']) else none
    else if blanks = [] then none
    else some (indent, path)
  | _ => none

/-- `line.removesuffix("\n")`. -/
def chomp (line : List Char) : List Char :=
  if line.getLast? = some '\n' then line.dropLast else line

def decodeLayoutFile (path : String) (content : ByteArray) : Except LayoutFault String :=
  if maxLayoutFileBytes < content.size then .error (.layoutInput path "exceeds its size limit")
  else match String.fromUTF8? content with
    | none => .error (.layoutInput path "is not UTF-8")
    | some text =>
      if '\x00' ∈ text.toList ∨ '\t' ∈ text.toList then
        .error (.layoutInput path "contains NUL or tab")
      else if maxLayoutLines < (splitLines text.toList).length then
        .error (.layoutInput path "exceeds its line limit")
      else .ok text

end Lines

section Expand

def encodedSize (line : List Char) : Nat := (String.ofList line).utf8ByteSize

/-- What an expansion has written and read, and what it has used up of its budget. -/
structure Expansion where
  output : List (List Char) := []
  consumed : List String := []
  bytes : Nat := 0
  lines : Nat := 0
  bytes_eq : bytes = (output.map encodedSize).sum := by rfl
  lines_eq : lines = output.length := by rfl
  bytes_le : bytes ≤ maxLayoutTotalBytes := by decide
  lines_le : lines ≤ maxLayoutLines := by decide
  consumed_nodup : consumed.Nodup := by exact .nil

def Expansion.append (e : Expansion) (line : List Char) : Except LayoutFault Expansion :=
  if hbytes : e.bytes + encodedSize line ≤ maxLayoutTotalBytes then
    if hlines : e.lines + 1 ≤ maxLayoutLines then
      .ok { e with
        output := e.output ++ [line]
        bytes := e.bytes + encodedSize line
        lines := e.lines + 1
        bytes_eq := by simp [e.bytes_eq]
        lines_eq := by simp [e.lines_eq]
        bytes_le := hbytes
        lines_le := hlines }
    else .error (.layoutPlanning "expanded layout exceeds the line limit")
  else .error (.layoutPlanning "expanded layout exceeds the byte limit")

/-- `consumed.add(path)`. -/
def Expansion.consume (e : Expansion) (path : String) : Expansion :=
  { e with
    consumed := e.consumed.insert path
    consumed_nodup := e.consumed_nodup.insert }

/-- A line of a file, which is copied or replaced by what it includes. -/
def expandLine (expand : String → List Char → Expansion → Except LayoutFault Expansion)
    (path : String) (indent : List Char) (e : Expansion) (line : List Char × Nat) :
    Except LayoutFault Expansion :=
  let place := path ++ ":" ++ toString line.2 ++ ": "
  if (chomp line.1).getLast? = some '\r' then
    .error (.layoutPlanning (place ++ "CRLF is not accepted"))
  else if ¬ includeMarker <:+: chomp line.1 then e.append (indent ++ line.1)
  else match matchInclude (chomp line.1) with
    | none => .error (.layoutPlanning (place ++ "malformed layout include directive"))
    | some (own, target) => do
      let included ← includePath (String.ofList target)
      expand included (indent ++ own) e

/-- `_expand_file`, from the number of levels that are left. -/
def expandFile (files : Dict String ByteArray) :
    Nat → String → List String → List Char → Expansion → Except LayoutFault Expansion
  | 0, _, _, _, _ => .error (.layoutPlanning "layout include depth exceeds its limit")
  | levels + 1, path, stack, indent, e =>
    if path ∈ stack then
      .error (.layoutPlanning ("layout include cycle: " ++ " -> ".intercalate (stack ++ [path])))
    else match Dict.get? path files with
      | none => .error (.missingInput path)
      | some content => do
        let text ← decodeLayoutFile path content
        ((splitLinesKeep text.toList).zipIdx 1).foldlM
          (expandLine (fun included => expandFile files levels included (stack ++ [path]))
            path indent) (e.consume path)

/-- `_expand_file` as `parse_layout` calls it. -/
def expandMain (byPath : Dict String ByteArray) (main : String) : Except LayoutFault Expansion :=
  expandFile byPath (maxIncludeDepth + 1) main [] [] {}

/-- The test of the files and their total size, from what has been seen of them. -/
def validateFiles : List (String × ByteArray) → Nat → Dict String ByteArray →
    Except LayoutFault (Dict String ByteArray)
  | [], total, result =>
    if maxLayoutTotalBytes < total then
      .error (.layoutPlanning "layout input bytes exceed the aggregate limit")
    else .ok result
  | (path, content) :: files, total, result =>
    if acceptedInputPath path = false then
      .error (.layoutPlanning "layout input path is not canonical beneath .fluxbox/layouts")
    else if path ∈ Dict.keys result then
      .error (.layoutPlanning "layout input paths contain duplicates")
    else if content.size = 0 ∨ maxLayoutFileBytes < content.size then
      .error (.layoutInput path "is empty or too large")
    else validateFiles files (total + content.size) (Dict.insert path content result)

def validatedFileMapping (files : List (String × ByteArray)) :
    Except LayoutFault (Dict String ByteArray) :=
  if files = [] ∨ maxLayoutFiles < files.length then
    .error (.layoutPlanning "layout input file count is outside accepted bounds")
  else validateFiles files 0 []

/-- The part of `parse_layout` before the grammar: the path of the layout and its expansion. -/
def expandLayout (layout : String) (files : List (String × ByteArray)) :
    Except LayoutFault (String × Expansion) := do
  let byPath ← validatedFileMapping files
  let sourcePath ← layoutPath layout
  let e ← expandMain byPath sourcePath
  .ok (sourcePath, e)

end Expand

section Source

/-- What the line of an include directive puts in its place, below how much more indent. -/
def includedBy (line : List Char) : Option (List Char × String) :=
  if includeMarker <:+: chomp line then
    (matchInclude (chomp line)).bind fun directive =>
      (includePath (String.ofList directive.2)).toOption.map (directive.1, ·)
  else none

/-- A line without a carriage return at its end, and a proper directive if it has the marker. -/
structure AcceptedLine (line : List Char) : Prop where
  no_return : (chomp line).getLast? ≠ some '\r'
  proper : includeMarker <:+: chomp line → (includedBy line).isSome = true

/-- A content within its limits, and the text of it. -/
structure DecodedAs (content : ByteArray) (text : String) : Prop where
  small : content.size ≤ maxLayoutFileBytes
  utf8 : String.fromUTF8? content = some text
  no_nul : '\x00' ∉ text.toList
  no_tab : '\t' ∉ text.toList
  short : (splitLines text.toList).length ≤ maxLayoutLines

variable (files : Dict String ByteArray)

/-- A file which is there, and all of whose lines are accepted. -/
def Readable (path : String) : Prop :=
  ∃ content text, Dict.get? path files = some content ∧ DecodedAs content text ∧
    ∀ line ∈ splitLinesKeep text.toList, AcceptedLine line

def linesOf (path : String) : List (List Char) :=
  match Dict.get? path files with
  | none => []
  | some content =>
    match decodeLayoutFile path content with
    | .ok text => splitLinesKeep text.toList
    | .error _ => []

/-- A file includes another. -/
def Includes (path included : String) : Prop :=
  ∃ line ∈ linesOf files path, ∃ own, includedBy line = some (own, included)

def copied (included : String → List Char → List (List Char)) (indent line : List Char) :
    List (List Char) :=
  match includedBy line with
  | none => [indent ++ line]
  | some (own, path) => included path (indent ++ own)

/-- The lines of a file with their ends, the included ones in the places of their includes. -/
def copiedLines : Nat → String → List Char → List (List Char)
  | 0, _, _ => []
  | levels + 1, path, indent =>
    (linesOf files path).flatMap (copied (copiedLines levels) indent)

/-- The lines of a file with every include replaced by the lines it includes. -/
def structuralLines : Nat → String → List Char → List (List Char)
  | 0, _, _ => []
  | levels + 1, path, indent =>
    (linesOf files path).flatMap fun line =>
      match includedBy line with
      | none => [indent ++ body line]
      | some (own, included) => structuralLines levels included (indent ++ own)

/-- A file whose last line, or that of the last file it includes, has no end. -/
inductive OpenEnd : String → Prop
  | plain {path : String} {line : List Char} (hlast : (linesOf files path).getLast? = some line)
      (hplain : includedBy line = none) (hopen : ended line = false) : OpenEnd path
  | nested {path included : String} {line own : List Char}
      (hlast : (linesOf files path).getLast? = some line)
      (hincluded : includedBy line = some (own, included)) (hopen : OpenEnd included) :
      OpenEnd path

/-- No file is included before a further line unless it has its last line end. -/
def SeamsClosed (main : String) : Prop :=
  ∀ path, Relation.ReflTransGen (Includes files) main path →
    ∀ line ∈ (linesOf files path).dropLast, ∀ own included,
      includedBy line = some (own, included) → ¬ OpenEnd files included

/-- Whatever is included from here on can be expanded. -/
def Expandable : Nat → List String → String → Prop
  | 0, _, _ => False
  | levels + 1, stack, path =>
    path ∉ stack ∧ Readable files path ∧
      ∀ included, Includes files path included → Expandable levels (stack ++ [path]) included

end Source

section Line

variable {line : List Char}

theorem decodeLayoutFile_ok {path : String} {content : ByteArray} {text : String} :
    decodeLayoutFile path content = .ok text ↔ DecodedAs content text := by
  unfold decodeLayoutFile
  constructor
  · intro h
    split at h
    · cases h
    · rename_i hsmall
      split at h
      · cases h
      · rename_i decoded hutf8
        split at h
        · cases h
        · rename_i hplain
          split at h
          · cases h
          · rename_i hshort
            obtain rfl := Except.ok.inj h
            rw [not_or] at hplain
            exact ⟨not_lt.mp hsmall, hutf8, hplain.1, hplain.2, not_lt.mp hshort⟩
  · rintro ⟨hsmall, hutf8, hnul, htab, hshort⟩
    rw [if_neg (not_lt.mpr hsmall), hutf8]
    simp only
    rw [if_neg (not_or.mpr ⟨hnul, htab⟩), if_neg (not_lt.mpr hshort)]

theorem AcceptedLine.isPiece (h : AcceptedLine line) (hline : IsLine line) : IsPiece line := by
  have hreturn := h.no_return
  cases hline with
  | last hne hclear => exact .last hne hclear
  | @ended b c hclear hbreak =>
    refine .ended hclear hbreak ?_
    rintro rfl
    simp [chomp] at hreturn
  | @crlf b hclear =>
    have hlast : (b ++ ['\r', '\n']).dropLast = b ++ ['\r'] := by
      rw [← List.singleton_append, ← List.append_assoc, List.dropLast_concat]
    simp [chomp, hlast] at hreturn

theorem clear_of_includedBy {own : List Char} {path : String}
    (h : includedBy line = some (own, path)) : ∀ c ∈ own, isLineBreak c = false := by
  unfold includedBy at h
  split at h
  · obtain ⟨directive, hmatch, h⟩ := Option.bind_eq_some_iff.mp h
    obtain ⟨target, -, h⟩ := Option.map_eq_some_iff.mp h
    obtain ⟨rfl, -⟩ := Prod.mk.inj h
    have hown : directive.1 = (chomp line).takeWhile (· = ' ') := by
      simp only [matchInclude] at hmatch
      split at hmatch
      · split at hmatch
        · cases hmatch
        · split at hmatch
          · split at hmatch <;> cases hmatch
            rfl
          · split at hmatch <;> cases hmatch
            rfl
      · cases hmatch
    intro c hc
    rw [hown] at hc
    have hblank := List.mem_takeWhile_imp hc
    obtain rfl := of_decide_eq_true hblank
    decide
  · cases h

end Line

section Emission

/-- What an expansion adds to the output and to the files it has read. -/
structure Emits (e e' : Expansion) (pieces : List (List Char)) (reads : String → Prop) : Prop where
  output : e'.output = e.output ++ pieces
  consumed : ∀ path, path ∈ e'.consumed ↔ path ∈ e.consumed ∨ reads path

/-- There is room in the budget for further lines. -/
def FitsBudget (e : Expansion) (pieces : List (List Char)) : Prop :=
  e.bytes + (pieces.map encodedSize).sum ≤ maxLayoutTotalBytes ∧
    e.lines + pieces.length ≤ maxLayoutLines

variable {e e' e'' : Expansion} {pieces more : List (List Char)} {reads reads' : String → Prop}

theorem Emits.trans (h : Emits e e' pieces reads) (h' : Emits e' e'' more reads') :
    Emits e e'' (pieces ++ more) fun path => reads path ∨ reads' path where
  output := by rw [h'.output, h.output, List.append_assoc]
  consumed path := by rw [h'.consumed, h.consumed, or_assoc]

theorem Emits.bytes (h : Emits e e' pieces reads) :
    e'.bytes = e.bytes + (pieces.map encodedSize).sum := by
  rw [e'.bytes_eq, h.output, List.map_append, List.sum_append, e.bytes_eq]

theorem Emits.lines (h : Emits e e' pieces reads) : e'.lines = e.lines + pieces.length := by
  rw [e'.lines_eq, h.output, List.length_append, e.lines_eq]

theorem Emits.fits (h : Emits e e' pieces reads) : FitsBudget e pieces :=
  ⟨h.bytes ▸ e'.bytes_le, h.lines ▸ e'.lines_le⟩

theorem FitsBudget.left (h : FitsBudget e (pieces ++ more)) : FitsBudget e pieces := by
  unfold FitsBudget at *
  simp only [List.map_append, List.sum_append, List.length_append] at h
  omega

theorem FitsBudget.right (h : FitsBudget e (pieces ++ more)) (he : Emits e e' pieces reads) :
    FitsBudget e' more := by
  unfold FitsBudget at *
  simp only [List.map_append, List.sum_append, List.length_append] at h
  rw [he.bytes, he.lines]
  omega

theorem fitsBudget_consume {path : String} : FitsBudget (e.consume path) pieces ↔ FitsBudget e pieces := Iff.rfl

theorem append_ok {line : List Char} (h : e.append line = .ok e') :
    Emits e e' [line] fun _ => False := by
  unfold Expansion.append at h
  split at h
  · split at h
    · obtain rfl := Except.ok.inj h
      exact ⟨rfl, by simp⟩
    · cases h
  · cases h

theorem append_returns {line : List Char} (h : FitsBudget e [line]) : ∃ e', e.append line = .ok e' := by
  obtain ⟨hbytes, hlines⟩ := h
  simp only [List.map_singleton, List.sum_singleton, List.length_singleton] at hbytes hlines
  unfold Expansion.append
  rw [dif_pos hbytes, dif_pos hlines]
  exact ⟨_, rfl⟩

end Emission

section Loop

variable {expand : String → List Char → Expansion → Except LayoutFault Expansion} {path : String}
  {indent : List Char} {e e' : Expansion} {copies : String → List Char → List (List Char)}
  {reads : String → String → Prop} {good : String → Prop}

theorem expandLine_ok {line : List Char × Nat} :
    expandLine expand path indent e line = .ok e' ↔ AcceptedLine line.1 ∧
      match includedBy line.1 with
      | none => e.append (indent ++ line.1) = .ok e'
      | some (own, included) => expand included (indent ++ own) e = .ok e' := by
  have haccepted : AcceptedLine line.1 ↔ (chomp line.1).getLast? ≠ some '\r' ∧
      (includeMarker <:+: chomp line.1 → (includedBy line.1).isSome = true) :=
    ⟨fun h => ⟨h.1, h.2⟩, fun h => ⟨h.1, h.2⟩⟩
  rw [haccepted]
  unfold expandLine
  by_cases hreturn : (chomp line.1).getLast? = some '\r'
  · simp [hreturn]
  · by_cases hmarker : includeMarker <:+: chomp line.1
    · cases hmatch : matchInclude (chomp line.1) with
      | none => simp [includedBy, hreturn, hmarker, hmatch]
      | some directive =>
        cases hpath : includePath (String.ofList directive.2) with
        | error fault =>
          simp [includedBy, hreturn, hmarker, hmatch, hpath, Except.toOption]
        | ok included =>
          simp [includedBy, hreturn, hmarker, hmatch, hpath, Except.toOption]
    · simp [includedBy, hreturn, hmarker]

/-- What holds of an include directive of some of the lines. -/
def ForSome (lines : List (List Char)) (p : String → Prop) : Prop :=
  ∃ line ∈ lines, ∃ own included, includedBy line = some (own, included) ∧ p included

theorem forSome_cons (line : List Char) (lines : List (List Char)) {p : String → Prop} :
    ForSome (line :: lines) p ↔ ForSome [line] p ∨ ForSome lines p := by
  simp [ForSome]

theorem expandLine_emits {line : List Char × Nat}
    (hexpand : ∀ included indent e e', expand included indent e = .ok e' →
      good included ∧ Emits e e' (copies included indent) (reads included))
    (h : expandLine expand path indent e line = .ok e') :
    AcceptedLine line.1 ∧ ¬ ForSome [line.1] (¬ good ·) ∧
      Emits e e' (copied copies indent line.1) fun p => ForSome [line.1] (reads · p) := by
  obtain ⟨haccepted, h⟩ := expandLine_ok.mp h
  refine ⟨haccepted, ?_⟩
  unfold copied
  cases hincluded : includedBy line.1 with
  | none =>
    rw [hincluded] at h
    have hemits := append_ok h
    simpa [ForSome, hincluded] using hemits
  | some directive =>
    obtain ⟨own, included⟩ := directive
    rw [hincluded] at h
    obtain ⟨hgood, hemits⟩ := hexpand _ _ _ _ h
    constructor
    · simpa [ForSome, hincluded] using hgood
    · refine ⟨hemits.output, fun p => ?_⟩
      simpa [ForSome, hincluded] using hemits.consumed p

theorem expandLines_emits {lines : List (List Char)}
    (hexpand : ∀ included indent e e', expand included indent e = .ok e' →
      good included ∧ Emits e e' (copies included indent) (reads included)) {n : Nat}
    (h : (lines.zipIdx n).foldlM (expandLine expand path indent) e = .ok e') :
    (∀ line ∈ lines, AcceptedLine line) ∧ ¬ ForSome lines (¬ good ·) ∧
      Emits e e' (lines.flatMap (copied copies indent)) fun p => ForSome lines (reads · p) := by
  induction lines generalizing e n with
  | nil =>
    obtain rfl := Except.ok.inj h
    exact ⟨by simp, by simp [ForSome], by simp, by simp [ForSome]⟩
  | cons line lines ih =>
    rw [List.zipIdx_cons, List.foldlM_cons] at h
    obtain ⟨e₁, hline, hrest⟩ := Outcome.bind_eq_ok.mp h
    obtain ⟨haccepted, hgood, hemits⟩ := expandLine_emits hexpand hline
    obtain ⟨haccepted', hgood', hemits'⟩ := ih hrest
    refine ⟨List.forall_mem_cons.mpr ⟨haccepted, haccepted'⟩, ?_, ?_⟩
    · rw [forSome_cons]
      exact not_or.mpr ⟨hgood, hgood'⟩
    · simp only [forSome_cons line lines]
      exact hemits.trans hemits'

theorem expandLines_returns {lines : List (List Char)}
    (haccepted : ∀ line ∈ lines, AcceptedLine line)
    (hemits : ∀ included indent e e', expand included indent e = .ok e' →
      good included ∧ Emits e e' (copies included indent) (reads included))
    (hexpand : ∀ line ∈ lines, ∀ own included, includedBy line = some (own, included) →
      ∀ indent e, FitsBudget e (copies included indent) → ∃ e', expand included indent e = .ok e')
    {n : Nat} (h : FitsBudget e (lines.flatMap (copied copies indent))) :
    ∃ e', (lines.zipIdx n).foldlM (expandLine expand path indent) e = .ok e' := by
  induction lines generalizing e n with
  | nil => exact ⟨e, rfl⟩
  | cons line lines ih =>
    rw [List.flatMap_cons] at h
    obtain ⟨hline, hlines⟩ := List.forall_mem_cons.mp haccepted
    obtain ⟨e₁, he₁⟩ : ∃ e₁, expandLine expand path indent e (line, n) = .ok e₁ := by
      simp only [expandLine_ok, hline, true_and]
      have hfits := h.left
      unfold copied at hfits
      cases hincluded : includedBy line with
      | none =>
        rw [hincluded] at hfits
        exact append_returns hfits
      | some directive =>
        rw [hincluded] at hfits
        exact hexpand line List.mem_cons_self _ _ hincluded _ _ hfits
    obtain ⟨e', he'⟩ := ih hlines (fun l hl => hexpand l (List.mem_cons_of_mem _ hl))
      (h.right (expandLine_emits hemits he₁).2.2)
    refine ⟨e', ?_⟩
    rw [List.zipIdx_cons, List.foldlM_cons]
    exact Outcome.bind_eq_ok.mpr ⟨e₁, he₁, he'⟩

end Loop

section File

variable {files : Dict String ByteArray} {path : String} {e e' : Expansion}

theorem linesOf_eq {content : ByteArray} {text : String} (hfound : Dict.get? path files = some content)
    (hdecoded : DecodedAs content text) : linesOf files path = splitLinesKeep text.toList := by
  unfold linesOf
  rw [hfound]
  simp only [decodeLayoutFile_ok.mpr hdecoded]

theorem Readable.accepted (h : Readable files path) {line : List Char}
    (hline : line ∈ linesOf files path) : AcceptedLine line := by
  obtain ⟨content, text, hfound, hdecoded, haccepted⟩ := h
  exact haccepted line (linesOf_eq hfound hdecoded ▸ hline)

theorem forSome_linesOf {p : String → Prop} :
    ForSome (linesOf files path) p ↔ ∃ included, Includes files path included ∧ p included := by
  constructor
  · rintro ⟨line, hline, own, included, hincluded, hp⟩
    exact ⟨included, ⟨line, hline, own, hincluded⟩, hp⟩
  · rintro ⟨included, ⟨line, hline, own, hincluded⟩, hp⟩
    exact ⟨line, hline, own, included, hincluded, hp⟩

/-- What an expansion which returns has met, written and read. -/
theorem expandFile_emits {levels : Nat} {stack : List String} {indent : List Char}
    (h : expandFile files levels path stack indent e = .ok e') :
    Expandable files levels stack path ∧
      Emits e e' (copiedLines files levels path indent)
        (Relation.ReflTransGen (Includes files) path) := by
  induction levels generalizing path stack indent e e' with
  | zero => cases h
  | succ levels ih =>
    unfold expandFile at h
    split at h
    · cases h
    · rename_i hstack
      split at h
      · cases h
      · rename_i content hfound
        obtain ⟨text, htext, h⟩ := Outcome.bind_eq_ok.mp h
        have hdecoded := decodeLayoutFile_ok.mp htext
        have hexpand : ∀ included indent e e',
            expandFile files levels included (stack ++ [path]) indent e = .ok e' →
              Expandable files levels (stack ++ [path]) included ∧
                Emits e e' (copiedLines files levels included indent)
                  (Relation.ReflTransGen (Includes files) included) :=
          fun _ _ _ _ => ih
        obtain ⟨haccepted, hgood, hemits⟩ := expandLines_emits hexpand h
        rw [← linesOf_eq hfound hdecoded] at hemits hgood
        rw [forSome_linesOf] at hgood
        push Not at hgood
        refine ⟨⟨hstack, ⟨content, text, hfound, hdecoded, haccepted⟩, hgood⟩, hemits.output, ?_⟩
        intro p
        rw [hemits.consumed, forSome_linesOf, Relation.ReflTransGen.cases_head_iff]
        simp only [Expansion.consume, List.mem_insert_iff]
        constructor
        · rintro ((rfl | hp) | hp)
          · exact .inr (.inl rfl)
          · exact .inl hp
          · exact .inr (.inr hp)
        · rintro (hp | rfl | hp)
          · exact .inl (.inr hp)
          · exact .inl (.inl rfl)
          · exact .inr hp

/-- Where nothing is in the way and the budget suffices, the expansion returns. -/
theorem expandFile_returns {levels : Nat} {stack : List String} {indent : List Char}
    (h : Expandable files levels stack path)
    (hfits : FitsBudget e (copiedLines files levels path indent)) :
    ∃ e', expandFile files levels path stack indent e = .ok e' := by
  induction levels generalizing path stack indent e with
  | zero => exact h.elim
  | succ levels ih =>
    obtain ⟨hstack, ⟨content, text, hfound, hdecoded, haccepted⟩, hincluded⟩ := h
    have hlines := linesOf_eq hfound hdecoded
    have hemits : ∀ included indent e e',
        expandFile files levels included (stack ++ [path]) indent e = .ok e' →
          Expandable files levels (stack ++ [path]) included ∧
            Emits e e' (copiedLines files levels included indent)
              (Relation.ReflTransGen (Includes files) included) :=
      fun _ _ _ _ => expandFile_emits
    have hexpand : ∀ line ∈ splitLinesKeep text.toList, ∀ own included,
        includedBy line = some (own, included) → ∀ indent e,
          FitsBudget e (copiedLines files levels included indent) →
            ∃ e', expandFile files levels included (stack ++ [path]) indent e = .ok e' :=
      fun line hline own included hby _ _ => ih (hincluded included ⟨line, hlines ▸ hline, own, hby⟩)
    rw [copiedLines, hlines] at hfits
    obtain ⟨e', he'⟩ := expandLines_returns (n := 1) haccepted hemits hexpand
      (fitsBudget_consume.mpr hfits)
    refine ⟨e', ?_⟩
    unfold expandFile
    rw [if_neg hstack, hfound]
    exact Outcome.bind_eq_ok.mpr ⟨text, decodeLayoutFile_ok.mpr hdecoded, he'⟩

end File

section Chains

variable (files : Dict String ByteArray)

/-- A chain of includes has no cycle, is not too deep and ends in a readable file. -/
structure GoodChain (levels : Nat) (path : String) (chain : List String) : Prop where
  no_cycle : (path :: chain).Nodup
  depth : (path :: chain).length ≤ levels
  readable : Readable files ((path :: chain).getLast (List.cons_ne_nil _ _))

variable {files}

/-- All that can be in the way of an expansion is on some chain of includes. -/
theorem expandable_iff {levels : Nat} {stack : List String} {path : String} :
    Expandable files levels stack path ↔ ∀ chain, List.IsChain (Includes files) (path :: chain) →
      GoodChain files levels path chain ∧ ∀ p ∈ path :: chain, p ∉ stack := by
  induction levels generalizing stack path with
  | zero =>
    constructor
    · exact False.elim
    · intro h
      exact absurd (h [] (.singleton _)).1.depth (by simp)
  | succ levels ih =>
    constructor
    · rintro ⟨hstack, hreadable, hincluded⟩ chain hchain
      cases chain with
      | nil =>
        refine ⟨⟨by simp, by simp, hreadable⟩, ?_⟩
        simpa using hstack
      | cons included chain =>
        rw [List.isChain_cons_cons] at hchain
        obtain ⟨⟨hnodup, hdepth, hlast⟩, hfree⟩ :=
          ih.mp (hincluded included hchain.1) chain hchain.2
        simp only [List.mem_append, List.mem_singleton, not_or] at hfree
        refine ⟨⟨List.nodup_cons.mpr ⟨fun hmem => (hfree path hmem).2 rfl, hnodup⟩, ?_, hlast⟩, ?_⟩
        · exact Nat.succ_le_succ hdepth
        · exact List.forall_mem_cons.mpr ⟨hstack, fun p hp => (hfree p hp).1⟩
    · intro h
      obtain ⟨hgood, hfree⟩ := h [] (.singleton _)
      refine ⟨hfree path List.mem_cons_self, hgood.readable, fun included hincludes => ?_⟩
      rw [ih]
      intro chain hchain
      obtain ⟨⟨hnodup, hdepth, hlast⟩, hfree⟩ :=
        h (included :: chain) (List.isChain_cons_cons.mpr ⟨hincludes, hchain⟩)
      obtain ⟨hnew, hnodup⟩ := List.nodup_cons.mp hnodup
      refine ⟨⟨hnodup, Nat.le_of_succ_le_succ hdepth, hlast⟩, fun p hp => ?_⟩
      rw [List.mem_append, List.mem_singleton, not_or]
      refine ⟨hfree p (List.mem_cons_of_mem _ hp), ?_⟩
      rintro rfl
      exact hnew hp

end Chains

section Seams

variable {files : Dict String ByteArray} {levels : Nat} {stack : List String} {path : String}
  {indent : List Char}

theorem mem_copied {copies : String → List Char → List (List Char)} {line piece : List Char}
    (h : piece ∈ copied copies indent line) : piece = indent ++ line ∨
      ∃ own included, includedBy line = some (own, included) ∧
        piece ∈ copies included (indent ++ own) := by
  unfold copied at h
  cases hincluded : includedBy line with
  | none =>
    rw [hincluded] at h
    exact .inl (List.mem_singleton.mp h)
  | some directive =>
    rw [hincluded] at h
    exact .inr ⟨directive.1, directive.2, rfl, h⟩

theorem isLine_of_linesOf {line : List Char} (h : line ∈ linesOf files path) : IsLine line := by
  unfold linesOf at h
  split at h
  · cases h
  · split at h
    · exact isLine_of_mem h
    · cases h

theorem linesOf_ended {line : List Char} (h : line ∈ (linesOf files path).dropLast) :
    ended line = true := by
  unfold linesOf at h
  split at h
  · cases h
  · split at h
    · exact ended_of_mem_dropLast h
    · cases h

theorem copiedLines_pieces (h : Expandable files levels stack path)
    (hindent : ∀ c ∈ indent, isLineBreak c = false) :
    ∀ piece ∈ copiedLines files levels path indent, IsPiece piece := by
  induction levels generalizing stack path indent with
  | zero => exact h.elim
  | succ levels ih =>
    obtain ⟨-, hreadable, hincluded⟩ := h
    intro piece hpiece
    obtain ⟨line, hline, hpiece⟩ := List.mem_flatMap.mp hpiece
    rcases mem_copied hpiece with rfl | ⟨own, included, hby, hpiece⟩
    · exact ((hreadable.accepted hline).isPiece (isLine_of_linesOf hline)).indent hindent
    · have hown := clear_of_includedBy hby
      refine ih (hincluded included ⟨line, hline, own, hby⟩) ?_ piece hpiece
      intro c hc
      exact (List.mem_append.mp hc).elim (hindent c) (hown c)

theorem map_body_copiedLines (hindent : ∀ c ∈ indent, isLineBreak c = false) :
    (copiedLines files levels path indent).map body = structuralLines files levels path indent := by
  induction levels generalizing path indent with
  | zero => rfl
  | succ levels ih =>
    rw [copiedLines, structuralLines, List.map_flatMap]
    apply List.flatMap_congr
    intro line _
    unfold copied
    cases hincluded : includedBy line with
    | none => exact congrArg (List.singleton ·) (body_indent hindent line)
    | some directive =>
      have hown := clear_of_includedBy hincluded
      exact ih fun c hc => (List.mem_append.mp hc).elim (hindent c) (hown c)

/-- Every file has a line. -/
def NoneEmpty (files : Dict String ByteArray) : Prop :=
  ∀ path content, Dict.get? path files = some content → content.size ≠ 0

theorem linesOf_ne_nil (hfiles : NoneEmpty files) (h : Readable files path) :
    linesOf files path ≠ [] := by
  obtain ⟨content, text, hfound, hdecoded, -⟩ := h
  rw [linesOf_eq hfound hdecoded]
  apply splitLinesKeep_ne_nil
  intro hempty
  have htext : text = "" := String.toList_eq_nil_iff.mp hempty
  have hutf8 := hdecoded.utf8
  unfold String.fromUTF8? at hutf8
  split at hutf8
  · apply hfiles path content hfound
    rw [← Option.some.inj hutf8] at htext
    have hbytes : content = "".toByteArray := congrArg String.toByteArray htext
    rw [hbytes]
    rfl
  · cases hutf8

theorem copiedLines_ne_nil (hfiles : NoneEmpty files) (h : Expandable files levels stack path) :
    copiedLines files levels path indent ≠ [] := by
  induction levels generalizing stack path indent with
  | zero => exact h.elim
  | succ levels ih =>
    obtain ⟨-, hreadable, hincluded⟩ := h
    obtain ⟨line, lines, hlines⟩ := List.exists_cons_of_ne_nil (linesOf_ne_nil hfiles hreadable)
    rw [copiedLines, hlines, List.flatMap_cons]
    apply List.append_ne_nil_of_left_ne_nil
    unfold copied
    cases hby : includedBy line with
    | none => exact List.cons_ne_nil _ _
    | some directive =>
      exact ih (hincluded _ ⟨line, hlines ▸ List.mem_cons_self, _, hby⟩)

theorem copied_ne_nil (hfiles : NoneEmpty files) {line : List Char}
    (h : ∀ own included, includedBy line = some (own, included) →
      Expandable files levels stack included) :
    copied (copiedLines files levels) indent line ≠ [] := by
  unfold copied
  cases hby : includedBy line with
  | none => exact List.cons_ne_nil _ _
  | some directive => exact copiedLines_ne_nil hfiles (h _ _ hby)

theorem openEnd_plain {line : List Char} (hlast : (linesOf files path).getLast? = some line)
    (hplain : includedBy line = none) : OpenEnd files path ↔ ended line = false := by
  constructor
  · intro h
    cases h with
    | plain hlast' _ hopen => exact Option.some.inj (hlast'.symm.trans hlast) ▸ hopen
    | nested hlast' hincluded _ =>
      rw [Option.some.inj (hlast'.symm.trans hlast), hplain] at hincluded
      cases hincluded
  · exact .plain hlast hplain

theorem openEnd_nested {line own : List Char} {included : String}
    (hlast : (linesOf files path).getLast? = some line)
    (hby : includedBy line = some (own, included)) :
    OpenEnd files path ↔ OpenEnd files included := by
  constructor
  · intro h
    cases h with
    | plain hlast' hplain _ =>
      rw [Option.some.inj (hlast'.symm.trans hlast), hby] at hplain
      cases hplain
    | nested hlast' hincluded hopen =>
      rw [Option.some.inj (hlast'.symm.trans hlast), hby] at hincluded
      exact (Prod.mk.inj (Option.some.inj hincluded)).2 ▸ hopen
  · exact .nested hlast hby

theorem copiedLines_concat {init : List (List Char)} {last : List Char}
    (hlines : linesOf files path = init ++ [last]) :
    copiedLines files (levels + 1) path indent =
      init.flatMap (copied (copiedLines files levels) indent) ++
        copied (copiedLines files levels) indent last := by
  rw [copiedLines, hlines, List.flatMap_append, List.flatMap_singleton]

/-- The last of the copied lines has an end unless the file ends open. -/
theorem openEnd_iff (hfiles : NoneEmpty files) (h : Expandable files levels stack path)
    {piece : List Char} (hpiece : (copiedLines files levels path indent).getLast? = some piece) :
    OpenEnd files path ↔ ended piece = false := by
  induction levels generalizing stack path indent with
  | zero => exact h.elim
  | succ levels ih =>
    obtain ⟨-, hreadable, hincluded⟩ := h
    have hne := linesOf_ne_nil hfiles hreadable
    have hlines := (List.dropLast_append_getLast hne).symm
    have hlast := List.getLast?_eq_some_getLast hne
    have hmem := List.getLast_mem hne
    have hcopied : copied (copiedLines files levels) indent ((linesOf files path).getLast hne) ≠ [] :=
      copied_ne_nil hfiles fun own included hby => hincluded included ⟨_, hmem, own, hby⟩
    rw [copiedLines_concat hlines, List.getLast?_append_of_ne_nil _ hcopied] at hpiece
    unfold copied at hpiece
    cases hby : includedBy ((linesOf files path).getLast hne) with
    | none =>
      rw [hby] at hpiece
      have hcopy : indent ++ (linesOf files path).getLast hne = piece := Option.some.inj hpiece
      rw [openEnd_plain hlast hby, ← hcopy, ended_indent (isLine_of_linesOf hmem).ne_nil]
    | some directive =>
      rw [hby] at hpiece
      rw [openEnd_nested hlast hby]
      exact ih (hincluded _ ⟨_, hmem, _, hby⟩) hpiece

theorem seamsClosed_iff : SeamsClosed files path ↔
    (∀ line ∈ (linesOf files path).dropLast, ∀ own included,
      includedBy line = some (own, included) → ¬ OpenEnd files included) ∧
    ∀ included, Includes files path included → SeamsClosed files included := by
  constructor
  · intro h
    exact ⟨h path .refl, fun included hincludes p hp => h p (hp.head hincludes)⟩
  · rintro ⟨hhere, hthere⟩ p hp
    rcases Relation.ReflTransGen.cases_head_iff.mp hp with rfl | ⟨included, hincludes, hp⟩
    · exact hhere
    · exact hthere included hincludes p hp

theorem copiedLines_ended (hfiles : NoneEmpty files) (h : Expandable files levels stack path) :
    (∀ piece ∈ copiedLines files levels path indent, ended piece = true) ↔
      ¬ OpenEnd files path ∧
        ∀ piece ∈ (copiedLines files levels path indent).dropLast, ended piece = true := by
  have hne : copiedLines files levels path indent ≠ [] := copiedLines_ne_nil hfiles h
  rw [openEnd_iff hfiles h (List.getLast?_eq_some_getLast hne), Bool.not_eq_false]
  conv_lhs => rw [← List.dropLast_append_getLast hne]
  simp only [List.forall_mem_append, List.forall_mem_singleton, and_comm]

/-- Only the last copied line may be without an end, exactly if all seams are closed. -/
theorem seams_iff (hfiles : NoneEmpty files) (h : Expandable files levels stack path) :
    (∀ piece ∈ (copiedLines files levels path indent).dropLast, ended piece = true) ↔
      SeamsClosed files path := by
  induction levels generalizing stack path indent with
  | zero => exact h.elim
  | succ levels ih =>
    obtain ⟨-, hreadable, hincluded⟩ := h
    have hne := linesOf_ne_nil hfiles hreadable
    have hlines := (List.dropLast_append_getLast hne).symm
    have hmem := List.getLast_mem hne
    have hcopied : copied (copiedLines files levels) indent ((linesOf files path).getLast hne) ≠ [] :=
      copied_ne_nil hfiles fun own included hby => hincluded included ⟨_, hmem, own, hby⟩
    have hhere : ∀ line ∈ (linesOf files path).dropLast,
        (∀ piece ∈ copied (copiedLines files levels) indent line, ended piece = true) ↔
          ∀ own included, includedBy line = some (own, included) →
            ¬ OpenEnd files included ∧ SeamsClosed files included := by
      intro line hline
      have hin := List.mem_of_mem_dropLast hline
      unfold copied
      cases hby : includedBy line with
      | none =>
        have hended := ended_indent (isLine_of_linesOf hin).ne_nil indent
        simpa [linesOf_ended hline] using hended
      | some directive =>
        have hexpandable := hincluded _ ⟨line, hin, _, hby⟩
        simp only [copiedLines_ended hfiles hexpandable, ih hexpandable]
        grind
    have hend : (∀ piece ∈ (copied (copiedLines files levels) indent
        ((linesOf files path).getLast hne)).dropLast, ended piece = true) ↔
          ∀ own included, includedBy ((linesOf files path).getLast hne) = some (own, included) →
            SeamsClosed files included := by
      unfold copied
      cases hby : includedBy ((linesOf files path).getLast hne) with
      | none => simp
      | some directive =>
        simp only [ih (hincluded _ ⟨_, hmem, _, hby⟩)]
        grind
    rw [copiedLines_concat hlines, List.dropLast_append_of_ne_nil hcopied, List.forall_mem_append,
      hend, List.forall_mem_flatMap, seamsClosed_iff]
    constructor
    · rintro ⟨hinit, hlast⟩
      refine ⟨fun line hline own included hby =>
        ((hhere line hline).mp (hinit line hline) own included hby).1, ?_⟩
      rintro included ⟨line, hline, own, hby⟩
      rw [hlines] at hline
      rcases List.mem_append.mp hline with hline | hline
      · exact ((hhere line hline).mp (hinit line hline) own included hby).2
      · obtain rfl := List.mem_singleton.mp hline
        exact hlast own included hby
    · rintro ⟨hopen, hseams⟩
      refine ⟨fun line hline => (hhere line hline).mpr fun own included hby =>
        ⟨hopen line hline own included hby, hseams included ?_⟩,
        fun own included hby => hseams included ⟨_, hmem, own, hby⟩⟩
      exact ⟨line, List.mem_of_mem_dropLast hline, own, hby⟩

end Seams

section Expansion

variable {files : List (String × ByteArray)} {byPath : Dict String ByteArray}

theorem validateFiles_nonempty {total : Nat} {result : Dict String ByteArray}
    (h : validateFiles files total result = .ok byPath) (hresult : NoneEmpty result) :
    NoneEmpty byPath := by
  induction files generalizing total result with
  | nil =>
    unfold validateFiles at h
    split at h
    · cases h
    · exact Except.ok.inj h ▸ hresult
  | cons file files ih =>
    obtain ⟨path, content⟩ := file
    unfold validateFiles at h
    split at h
    · cases h
    · split at h
      · cases h
      · split at h
        · cases h
        · rename_i hsize
          apply ih h
          intro p c hget
          rw [Dict.get?_insert] at hget
          split at hget
          · obtain rfl := Option.some.inj hget
            exact fun hzero => hsize (.inl hzero)
          · exact hresult p c hget

theorem validatedFileMapping_nonempty (h : validatedFileMapping files = .ok byPath) :
    NoneEmpty byPath := by
  unfold validatedFileMapping at h
  split at h
  · cases h
  · exact validateFiles_nonempty h fun _ _ hget => by cases hget

/-- The lines of a layout, ends included, keep within the budget. -/
def WithinBudget (byPath : Dict String ByteArray) (main : String) : Prop :=
  ((copiedLines byPath (maxIncludeDepth + 1) main []).map encodedSize).sum ≤
      maxLayoutTotalBytes ∧
    (copiedLines byPath (maxIncludeDepth + 1) main []).length ≤ maxLayoutLines

theorem fitsBudget_start {main : String} :
    FitsBudget {} (copiedLines byPath (maxIncludeDepth + 1) main []) ↔ WithinBudget byPath main := by
  simp [FitsBudget, WithinBudget]

theorem expandMain_returns {main : String} : (∃ e, expandMain byPath main = .ok e) ↔
    Expandable byPath (maxIncludeDepth + 1) [] main ∧ WithinBudget byPath main := by
  constructor
  · rintro ⟨e, he⟩
    obtain ⟨hexpandable, hemits⟩ := expandFile_emits he
    exact ⟨hexpandable, fitsBudget_start.mp hemits.fits⟩
  · rintro ⟨hexpandable, hbudget⟩
    exact expandFile_returns hexpandable (fitsBudget_start.mpr hbudget)

theorem expandMain_structural (hfiles : NoneEmpty byPath) {main : String} {e : Expansion}
    (h : expandMain byPath main = .ok e) :
    splitLines e.output.flatten = structuralLines byPath (maxIncludeDepth + 1) main [] ↔
      SeamsClosed byPath main := by
  obtain ⟨hexpandable, hemits⟩ := expandFile_emits h
  have hclear : ∀ c ∈ ([] : List Char), isLineBreak c = false := by simp
  have hpieces := copiedLines_pieces hexpandable hclear
  have houtput : e.output = copiedLines byPath (maxIncludeDepth + 1) main [] := hemits.output
  rw [← map_body_copiedLines hclear, houtput, ← seams_iff hfiles hexpandable]
  constructor
  · exact ended_of_splitLines_flatten hpieces
  · exact splitLines_flatten hpieces

/-- An expansion fails on a bad chain or an exhausted budget, and else keeps closed lines apart. -/
theorem include_expansion_structural (byPath : Dict String ByteArray) (main : String) :
    ((∃ e, expandMain byPath main = .ok e) ↔
      (∀ chain, List.IsChain (Includes byPath) (main :: chain) →
        GoodChain byPath (maxIncludeDepth + 1) main chain) ∧ WithinBudget byPath main) ∧
    ∀ files e, validatedFileMapping files = .ok byPath → expandMain byPath main = .ok e →
      (splitLines e.output.flatten = structuralLines byPath (maxIncludeDepth + 1) main [] ↔
        SeamsClosed byPath main) := by
  constructor
  · rw [expandMain_returns, expandable_iff]
    simp
  · intro files e hfiles he
    exact expandMain_structural (validatedFileMapping_nonempty hfiles) he

/-- A layout of two lines, the first of which includes a file. -/
def dockFiles (fonts : String) : List (String × ByteArray) :=
  [(".fluxbox/layouts/dock.yaml", "  <INCLUDE fonts>\nscreens: []\n".toUTF8),
    (".fluxbox/layouts/fonts.yaml", fonts.toUTF8)]

theorem include_expansion_structural_closed :
    ∃ byPath e, validatedFileMapping (dockFiles "dpi: 96\n") = .ok byPath ∧
      expandMain byPath ".fluxbox/layouts/dock.yaml" = .ok e ∧
      (splitLines e.output.flatten =
        structuralLines byPath (maxIncludeDepth + 1) ".fluxbox/layouts/dock.yaml" [] ↔
          SeamsClosed byPath ".fluxbox/layouts/dock.yaml") ∧
      (∀ chain, List.IsChain (Includes byPath) (".fluxbox/layouts/dock.yaml" :: chain) →
        GoodChain byPath (maxIncludeDepth + 1) ".fluxbox/layouts/dock.yaml" chain) := by
  have hfiles : validatedFileMapping (dockFiles "dpi: 96\n") = .ok (dockFiles "dpi: 96\n") := by
    decide +kernel
  have hreturns : (expandMain (dockFiles "dpi: 96\n") ".fluxbox/layouts/dock.yaml").toOption.map
      (·.lines) = some 2 := by
    decide +kernel
  obtain ⟨e, he, -⟩ := Outcome.eq_ok_of_toOption hreturns
  obtain ⟨hreturns, hstructural⟩ := include_expansion_structural (dockFiles "dpi: 96\n")
    ".fluxbox/layouts/dock.yaml"
  exact ⟨_, e, hfiles, he, hstructural _ e hfiles he, (hreturns.mp ⟨e, he⟩).1⟩

/-- The last line of an included file runs into the line after the include. -/
theorem include_merges_lines :
    ∃ byPath e, validatedFileMapping (dockFiles "dpi: 96") = .ok byPath ∧
      expandMain byPath ".fluxbox/layouts/dock.yaml" = .ok e ∧
      splitLines e.output.flatten = ["  dpi: 96screens: []".toList] ∧
      structuralLines byPath (maxIncludeDepth + 1) ".fluxbox/layouts/dock.yaml" [] =
        ["  dpi: 96".toList, "screens: []".toList] := by
  have hfiles : validatedFileMapping (dockFiles "dpi: 96") = .ok (dockFiles "dpi: 96") := by
    decide +kernel
  have hlines : (expandMain (dockFiles "dpi: 96") ".fluxbox/layouts/dock.yaml").toOption.map
      (fun e => splitLines e.output.flatten) = some ["  dpi: 96screens: []".toList] := by
    decide +kernel
  obtain ⟨e, he, hmerged⟩ := Outcome.eq_ok_of_toOption hlines
  exact ⟨_, e, hfiles, he, hmerged, by decide +kernel⟩

end Expansion

end MonitorController
