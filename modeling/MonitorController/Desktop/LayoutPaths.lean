import MonitorController.Foundation.Outcome
import MonitorController.Foundation.PosixPath
import MonitorController.Values.Identity

/-! # Layout paths

A layout is named in four shapes and included in one. Each is turned into the
path of a YAML file, which is to lie below the layout root.
-/

namespace MonitorController

/-- What escapes the layout module: its own error, or one of the functions it calls. -/
inductive LayoutFault where
  | layoutPlanning (message : String)
  | layoutInput (path problem : String)
  | missingInput (path : String)
  | valueError
  | indexError
  deriving DecidableEq, Repr

/-- The text of a planning error, given Python's way to quote a path. -/
def LayoutFault.message (quoted : String → String) : LayoutFault → Option String
  | .layoutPlanning message => some message
  | .layoutInput path problem => some ("layout input " ++ quoted path ++ " " ++ problem)
  | .missingInput path => some ("missing injected layout input: " ++ path)
  | .valueError | .indexError => none

/-- `text.strip()`. -/
def stripText (text : String) : String := String.ofList (Words.strip isSpace text.toList)

def layoutRoot : PurePosixPath := .parse ".fluxbox/layouts"

def asciiAlnum (c : Char) : Bool :=
  ('A' ≤ c && c ≤ 'Z') || ('a' ≤ c && c ≤ 'z') || ('0' ≤ c && c ≤ '9')

/-- `_LAYOUT_NAME`. -/
def isLayoutName (name : String) : Bool :=
  match name.toList with
  | [] => false
  | c :: rest => asciiAlnum c && rest.all fun c => asciiAlnum c || c ∈ ['+', '_', '.', '-']

/-- Any other suffix gives way to `.yaml`. -/
def withYaml (candidate : PurePosixPath) : Except LayoutFault PurePosixPath :=
  if candidate.suffix = ".yaml" then .ok candidate
  else match candidate.withSuffix ".yaml" with
    | some path => .ok path
    | none => .error .valueError

def layoutCandidate (candidate : PurePosixPath) : Except LayoutFault PurePosixPath :=
  match candidate.parts with
  | [] => .error .indexError
  | [_] =>
    if isLayoutName candidate.name then .ok (layoutRoot.join candidate)
    else .error (.layoutPlanning "layout name contains unsupported characters")
  | first :: second :: _ =>
    if first = "layouts" then .ok ((PurePosixPath.parse ".fluxbox").join candidate)
    else if [first, second] = [".fluxbox", "layouts"] then .ok candidate
    else .error (.layoutPlanning "layout path is outside .fluxbox/layouts")

def layoutPath (layout : String) : Except LayoutFault String :=
  let clean := stripText layout
  let candidate := PurePosixPath.parse clean
  if clean = "" ∨ '\x00' ∈ clean.toList ∨ '\\' ∈ clean.toList then
    .error (.layoutPlanning "layout name is malformed")
  else if candidate.asPosix ≠ clean then
    .error (.layoutPlanning "layout name is not canonical")
  else if candidate.isAbsolute ∨ ".." ∈ candidate.parts then
    .error (.layoutPlanning "layout name escapes the layout root")
  else do
    let candidate ← layoutCandidate candidate
    let path ← withYaml candidate
    .ok path.asPosix

def includePath (value : String) : Except LayoutFault String :=
  let clean := stripText value
  let candidate := PurePosixPath.parse clean
  if clean = "" ∨ candidate.asPosix ≠ clean ∨ candidate.isAbsolute ∨ ".." ∈ candidate.parts ∨
      "." ∈ candidate.parts ∨ '\\' ∈ clean.toList ∨
      candidate.parts.take 2 = [".fluxbox", "layouts"] then
    .error (.layoutPlanning "layout include path is malformed")
  else do
    let path ← withYaml candidate
    .ok (layoutRoot.join path).asPosix

/-- The test of a path in `_validated_file_mapping`. -/
def acceptedInputPath (path : String) : Bool :=
  let candidate := PurePosixPath.parse path
  candidate.asPosix = path && !candidate.isAbsolute && ".." ∉ candidate.parts &&
    candidate.parts.take 2 = [".fluxbox", "layouts"] && candidate.suffix = ".yaml"

/-- A relative canonical path of a YAML file strictly below the layout root. -/
structure Contained (path : String) : Prop where
  canonical : (PurePosixPath.parse path).asPosix = path
  relative : (PurePosixPath.parse path).root = ""
  no_parent : ".." ∉ (PurePosixPath.parse path).tail
  beneath : ∃ names, names ≠ [] ∧
    (PurePosixPath.parse path).tail = ".fluxbox" :: "layouts" :: names
  yaml : ∃ stem, stem ≠ "" ∧ (PurePosixPath.parse path).name = stem ++ ".yaml"

section Yaml

variable {candidate path : PurePosixPath}

theorem suffix_yaml {stem : String} (hstem : stem ≠ "") (h : path.name = stem ++ ".yaml") :
    path.suffix = ".yaml" := by
  have hsplit := PurePosixPath.splitSuffix_ending (mt String.toList_eq_nil_iff.mp hstem)
    (show ['y', 'a', 'm', 'l'] ≠ [] by simp) (by simp)
  have hname : path.name.toList = stem.toList ++ ['.', 'y', 'a', 'm', 'l'] := by
    rw [h]
    simp
  unfold PurePosixPath.suffix
  rw [hname, hsplit]

/-- The file has the stem of the candidate, whatever its suffix was. -/
theorem withYaml_ok (h : withYaml candidate = .ok path) :
    candidate.stem ≠ "" ∧ candidate.tail ≠ [] ∧ path.root = candidate.root ∧
      path.tail = candidate.tail.dropLast ++ [candidate.stem ++ ".yaml"] := by
  unfold withYaml at h
  split at h
  · rename_i hsuffix
    obtain rfl := Except.ok.inj h
    have hne : candidate.suffix ≠ "" := by
      rw [hsuffix]
      decide
    have htail := PurePosixPath.tail_ne_of_suffix hne
    refine ⟨PurePosixPath.stem_ne_of_suffix hne, htail, rfl, ?_⟩
    rw [← hsuffix, PurePosixPath.stem_append_suffix]
    exact PurePosixPath.tail_eq_append_name htail
  · split at h
    · rename_i hsome
      obtain rfl := Except.ok.inj h
      exact PurePosixPath.withSuffix_eq_some hsome
    · cases h

theorem yaml_ne_parent (stem : String) : stem ++ ".yaml" ≠ ".." := by
  intro h
  have hlength := congrArg String.length h
  have hyaml : ".yaml".length = 5 := rfl
  have hparent : "..".length = 2 := rfl
  rw [String.length_append, hyaml, hparent] at hlength
  omega

theorem contained_of_tail {names : List String} {stem : String} (hrelative : path.root = "")
    (hparent : ".." ∉ names) (hstem : stem ≠ "")
    (htail : path.tail = ".fluxbox" :: "layouts" :: (names ++ [stem ++ ".yaml"])) :
    Contained path.asPosix ∧ acceptedInputPath path.asPosix = true := by
  have hparse := PurePosixPath.parse_asPosix hrelative
  have hname : path.name = stem ++ ".yaml" := by
    rw [PurePosixPath.name, htail, ← List.cons_append, ← List.cons_append, List.getLast?_concat,
      Option.getD_some]
  have hnoParent : ".." ∉ path.tail := by
    simpa [htail, hparent] using (yaml_ne_parent stem).symm
  constructor
  · exact
      { canonical := by rw [hparse]
        relative := hparse.symm ▸ hrelative
        no_parent := hparse.symm ▸ hnoParent
        beneath := ⟨_, by simp, hparse.symm ▸ htail⟩
        yaml := ⟨_, hstem, hparse.symm ▸ hname⟩ }
  · simp only [acceptedInputPath, hparse]
    rw [htail] at hnoParent
    simpa [PurePosixPath.isAbsolute, PurePosixPath.parts, hrelative, htail,
      suffix_yaml hstem hname] using hnoParent

end Yaml

section Layout

variable {layout path : String}

/-- What a name has passed before its shape is looked at. -/
structure CleanLayout (candidate : PurePosixPath) (clean : String) : Prop where
  canonical : candidate.asPosix = clean
  relative : candidate.root = ""
  no_parent : ".." ∉ candidate.tail

theorem layoutPath_ok (h : layoutPath layout = .ok path) :
    let candidate := PurePosixPath.parse (stripText layout)
    CleanLayout candidate (stripText layout) ∧ ∃ shaped file,
      layoutCandidate candidate = .ok shaped ∧ withYaml shaped = .ok file ∧
        path = file.asPosix := by
  unfold layoutPath at h
  simp only at h
  split at h
  · cases h
  · split at h
    · cases h
    · rename_i hcanonical
      split at h
      · cases h
      · rename_i hescape
        obtain ⟨shaped, hshaped, h⟩ := Outcome.bind_eq_ok.mp h
        obtain ⟨file, hfile, h⟩ := Outcome.bind_eq_ok.mp h
        rw [not_or] at hescape
        have hrelative : (PurePosixPath.parse (stripText layout)).root = "" := by
          simpa [PurePosixPath.isAbsolute] using hescape.1
        refine ⟨⟨not_not.mp hcanonical, hrelative, ?_⟩, shaped, file, hshaped, hfile,
          (Except.ok.inj h).symm⟩
        simpa [PurePosixPath.parts, hrelative] using hescape.2

theorem layoutRoot_read : layoutRoot.root = "" ∧ layoutRoot.tail = [".fluxbox", "layouts"] ∧
    layoutRoot.asPosix = ".fluxbox/layouts" ∧ (PurePosixPath.parse ".fluxbox").root = "" ∧
    (PurePosixPath.parse ".fluxbox").tail = [".fluxbox"] := by
  decide +kernel

theorem layoutRoot_root : layoutRoot.root = "" := layoutRoot_read.1

theorem layoutRoot_tail : layoutRoot.tail = [".fluxbox", "layouts"] := layoutRoot_read.2.1

theorem join_tail {p q : PurePosixPath} (h : q.root = "") :
    (p.join q).root = p.root ∧ (p.join q).tail = p.tail ++ q.tail := by
  simp [PurePosixPath.join, PurePosixPath.isAbsolute, h]

/-- Whatever its shape, a candidate is below the root unless it is the root itself. -/
theorem layoutCandidate_ok {candidate shaped : PurePosixPath} {clean : String}
    (hclean : CleanLayout candidate clean) (h : layoutCandidate candidate = .ok shaped) :
    shaped.root = "" ∧ ".." ∉ shaped.tail ∧ ∃ names,
      shaped.tail = ".fluxbox" :: "layouts" :: names ∧
        (names = [] ↔ candidate.tail = [".fluxbox", "layouts"]) := by
  have hparts : candidate.parts = candidate.tail := by
    simp [PurePosixPath.parts, hclean.relative]
  have hparent := hclean.no_parent
  unfold layoutCandidate at h
  rw [hparts] at h
  split at h
  · cases h
  · rename_i name hname
    rw [hname] at hparent ⊢
    split at h
    · obtain rfl := Except.ok.inj h
      obtain ⟨hroot, htail⟩ := join_tail (p := layoutRoot) hclean.relative
      rw [hroot, htail, hname, layoutRoot_tail]
      refine ⟨layoutRoot_root, ?_, [name], rfl, by simp⟩
      simpa using hparent
    · cases h
  · rename_i first second rest hshape
    rw [hshape] at hparent ⊢
    split at h
    · rename_i hfirst
      obtain rfl := Except.ok.inj h
      obtain ⟨hroot, htail⟩ := join_tail (p := .parse ".fluxbox") hclean.relative
      have hfluxbox := layoutRoot_read.2.2.2.2
      rw [hroot, htail, hshape, hfluxbox, hfirst]
      refine ⟨rfl, ?_, second :: rest, rfl, by simp⟩
      simpa [hfirst] using hparent
    · split at h
      · rename_i hbeneath
        obtain rfl := Except.ok.inj h
        rw [List.cons.injEq, List.cons.injEq] at hbeneath
        obtain ⟨rfl, rfl, -⟩ := hbeneath
        rw [hshape]
        exact ⟨hclean.relative, hparent, rest, rfl, by simp⟩
      · cases h

theorem asPosix_root {candidate : PurePosixPath} {clean : String}
    (hclean : CleanLayout candidate clean) :
    candidate.tail = [".fluxbox", "layouts"] ↔ clean = ".fluxbox/layouts" := by
  constructor
  · intro htail
    rw [← hclean.canonical, ← layoutRoot_read.2.2.1, PurePosixPath.asPosix, PurePosixPath.asPosix,
      hclean.relative, htail, layoutRoot_root, layoutRoot_tail]
  · rintro rfl
    have hparse := PurePosixPath.parse_asPosix hclean.relative
    rw [← hparse, hclean.canonical]
    exact layoutRoot_tail

theorem root_not_contained {file shaped : PurePosixPath} (hroot : shaped.root = "")
    (htail : shaped.tail = [".fluxbox", "layouts"]) (h : withYaml shaped = .ok file) :
    ¬ Contained file.asPosix := by
  obtain ⟨-, -, hfileRoot, hfileTail⟩ := withYaml_ok h
  rintro ⟨-, -, -, ⟨names, hnames, hbeneath⟩, -⟩
  rw [PurePosixPath.parse_asPosix (hfileRoot.trans hroot), hfileTail, htail] at hbeneath
  have hlength := congrArg List.length hbeneath
  have hpositive := List.length_pos_iff.mpr hnames
  simp only [List.dropLast_cons_of_ne_nil (List.cons_ne_nil _ _), List.dropLast_singleton,
    List.length_append, List.length_cons, List.length_nil] at hlength
  omega

theorem layoutPath_contained (h : layoutPath layout = .ok path) :
    Contained path ∧ acceptedInputPath path = true ↔ stripText layout ≠ ".fluxbox/layouts" := by
  obtain ⟨hclean, shaped, file, hshaped, hfile, rfl⟩ := layoutPath_ok h
  obtain ⟨hroot, hparent, names, htail, hnames⟩ := layoutCandidate_ok hclean hshaped
  rw [Ne, ← asPosix_root hclean, ← hnames]
  constructor
  · rintro ⟨hcontained, -⟩ rfl
    exact root_not_contained hroot htail hfile hcontained
  · intro hne
    obtain ⟨hstem, -, hfileRoot, hfileTail⟩ := withYaml_ok hfile
    rw [htail, List.dropLast_cons_of_ne_nil (List.cons_ne_nil _ _),
      List.dropLast_cons_of_ne_nil hne] at hfileTail
    refine contained_of_tail (hfileRoot.trans hroot) (fun hmem => hparent ?_) hstem hfileTail
    rw [htail]
    exact .tail _ (.tail _ (List.dropLast_subset _ hmem))

theorem includePath_contained (h : includePath layout = .ok path) :
    Contained path ∧ acceptedInputPath path = true := by
  unfold includePath at h
  simp only at h
  split at h
  · cases h
  · rename_i hclean
    obtain ⟨file, hfile, h⟩ := Outcome.bind_eq_ok.mp h
    obtain rfl := Except.ok.inj h
    simp only [not_or] at hclean
    obtain ⟨-, -, habsolute, hparent, -⟩ := hclean
    have hrelative : (PurePosixPath.parse (stripText layout)).root = "" := by
      simpa [PurePosixPath.isAbsolute] using habsolute
    obtain ⟨hstem, -, hfileRoot, hfileTail⟩ := withYaml_ok hfile
    obtain ⟨hroot, htail⟩ := join_tail (p := layoutRoot) (hfileRoot.trans hrelative)
    rw [layoutRoot_tail, hfileTail, List.cons_append, List.cons_append, List.nil_append] at htail
    refine contained_of_tail (hroot.trans layoutRoot_root) (fun hmem => hparent ?_) hstem htail
    rw [PurePosixPath.parts, if_pos hrelative]
    exact List.dropLast_subset _ hmem

theorem layoutPath_single (hsingle : (PurePosixPath.parse (stripText layout)).parts.length = 1)
    (h : layoutPath layout = .ok path) : ∃ file : PurePosixPath,
      path = file.asPosix ∧ file.root = "" ∧
        file.tail = [".fluxbox", "layouts",
          (PurePosixPath.parse (stripText layout)).stem ++ ".yaml"] := by
  obtain ⟨hclean, shaped, file, hshaped, hfile, rfl⟩ := layoutPath_ok h
  obtain ⟨name, hname⟩ := List.length_eq_one_iff.mp hsingle
  have htail : (PurePosixPath.parse (stripText layout)).tail = [name] := by
    simpa [PurePosixPath.parts, hclean.relative] using hname
  unfold layoutCandidate at hshaped
  rw [hname] at hshaped
  simp only at hshaped
  split at hshaped
  · obtain rfl := Except.ok.inj hshaped
    obtain ⟨hroot, hjoin⟩ := join_tail (p := layoutRoot) hclean.relative
    obtain ⟨-, -, hfileRoot, hfileTail⟩ := withYaml_ok hfile
    have hstem : (layoutRoot.join (PurePosixPath.parse (stripText layout))).stem =
        (PurePosixPath.parse (stripText layout)).stem := by
      simp [PurePosixPath.stem, PurePosixPath.name, hjoin, htail]
    rw [hjoin, htail, layoutRoot_tail, hstem] at hfileTail
    exact ⟨file, rfl, hfileRoot.trans (hroot.trans layoutRoot_root), hfileTail⟩
  · cases hshaped

theorem layoutPath_eq_iff {other otherPath : String}
    (hsingle : (PurePosixPath.parse (stripText layout)).parts.length = 1)
    (hother : (PurePosixPath.parse (stripText other)).parts.length = 1)
    (h : layoutPath layout = .ok path) (h' : layoutPath other = .ok otherPath) :
    path = otherPath ↔ (PurePosixPath.parse (stripText layout)).stem =
      (PurePosixPath.parse (stripText other)).stem := by
  obtain ⟨file, rfl, hroot, htail⟩ := layoutPath_single hsingle h
  obtain ⟨file', rfl, hroot', htail'⟩ := layoutPath_single hother h'
  constructor
  · intro heq
    have hfile : file = file' := by
      rw [← PurePosixPath.parse_asPosix hroot, heq, PurePosixPath.parse_asPosix hroot']
    rw [hfile, htail'] at htail
    simpa using htail.symm
  · intro heq
    rw [PurePosixPath.asPosix, PurePosixPath.asPosix, hroot, hroot', htail, htail', heq]

/-- Layout paths are below the root and stay apart but for the root itself and shared stems. -/
theorem layout_paths_contained_distinct (layout other value : String) :
    (∀ path, layoutPath layout = .ok path →
      (Contained path ∧ acceptedInputPath path = true ↔
        stripText layout ≠ ".fluxbox/layouts")) ∧
    (∀ path, includePath value = .ok path → Contained path ∧ acceptedInputPath path = true) ∧
    ∀ path otherPath, layoutPath layout = .ok path → layoutPath other = .ok otherPath →
      (PurePosixPath.parse (stripText layout)).parts.length = 1 →
      (PurePosixPath.parse (stripText other)).parts.length = 1 →
      ((layout ≠ other → path ≠ otherPath) ↔
        layout = other ∨ (PurePosixPath.parse (stripText layout)).stem ≠
          (PurePosixPath.parse (stripText other)).stem) := by
  refine ⟨fun _ => layoutPath_contained, fun _ => includePath_contained, ?_⟩
  intro path otherPath h h' hsingle hother
  rw [Ne, Ne, Ne, layoutPath_eq_iff hsingle hother h h', or_iff_not_imp_left]

theorem layout_paths_contained_distinct_names :
    layoutPath "dock" = .ok ".fluxbox/layouts/dock.yaml" ∧
      layoutPath "desk" = .ok ".fluxbox/layouts/desk.yaml" ∧
      includePath "common/fonts" = .ok ".fluxbox/layouts/common/fonts.yaml" ∧
      Contained ".fluxbox/layouts/common/fonts.yaml" ∧
      (Contained ".fluxbox/layouts/dock.yaml" ∧
        acceptedInputPath ".fluxbox/layouts/dock.yaml" = true ↔
          stripText "dock" ≠ ".fluxbox/layouts") ∧
      ("dock" ≠ "desk" → ".fluxbox/layouts/dock.yaml" ≠ ".fluxbox/layouts/desk.yaml") := by
  have hdock : layoutPath "dock" = .ok ".fluxbox/layouts/dock.yaml" := by decide +kernel
  have hdesk : layoutPath "desk" = .ok ".fluxbox/layouts/desk.yaml" := by decide +kernel
  have hfonts : includePath "common/fonts" = .ok ".fluxbox/layouts/common/fonts.yaml" := by
    decide +kernel
  obtain ⟨hcontained, hincluded, hdistinct⟩ :=
    layout_paths_contained_distinct "dock" "desk" "common/fonts"
  refine ⟨hdock, hdesk, hfonts, (hincluded _ hfonts).1, hcontained _ hdock, ?_⟩
  exact (hdistinct _ _ hdock hdesk (by decide +kernel) (by decide +kernel)).mpr
    (.inr (by decide +kernel))

/-- The file of the root lies beside it, and what follows a dot in a name is lost. -/
theorem layout_path_escapes :
    layoutPath ".fluxbox/layouts" = .ok ".fluxbox/layouts.yaml" ∧
      acceptedInputPath ".fluxbox/layouts.yaml" = false ∧
      layoutPath "dock" = .ok ".fluxbox/layouts/dock.yaml" ∧
      layoutPath "dock.old" = .ok ".fluxbox/layouts/dock.yaml" := by
  decide +kernel

end Layout

end MonitorController
