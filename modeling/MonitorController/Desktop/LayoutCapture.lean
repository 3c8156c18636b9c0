import Mathlib
import MonitorController.Desktop.LayoutIncludes

/-! # Captured layouts

The planner captures a layout with everything it includes before the layout is
expanded. The capture follows the includes with a stack of pending paths, the
expansion by recursion; both read the same files.
-/

namespace MonitorController

open Words

def maxConfigurationInputs : Nat := 256

section Capture

variable {ε γ : Type}

/-- What escapes the capture of a layout; what escapes the reading of a file is a parameter. -/
inductive CaptureFault (ε : Type) where
  | layout (fault : LayoutFault)
  | read (fault : ε)
  | absent (path : String)
  | exceedsLimit
  deriving DecidableEq

def collectInclude (path : String) (includes : List String) (line : List Char × Nat) :
    Except LayoutFault (List String) :=
  if ¬ includeMarker <:+: line.1 then .ok includes
  else match matchInclude line.1 with
    | none => .error (.layoutPlanning
        (path ++ ":" ++ toString line.2 ++ ": malformed layout include directive"))
    | some (_, target) => do
      let included ← includePath (String.ofList target)
      .ok (includes.insert included)

def configurationIncludePaths (path : String) (content : ByteArray) :
    Except LayoutFault (List String) := do
  let text ← decodeLayoutFile path content
  if maxLayoutLines < (splitLines text.toList).length then
    .error (.layoutInput path "exceeds its line limit")
  else
    let includes ← ((splitLines text.toList).zipIdx 1).foldlM (collectInclude path) []
    .ok (sortedBy id includes)

/-- The pending paths, the last one first, and the files captured so far. -/
structure CaptureState where
  pending : List String
  captured : Dict String ByteArray
  distinct : (Dict.keys captured).Nodup
  few : captured.length ≤ maxConfigurationInputs
  deriving DecidableEq

variable (read : String → Except ε (Option ByteArray))

/-- A path which is captured, with its includes pushed on the stack. -/
def capturePath (s : CaptureState) (path : String) (pending : List String) :
    Except (CaptureFault ε) CaptureState :=
  match read path with
  | .error fault => .error (.read fault)
  | .ok none => .error (.absent path)
  | .ok (some content) =>
    match configurationIncludePaths path content with
    | .error fault => .error (.layout fault)
    | .ok includes =>
      let captured := Dict.insert path content s.captured
      if hfew : captured.length ≤ maxConfigurationInputs then
        .ok
          { pending := (includes.filter (· ∉ Dict.keys captured)).reverse ++ pending
            captured
            distinct := Dict.nodup_insert s.distinct path content
            few := hfew }
      else .error .exceedsLimit

/-- A turn of the loop of `_layout_inputs`, if it has another. -/
def captureStep (s : CaptureState) : Option (Except (CaptureFault ε) CaptureState) :=
  match s.pending with
  | [] => none
  | path :: pending =>
    if path ∈ Dict.keys s.captured then some (.ok { s with pending })
    else some (capturePath read s path pending)

variable {read}

theorem capturePath_ok {s s' : CaptureState} {path : String} {pending : List String}
    (h : capturePath read s path pending = .ok s') :
    ∃ content includes, read path = .ok (some content) ∧
      configurationIncludePaths path content = .ok includes ∧
      s'.captured = Dict.insert path content s.captured ∧
      s'.pending = (includes.filter (· ∉ Dict.keys s'.captured)).reverse ++ pending := by
  unfold capturePath at h
  split at h
  · cases h
  · cases h
  · rename_i content hread
    split at h
    · cases h
    · rename_i includes hincludes
      simp only at h
      split at h
      · obtain rfl := Except.ok.inj h
        exact ⟨content, includes, hread, hincludes, rfl, rfl⟩
      · cases h

/-- What is left to do: the files which may still be captured, then the pending paths. -/
def CaptureState.measure (s : CaptureState) : Nat ×ₗ Nat :=
  toLex (maxConfigurationInputs - s.captured.length, s.pending.length)

theorem captureStep_decreases {s s' : CaptureState} (h : captureStep read s = some (.ok s')) :
    s'.measure < s.measure := by
  unfold captureStep at h
  rw [CaptureState.measure, CaptureState.measure, Prod.Lex.toLex_lt_toLex]
  split at h
  · cases h
  · rename_i path pending hpending
    split at h
    · obtain rfl := Except.ok.inj (Option.some.inj h)
      simp [hpending]
    · rename_i hnew
      obtain ⟨content, includes, -, -, hcaptured, -⟩ := capturePath_ok (Option.some.inj h)
      have hlength : s'.captured.length = s.captured.length + 1 := by
        rw [hcaptured, Dict.insert_of_notMem hnew]
        simp
      have hfew := s'.few
      left
      simp only
      omega

variable (read)

/-- The loop of `_layout_inputs`. -/
def captureLoop (s : CaptureState) : Except (CaptureFault ε) (Dict String ByteArray) :=
  match _h : captureStep read s with
  | none => .ok s.captured
  | some (.error fault) => .error fault
  | some (.ok s') => captureLoop s'
termination_by s.measure
decreasing_by exact captureStep_decreases _h

/-- `_layout_inputs`, from the path of a layout. -/
def captureLayout (layout : String) :
    Except (CaptureFault ε) (List (String × ByteArray)) :=
  match layoutPath layout with
  | .error fault => .error (.layout fault)
  | .ok main => do
    let captured ← captureLoop read
      { pending := [main], captured := [], distinct := List.nodup_nil, few := by decide }
    .ok (sortedBy Prod.fst captured)

/-- What `parse_layout` returns; the fields of the grammar are a parameter. -/
structure ParsedLayout (γ : Type) where
  layout : String
  sourcePath : String
  consumedPaths : List String
  expandedYaml : List Char
  grammar : γ

/-- `parse_layout`, given what `_parse_expanded` does to the expanded text. -/
def parseDesktopLayout (parseExpanded : String → List Char → Except LayoutFault γ) (layout : String)
    (files : List (String × ByteArray)) : Except LayoutFault (ParsedLayout γ) := do
  let (sourcePath, e) ← expandLayout layout files
  let grammar ← parseExpanded sourcePath e.output.flatten
  .ok
    { layout, sourcePath, consumedPaths := sortedBy id e.consumed
      expandedYaml := e.output.flatten, grammar }

end Capture

section Directives

variable {line : List Char}

theorem matchInclude_last {directive : List Char × List Char}
    (h : matchInclude line = some directive) : ∀ c ∈ line.getLast?, isLineBreak c = false := by
  simp only [matchInclude] at h
  split at h
  · rename_i trailing htrailing
    split at h
    · cases h
    · rename_i hblank
      rw [not_or, Bool.not_eq_false, Bool.not_eq_false] at hblank
      have hsuffix : '>' :: trailing <:+ line := by
        rw [← htrailing]
        exact (List.dropWhile_suffix _).trans <| (List.dropWhile_suffix _).trans <|
          (List.drop_suffix _ _).trans (List.dropWhile_suffix _)
      obtain ⟨before, rfl⟩ := hsuffix
      intro c hc
      rw [List.getLast?_append_of_ne_nil _ (List.cons_ne_nil _ _)] at hc
      rcases List.mem_cons.mp (List.mem_of_getLast? hc) with rfl | hc
      · decide
      · obtain rfl : c = ' ' := by simpa using List.all_eq_true.mp hblank.2 c hc
        decide
  · cases h

theorem chomp_clear (h : ∀ c ∈ line, isLineBreak c = false) : chomp line = line := by
  unfold chomp
  rw [if_neg]
  intro hlast
  have hbreak := h '\n' (List.mem_of_getLast? hlast)
  revert hbreak
  decide

/-- The end of an accepted line is no part of its directive. -/
theorem includedBy_body (h : AcceptedLine line) (hline : IsLine line) :
    includedBy (body line) = includedBy line := by
  obtain ⟨hreturn, hproper⟩ := h
  cases hline with
  | last hne hclear => rw [body_open hclear]
  | @ended b c hclear hbreak =>
    rw [body_append hclear hbreak]
    unfold includedBy
    rw [chomp_clear hclear]
    by_cases hc : c = '\n'
    · subst hc
      simp [chomp]
    · have hchomp : chomp (b ++ [c]) = b ++ [c] := by simp [chomp, hc]
      have hnone : matchInclude (b ++ [c]) = none := by
        rw [Option.eq_none_iff_forall_ne_some]
        intro directive hmatch
        have hlast := matchInclude_last hmatch c (by simp)
        rw [hbreak] at hlast
        cases hlast
      have hmarker : ¬ includeMarker <:+: b ++ [c] := by
        intro hmarker
        have hsome := hproper (by rwa [hchomp])
        simp [includedBy, hchomp, hnone] at hsome
      rw [hchomp, if_neg hmarker, if_neg]
      exact fun hb => hmarker (hb.trans (List.prefix_append b [c]).isInfix)
  | @crlf b hclear =>
    have hlast : (b ++ ['\r', '\n']).dropLast = b ++ ['\r'] := by
      rw [← List.singleton_append, ← List.append_assoc, List.dropLast_concat]
    simp [chomp, hlast] at hreturn

variable {path : String} {includes includes' : List String}

theorem collectInclude_ok {n : Nat} (hclear : ∀ c ∈ line, isLineBreak c = false)
    (h : collectInclude path includes (line, n) = .ok includes') (included : String) :
    included ∈ includes' ↔ included ∈ includes ∨ ∃ own, includedBy line = some (own, included) := by
  unfold collectInclude at h
  unfold includedBy
  rw [chomp_clear hclear]
  split at h
  · rename_i hmarker
    obtain rfl := Except.ok.inj h
    rw [if_neg hmarker]
    simp
  · rename_i hmarker
    rw [not_not] at hmarker
    rw [if_pos hmarker]
    split at h
    · cases h
    · rename_i own target hmatch
      obtain ⟨found, hfound, h⟩ := Outcome.bind_eq_ok.mp h
      obtain rfl := Except.ok.inj h
      simp [hmatch, hfound, Except.toOption, or_comm, eq_comm]

theorem collectIncludes_ok {lines : List (List Char)} {n : Nat}
    (hclear : ∀ line ∈ lines, ∀ c ∈ line, isLineBreak c = false)
    (h : (lines.zipIdx n).foldlM (collectInclude path) includes = .ok includes')
    (included : String) : included ∈ includes' ↔ included ∈ includes ∨
      ∃ line ∈ lines, ∃ own, includedBy line = some (own, included) := by
  induction lines generalizing includes n with
  | nil =>
    obtain rfl := Except.ok.inj h
    simp
  | cons line lines ih =>
    rw [List.zipIdx_cons, List.foldlM_cons] at h
    obtain ⟨found, hline, hrest⟩ := Outcome.bind_eq_ok.mp h
    obtain ⟨hline', hlines⟩ := List.forall_mem_cons.mp hclear
    rw [ih hlines hrest, collectInclude_ok hline' hline]
    simp [or_assoc]

theorem mem_configurationIncludePaths {content : ByteArray}
    (h : configurationIncludePaths path content = .ok includes) :
    ∃ text, DecodedAs content text ∧ ∀ included, included ∈ includes ↔
      ∃ line ∈ splitLinesKeep text.toList, ∃ own,
        includedBy (body line) = some (own, included) := by
  obtain ⟨text, htext, h⟩ := Outcome.bind_eq_ok.mp h
  refine ⟨text, decodeLayoutFile_ok.mp htext, fun included => ?_⟩
  split at h
  · cases h
  · obtain ⟨found, hfound, h⟩ := Outcome.bind_eq_ok.mp h
    obtain rfl := Except.ok.inj h
    rw [mem_sortedBy, collectIncludes_ok (fun line hline => clear_of_mem_splitLines hline) hfound,
      ← map_body_splitLinesKeep]
    simp

end Directives

section Closure

variable {ε : Type} {read : String → Except ε (Option ByteArray)} {main : String}

/-- A captured file depends on another. -/
def Depends (captured : Dict String ByteArray) (path included : String) : Prop :=
  ∃ content includes, Dict.get? path captured = some content ∧
    configurationIncludePaths path content = .ok includes ∧ included ∈ includes

/-- Everything the captured files include is captured or pending, and nothing else is. -/
structure Closing (main : String) (captured : Dict String ByteArray) (pending : List String) :
    Prop where
  main_known : main ∈ Dict.keys captured ∨ main ∈ pending
  closed : ∀ path content, Dict.get? path captured = some content →
    ∃ includes, configurationIncludePaths path content = .ok includes ∧
      ∀ included ∈ includes, included ∈ Dict.keys captured ∨ included ∈ pending
  reached : ∀ path, path ∈ Dict.keys captured ∨ path ∈ pending →
    Relation.ReflTransGen (Depends captured) main path

theorem Closing.step {s s' : CaptureState} (hs : Closing main s.captured s.pending)
    (h : captureStep read s = some (.ok s')) : Closing main s'.captured s'.pending := by
  unfold captureStep at h
  split at h
  · cases h
  · rename_i path pending hpending
    have hknown : ∀ p, p ∈ Dict.keys s.captured ∨ p ∈ s.pending ↔
        p ∈ Dict.keys s.captured ∨ p = path ∨ p ∈ pending := by
      intro p
      rw [hpending, List.mem_cons]
    obtain ⟨hmain, hclosed, hreached⟩ := hs
    simp only [hknown] at hmain hclosed hreached
    split at h
    · rename_i hcaptured
      obtain rfl := Except.ok.inj (Option.some.inj h)
      have hskip : ∀ p, p ∈ Dict.keys s.captured ∨ p = path ∨ p ∈ pending ↔
          p ∈ Dict.keys s.captured ∨ p ∈ pending := by
        grind
      simp only [hskip] at hmain hclosed hreached
      exact ⟨hmain, hclosed, hreached⟩
    · rename_i hnew
      obtain ⟨content, includes, -, hincludes, hcaptured, hpushed⟩ :=
        capturePath_ok (Option.some.inj h)
      have hkeys : ∀ p, p ∈ Dict.keys s'.captured ↔ p ∈ Dict.keys s.captured ∨ p = path := by
        intro p
        rw [hcaptured, Dict.keys_insert, if_neg hnew, List.mem_append, List.mem_singleton]
      have hget : ∀ p, Dict.get? p s'.captured =
          if path = p then some content else Dict.get? p s.captured := by
        intro p
        rw [hcaptured, Dict.get?_insert]
      have hmono : ∀ p q, Depends s.captured p q → Depends s'.captured p q := by
        rintro p q ⟨c, found, hp, hfound, hq⟩
        have hne : path ≠ p := by
          rintro rfl
          rw [Dict.get?_eq_none.mpr hnew] at hp
          cases hp
        exact ⟨c, found, by rw [hget, if_neg hne, hp], hfound, hq⟩
      have hnext : ∀ p, p ∈ Dict.keys s'.captured ∨ p ∈ s'.pending ↔
          p ∈ Dict.keys s.captured ∨ p = path ∨ p ∈ includes ∨ p ∈ pending := by
        intro p
        rw [hpushed, List.mem_append, List.mem_reverse, List.mem_filter, decide_eq_true_eq, hkeys]
        grind
      constructor
      · rw [hnext]
        grind
      · intro p c hp
        rw [hget] at hp
        simp only [hnext]
        split at hp
        · rename_i hpath
          obtain rfl := Option.some.inj hp
          subst hpath
          exact ⟨includes, hincludes, fun q hq => .inr (.inr (.inl hq))⟩
        · obtain ⟨found, hfound, hmem⟩ := hclosed p c hp
          refine ⟨found, hfound, fun q hq => ?_⟩
          grind
      · intro p hp
        rw [hnext] at hp
        have hpath := Relation.ReflTransGen.mono hmono _ _ (hreached path (.inr (.inl rfl)))
        by_cases hinclude : p ∈ includes
        · exact hpath.tail ⟨content, includes, by rw [hget, if_pos rfl], hincludes, hinclude⟩
        · refine Relation.ReflTransGen.mono hmono _ _ (hreached p ?_)
          grind

theorem captureLoop_eq (s : CaptureState) : captureLoop read s =
    match captureStep read s with
    | none => .ok s.captured
    | some (.error fault) => .error fault
    | some (.ok s') => captureLoop read s' := by
  rw [captureLoop]
  split <;> simp only [*]

theorem captureLoop_ok {s : CaptureState} {captured : Dict String ByteArray}
    (hs : Closing main s.captured s.pending) (h : captureLoop read s = .ok captured) :
    Closing main captured [] ∧ (Dict.keys captured).Nodup := by
  induction s using captureLoop.induct read with
  | case1 s hstep =>
    rw [captureLoop_eq, hstep] at h
    obtain rfl := Except.ok.inj h
    have hpending : s.pending = [] := by
      unfold captureStep at hstep
      split at hstep
      · assumption
      · split at hstep <;> cases hstep
    exact ⟨hpending ▸ hs, s.distinct⟩
  | case2 s fault hstep =>
    rw [captureLoop_eq, hstep] at h
    cases h
  | case3 s s' hstep ih =>
    rw [captureLoop_eq, hstep] at h
    exact ih (hs.step hstep) h

theorem get?_perm {captured sorted : Dict String ByteArray} (h : sorted.Perm captured)
    (hnodup : (Dict.keys captured).Nodup) (path : String) :
    Dict.get? path sorted = Dict.get? path captured := by
  have hnodup' : (Dict.keys sorted).Nodup := (h.map _).nodup_iff.mpr hnodup
  ext content
  rw [← Dict.mem_iff_get? hnodup, ← Dict.mem_iff_get? hnodup', h.mem_iff]

theorem Closing.perm {captured sorted : Dict String ByteArray} {pending : List String}
    (h : Closing main captured pending) (hperm : sorted.Perm captured)
    (hnodup : (Dict.keys captured).Nodup) : Closing main sorted pending := by
  have hkeys : ∀ p, p ∈ Dict.keys sorted ↔ p ∈ Dict.keys captured := fun p =>
    (hperm.map _).mem_iff
  obtain ⟨hmain, hclosed, hreached⟩ := h
  simp only [← hkeys, ← get?_perm hperm hnodup] at hmain hclosed hreached
  have hdepends : Depends captured = Depends sorted := by
    funext p q
    simp only [Depends, get?_perm hperm hnodup]
  exact ⟨hmain, hclosed, hdepends ▸ hreached⟩

variable {layout : String} {files : List (String × ByteArray)}

/-- The captured files of a layout in the order of their paths. -/
structure CapturedFiles (main : String) (files : List (String × ByteArray)) : Prop where
  closing : Closing main files []
  strict : files.Pairwise fun a b => a.1 < b.1
  distinct : (Dict.keys files).Nodup

theorem captureLayout_ok (h : captureLayout read layout = .ok files) :
    ∃ main, layoutPath layout = .ok main ∧ CapturedFiles main files := by
  unfold captureLayout at h
  split at h
  · cases h
  · rename_i main hmain
    obtain ⟨captured, hcaptured, h⟩ := Outcome.bind_eq_ok.mp h
    obtain rfl := Except.ok.inj h
    have hstart : Closing main [] [main] := by
      refine ⟨.inr List.mem_cons_self, fun _ _ hget => (by cases hget), ?_⟩
      rintro p (hp | hp)
      · cases hp
      · rw [List.mem_singleton.mp hp]
    obtain ⟨hclosing, hnodup⟩ := captureLoop_ok hstart hcaptured
    have hperm : (sortedBy Prod.fst captured).Perm captured := sortedBy_perm _
    refine ⟨main, hmain, hclosing.perm hperm hnodup, sortedBy_strict hnodup, ?_⟩
    exact (hperm.map _).nodup_iff.mpr hnodup

end Closure

section Agreement

variable {files : List (String × ByteArray)} {main path : String}

theorem validateFiles_eq {total : Nat} {result byPath : Dict String ByteArray}
    (h : validateFiles files total result = .ok byPath) : byPath = result ++ files := by
  induction files generalizing total result with
  | nil =>
    unfold validateFiles at h
    split at h
    · cases h
    · rw [List.append_nil, Except.ok.inj h]
  | cons file files ih =>
    obtain ⟨path, content⟩ := file
    unfold validateFiles at h
    split at h
    · cases h
    · split at h
      · cases h
      · rename_i hnew
        split at h
        · cases h
        · rw [ih h, Dict.insert_of_notMem hnew, List.append_assoc, List.singleton_append]

theorem validatedFileMapping_eq {byPath : Dict String ByteArray}
    (h : validatedFileMapping files = .ok byPath) : byPath = files := by
  unfold validatedFileMapping at h
  split at h
  · cases h
  · exact validateFiles_eq h

theorem Expandable.readable {levels : Nat} {stack : List String}
    (h : Expandable files levels stack main)
    (hreach : Relation.ReflTransGen (Includes files) main path) : Readable files path := by
  induction levels generalizing stack main with
  | zero => exact h.elim
  | succ levels ih =>
    rcases Relation.ReflTransGen.cases_head_iff.mp hreach with rfl | ⟨included, hincludes, hreach⟩
    · exact h.2.1
    · exact ih (h.2.2 included hincludes) hreach

theorem includes_iff_depends (h : Readable files path)
    (hclosing : Closing main files []) (included : String) :
    Includes files path included ↔ Depends files path included := by
  obtain ⟨content, text, hfound, hdecoded, haccepted⟩ := h
  have hlines := linesOf_eq hfound hdecoded
  have hsame : ∀ includes, configurationIncludePaths path content = .ok includes →
      (included ∈ includes ↔ Includes files path included) := by
    intro includes hincludes
    obtain ⟨text', hdecoded', hmem⟩ := mem_configurationIncludePaths hincludes
    obtain rfl : text' = text := Option.some.inj (hdecoded'.utf8.symm.trans hdecoded.utf8)
    rw [hmem, Includes, hlines]
    constructor
    · rintro ⟨line, hline, own, hby⟩
      rw [includedBy_body (haccepted line hline) (isLine_of_mem hline)] at hby
      exact ⟨line, hline, own, hby⟩
    · rintro ⟨line, hline, own, hby⟩
      rw [← includedBy_body (haccepted line hline) (isLine_of_mem hline)] at hby
      exact ⟨line, hline, own, hby⟩
  constructor
  · intro hincluded
    obtain ⟨includes, hincludes, -⟩ := hclosing.closed path content hfound
    exact ⟨content, includes, hfound, hincludes, (hsame includes hincludes).mpr hincluded⟩
  · rintro ⟨content', includes, hfound', hincludes, hmem⟩
    obtain rfl : content' = content := Option.some.inj (hfound'.symm.trans hfound)
    exact (hsame includes hincludes).mp hmem

/-- The captured paths are those an expansion reaches. -/
theorem mem_captured_iff {levels : Nat} (hclosing : Closing main files [])
    (h : Expandable files levels [] main) :
    path ∈ Dict.keys files ↔ Relation.ReflTransGen (Includes files) main path := by
  have hpending : ∀ p, p ∈ Dict.keys files ∨ p ∈ ([] : List String) ↔ p ∈ Dict.keys files := by
    simp
  constructor
  · intro hpath
    have hreached := hclosing.reached path (.inl hpath)
    induction hreached with
    | refl => exact .refl
    | @tail p q hp hdepends ih =>
      obtain ⟨content, includes, hfound, hincludes, hmem⟩ := hdepends
      have hin : p ∈ Dict.keys files := by
        by_contra hcon
        rw [Dict.get?_eq_none.mpr hcon] at hfound
        cases hfound
      have hreach := ih hin
      exact hreach.tail ((includes_iff_depends (h.readable hreach) hclosing q).mpr
        ⟨content, includes, hfound, hincludes, hmem⟩)
  · intro hreach
    induction hreach with
    | refl => exact (hpending _).mp hclosing.main_known
    | @tail p q hp hincludes ih =>
      obtain ⟨content, includes, hfound, hincludes, hmem⟩ :=
        (includes_iff_depends (h.readable hp) hclosing q).mp hincludes
      obtain ⟨found, hfound', hclosed⟩ := hclosing.closed p content hfound
      obtain rfl : found = includes := Except.ok.inj (hfound'.symm.trans hincludes)
      exact (hpending _).mp (hclosed q hmem)

end Agreement

section Missing

variable {α β : Type} {x : Except LayoutFault α}

/-- A computation which does not ask for a file it was not given. -/
def NeverMissing (x : Except LayoutFault α) : Prop := ∀ path, x ≠ .error (.missingInput path)

theorem NeverMissing.ok (a : α) : NeverMissing (.ok a) := fun _ h => by cases h

theorem NeverMissing.bind {f : α → Except LayoutFault β} (hx : NeverMissing x)
    (hf : ∀ a, x = .ok a → NeverMissing (f a)) : NeverMissing (x >>= f) := by
  cases x with
  | error fault => exact fun path h => hx path (by cases h; rfl)
  | ok a => exact hf a rfl

theorem withYaml_never (candidate : PurePosixPath) : NeverMissing (withYaml candidate) := by
  intro path h
  unfold withYaml at h
  split at h
  · cases h
  · split at h <;> cases h

theorem includePath_never (value : String) : NeverMissing (includePath value) := by
  unfold includePath
  simp only
  split
  · exact fun _ h => by cases h
  · exact (withYaml_never _).bind fun _ _ => .ok _

theorem layoutPath_never (layout : String) : NeverMissing (layoutPath layout) := by
  have hcandidate : ∀ c, NeverMissing (layoutCandidate c) := by
    intro c path h
    unfold layoutCandidate at h
    split at h
    · cases h
    · split at h <;> cases h
    · split at h
      · cases h
      · split at h <;> cases h
  unfold layoutPath
  simp only
  split
  · exact fun _ h => by cases h
  · split
    · exact fun _ h => by cases h
    · split
      · exact fun _ h => by cases h
      · exact (hcandidate _).bind fun _ _ => (withYaml_never _).bind fun _ _ => .ok _

theorem decodeLayoutFile_never (path : String) (content : ByteArray) :
    NeverMissing (decodeLayoutFile path content) := by
  intro p h
  unfold decodeLayoutFile at h
  split at h
  · cases h
  · split at h
    · cases h
    · split at h
      · cases h
      · split at h <;> cases h

theorem append_never (e : Expansion) (line : List Char) : NeverMissing (e.append line) := by
  intro p h
  unfold Expansion.append at h
  split at h
  · split at h <;> cases h
  · cases h

theorem validatedFileMapping_never (files : List (String × ByteArray)) :
    NeverMissing (validatedFileMapping files) := by
  have hvalidate : ∀ files total result, NeverMissing (validateFiles files total result) := by
    intro files
    induction files with
    | nil =>
      intro total result p h
      unfold validateFiles at h
      split at h <;> cases h
    | cons file files ih =>
      intro total result
      unfold validateFiles
      split
      · exact fun _ h => by cases h
      · split
        · exact fun _ h => by cases h
        · split
          · exact fun _ h => by cases h
          · exact ih _ _
  unfold validatedFileMapping
  split
  · exact fun _ h => by cases h
  · exact hvalidate _ _ _

theorem expandLine_never {expand : String → List Char → Expansion → Except LayoutFault Expansion}
    {path : String} {indent : List Char} {e : Expansion} {line : List Char × Nat}
    (h : AcceptedLine line.1 → ∀ own included, includedBy line.1 = some (own, included) →
      ∀ indent e, NeverMissing (expand included indent e)) :
    NeverMissing (expandLine expand path indent e line) := by
  unfold expandLine
  simp only
  split
  · exact fun _ h => by cases h
  · rename_i hreturn
    split
    · exact append_never _ _
    · rename_i hmarker
      split
      · exact fun _ h => by cases h
      · rename_i own target hmatch
        refine (includePath_never _).bind fun included hincluded => ?_
        have hby : includedBy line.1 = some (own, included) := by
          simp [includedBy, not_not.mp hmarker, hmatch, hincluded, Except.toOption]
        exact h ⟨hreturn, fun _ => by simp [hby]⟩ own included hby _ _

theorem foldlM_never {σ τ : Type} {f : σ → τ → Except LayoutFault σ} {l : List τ} {s : σ}
    (h : ∀ s, ∀ a ∈ l, NeverMissing (f s a)) : NeverMissing (l.foldlM f s) := by
  induction l generalizing s with
  | nil => exact .ok s
  | cons a l ih =>
    rw [List.foldlM_cons]
    exact (h s a List.mem_cons_self).bind fun s' _ =>
      ih fun s b hb => h s b (List.mem_cons_of_mem _ hb)

variable {files : List (String × ByteArray)} {main path : String}

theorem expandFile_never {levels : Nat} {stack : List String} {indent : List Char} {e : Expansion}
    (hclosing : Closing main files []) (h : path ∈ Dict.keys files) :
    NeverMissing (expandFile files levels path stack indent e) := by
  induction levels generalizing path stack indent e with
  | zero => exact fun _ h => by cases h
  | succ levels ih =>
    unfold expandFile
    split
    · exact fun _ h => by cases h
    · split
      · rename_i hfound
        exact absurd h (Dict.get?_eq_none.mp hfound)
      · rename_i content hfound
        refine (decodeLayoutFile_never _ _).bind fun text htext => foldlM_never fun e line hline => ?_
        refine expandLine_never fun haccepted own included hby indent e => ih ?_
        obtain ⟨includes, hincludes, hclosed⟩ := hclosing.closed path content hfound
        obtain ⟨text', hdecoded, hmem⟩ := mem_configurationIncludePaths hincludes
        obtain rfl : text' = text :=
          Option.some.inj (hdecoded.utf8.symm.trans (decodeLayoutFile_ok.mp htext).utf8)
        have hin : line.1 ∈ splitLinesKeep text'.toList := List.fst_mem_of_mem_zipIdx hline
        rw [← includedBy_body haccepted (isLine_of_mem hin)] at hby
        simpa using hclosed included ((hmem included).mpr ⟨line.1, hin, own, hby⟩)

theorem expandLayout_never {layout : String} (hmain : layoutPath layout = .ok main)
    (hclosing : Closing main files []) : NeverMissing (expandLayout layout files) := by
  refine (validatedFileMapping_never files).bind fun byPath hbyPath => ?_
  obtain rfl := validatedFileMapping_eq hbyPath
  refine (layoutPath_never layout).bind fun sourcePath hsource => ?_
  obtain rfl : main = sourcePath := Except.ok.inj (hmain.symm.trans hsource)
  refine NeverMissing.bind (expandFile_never hclosing ?_) fun _ _ => .ok _
  simpa using hclosing.main_known

end Missing

section Result

variable {ε γ : Type} {read : String → Except ε (Option ByteArray)}
  {parseExpanded : String → List Char → Except LayoutFault γ} {layout : String}
  {files : List (String × ByteArray)}

theorem parseDesktopLayout_consumed {main : String} (hmain : layoutPath layout = .ok main)
    (hcaptured : CapturedFiles main files) {parsed : ParsedLayout γ}
    (h : parseDesktopLayout parseExpanded layout files = .ok parsed) :
    parsed.consumedPaths = Dict.keys files := by
  obtain ⟨⟨sourcePath, e⟩, he, h⟩ := Outcome.bind_eq_ok.mp h
  obtain ⟨grammar, -, h⟩ := Outcome.bind_eq_ok.mp h
  obtain rfl := Except.ok.inj h
  obtain ⟨byPath, hbyPath, he⟩ := Outcome.bind_eq_ok.mp he
  obtain ⟨source, hsource, he⟩ := Outcome.bind_eq_ok.mp he
  obtain ⟨e', he', he⟩ := Outcome.bind_eq_ok.mp he
  obtain ⟨rfl, rfl⟩ := Prod.mk.inj (Except.ok.inj he)
  obtain rfl := validatedFileMapping_eq hbyPath
  obtain rfl : main = source := Except.ok.inj (hmain.symm.trans hsource)
  obtain ⟨hexpandable, hemits⟩ := expandFile_emits he'
  have hsame : ∀ p, p ∈ e'.consumed ↔ p ∈ Dict.keys byPath := by
    intro p
    rw [hemits.consumed, mem_captured_iff hcaptured.closing hexpandable]
    simp
  have hperm : (sortedBy id e'.consumed).Perm (Dict.keys byPath) :=
    (sortedBy_perm _).trans
      ((List.perm_ext_iff_of_nodup e'.consumed_nodup hcaptured.distinct).mpr hsame)
  refine eq_of_strict (f := id) hperm (sortedBy_strict (by simpa using e'.consumed_nodup)) ?_
  exact List.pairwise_map.mpr hcaptured.strict

theorem captureStep_ends (run : ℕ → CaptureState) :
    ¬ ∀ n, captureStep read (run n) = some (.ok (run (n + 1))) := by
  intro h
  obtain ⟨n, hn⟩ := WellFounded.not_rel_apply_succ (r := (· < ·)) fun n => (run n).measure
  exact hn (captureStep_decreases (h n))

theorem parseDesktopLayout_missing {main path : String} (hmain : layoutPath layout = .ok main)
    (hcaptured : CapturedFiles main files)
    (h : parseDesktopLayout parseExpanded layout files = .error (.missingInput path)) :
    ∃ sourcePath text, parseExpanded sourcePath text = .error (.missingInput path) := by
  unfold parseDesktopLayout at h
  cases hexpand : expandLayout layout files with
  | error fault =>
    rw [hexpand] at h
    have hfault : fault = .missingInput path := Except.error.inj h
    exact absurd (hfault ▸ hexpand) (expandLayout_never hmain hcaptured.closing path)
  | ok expanded =>
    rw [hexpand] at h
    cases hparse : parseExpanded expanded.1 expanded.2.output.flatten with
    | error fault =>
      change (parseExpanded _ _ >>= _) = _ at h
      rw [hparse] at h
      have hfault : fault = .missingInput path := Except.error.inj h
      exact ⟨_, _, hfault ▸ hparse⟩
    | ok grammar =>
      change (parseExpanded _ _ >>= _) = _ at h
      rw [hparse] at h
      cases h

/-- A layout is expanded from exactly the files captured for it, and none is missing. -/
theorem captured_includes_consumed (read : String → Except ε (Option ByteArray)) :
    (∀ run : ℕ → CaptureState, ¬ ∀ n, captureStep read (run n) = some (.ok (run (n + 1)))) ∧
    ∀ layout files, captureLayout read layout = .ok files →
      ∀ parseExpanded : String → List Char → Except LayoutFault γ,
        (∀ parsed, parseDesktopLayout parseExpanded layout files = .ok parsed →
          parsed.consumedPaths = Dict.keys files) ∧
        ∀ path, parseDesktopLayout parseExpanded layout files = .error (.missingInput path) →
          ∃ sourcePath text, parseExpanded sourcePath text = .error (.missingInput path) := by
  refine ⟨captureStep_ends, fun layout files h parseExpanded => ?_⟩
  obtain ⟨main, hmain, hcaptured⟩ := captureLayout_ok h
  exact ⟨fun parsed => parseDesktopLayout_consumed hmain hcaptured,
    fun path => parseDesktopLayout_missing hmain hcaptured⟩

def readDock (path : String) : Except Unit (Option ByteArray) :=
  .ok (Dict.get? path (dockFiles "dpi: 96\n"))

def dockState (pending : List String) (n : Nat) : CaptureState where
  pending := pending
  captured := (dockFiles "dpi: 96\n").take n
  distinct := ((List.take_sublist n _).map _).nodup (by decide)
  few := (List.length_take_le' n _).trans (by decide)

theorem captureLayout_dock : captureLayout readDock "dock" = .ok (dockFiles "dpi: 96\n") := by
  have hmain : layoutPath "dock" = .ok ".fluxbox/layouts/dock.yaml" := by decide +kernel
  have hfirst : captureStep readDock (dockState [".fluxbox/layouts/dock.yaml"] 0) =
      some (.ok (dockState [".fluxbox/layouts/fonts.yaml"] 1)) := by
    decide +kernel
  have hsecond : captureStep readDock (dockState [".fluxbox/layouts/fonts.yaml"] 1) =
      some (.ok (dockState [] 2)) := by
    decide +kernel
  have hloop : captureLoop readDock (dockState [".fluxbox/layouts/dock.yaml"] 0) =
      .ok (dockFiles "dpi: 96\n") := by
    rw [captureLoop_eq, hfirst]
    simp only
    rw [captureLoop_eq, hsecond]
    simp only
    rw [captureLoop_eq]
    rfl
  have hsorted : sortedBy Prod.fst (dockFiles "dpi: 96\n") = dockFiles "dpi: 96\n" := by
    decide +kernel
  unfold captureLayout
  rw [hmain]
  exact Outcome.bind_eq_ok.mpr ⟨_, hloop, congrArg _ hsorted⟩

theorem captured_includes_consumed_dock :
    ∃ parsed : ParsedLayout Unit,
      parseDesktopLayout (fun _ _ => .ok ()) "dock" (dockFiles "dpi: 96\n") = .ok parsed ∧
        parsed.consumedPaths = Dict.keys (dockFiles "dpi: 96\n") := by
  have hparses : (parseDesktopLayout (fun _ _ => .ok ()) "dock" (dockFiles "dpi: 96\n")).toOption.map
      (·.sourcePath) = some ".fluxbox/layouts/dock.yaml" := by
    decide +kernel
  obtain ⟨parsed, hparsed, -⟩ := Outcome.eq_ok_of_toOption hparses
  exact ⟨parsed, hparsed,
    ((captured_includes_consumed readDock).2 "dock" _ captureLayout_dock _).1 parsed hparsed⟩

end Result

end MonitorController
