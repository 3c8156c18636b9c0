import MonitorController.Foundation.Words

/-! # Pure paths

A pure path is its root and the components which are left of a text once empty
ones and single dots are dropped. The canonical spelling is read back as the
path it was written from.
-/

/-- What the parser keeps between two slashes. -/
def PathComponent (c : String) : Prop := c ≠ "" ∧ c ≠ "." ∧ '/' ∉ c.toList

instance (c : String) : Decidable (PathComponent c) := inferInstanceAs (Decidable (_ ∧ _))

structure PurePosixPath where
  root : String
  tail : List String
  root_slashes : root ∈ ["", "/", "//"]
  components : ∀ c ∈ tail, PathComponent c
  deriving DecidableEq

namespace PurePosixPath

/-- `splitroot`: exactly two leading slashes are a root of their own. -/
def rootOf : List Char → String
  | '/' :: '/' :: '/' :: _ => "/"
  | '/' :: '/' :: _ => "//"
  | '/' :: _ => "/"
  | _ => ""

def componentsOf (text : List Char) : List String :=
  ((Words.words (· = '/') text).map String.ofList).filter (· ≠ ".")

theorem component_of_mem {text : List Char} {c : String} (h : c ∈ componentsOf text) :
    PathComponent c := by
  obtain ⟨hmem, hkept⟩ := List.mem_filter.mp h
  obtain ⟨w, hw, rfl⟩ := List.mem_map.mp hmem
  have hbare := Words.bare_of_mem_words hw
  refine ⟨?_, of_decide_eq_true hkept, fun hslash => ?_⟩
  · simpa using hbare.ne_nil
  · rw [String.toList_ofList] at hslash
    exact of_decide_eq_false (hbare.clear _ hslash) rfl

/-- `PurePosixPath(text)`. -/
def parse (text : String) : PurePosixPath where
  root := rootOf text.toList
  tail := componentsOf text.toList
  root_slashes := by
    unfold rootOf
    split <;> simp
  components _ := component_of_mem

variable (p q : PurePosixPath)

/-- `p.as_posix()`. -/
def asPosix : String :=
  if p.root = "" ∧ p.tail = [] then "." else p.root ++ "/".intercalate p.tail

def isAbsolute : Bool := p.root ≠ ""

def parts : List String := if p.root = "" then p.tail else p.root :: p.tail

def name : String := p.tail.getLast?.getD ""

/-- The stem of a name and its suffix, which a leading or trailing dot does not begin. -/
def splitSuffix (name : List Char) : List Char × List Char :=
  let i := (name.rdropWhile (· ≠ '.')).length
  if 1 < i ∧ i < name.length then (name.take (i - 1), name.drop (i - 1)) else (name, [])

def suffix : String := String.ofList (splitSuffix p.name.toList).2

def stem : String := String.ofList (splitSuffix p.name.toList).1

/-- `p.with_name(name)`; none is a `ValueError`. -/
def withName (name : String) : Option PurePosixPath :=
  if h : PathComponent name ∧ p.tail ≠ [] then
    some { p with
      tail := p.tail.dropLast ++ [name]
      components := by
        intro c hc
        rcases List.mem_append.mp hc with hc | hc
        · exact p.components c (List.dropLast_subset _ hc)
        · exact List.mem_singleton.mp hc ▸ h.1 }
  else none

/-- `p.with_suffix(ending)`. -/
def withSuffix (ending : String) : Option PurePosixPath :=
  if p.stem = "" then none
  else if ending ≠ "" ∧ ¬ (ending.toList.head? = some '.' ∧ 1 < ending.length) then none
  else p.withName (p.stem ++ ending)

/-- `p / q`. -/
def join : PurePosixPath :=
  if q.isAbsolute then q
  else { p with
    tail := p.tail ++ q.tail
    components := by
      intro c hc
      rcases List.mem_append.mp hc with hc | hc
      · exact p.components c hc
      · exact q.components c hc }

variable {p q}

section Spelling

theorem splitSuffix_append (name : List Char) :
    (splitSuffix name).1 ++ (splitSuffix name).2 = name := by
  simp only [splitSuffix]
  split
  · exact List.take_append_drop _ _
  · exact List.append_nil _

/-- An ending with one dot in front is the suffix of whatever it is put behind. -/
theorem splitSuffix_ending {stem ending : List Char} (hstem : stem ≠ []) (hending : ending ≠ [])
    (hdot : '.' ∉ ending) : splitSuffix (stem ++ '.' :: ending) = (stem, '.' :: ending) := by
  have hbefore : (stem ++ '.' :: ending).rdropWhile (· ≠ '.') = stem ++ ['.'] := by
    have hreverse : (stem ++ '.' :: ending).reverse =
        ending.reverse ++ '.' :: stem.reverse := by simp
    have hclear : ∀ c ∈ ending.reverse, decide (c ≠ '.') = true := by
      intro c hc
      exact decide_eq_true fun heq => hdot (heq ▸ List.mem_reverse.mp hc)
    unfold List.rdropWhile
    rw [hreverse, List.dropWhile_append_of_pos hclear]
    simp
  have hstemLength := List.length_pos_iff.mpr hstem
  have hendingLength := List.length_pos_iff.mpr hending
  unfold splitSuffix
  rw [hbefore]
  simp only [List.length_append, List.length_cons, List.length_nil]
  rw [if_pos (by omega)]
  simp

theorem stem_append_suffix (p : PurePosixPath) : p.stem ++ p.suffix = p.name := by
  rw [stem, suffix, ← String.ofList_append, splitSuffix_append, String.ofList_toList]

theorem stem_ne_of_suffix (h : p.suffix ≠ "") : p.stem ≠ "" := by
  unfold suffix stem splitSuffix at *
  simp only at h ⊢
  split at h
  · rename_i hdot
    rw [if_pos hdot]
    intro hempty
    have hlength := congrArg List.length (String.ofList_eq_empty_iff.mp hempty)
    rw [List.length_take, List.length_nil] at hlength
    omega
  · exact absurd rfl h

theorem tail_ne_of_suffix (h : p.suffix ≠ "") : p.tail ≠ [] := by
  intro htail
  apply h
  simp [suffix, name, htail, splitSuffix]

theorem withSuffix_eq_some {ending : String} (h : p.withSuffix ending = some q) :
    p.stem ≠ "" ∧ p.tail ≠ [] ∧ q.root = p.root ∧
      q.tail = p.tail.dropLast ++ [p.stem ++ ending] := by
  unfold withSuffix at h
  split at h
  · cases h
  · rename_i hstem
    split at h
    · cases h
    · unfold withName at h
      split at h
      · rename_i hname
        obtain rfl := Option.some.inj h
        exact ⟨hstem, hname.2, rfl, rfl⟩
      · cases h

theorem tail_eq_append_name (h : p.tail ≠ []) : p.tail = p.tail.dropLast ++ [p.name] := by
  unfold name
  rw [List.getLast?_eq_some_getLast h, Option.getD_some, List.dropLast_append_getLast h]

/-- The spelling of a relative path is read back as the path. -/
theorem parse_asPosix (h : p.root = "") : parse p.asPosix = p := by
  obtain ⟨root, tail, hroot, hcomponents⟩ := p
  obtain rfl : root = "" := h
  have hslash : ∀ l ∈ tail.map String.toList, '/' ∉ l := by
    intro l hl
    obtain ⟨c, hc, rfl⟩ := List.mem_map.mp hl
    exact (hcomponents c hc).2.2
  unfold parse asPosix
  simp only [mk.injEq]
  by_cases htail : tail = []
  · subst htail
    decide
  · rw [if_neg (by simp [htail])]
    have htext : ("" ++ "/".intercalate tail).toList =
        ['/'].intercalate (tail.map String.toList) := by
      simp
    rw [htext]
    constructor
    · obtain ⟨c, tail, rfl⟩ := List.exists_cons_of_ne_nil htail
      have hc := hcomponents c List.mem_cons_self
      obtain ⟨x, w, hw⟩ := List.exists_cons_of_ne_nil (mt String.toList_eq_nil_iff.mp hc.1)
      have hx : x ≠ '/' := by
        rintro rfl
        exact hc.2.2 (hw ▸ List.mem_cons_self)
      cases tail with
      | nil =>
        simp only [List.map_cons, List.map_nil, List.intercalate_singleton, hw]
        unfold rootOf
        split <;> simp_all
      | cons d tail =>
        simp only [List.map_cons, List.intercalate_cons_cons, hw, List.cons_append]
        unfold rootOf
        split <;> simp_all
    · have hsplit : (['/'].intercalate (tail.map String.toList)).splitOnP (· = '/') =
          tail.map String.toList := by
        have h := List.splitOn_intercalate '/' hslash (by simpa using htail)
        rwa [List.splitOn_eq_splitOnP] at h
      have hid : String.ofList ∘ String.toList = id := by
        funext c
        simp
      have hwords : Words.words (· = '/') (['/'].intercalate (tail.map String.toList)) =
          tail.map String.toList := by
        rw [Words.words, hsplit, List.filter_eq_self]
        intro w hw
        obtain ⟨c, hc, rfl⟩ := List.mem_map.mp hw
        simpa using (hcomponents c hc).1
      rw [componentsOf, hwords, List.map_map, hid, List.map_id, List.filter_eq_self]
      intro c hc
      exact decide_eq_true (hcomponents c hc).2.1

end Spelling

end PurePosixPath
