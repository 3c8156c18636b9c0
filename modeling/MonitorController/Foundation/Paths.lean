import Mathlib.Data.List.DropRight
import Mathlib.Data.String.Basic

/-! # Paths

A path is split at its slashes.
-/

namespace Paths

open String

/-- `path.rsplit("/", maxsplit=1)[-1]`: what follows the last slash. -/
def lastComponent (path : String) : String := ofList (path.toList.rtakeWhile (· ≠ '/'))

/-- The splitting loop, from the part before the current component, the component and the rest. -/
theorem splitOnAux_slash (l m r : List Char) (acc : List String) :
    splitOnAux (ofList (l ++ m ++ r)) "/" ⟨utf8Len l⟩ ⟨utf8Len l + utf8Len m⟩ 0 acc =
      acc.reverse ++ (List.splitOnPPrepend (· = '/') r m.reverse).map ofList := by
  have hend : Pos.Raw.atEnd (ofList (l ++ m ++ r)) ⟨utf8Len l + utf8Len m⟩ = true ↔ r = [] := by
    rw [atEnd_iff, rawEndPos_ofList, ← utf8Len_eq_zero, Pos.Raw.mk_le_mk, utf8Len_append,
      utf8Len_append]
    omega
  unfold splitOnAux
  cases r with
  | nil =>
    have hextract := extract_of_valid l m []
    rw [if_pos (hend.mpr rfl), hextract]
    simp
  | cons c r =>
    have hget : Pos.Raw.get (ofList (l ++ m ++ c :: r)) ⟨utf8Len l + utf8Len m⟩ = c := by
      simpa [-ofList_append] using get_of_valid (l ++ m) (c :: r)
    have hnext : Pos.Raw.next (ofList (l ++ m ++ c :: r)) ⟨utf8Len l + utf8Len m⟩ =
        ⟨utf8Len l + utf8Len m + c.utf8Size⟩ := by
      simpa [-ofList_append] using next_of_valid (l ++ m) c r
    have hextract := extract_of_valid l m (c :: r)
    have hslash : Pos.Raw.get "/" 0 = '/' := by decide
    have hslashNext : Pos.Raw.next "/" 0 = ⟨1⟩ := by decide
    have hslashEnd : Pos.Raw.atEnd "/" ⟨1⟩ = true := by decide
    have hsize : '/'.utf8Size = 1 := by decide
    have hstay : Pos.Raw.unoffsetBy ⟨utf8Len l + utf8Len m⟩ 0 = ⟨utf8Len l + utf8Len m⟩ := by
      simp [Pos.Raw.unoffsetBy]
    have hback : Pos.Raw.unoffsetBy ⟨utf8Len l + utf8Len m + '/'.utf8Size⟩ ⟨1⟩ =
        ⟨utf8Len l + utf8Len m⟩ := by
      simp [Pos.Raw.unoffsetBy, hsize]
    rw [if_neg (fun h => List.cons_ne_nil _ _ (hend.mp h)), hget, hnext, hslash, hslashNext,
      if_pos hslashEnd]
    by_cases h : c = '/'
    · subst h
      rw [if_pos (by simp), hback, hextract]
      simpa [Nat.add_assoc, List.splitOnPPrepend_cons_eq_if] using
        splitOnAux_slash (l ++ m ++ ['/']) [] r (ofList m :: acc)
    · rw [if_neg (by simpa using h), hstay, hnext]
      simpa [List.splitOnPPrepend_cons_eq_if, h, Nat.add_assoc] using
        splitOnAux_slash l (m ++ [c]) r acc
termination_by r.length

theorem splitOn_slash (path : String) :
    path.splitOn "/" = (path.toList.splitOnP (· = '/')).map ofList := by
  have h := splitOnAux_slash [] [] path.toList []
  unfold splitOn
  rw [if_neg (by decide)]
  simpa using h

/-- What stands between slashes, or after the last one, is a component. -/
theorem mem_splitOn {before component after : List Char} (h : '/' ∉ component)
    (hbefore : before = [] ∨ ∃ l, before = l ++ ['/'])
    (hafter : after = [] ∨ ∃ l, after = '/' :: l) :
    ofList component ∈ (ofList (before ++ component ++ after)).splitOn "/" := by
  have hclear : ∀ c ∈ component, decide (c = '/') = false := by
    intro c hc
    exact decide_eq_false fun heq => h (heq ▸ hc)
  have hrest : component ∈ (component ++ after).splitOnP (· = '/') := by
    rcases hafter with rfl | ⟨l, rfl⟩
    · simp [List.splitOnP_eq_singleton hclear]
    · simp [List.splitOnP_append_cons_of_forall_mem hclear]
  rw [splitOn_slash, toList_ofList, List.append_assoc]
  refine List.mem_map.mpr ⟨component, ?_, rfl⟩
  rcases hbefore with rfl | ⟨l, rfl⟩
  · exact hrest
  · rw [List.append_assoc, List.singleton_append, List.splitOnP_append_cons _ _ (by simp)]
    exact List.mem_append_right _ hrest

theorem splitOn_append_file {file : String} (h : '/' ∉ file.toList) (directory : String) :
    (directory ++ "/" ++ file).splitOn "/" = directory.splitOn "/" ++ [file] := by
  have hclear : ∀ c ∈ file.toList, decide (c = '/') = false := by
    intro c hc
    exact decide_eq_false fun heq => h (heq ▸ hc)
  have htext : (directory ++ "/" ++ file).toList = directory.toList ++ '/' :: file.toList := by
    simp
  rw [splitOn_slash, splitOn_slash, htext, List.splitOnP_append_cons _ _ (by simp),
    List.splitOnP_eq_singleton hclear, List.map_append, List.map_singleton, ofList_toList]

theorem lastComponent_append {name : String} (h : '/' ∉ name.toList) (directory : String) :
    lastComponent (directory ++ "/" ++ name) = name := by
  have hclear : ∀ c ∈ name.toList.reverse, decide (c ≠ '/') = true := by
    intro c hc
    exact decide_eq_true fun heq => h (heq ▸ List.mem_reverse.mp hc)
  have hreverse : (directory ++ "/" ++ name).toList.reverse =
      name.toList.reverse ++ '/' :: directory.toList.reverse := by
    simp
  unfold lastComponent List.rtakeWhile
  rw [hreverse, List.takeWhile_append_of_pos hclear]
  simp

end Paths
