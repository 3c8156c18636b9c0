import Mathlib.Data.Finset.Dedup
import Mathlib.Data.Finset.Insert
import Mathlib.Data.Prod.Lex
import Mathlib.Data.String.Basic
import MonitorController.Foundation.Dict
import MonitorController.Foundation.Matching
import MonitorController.Foundation.Words

/-! # Unique bijections

A table offers every saved output some live outputs. The search for a complete
bijection onto the required outputs stops at the second solution, and its
verdict is exact: no bijection, the only one, or several.
-/

namespace MonitorController.Mapping

open Words

/-- Candidate edges form more than one complete bijection. -/
inductive AmbiguousBijectionError where
  | ambiguousBijection
  deriving DecidableEq, Repr

/-- `MAX_MAPPING_SOLUTIONS`. -/
def maxSolutions : Nat := 2

/-- The keys with the fewest candidates first, and those with as many by name. -/
def ordered (candidates : Dict String (List String)) : List (String × List String) :=
  sortedBy (fun row => toLex (row.2.length, row.1)) candidates

def uniqueBijection (candidates : Dict String (List String)) (required : Finset String) :
    Except AmbiguousBijectionError (Option (Dict String String)) :=
  let solutions := Matching.search (fun used => used.toFinset = required) maxSolutions
    (ordered candidates) [] [] []
  if 1 < solutions.length then .error .ambiguousBijection else .ok solutions.head?

/-- A complete bijection, as the map from keys which a dictionary stands for: it picks a candidate
for every key of the table, none of them twice, and all required outputs. -/
structure CompleteBijection (candidates : Dict String (List String)) (required : Finset String)
    (f : String → Option String) : Prop where
  keys : ∀ k, (f k).isSome ↔ k ∈ candidates.keys
  candidate : ∀ k v, f k = some v → ∃ row ∈ candidates, row.1 = k ∧ v ∈ row.2
  injective : ∀ k l v, f k = some v → f l = some v → k = l
  onto : ∀ v, v ∈ required ↔ ∃ k, f k = some v

section Solutions

variable {candidates : Dict String (List String)} {required : Finset String}

def allSolutions (candidates : Dict String (List String)) (required : Finset String) :
    List (Dict String String) :=
  Matching.completions (fun used => used.toFinset = required) (ordered candidates) []

theorem uniqueBijection_eq : uniqueBijection candidates required =
    match allSolutions candidates required with
    | [] => .ok none
    | [m] => .ok (some m)
    | _ :: _ :: _ => .error .ambiguousBijection := by
  unfold uniqueBijection
  rw [Matching.search_start]
  change (if 1 < ((allSolutions candidates required).take maxSolutions).length then _ else
    Except.ok ((allSolutions candidates required).take maxSolutions).head?) = _
  cases allSolutions candidates required with
  | nil => rfl
  | cons m rest =>
    cases rest with
    | nil => rfl
    | cons m' rest => simp [maxSolutions]

theorem ordered_perm (candidates : Dict String (List String)) :
    (ordered candidates).Perm candidates := sortedBy_perm candidates

theorem nodup_allSolutions (h : ∀ row ∈ candidates, row.2.Nodup) :
    (allSolutions candidates required).Nodup :=
  Matching.completions_nodup fun row hrow => h row ((ordered_perm candidates).mem_iff.mp hrow)

/-- The solutions are the complete bijections, written down in the order of the keys. -/
theorem mem_allSolutions (hkeys : candidates.keys.Nodup) {m : Dict String String} :
    m ∈ allSolutions candidates required ↔ m.keys = Dict.keys (ordered candidates) ∧
      CompleteBijection candidates required fun k => Dict.get? k m := by
  have hordered : (Dict.keys (ordered candidates)).Nodup :=
    ((ordered_perm candidates).map _).nodup_iff.mpr hkeys
  have hmem : ∀ row, row ∈ ordered candidates ↔ row ∈ candidates := fun row =>
    (ordered_perm candidates).mem_iff
  have hkeysOf : ∀ k, k ∈ Dict.keys (ordered candidates) ↔ k ∈ candidates.keys := fun k =>
    ((ordered_perm candidates).map _).mem_iff
  unfold allSolutions
  rw [Matching.mem_completions, Matching.chooses_iff hordered, and_assoc, List.append_nil,
    decide_eq_true_iff, List.toFinset_reverse]
  refine and_congr_right fun hsame => ?_
  change m.keys = Dict.keys (ordered candidates) at hsame
  have hnodup : m.keys.Nodup := hsame ▸ hordered
  have hget : ∀ k v, (k, v) ∈ m ↔ Dict.get? k m = some v := fun k v => Dict.mem_iff_get? hnodup
  constructor
  · rintro ⟨⟨hcandidate, hvalues, -⟩, hrequired⟩
    constructor
    · intro k
      rw [Dict.isSome_get?, hsame, hkeysOf]
    · intro k v hkv
      obtain ⟨row, hrow, hkey, hv⟩ := hcandidate (k, v) ((hget k v).mpr hkv)
      exact ⟨row, (hmem row).mp hrow, hkey, hv⟩
    · intro k l v hk hl
      have heq := List.inj_on_of_nodup_map hvalues ((hget k v).mpr hk) ((hget l v).mpr hl) rfl
      exact (Prod.mk.inj heq).1
    · intro v
      rw [← hrequired, List.mem_toFinset, List.mem_map]
      constructor
      · rintro ⟨⟨k, w⟩, hkw, rfl⟩
        exact ⟨k, (hget k w).mp hkw⟩
      · rintro ⟨k, hk⟩
        exact ⟨(k, v), (hget k v).mpr hk, rfl⟩
  · intro hf
    refine ⟨⟨?_, ?_, fun _ _ => List.not_mem_nil⟩, ?_⟩
    · rintro ⟨k, v⟩ hkv
      obtain ⟨row, hrow, hkey, hv⟩ := hf.candidate k v ((hget k v).mp hkv)
      exact ⟨row, (hmem row).mpr hrow, hkey, hv⟩
    · refine List.Nodup.map_on ?_ (List.Nodup.of_map _ hnodup)
      rintro ⟨k, v⟩ hk ⟨l, w⟩ hl (rfl : v = w)
      obtain rfl := hf.injective k l v ((hget k v).mp hk) ((hget l v).mp hl)
      rfl
    · ext v
      rw [List.mem_toFinset, List.mem_map, hf.onto]
      constructor
      · rintro ⟨⟨k, w⟩, hkw, rfl⟩
        exact ⟨k, (hget k w).mp hkw⟩
      · rintro ⟨k, hk⟩
        exact ⟨(k, v), (hget k v).mpr hk, rfl⟩

/-- Every complete bijection is found. -/
theorem exists_solution (hkeys : candidates.keys.Nodup) {f : String → Option String}
    (hf : CompleteBijection candidates required f) :
    ∃ m ∈ allSolutions candidates required, ∀ k, Dict.get? k m = f k := by
  have hordered : (Dict.keys (ordered candidates)).Nodup :=
    ((ordered_perm candidates).map _).nodup_iff.mpr hkeys
  have hkeysOf : ∀ k, k ∈ Dict.keys (ordered candidates) ↔ k ∈ candidates.keys := fun k =>
    ((ordered_perm candidates).map _).mem_iff
  let m : Dict String String := (ordered candidates).map fun row => (row.1, (f row.1).getD "")
  have hsame : m.keys = Dict.keys (ordered candidates) := by
    simp [m, Dict.keys, Function.comp_def]
  have hget : ∀ k, Dict.get? k m = f k := by
    intro k
    cases hk : f k with
    | none =>
      rw [Dict.get?_eq_none, hsame, hkeysOf, ← hf.keys, hk]
      exact Bool.false_ne_true
    | some v =>
      have hmem : k ∈ Dict.keys (ordered candidates) := by
        rw [hkeysOf, ← hf.keys, hk]
        rfl
      rw [← Dict.mem_iff_get? (hsame ▸ hordered)]
      obtain ⟨row, hrow, rfl⟩ := List.mem_map.mp hmem
      exact List.mem_map.mpr ⟨row, hrow, by rw [hk]; rfl⟩
  refine ⟨m, (mem_allSolutions hkeys).mpr ⟨hsame, ?_⟩, hget⟩
  have hfun : (fun k => Dict.get? k m) = f := funext hget
  rw [hfun]
  exact hf

theorem solution_inj (hkeys : candidates.keys.Nodup) {m m' : Dict String String}
    (hm : m ∈ allSolutions candidates required) (hm' : m' ∈ allSolutions candidates required)
    (h : ∀ k, Dict.get? k m = Dict.get? k m') : m = m' := by
  obtain ⟨hsame, -⟩ := (mem_allSolutions hkeys).mp hm
  obtain ⟨hsame', -⟩ := (mem_allSolutions hkeys).mp hm'
  refine Dict.eq_of_get? (hsame.trans hsame'.symm) ?_ h
  rw [hsame]
  exact ((ordered_perm candidates).map _).nodup_iff.mpr hkeys

end Solutions

/-- The verdict of the search is exact. -/
theorem uniqueBijection_exact {candidates : Dict String (List String)} (required : Finset String)
    (hkeys : candidates.keys.Nodup) (hnodup : ∀ row ∈ candidates, row.2.Nodup) :
    (∀ f, (∃ m, uniqueBijection candidates required = .ok (some m) ∧
        ∀ k, Dict.get? k m = f k) ↔
      CompleteBijection candidates required f ∧
        ∀ g, CompleteBijection candidates required g → g = f) ∧
    (uniqueBijection candidates required = .ok none ↔
      ¬ ∃ f, CompleteBijection candidates required f) ∧
    (uniqueBijection candidates required = .error .ambiguousBijection ↔
      ∃ f g, CompleteBijection candidates required f ∧ CompleteBijection candidates required g ∧
        f ≠ g) := by
  have hdistinct : (allSolutions candidates required).Nodup := nodup_allSolutions hnodup
  have hsound : ∀ m ∈ allSolutions candidates required,
      CompleteBijection candidates required fun k => Dict.get? k m := fun m hm =>
    ((mem_allSolutions hkeys).mp hm).2
  have hcomplete : ∀ f, CompleteBijection candidates required f →
      ∃ m ∈ allSolutions candidates required, ∀ k, Dict.get? k m = f k := fun f hf =>
    exists_solution hkeys hf
  have hinj : ∀ m ∈ allSolutions candidates required, ∀ m' ∈ allSolutions candidates required,
      (∀ k, Dict.get? k m = Dict.get? k m') → m = m' := fun m hm m' hm' =>
    solution_inj hkeys hm hm'
  rw [uniqueBijection_eq]
  generalize allSolutions candidates required = solutions at *
  match solutions with
  | [] =>
    have hnone : ∀ f, ¬ CompleteBijection candidates required f := by
      intro f hf
      obtain ⟨m, hm, -⟩ := hcomplete f hf
      cases hm
    refine ⟨fun f => ?_, ?_, ?_⟩
    · constructor
      · rintro ⟨m, hm, -⟩
        cases hm
      · rintro ⟨hf, -⟩
        exact absurd hf (hnone f)
    · exact iff_of_true rfl fun ⟨f, hf⟩ => hnone f hf
    · constructor
      · intro h
        cases h
      · rintro ⟨f, g, hf, -⟩
        exact absurd hf (hnone f)
  | [m] =>
    have hsole : ∀ f, CompleteBijection candidates required f → f = fun k => Dict.get? k m := by
      intro f hf
      obtain ⟨m', hm', hget⟩ := hcomplete f hf
      obtain rfl := List.mem_singleton.mp hm'
      exact (funext hget).symm
    have hm := hsound m (List.mem_singleton_self m)
    refine ⟨fun f => ?_, ?_, ?_⟩
    · constructor
      · rintro ⟨m', hm', hget⟩
        obtain rfl := Option.some.inj (Except.ok.inj hm')
        obtain rfl : (fun k => Dict.get? k m) = f := funext hget
        exact ⟨hm, hsole⟩
      · rintro ⟨hf, -⟩
        exact ⟨m, rfl, fun k => congrFun (hsole f hf).symm k⟩
    · constructor
      · intro h
        cases h
      · intro h
        exact absurd ⟨_, hm⟩ h
    · constructor
      · intro h
        cases h
      · rintro ⟨f, g, hf, hg, hne⟩
        exact absurd ((hsole f hf).trans (hsole g hg).symm) hne
  | m :: m' :: rest =>
    have hm := hsound m (by simp)
    have hm' := hsound m' (by simp)
    have hne : (fun k => Dict.get? k m) ≠ fun k => Dict.get? k m' := by
      intro heq
      obtain rfl := hinj m (by simp) m' (by simp) (congrFun heq)
      simp at hdistinct
    refine ⟨fun f => ?_, ?_, ?_⟩
    · constructor
      · rintro ⟨_, hm, -⟩
        cases hm
      · rintro ⟨-, hsole⟩
        exact absurd ((hsole _ hm).trans (hsole _ hm').symm) hne
    · constructor
      · intro h
        cases h
      · intro h
        exact absurd ⟨_, hm⟩ h
    · exact iff_of_true rfl ⟨_, _, hm, hm', hne⟩

/-- Two saved outputs, one of which fits everywhere. -/
theorem uniqueBijection_exact_pair : ∃ f,
    CompleteBijection [("DP-1", ["HDMI-1", "eDP-1"]), ("LVDS-1", ["eDP-1"])] {"HDMI-1", "eDP-1"} f ∧
      ∀ g, CompleteBijection [("DP-1", ["HDMI-1", "eDP-1"]), ("LVDS-1", ["eDP-1"])]
        {"HDMI-1", "eDP-1"} g → g = f := by
  have hruns : uniqueBijection [("DP-1", ["HDMI-1", "eDP-1"]), ("LVDS-1", ["eDP-1"])]
      {"HDMI-1", "eDP-1"} = .ok (some [("LVDS-1", "eDP-1"), ("DP-1", "HDMI-1")]) := by
    decide +kernel
  obtain ⟨hsole, -⟩ := uniqueBijection_exact {"HDMI-1", "eDP-1"}
    (by decide : (Dict.keys [("DP-1", ["HDMI-1", "eDP-1"]), ("LVDS-1", ["eDP-1"])]).Nodup)
    (by decide)
  exact ⟨_, (hsole _).mp ⟨_, hruns, fun _ => rfl⟩⟩

end MonitorController.Mapping
