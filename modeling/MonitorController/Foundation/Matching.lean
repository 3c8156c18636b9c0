import Mathlib.Data.List.Perm.Basic
import Mathlib.Data.List.Nodup
import Mathlib.Data.List.Dedup

/-! # Complete matchings

Every row of a table offers candidates for its key, and a matching chooses a
candidate for each row, none of them twice. The backtracking search gives up at
a limit of solutions and finds the first ones up to it.
-/

universe u v

theorem List.take_append_of_take {α : Type u} (l m : List α) (n : Nat) :
    (l.take n ++ m).take n = (l ++ m).take n := by
  by_cases h : l.length ≤ n
  · rw [List.take_of_length_le h]
  · have hlen : (l.take n).length = n := by
      rw [List.length_take]
      omega
    rw [List.take_append_of_le_length (by omega), List.take_append_of_le_length (by omega),
      List.take_take, Nat.min_self]

theorem List.Perm.exists_of_map {α : Type u} {κ : Type v} {f : α → κ} {l : List α} {ks : List κ}
    (h : ks.Perm (l.map f)) : ∃ m : List α, m.Perm l ∧ m.map f = ks := by
  have hrel : List.Forall₂ (fun k a => k = f a) (l.map f) l := by
    rw [List.forall₂_map_left_iff]
    exact List.forall₂_same.mpr fun _ _ => rfl
  obtain ⟨m, hm, hperm⟩ := List.perm_comp_forall₂ h hrel
  have hmap : List.Forall₂ (· = ·) ks (m.map f) := List.forall₂_map_right_iff.mpr hm
  rw [List.forall₂_eq_eq_eq] at hmap
  exact ⟨m, hperm, hmap.symm⟩

theorem List.Perm.eq_of_map {α : Type u} {κ : Type v} {f : α → κ} {l m : List α} (h : l.Perm m)
    (hf : l.map f = m.map f) (hnodup : (l.map f).Nodup) : l = m := by
  have hinj : ∀ a ∈ l, ∀ b ∈ l, f a = f b → a = b :=
    fun a ha b hb => List.inj_on_of_nodup_map hnodup ha hb
  have hlen := h.length_eq
  refine List.ext_getElem hlen fun i hi hj => ?_
  refine hinj _ (List.getElem_mem hi) _ (h.mem_iff.mpr (List.getElem_mem hj)) ?_
  have hkeys : (l.map f).get ⟨i, by simpa using hi⟩ = (m.map f).get ⟨i, by simpa using hj⟩ := by
    exact List.get_of_eq hf _
  simpa using hkeys

namespace Matching

variable {κ : Type u} {ν : Type v} [DecidableEq ν]

section Search

variable (complete : List ν → Bool) (limit : Nat)

/-- The search over the remaining rows, from the candidates used and the choices made. -/
def search : List (κ × List ν) → List ν → List (κ × ν) → List (List (κ × ν)) →
    List (List (κ × ν))
  | [], used, mapping, solutions =>
    if limit ≤ solutions.length then solutions
    else if complete used then solutions ++ [mapping] else solutions
  | (key, candidates) :: rows, used, mapping, solutions =>
    if limit ≤ solutions.length then solutions
    else
      candidates.foldl (fun solutions live =>
        if live ∈ used then solutions
        else search rows (live :: used) (mapping ++ [(key, live)]) solutions) solutions

/-- All ways to complete the matching, in the order of the search. -/
def completions : List (κ × List ν) → List ν → List (List (κ × ν))
  | [], used => if complete used then [[]] else []
  | (key, candidates) :: rows, used =>
    candidates.flatMap fun live =>
      if live ∈ used then []
      else (completions rows (live :: used)).map ((key, live) :: ·)

end Search

variable {complete : List ν → Bool} {limit : Nat}

/-- The search finds the completions up to its limit. -/
theorem search_eq (rows : List (κ × List ν)) (used : List ν) (mapping : List (κ × ν))
    {solutions : List (List (κ × ν))} (h : solutions.length ≤ limit) :
    search complete limit rows used mapping solutions =
      (solutions ++ (completions complete rows used).map (mapping ++ ·)).take limit := by
  induction rows generalizing used mapping solutions with
  | nil =>
    unfold search completions
    split
    · rename_i hfull
      rw [List.take_append_of_le_length hfull, List.take_of_length_le h]
    · rename_i hroom
      split
      · rw [List.take_of_length_le]
        · simp
        · simp only [List.map_cons, List.map_nil, List.length_append, List.length_singleton]
          omega
      · simp [List.take_of_length_le h]
  | cons row rows ih =>
    obtain ⟨key, candidates⟩ := row
    unfold search completions
    split
    · rename_i hfull
      rw [List.take_append_of_le_length hfull, List.take_of_length_le h]
    clear * - ih h
    -- the loop over the candidates keeps the list of solutions within the limit
    induction candidates generalizing solutions with
    | nil => simp [List.take_of_length_le h]
    | cons live candidates ihc =>
      rw [List.foldl_cons, List.flatMap_cons]
      by_cases hused : live ∈ used
      · simpa only [if_pos hused, List.nil_append] using ihc h
      · simp only [if_neg hused]
        rw [ih _ _ h, ihc (List.length_take_le _ _), List.take_append_of_take]
        simp [List.map_map, Function.comp_def]

theorem search_start (rows : List (κ × List ν)) :
    search complete limit rows [] [] [] = (completions complete rows []).take limit := by
  rw [search_eq rows [] [] (Nat.zero_le limit)]
  simp only [List.nil_append, List.map_id']

/-- A matching chooses for every row one of its candidates, and no candidate twice. -/
structure Chooses (rows : List (κ × List ν)) (used : List ν) (m : List (κ × ν)) : Prop where
  rows : List.Forall₂ (fun choice row => choice.1 = row.1 ∧ choice.2 ∈ row.2) m rows
  nodup : (m.map Prod.snd).Nodup
  unused : ∀ choice ∈ m, choice.2 ∉ used

omit [DecidableEq ν] in
/-- With distinct keys a choice is determined by them and by what each key may be given. -/
theorem chooses_iff {rows : List (κ × List ν)} {used : List ν} {m : List (κ × ν)}
    (h : (rows.map Prod.fst).Nodup) :
    Chooses rows used m ↔ m.map Prod.fst = rows.map Prod.fst ∧
      (∀ choice ∈ m, ∃ row ∈ rows, row.1 = choice.1 ∧ choice.2 ∈ row.2) ∧
      (m.map Prod.snd).Nodup ∧ ∀ choice ∈ m, choice.2 ∉ used := by
  constructor
  · rintro ⟨hrows, hnodup, hunused⟩
    refine ⟨?_, ?_, hnodup, hunused⟩
    · have heq : List.Forall₂ (· = ·) (m.map Prod.fst) (rows.map Prod.fst) :=
        List.forall₂_map_left_iff.mpr (List.forall₂_map_right_iff.mpr (hrows.imp fun _ _ h => h.1))
      rwa [List.forall₂_eq_eq_eq] at heq
    · intro choice hchoice
      clear hnodup hunused h
      induction hrows with
      | nil => cases hchoice
      | cons hhead _ ih =>
        rename_i row _ _ _
        rcases List.mem_cons.mp hchoice with rfl | hchoice
        · exact ⟨row, List.mem_cons_self, hhead.1.symm, hhead.2⟩
        · obtain ⟨row, hrow, hkey⟩ := ih hchoice
          exact ⟨row, List.mem_cons_of_mem _ hrow, hkey⟩
  · rintro ⟨hkeys, hchoices, hnodup, hunused⟩
    refine ⟨List.forall₂_iff_zip.mpr ⟨by simpa using congrArg List.length hkeys, ?_⟩, hnodup,
      hunused⟩
    intro choice row hzip
    obtain ⟨hchoice, hrow⟩ := List.of_mem_zip hzip
    have hkey : choice.1 = row.1 := by
      have heq : List.Forall₂ (· = ·) (m.map Prod.fst) (rows.map Prod.fst) := by
        rw [hkeys, List.forall₂_eq_eq_eq]
      rw [List.forall₂_map_left_iff, List.forall₂_map_right_iff] at heq
      exact (List.forall₂_iff_zip.mp heq).2 hzip
    obtain ⟨row', hrow', hkey', hmem⟩ := hchoices choice hchoice
    obtain rfl := List.inj_on_of_nodup_map h hrow' hrow (hkey'.trans hkey)
    exact ⟨hkey, hmem⟩

theorem mem_completions {rows : List (κ × List ν)} {used : List ν} {m : List (κ × ν)} :
    m ∈ completions complete rows used ↔
      Chooses rows used m ∧ complete ((m.map Prod.snd).reverse ++ used) = true := by
  induction rows generalizing used m with
  | nil =>
    constructor
    · intro h
      unfold completions at h
      split at h
      · obtain rfl := List.mem_singleton.mp h
        exact ⟨⟨.nil, List.nodup_nil, by simp⟩, by assumption⟩
      · cases h
    · rintro ⟨⟨hrows, -, -⟩, hcomplete⟩
      cases hrows
      have hused : complete used = true := hcomplete
      simp [completions, hused]
  | cons row rows ih =>
    obtain ⟨key, candidates⟩ := row
    unfold completions
    simp only [List.mem_flatMap]
    constructor
    · rintro ⟨live, hlive, hm⟩
      split at hm
      · cases hm
      rename_i hused
      rw [List.mem_map] at hm
      obtain ⟨m, hm, rfl⟩ := hm
      obtain ⟨⟨hrows, hnodup, hunused⟩, hcomplete⟩ := ih.mp hm
      refine ⟨⟨.cons ⟨rfl, hlive⟩ hrows, ?_, ?_⟩, by simpa using hcomplete⟩
      · rw [List.map_cons, List.nodup_cons]
        refine ⟨fun hmem => ?_, hnodup⟩
        obtain ⟨choice, hchoice, heq⟩ := List.mem_map.mp hmem
        exact hunused choice hchoice (heq ▸ List.mem_cons_self)
      · intro choice hchoice
        rcases List.mem_cons.mp hchoice with rfl | hchoice
        · exact hused
        · exact fun h => hunused choice hchoice (List.mem_cons_of_mem _ h)
    · rintro ⟨⟨hrows, hnodup, hunused⟩, hcomplete⟩
      cases hrows with
      | cons hhead hrows =>
        rename_i choice m
        obtain ⟨k, live⟩ := choice
        obtain ⟨rfl, hlive⟩ := hhead
        rw [List.map_cons, List.nodup_cons] at hnodup
        refine ⟨live, hlive, ?_⟩
        rw [if_neg (hunused _ List.mem_cons_self)]
        refine List.mem_map.mpr ⟨m, ih.mpr ⟨⟨hrows, hnodup.2, ?_⟩, by simpa using hcomplete⟩, rfl⟩
        intro choice hchoice hmem
        rcases List.mem_cons.mp hmem with heq | hmem
        · exact hnodup.1 (List.mem_map.mpr ⟨choice, hchoice, heq⟩)
        · exact hunused choice (List.mem_cons_of_mem _ hchoice) hmem

/-- No completion is found twice when no row repeats a candidate. -/
theorem completions_nodup {rows : List (κ × List ν)} {used : List ν}
    (h : ∀ row ∈ rows, row.2.Nodup) : (completions complete rows used).Nodup := by
  induction rows generalizing used with
  | nil =>
    unfold completions
    split <;> simp
  | cons row rows ih =>
    obtain ⟨key, candidates⟩ := row
    have hcandidates : candidates.Nodup := h _ List.mem_cons_self
    unfold completions
    rw [List.nodup_flatMap]
    constructor
    · intro live _
      split
      · exact List.nodup_nil
      · refine (ih fun r hr => h r (List.mem_cons_of_mem _ hr)).map fun a b hab => ?_
        exact (List.cons.inj hab).2
    · refine hcandidates.imp fun {a b} hab m hma hmb => ?_
      simp only at hma hmb
      split at hma
      · cases hma
      split at hmb
      · cases hmb
      obtain ⟨s, -, rfl⟩ := List.mem_map.mp hma
      obtain ⟨t, -, ht⟩ := List.mem_map.mp hmb
      exact hab (Prod.mk.inj (List.cons.inj ht).1).2.symm

end Matching
