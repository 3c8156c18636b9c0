import Mathlib.Algebra.Order.BigOperators.Group.Finset
import Mathlib.Algebra.Order.Ring.Int
import Mathlib.Data.Fintype.BigOperators
import Mathlib.Data.Fintype.EquivFin
import Mathlib.Data.List.FinRange
import Mathlib.Data.List.Permutation

/-! # Assignments

The places of one list are assigned the elements of another, each of them once.
Elements are told apart by their position, so that an assignment is a bijection
of positions. Whether there is none, one or several does not depend on the order
of either list.
-/

universe u v

namespace Assignment

variable {α : Type u} {β : Type v}

section Search

variable (fits : α → β → Bool)

/-- The arrangements of the second list which fit the first place by place. -/
def assignments (ws : List α) (es : List β) : List (List β) :=
  es.permutations'.filter fun order => (ws.zip order).all fun p => fits p.1 p.2

/-- A bijection of positions which fits everywhere. -/
def Fits {ws : List α} {es : List β} (σ : Fin ws.length ≃ Fin es.length) : Prop :=
  ∀ i, fits (ws.get i) (es.get (σ i)) = true

def orders (ws : List α) (es : List β) : List (List (Fin es.length)) :=
  (List.finRange es.length).permutations'.filter fun order =>
    (ws.zip (order.map es.get)).all fun p => fits p.1 p.2

end Search

variable {fits : α → β → Bool} {ws vs : List α} {es ds : List β}

theorem assignments_eq : assignments fits ws es = (orders fits ws es).map (List.map es.get) := by
  have hes : es.permutations' = (List.finRange es.length).permutations'.map (List.map es.get) := by
    rw [List.map_permutations', ← List.ofFn_eq_map, List.ofFn_get]
  rw [assignments, hes, List.filter_map]
  rfl

theorem orders_nodup : (orders fits ws es).Nodup := by
  refine List.Nodup.filter _ ?_
  rw [← (List.permutations_perm_permutations' _).nodup_iff]
  exact List.nodup_permutations _ (List.nodup_finRange _)

theorem zip_ofFn (f : Fin ws.length → β) :
    ws.zip (List.ofFn f) = List.ofFn fun i => (ws.get i, f i) := by
  refine List.ext_getElem (by simp) fun i hi hj => ?_
  simp

theorem perm_ofFn {m n : Nat} (σ : Fin m ≃ Fin n) : (List.ofFn σ).Perm (List.finRange n) := by
  refine (List.perm_ext_iff_of_nodup (List.nodup_ofFn.mpr σ.injective)
    (List.nodup_finRange n)).mpr fun i => ?_
  simpa [List.mem_ofFn] using σ.surjective i

theorem exists_ofFn {m n : Nat} (h : m = n) {order : List (Fin n)}
    (horder : order.Perm (List.finRange n)) : ∃ σ : Fin m ≃ Fin n, List.ofFn σ = order := by
  subst h
  have hlen : order.length = m := by simpa using horder.length_eq
  have hnodup : order.Nodup := horder.nodup_iff.mpr (List.nodup_finRange m)
  have hinj : Function.Injective fun i : Fin m => order.get (i.cast hlen.symm) := by
    intro i j hij
    exact Fin.cast_injective _ (List.nodup_iff_injective_get.mp hnodup hij)
  refine ⟨.ofBijective _ ⟨hinj, Finite.surjective_of_injective hinj⟩, ?_⟩
  refine List.ext_getElem (by simp [hlen]) fun i hi hj => ?_
  simp

/-- The fitting arrangements are the fitting bijections. -/
theorem mem_orders (h : ws.length = es.length) {order : List (Fin es.length)} :
    order ∈ orders fits ws es ↔
      ∃ σ : Fin ws.length ≃ Fin es.length, Fits fits σ ∧ List.ofFn σ = order := by
  have hfits : ∀ σ : Fin ws.length ≃ Fin es.length,
      ((ws.zip ((List.ofFn σ).map es.get)).all fun p => fits p.1 p.2) = true ↔ Fits fits σ := by
    intro σ
    rw [List.map_ofFn, zip_ofFn, List.all_eq_true, List.forall_mem_ofFn_iff]
    rfl
  rw [orders, List.mem_filter, List.mem_permutations']
  constructor
  · rintro ⟨hperm, hall⟩
    obtain ⟨σ, rfl⟩ := exists_ofFn h hperm
    exact ⟨σ, (hfits σ).mp hall, rfl⟩
  · rintro ⟨σ, hσ, rfl⟩
    exact ⟨perm_ofFn σ, (hfits σ).mpr hσ⟩

theorem assignments_eq_nil (h : ws.length = es.length) :
    assignments fits ws es = [] ↔ ¬ ∃ σ : Fin ws.length ≃ Fin es.length, Fits fits σ := by
  rw [assignments_eq, List.map_eq_nil_iff, List.eq_nil_iff_forall_not_mem]
  constructor
  · rintro hnone ⟨σ, hσ⟩
    exact hnone _ ((mem_orders h).mpr ⟨σ, hσ, rfl⟩)
  · intro hnone order horder
    obtain ⟨σ, hσ, -⟩ := (mem_orders h).mp horder
    exact hnone ⟨σ, hσ⟩

theorem length_assignments (h : ws.length = es.length) :
    (assignments fits ws es).length = 1 ↔
      ∃! σ : Fin ws.length ≃ Fin es.length, Fits fits σ := by
  have hinj : ∀ σ τ : Fin ws.length ≃ Fin es.length, List.ofFn σ = List.ofFn τ → σ = τ :=
    fun σ τ hστ => Equiv.coe_fn_injective (List.ofFn_injective hστ)
  rw [assignments_eq, List.length_map]
  constructor
  · intro hone
    obtain ⟨order, horder⟩ := List.length_eq_one_iff.mp hone
    obtain ⟨σ, hσ, hline⟩ := (mem_orders h).mp (horder ▸ List.mem_singleton_self order)
    refine ⟨σ, hσ, fun τ hτ => hinj τ σ ?_⟩
    have hmem := (mem_orders h).mpr ⟨τ, hτ, rfl⟩
    rw [horder, List.mem_singleton] at hmem
    exact hmem.trans hline.symm
  · rintro ⟨σ, hσ, hunique⟩
    have hall : ∀ order ∈ orders fits ws es, order = List.ofFn σ := by
      intro order horder
      obtain ⟨τ, hτ, rfl⟩ := (mem_orders h).mp horder
      rw [hunique τ hτ]
    have hmem := (mem_orders h).mpr ⟨σ, hσ, rfl⟩
    have hcount := List.eq_replicate_of_mem hall
    have hle : (orders fits ws es).count (List.ofFn σ) ≤ 1 :=
      List.nodup_iff_count_le_one.mp orders_nodup _
    rw [hcount, List.count_replicate_self] at hle
    have hpos := List.length_pos_of_mem hmem
    omega

theorem fits_symm (σ : Fin ws.length ≃ Fin es.length) :
    Fits (fun e w => fits w e) σ.symm ↔ Fits fits σ := by
  constructor
  · intro h i
    have hi := h (σ i)
    rwa [σ.symm_apply_apply] at hi
  · intro h j
    have hj := h (σ.symm j)
    rwa [σ.apply_symm_apply] at hj

theorem existsUnique_symm :
    (∃! σ : Fin es.length ≃ Fin ws.length, Fits (fun e w => fits w e) σ) ↔
      ∃! σ : Fin ws.length ≃ Fin es.length, Fits fits σ := by
  constructor
  · rintro ⟨τ, hτ, hunique⟩
    refine ⟨τ.symm, (fits_symm τ.symm).mp hτ, fun σ hσ => ?_⟩
    rw [← hunique σ.symm ((fits_symm σ).mpr hσ), Equiv.symm_symm]
  · rintro ⟨σ, hσ, hunique⟩
    refine ⟨σ.symm, (fits_symm σ).mpr hσ, fun τ hτ => ?_⟩
    rw [← hunique τ.symm ((fits_symm τ.symm).mp hτ), Equiv.symm_symm]

theorem exists_symm :
    (∃ σ : Fin es.length ≃ Fin ws.length, Fits (fun e w => fits w e) σ) ↔
      ∃ σ : Fin ws.length ≃ Fin es.length, Fits fits σ := by
  constructor
  · rintro ⟨τ, hτ⟩
    exact ⟨τ.symm, (fits_symm τ.symm).mp hτ⟩
  · rintro ⟨σ, hσ⟩
    exact ⟨σ.symm, (fits_symm σ).mpr hσ⟩

theorem assignments_perm_right (h : es.Perm ds) :
    (assignments fits ws es).Perm (assignments fits ws ds) :=
  h.permutations'.filter _

section Order

variable (hws : ws.Perm vs) (hes : es.Perm ds) (h : ws.length = es.length)

include hws hes h

theorem assignments_eq_nil_perm :
    assignments fits ws es = [] ↔ assignments fits vs ds = [] := by
  have hvs : vs.length = es.length := hws.length_eq ▸ h
  have hds : vs.length = ds.length := hes.length_eq ▸ hvs
  have hflip : assignments (fun e w => fits w e) es ws = [] ↔
      assignments (fun e w => fits w e) es vs = [] := by
    rw [← List.length_eq_zero_iff, (assignments_perm_right hws).length_eq, List.length_eq_zero_iff]
  calc assignments fits ws es = []
    _ ↔ assignments (fun e w => fits w e) es ws = [] := by
      rw [assignments_eq_nil h, assignments_eq_nil h.symm, exists_symm]
    _ ↔ assignments (fun e w => fits w e) es vs = [] := hflip
    _ ↔ assignments fits vs es = [] := by
      rw [assignments_eq_nil hvs, assignments_eq_nil hvs.symm, exists_symm]
    _ ↔ assignments fits vs ds = [] := by
      rw [← List.length_eq_zero_iff, (assignments_perm_right hes).length_eq,
        List.length_eq_zero_iff]

theorem length_assignments_perm :
    (assignments fits ws es).length = 1 ↔ (assignments fits vs ds).length = 1 := by
  have hvs : vs.length = es.length := hws.length_eq ▸ h
  calc (assignments fits ws es).length = 1
    _ ↔ (assignments (fun e w => fits w e) es ws).length = 1 := by
      rw [length_assignments h, length_assignments h.symm, existsUnique_symm]
    _ ↔ (assignments (fun e w => fits w e) es vs).length = 1 := by
      rw [(assignments_perm_right hws).length_eq]
    _ ↔ (assignments fits vs es).length = 1 := by
      rw [length_assignments hvs, length_assignments hvs.symm, existsUnique_symm]
    _ ↔ (assignments fits vs ds).length = 1 := by
      rw [(assignments_perm_right hes).length_eq]

end Order

section Uniqueness

/-- If no fitting pair raises the rank, and one which keeps it is a place with its own element,
then every place keeps its own. -/
theorem existsUnique_of_rank (h : ws.length = es.length) (rank : β → ℤ)
    (hself : ∀ i, fits (ws.get i) (es.get (i.cast h)) = true)
    (hle : ∀ i j, fits (ws.get i) (es.get j) = true →
      rank (es.get j) ≤ rank (es.get (i.cast h)))
    (heq : ∀ i j, fits (ws.get i) (es.get j) = true →
      rank (es.get j) = rank (es.get (i.cast h)) → j = i.cast h) :
    ∃! σ : Fin ws.length ≃ Fin es.length, Fits fits σ := by
  refine ⟨finCongr h, hself, fun τ hτ => ?_⟩
  have hsum : ∑ i, rank (es.get (τ i)) = ∑ i, rank (es.get (finCongr h i)) := by
    rw [Equiv.sum_comp τ fun j => rank (es.get j),
      Equiv.sum_comp (finCongr h) fun j => rank (es.get j)]
  have hkeep := (Finset.sum_eq_sum_iff_of_le fun i _ => hle i (τ i) (hτ i)).mp hsum
  ext i
  exact congrArg Fin.val (heq i (τ i) (hτ i) (hkeep i (Finset.mem_univ i)))

/-- Two elements which fit the same places can be exchanged. -/
theorem not_existsUnique_of_same {i j : Fin es.length} (hne : i ≠ j)
    (hsame : ∀ w ∈ ws, fits w (es.get i) = fits w (es.get j)) :
    ¬ ∃! σ : Fin ws.length ≃ Fin es.length, Fits fits σ := by
  rintro ⟨σ, hσ, hunique⟩
  have hswapped : Fits fits (σ.trans (Equiv.swap i j)) := by
    intro k
    have hk := hσ k
    have hmem := hsame _ (List.get_mem ws k)
    rw [Equiv.trans_apply]
    by_cases hi : σ k = i
    · rw [hi] at hk ⊢
      rwa [Equiv.swap_apply_left, ← hmem]
    · by_cases hj : σ k = j
      · rw [hj] at hk ⊢
        rwa [Equiv.swap_apply_right, hmem]
      · rwa [Equiv.swap_apply_of_ne_of_ne hi hj]
  have hcontra := Equiv.congr_fun (hunique _ hswapped) (σ.symm i)
  rw [Equiv.trans_apply, σ.apply_symm_apply, Equiv.swap_apply_left] at hcontra
  exact hne hcontra.symm

end Uniqueness

end Assignment
