import Mathlib.Data.List.Basic

/-! # Dictionaries

A dictionary keeps its entries in the order of their first insertion, and a
later insertion replaces the value in place.
-/

universe u v

theorem find?_of_unique {α : Type u} {p : α → Bool} {l : List α} {a : α} (ha : a ∈ l)
    (hp : p a = true) (hunique : ∀ b ∈ l, p b = true → b = a) : l.find? p = some a := by
  cases hfound : l.find? p with
  | none => exact absurd hp (List.find?_eq_none.mp hfound a ha)
  | some b => rw [hunique b (List.mem_of_find?_eq_some hfound) (List.find?_some hfound)]

abbrev Dict (κ : Type u) (ν : Type v) := List (κ × ν)

namespace Dict

variable {κ : Type u} {ν : Type v} [DecidableEq κ]

def get? (k : κ) : Dict κ ν → Option ν
  | [] => none
  | (l, w) :: d => if l = k then some w else get? k d

def insert (k : κ) (v : ν) : Dict κ ν → Dict κ ν
  | [] => [(k, v)]
  | (l, w) :: d => if l = k then (l, v) :: d else (l, w) :: insert k v d

def keys (d : Dict κ ν) : List κ := d.map Prod.fst

def values (d : Dict κ ν) : List ν := d.map Prod.snd

variable {d : Dict κ ν} {k l : κ} {v w : ν}

@[simp] theorem get?_nil (k : κ) : get? k ([] : Dict κ ν) = none := rfl

@[simp] theorem get?_cons (k l : κ) (w : ν) (d : Dict κ ν) :
    get? k ((l, w) :: d) = if l = k then some w else get? k d := rfl

@[simp] theorem insert_cons (k l : κ) (v w : ν) (d : Dict κ ν) :
    insert k v ((l, w) :: d) = if l = k then (l, v) :: d else (l, w) :: insert k v d := rfl

theorem get?_insert (k l : κ) (v : ν) (d : Dict κ ν) :
    get? l (insert k v d) = if k = l then some v else get? l d := by
  induction d with
  | nil => rfl
  | cons e d ih =>
    obtain ⟨m, w⟩ := e
    by_cases hm : m = k
    · subst hm
      simp only [insert_cons, if_true, get?_cons]
      split <;> rfl
    · simp only [insert_cons, if_neg hm, get?_cons, ih]
      by_cases hl : m = l
      · subst hl
        simp [Ne.symm hm]
      · simp [hl]

theorem keys_insert (k : κ) (v : ν) (d : Dict κ ν) :
    keys (insert k v d) = if k ∈ keys d then keys d else keys d ++ [k] := by
  induction d with
  | nil => rfl
  | cons e d ih =>
    obtain ⟨m, w⟩ := e
    by_cases hm : m = k
    · subst hm
      simp [keys]
    · have hk : k ∈ keys ((m, w) :: d) ↔ k ∈ keys d := by
        simp [keys, Ne.symm hm]
      have hcons : keys ((m, w) :: insert k v d) = m :: keys (insert k v d) := rfl
      simp only [insert_cons, if_neg hm, hk]
      rw [hcons, ih]
      split <;> rfl

theorem insert_of_notMem (h : k ∉ keys d) : insert k v d = d ++ [(k, v)] := by
  induction d with
  | nil => rfl
  | cons e d ih =>
    obtain ⟨m, w⟩ := e
    have hm : m ≠ k := by
      rintro rfl
      exact h List.mem_cons_self
    rw [insert_cons, if_neg hm, ih fun hk => h (List.mem_cons_of_mem _ hk)]
    rfl

theorem nodup_insert (h : (keys d).Nodup) (k : κ) (v : ν) : (keys (insert k v d)).Nodup := by
  rw [keys_insert]
  split
  · exact h
  next hk =>
    refine List.nodup_append.mpr ⟨h, by simp, ?_⟩
    intro a ha b hb hab
    obtain rfl := List.mem_singleton.mp hb
    exact hk (hab ▸ ha)

theorem get?_eq_none : get? k d = none ↔ k ∉ keys d := by
  induction d with
  | nil => simp [keys]
  | cons e d ih =>
    obtain ⟨m, w⟩ := e
    by_cases hm : m = k
    · simp [keys, hm]
    · simp only [get?_cons, if_neg hm, ih]
      simp [keys, Ne.symm hm]

theorem mem_of_get? (h : get? k d = some v) : (k, v) ∈ d := by
  induction d with
  | nil => cases h
  | cons e d ih =>
    obtain ⟨m, w⟩ := e
    by_cases hm : m = k
    · subst hm
      simp only [get?_cons, if_true, Option.some.injEq] at h
      exact h ▸ List.mem_cons_self
    · simp only [get?_cons, if_neg hm] at h
      exact List.mem_cons_of_mem _ (ih h)

/-- With distinct keys the entries are what the dictionary gives back. -/
theorem mem_iff_get? (h : (keys d).Nodup) : (k, v) ∈ d ↔ get? k d = some v := by
  refine ⟨fun hmem => ?_, mem_of_get?⟩
  induction d with
  | nil => cases hmem
  | cons e d ih =>
    obtain ⟨m, w⟩ := e
    obtain ⟨hm, hd⟩ := List.nodup_cons.mp h
    rcases List.mem_cons.mp hmem with heq | hmem
    · obtain ⟨rfl, rfl⟩ := Prod.mk.inj heq
      simp
    · have hne : m ≠ k := by
        rintro rfl
        exact hm (List.mem_map.mpr ⟨_, hmem, rfl⟩)
      simp only [get?_cons, if_neg hne]
      exact ih hd hmem

theorem mem_values (h : (keys d).Nodup) : v ∈ values d ↔ ∃ k, get? k d = some v := by
  simp only [values, List.mem_map, Prod.exists, exists_eq_right, mem_iff_get? h]

theorem isSome_get? : (get? k d).isSome ↔ k ∈ keys d := by
  rw [Option.isSome_iff_ne_none, ne_eq, get?_eq_none, not_not]

/-- Dictionaries with the same keys in the same order and the same values are the same. -/
theorem eq_of_get? {e : Dict κ ν} (hkeys : keys d = keys e) (hnodup : (keys d).Nodup)
    (h : ∀ k, get? k d = get? k e) : d = e := by
  induction d generalizing e with
  | nil =>
    cases e with
    | nil => rfl
    | cons b e => cases hkeys
  | cons a d ih =>
    cases e with
    | nil => cases hkeys
    | cons b e =>
      obtain ⟨k, v⟩ := a
      obtain ⟨l, w⟩ := b
      obtain ⟨hhead, htail⟩ := List.cons.inj hkeys
      obtain rfl : k = l := hhead
      obtain ⟨hk, hd⟩ := List.nodup_cons.mp hnodup
      have hv := h k
      rw [get?_cons, get?_cons, if_pos rfl, if_pos rfl] at hv
      obtain rfl := Option.some.inj hv
      have hrest : d = e := by
        refine ih htail hd fun m => ?_
        by_cases hm : k = m
        · subst hm
          have hsame : keys d = keys e := htail
          have hk' : k ∉ keys e := hsame ▸ hk
          rw [get?_eq_none.mpr hk, get?_eq_none.mpr hk']
        · have hcons := h m
          rwa [get?_cons, get?_cons, if_neg hm, if_neg hm] at hcons
      rw [hrest]

/-- The dictionary with more values, inserted one after the other. -/
def update (d : Dict κ ν) (entries : List (κ × ν)) : Dict κ ν :=
  entries.foldl (fun d e => insert e.1 e.2 d) d

variable {entries : List (κ × ν)}

theorem update_cons (e : κ × ν) : update d (e :: entries) = update (insert e.1 e.2 d) entries := rfl

theorem mem_keys_insert : l ∈ keys (insert k v d) ↔ l ∈ keys d ∨ l = k := by
  rw [keys_insert]
  split
  · rename_i hk
    constructor
    · exact .inl
    · rintro (hl | rfl)
      · exact hl
      · exact hk
  · rw [List.mem_append, List.mem_singleton]

theorem mem_keys_update : k ∈ keys (update d entries) ↔ k ∈ keys d ∨ k ∈ entries.map (·.1) := by
  induction entries generalizing d with
  | nil => simp [update]
  | cons e entries ih =>
    rw [update_cons, ih, mem_keys_insert, List.map_cons, List.mem_cons, or_assoc]

theorem nodup_update (h : (keys d).Nodup) : (keys (update d entries)).Nodup := by
  induction entries generalizing d with
  | nil => exact h
  | cons e entries ih => exact ih (nodup_insert h e.1 e.2)

theorem mem_of_mem_insert {e : κ × ν} (h : e ∈ insert k v d) : e ∈ d ∨ e = (k, v) := by
  induction d with
  | nil => exact .inr (List.mem_singleton.mp h)
  | cons a d ih =>
    rw [insert_cons] at h
    split at h
    · rename_i hk
      obtain h | h := List.mem_cons.mp h
      · exact .inr (h.trans (hk ▸ rfl))
      · exact .inl (List.mem_cons_of_mem _ h)
    · obtain rfl | h := List.mem_cons.mp h
      · exact .inl List.mem_cons_self
      · obtain h | h := ih h
        · exact .inl (List.mem_cons_of_mem _ h)
        · exact .inr h

theorem mem_of_mem_update {e : κ × ν} (h : e ∈ update d entries) : e ∈ d ∨ e ∈ entries := by
  induction entries generalizing d with
  | nil => exact .inl h
  | cons a entries ih =>
    obtain h | h := ih h
    · obtain h | rfl := mem_of_mem_insert h
      · exact .inl h
      · exact .inr List.mem_cons_self
    · exact .inr (List.mem_cons_of_mem _ h)

theorem get?_update_of_notMem (h : k ∉ entries.map (·.1)) :
    get? k (update d entries) = get? k d := by
  induction entries generalizing d with
  | nil => rfl
  | cons e entries ih =>
    rw [List.map_cons, List.mem_cons, not_or] at h
    rw [update_cons, ih h.2, get?_insert, if_neg (Ne.symm h.1)]

/-- A key for which every new entry has the same value. -/
theorem get?_update (hmem : k ∈ entries.map (·.1)) (h : ∀ e ∈ entries, e.1 = k → e.2 = v) :
    get? k (update d entries) = some v := by
  induction entries generalizing d with
  | nil => cases hmem
  | cons e entries ih =>
    rw [update_cons]
    have htail : ∀ e ∈ entries, e.1 = k → e.2 = v := fun a ha => h a (List.mem_cons_of_mem _ ha)
    by_cases hrest : k ∈ entries.map (·.1)
    · exact ih hrest htail
    · obtain hk | hk := List.mem_cons.mp hmem
      · rw [get?_update_of_notMem hrest, get?_insert, if_pos hk.symm,
          h e List.mem_cons_self hk.symm]
      · exact absurd hk hrest

end Dict
