import Mathlib.Data.List.Count
import Mathlib.Data.List.Find
import Mathlib.Data.List.Induction

/-! # Placeholders

A table gives texts for placeholders, words between an opening and a closing
bracket. Replacing all of them at once and replacing one after the other differ
only where what was put in completes a placeholder whose turn comes later.
-/

namespace Placeholders

universe u

variable {α : Type u} [DecidableEq α]

/-- Replace every occurrence of a key, the first key of the table which fits; the elements which an
occurrence covers are skipped. -/
def replaceFrom (table : List (List α × List α)) : Nat → List α → List α
  | _, [] => []
  | skip + 1, _ :: text => replaceFrom table skip text
  | 0, a :: text =>
    match table.find? fun e => e.1.isPrefixOf (a :: text) with
    | some e => e.2 ++ replaceFrom table (e.1.length - 1) text
    | none => a :: replaceFrom table 0 text

def replaceAll (table : List (List α × List α)) (text : List α) : List α := replaceFrom table 0 text

def replaceEach (table : List (List α × List α)) (text : List α) : List α :=
  table.foldl (fun text e => replaceAll [e] text) text

theorem replaceFrom_drop {table : List (List α × List α)} (n : Nat) (t : List α) :
    replaceFrom table n t = replaceFrom table 0 (t.drop n) := by
  induction t generalizing n with
  | nil => cases n <;> simp [replaceFrom]
  | cons a t ih =>
    cases n with
    | zero => rfl
    | succ n => rw [replaceFrom, ih, List.drop_succ_cons]

/-- A key is not found before its first element. -/
theorem replaceFrom_append_of_notMem {c : α} {key new text : List α} (h : c ∉ text) (rest : List α) :
    replaceFrom [(c :: key, new)] 0 (text ++ rest) =
      text ++ replaceFrom [(c :: key, new)] 0 rest := by
  induction text with
  | nil => rfl
  | cons d text ih =>
    obtain ⟨hd, htext⟩ := not_or.mp (mt List.mem_cons.mpr h)
    have hnone : [(c :: key, new)].find? (fun e => e.1.isPrefixOf (d :: (text ++ rest))) = none := by
      refine List.find?_eq_none.mpr fun e he => ?_
      obtain rfl := List.mem_singleton.mp he
      rw [List.isPrefixOf_iff_prefix, List.cons_prefix_cons]
      exact fun hpre => hd hpre.1
    rw [List.cons_append, replaceFrom, hnone, ih htext]
    rfl

theorem replaceAll_append_key {c : α} {key text : List α} (h : c ∉ text) (new : List α) :
    replaceAll [(c :: key, new)] (text ++ c :: key) = text ++ new := by
  have hfound : [(c :: key, new)].find? (fun e => e.1.isPrefixOf (c :: key)) =
      some (c :: key, new) := by
    refine List.find?_cons_of_pos ?_
    exact List.isPrefixOf_iff_prefix.mpr (List.prefix_refl _)
  rw [replaceAll, replaceFrom_append_of_notMem h, replaceFrom, hfound]
  dsimp only
  rw [replaceFrom_drop, List.length_cons, Nat.add_sub_cancel, List.drop_length, replaceFrom,
    List.append_nil]

/-- Two different brackets. -/
structure Brackets (α : Type u) where
  opening : α
  closing : α
  ne : opening ≠ closing

variable (b : Brackets α)

namespace Brackets

/-- No bracket occurs. -/
def Plain (w : List α) : Prop := ∀ a ∈ w, a ≠ b.opening ∧ a ≠ b.closing

def wrap (w : List α) : List α := b.opening :: (w ++ [b.closing])

/-- What stands for a name: its text, or the placeholder itself. -/
def value (f : List α → Option (List α)) (w : List α) : List α := (f w).getD (b.wrap w)

/-- The placeholders which have a text are replaced by it. The state is the name which is open. -/
def subst (f : List α → Option (List α)) : Option (List α) → List α → List α
  | none, [] => []
  | some w, [] => b.opening :: w
  | none, a :: t => if a = b.opening then subst f (some []) t else a :: subst f none t
  | some w, a :: t =>
    if a = b.opening then b.opening :: (w ++ subst f (some []) t)
    else if a = b.closing then b.value f w ++ subst f none t
    else subst f (some (w ++ [a])) t

def names : Option (List α) → List α → List (List α)
  | _, [] => []
  | none, a :: t => if a = b.opening then names (some []) t else names none t
  | some w, a :: t =>
    if a = b.opening then names (some []) t
    else if a = b.closing then w :: names none t
    else names (some (w ++ [a])) t

/-- The names which are completed by a replacement inside of them. The first state is the name which
is open around the replacements. -/
def completed (f : List α → Option (List α)) :
    Option (List α) → Option (List α) → List α → List (List α)
  | _, _, [] => []
  | outer, none, a :: t =>
    if a = b.opening then completed f outer (some []) t
    else if a = b.closing then outer.toList ++ completed f none none t
    else completed f (outer.map (· ++ [a])) none t
  | outer, some w, a :: t =>
    if a = b.opening then completed f (some w) (some []) t
    else if a = b.closing then
      completed f ((f w).bind fun v => outer.map (· ++ v)) none t
    else completed f outer (some (w ++ [a])) t

def pending : Option (List α) → List α
  | none => []
  | some w => b.opening :: w

variable {b} {f g : List α → Option (List α)} {v w t : List α} {a : α}

omit [DecidableEq α] in
theorem plain_nil : b.Plain [] := fun _ h => nomatch h

omit [DecidableEq α] in
theorem plain_cons : b.Plain (a :: w) ↔ (a ≠ b.opening ∧ a ≠ b.closing) ∧ b.Plain w :=
  List.forall_mem_cons

omit [DecidableEq α] in
theorem Plain.append (hv : b.Plain v) (hw : b.Plain w) : b.Plain (v ++ w) := by
  intro a ha
  obtain ha | ha := List.mem_append.mp ha
  · exact hv a ha
  · exact hw a ha

omit [DecidableEq α] in
theorem Plain.snoc (hw : b.Plain w) (hopening : a ≠ b.opening) (hclosing : a ≠ b.closing) :
    b.Plain (w ++ [a]) :=
  hw.append (plain_cons.mpr ⟨⟨hopening, hclosing⟩, plain_nil⟩)

section Steps

variable {inner outer : Option (List α)}

theorem subst_nil : b.subst f inner [] = b.pending inner := by
  cases inner <;> rfl

theorem subst_opening :
    b.subst f inner (b.opening :: t) = b.pending inner ++ b.subst f (some []) t := by
  cases inner with
  | none => exact if_pos rfl
  | some w => exact if_pos rfl

theorem subst_none_closing :
    b.subst f none (b.closing :: t) = b.closing :: b.subst f none t := by
  exact if_neg b.ne.symm

theorem subst_some_closing :
    b.subst f (some w) (b.closing :: t) = b.value f w ++ b.subst f none t := by
  exact (if_neg b.ne.symm).trans (if_pos rfl)

theorem subst_none_cons (ha : a ≠ b.opening ∧ a ≠ b.closing) :
    b.subst f none (a :: t) = a :: b.subst f none t := by
  exact if_neg ha.1

theorem subst_some_cons (ha : a ≠ b.opening ∧ a ≠ b.closing) :
    b.subst f (some w) (a :: t) = b.subst f (some (w ++ [a])) t := by
  exact (if_neg ha.1).trans (if_neg ha.2)

theorem names_opening : b.names inner (b.opening :: t) = b.names (some []) t := by
  cases inner with
  | none => exact if_pos rfl
  | some w => exact if_pos rfl

theorem names_none_closing : b.names none (b.closing :: t) = b.names none t := by
  exact if_neg b.ne.symm

theorem names_some_closing : b.names (some w) (b.closing :: t) = w :: b.names none t := by
  exact (if_neg b.ne.symm).trans (if_pos rfl)

theorem names_none_cons (ha : a ≠ b.opening ∧ a ≠ b.closing) :
    b.names none (a :: t) = b.names none t := by
  exact if_neg ha.1

theorem names_some_cons (ha : a ≠ b.opening ∧ a ≠ b.closing) :
    b.names (some w) (a :: t) = b.names (some (w ++ [a])) t := by
  exact (if_neg ha.1).trans (if_neg ha.2)

theorem completed_opening : b.completed f outer inner (b.opening :: t) =
    b.completed f (inner.or outer) (some []) t := by
  cases inner with
  | none => exact if_pos rfl
  | some w => exact if_pos rfl

theorem completed_none_closing : b.completed f outer none (b.closing :: t) =
    outer.toList ++ b.completed f none none t := by
  exact (if_neg b.ne.symm).trans (if_pos rfl)

theorem completed_some_closing : b.completed f outer (some w) (b.closing :: t) =
    b.completed f ((f w).bind fun v => outer.map (· ++ v)) none t := by
  exact (if_neg b.ne.symm).trans (if_pos rfl)

theorem completed_none_cons (ha : a ≠ b.opening ∧ a ≠ b.closing) :
    b.completed f outer none (a :: t) =
    b.completed f (outer.map (· ++ [a])) none t := by
  exact (if_neg ha.1).trans (if_neg ha.2)

theorem completed_some_cons (ha : a ≠ b.opening ∧ a ≠ b.closing) :
    b.completed f outer (some w) (a :: t) =
    b.completed f outer (some (w ++ [a])) t := by
  exact (if_neg ha.1).trans (if_neg ha.2)

end Steps

/-- The name which is open, if one is. -/
def PlainState (b : Brackets α) (inner : Option (List α)) : Prop := ∀ w ∈ inner, b.Plain w

omit [DecidableEq α] in
theorem plainState_none : b.PlainState none := fun _ h => nomatch h

omit [DecidableEq α] in
theorem plainState_some : b.PlainState (some w) ↔ b.Plain w := by
  simp [PlainState]

omit [DecidableEq α] in
/-- A text is read along its brackets; a name which is open stays plain. -/
theorem scan_induction {motive : ∀ inner : Option (List α), List α → b.PlainState inner → Prop}
    (nil : ∀ inner h, motive inner [] h)
    (opening : ∀ inner t h, motive (some []) t (plainState_some.mpr plain_nil) →
      motive inner (b.opening :: t) h)
    (closing_none : ∀ t h, motive none t h → motive none (b.closing :: t) h)
    (closing_some : ∀ w t h, motive none t plainState_none → motive (some w) (b.closing :: t) h)
    (cons_none : ∀ a t h, a ≠ b.opening ∧ a ≠ b.closing → motive none t h → motive none (a :: t) h)
    (cons_some : ∀ w a t h h', a ≠ b.opening ∧ a ≠ b.closing → motive (some (w ++ [a])) t h' →
      motive (some w) (a :: t) h)
    (inner : Option (List α)) (t : List α) (h : b.PlainState inner) : motive inner t h := by
  induction t generalizing inner with
  | nil => exact nil inner h
  | cons a t ih =>
    by_cases hopening : a = b.opening
    · subst hopening
      exact opening inner t h (ih _ _)
    by_cases hclosing : a = b.closing
    · subst hclosing
      cases inner with
      | none => exact closing_none t h (ih none h)
      | some w => exact closing_some w t h (ih none _)
    · cases inner with
      | none => exact cons_none a t h ⟨hopening, hclosing⟩ (ih none h)
      | some w =>
        have hsnoc := (plainState_some.mp h).snoc hopening hclosing
        exact cons_some w a t h (plainState_some.mpr hsnoc) ⟨hopening, hclosing⟩ (ih _ _)

theorem subst_none_append (hv : b.Plain v) :
    b.subst f none (v ++ t) = v ++ b.subst f none t := by
  induction v with
  | nil => rfl
  | cons a v ih =>
    obtain ⟨ha, hv⟩ := plain_cons.mp hv
    rw [List.cons_append, subst_none_cons ha, ih hv]
    rfl

theorem subst_some_append (hv : b.Plain v) :
    b.subst f (some w) (v ++ t) = b.subst f (some (w ++ v)) t := by
  induction v generalizing w with
  | nil => rw [List.append_nil, List.nil_append]
  | cons a v ih =>
    obtain ⟨ha, hv⟩ := plain_cons.mp hv
    rw [List.cons_append, subst_some_cons ha, ih hv, List.append_assoc]
    rfl

theorem names_none_append (hv : b.Plain v) : b.names none (v ++ t) = b.names none t := by
  induction v with
  | nil => rfl
  | cons a v ih =>
    obtain ⟨ha, hv⟩ := plain_cons.mp hv
    rw [List.cons_append, names_none_cons ha, ih hv]

theorem names_some_append (hv : b.Plain v) :
    b.names (some w) (v ++ t) = b.names (some (w ++ v)) t := by
  induction v generalizing w with
  | nil => rw [List.append_nil, List.nil_append]
  | cons a v ih =>
    obtain ⟨ha, hv⟩ := plain_cons.mp hv
    rw [List.cons_append, names_some_cons ha, ih hv, List.append_assoc]
    rfl

section Compose

variable {outer inner : Option (List α)}

theorem subst_wrap (hw : b.Plain w) :
    b.subst f outer (b.wrap w ++ t) = b.pending outer ++ (b.value f w ++ b.subst f none t) := by
  rw [wrap, List.cons_append, subst_opening, List.append_assoc, subst_some_append hw,
    List.nil_append, List.singleton_append, subst_some_closing]

theorem names_wrap (hw : b.Plain w) :
    b.names outer (b.wrap w ++ t) = w :: b.names none t := by
  rw [wrap, List.cons_append, names_opening, List.append_assoc, names_some_append hw,
    List.nil_append, List.singleton_append, names_some_closing]

theorem wrap_infix_of_mem_names (h : w ∈ b.names inner t) : b.wrap w <:+: b.pending inner ++ t := by
  induction t generalizing inner with
  | nil => cases inner <;> cases h
  | cons a t ih =>
    cases inner with
    | none =>
      rw [names] at h
      split at h
      · rename_i ha
        rw [ha]
        exact ih h
      · exact (ih h).trans (List.suffix_cons a t).isInfix
    | some v =>
      rw [names] at h
      split at h
      · rename_i ha
        rw [ha]
        exact (ih h).trans (List.suffix_append (b.pending (some v)) _).isInfix
      · split at h
        · rename_i ha
          obtain rfl | h := List.mem_cons.mp h
          · rw [ha, List.append_cons]
            exact (List.prefix_append (b.wrap w) t).isInfix
          · exact (ih h).trans ((List.suffix_cons a t).trans (List.suffix_append _ _)).isInfix
        · rw [List.append_cons]
          exact ih h

theorem mem_names_append_wrap (hw : b.Plain w) (pre post : List α) :
    w ∈ b.names inner (pre ++ (b.wrap w ++ post)) := by
  induction pre generalizing inner with
  | nil =>
    rw [List.nil_append, names_wrap hw]
    exact List.mem_cons_self
  | cons a pre ih =>
    rw [List.cons_append]
    cases inner with
    | none =>
      rw [names]
      split <;> exact ih
    | some v =>
      rw [names]
      split
      · exact ih
      · split
        · exact List.mem_cons_of_mem _ ih
        · exact ih

theorem mem_names_iff (hw : b.Plain w) : w ∈ b.names none t ↔ b.wrap w <:+: t := by
  constructor
  · exact wrap_infix_of_mem_names
  · rintro ⟨pre, post, rfl⟩
    rw [List.append_assoc]
    exact mem_names_append_wrap hw pre post

/-- Two substitutions are one, unless the first of them completes a name of the second. -/
theorem subst_subst (hf : ∀ w v, f w = some v → b.Plain v) (hinner : b.PlainState inner)
    (hg : ∀ w ∈ b.completed f outer inner t, g w = none) :
    b.subst g outer (b.subst f inner t) =
      b.pending outer ++ b.subst (fun w => (f w).or (g w)) inner t := by
  induction inner, t, hinner using scan_induction generalizing outer with
  | nil inner h =>
    rw [subst_nil, subst_nil]
    cases inner with
    | none => rw [pending, subst_nil, List.append_nil]
    | some w =>
      have hw := plainState_some.mp h
      have hopen : b.subst g (some []) w = b.opening :: w := by
        have hread := subst_some_append (f := g) (w := []) (t := []) hw
        rwa [List.append_nil, List.nil_append, subst_nil] at hread
      rw [pending, subst_opening, hopen]
  | opening inner t h ih =>
    rw [completed_opening] at hg
    rw [subst_opening, subst_opening]
    cases inner with
    | none => exact ih hg
    | some w =>
      have hw := plainState_some.mp h
      have hrest := @ih (some w) hg
      rw [pending, List.cons_append, subst_opening, subst_some_append hw, List.nil_append, hrest]
      rfl
  | closing_none t h ih =>
    rw [completed_none_closing] at hg
    have hrest := @ih none fun w hw => hg w (List.mem_append_right _ hw)
    rw [subst_none_closing, subst_none_closing]
    cases outer with
    | none => rw [subst_none_closing, hrest]; rfl
    | some w =>
      -- The name was completed, so that no text stands for it.
      have hw := hg w (List.mem_append_left _ (List.mem_singleton_self w))
      rw [subst_some_closing, value, hw, Option.getD_none, hrest, wrap]
      simp [pending]
  | closing_some w t h ih =>
    have hw := plainState_some.mp h
    rw [completed_some_closing] at hg
    rw [subst_some_closing, subst_some_closing]
    cases hvalue : f w with
    | none =>
      rw [hvalue] at hg
      have hrest := @ih none hg
      rw [value, hvalue, Option.getD_none, subst_wrap hw, hrest, value, value, hvalue]
      rfl
    | some v =>
      have hv := hf w v hvalue
      rw [hvalue] at hg
      rw [value, hvalue, Option.getD_some, value, hvalue]
      cases outer with
      | none =>
        have hrest := @ih none hg
        rw [subst_none_append hv, hrest]
        rfl
      | some o =>
        have hrest := @ih (some (o ++ v)) hg
        rw [subst_some_append hv, hrest]
        simp [pending]
  | cons_none a t h ha ih =>
    rw [completed_none_cons ha] at hg
    have hrest := ih hg
    rw [subst_none_cons ha, subst_none_cons ha]
    cases outer with
    | none => rw [subst_none_cons ha]; exact congrArg (a :: ·) hrest
    | some o =>
      rw [subst_some_cons ha]
      refine hrest.trans ?_
      simp [pending]
  | cons_some w a t h h' ha ih =>
    rw [completed_some_cons ha] at hg
    rw [subst_some_cons ha, subst_some_cons ha, ih hg]

/-- The placeholders after a substitution: those without a text, and those it completes. -/
theorem names_subst (hf : ∀ w v, f w = some v → b.Plain v) (hinner : b.PlainState inner) :
    (b.names outer (b.subst f inner t)).Perm
      ((b.names inner t).filter (fun w => (f w).isNone) ++ b.completed f outer inner t) := by
  induction inner, t, hinner using scan_induction generalizing outer with
  | nil inner h =>
    rw [subst_nil]
    cases inner with
    | none => simp [pending, names, completed]
    | some w =>
      have hw := plainState_some.mp h
      rw [pending, names_opening, ← List.append_nil w, names_some_append hw]
      simp [names, completed]
  | opening inner t h ih =>
    rw [subst_opening, names_opening, completed_opening]
    cases inner with
    | none => exact @ih outer
    | some w =>
      have hw := plainState_some.mp h
      rw [pending, List.cons_append, names_opening, names_some_append hw]
      exact ih
  | closing_none t h ih =>
    rw [subst_none_closing, names_none_closing, completed_none_closing]
    cases outer with
    | none => rw [names_none_closing]; exact ih
    | some w =>
      rw [names_some_closing]
      exact (ih.cons w).trans (List.perm_middle.symm)
  | closing_some w t h ih =>
    have hw := plainState_some.mp h
    rw [subst_some_closing, names_some_closing, completed_some_closing]
    cases hvalue : f w with
    | none =>
      rw [value, hvalue, Option.getD_none, names_wrap hw, List.filter_cons_of_pos (by rw [hvalue]; rfl)]
      exact ih.cons w
    | some v =>
      have hv := hf w v hvalue
      rw [value, hvalue, Option.getD_some, List.filter_cons_of_neg (by rw [hvalue]; simp)]
      cases outer with
      | none => rw [names_none_append hv]; exact ih
      | some o => rw [names_some_append hv]; exact ih
  | cons_none a t h ha ih =>
    rw [subst_none_cons ha, names_none_cons ha, completed_none_cons ha]
    cases outer with
    | none => rw [names_none_cons ha]; exact ih
    | some o => rw [names_some_cons ha]; exact ih
  | cons_some w a t h h' ha ih =>
    rw [subst_some_cons ha, names_some_cons ha, completed_some_cons ha]
    exact ih

/-- Every placeholder which is replaced takes an opening bracket with it. -/
theorem count_subst (hf : ∀ w v, f w = some v → b.Plain v) (hinner : b.PlainState inner) :
    (b.subst f inner t).count b.opening + (b.names inner t).countP (fun w => (f w).isSome) =
      (b.pending inner ++ t).count b.opening := by
  have hplain : ∀ {w}, b.Plain w → w.count b.opening = 0 := fun hw =>
    List.count_eq_zero.mpr fun hmem => (hw _ hmem).1 rfl
  induction inner, t, hinner using scan_induction with
  | nil inner h => simp [subst_nil, names]
  | opening inner t h ih =>
    rw [subst_opening, names_opening, List.count_append, List.count_append, List.count_cons_self]
    rw [pending, List.cons_append, List.nil_append, List.count_cons_self] at ih
    omega
  | closing_none t h ih =>
    rw [subst_none_closing, names_none_closing]
    simpa [pending, List.count_cons_of_ne b.ne.symm] using ih
  | closing_some w t h ih =>
    have hw := hplain (plainState_some.mp h)
    rw [subst_some_closing, names_some_closing, List.count_append, pending, List.cons_append,
      List.count_cons_self, List.count_append, List.count_cons_of_ne b.ne.symm, hw]
    rw [pending, List.nil_append] at ih
    cases hvalue : f w with
    | none =>
      rw [List.countP_cons_of_neg (by rw [hvalue]; simp), value, hvalue, Option.getD_none, wrap,
        List.count_cons_self, List.count_append, hw, List.count_singleton, beq_eq_false_iff_ne.mpr b.ne.symm]
      simp
      omega
    | some v =>
      rw [List.countP_cons_of_pos (by rw [hvalue]; rfl), value, hvalue, Option.getD_some,
        hplain (hf w v hvalue)]
      omega
  | cons_none a t h ha ih =>
    rw [subst_none_cons ha, names_none_cons ha]
    simpa [pending, List.count_cons_of_ne ha.1] using ih
  | cons_some w a t h h' ha ih =>
    rw [subst_some_cons ha, names_some_cons ha, ih]
    simp [pending, List.count_cons_of_ne ha.1]

end Compose

section Tables

variable {table : List (List α × List α)} {key : List α} {e : List α × List α}

def lookup (b : Brackets α) (table : List (List α × List α)) (w : List α) : Option (List α) :=
  (table.find? fun e => e.1 = b.wrap w).map (·.2)

/-- The keys are placeholders, the texts plain. -/
structure Bracketed (b : Brackets α) (e : List α × List α) : Prop where
  key : ∃ w, b.Plain w ∧ e.1 = b.wrap w
  text : b.Plain e.2

theorem plain_lookup (h : ∀ e ∈ table, b.Bracketed e) (w v : List α)
    (hw : b.lookup table w = some v) : b.Plain v := by
  obtain ⟨e, he, rfl⟩ := Option.map_eq_some_iff.mp hw
  exact (h e (List.mem_of_find?_eq_some he)).text

omit [DecidableEq α] in
theorem wrap_injective (h : b.wrap v = b.wrap w) : v = w :=
  List.append_cancel_right (List.cons.inj h).2

/-- The rest of a text after a plain word: it is empty, or starts with a bracket. -/
def AtBracket (b : Brackets α) (rest : List α) : Prop :=
  ∀ a ∈ rest.head?, a = b.opening ∨ a = b.closing

omit [DecidableEq α] in
theorem exists_plain_append (t : List α) :
    ∃ w rest, t = w ++ rest ∧ b.Plain w ∧ b.AtBracket rest := by
  induction t with
  | nil => exact ⟨[], [], rfl, plain_nil, fun _ h => nomatch h⟩
  | cons a t ih =>
    by_cases ha : a ≠ b.opening ∧ a ≠ b.closing
    · obtain ⟨w, rest, rfl, hw, hrest⟩ := ih
      exact ⟨a :: w, rest, rfl, plain_cons.mpr ⟨ha, hw⟩, hrest⟩
    · refine ⟨[], a :: t, rfl, plain_nil, fun d hd => ?_⟩
      obtain rfl := Option.some.inj hd
      by_contra hne
      exact ha (not_or.mp hne)

omit [DecidableEq α] in
/-- A placeholder is found at an opening bracket only if its whole name follows. -/
theorem wrap_prefix_iff {rest : List α} (hv : b.Plain v) (hw : b.Plain w)
    (hrest : b.AtBracket rest) :
    b.wrap v <+: b.opening :: (w ++ rest) ↔ v = w ∧ [b.closing] <+: rest := by
  rw [wrap, List.cons_prefix_cons, and_iff_right rfl]
  induction v generalizing w with
  | nil =>
    cases w with
    | nil => rw [List.nil_append, List.nil_append, and_iff_right rfl]
    | cons a w =>
      have ha := (plain_cons.mp hw).1.2
      rw [List.nil_append, List.cons_append, List.cons_prefix_cons]
      exact iff_of_false (fun h => ha h.1.symm) fun h => nomatch h.1
  | cons a v ih =>
    obtain ⟨ha, hv⟩ := plain_cons.mp hv
    cases w with
    | nil =>
      refine iff_of_false (fun h => ?_) fun h => nomatch h.1
      cases rest with
      | nil => cases List.prefix_nil.mp h
      | cons d rest =>
        rw [List.nil_append, List.cons_append, List.cons_prefix_cons] at h
        obtain hd | hd := hrest d rfl
        · exact ha.1 (h.1.trans hd)
        · exact ha.2 (h.1.trans hd)
    | cons d w =>
      rw [List.cons_append, List.cons_append, List.cons_prefix_cons, ih hv (plain_cons.mp hw).2,
        List.cons.injEq, and_assoc]

theorem find?_of_ne (h : ∀ e ∈ table, b.Bracketed e) {a : α} (ha : a ≠ b.opening) (t : List α) :
    table.find? (fun e => e.1.isPrefixOf (a :: t)) = none := by
  rw [List.find?_eq_none]
  intro e he hprefix
  obtain ⟨w, -, hkey⟩ := (h e he).key
  rw [List.isPrefixOf_iff_prefix, hkey, wrap, List.cons_prefix_cons] at hprefix
  exact ha hprefix.1.symm

theorem find?_of_open (h : ∀ e ∈ table, b.Bracketed e) {rest : List α} (hw : b.Plain w)
    (hrest : b.AtBracket rest) (hopen : ¬ [b.closing] <+: rest) :
    table.find? (fun e => e.1.isPrefixOf (b.opening :: (w ++ rest))) = none := by
  rw [List.find?_eq_none]
  intro e he hprefix
  obtain ⟨v, hv, hkey⟩ := (h e he).key
  rw [List.isPrefixOf_iff_prefix, hkey, wrap_prefix_iff hv hw hrest] at hprefix
  exact hopen hprefix.2

/-- At a placeholder the key is found which it is. -/
theorem find?_of_wrap (h : ∀ e ∈ table, b.Bracketed e) (hw : b.Plain w) (t : List α) :
    table.find? (fun e => e.1.isPrefixOf (b.opening :: (w ++ b.closing :: t))) =
      table.find? fun e => e.1 = b.wrap w := by
  apply List.find?_congr
  intro e he
  obtain ⟨v, hv, hkey⟩ := (h e he).key
  have hrest : b.AtBracket (b.closing :: t) := fun a ha => .inr (Option.some.inj ha).symm
  rw [Bool.eq_iff_iff, List.isPrefixOf_iff_prefix, decide_eq_true_iff, hkey,
    wrap_prefix_iff hv hw hrest]
  constructor
  · rintro ⟨rfl, -⟩
    rfl
  · intro heq
    exact ⟨wrap_injective heq, by simp⟩

theorem replaceFrom_plain (h : ∀ e ∈ table, b.Bracketed e) (hw : b.Plain w) (t : List α) :
    replaceFrom table 0 (w ++ t) = w ++ replaceFrom table 0 t := by
  induction w with
  | nil => rfl
  | cons a w ih =>
    obtain ⟨ha, hw⟩ := plain_cons.mp hw
    rw [List.cons_append, replaceFrom, find?_of_ne h ha.1, ih hw]
    rfl

/-- Replacing the keys of a table replaces its placeholders. -/
theorem replaceAll_eq_subst (h : ∀ e ∈ table, b.Bracketed e) (t : List α) :
    replaceAll table t = b.subst (b.lookup table) none t := by
  induction hn : t.length using Nat.strongRecOn generalizing t with
  | _ n ih =>
    unfold replaceAll at ih ⊢
    cases t with
    | nil => rfl
    | cons a t =>
      rw [List.length_cons] at hn
      by_cases ha : a = b.opening
      · subst ha
        obtain ⟨w, rest, rfl, hw, hrest⟩ := exists_plain_append (b := b) t
        rw [List.length_append] at hn
        rw [subst_opening, subst_some_append hw, List.nil_append]
        cases rest with
        | nil =>
          rw [replaceFrom, find?_of_open h hw hrest (by simp), subst_nil, replaceFrom_plain h hw]
          simp [replaceFrom, pending]
        | cons d rest =>
          rw [List.length_cons] at hn
          obtain rfl | rfl := hrest d rfl
          · have hih := ih (rest.length + 1) (by omega) (b.opening :: rest) rfl
            have hopen : ¬ [b.closing] <+: b.opening :: rest := by
              rw [List.cons_prefix_cons]
              exact fun hc => b.ne hc.1.symm
            rw [replaceFrom, find?_of_open h hw hrest hopen, subst_opening]
            dsimp only
            rw [replaceFrom_plain h hw, hih, subst_opening]
            simp [pending]
          · have hih := ih rest.length (by omega) rest rfl
            rw [replaceFrom, find?_of_wrap h hw, subst_some_closing, value, lookup]
            cases hfound : table.find? fun e => e.1 = b.wrap w with
            | none =>
              have hclosing := ih (rest.length + 1) (by omega) (b.closing :: rest) rfl
              dsimp only
              rw [replaceFrom_plain h hw, hclosing, subst_none_closing]
              simp [pending, wrap]
            | some e =>
              have hkey : e.1 = b.wrap w := by simpa using List.find?_some hfound
              dsimp only
              have hdrop : (w ++ b.closing :: rest).drop (w.length + 1) = rest := by
                rw [List.append_cons, List.drop_left']
                simp
              have hlength : e.1.length - 1 = w.length + 1 := by simp [hkey, wrap]
              rw [replaceFrom_drop, hlength, hdrop, hih]
              rfl
      · rw [replaceFrom, find?_of_ne h ha]
        dsimp only
        rw [ih t.length (by omega) t rfl]
        by_cases hc : a = b.closing
        · rw [hc, subst_none_closing]
        · rw [subst_none_cons ⟨ha, hc⟩]

/-- Replacing the first keys completes no key whose turn comes later. -/
def NoneCompleted (b : Brackets α) (table : List (List α × List α)) (t : List α) : Prop :=
  ∀ before e after, table = before ++ e :: after →
    ∀ w ∈ b.completed (b.lookup before) none none t, e.1 ≠ b.wrap w

theorem lookup_append (table later : List (List α × List α)) (w : List α) :
    b.lookup (table ++ later) w = (b.lookup table w).or (b.lookup later w) := by
  unfold lookup
  rw [List.find?_append]
  cases table.find? fun e => e.1 = b.wrap w <;> rfl

theorem lookup_eq_none : b.lookup table w = none ↔ b.wrap w ∉ table.map (·.1) := by
  rw [lookup, Option.map_eq_none_iff, List.find?_eq_none]
  constructor
  · intro h hmem
    obtain ⟨e, he, hkey⟩ := List.mem_map.mp hmem
    exact h e he (decide_eq_true hkey)
  · intro h e he hkey
    exact h (List.mem_map.mpr ⟨e, he, of_decide_eq_true hkey⟩)

theorem lookup_singleton (hkey : e.1 = b.wrap v) :
    b.lookup [e] w = if w = v then some e.2 else none := by
  have hiff : b.wrap v = b.wrap w ↔ w = v :=
    ⟨fun h => (wrap_injective h).symm, fun h => h ▸ rfl⟩
  rw [lookup, List.find?_singleton, hkey]
  simp only [hiff]
  split <;> simp_all

theorem noneCompleted_append : b.NoneCompleted (table ++ [e]) t ↔
    b.NoneCompleted table t ∧ ∀ w ∈ b.completed (b.lookup table) none none t, e.1 ≠ b.wrap w := by
  constructor
  · intro h
    constructor
    · rintro before d after rfl
      exact h before d (after ++ [e]) (by simp)
    · exact h table e [] rfl
  · rintro ⟨htable, hlast⟩ before d after heq
    obtain rfl | ⟨after, last, hafter⟩ := List.eq_nil_or_concat after
    · obtain ⟨rfl, he⟩ := List.append_inj' heq rfl
      obtain rfl := (List.cons.inj he).1
      exact hlast
    · rw [hafter, List.concat_eq_append, ← List.cons_append, ← List.append_assoc] at heq
      obtain ⟨rfl, -⟩ := List.append_inj' heq rfl
      exact htable before d after rfl

theorem replaceEach_append (t : List α) :
    replaceEach (table ++ [e]) t = replaceAll [e] (replaceEach table t) := by
  rw [replaceEach, List.foldl_append]
  rfl

theorem names_replaceAll (h : ∀ e ∈ table, b.Bracketed e) (t : List α) :
    (b.names none (replaceAll table t)).Perm
      ((b.names none t).filter (fun w => (b.lookup table w).isNone) ++
        b.completed (b.lookup table) none none t) := by
  rw [replaceAll_eq_subst h]
  exact names_subst (plain_lookup h) plainState_none

theorem count_replaceAll (h : ∀ e ∈ table, b.Bracketed e) (t : List α) :
    (replaceAll table t).count b.opening +
      (b.names none t).countP (fun w => (b.lookup table w).isSome) = t.count b.opening := by
  rw [replaceAll_eq_subst h]
  exact count_subst (plain_lookup h) plainState_none

theorem le_count_names (h : ∀ e ∈ table, b.Bracketed e) (hw : b.wrap w ∉ table.map (·.1))
    (t : List α) : (b.names none t).count w ≤ (b.names none (replaceAll table t)).count w := by
  have hnone := lookup_eq_none.mpr hw
  rw [(names_replaceAll h t).count_eq, List.count_append, List.count_filter (by rw [hnone]; rfl)]
  exact Nat.le_add_right _ _

theorem le_count_names_replaceEach (h : ∀ e ∈ table, b.Bracketed e)
    (hw : b.wrap w ∉ table.map (·.1)) (t : List α) :
    (b.names none t).count w ≤ (b.names none (replaceEach table t)).count w := by
  induction table using List.reverseRecOn with
  | nil => exact le_rfl
  | append_singleton table e ih =>
    rw [List.map_append, List.mem_append, not_or] at hw
    have hlast : ∀ d ∈ [e], b.Bracketed d := fun d hd => h d (List.mem_append_right _ hd)
    rw [replaceEach_append]
    exact (ih (fun d hd => h d (List.mem_append_left _ hd)) hw.1).trans
      (le_count_names hlast hw.2 _)

theorem countP_lookup_append (hkey : e.1 = b.wrap v) (hv : b.lookup table v = none)
    (l : List (List α)) :
    l.countP (fun w => (b.lookup (table ++ [e]) w).isSome) =
      l.countP (fun w => (b.lookup table w).isSome) + l.count v := by
  induction l with
  | nil => rfl
  | cons w l ih =>
    rw [List.countP_cons, List.countP_cons, List.count_cons, ih, lookup_append,
      lookup_singleton hkey]
    by_cases hw : w = v
    · subst hw
      rw [hv]
      simp
      omega
    · rw [if_neg hw, Option.or_none, beq_eq_false_iff_ne.mpr hw]
      simp
      omega

theorem replaceFrom_nil (t : List α) : replaceFrom [] 0 t = t := by
  induction t with
  | nil => rfl
  | cons a t ih => exact congrArg (a :: ·) ih

theorem countP_lookup_singleton (hkey : e.1 = b.wrap v) (l : List (List α)) :
    l.countP (fun w => (b.lookup [e] w).isSome) = l.count v := by
  have happend := countP_lookup_append hkey (rfl : b.lookup [] v = none) l
  have hnil : l.countP (fun w => (b.lookup [] w).isSome) = 0 :=
    List.countP_eq_zero.mpr fun _ _ => Bool.false_ne_true
  rw [hnil, Nat.zero_add] at happend
  exact happend

/-- One after the other replaces what all at once does, or more. -/
theorem replaceEach_cases (h : ∀ e ∈ table, b.Bracketed e) (hnodup : (table.map (·.1)).Nodup)
    (t : List α) :
    (b.NoneCompleted table t ∧ replaceEach table t = replaceAll table t) ∨
    (¬ b.NoneCompleted table t ∧
      (replaceEach table t).count b.opening < (replaceAll table t).count b.opening) := by
  induction table using List.reverseRecOn with
  | nil =>
    left
    constructor
    · intro before e after heq
      cases before <;> cases heq
    · exact (replaceFrom_nil t).symm
  | append_singleton table e ih =>
    have htable : ∀ d ∈ table, b.Bracketed d := fun d hd => h d (List.mem_append_left _ hd)
    have hlast : ∀ d ∈ [e], b.Bracketed d := fun d hd => h d (List.mem_append_right _ hd)
    obtain ⟨v, -, hkey⟩ := (h e (by simp)).key
    rw [List.map_append, List.nodup_append] at hnodup
    have hv : b.wrap v ∉ table.map (·.1) := fun hmem =>
      hnodup.2.2 _ hmem _ (by simp) hkey.symm
    have hnone := lookup_eq_none.mpr hv
    -- Both ways the last key is replaced wherever it stands now.
    have hkept := le_count_names_replaceEach htable hv t
    have hall := count_replaceAll h t
    have hfirst := count_replaceAll htable t
    rw [countP_lookup_append hkey hnone] at hall
    have heach := count_replaceAll hlast (replaceEach table t)
    rw [countP_lookup_singleton hkey, ← replaceEach_append] at heach
    rw [noneCompleted_append]
    obtain ⟨hcompleted, heq⟩ | ⟨hnot, hlt⟩ := ih htable hnodup.1
    · by_cases hnext : ∀ w ∈ b.completed (b.lookup table) none none t, e.1 ≠ b.wrap w
      · left
        refine ⟨⟨hcompleted, hnext⟩, ?_⟩
        rw [replaceEach_append, heq, replaceAll_eq_subst hlast, replaceAll_eq_subst htable,
          replaceAll_eq_subst h, subst_subst (plain_lookup htable) plainState_none]
        · have hlookup : b.lookup (table ++ [e]) = fun w => (b.lookup table w).or (b.lookup [e] w) :=
            funext (lookup_append table [e])
          rw [hlookup]
          rfl
        · intro w hw
          rw [lookup_eq_none]
          simpa using (hnext w hw).symm
      · right
        refine ⟨fun hboth => hnext hboth.2, ?_⟩
        push Not at hnext
        obtain ⟨w, hw, hwkey⟩ := hnext
        obtain rfl := wrap_injective (hwkey.symm.trans hkey)
        have hmore : (b.names none t).count w < (b.names none (replaceEach table t)).count w := by
          rw [heq, (names_replaceAll htable t).count_eq, List.count_append,
            List.count_filter (by rw [hnone]; rfl)]
          have hpos := List.count_pos_iff.mpr hw
          omega
        have hsame : (replaceEach table t).count b.opening =
            (replaceAll table t).count b.opening := by rw [heq]
        omega
    · right
      refine ⟨fun hboth => hnot hboth.1, ?_⟩
      omega

end Tables

end Brackets

end Placeholders
