import Mathlib.Data.List.DropRight
import Mathlib.Data.List.Sort
import Mathlib.Order.Basic

/-! # Lines, words and their order

A text is read as lines and a line as words. Separators are given by a
predicate, a word is a nonempty run without separators, and a trimmed line
neither begins nor ends with one. What was read is sorted by a key.
-/

universe u v

namespace Words

variable {α : Type u} (p : α → Bool)

/-- A nonempty run without separators. -/
structure Bare (w : List α) : Prop where
  ne_nil : w ≠ []
  clear : ∀ a ∈ w, p a = false

/-- No separator stands at either end. -/
structure Trimmed (l : List α) : Prop where
  head : ∀ a ∈ l.head?, p a = false
  last : ∀ a ∈ l.getLast?, p a = false

def strip (l : List α) : List α := (l.dropWhile p).rdropWhile p

def words (l : List α) : List (List α) := (l.splitOnP p).filter fun w => !w.isEmpty

/-- The first word of a line and what follows it, leading separators cut off. -/
def cut (l : List α) : Option (List α × Option (List α)) :=
  match l.dropWhile p with
  | [] => none
  | a :: l =>
    let rest := ((a :: l).dropWhile (!p ·)).dropWhile p
    some ((a :: l).takeWhile (!p ·), if rest.isEmpty then none else some rest)

variable {p}

theorem Bare.of_all {w : List α} (hne : w ≠ []) (h : w.all (!p ·) = true) : Bare p w where
  ne_nil := hne
  clear a ha := by simpa using List.all_eq_true.mp h a ha

theorem Bare.trimmed {w : List α} (h : Bare p w) : Trimmed p w where
  head a ha := h.clear a (List.mem_of_mem_head? ha)
  last a ha := h.clear a (List.mem_of_mem_getLast? ha)

theorem Trimmed.append {a b : List α} (ha : Trimmed p a) (hb : Trimmed p b) (hane : a ≠ [])
    (hbne : b ≠ []) (l : List α) : Trimmed p (a ++ l ++ b) where
  head x hx := by
    obtain ⟨y, a, rfl⟩ := List.exists_cons_of_ne_nil hane
    exact ha.head x (by simpa using hx)
  last x hx := by
    refine hb.last x ?_
    rwa [List.getLast?_append_of_ne_nil _ hbne] at hx

theorem dropWhile_eq_self {l : List α} (h : ∀ a ∈ l.head?, p a = false) : l.dropWhile p = l := by
  cases l with
  | nil => rfl
  | cons a l => exact List.dropWhile_cons_of_neg (by simp [h a rfl])

theorem head?_dropWhile (l : List α) : ∀ a ∈ (l.dropWhile p).head?, p a = false := by
  intro a ha
  cases hd : l.dropWhile p with
  | nil => simp [hd] at ha
  | cons b m =>
    have hhead := List.head_dropWhile_not p (l := l) (by simp [hd])
    simp only [hd, List.head?_cons, Option.mem_some_iff, List.head_cons] at ha hhead
    exact ha ▸ by simpa using hhead

theorem strip_sublist (l : List α) : (strip p l).Sublist l :=
  (List.rdropWhile_prefix p _).sublist.trans (List.dropWhile_sublist p)

theorem mem_of_mem_strip {l : List α} {a : α} (h : a ∈ strip p l) : a ∈ l :=
  (strip_sublist l).subset h

theorem strip_trimmed (l : List α) : Trimmed p (strip p l) where
  head a ha := by
    obtain ⟨t, ht⟩ := List.rdropWhile_prefix p (l.dropWhile p)
    refine head?_dropWhile l a ?_
    unfold strip at ha
    cases hs : List.rdropWhile p (l.dropWhile p) with
    | nil => simp [hs] at ha
    | cons b m =>
      rw [hs] at ha ht
      rw [← ht]
      simpa using ha
  last a ha := by
    have hne : strip p l ≠ [] := by
      rintro hnil
      simp [hnil] at ha
    have hlast := List.rdropWhile_last_not p (l.dropWhile p) hne
    have ha' : (strip p l).getLast hne = a := by
      simpa [List.getLast?_eq_some_getLast hne] using ha
    unfold strip at ha'
    rw [ha'] at hlast
    simpa using hlast

theorem Trimmed.strip_eq {l : List α} (h : Trimmed p l) : strip p l = l := by
  unfold strip
  rw [dropWhile_eq_self h.head]
  refine List.rdropWhile_eq_self_iff.mpr fun hl => ?_
  simp [h.last _ (List.getLast?_eq_some_getLast hl)]

theorem bare_of_mem_words {l w : List α} (h : w ∈ words p l) : Bare p w where
  ne_nil := by
    rintro rfl
    simp [words] at h
  clear := by
    have hw : w ∈ l.splitOnP p := List.mem_of_mem_filter h
    clear h
    induction l generalizing w with
    | nil =>
      obtain rfl : w = [] := by simpa using hw
      simp
    | cons a l ih =>
      rw [List.splitOnP_cons_eq_if_modifyHead] at hw
      split at hw
      · rcases List.mem_cons.mp hw with rfl | hw
        · simp
        · exact ih hw
      · rename_i hp
        cases hs : l.splitOnP p with
        | nil => simp [hs] at hw
        | cons v vs =>
          rw [hs, List.modifyHead_cons] at hw
          rcases List.mem_cons.mp hw with rfl | hw
          · intro b hb
            rcases List.mem_cons.mp hb with rfl | hb
            · simpa using hp
            · exact ih (hs ▸ List.mem_cons_self) b hb
          · exact ih (hs ▸ List.mem_cons_of_mem _ hw)

theorem words_pair {v w : List α} (hv : Bare p v) (hw : Bare p w) {s : α} (hs : p s = true) :
    words p (v ++ s :: w) = [v, w] := by
  have hvne := hv.ne_nil
  have hwne := hw.ne_nil
  simp [words, List.splitOnP_append_cons_of_forall_mem hv.clear s hs,
    List.splitOnP_eq_singleton hw.clear, hvne, hwne]

theorem head?_of_words {l w : List α} (ws : List (List α)) (hl : Trimmed p l)
    (h : words p l = w :: ws) : w.head? = l.head? := by
  cases l with
  | nil => simp [words] at h
  | cons a l =>
    have ha : p a = false := hl.head a rfl
    obtain ⟨v, vs, hv⟩ := List.exists_cons_of_ne_nil (List.splitOnP_ne_nil p l)
    unfold words at h
    rw [List.splitOnP_cons_eq_if_modifyHead, if_neg (by simp [ha]), hv, List.modifyHead_cons,
      List.filter_cons_of_pos (by simp)] at h
    rw [← (List.cons.inj h).1]
    rfl

theorem cut_some {l k : List α} {v : Option (List α)} (h : cut p l = some (k, v)) :
    Bare p k ∧ (Trimmed p l → l.head? = k.head?) ∧
      ∀ r ∈ v, r ≠ [] ∧ (Trimmed p l → Trimmed p r) ∧ r ⊆ l := by
  unfold cut at h
  cases hd : l.dropWhile p with
  | nil => simp [hd] at h
  | cons a m =>
    have ha : p a = false := head?_dropWhile l a (by simp [hd])
    have hsub : (a :: m).Sublist l := hd ▸ List.dropWhile_sublist p
    simp only [hd, Option.some.injEq, Prod.mk.injEq] at h
    obtain ⟨rfl, rfl⟩ := h
    refine ⟨⟨by simp [ha], ?_⟩, ?_, ?_⟩
    · intro b hb
      simpa using List.mem_takeWhile_imp hb
    · intro hl
      have hself := dropWhile_eq_self hl.head
      rw [hd] at hself
      simp [← hself, ha]
    · intro r hr
      split at hr
      · cases hr
      rename_i hne
      obtain rfl := Option.mem_some_iff.mp hr
      have hsuffix : (((a :: m).dropWhile (!p ·)).dropWhile p).Sublist (a :: m) :=
        (List.dropWhile_sublist _).trans (List.dropWhile_sublist _)
      refine ⟨by simpa using hne, fun hl => ⟨head?_dropWhile _, ?_⟩, ?_⟩
      · intro b hb
        refine hl.last b ?_
        have hself := dropWhile_eq_self hl.head
        rw [hd] at hself
        rw [← hself]
        have hsuff : ((a :: m).dropWhile (!p ·)).dropWhile p <:+ a :: m :=
          (List.dropWhile_suffix _).trans (List.dropWhile_suffix _)
        obtain ⟨t, ht⟩ := hsuff
        rw [← ht, List.getLast?_append_of_ne_nil _ (by simpa using hne)]
        exact hb
      · exact (hsuffix.trans hsub).subset

theorem takeWhile_bare {k : List α} (hk : ∀ a ∈ k, p a = false) {l : List α}
    (hl : ∀ a ∈ l.head?, p a = true) : (k ++ l).takeWhile (!p ·) = k := by
  rw [List.takeWhile_append_of_pos (by simpa using hk)]
  cases l with
  | nil => simp
  | cons a l => simp [hl a rfl]

theorem dropWhile_bare {k : List α} (hk : ∀ a ∈ k, p a = false) {l : List α}
    (hl : ∀ a ∈ l.head?, p a = true) : (k ++ l).dropWhile (!p ·) = l := by
  rw [List.dropWhile_append_of_pos (by simpa using hk)]
  cases l with
  | nil => simp
  | cons a l => simp [hl a rfl]

theorem Bare.cut_eq {k : List α} (h : Bare p k) : cut p k = some (k, none) := by
  have htake : k.takeWhile (!p ·) = k := by
    simpa using takeWhile_bare h.clear (l := []) (by simp)
  have hdrop : k.dropWhile (!p ·) = [] := by
    simpa using dropWhile_bare h.clear (l := []) (by simp)
  unfold cut
  rw [dropWhile_eq_self h.trimmed.head]
  obtain ⟨a, m, rfl⟩ := List.exists_cons_of_ne_nil h.ne_nil
  simp only [htake, hdrop, List.dropWhile_nil, List.isEmpty_nil, if_true]

/-- A line of a word and what follows it. -/
theorem cut_append {k r : List α} (hk : Bare p k) {s : α} (hs : p s = true) (hr : Trimmed p r)
    (hne : r ≠ []) : cut p (k ++ s :: r) = some (k, some r) := by
  have htake : (k ++ s :: r).takeWhile (!p ·) = k := takeWhile_bare hk.clear (by simp [hs])
  have hdrop : ((k ++ s :: r).dropWhile (!p ·)).dropWhile p = r := by
    rw [dropWhile_bare hk.clear (by simp [hs]), List.dropWhile_cons_of_pos hs,
      dropWhile_eq_self hr.head]
  have hself : (k ++ s :: r).dropWhile p = k ++ s :: r := by
    refine dropWhile_eq_self fun a ha => hk.trimmed.head a ?_
    obtain ⟨b, m, rfl⟩ := List.exists_cons_of_ne_nil hk.ne_nil
    simpa using ha
  unfold cut
  rw [hself]
  obtain ⟨a, m, rfl⟩ := List.exists_cons_of_ne_nil hk.ne_nil
  simp only [List.cons_append] at htake hdrop ⊢
  simp [htake, hdrop, hne]

/-! ## Lines -/

/-- The characters at which Python's `str.splitlines` ends a line. -/
def isLineBreak (c : Char) : Bool :=
  let n := c.toNat
  (10 ≤ n && n ≤ 13) || (28 ≤ n && n ≤ 30) || n = 0x85 || n = 0x2028 || n = 0x2029

/-- The lines of a text; a carriage return and a newline end one line together. -/
def splitLines : List Char → List (List Char)
  | [] => []
  | '\r' :: '\n' :: rest => [] :: splitLines rest
  | c :: rest =>
    if isLineBreak c then [] :: splitLines rest
    else
      match splitLines rest with
      | [] => [[c]]
      | line :: lines => (c :: line) :: lines

def unlines (lines : List (List Char)) : List Char := lines.flatMap (· ++ ['\n'])

theorem splitLines_cons {c : Char} (h : isLineBreak c = false) (rest : List Char) :
    splitLines (c :: rest) = match splitLines rest with
      | [] => [[c]]
      | line :: lines => (c :: line) :: lines := by
  rw [splitLines.eq_3]
  · simp [h]
  · rintro _ rfl
    exact absurd h (by decide)

theorem splitLines_line {line : List Char} (h : ∀ c ∈ line, isLineBreak c = false)
    (rest : List Char) : splitLines (line ++ '\n' :: rest) = line :: splitLines rest := by
  induction line with
  | nil => simp [splitLines, isLineBreak]
  | cons c line ih =>
    rw [List.cons_append, splitLines_cons (h c List.mem_cons_self),
      ih fun d hd => h d (List.mem_cons_of_mem _ hd)]

theorem splitLines_unlines {lines : List (List Char)}
    (h : ∀ line ∈ lines, ∀ c ∈ line, isLineBreak c = false) : splitLines (unlines lines) = lines := by
  induction lines with
  | nil => rfl
  | cons line lines ih =>
    have hcons : unlines (line :: lines) = line ++ '\n' :: unlines lines := by simp [unlines]
    rw [hcons, splitLines_line (h line List.mem_cons_self),
      ih fun l hl => h l (List.mem_cons_of_mem _ hl)]

/-- No line contains a line break. -/
theorem clear_of_mem_splitLines {text line : List Char} (h : line ∈ splitLines text) :
    ∀ c ∈ line, isLineBreak c = false := by
  induction text using splitLines.induct generalizing line with
  | case1 => simp [splitLines] at h
  | case2 rest ih =>
    rw [splitLines] at h
    rcases List.mem_cons.mp h with rfl | h
    · simp
    · exact ih h
  | case3 c rest hne hbreak ih =>
    rw [splitLines.eq_3 c rest hne, if_pos hbreak] at h
    rcases List.mem_cons.mp h with rfl | h
    · simp
    · exact ih h
  | case4 c rest hne hbreak hnil ih =>
    rw [splitLines.eq_3 c rest hne, if_neg hbreak, hnil] at h
    obtain rfl := List.mem_singleton.mp h
    simpa using hbreak
  | case5 c rest hne hbreak first lines hlines ih =>
    rw [splitLines.eq_3 c rest hne, if_neg hbreak, hlines] at h
    rcases List.mem_cons.mp h with rfl | h
    · intro d hd
      rcases List.mem_cons.mp hd with rfl | hd
      · simpa using hbreak
      · exact ih (hlines ▸ List.mem_cons_self) d hd
    · exact ih (hlines ▸ List.mem_cons_of_mem _ h)

/-! ## Sorting by a key -/

section Sorted

variable {κ : Type v} [LinearOrder κ] (f : α → κ)

/-- The stable sort by a key, as Python's `sorted`. -/
def sortedBy (l : List α) : List α := l.insertionSort fun a b => f a ≤ f b

variable {f}

theorem sortedBy_perm (l : List α) : (sortedBy f l).Perm l := List.perm_insertionSort _ l

theorem mem_sortedBy {l : List α} {a : α} : a ∈ sortedBy f l ↔ a ∈ l :=
  (sortedBy_perm l).mem_iff

theorem sortedBy_sorted (l : List α) :
    (sortedBy f l).Pairwise fun a b => f a ≤ f b := by
  have : Std.Total fun a b : α => f a ≤ f b := ⟨fun a b => le_total _ _⟩
  have : IsTrans α fun a b => f a ≤ f b := ⟨fun _ _ _ => le_trans⟩
  exact List.pairwise_insertionSort _ l

theorem sortedBy_eq_self {l : List α} (h : l.Pairwise fun a b => f a ≤ f b) :
    sortedBy f l = l := by
  induction l with
  | nil => rfl
  | cons a l ih =>
    obtain ⟨ha, hl⟩ := List.pairwise_cons.mp h
    have htail : sortedBy f (a :: l) = List.orderedInsert (fun a b => f a ≤ f b) a l := by
      have hih := ih hl
      unfold sortedBy at hih ⊢
      rw [List.insertionSort_cons, hih]
    rw [htail]
    cases l with
    | nil => rfl
    | cons b l => exact List.orderedInsert_cons_of_le _ _ (ha b List.mem_cons_self)

theorem sortedBy_strict {l : List α} (h : (l.map f).Nodup) :
    (sortedBy f l).Pairwise fun a b => f a < f b := by
  have hnodup : ((sortedBy f l).map f).Nodup := ((sortedBy_perm l).map f).nodup_iff.mpr h
  rw [List.Nodup, List.pairwise_map] at hnodup
  exact ((sortedBy_sorted l).and hnodup).imp fun h => lt_of_le_of_ne h.1 h.2

theorem eq_of_strict {l m : List α} (h : l.Perm m) (hl : l.Pairwise fun a b => f a < f b)
    (hm : m.Pairwise fun a b => f a < f b) : l = m := by
  refine h.eq_of_pairwise (fun a b _ _ hab hba => ?_) hl hm
  exact absurd hab (not_lt.mpr hba.le)

/-- A relation between elements of one key holds along the sorted list if it does along the given
one: the sort is stable. -/
theorem pairwise_sortedBy {r : α → α → Prop} (hr : ∀ a b, f a ≠ f b → r a b) {l : List α} :
    (sortedBy f l).Pairwise r ↔ l.Pairwise r := by
  have hinsert : ∀ (a : α) (l : List α),
      (l.orderedInsert (fun a b => f a ≤ f b) a).Pairwise r ↔ (∀ b ∈ l, r a b) ∧ l.Pairwise r := by
    intro a l
    induction l with
    | nil => simp
    | cons b l ih =>
      by_cases hle : f a ≤ f b
      · rw [List.orderedInsert_cons, if_pos hle, List.pairwise_cons]
      · rw [List.orderedInsert_cons, if_neg hle, List.pairwise_cons, ih, List.pairwise_cons,
          List.forall_mem_cons]
        simp only [List.mem_orderedInsert, forall_eq_or_imp]
        have hab : r a b := hr a b fun h => hle h.le
        have hba : r b a := hr b a fun h => hle h.ge
        tauto
  induction l with
  | nil => exact Iff.rfl
  | cons a l ih =>
    have hl : (sortedBy f l).Pairwise r ↔ l.Pairwise r := ih
    refine (hinsert a (sortedBy f l)).trans ?_
    rw [hl, List.pairwise_cons]
    simp only [mem_sortedBy]

end Sorted

end Words
