import MonitorController.Foundation.Words

/-! # Lines with their ends

A text is the concatenation of its lines when these keep their ends. Read again,
a concatenation of lines has the same lines as long as only the last of them is
without an end.
-/

namespace Words

/-- `str.splitlines(keepends=True)`. -/
def splitLinesKeep : List Char → List (List Char)
  | [] => []
  | '\r' :: '\n' :: rest => ['\r', '\n'] :: splitLinesKeep rest
  | c :: rest =>
    if isLineBreak c then [c] :: splitLinesKeep rest
    else
      match splitLinesKeep rest with
      | [] => [[c]]
      | line :: lines => (c :: line) :: lines

def body (line : List Char) : List Char := line.takeWhile (!isLineBreak ·)

def ended (line : List Char) : Bool := line.getLast?.any isLineBreak

/-- A nonempty line and its end, if it has one. -/
inductive IsLine : List Char → Prop
  | last {b : List Char} (hne : b ≠ []) (hclear : ∀ c ∈ b, isLineBreak c = false) : IsLine b
  | ended {b : List Char} {c : Char} (hclear : ∀ c ∈ b, isLineBreak c = false)
      (hbreak : isLineBreak c = true) : IsLine (b ++ [c])
  | crlf {b : List Char} (hclear : ∀ c ∈ b, isLineBreak c = false) : IsLine (b ++ ['\r', '\n'])

section Keep

variable {b line text : List Char} {c : Char}

theorem body_open (hclear : ∀ c ∈ b, isLineBreak c = false) : body b = b :=
  List.takeWhile_eq_self_iff.mpr fun c hc => by simp [hclear c hc]

theorem body_append (hclear : ∀ c ∈ b, isLineBreak c = false) (hbreak : isLineBreak c = true)
    (rest : List Char) : body (b ++ c :: rest) = b := by
  have hb : ∀ d ∈ b, (!isLineBreak d) = true := fun d hd => by simp [hclear d hd]
  rw [body, List.takeWhile_append_of_pos hb]
  simp [hbreak]

theorem body_indent {indent : List Char} (hclear : ∀ c ∈ indent, isLineBreak c = false)
    (line : List Char) : body (indent ++ line) = indent ++ body line :=
  List.takeWhile_append_of_pos fun d hd => by simp [hclear d hd]

theorem ended_open (hclear : ∀ c ∈ b, isLineBreak c = false) : ended b = false := by
  unfold ended
  cases h : b.getLast? with
  | none => rfl
  | some c => simp [hclear c (List.mem_of_getLast? h)]

theorem ended_append (hbreak : isLineBreak c = true) (b : List Char) : ended (b ++ [c]) = true := by
  simp [ended, hbreak]

theorem ended_indent (h : line ≠ []) (indent : List Char) : ended (indent ++ line) = ended line := by
  rw [ended, ended, List.getLast?_append_of_ne_nil _ h]

theorem IsLine.ne_nil (h : IsLine line) : line ≠ [] := by
  cases h with
  | last hne _ => exact hne
  | ended _ _ => simp
  | crlf _ => simp

theorem IsLine.cons (h : IsLine line) (hc : isLineBreak c = false) : IsLine (c :: line) := by
  have hclear : ∀ {b : List Char}, (∀ d ∈ b, isLineBreak d = false) →
      ∀ d ∈ c :: b, isLineBreak d = false := by
    intro b hb d hd
    rcases List.mem_cons.mp hd with rfl | hd
    · exact hc
    · exact hb d hd
  cases h with
  | last _ hb => exact .last (List.cons_ne_nil _ _) (hclear hb)
  | ended hb hbreak => exact .ended (hclear hb) hbreak
  | crlf hb => exact .crlf (hclear hb)

theorem isLine_of_mem (h : line ∈ splitLinesKeep text) : IsLine line := by
  induction text using splitLinesKeep.induct generalizing line with
  | case1 => simp [splitLinesKeep] at h
  | case2 rest ih =>
    rw [splitLinesKeep] at h
    rcases List.mem_cons.mp h with rfl | h
    · exact .crlf (b := []) (by simp)
    · exact ih h
  | case3 c rest hne hbreak ih =>
    rw [splitLinesKeep.eq_3 c rest hne, if_pos hbreak] at h
    rcases List.mem_cons.mp h with rfl | h
    · exact .ended (b := []) (by simp) hbreak
    · exact ih h
  | case4 c rest hne hbreak hnil ih =>
    rw [splitLinesKeep.eq_3 c rest hne, if_neg hbreak, hnil] at h
    obtain rfl := List.mem_singleton.mp h
    exact .last (by simp) (by simpa using hbreak)
  | case5 c rest hne hbreak first lines hlines ih =>
    rw [splitLinesKeep.eq_3 c rest hne, if_neg hbreak, hlines] at h
    rcases List.mem_cons.mp h with rfl | h
    · exact (ih (hlines ▸ List.mem_cons_self)).cons (by simpa using hbreak)
    · exact ih (hlines ▸ List.mem_cons_of_mem _ h)

/-- Without their ends, the lines are those of a reading that drops the ends. -/
theorem map_body_splitLinesKeep (text : List Char) :
    (splitLinesKeep text).map body = splitLines text := by
  induction text using splitLinesKeep.induct with
  | case1 => rfl
  | case2 rest ih =>
    rw [splitLinesKeep, splitLines, List.map_cons, ih]
    rfl
  | case3 c rest hne hbreak ih =>
    rw [splitLinesKeep.eq_3 c rest hne, splitLines.eq_3 c rest hne, if_pos hbreak, if_pos hbreak,
      List.map_cons, ih, body, List.takeWhile_cons_of_neg (by simp [hbreak])]
  | case4 c rest hne hbreak hnil ih =>
    rw [hnil] at ih
    rw [splitLinesKeep.eq_3 c rest hne, splitLines.eq_3 c rest hne, if_neg hbreak, if_neg hbreak,
      hnil, ← ih]
    simp [body, hbreak]
  | case5 c rest hne hbreak first lines hlines ih =>
    rw [hlines] at ih
    rw [splitLinesKeep.eq_3 c rest hne, splitLines.eq_3 c rest hne, if_neg hbreak, if_neg hbreak,
      hlines, ← ih]
    simp [body, hbreak]

theorem splitLinesKeep_ne_nil (h : text ≠ []) : splitLinesKeep text ≠ [] := by
  cases text using splitLinesKeep.fun_cases_unfolding with
  | case1 => exact absurd rfl h
  | _ => simp

theorem mem_dropLast_cons {α : Type*} {a b : α} {l : List α} (h : a ∈ (b :: l).dropLast) :
    a = b ∨ a ∈ l.dropLast := by
  cases l with
  | nil => simp at h
  | cons c l =>
    rw [List.dropLast_cons_of_ne_nil (List.cons_ne_nil _ _)] at h
    exact List.mem_cons.mp h

/-- Only the last line of a text may be without an end. -/
theorem ended_of_mem_dropLast (h : line ∈ (splitLinesKeep text).dropLast) : ended line = true := by
  induction text using splitLinesKeep.induct generalizing line with
  | case1 => simp [splitLinesKeep] at h
  | case2 rest ih =>
    rw [splitLinesKeep] at h
    rcases mem_dropLast_cons h with rfl | h
    · rfl
    · exact ih h
  | case3 c rest hne hbreak ih =>
    rw [splitLinesKeep.eq_3 c rest hne, if_pos hbreak] at h
    rcases mem_dropLast_cons h with rfl | h
    · simp [ended, hbreak]
    · exact ih h
  | case4 c rest hne hbreak hnil ih =>
    rw [splitLinesKeep.eq_3 c rest hne, if_neg hbreak, hnil] at h
    simp at h
  | case5 c rest hne hbreak first lines hlines ih =>
    rw [splitLinesKeep.eq_3 c rest hne, if_neg hbreak, hlines] at h
    rw [hlines] at ih
    cases lines with
    | nil => simp at h
    | cons second lines =>
      rw [List.dropLast_cons_of_ne_nil (List.cons_ne_nil _ _)] at h ih
      rcases List.mem_cons.mp h with rfl | h
      · have hfirst : first ≠ [] := (isLine_of_mem (hlines ▸ List.mem_cons_self)).ne_nil
        exact (ended_indent hfirst [c]).trans (ih List.mem_cons_self)
      · exact ih (List.mem_cons_of_mem _ h)

end Keep

section Join

/-- A line which keeps its end when something follows it: that end is no carriage return. -/
inductive IsPiece : List Char → Prop
  | last {b : List Char} (hne : b ≠ []) (hclear : ∀ c ∈ b, isLineBreak c = false) : IsPiece b
  | ended {b : List Char} {c : Char} (hclear : ∀ c ∈ b, isLineBreak c = false)
      (hbreak : isLineBreak c = true) (hreturn : c ≠ '\r') : IsPiece (b ++ [c])

variable {b piece : List Char} {c : Char} {pieces : List (List Char)}

theorem IsPiece.indent (h : IsPiece piece) {indent : List Char}
    (hclear : ∀ c ∈ indent, isLineBreak c = false) : IsPiece (indent ++ piece) := by
  have happend : ∀ {b : List Char}, (∀ c ∈ b, isLineBreak c = false) →
      ∀ c ∈ indent ++ b, isLineBreak c = false := by
    intro b hb c hc
    exact (List.mem_append.mp hc).elim (hclear c) (hb c)
  cases h with
  | last hne hb => exact .last (by simp [hne]) (happend hb)
  | ended hb hbreak hreturn =>
    rw [← List.append_assoc]
    exact .ended (happend hb) hbreak hreturn

theorem splitLines_ended (hclear : ∀ c ∈ b, isLineBreak c = false) (hbreak : isLineBreak c = true)
    (hreturn : c ≠ '\r') (rest : List Char) :
    splitLines (b ++ c :: rest) = b :: splitLines rest := by
  induction b with
  | nil =>
    rw [List.nil_append, splitLines.eq_3 c rest fun _ hc _ => hreturn hc, if_pos hbreak]
  | cons d b ih =>
    rw [List.cons_append, splitLines_cons (hclear d List.mem_cons_self),
      ih fun e he => hclear e (List.mem_cons_of_mem _ he)]

/-- What has no end runs into the next line. -/
theorem splitLines_open (hne : b ≠ []) (hclear : ∀ c ∈ b, isLineBreak c = false)
    (rest : List Char) : splitLines (b ++ rest) = match splitLines rest with
      | [] => [b]
      | line :: lines => (b ++ line) :: lines := by
  induction b with
  | nil => exact absurd rfl hne
  | cons d b ih =>
    rw [List.cons_append, splitLines_cons (hclear d List.mem_cons_self)]
    by_cases hb : b = []
    · subst hb
      rfl
    · rw [ih hb fun e he => hclear e (List.mem_cons_of_mem _ he)]
      cases splitLines rest <;> rfl

theorem length_splitLines_flatten (h : ∀ p ∈ pieces, IsPiece p) :
    (splitLines pieces.flatten).length ≤ pieces.length := by
  induction pieces with
  | nil => simp [splitLines]
  | cons p pieces ih =>
    have hle := ih fun q hq => h q (List.mem_cons_of_mem _ hq)
    rw [List.flatten_cons]
    cases h p List.mem_cons_self with
    | last hne hclear =>
      rw [splitLines_open hne hclear]
      cases hlines : splitLines pieces.flatten with
      | nil => simp
      | cons line lines =>
        rw [hlines] at hle
        simp only [List.length_cons] at hle ⊢
        omega
    | ended hclear hbreak hreturn =>
      rw [List.append_assoc, List.singleton_append, splitLines_ended hclear hbreak hreturn]
      simpa using hle

theorem splitLines_flatten (h : ∀ p ∈ pieces, IsPiece p)
    (hended : ∀ p ∈ pieces.dropLast, ended p = true) :
    splitLines pieces.flatten = pieces.map body := by
  induction pieces with
  | nil => rfl
  | cons p pieces ih =>
    have hrest := fun q hq => h q (List.mem_cons_of_mem _ hq)
    rw [List.flatten_cons, List.map_cons]
    by_cases hpieces : pieces = []
    · subst hpieces
      cases h p List.mem_cons_self with
      | last hne hclear =>
        rw [splitLines_open hne hclear, body_open hclear]
        rfl
      | ended hclear hbreak hreturn =>
        rw [List.append_assoc, List.singleton_append, splitLines_ended hclear hbreak hreturn,
          body_append hclear hbreak]
        rfl
    · rw [List.dropLast_cons_of_ne_nil hpieces] at hended
      have hp := hended p List.mem_cons_self
      cases h p List.mem_cons_self with
      | last hne hclear =>
        rw [ended_open hclear] at hp
        cases hp
      | ended hclear hbreak hreturn =>
        rw [List.append_assoc, List.singleton_append, splitLines_ended hclear hbreak hreturn,
          body_append hclear hbreak, ih hrest fun q hq => hended q (List.mem_cons_of_mem _ hq)]

/-- Read again, a concatenation has its lines only if no end is missing between two of them. -/
theorem ended_of_splitLines_flatten (h : ∀ p ∈ pieces, IsPiece p)
    (hlines : splitLines pieces.flatten = pieces.map body) :
    ∀ p ∈ pieces.dropLast, ended p = true := by
  induction pieces with
  | nil => simp
  | cons p pieces ih =>
    have hrest := fun q hq => h q (List.mem_cons_of_mem _ hq)
    by_cases hpieces : pieces = []
    · subst hpieces
      simp
    · rw [List.dropLast_cons_of_ne_nil hpieces]
      rw [List.flatten_cons, List.map_cons] at hlines
      cases h p List.mem_cons_self with
      | last hne hclear =>
        exfalso
        have hlength := length_splitLines_flatten hrest
        have hpositive := List.length_pos_iff.mpr hpieces
        rw [splitLines_open hne hclear] at hlines
        cases hnext : splitLines pieces.flatten with
        | nil =>
          rw [hnext] at hlines
          have hcount := congrArg List.length hlines
          simp only [List.length_cons, List.length_map, List.length_nil] at hcount
          omega
        | cons line lines =>
          rw [hnext] at hlines hlength
          have hcount := congrArg List.length hlines
          simp only [List.length_cons, List.length_map] at hcount hlength
          omega
      | ended hclear hbreak hreturn =>
        rw [List.append_assoc, List.singleton_append, splitLines_ended hclear hbreak hreturn,
          body_append hclear hbreak, List.cons.injEq] at hlines
        intro q hq
        rcases List.mem_cons.mp hq with rfl | hq
        · exact ended_append hbreak _
        · exact ih hrest hlines.2 q hq

end Join

end Words
