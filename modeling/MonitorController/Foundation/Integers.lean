import Mathlib.Tactic.Ring
import MonitorController.Foundation.Words

/-! # Integers in a text

Python's `int` reads a number with blanks around it, a sign, underscores between
the digits and the decimal digits of any script, in base sixteen also after
`0x`. Few of these texts are what it writes.
-/

namespace Integers

section Characters

/-- The zeros of all scripts; the other decimal digits follow each of them. -/
def decimalZeros : List Nat :=
  [0x30, 0x660, 0x6f0, 0x7c0, 0x966, 0x9e6, 0xa66, 0xae6, 0xb66, 0xbe6, 0xc66, 0xce6, 0xd66, 0xde6,
    0xe50, 0xed0, 0xf20, 0x1040, 0x1090, 0x17e0, 0x1810, 0x1946, 0x19d0, 0x1a80, 0x1a90, 0x1b50,
    0x1bb0, 0x1c40, 0x1c50, 0xa620, 0xa8d0, 0xa900, 0xa9d0, 0xa9f0, 0xaa50, 0xabf0, 0xff10, 0x104a0,
    0x10d30, 0x11066, 0x110f0, 0x11136, 0x111d0, 0x112f0, 0x11450, 0x114d0, 0x11650, 0x116c0,
    0x11730, 0x118e0, 0x11950, 0x11c50, 0x11d50, 0x11da0, 0x11f50, 0x16a60, 0x16ac0, 0x16b50,
    0x1d7ce, 0x1d7d8, 0x1d7e2, 0x1d7ec, 0x1d7f6, 0x1e140, 0x1e2f0, 0x1e4f0, 0x1e950, 0x1fbf0]

def decimalValue (c : Char) : Option Nat :=
  (decimalZeros.find? fun start => start ≤ c.toNat && c.toNat < start + 10).map (c.toNat - ·)

/-- `\d`. -/
def isDecimal (c : Char) : Bool := (decimalValue c).isSome

/-- The blanks between which a number may stand once it is in ASCII. -/
def isBlank (c : Char) : Bool := c ∈ ['\t', '\n', '\x0b', '\x0c', '\r', ' ']

def isWideBlank (c : Char) : Bool :=
  let n := c.toNat
  n = 0x85 || n = 0xa0 || n = 0x1680 || (0x2000 ≤ n && n ≤ 0x200a) || n = 0x2028 || n = 0x2029 ||
    n = 0x202f || n = 0x205f || n = 0x3000

/-- The digits and blanks of any script in ASCII; other characters beyond it end a number. -/
def toAscii (c : Char) : Char :=
  if c.toNat < 127 then c
  else if isWideBlank c then ' '
  else
    match decimalValue c with
    | some d => Nat.digitChar d
    | none => '?'

def digitValue (c : Char) : Option Nat :=
  if '0' ≤ c ∧ c ≤ '9' then some (c.toNat - '0'.toNat)
  else if 'a' ≤ c ∧ c ≤ 'z' then some (c.toNat - 'a'.toNat + 10)
  else if 'A' ≤ c ∧ c ≤ 'Z' then some (c.toNat - 'A'.toNat + 10)
  else none

def digitBelow (base : Nat) (c : Char) : Option Nat := (digitValue c).filter (· < base)

end Characters

section Reading

/-- At least one digit, with single underscores between them. -/
def underscored (base : Nat) : List Char → Option (List Nat)
  | [] => none
  | [c] => (digitBelow base c).map ([·])
  | c :: '_' :: rest => do
    let d ← digitBelow base c
    let ds ← underscored base rest
    some (d :: ds)
  | c :: rest => do
    let d ← digitBelow base c
    let ds ← underscored base rest
    some (d :: ds)

def unsigned : List Char → Int × List Char
  | '+' :: rest => (1, rest)
  | '-' :: rest => (-1, rest)
  | rest => (1, rest)

/-- The mark of base sixteen, which an underscore may follow. -/
def unmarked : List Char → List Char
  | '0' :: c :: rest =>
    if c = 'x' ∨ c = 'X' then
      match rest with
      | '_' :: rest => rest
      | rest => rest
    else '0' :: c :: rest
  | rest => rest

/-- The number of its digits, the most significant one first. -/
def ofDigits (base : Nat) (ds : List Nat) : Nat := ds.foldl (fun n d => base * n + d) 0

def maxDecimalDigits : Nat := 4300

/-- `int(text)`. -/
def readDecimal (text : List Char) : Option Int := do
  let (sign, rest) := unsigned (Words.strip isBlank (text.map toAscii))
  let ds ← underscored 10 rest
  if ds.length ≤ maxDecimalDigits then some (sign * ofDigits 10 ds) else none

/-- `int(text, 16)`. -/
def readHex (text : List Char) : Option Int := do
  let (sign, rest) := unsigned (Words.strip isBlank (text.map toAscii))
  let ds ← underscored 16 (unmarked rest)
  some (sign * ofDigits 16 ds)

end Reading

section Plain

variable {base : Nat} {text : List Char} {value : Char → Nat}

/-- Digits without underscores. -/
theorem underscored_map (hne : text ≠ []) (h : ∀ c ∈ text, digitBelow base c = some (value c)) :
    underscored base text = some (text.map value) := by
  fun_induction underscored base text with
  | case1 => exact absurd rfl hne
  | case2 c => simp [h c]
  | case3 c rest ih =>
    have hunderscore : digitBelow base '_' = none := rfl
    have hvalue := h '_' (by simp)
    rw [hunderscore] at hvalue
    cases hvalue
  | case4 c rest hrest _ ih =>
    have htail := ih hrest fun d hd => h d (List.mem_cons_of_mem _ hd)
    rw [h c List.mem_cons_self, htail]
    rfl

theorem strip_of_clear (h : ∀ c ∈ text, isBlank c = false) : Words.strip isBlank text = text :=
  Words.Trimmed.strip_eq ⟨fun c hc => h c (List.mem_of_mem_head? hc),
    fun c hc => h c (List.mem_of_mem_getLast? hc)⟩

theorem map_toAscii (h : ∀ c ∈ text, c.toNat < 127) : text.map toAscii = text := by
  conv_rhs => rw [← List.map_id text]
  exact List.map_congr_left fun c hc => if_pos (h c hc)

theorem unsigned_of_head (h : ∀ c ∈ text.head?, c ≠ '+' ∧ c ≠ '-') : unsigned text = (1, text) := by
  cases text with
  | nil => rfl
  | cons c text =>
    obtain ⟨hplus, hminus⟩ := h c rfl
    unfold unsigned
    split
    · rename_i heq
      exact absurd (List.cons.inj heq).1 hplus
    · rename_i heq
      exact absurd (List.cons.inj heq).1 hminus
    · rfl

theorem unmarked_of_notMem (hx : 'x' ∉ text) (hX : 'X' ∉ text) : unmarked text = text := by
  unfold unmarked
  split
  · rename_i c rest
    rw [if_neg]
    rintro (rfl | rfl)
    · exact hx (by simp)
    · exact hX (by simp)
  · rfl

/-- A character of ASCII between the blanks and the letters which stands for itself. -/
structure Graphic (c : Char) : Prop where
  above : 0x20 < c.toNat
  below : c.toNat < 127
  unsigned : c ≠ '+' ∧ c ≠ '-'

theorem Graphic.not_blank {c : Char} (h : Graphic c) : isBlank c = false := by
  rw [isBlank, decide_eq_false_iff_not]
  intro hmem
  have habove := h.above
  simp only [List.mem_cons, List.not_mem_nil, or_false] at hmem
  obtain rfl | rfl | rfl | rfl | rfl | rfl := hmem <;> revert habove <;> decide

theorem unsigned_of_graphic (h : ∀ c ∈ text, Graphic c) :
    unsigned (Words.strip isBlank (text.map toAscii)) = (1, text) := by
  rw [map_toAscii fun c hc => (h c hc).below, strip_of_clear fun c hc => (h c hc).not_blank]
  exact unsigned_of_head fun c hc => (h c (List.mem_of_mem_head? hc)).unsigned

theorem readDecimal_map (hne : text ≠ []) (h : ∀ c ∈ text, digitBelow 10 c = some (value c))
    (hgraphic : ∀ c ∈ text, Graphic c) :
    readDecimal text = if text.length ≤ maxDecimalDigits then
      some (ofDigits 10 (text.map value) : Int) else none := by
  unfold readDecimal
  rw [unsigned_of_graphic hgraphic]
  dsimp only
  rw [underscored_map hne h, Option.bind_eq_bind, Option.bind_some, List.length_map, one_mul]

theorem readHex_map (hne : text ≠ []) (h : ∀ c ∈ text, digitBelow 16 c = some (value c))
    (hgraphic : ∀ c ∈ text, Graphic c) : readHex text = some (ofDigits 16 (text.map value) : Int) := by
  have hmark : ∀ c ∈ text, c ≠ 'x' ∧ c ≠ 'X' := by
    intro c hc
    have hvalue := h c hc
    constructor <;> rintro rfl <;> cases hvalue
  unfold readHex
  rw [unsigned_of_graphic hgraphic]
  dsimp only
  rw [unmarked_of_notMem (fun hc => (hmark _ hc).1 rfl) (fun hc => (hmark _ hc).2 rfl),
    underscored_map hne h, Option.bind_eq_bind, Option.bind_some, one_mul]

end Plain

section Positions

variable {base : Nat} {ds : List Nat}

theorem ofDigits_append_singleton (ds : List Nat) (d : Nat) :
    ofDigits base (ds ++ [d]) = base * ofDigits base ds + d := by
  rw [ofDigits, List.foldl_append]
  rfl

theorem ofDigits_lt (h : ∀ d ∈ ds, d < base) : ofDigits base ds < base ^ ds.length := by
  induction ds using List.reverseRecOn with
  | nil => simp [ofDigits]
  | append_singleton ds d ih =>
    have hd := h d (by simp)
    have hds := ih fun e he => h e (List.mem_append_left _ he)
    rw [ofDigits_append_singleton, List.length_append, List.length_singleton, pow_succ]
    calc base * ofDigits base ds + d < base * ofDigits base ds + base := by omega
      _ = base * (ofDigits base ds + 1) := by ring
      _ ≤ base * base ^ ds.length := Nat.mul_le_mul_left _ hds
      _ = base ^ ds.length * base := Nat.mul_comm _ _

/-- The digit at a position, counted from the most significant one. -/
theorem ofDigits_div_mod (h : ∀ d ∈ ds, d < base) {i : Nat} (hi : i < ds.length) :
    ofDigits base ds / base ^ (ds.length - 1 - i) % base = ds[i] := by
  induction ds using List.reverseRecOn with
  | nil => cases hi
  | append_singleton ds d ih =>
    have hd := h d (by simp)
    have hbase : 0 < base := by omega
    rw [ofDigits_append_singleton]
    have hlength : (ds ++ [d]).length = ds.length + 1 := by simp
    rw [hlength] at hi
    by_cases hlast : i = ds.length
    · subst hlast
      have hzero : (ds ++ [d]).length - 1 - ds.length = 0 := by omega
      rw [hzero, pow_zero, Nat.div_one, List.getElem_concat_length rfl, Nat.mul_add_mod,
        Nat.mod_eq_of_lt hd]
    · have hlt : i < ds.length := by omega
      have hexp : (ds ++ [d]).length - 1 - i = ds.length - 1 - i + 1 := by omega
      rw [hexp, pow_succ', ← Nat.div_div_eq_div_mul, Nat.mul_add_div hbase, Nat.div_eq_of_lt hd,
        Nat.add_zero, ih (fun e he => h e (List.mem_append_left _ he)) hlt,
        List.getElem_append_left hlt]

/-- Without a leading zero a number has no other digits. -/
theorem toDigits_ofDigits (hb : 1 < base) (hne : ds ≠ []) (h : ∀ d ∈ ds, d < base)
    (hhead : ∀ d ∈ ds.head?, 0 < d) :
    0 < ofDigits base ds ∧ Nat.toDigits base (ofDigits base ds) = ds.map Nat.digitChar := by
  induction ds using List.reverseRecOn with
  | nil => exact absurd rfl hne
  | append_singleton ds d ih =>
    have hd := h d (by simp)
    rw [ofDigits_append_singleton, List.map_append, List.map_singleton]
    by_cases hds : ds = []
    · subst hds
      have hpos := hhead d rfl
      have hzero : base * ofDigits base [] + d = d := by simp [ofDigits]
      rw [hzero]
      exact ⟨hpos, Nat.toDigits_of_lt_base hd⟩
    · have hsame : (ds ++ [d]).head? = ds.head? := by
        rw [List.head?_append_of_ne_nil _ hds]
      rw [hsame] at hhead
      obtain ⟨hpos, hdigits⟩ := ih hds (fun e he => h e (List.mem_append_left _ he)) hhead
      constructor
      · exact Nat.add_pos_left (Nat.mul_pos (by omega) hpos) d
      · rw [← Nat.toDigits_append_toDigits hb hpos hd, hdigits, Nat.toDigits_of_lt_base hd]

end Positions

section Decimals

variable {text : List Char}

def charValue (c : Char) : Nat := c.toNat - '0'.toNat

theorem isDigit_bounds {c : Char} (h : c.isDigit) : 48 ≤ c.toNat ∧ c.toNat ≤ 57 :=
  Char.isDigit_iff_toNat.mp h

theorem digitBelow_of_isDigit {c : Char} (h : c.isDigit) : digitBelow 10 c = some (charValue c) := by
  obtain ⟨hlow, hhigh⟩ := isDigit_bounds h
  have hrange : '0' ≤ c ∧ c ≤ '9' := ⟨Char.le_def.mpr hlow, Char.le_def.mpr hhigh⟩
  have hbelow : charValue c < 10 := by
    have hzero : '0'.toNat = 48 := rfl
    unfold charValue
    omega
  unfold digitBelow digitValue
  rw [if_pos hrange]
  exact Option.filter_some_pos (decide_eq_true hbelow)

theorem graphic_of_isDigit {c : Char} (h : c.isDigit) : Graphic c := by
  obtain ⟨hlow, hhigh⟩ := isDigit_bounds h
  refine ⟨by omega, by omega, ?_, ?_⟩ <;> rintro rfl <;> cases h

theorem digitChar_charValue {c : Char} (h : c.isDigit) : Nat.digitChar (charValue c) = c := by
  obtain ⟨hlow, hhigh⟩ := isDigit_bounds h
  have hzero : '0'.toNat = 48 := rfl
  apply Char.toNat_inj.mp
  unfold charValue
  rw [Nat.toNat_digitChar_of_lt_ten (by omega)]
  omega

theorem readDecimal_of_isDigit (hne : text ≠ []) (h : ∀ c ∈ text, c.isDigit) :
    readDecimal text = if text.length ≤ maxDecimalDigits then
      some (ofDigits 10 (text.map charValue) : Int) else none :=
  readDecimal_map hne (fun c hc => digitBelow_of_isDigit (h c hc))
    fun c hc => graphic_of_isDigit (h c hc)

/-- What is read from a plain numeral is written as that numeral. -/
theorem toDigits_of_numeral (hne : text ≠ []) (h : ∀ c ∈ text, c.isDigit)
    (hhead : text.head? ≠ some '0') :
    0 < ofDigits 10 (text.map charValue) ∧
      Nat.toDigits 10 (ofDigits 10 (text.map charValue)) = text := by
  have hbelow : ∀ d ∈ text.map charValue, d < 10 := by
    intro d hd
    obtain ⟨c, hc, rfl⟩ := List.mem_map.mp hd
    obtain ⟨hlow, hhigh⟩ := isDigit_bounds (h c hc)
    have hzero : '0'.toNat = 48 := rfl
    unfold charValue
    omega
  have hpos : ∀ d ∈ (text.map charValue).head?, 0 < d := by
    intro d hd
    rw [List.head?_map] at hd
    obtain ⟨c, hc, rfl⟩ := Option.map_eq_some_iff.mp hd
    obtain ⟨hlow, -⟩ := isDigit_bounds (h c (List.mem_of_mem_head? hc))
    have hzero : '0'.toNat = 48 := rfl
    have hne : c.toNat ≠ '0'.toNat := by
      intro heq
      obtain rfl := Char.toNat_inj.mp heq
      exact hhead hc
    unfold charValue
    omega
  obtain ⟨hvalue, hdigits⟩ := toDigits_ofDigits (by decide) (by simpa using hne) hbelow hpos
  refine ⟨hvalue, hdigits.trans ?_⟩
  rw [List.map_map]
  conv_rhs => rw [← List.map_id text]
  exact List.map_congr_left fun c hc => digitChar_charValue (h c hc)

theorem readDecimal_toDigits (n : Nat) : readDecimal (Nat.toDigits 10 n) =
    if (Nat.toDigits 10 n).length ≤ maxDecimalDigits then some (n : Int) else none := by
  rw [readDecimal_of_isDigit Nat.toDigits_ne_nil
    fun c hc => Nat.isDigit_of_mem_toDigits (by decide) (by decide) hc]
  have hvalue : ofDigits 10 ((Nat.toDigits 10 n).map charValue) =
      Nat.ofDigitChars 10 (Nat.toDigits 10 n) 0 := by
    rw [Nat.ofDigitChars_eq_foldl, ofDigits, List.foldl_map]
    rfl
  rw [hvalue, Nat.ofDigitChars_ten_toDigits]

end Decimals

end Integers
