import Mathlib.Data.BitVec
import Mathlib.Tactic.IntervalCases
import MonitorController.Foundation.Integers
import MonitorController.Foundation.Placeholders
import MonitorController.Values.Names

/-! # Texts of identities

An action and a transition are named by a text in requests and file names. The
text of an action is matched by a pattern; that of a transition is taken apart,
and its controller instance is left to Python's reader of UUIDs.
-/

namespace MonitorController

open Integers Placeholders

section Texts

def TransitionId.value (t : TransitionId) : String :=
  "transition-" ++ String.ofList (uuidDigits t.controllerInstance.value) ++ "-" ++
    toString t.sequence

def ActionId.spelling (a : ActionId) : Option String :=
  if (Nat.toDigits 10 a.sequence).length ≤ maxDecimalDigits then some a.value else none

def TransitionId.spelling (t : TransitionId) : Option String :=
  if (Nat.toDigits 10 t.sequence).length ≤ maxDecimalDigits then some t.value else none

end Texts

section Parsers

/-- What a parser of an identity raises: its own error, or that of the identity's constructor. -/
inductive IdentityFault where
  | protocol (message : String)
  | valueError (message : String)
  deriving DecidableEq, Repr

/-- `text.replace(key, "")`. -/
def without (key : String) (text : List Char) : List Char := replaceAll [(key.toList, [])] text

/-- The digits of a UUID, without what may be around and between them. -/
def bareHex (text : List Char) : List Char :=
  (Words.strip (fun c => c = '{' || c = '}') (without "uuid:" (without "urn:" text))).filter
    (· ≠ '-')

/-- `UUID(hex=text)`. -/
def parseUuid (text : List Char) : Option UUID :=
  if (bareHex text).length ≠ 32 then none
  else
    match readHex (bareHex text) with
    | none => none
    | some n => if 0 ≤ n ∧ n < 2 ^ 128 then some (BitVec.ofNat 128 n.toNat) else none

def lowerHex (c : Char) : Bool := ('0' ≤ c && c ≤ '9') || ('a' ≤ c && c ≤ 'f')

def positiveNumeral (text : List Char) : Bool :=
  !text.isEmpty && text.all Char.isDigit && text.head? ≠ some '0'

def actionKinds : List ActionKind := [.plan, .probe, .application, .preparation, .finalization]

/-- The groups of `_ACTION_ID_PATTERN`. -/
def actionIdGroups (value : List Char) : Option (ActionKind × List Char × List Char) :=
  actionKinds.findSome? fun kind =>
    let start := kind.value.toList ++ ['-']
    let rest := value.drop start.length
    if start.isPrefixOf value ∧ (rest.take 32).length = 32 ∧ (rest.take 32).all lowerHex ∧
        (rest.drop 32).head? = some '-' ∧ positiveNumeral (rest.drop 33) then
      some (kind, rest.take 32, rest.drop 33)
    else none

def parseActionId (value : String) : Except IdentityFault ActionId :=
  match actionIdGroups value.toList with
  | none => .error (.protocol "malformed action ID")
  | some (kind, instanceText, sequenceText) =>
    match parseUuid instanceText, readDecimal sequenceText with
    | some uuid, some sequence =>
      if h : 0 < sequence.toNat then .ok ⟨⟨uuid⟩, kind, sequence.toNat, h⟩
      else .error (.valueError "action sequence must be positive")
    | _, _ => .error (.protocol "malformed action ID")

/-- `text.rpartition("-")`: what stands before and behind the last dash. -/
def rpartition (text : List Char) : Option (List Char × List Char) :=
  if '-' ∈ text then
    some ((text.rdropWhile (· ≠ '-')).dropLast, text.rtakeWhile (· ≠ '-'))
  else none

def parseTransitionId (value : String) : Except IdentityFault TransitionId :=
  let start := "transition-".toList
  if start.isPrefixOf value.toList = false then .error (.protocol "malformed transition ID")
  else
    match rpartition (value.toList.drop start.length) with
    | none => .error (.protocol "malformed transition ID")
    | some (instanceText, sequenceText) =>
      if instanceText.length ≠ 32 ∨ sequenceText.isEmpty ∨ ¬ sequenceText.all Char.isDigit ∨
          sequenceText.head? = some '0' then
        .error (.protocol "malformed transition ID")
      else
        match parseUuid instanceText, readDecimal sequenceText with
        | some uuid, some sequence =>
          if h : 0 < sequence.toNat then .ok ⟨⟨uuid⟩, sequence.toNat, h⟩
          else .error (.valueError "transition sequence must be positive")
        | _, _ => .error (.protocol "malformed transition ID")

end Parsers

section Uuids

variable {text : List Char} {u : UUID}

theorem replaceFrom_of_notMem {c : Char} {key : List Char} (h : c ∉ text) :
    replaceFrom [(c :: key, [])] 0 text = text := by
  have happend := @replaceFrom_append_of_notMem _ _ c key [] text h []
  rwa [List.append_nil, replaceFrom, List.append_nil] at happend

theorem bareHex_of_lowerHex (h : ∀ c ∈ text, lowerHex c) : bareHex text = text := by
  have hne : ∀ d, lowerHex d = false → d ∉ text := by
    intro d hd hmem
    rw [h d hmem] at hd
    cases hd
  have hwithout : without "uuid:" (without "urn:" text) = text := by
    have hurn : without "urn:" text = text := replaceFrom_of_notMem (hne 'u' rfl)
    rw [hurn]
    exact replaceFrom_of_notMem (hne 'u' rfl)
  have hstrip : Words.strip (fun c => c = '{' || c = '}') text = text := by
    have hclear : ∀ c ∈ text, (decide (c = '{') || decide (c = '}')) = false := by
      intro c hc
      rw [Bool.or_eq_false_iff, decide_eq_false_iff_not, decide_eq_false_iff_not]
      constructor <;> rintro rfl
      · exact hne _ rfl hc
      · exact hne _ rfl hc
    exact Words.Trimmed.strip_eq ⟨fun c hc => hclear c (List.mem_of_mem_head? hc),
      fun c hc => hclear c (List.mem_of_mem_getLast? hc)⟩
  rw [bareHex, hwithout, hstrip, List.filter_eq_self]
  intro c hc
  rw [decide_eq_true_iff]
  rintro rfl
  exact hne _ rfl hc

def hexDigitValue (c : Char) : Nat := (digitBelow 16 c).getD 0

theorem lowerHex_range {c : Char} (h : lowerHex c) :
    (48 ≤ c.toNat ∧ c.toNat ≤ 57) ∨ (97 ≤ c.toNat ∧ c.toNat ≤ 102) := by
  rw [lowerHex, Bool.or_eq_true, Bool.and_eq_true, Bool.and_eq_true, decide_eq_true_iff,
    decide_eq_true_iff, decide_eq_true_iff, decide_eq_true_iff] at h
  exact h

theorem lowerHex_mem {c : Char} (h : lowerHex c) : c ∈ "0123456789abcdef".toList := by
  obtain ⟨hlow, hhigh⟩ | ⟨hlow, hhigh⟩ := lowerHex_range h
  all_goals
    have hc : c = Char.ofNat c.toNat := (Char.ofNat_toNat c).symm
    generalize c.toNat = n at *
    subst hc
    interval_cases n <;> decide

theorem hexDigits_spec : ∀ c ∈ "0123456789abcdef".toList,
    digitBelow 16 c = some (hexDigitValue c) ∧ hexDigitValue c < 16 ∧
      Nat.digitChar (hexDigitValue c) = c := by
  intro c hc
  have hall : "0123456789abcdef".toList.all (fun c => decide
      (digitBelow 16 c = some (hexDigitValue c) ∧ hexDigitValue c < 16 ∧
        Nat.digitChar (hexDigitValue c) = c)) = true := by
    decide
  exact of_decide_eq_true (List.all_eq_true.mp hall c hc)

theorem lowerHex_graphic {c : Char} (h : lowerHex c) : Graphic c := by
  have hrange := lowerHex_range h
  refine ⟨by omega, by omega, ?_, ?_⟩ <;> rintro rfl <;> cases h

theorem hexDigit_ofNat (n i : Nat) :
    hexDigit (BitVec.ofNat 128 n) i = Nat.digitChar (n % 2 ^ 128 / 16 ^ (31 - i) % 16) := by
  have hpow : (2 : Nat) ^ (4 * (31 - i)) = 16 ^ (31 - i) := by
    rw [pow_mul]
    norm_num
  rw [hexDigit, BitVec.extractLsb'_toNat, BitVec.toNat_ofNat, Nat.shiftRight_eq_div_pow, hpow]

theorem getElem_uuidDigits {i : Nat} (hi : i < (uuidDigits u).length) :
    (uuidDigits u)[i] = hexDigit u i := by
  simp [uuidDigits]

/-- A text of lower-case digits is the UUID which is written as that text. -/
theorem parseUuid_of_lowerHex (hlength : text.length = 32) (h : ∀ c ∈ text, lowerHex c) :
    ∃ u, parseUuid text = some u ∧ uuidDigits u = text := by
  have hne : text ≠ [] := by
    rintro rfl
    cases hlength
  have hspec := fun c hc => hexDigits_spec c (lowerHex_mem (h c hc))
  have hbelow : ∀ d ∈ text.map hexDigitValue, d < 16 := by
    intro d hd
    obtain ⟨c, hc, rfl⟩ := List.mem_map.mp hd
    exact (hspec c hc).2.1
  have hcount : (text.map hexDigitValue).length = 32 := by rw [List.length_map, hlength]
  have hlt : ofDigits 16 (text.map hexDigitValue) < 2 ^ 128 := by
    have hbound := ofDigits_lt hbelow
    rw [hcount] at hbound
    norm_num at hbound ⊢
    exact hbound
  refine ⟨BitVec.ofNat 128 (ofDigits 16 (text.map hexDigitValue)), ?_, ?_⟩
  · have hread := readHex_map hne (fun c hc => (hspec c hc).1) fun c hc => lowerHex_graphic (h c hc)
    unfold parseUuid
    rw [bareHex_of_lowerHex h, hread, if_neg (not_not.mpr hlength)]
    dsimp only
    rw [if_pos ⟨Int.natCast_nonneg _, by exact_mod_cast hlt⟩, Int.toNat_natCast]
  · apply List.ext_getElem
    · rw [length_uuidDigits, hlength]
    · intro i hi hi'
      rw [length_uuidDigits] at hi
      have hdigit := ofDigits_div_mod hbelow (i := i) (by omega)
      simp only [List.getElem_map, hcount] at hdigit
      rw [getElem_uuidDigits, hexDigit_ofNat, Nat.mod_eq_of_lt hlt]
      have hexp : 31 - i = 32 - 1 - i := rfl
      rw [hexp, hdigit]
      exact (hspec _ (List.getElem_mem hi')).2.2

theorem lowerHex_uuidDigits : ∀ c ∈ uuidDigits u, lowerHex c := by
  intro c hc
  obtain ⟨i, -, rfl⟩ := List.mem_map.mp hc
  have hall : ∀ d : BitVec 4, lowerHex (Nat.digitChar d.toNat) := by decide
  exact hall _

theorem parseUuid_uuidDigits (u : UUID) : parseUuid (uuidDigits u) = some u := by
  obtain ⟨v, hparse, hdigits⟩ := parseUuid_of_lowerHex (length_uuidDigits u) lowerHex_uuidDigits
  rw [hparse, uuidDigits_inj hdigits]

end Uuids

section Groups

variable {text before behind : List Char}

theorem positiveNumeral_iff : positiveNumeral text ↔
    text ≠ [] ∧ (∀ c ∈ text, c.isDigit) ∧ text.head? ≠ some '0' := by
  rw [positiveNumeral, Bool.and_eq_true, Bool.and_eq_true, Bool.not_eq_true', List.all_eq_true,
    decide_eq_true_iff, and_assoc, ← Bool.not_eq_true, List.isEmpty_iff]

theorem readDecimal_numeral (h : positiveNumeral text) :
    (text.length ≤ maxDecimalDigits ∧ ∃ n : Nat, 0 < n ∧ readDecimal text = some (n : Int) ∧
      Nat.toDigits 10 n = text) ∨
    (maxDecimalDigits < text.length ∧ readDecimal text = none) := by
  obtain ⟨hne, hdigits, hhead⟩ := positiveNumeral_iff.mp h
  obtain ⟨hpos, htext⟩ := toDigits_of_numeral hne hdigits hhead
  rw [readDecimal_of_isDigit hne hdigits]
  by_cases hlimit : text.length ≤ maxDecimalDigits
  · exact .inl ⟨hlimit, _, hpos, if_pos hlimit, htext⟩
  · exact .inr ⟨not_le.mp hlimit, if_neg hlimit⟩

theorem positiveNumeral_toDigits {n : Nat} (h : 0 < n) : positiveNumeral (Nat.toDigits 10 n) := by
  refine positiveNumeral_iff.mpr ⟨Nat.toDigits_ne_nil,
    fun c hc => Nat.isDigit_of_mem_toDigits (by decide) (by decide) hc, fun hhead => ?_⟩
  induction n using Nat.strongRecOn with
  | _ n ih =>
    by_cases hlt : n < 10
    · rw [Nat.toDigits_of_lt_base hlt] at hhead
      have hzero : Nat.digitChar n = '0' := Option.some.inj hhead
      interval_cases n <;> cases hzero
    · rw [Nat.toDigits_of_base_le (by decide) (not_lt.mp hlt),
        List.head?_append_of_ne_nil _ Nat.toDigits_ne_nil] at hhead
      exact ih (n / 10) (by omega) (by omega) hhead

theorem mem_actionKinds (kind : ActionKind) : kind ∈ actionKinds := by
  cases kind <;> decide

/-- The shape of an action's text. -/
structure ActionText (value : List Char) (kind : ActionKind) (instanceText sequenceText : List Char) :
    Prop where
  text : value = kind.value.toList ++ '-' :: (instanceText ++ '-' :: sequenceText)
  length : instanceText.length = 32
  hex : ∀ c ∈ instanceText, lowerHex c
  numeral : positiveNumeral sequenceText

theorem ActionText.unique {value i j m n : List Char} {k l : ActionKind}
    (h : ActionText value k i m) (h' : ActionText value l j n) : (k, i, m) = (l, j, n) := by
  have heq := h.text.symm.trans h'.text
  have hkind : k.value.toList = l.value.toList := by
    have hstart := congrArg (List.takeWhile (· ≠ '-')) heq
    rwa [takeWhile_dash k.dash_notMem, takeWhile_dash l.dash_notMem] at hstart
  rw [hkind] at heq
  have hrest := (List.cons.inj (List.append_cancel_left heq)).2
  obtain ⟨rfl, htail⟩ := List.append_inj hrest (h.length.trans h'.length.symm)
  obtain rfl := (List.cons.inj htail).2
  rw [ActionKind.value_inj (String.toList_inj.mp hkind)]

theorem actionIdGroups_eq_some {value instanceText sequenceText : List Char} {kind : ActionKind} :
    actionIdGroups value = some (kind, instanceText, sequenceText) ↔
      ActionText value kind instanceText sequenceText := by
  have hfound : ∀ {kind instanceText sequenceText},
      actionIdGroups value = some (kind, instanceText, sequenceText) →
        ActionText value kind instanceText sequenceText := by
    intro kind instanceText sequenceText h
    obtain ⟨k, -, hk⟩ := List.exists_of_findSome?_eq_some h
    dsimp only at hk
    split at hk
    · rename_i hshape
      obtain ⟨hstart, hlength, hhex, hdash, hnumeral⟩ := hshape
      obtain ⟨rfl, rfl, rfl⟩ := Prod.mk.inj (Option.some.inj hk) |>.imp_right Prod.mk.inj
      obtain ⟨rest, rfl⟩ := List.isPrefixOf_iff_prefix.mp hstart
      rw [List.drop_left] at hlength hhex hdash hnumeral ⊢
      refine ⟨?_, hlength, List.all_eq_true.mp hhex, hnumeral⟩
      obtain ⟨tail, htail⟩ := List.head?_eq_some_iff.mp hdash
      have htail' : rest.drop 33 = tail := by
        rw [← List.drop_drop (i := 1) (j := 32), htail]
        rfl
      rw [htail', ← htail, List.take_append_drop, List.append_assoc]
      rfl
    · cases hk
  constructor
  · exact hfound
  · intro h
    have hsome : (actionIdGroups value).isSome := by
      rw [actionIdGroups, List.findSome?_isSome_iff]
      refine ⟨kind, mem_actionKinds kind, ?_⟩
      have hvalue : value = (kind.value.toList ++ ['-']) ++ (instanceText ++ '-' :: sequenceText) := by
        rw [h.text]
        simp
      dsimp only
      rw [hvalue, List.drop_left, if_pos]
      · rfl
      · refine ⟨List.isPrefixOf_iff_prefix.mpr (List.prefix_append _ _), ?_, ?_, ?_, ?_⟩
        · rw [← h.length, List.take_left]
        · rw [← h.length, List.take_left]
          exact List.all_eq_true.mpr h.hex
        · rw [← h.length, List.drop_left]
          rfl
        · have hdrop : (instanceText ++ '-' :: sequenceText).drop 33 = sequenceText := by
            rw [← List.drop_drop (i := 1) (j := 32), ← h.length, List.drop_left]
            rfl
          rw [hdrop]
          exact h.numeral
    obtain ⟨⟨k, i, n⟩, hgroups⟩ := Option.isSome_iff_exists.mp hsome
    rw [hgroups, (hfound hgroups).unique h]

/-- The last dash is the one behind which there is no other. -/
theorem rpartition_eq_some :
    rpartition text = some (before, behind) ↔ text = before ++ '-' :: behind ∧ '-' ∉ behind := by
  have hsplit : ∀ {before behind : List Char}, '-' ∉ behind →
      rpartition (before ++ '-' :: behind) = some (before, behind) := by
    intro before behind hdash
    have hkeep : ∀ c ∈ behind.reverse, decide (c ≠ '-') = true := by
      intro c hc
      refine decide_eq_true fun heq => hdash ?_
      rw [← heq]
      exact List.mem_reverse.mp hc
    have hreverse : (before ++ '-' :: behind).reverse = behind.reverse ++ '-' :: before.reverse := by
      simp
    rw [rpartition, if_pos (by simp), List.rdropWhile, List.rtakeWhile, hreverse,
      List.dropWhile_append_of_pos hkeep, List.takeWhile_append_of_pos hkeep]
    simp
  constructor
  · intro h
    have hmem : '-' ∈ text := by
      by_contra hnot
      rw [rpartition, if_neg hnot] at h
      cases h
    obtain ⟨last, first, hreverse, hdash⟩ :=
      List.eq_append_cons_of_mem (List.mem_reverse.mpr hmem)
    have htext : text = first.reverse ++ '-' :: last.reverse := by
      rw [← List.reverse_reverse text, hreverse]
      simp
    have hlast : '-' ∉ last.reverse := mt List.mem_reverse.mp hdash
    rw [htext, hsplit hlast] at h
    obtain ⟨rfl, rfl⟩ := Prod.mk.inj (Option.some.inj h)
    exact ⟨htext, hlast⟩
  · rintro ⟨rfl, hdash⟩
    exact hsplit hdash

/-- The shape of a transition's text. -/
structure TransitionText (value instanceText sequenceText : List Char) : Prop where
  text : value = "transition-".toList ++ (instanceText ++ '-' :: sequenceText)
  length : instanceText.length = 32
  numeral : positiveNumeral sequenceText

theorem dash_notMem_of_numeral (h : positiveNumeral text) : '-' ∉ text := by
  intro hdash
  have hdigit := (positiveNumeral_iff.mp h).2.1 _ hdash
  cases hdigit

theorem TransitionText.unique {value i j m n : List Char} (h : TransitionText value i m)
    (h' : TransitionText value j n) : i = j ∧ m = n := by
  have hrest := List.append_cancel_left (h.text.symm.trans h'.text)
  obtain ⟨hinstance, htail⟩ := List.append_inj hrest (h.length.trans h'.length.symm)
  exact ⟨hinstance, (List.cons.inj htail).2⟩

end Groups

section Exact

variable {s : String} {a : ActionId} {t : TransitionId}

theorem ActionId.toList_value (a : ActionId) : a.value.toList =
    a.kind.value.toList ++ '-' ::
      (uuidDigits a.controllerInstance.value ++ '-' :: Nat.toDigits 10 a.sequence) := by
  simp [ActionId.value]

theorem TransitionId.toList_value (t : TransitionId) : t.value.toList =
    "transition-".toList ++
      (uuidDigits t.controllerInstance.value ++ '-' :: Nat.toDigits 10 t.sequence) := by
  simp [TransitionId.value]

theorem ActionId.spelling_eq_some : a.spelling = some s ↔
    (Nat.toDigits 10 a.sequence).length ≤ maxDecimalDigits ∧
      ActionText s.toList a.kind (uuidDigits a.controllerInstance.value)
        (Nat.toDigits 10 a.sequence) := by
  unfold ActionId.spelling
  constructor
  · intro h
    split at h
    · rename_i hlimit
      obtain rfl := Option.some.inj h
      exact ⟨hlimit, a.toList_value, length_uuidDigits _, lowerHex_uuidDigits,
        positiveNumeral_toDigits a.positive⟩
    · cases h
  · rintro ⟨hlimit, htext⟩
    rw [if_pos hlimit, Option.some_inj, ← String.toList_inj, a.toList_value, htext.text]

theorem TransitionId.spelling_eq_some : t.spelling = some s ↔
    (Nat.toDigits 10 t.sequence).length ≤ maxDecimalDigits ∧
      TransitionText s.toList (uuidDigits t.controllerInstance.value)
        (Nat.toDigits 10 t.sequence) := by
  unfold TransitionId.spelling
  constructor
  · intro h
    split at h
    · rename_i hlimit
      obtain rfl := Option.some.inj h
      exact ⟨hlimit, t.toList_value, length_uuidDigits _, positiveNumeral_toDigits t.positive⟩
    · cases h
  · rintro ⟨hlimit, htext⟩
    rw [if_pos hlimit, Option.some_inj, ← String.toList_inj, t.toList_value, htext.text]

/-- Only the text of an action is read as the action. -/
theorem parseActionId_eq_ok : parseActionId s = .ok a ↔ a.spelling = some s := by
  rw [ActionId.spelling_eq_some]
  unfold parseActionId
  constructor
  · intro h
    split at h
    · cases h
    · rename_i kind instanceText sequenceText hgroups
      have hshape := actionIdGroups_eq_some.mp hgroups
      obtain ⟨u, huuid, hdigits⟩ := parseUuid_of_lowerHex hshape.length hshape.hex
      obtain ⟨hlimit, n, hpos, hread, htext⟩ | ⟨-, hread⟩ := readDecimal_numeral hshape.numeral
      · rw [huuid, hread] at h
        dsimp only at h
        rw [dif_pos (by simpa using hpos)] at h
        obtain rfl := Except.ok.inj h
        dsimp only
        rw [Int.toNat_natCast, htext, hdigits]
        exact ⟨hlimit, hshape⟩
      · rw [huuid, hread] at h
        cases h
  · rintro ⟨hlimit, hshape⟩
    rw [actionIdGroups_eq_some.mpr hshape]
    dsimp only
    rw [parseUuid_uuidDigits, readDecimal_toDigits, if_pos hlimit]
    dsimp only
    rw [dif_pos (by simpa using a.positive)]
    rfl

/-- What `parse_transition_id` reads. -/
theorem parseTransitionId_eq_ok : parseTransitionId s = .ok t ↔
    ∃ instanceText, (Nat.toDigits 10 t.sequence).length ≤ maxDecimalDigits ∧
      TransitionText s.toList instanceText (Nat.toDigits 10 t.sequence) ∧
        parseUuid instanceText = some t.controllerInstance.value := by
  unfold parseTransitionId
  dsimp only
  constructor
  · intro h
    split at h
    · cases h
    rename_i hstart
    split at h
    · cases h
    rename_i instanceText sequenceText hparts
    split at h
    · cases h
    rename_i hshape
    push Not at hshape
    obtain ⟨hlength, hne, hdigits, hhead⟩ := hshape
    have hnumeral : positiveNumeral sequenceText := by
      refine positiveNumeral_iff.mpr ⟨?_, List.all_eq_true.mp hdigits, hhead⟩
      rintro rfl
      exact hne rfl
    rw [Bool.not_eq_false, List.isPrefixOf_iff_prefix] at hstart
    obtain ⟨rest, hrest⟩ := hstart
    rw [← hrest, List.drop_left] at hparts
    obtain ⟨hsplit, -⟩ := rpartition_eq_some.mp hparts
    cases huuid : parseUuid instanceText with
    | none =>
      rw [huuid] at h
      cases h
    | some u =>
      obtain ⟨hlimit, n, hpos, hread, htext⟩ | ⟨-, hread⟩ := readDecimal_numeral hnumeral
      · rw [huuid, hread] at h
        dsimp only at h
        rw [dif_pos (by simpa using hpos)] at h
        obtain rfl := Except.ok.inj h
        refine ⟨instanceText, ?_⟩
        dsimp only
        rw [Int.toNat_natCast, htext]
        exact ⟨hlimit, ⟨by rw [← hrest, hsplit], hlength, hnumeral⟩, huuid⟩
      · rw [huuid, hread] at h
        cases h
  · rintro ⟨instanceText, hlimit, hshape, huuid⟩
    have hstart : "transition-".toList.isPrefixOf s.toList = true := by
      rw [List.isPrefixOf_iff_prefix, hshape.text]
      exact List.prefix_append _ _
    have hparts : rpartition (instanceText ++ '-' :: Nat.toDigits 10 t.sequence) = _ :=
      rpartition_eq_some.mpr ⟨rfl, dash_notMem_of_numeral hshape.numeral⟩
    rw [if_neg (by rw [hstart]; exact Bool.noConfusion), hshape.text, List.drop_left, hparts]
    dsimp only
    obtain ⟨hne, hdigits, hhead⟩ := positiveNumeral_iff.mp hshape.numeral
    rw [if_neg]
    · rw [huuid, readDecimal_toDigits, if_pos hlimit]
      dsimp only
      rw [dif_pos (by simpa using t.positive)]
      rfl
    · push Not
      exact ⟨hshape.length, by simp, List.all_eq_true.mpr hdigits, hhead⟩

/-- What stands for the controller instance of a transition is in lower-case digits, or no UUID to
Python either. -/
def CanonicalInstance (s : String) : Prop :=
  ∀ instanceText sequenceText, TransitionText s.toList instanceText sequenceText →
    sequenceText.length ≤ maxDecimalDigits →
      (∀ c ∈ instanceText, lowerHex c) ∨ parseUuid instanceText = none

/-- The texts of actions are canonical, those of transitions if their instances are. -/
theorem identities_canonical_iff (s : String) :
    ((∀ a, parseActionId s = .ok a ↔ a.spelling = some s) ∧
      ∀ t, parseTransitionId s = .ok t ↔ t.spelling = some s) ↔ CanonicalInstance s := by
  constructor
  · rintro ⟨-, htransition⟩ instanceText sequenceText hshape hlimit
    cases huuid : parseUuid instanceText with
    | none => exact .inr rfl
    | some u =>
      left
      obtain ⟨-, n, hpos, -, htext⟩ | ⟨hlonger, -⟩ := readDecimal_numeral hshape.numeral
      · have hparse : parseTransitionId s = .ok ⟨⟨u⟩, n, hpos⟩ := by
          rw [parseTransitionId_eq_ok]
          refine ⟨instanceText, ?_⟩
          rw [htext]
          exact ⟨hlimit, hshape, huuid⟩
        obtain ⟨-, hspelled⟩ := TransitionId.spelling_eq_some.mp ((htransition _).mp hparse)
        rw [(hshape.unique hspelled).1]
        exact lowerHex_uuidDigits
      · omega
  · intro hcanonical
    refine ⟨fun a => parseActionId_eq_ok, fun t => ?_⟩
    rw [parseTransitionId_eq_ok, TransitionId.spelling_eq_some]
    constructor
    · rintro ⟨instanceText, hlimit, hshape, huuid⟩
      obtain hhex | hnone := hcanonical instanceText _ hshape hlimit
      · obtain ⟨u, hparse, hdigits⟩ := parseUuid_of_lowerHex hshape.length hhex
        obtain rfl := Option.some.inj (huuid.symm.trans hparse)
        rw [hdigits]
        exact ⟨hlimit, hshape⟩
      · rw [huuid] at hnone
        cases hnone
    · rintro ⟨hlimit, hshape⟩
      exact ⟨_, hlimit, hshape, parseUuid_uuidDigits _⟩

/-- Two texts of one transition. -/
theorem parseTransitionId_upper : ∃ t,
    parseTransitionId "transition-0000000000000000000000000000000a-1" = .ok t ∧
    parseTransitionId "transition-0000000000000000000000000000000A-1" = .ok t ∧
    t.spelling ≠ some "transition-0000000000000000000000000000000A-1" := by
  refine ⟨⟨⟨10⟩, 1, by decide⟩, ?_, ?_, ?_⟩ <;> decide +kernel

end Exact

end MonitorController
