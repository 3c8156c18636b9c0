import MonitorController.Foundation.Codes
import MonitorController.Foundation.Dict
import MonitorController.Transactions.Identities
import MonitorController.Values.Action

/-! # Unit names

A worker runs in an instance of a systemd template unit, which the supervisor
names after the action. A request carries the name of its unit and accepts it
by a pattern of its own.
-/

namespace MonitorController

open Codes Placeholders

section Names

/-- What the supervisor raises: `ValueError`, or its own error. -/
inductive UnitFault where
  | valueError (message : String)
  | supervisor (message : String)
  deriving DecidableEq

/-- The characters of an instance which stand for themselves. -/
def instanceSafe (c : Char) : Bool := c.isAlphanum || c = '_' || c = '.' || c = ':'

def escapeByte (index : Nat) (byte : UInt8) : List Char :=
  let character := Char.ofNat byte.toNat
  let safe := byte.toNat < 128 ∧ instanceSafe character
  if safe ∧ ¬ (index = 0 ∧ character = '.') then [character]
  else ['\\', 'x', Nat.digitChar (byte.toNat / 16), Nat.digitChar (byte.toNat % 16)]

def escapeUnitInstance (value : String) : Except UnitFault (List Char) :=
  if value.toList = [] ∨ '\x00' ∈ value.toList then
    .error (.valueError "unit instance must be non-empty text without NUL bytes")
  else .ok (encodeFrom escapeByte 0 (utf8 value.toList))

def templateChar (c : Char) : Bool :=
  c.isAlphanum || c = '_' || c = '.' || c = ':' || c = '-'

/-- `_UNIT_TEMPLATE_PATTERN`. -/
def unitTemplate (template : String) : Bool :=
  let body := template.toList.takeWhile templateChar
  !body.isEmpty && template.toList.dropWhile templateChar == "@.service".toList

def workerKinds : List ActionKind := [.probe, .application, .preparation, .finalization]

/-- A template table which the supervisor has accepted. -/
structure UnitTemplates where
  table : Dict ActionKind String
  covers : ∀ kind, kind ∈ table.keys ↔ kind ∈ workerKinds
  wellFormed : ∀ template ∈ table.values, unitTemplate template
  distinct : table.values.Nodup

-- Python's text of a quoted string
variable (quoted : String → String)

def validateTemplates (templates : Dict ActionKind String) : Except UnitFault UnitTemplates :=
  if hcovers : ∀ kind ∈ actionKinds, kind ∈ templates.keys ↔ kind ∈ workerKinds then
    match hfound : templates.values.find? (!unitTemplate ·) with
    | some template =>
      .error (.valueError ("invalid systemd worker template: " ++ quoted template))
    | none =>
      if hdistinct : templates.values.Nodup then
        .ok ⟨templates, fun kind => hcovers kind (mem_actionKinds kind), by simpa using hfound, hdistinct⟩
      else .error (.valueError "systemd worker templates must be distinct")
  else .error (.valueError "systemd worker templates must cover exactly four mutation actions")

/-- `template.replace("@.service", f"@{escaped}.service")`. -/
def instantiate (template : String) (escaped : List Char) : List Char :=
  replaceAll [("@.service".toList, '@' :: (escaped ++ ".service".toList))] template.toList

def unitForAction (templates : UnitTemplates) (actionId : ActionId) : Except UnitFault WorkerUnit :=
  match templates.table.get? actionId.kind with
  | none =>
    .error (.valueError ("action kind " ++ actionId.kind.value ++ " has no systemd worker template"))
  | some template =>
    match actionId.spelling with
    | none => .error (.valueError "Exceeds the limit (4300 digits) for integer string conversion")
    | some value => do
      let escaped ← escapeUnitInstance value
      let unitName := String.ofList (instantiate template escaped)
      if h : nonempty unitName then .ok ⟨actionId, ⟨unitName, h⟩⟩
      else .error (.valueError "worker unit name must not be empty")

def validateUnit (templates : UnitTemplates) (unit : WorkerUnit) : Except UnitFault Unit := do
  let expected ← unitForAction templates unit.actionId
  if unit ≠ expected then
    .error (.supervisor ("unit " ++ quoted unit.unitName.value ++ " is not the exact instance for " ++
      unit.actionId.value))
  else .ok ()

def unitNameChar (c : Char) : Bool :=
  c.isAlphanum || c = '_' || c = '.' || c = '@' || c = '\\' || c = 'x' || c = '-'

def unitNamePattern (value : List Char) : Bool :=
  let stem := value.take (value.length - ".service".length)
  !stem.isEmpty && stem.all unitNameChar &&
    value.drop (value.length - ".service".length) == ".service".toList

def validateUnitName (value : String) : Except IdentityFault Unit :=
  if ¬ unitNamePattern value.toList ∨ '/' ∈ value.toList then
    .error (.protocol "request unit name is malformed")
  else .ok ()

/-- The names of units determine their actions, and both layers accept them. -/
structure UnitNamesDetermine (templates : UnitTemplates) : Prop where
  escape : ∀ value other, value.toList ≠ [] → '\x00' ∉ value.toList → other.toList ≠ [] →
    '\x00' ∉ other.toList → escapeUnitInstance value = escapeUnitInstance other → value = other
  derived : ∀ actionId : ActionId, actionId.kind ∈ workerKinds → actionId.spelling.isSome →
    ∃ unit, unitForAction templates actionId = .ok unit
  names : ∀ actionId other unit unit', unitForAction templates actionId = .ok unit →
    unitForAction templates other = .ok unit' → actionId ≠ other → unit.unitName ≠ unit'.unitName
  accepted : ∀ actionId unit, unitForAction templates actionId = .ok unit →
    validateUnitName unit.unitName.value = .ok ()
  exact : ∀ unit, validateUnit quoted templates unit = .ok () ↔
    unitForAction templates unit.actionId = .ok unit

end Names

section Escapes

theorem digitChar_nibble {m n : Nat} (hm : m < 16) (hn : n < 16)
    (h : Nat.digitChar m = Nat.digitChar n) : m = n := by
  have hall : ∀ i j : Fin 16, Nat.digitChar i = Nat.digitChar j → i = j := by decide
  exact congrArg Fin.val (hall ⟨m, hm⟩ ⟨n, hn⟩ h)

theorem toNat_byteChar (byte : UInt8) : (Char.ofNat byte.toNat).toNat = byte.toNat := by
  have hvalid : byte.toNat.isValidChar := .inl (Nat.lt_trans byte.toNat_lt (by decide))
  rw [Char.ofNat, dif_pos hvalid]
  rfl

theorem escapeByte_cases (index : Nat) (byte : UInt8) :
    (instanceSafe (Char.ofNat byte.toNat) ∧ byte.toNat < 128 ∧
      escapeByte index byte = [Char.ofNat byte.toNat]) ∨
    escapeByte index byte =
      ['\\', 'x', Nat.digitChar (byte.toNat / 16), Nat.digitChar (byte.toNat % 16)] := by
  unfold escapeByte
  dsimp only
  split
  · rename_i hsafe
    exact .inl ⟨hsafe.1.2, hsafe.1.1, rfl⟩
  · exact .inr rfl

theorem escapeByte_ne_nil (index : Nat) (byte : UInt8) : escapeByte index byte ≠ [] := by
  obtain ⟨-, -, h⟩ | h := escapeByte_cases index byte <;> rw [h] <;> exact List.cons_ne_nil _ _

theorem escapeByte_prefixFree (index : Nat) : PrefixFree (escapeByte index) := by
  intro a b l m h
  have hbound := fun c : UInt8 => c.toNat_lt
  apply UInt8.toNat_inj.mp
  obtain ⟨hsafe, ha, heq⟩ | heq := escapeByte_cases index a <;>
    obtain ⟨hsafe', hb, heq'⟩ | heq' := escapeByte_cases index b <;>
    rw [heq, heq'] at h
  · have hchar := congrArg Char.toNat (List.cons.inj h).1
    rwa [toNat_byteChar, toNat_byteChar] at hchar
  · rw [(List.cons.inj h).1] at hsafe
    cases hsafe
  · rw [← (List.cons.inj h).1] at hsafe'
    cases hsafe'
  · simp only [List.cons_append, List.nil_append, List.cons.injEq, true_and] at h
    obtain ⟨hhigh, hlow, -⟩ := h
    have hlt := hbound a
    have hlt' := hbound b
    have hdiv := digitChar_nibble (by omega) (by omega) hhigh
    have hmod := digitChar_nibble (Nat.mod_lt _ (by decide)) (Nat.mod_lt _ (by decide)) hlow
    omega

theorem escapeUnitInstance_ok_iff {value : String} {escaped : List Char} :
    escapeUnitInstance value = .ok escaped ↔ value.toList ≠ [] ∧ '\x00' ∉ value.toList ∧
      escaped = encodeFrom escapeByte 0 (utf8 value.toList) := by
  unfold escapeUnitInstance
  split
  · rename_i hbad
    refine iff_of_false (fun h => by cases h) fun h => ?_
    exact hbad.elim h.1 h.2.1
  · rename_i hgood
    rw [not_or] at hgood
    constructor
    · exact fun h => ⟨hgood.1, hgood.2, (Except.ok.inj h).symm⟩
    · exact fun h => congrArg Except.ok h.2.2.symm

theorem escapeUnitInstance_inj {value other : String} {escaped : List Char}
    (h : escapeUnitInstance value = .ok escaped) (h' : escapeUnitInstance other = .ok escaped) :
    value = other := by
  have heq := (escapeUnitInstance_ok_iff.mp h).2.2.symm.trans (escapeUnitInstance_ok_iff.mp h').2.2
  exact String.toList_inj.mp (utf8_inj (encodeFrom_inj escapeByte_ne_nil escapeByte_prefixFree heq))

theorem mem_escapeByte {index : Nat} {byte : UInt8} {c : Char} (h : c ∈ escapeByte index byte) :
    unitNameChar c ∨ (c = ':' ∧ byte.toNat = ':'.toNat) := by
  obtain ⟨hsafe, -, heq⟩ | heq := escapeByte_cases index byte
  · rw [heq, List.mem_singleton] at h
    subst h
    by_cases hcolon : Char.ofNat byte.toNat = ':'
    · refine .inr ⟨hcolon, ?_⟩
      rw [← toNat_byteChar, hcolon]
    · left
      simp only [instanceSafe, Bool.or_eq_true, decide_eq_true_iff] at hsafe
      simp only [unitNameChar, Bool.or_eq_true, decide_eq_true_iff]
      tauto
  · have hdigit : ∀ i : Fin 16, unitNameChar (Nat.digitChar i) := by decide
    rw [heq] at h
    simp only [List.mem_cons, List.not_mem_nil, or_false] at h
    left
    obtain rfl | rfl | rfl | rfl := h
    · decide
    · decide
    · exact hdigit ⟨byte.toNat / 16, by have := byte.toNat_lt; omega⟩
    · exact hdigit ⟨byte.toNat % 16, Nat.mod_lt _ (by decide)⟩

end Escapes

section Derivation

variable {templates : UnitTemplates} {template : String} {actionId other : ActionId}
  {unit : WorkerUnit}

theorem unitTemplate_iff : unitTemplate template ↔ ∃ body, body ≠ [] ∧ (∀ c ∈ body, templateChar c) ∧
    template.toList = body ++ "@.service".toList := by
  simp only [unitTemplate, Bool.and_eq_true, Bool.not_eq_true', List.isEmpty_eq_false_iff, beq_iff_eq]
  constructor
  · rintro ⟨hne, hrest⟩
    refine ⟨_, hne, fun c hc => List.mem_takeWhile_imp hc, ?_⟩
    rw [← hrest, List.takeWhile_append_dropWhile]
  · rintro ⟨body, hne, hbody, heq⟩
    have htake : template.toList.takeWhile templateChar = body := by
      rw [heq, List.takeWhile_append_of_pos hbody]
      exact List.append_nil body
    have hdrop : template.toList.dropWhile templateChar = "@.service".toList := by
      rw [heq, List.dropWhile_append_of_pos hbody]
      rfl
    exact ⟨htake ▸ hne, hdrop⟩

theorem instantiate_eq {body : List Char} (hbody : ∀ c ∈ body, templateChar c)
    (htemplate : template.toList = body ++ "@.service".toList) (escaped : List Char) :
    instantiate template escaped = body ++ '@' :: (escaped ++ ".service".toList) := by
  have hat : '@' ∉ body := fun hmem => absurd (hbody _ hmem) (by decide)
  rw [instantiate, htemplate]
  exact replaceAll_append_key hat _

theorem toList_value_of_spelling {value : String} (h : actionId.spelling = some value) :
    value = actionId.value := by
  unfold ActionId.spelling at h
  split at h
  · exact (Option.some.inj h).symm
  · cases h

theorem mem_actionValue {c : Char} (h : c ∈ actionId.value.toList) :
    c.toNat < 128 ∧ c ≠ ':' ∧ c ≠ '\x00' := by
  rw [ActionId.toList_value] at h
  have hkind : ∀ d ∈ actionId.kind.value.toList, d.toNat < 128 ∧ d ≠ ':' ∧ d ≠ '\x00' := by
    intro d hd
    have hall : ∀ kind : ActionKind, kind.value.toList.all (fun d =>
        decide (d.toNat < 128 ∧ d ≠ ':' ∧ d ≠ '\x00')) = true := by
      intro kind
      cases kind <;> decide
    exact of_decide_eq_true (List.all_eq_true.mp (hall _) d hd)
  simp only [List.mem_append, List.mem_cons] at h
  obtain h | rfl | h | rfl | h := h
  · exact hkind c h
  · decide
  · have hrange := lowerHex_range (lowerHex_uuidDigits c h)
    refine ⟨by omega, ?_, ?_⟩ <;> rintro rfl <;> revert hrange <;> decide
  · decide
  · have hdigit := Integers.isDigit_bounds (Nat.isDigit_of_mem_toDigits (by decide) (by decide) h)
    refine ⟨by omega, ?_, ?_⟩ <;> rintro rfl <;> revert hdigit <;> decide

/-- What the supervisor derives from an action: the action, and a name around its template. -/
structure Derives (templates : UnitTemplates) (actionId : ActionId) (unit : WorkerUnit)
    (body : List Char) : Prop where
  action : unit.actionId = actionId
  template : ∃ template, templates.table.get? actionId.kind = some template ∧
    template.toList = body ++ "@.service".toList
  body_ne_nil : body ≠ []
  chars : ∀ c ∈ body, templateChar c
  spelling : actionId.spelling.isSome
  name : unit.unitName.value.toList =
    body ++ '@' :: (encodeFrom escapeByte 0 (utf8 actionId.value.toList) ++ ".service".toList)

theorem actionValue_ne_nil : actionId.value.toList ≠ [] := by
  rw [ActionId.toList_value]
  exact List.append_ne_nil_of_right_ne_nil _ (List.cons_ne_nil _ _)

theorem unitTemplate_of_get? {kind : ActionKind} (h : templates.table.get? kind = some template) :
    unitTemplate template :=
  templates.wellFormed template (List.mem_map.mpr ⟨(kind, template), Dict.mem_of_get? h, rfl⟩)

theorem unitForAction_derives {body : List Char}
    (htemplate : templates.table.get? actionId.kind = some template)
    (hbody : template.toList = body ++ "@.service".toList) (hne : body ≠ [])
    (hchars : ∀ c ∈ body, templateChar c) (hspelling : actionId.spelling.isSome) :
    ∃ unit, unitForAction templates actionId = .ok unit ∧ Derives templates actionId unit body := by
  obtain ⟨value, hvalue⟩ := Option.isSome_iff_exists.mp hspelling
  obtain rfl := toList_value_of_spelling hvalue
  have hescape : escapeUnitInstance actionId.value =
      .ok (encodeFrom escapeByte 0 (utf8 actionId.value.toList)) :=
    escapeUnitInstance_ok_iff.mpr
      ⟨actionValue_ne_nil, fun hnul => (mem_actionValue hnul).2.2 rfl, rfl⟩
  have hname := instantiate_eq hchars hbody
    (encodeFrom escapeByte 0 (utf8 actionId.value.toList))
  have hnonempty : nonempty (String.ofList (instantiate template
      (encodeFrom escapeByte 0 (utf8 actionId.value.toList)))) = true := by
    refine @nonempty_of_mem _ '@' ?_ (by decide)
    rw [String.toList_ofList, hname]
    exact List.mem_append_right _ List.mem_cons_self
  refine ⟨⟨actionId, ⟨_, hnonempty⟩⟩, ?_, rfl, ⟨template, htemplate, hbody⟩, hne, hchars, hspelling,
    by rw [String.toList_ofList, hname]⟩
  unfold unitForAction
  rw [htemplate, hvalue]
  dsimp only
  rw [hescape]
  exact dif_pos hnonempty

theorem derives_of_unitForAction (h : unitForAction templates actionId = .ok unit) :
    ∃ body, Derives templates actionId unit body := by
  have hparts : ∃ template, templates.table.get? actionId.kind = some template ∧
      actionId.spelling.isSome := by
    unfold unitForAction at h
    split at h
    · cases h
    · rename_i template htemplate
      split at h
      · cases h
      · rename_i value hvalue
        exact ⟨template, htemplate, by rw [hvalue]; rfl⟩
  obtain ⟨template, htemplate, hspelling⟩ := hparts
  obtain ⟨body, hne, hchars, hbody⟩ := unitTemplate_iff.mp (unitTemplate_of_get? htemplate)
  obtain ⟨other, hother, hderives⟩ :=
    unitForAction_derives htemplate hbody hne hchars hspelling
  obtain rfl := Except.ok.inj (h.symm.trans hother)
  exact ⟨body, hderives⟩

theorem Derives.inj {unit' : WorkerUnit} {body body' : List Char}
    (h : Derives templates actionId unit body) (h' : Derives templates other unit' body')
    (heq : unit.unitName = unit'.unitName) : actionId = other := by
  have hat : ∀ {b : List Char}, (∀ c ∈ b, templateChar c) → '@' ∉ b := fun hb hmem =>
    absurd (hb _ hmem) (by decide)
  have hsplit : ∀ {b : List Char} (hb : '@' ∉ b) (rest : List Char),
      (b ++ '@' :: rest).dropWhile (· ≠ '@') = '@' :: rest := by
    intro b hb rest
    have hkeep : ∀ c ∈ b, decide (c ≠ '@') = true := fun c hc => by
      rw [decide_eq_true_iff]
      rintro rfl
      exact hb hc
    rw [List.dropWhile_append_of_pos hkeep]
    rfl
  have hnames := congrArg (fun name : Text => name.value.toList.dropWhile (· ≠ '@')) heq
  rw [h.name, h'.name, hsplit (hat h.chars), hsplit (hat h'.chars)] at hnames
  have hescaped := List.append_cancel_right (List.cons.inj hnames).2
  have hvalue := utf8_inj (encodeFrom_inj escapeByte_ne_nil escapeByte_prefixFree hescaped)
  exact ActionId.value_inj (String.toList_inj.mp hvalue)

theorem unitNamePattern_append {stem : List Char} :
    unitNamePattern (stem ++ ".service".toList) ↔ stem ≠ [] ∧ ∀ c ∈ stem, unitNameChar c := by
  have hlength : (stem ++ ".service".toList).length - ".service".length = stem.length := by
    rw [List.length_append]
    exact Nat.add_sub_cancel _ 8
  unfold unitNamePattern
  rw [hlength, List.take_left, List.drop_left]
  simp

/-- The name is accepted exactly if there is no colon in the template. -/
theorem Derives.accepted_iff {body : List Char} (h : Derives templates actionId unit body) :
    validateUnitName unit.unitName.value = .ok () ↔ ':' ∉ body := by
  have hbytes : ∀ c ∈ encodeFrom escapeByte 0 (utf8 actionId.value.toList), unitNameChar c := by
    intro c hc
    obtain ⟨j, byte, hbyte, hc⟩ := exists_of_mem_encodeFrom hc
    obtain hgood | ⟨-, hcolon⟩ := mem_escapeByte hc
    · exact hgood
    · obtain ⟨d, hd, hcode⟩ := exists_of_mem_utf8 (fun d hd => (mem_actionValue hd).1) hbyte
      have hval : d = ':' := Char.toNat_inj.mp (hcode.symm.trans hcolon)
      exact absurd hval (mem_actionValue hd).2.1
  have hname : unit.unitName.value.toList =
      (body ++ '@' :: encodeFrom escapeByte 0 (utf8 actionId.value.toList)) ++
        ".service".toList := by
    rw [h.name, List.append_assoc, List.cons_append]
  have hpattern : unitNamePattern unit.unitName.value.toList ↔ ':' ∉ body := by
    rw [hname, unitNamePattern_append]
    constructor
    · rintro ⟨-, hall⟩ hcolon
      exact absurd (hall _ (List.mem_append_left _ hcolon)) (by decide)
    · intro hcolon
      refine ⟨List.append_ne_nil_of_left_ne_nil h.body_ne_nil _, fun c hc => ?_⟩
      obtain hc | hc := List.mem_append.mp hc
      · have hchar := h.chars c hc
        have hne : c ≠ ':' := fun heq => hcolon (heq ▸ hc)
        simp only [templateChar, Bool.or_eq_true, decide_eq_true_iff] at hchar
        simp only [unitNameChar, Bool.or_eq_true, decide_eq_true_iff]
        tauto
      · obtain rfl | hc := List.mem_cons.mp hc
        · decide
        · exact hbytes c hc
  have hslash : unitNamePattern unit.unitName.value.toList → '/' ∉ unit.unitName.value.toList := by
    intro hmatch
    rw [hname] at hmatch ⊢
    intro hmem
    obtain hmem | hmem := List.mem_append.mp hmem
    · exact absurd ((unitNamePattern_append.mp hmatch).2 _ hmem) (by decide)
    · exact absurd hmem (by decide)
  unfold validateUnitName
  split
  · rename_i hbad
    refine iff_of_false (fun heq => by cases heq) fun hcolon => ?_
    have hmatch := hpattern.mpr hcolon
    exact hbad.elim (fun hno => hno hmatch) (hslash hmatch)
  · rename_i hgood
    rw [not_or, not_not] at hgood
    exact iff_of_true rfl (hpattern.mp hgood.1)

theorem validateUnit_ok_iff (quoted : String → String) :
    validateUnit quoted templates unit = .ok () ↔
      unitForAction templates unit.actionId = .ok unit := by
  unfold validateUnit
  cases hexpected : unitForAction templates unit.actionId with
  | error fault => exact iff_of_false (fun h => by cases h) fun h => by cases h
  | ok expected =>
    change (if unit ≠ expected then _ else _) = _ ↔ _
    by_cases heq : unit = expected
    · rw [if_neg (not_not.mpr heq), heq]
      exact iff_of_true rfl rfl
    · rw [if_pos heq]
      exact iff_of_false (fun h => by cases h) fun h => heq (Except.ok.inj h).symm

/-- Units and actions determine each other; the requests accept the units' names exactly if no
template has a colon. -/
theorem unitNames_determine_iff (quoted : String → String) (templates : UnitTemplates) :
    UnitNamesDetermine quoted templates ↔
      ∀ kind template, templates.table.get? kind = some template → ':' ∉ template.toList := by
  have hkinds : ∀ kind template, templates.table.get? kind = some template → kind ∈ workerKinds :=
    fun kind template h => (templates.covers kind).mp
      (List.mem_map.mpr ⟨(kind, template), Dict.mem_of_get? h, rfl⟩)
  constructor
  · intro h kind template htemplate hcolon
    obtain ⟨body, hne, hchars, hbody⟩ := unitTemplate_iff.mp (unitTemplate_of_get? htemplate)
    let actionId : ActionId := ⟨⟨0⟩, kind, 1, by decide⟩
    have hspelling : actionId.spelling.isSome := by
      have hshort : (Nat.toDigits 10 1).length ≤ Integers.maxDecimalDigits := by decide
      rw [ActionId.spelling, if_pos hshort]
      rfl
    obtain ⟨unit, hunit, hderives⟩ :=
      @unitForAction_derives templates template actionId body htemplate hbody hne hchars hspelling
    refine hderives.accepted_iff.mp (h.accepted actionId unit hunit) ?_
    rw [hbody] at hcolon
    exact (List.mem_append.mp hcolon).resolve_right (by decide)
  · intro hcolon
    refine ⟨fun value other hne hnul hne' hnul' heq => ?_, fun actionId hkind hspelling => ?_,
      fun actionId other unit unit' h h' hdiffer heq => ?_, fun actionId unit h => ?_,
      fun unit => validateUnit_ok_iff quoted⟩
    · have hescape : escapeUnitInstance value = .ok _ :=
        escapeUnitInstance_ok_iff.mpr ⟨hne, hnul, rfl⟩
      exact escapeUnitInstance_inj hescape (heq ▸ hescape)
    · obtain ⟨template, htemplate⟩ :=
        Option.isSome_iff_exists.mp (Dict.isSome_get?.mpr ((templates.covers _).mpr hkind))
      obtain ⟨body, hne, hchars, hbody⟩ := unitTemplate_iff.mp (unitTemplate_of_get? htemplate)
      obtain ⟨unit, hunit, -⟩ := unitForAction_derives htemplate hbody hne hchars hspelling
      exact ⟨unit, hunit⟩
    · obtain ⟨body, hderives⟩ := derives_of_unitForAction h
      obtain ⟨body', hderives'⟩ := derives_of_unitForAction h'
      exact hdiffer (hderives.inj hderives' heq)
    · obtain ⟨body, hderives⟩ := derives_of_unitForAction h
      obtain ⟨template, htemplate, hbody⟩ := hderives.template
      refine hderives.accepted_iff.mpr fun hmem => hcolon _ template htemplate ?_
      rw [hbody]
      exact List.mem_append_left _ hmem

/-- The supervisor accepts a template with a colon, and a request does not accept its units. -/
theorem unitNames_colon : ∃ templates,
    validateTemplates id [(.probe, "monitor:probe@.service"), (.application, "apply@.service"),
      (.preparation, "prepare@.service"), (.finalization, "finalize@.service")] = .ok templates ∧
    ¬ UnitNamesDetermine id templates := by
  refine ⟨⟨_, fun kind => ?_, ?_, ?_⟩, rfl, fun h => ?_⟩
  · cases kind <;> decide
  · decide
  · decide
  · have haccepted := h.accepted ⟨⟨0⟩, .probe, 1, by decide⟩ _ rfl
    revert haccepted
    decide +kernel

end Derivation

end MonitorController
