import Mathlib.Algebra.GroupWithZero.Nat
import MonitorController.Values.Identity

/-! # EDID blocks

The bytes which a monitor reports about itself: a base block, which names it,
and the extension blocks which the base block advertises. The verdict keeps the
identity apart from the readiness of the extensions.
-/

namespace MonitorController

def edidBlockBytes : Nat := 128

def edidHeader : List UInt8 := [0x00, 0xff, 0xff, 0xff, 0xff, 0xff, 0xff, 0x00]

def maxEdidBytes : Nat := edidBlockBytes * 256

/-- Length state of one advertised block. -/
inductive EdidBlockState where
  | complete | incomplete | missing
  deriving DecidableEq, Repr

inductive EdidIssue where
  | tooShort | tooLarge | headerInvalid | baseChecksumInvalid | advertisedBlockMissing
  | advertisedBlockIncomplete | extensionChecksumInvalid | trailingData
  deriving DecidableEq, Repr

/-- Independent length and checksum result for one advertised block. -/
structure EdidBlockValidation where
  index : Nat
  state : EdidBlockState
  checksumValid : Option Bool
  deriving DecidableEq, Repr

/-- Validated identity and readiness evidence. -/
structure ParsedEdid where
  integrity : EdidIntegrity
  actualLength : Nat
  advertisedExtensionCount : Option Nat
  expectedLength : Option Nat
  baseHash : Option String
  rawHash : String
  blocks : List EdidBlockValidation
  issues : List EdidIssue

def edidBlock (raw : List UInt8) (index : Nat) : List UInt8 :=
  (raw.drop (index * edidBlockBytes)).take edidBlockBytes

def sumsToZero (bytes : List UInt8) : Bool :=
  (bytes.map UInt8.toNat).sum % 256 = 0

/-- The number of extension blocks which the base block advertises. -/
def extensionCount (raw : List UInt8) : Nat := (raw.getD 126 0).toNat

def validateBlock (raw : List UInt8) (index : Nat) : EdidBlockValidation :=
  if raw.length ≤ index * edidBlockBytes then ⟨index, .missing, none⟩
  else if raw.length < index * edidBlockBytes + edidBlockBytes then ⟨index, .incomplete, none⟩
  else ⟨index, .complete, some (sumsToZero (edidBlock raw index))⟩

def EdidBlockValidation.issue (block : EdidBlockValidation) : Option EdidIssue :=
  match block.state with
  | .missing => some .advertisedBlockMissing
  | .incomplete => some .advertisedBlockIncomplete
  | .complete => if block.checksumValid = some false then some .extensionChecksumInvalid else none

def appendOnce (values : List EdidIssue) (value : EdidIssue) : List EdidIssue :=
  if value ∈ values then values else values ++ [value]

def extensionIssues (issues : List EdidIssue) : List EdidBlockValidation → List EdidIssue
  | [] => issues
  | block :: blocks =>
    match block.issue with
    | none => extensionIssues issues blocks
    | some issue => extensionIssues (appendOnce issues issue) blocks

/-- The identity block is usable: it begins with the header and sums to zero. -/
def baseIssues (raw : List UInt8) : List EdidIssue :=
  (if edidHeader.isPrefixOf (raw.take edidBlockBytes) then [] else [.headerInvalid]) ++
    if (validateBlock raw 0).checksumValid = some true then [] else [.baseChecksumInvalid]

def parseEdid (sha256 : List UInt8 → String) (raw : List UInt8) : ParsedEdid :=
  if maxEdidBytes < raw.length then
    { integrity := .baseInvalid, actualLength := raw.length, advertisedExtensionCount := none,
      expectedLength := none, baseHash := none, rawHash := sha256 raw, blocks := [],
      issues := [.tooLarge] }
  else if raw.length < edidBlockBytes then
    { integrity := .baseInvalid, actualLength := raw.length, advertisedExtensionCount := none,
      expectedLength := none, baseHash := none, rawHash := sha256 raw,
      blocks := [⟨0, if raw.length = 0 then .missing else .incomplete, none⟩],
      issues := [.tooShort] }
  else
    let expectedBlocks := extensionCount raw + 1
    let expectedLength := expectedBlocks * edidBlockBytes
    let blocks := (List.range expectedBlocks).map (validateBlock raw)
    let issues := extensionIssues (baseIssues raw) blocks.tail ++
      if expectedLength < raw.length then [.trailingData] else []
    let baseHash :=
      if baseIssues raw = [] then some (sha256 (raw.take edidBlockBytes)) else none
    let integrity : EdidIntegrity :=
      if baseHash = none then .baseInvalid
      else if .extensionChecksumInvalid ∈ issues ∨ .trailingData ∈ issues then
        .baseValidExtensionsInvalid
      else if raw.length < expectedLength then .baseValidExtensionsIncomplete
      else .complete
    { integrity, actualLength := raw.length, advertisedExtensionCount := some (extensionCount raw),
      expectedLength := some expectedLength, baseHash, rawHash := sha256 raw, blocks, issues }

section Blocks

variable {raw : List UInt8} {index : Nat}

theorem validateBlock_complete (h : index * edidBlockBytes + edidBlockBytes ≤ raw.length) :
    validateBlock raw index = ⟨index, .complete, some (sumsToZero (edidBlock raw index))⟩ := by
  have hpos : 0 < edidBlockBytes := by decide
  unfold validateBlock
  rw [if_neg (by omega), if_neg (by omega)]

theorem issue_validateBlock_checksum :
    (validateBlock raw index).issue = some .extensionChecksumInvalid ↔
      index * edidBlockBytes + edidBlockBytes ≤ raw.length ∧
        sumsToZero (edidBlock raw index) = false := by
  unfold validateBlock
  split
  · have hpos : 0 < edidBlockBytes := by decide
    constructor
    · intro h
      cases h
    · rintro ⟨h, -⟩
      omega
  · split
    · constructor
      · intro h
        cases h
      · rintro ⟨h, -⟩
        omega
    · rename_i hpresent hlong
      simp [EdidBlockValidation.issue, Nat.le_of_not_lt hlong]

theorem mem_appendOnce {values : List EdidIssue} {value issue : EdidIssue} :
    issue ∈ appendOnce values value ↔ issue ∈ values ∨ issue = value := by
  unfold appendOnce
  split
  · rename_i hmem
    constructor
    · exact .inl
    · rintro (h | rfl)
      · exact h
      · exact hmem
  · simp

theorem mem_extensionIssues {issue : EdidIssue} {blocks : List EdidBlockValidation}
    {issues : List EdidIssue} :
    issue ∈ extensionIssues issues blocks ↔
      issue ∈ issues ∨ ∃ block ∈ blocks, block.issue = some issue := by
  induction blocks generalizing issues with
  | nil => simp [extensionIssues]
  | cons block blocks ih =>
    unfold extensionIssues
    cases hissue : block.issue with
    | none => simp [ih, hissue]
    | some found =>
      simp only [ih, mem_appendOnce, List.exists_mem_cons_iff, hissue, Option.some.injEq]
      rw [or_assoc, eq_comm (a := issue)]

end Blocks

/-- The base block is present, begins with the header and sums to zero. -/
def BaseValid (raw : List UInt8) : Prop :=
  edidBlockBytes ≤ raw.length ∧ edidHeader <+: raw ∧ sumsToZero (raw.take edidBlockBytes) = true

section Base

variable {raw : List UInt8}

theorem baseIssues_eq_nil (h : edidBlockBytes ≤ raw.length) :
    baseIssues raw = [] ↔ BaseValid raw := by
  have hblock : validateBlock raw 0 = ⟨0, .complete, some (sumsToZero (edidBlock raw 0))⟩ :=
    validateBlock_complete (by omega)
  have hheader : edidHeader <+: raw.take edidBlockBytes ↔ edidHeader <+: raw := by
    rw [List.prefix_take_iff]
    exact and_iff_left (by decide)
  unfold baseIssues BaseValid
  rw [hblock]
  simp [hheader, edidBlock, h]

theorem mem_baseIssues {issue : EdidIssue} (h : issue ∈ baseIssues raw) :
    issue = .headerInvalid ∨ issue = .baseChecksumInvalid := by
  unfold baseIssues at h
  rcases List.mem_append.mp h with h | h
  · left
    split at h
    · cases h
    · exact List.mem_singleton.mp h
  · right
    split at h
    · cases h
    · exact List.mem_singleton.mp h

end Base

section Verdict

variable (sha256 : List UInt8 → String) {raw : List UInt8}

/-- An extension block which is present as a whole has a wrong sum. -/
def ExtensionBroken (raw : List UInt8) : Prop :=
  ∃ index, 0 < index ∧ index ≤ extensionCount raw ∧
    index * edidBlockBytes + edidBlockBytes ≤ raw.length ∧
      sumsToZero (edidBlock raw index) = false

def advertisedLength (raw : List UInt8) : Nat := (extensionCount raw + 1) * edidBlockBytes

theorem checksum_mem_extensionIssues :
    EdidIssue.extensionChecksumInvalid ∈ extensionIssues (baseIssues raw)
      ((List.range (extensionCount raw + 1)).map (validateBlock raw)).tail ↔
      ExtensionBroken raw := by
  rw [mem_extensionIssues]
  constructor
  · rintro (h | ⟨block, hblock, hissue⟩)
    · rcases mem_baseIssues h with h | h <;> cases h
    · rw [List.range_succ_eq_map, List.map_cons, List.tail_cons, List.map_map] at hblock
      obtain ⟨index, hindex, rfl⟩ := List.mem_map.mp hblock
      have hlt := List.mem_range.mp hindex
      obtain ⟨hpresent, hsum⟩ := issue_validateBlock_checksum.mp hissue
      exact ⟨index + 1, by omega, by omega, hpresent, hsum⟩
  · rintro ⟨index, hpos, hle, hpresent, hsum⟩
    refine .inr ⟨validateBlock raw index, ?_, issue_validateBlock_checksum.mpr ⟨hpresent, hsum⟩⟩
    rw [List.range_succ_eq_map, List.map_cons, List.tail_cons, List.map_map]
    refine List.mem_map.mpr ⟨index - 1, List.mem_range.mpr (by omega), ?_⟩
    simp [Nat.sub_add_cancel hpos]

theorem trailing_notMem_extensionIssues {blocks : List EdidBlockValidation} :
    EdidIssue.trailingData ∉ extensionIssues (baseIssues raw) blocks := by
  rw [mem_extensionIssues]
  rintro (h | ⟨block, -, hissue⟩)
  · rcases mem_baseIssues h with h | h <;> cases h
  · unfold EdidBlockValidation.issue at hissue
    split at hissue
    · cases hissue
    · cases hissue
    · split at hissue <;> cases hissue

/-- The verdict, by the facts about the bytes which it depends on. -/
theorem parseEdid_cases (hlong : raw.length ≤ maxEdidBytes) :
    (¬ BaseValid raw ∧ (parseEdid sha256 raw).integrity = .baseInvalid ∧
        (parseEdid sha256 raw).baseHash = none) ∨
      BaseValid raw ∧ (parseEdid sha256 raw).baseHash = some (sha256 (raw.take edidBlockBytes)) ∧
        (((ExtensionBroken raw ∨ advertisedLength raw < raw.length) ∧
            (parseEdid sha256 raw).integrity = .baseValidExtensionsInvalid) ∨
          (¬ ExtensionBroken raw ∧ raw.length < advertisedLength raw ∧
            (parseEdid sha256 raw).integrity = .baseValidExtensionsIncomplete) ∨
          (¬ ExtensionBroken raw ∧ raw.length = advertisedLength raw ∧
            (parseEdid sha256 raw).integrity = .complete)) := by
  unfold parseEdid
  rw [if_neg (Nat.not_lt.mpr hlong)]
  split
  · rename_i hshort
    exact .inl ⟨fun h => absurd h.1 (Nat.not_le.mpr hshort), rfl, rfl⟩
  · rename_i hshort
    have hbase := baseIssues_eq_nil (Nat.le_of_not_lt hshort)
    by_cases hvalid : BaseValid raw
    · refine .inr ⟨hvalid, ?_, ?_⟩
      · simp [hbase.mpr hvalid]
      · have hbroken : _ ↔ ExtensionBroken raw := checksum_mem_extensionIssues
        have htrailing : EdidIssue.trailingData ∉ extensionIssues (baseIssues raw)
            ((List.range (extensionCount raw + 1)).map (validateBlock raw)).tail :=
          trailing_notMem_extensionIssues
        have hnil := hbase.mpr hvalid
        dsimp only
        simp only [if_pos hnil]
        by_cases hext : ExtensionBroken raw
        · exact .inl ⟨.inl hext, by simp [hbroken.mpr hext]⟩
        · have hsound := mt hbroken.mp hext
          rcases Nat.lt_trichotomy raw.length ((extensionCount raw + 1) * edidBlockBytes) with
            h | h | h
          · right
            left
            exact ⟨hext, h, by simp [hsound, htrailing, h, Nat.not_lt.mpr h.le]⟩
          · right
            right
            exact ⟨hext, h, by simp [hsound, htrailing, h]⟩
          · exact .inl ⟨.inr h, by simp [h]⟩
    · exact .inl ⟨hvalid, by simp [mt hbase.mp hvalid], by simp [mt hbase.mp hvalid]⟩

theorem edidBlock_zero : edidBlock raw 0 = raw.take edidBlockBytes := by
  simp [edidBlock]

theorem not_extensionBroken :
    ¬ ExtensionBroken raw ↔ ∀ index, 0 < index → index ≤ extensionCount raw →
      index * edidBlockBytes + edidBlockBytes ≤ raw.length →
        sumsToZero (edidBlock raw index) = true := by
  simp [ExtensionBroken]

theorem complete_iff_blocks :
    (BaseValid raw ∧ ¬ ExtensionBroken raw ∧ raw.length = advertisedLength raw) ↔
      raw.length = edidBlockBytes * (1 + extensionCount raw) ∧ edidHeader <+: raw ∧
        ∀ index ≤ extensionCount raw, sumsToZero (edidBlock raw index) = true := by
  have hlength : advertisedLength raw = edidBlockBytes * (1 + extensionCount raw) := by
    rw [advertisedLength, Nat.mul_comm, Nat.add_comm]
  rw [not_extensionBroken, hlength]
  constructor
  · rintro ⟨⟨-, hheader, hbase⟩, hext, hlen⟩
    refine ⟨hlen, hheader, fun index hindex => ?_⟩
    rcases Nat.eq_zero_or_pos index with rfl | hpos
    · rwa [edidBlock_zero]
    · have hmono : (index + 1) * edidBlockBytes ≤ (1 + extensionCount raw) * edidBlockBytes :=
        Nat.mul_le_mul_right _ (by omega)
      rw [Nat.mul_comm (1 + _), ← hlen, Nat.succ_mul] at hmono
      exact hext index hpos hindex hmono
  · rintro ⟨hlen, hheader, hsums⟩
    refine ⟨⟨?_, hheader, ?_⟩, fun index _ hindex _ => hsums index hindex, hlen⟩
    · rw [hlen]
      exact Nat.le_mul_of_pos_right _ (by omega)
    · rw [← edidBlock_zero]
      exact hsums 0 (Nat.zero_le _)

theorem incomplete_iff_blocks :
    (BaseValid raw ∧ ¬ ExtensionBroken raw ∧ raw.length < advertisedLength raw) ↔
      BaseValid raw ∧ raw.length < edidBlockBytes * (1 + extensionCount raw) ∧
        ∀ index, 0 < index → index * edidBlockBytes + edidBlockBytes ≤ raw.length →
          sumsToZero (edidBlock raw index) = true := by
  have hlength : advertisedLength raw = edidBlockBytes * (1 + extensionCount raw) := by
    rw [advertisedLength, Nat.mul_comm, Nat.add_comm]
  rw [not_extensionBroken]
  constructor
  · rintro ⟨hbase, hext, hshort⟩
    refine ⟨hbase, hlength ▸ hshort, fun index hpos hpresent => hext index hpos ?_ hpresent⟩
    by_contra hbeyond
    have hmono : (extensionCount raw + 1) * edidBlockBytes ≤ index * edidBlockBytes :=
      Nat.mul_le_mul_right _ (by omega)
    unfold advertisedLength at hshort
    omega
  · rintro ⟨hbase, hshort, hsums⟩
    exact ⟨hbase, fun index hpos _ hpresent => hsums index hpos hpresent, hlength ▸ hshort⟩

theorem BaseValid.of_take {other : List UInt8} (h : BaseValid raw)
    (heq : other.take edidBlockBytes = raw.take edidBlockBytes) : BaseValid other := by
  obtain ⟨hlen, hheader, hsum⟩ := h
  refine ⟨?_, ?_, heq ▸ hsum⟩
  · have hlengths := congrArg List.length heq
    simp only [List.length_take] at hlengths
    omega
  · have hprefix : edidHeader <+: raw.take edidBlockBytes :=
      List.prefix_take_iff.mpr ⟨hheader, by decide⟩
    exact (heq ▸ hprefix).trans (List.take_prefix _ _)

/-- Every verdict says exactly what is sound about the bytes. -/
theorem parseEdid_exact (hlong : raw.length ≤ maxEdidBytes) :
    ((parseEdid sha256 raw).integrity = .complete ↔
        raw.length = edidBlockBytes * (1 + extensionCount raw) ∧ edidHeader <+: raw ∧
          ∀ index ≤ extensionCount raw, sumsToZero (edidBlock raw index) = true) ∧
      ((parseEdid sha256 raw).integrity = .baseValidExtensionsIncomplete ↔
        BaseValid raw ∧ raw.length < edidBlockBytes * (1 + extensionCount raw) ∧
          ∀ index, 0 < index → index * edidBlockBytes + edidBlockBytes ≤ raw.length →
            sumsToZero (edidBlock raw index) = true) ∧
      ((parseEdid sha256 raw).integrity = .baseInvalid ↔
        raw.length < edidBlockBytes ∨ ¬ edidHeader <+: raw ∨
          sumsToZero (raw.take edidBlockBytes) = false) ∧
      ((parseEdid sha256 raw).baseHash.isSome ↔ BaseValid raw) ∧
      (∀ other : List UInt8, other.length ≤ maxEdidBytes →
        other.take edidBlockBytes = raw.take edidBlockBytes →
          (parseEdid sha256 other).baseHash = (parseEdid sha256 raw).baseHash) ∧
      ((parseEdid sha256 raw).integrity = .complete ∨
        (parseEdid sha256 raw).integrity = .baseValidExtensionsIncomplete ∨
        (parseEdid sha256 raw).integrity = .baseValidExtensionsInvalid ∨
        (parseEdid sha256 raw).integrity = .baseInvalid) := by
  have hcases := parseEdid_cases sha256 hlong
  have hinvalid : ¬ BaseValid raw ↔ raw.length < edidBlockBytes ∨ ¬ edidHeader <+: raw ∨
      sumsToZero (raw.take edidBlockBytes) = false := by
    unfold BaseValid
    rw [not_and_or, not_and_or, Nat.not_le, Bool.not_eq_true]
  refine ⟨?_, ?_, ?_, ?_, fun other hother heq => ?_, ?_⟩
  · rw [← complete_iff_blocks]
    rcases hcases with ⟨hb, hi, -⟩ | ⟨hb, -, ⟨hx, hi⟩ | ⟨hx, hl, hi⟩ | ⟨hx, hl, hi⟩⟩ <;> rw [hi]
    · simp [hb]
    · simp only [reduceCtorEq, false_iff]
      rintro ⟨-, hx', hl⟩
      rcases hx with hx | hx
      · exact hx' hx
      · omega
    · simp only [reduceCtorEq, false_iff]
      rintro ⟨-, -, hl'⟩
      omega
    · simp [hb, hx, hl]
  · rw [← incomplete_iff_blocks]
    rcases hcases with ⟨hb, hi, -⟩ | ⟨hb, -, ⟨hx, hi⟩ | ⟨hx, hl, hi⟩ | ⟨hx, hl, hi⟩⟩ <;> rw [hi]
    · simp [hb]
    · simp only [reduceCtorEq, false_iff]
      rintro ⟨-, hx', hl⟩
      rcases hx with hx | hx
      · exact hx' hx
      · omega
    · simp [hb, hx, hl]
    · simp [hl]
  · rw [← hinvalid]
    rcases hcases with ⟨hb, hi, -⟩ | ⟨hb, -, ⟨-, hi⟩ | ⟨-, -, hi⟩ | ⟨-, -, hi⟩⟩ <;> simp [hi, hb]
  · rcases hcases with ⟨hb, -, hh⟩ | ⟨hb, hh, -⟩ <;> simp [hh, hb]
  · rcases hcases with ⟨hb, -, hh⟩ | ⟨hb, hh, -⟩ <;>
      rcases parseEdid_cases sha256 hother with ⟨hb', -, hh'⟩ | ⟨hb', hh', -⟩
    · rw [hh, hh']
    · exact absurd (hb'.of_take heq.symm) hb
    · exact absurd (hb.of_take heq) hb'
    · rw [hh, hh', heq]
  · rcases hcases with ⟨-, hi, -⟩ | ⟨-, -, ⟨-, hi⟩ | ⟨-, -, hi⟩ | ⟨-, -, hi⟩⟩ <;> simp [hi]

def plainEdid : List UInt8 := edidHeader ++ List.replicate 119 0 ++ [6]

theorem parseEdid_exact_plain :
    (parseEdid (fun _ => "") plainEdid).integrity = .complete :=
  (parseEdid_exact (fun _ => "") (by decide +kernel)).1.mpr
    ⟨by decide +kernel, by decide +kernel, by decide +kernel⟩

end Verdict

end MonitorController
