import MonitorController.Foundation.Dict
import MonitorController.Observer.Autorandr

/-! # What a saved profile is

A profile which was returned consists of accepted fingerprints and of blocks
whose options were read from lines of their own. Both can be written down again:
lines which spell accepted fingerprints or sound blocks are read without an issue
and give them back.
-/

namespace MonitorController

open Words

/-! ## Names -/

theorem isSpace_of_isLineBreak {c : Char} (h : isLineBreak c = true) : isSpace c = true := by
  unfold isLineBreak at h
  unfold isSpace
  simp only [Bool.or_eq_true, Bool.and_eq_true, decide_eq_true_eq] at h ⊢
  omega

theorem isLineBreak_of_isSpace {c : Char} (h : isSpace c = false) : isLineBreak c = false := by
  by_contra hbreak
  rw [isSpace_of_isLineBreak (by simpa using hbreak)] at h
  cases h

theorem validOutputName_iff {value : String} : validOutputName value = true ↔
    value.toList ≠ [] ∧ (∀ c ∈ value.toList, outputNameChar c = true) ∧
      value.length ≤ maxOutputNameChars := by
  simp [validOutputName, and_assoc]

theorem bare_of_validOutputName {value : String} (h : validOutputName value = true) :
    Bare isSpace value.toList where
  ne_nil := (validOutputName_iff.mp h).1
  clear c hc := by
    have hchar := (validOutputName_iff.mp h).2.1 c hc
    simp only [outputNameChar, Bool.and_eq_true, Bool.not_eq_true'] at hchar
    exact hchar.1.1

theorem Text.ext {a b : Text} (h : a.value = b.value) : a = b := by
  cases a
  cases b
  obtain rfl := h
  rfl

theorem map_splitWords (line : List Char) :
    (splitWords line).map (·.value.toList) = words isSpace line := by
  unfold splitWords
  rw [List.map_pmap]
  simp

theorem bare_of_mem_splitWords {line : List Char} {word : Text} (h : word ∈ splitWords line) :
    Bare isSpace word.value.toList := by
  refine bare_of_mem_words (l := line) ?_
  rw [← map_splitWords]
  exact List.mem_map.mpr ⟨word, h, rfl⟩

theorem splitWords_pair {a b : Text} (ha : Bare isSpace a.value.toList)
    (hb : Bare isSpace b.value.toList) :
    splitWords (a.value.toList ++ ' ' :: b.value.toList) = [a, b] := by
  have hmap : (splitWords (a.value.toList ++ ' ' :: b.value.toList)).map (·.value.toList) =
      [a, b].map (·.value.toList) := by
    rw [map_splitWords, words_pair ha hb (by decide)]
    rfl
  refine List.map_injective_iff.mpr (fun x y hxy => ?_) hmap
  exact Text.ext (String.toList_inj.mp hxy)

/-! ## Fingerprints -/

/-- A fingerprint as the parser accepts it from a line. -/
structure AcceptedFingerprint (allowWildcard : Bool) (f : Fingerprint) : Prop where
  output : validOutputName f.output.value = true
  uncommented : f.output.value.toList.head? ≠ some '#'
  word : Bare isSpace f.value.value.toList
  ascii : f.value.value.toList.all (·.toNat < 128) = true
  bounded : f.value.value.length ≤ maxFingerprintChars
  wildcards : f.value.value.toList.count '*' ≤ wildcardLimit allowWildcard
  wellFormed : validFingerprintValue f.value.value.toList = true

def fingerprintLine (f : Fingerprint) : List Char :=
  f.output.value.toList ++ ' ' :: f.value.value.toList

theorem head?_of_splitWords {line : List Char} (h : Trimmed isSpace line) {word : Text}
    {rest : List Text} (hwords : splitWords line = word :: rest) :
    word.value.toList.head? = line.head? := by
  refine head?_of_words (rest.map (·.value.toList)) h ?_
  rw [← map_splitWords, hwords]
  rfl

theorem readFingerprint_accepted {allowWildcard : Bool} {found : List Fingerprint}
    {line : List Char} {f : Fingerprint}
    (h : readFingerprint allowWildcard found line = .accepted f) :
    AcceptedFingerprint allowWildcard f ∧ f.output ∉ found.map (·.output) ∧
      found.length < maxProfileOutputs := by
  unfold readFingerprint at h
  dsimp only at h
  split at h
  · cases h
  rename_i hcomment
  split at h
  · rename_i output value hwords
    split at h; · cases h
    split at h; · cases h
    split at h; · cases h
    split at h; · cases h
    split at h; · cases h
    split at h; · cases h
    rename_i hname hnew hascii hwild hsyntax hroom
    obtain rfl := LineVerdict.accepted.inj h
    obtain ⟨hascii, hbounded⟩ := not_or.mp hascii
    constructor
    · constructor
      · simpa using hname
      · rw [head?_of_splitWords (strip_trimmed line) hwords]
        exact fun hhead => hcomment (.inr hhead)
      · exact bare_of_mem_splitWords (show value ∈ splitWords (strip isSpace line) by simp [hwords])
      · exact not_not.mp hascii
      · exact Nat.le_of_not_lt hbounded
      · exact Nat.le_of_not_lt hwild
      · simpa using hsyntax
    · exact ⟨hnew, Nat.lt_of_not_le hroom⟩
  · cases h

theorem trimmed_pair {a b : List Char} (ha : Bare isSpace a) (hb : Trimmed isSpace b)
    (hne : b ≠ []) : Trimmed isSpace (a ++ ' ' :: b) := by
  simpa using ha.trimmed.append hb ha.ne_nil hne [' ']

theorem readFingerprint_line {allowWildcard : Bool} {found : List Fingerprint} {f : Fingerprint}
    (h : AcceptedFingerprint allowWildcard f) (hnew : f.output ∉ found.map (·.output))
    (hroom : found.length < maxProfileOutputs) :
    readFingerprint allowWildcard found (fingerprintLine f) = .accepted f := by
  have hbare := bare_of_validOutputName h.output
  have hstrip : strip isSpace (fingerprintLine f) = fingerprintLine f :=
    (trimmed_pair hbare h.word.trimmed h.word.ne_nil).strip_eq
  have hwords : splitWords (fingerprintLine f) = [f.output, f.value] := splitWords_pair hbare h.word
  have hcomment :
      ¬ ((fingerprintLine f).isEmpty = true ∨ (fingerprintLine f).head? = some '#') := by
    have huncommented := h.uncommented
    unfold fingerprintLine
    obtain ⟨c, rest, hc⟩ := List.exists_cons_of_ne_nil hbare.ne_nil
    rw [hc] at huncommented ⊢
    simpa using huncommented
  unfold readFingerprint
  dsimp only
  rw [hstrip, if_neg hcomment, hwords]
  dsimp only
  have hwild := h.wildcards
  have hbounded := h.bounded
  rw [if_neg (by simp [h.output]), if_neg hnew, if_neg (by simp only [h.ascii]; simp; omega),
    if_neg (by omega), if_neg (by simp [h.wellFormed]), if_neg (by omega)]

/-- The fingerprints found so far. -/
structure SoundSetup (allowWildcard : Bool) (found : List Fingerprint) : Prop where
  accepted : ∀ f ∈ found, AcceptedFingerprint allowWildcard f
  nodup : (found.map (·.output)).Nodup
  bounded : found.length ≤ maxProfileOutputs

theorem SoundSetup.nil {allowWildcard : Bool} : SoundSetup allowWildcard [] where
  accepted := by simp
  nodup := by simp
  bounded := Nat.zero_le _

theorem SoundSetup.concat {allowWildcard : Bool} {found : List Fingerprint} {f : Fingerprint}
    (h : SoundSetup allowWildcard found) (hf : AcceptedFingerprint allowWildcard f)
    (hnew : f.output ∉ found.map (·.output)) (hroom : found.length < maxProfileOutputs) :
    SoundSetup allowWildcard (found ++ [f]) where
  accepted g hg := by
    rcases List.mem_append.mp hg with hg | hg
    · exact h.accepted g hg
    · exact List.mem_singleton.mp hg ▸ hf
  nodup := by
    rw [List.map_append, List.nodup_append]
    refine ⟨h.nodup, by simp, ?_⟩
    rintro a ha b hb rfl
    obtain rfl := List.mem_singleton.mp hb
    exact hnew ha
  bounded := by
    rw [List.length_append, List.length_singleton]
    omega

/-- A run over the lines which reports nothing keeps the fingerprints sound. -/
theorem fingerprintLines_sound {allowWildcard : Bool} {number : Nat} {lines : List (List Char)}
    {found : List Fingerprint} {c : IssueCollector}
    (h : (fingerprintLines allowWildcard number lines found c).2.issues = [])
    (hfound : SoundSetup allowWildcard found) :
    (fingerprintLines allowWildcard number lines found c).2 = c ∧
      SoundSetup allowWildcard (fingerprintLines allowWildcard number lines found c).1 := by
  induction lines generalizing number found c with
  | nil => exact ⟨rfl, hfound⟩
  | cons line lines ih =>
    unfold fingerprintLines at h ⊢
    cases hread : readFingerprint allowWildcard found line with
    | ignored =>
      rw [hread] at h
      exact ih h hfound
    | accepted f =>
      rw [hread] at h
      obtain ⟨hf, hnew, hroom⟩ := readFingerprint_accepted hread
      exact ih h (hfound.concat hf hnew hroom)
    | refused code detail =>
      rw [hread] at h
      have hadd := (ih h hfound).1
      rw [hadd] at h
      exact absurd h IssueCollector.issues_add_ne_nil
    | stopped code detail =>
      rw [hread] at h
      exact absurd h IssueCollector.issues_add_ne_nil

theorem fingerprintLines_spelled {allowWildcard : Bool} {number : Nat} {setup found : List Fingerprint}
    {c : IssueCollector} (h : SoundSetup allowWildcard (found ++ setup)) :
    fingerprintLines allowWildcard number (setup.map fingerprintLine) found c =
      (found ++ setup, c) := by
  induction setup generalizing number found with
  | nil => simp [fingerprintLines]
  | cons f setup ih =>
    have hf : AcceptedFingerprint allowWildcard f := h.accepted f (by simp)
    have hnew : f.output ∉ found.map (·.output) := by
      have hnodup := h.nodup
      rw [List.map_append, List.map_cons, List.nodup_append] at hnodup
      exact fun hmem => hnodup.2.2 _ hmem _ List.mem_cons_self rfl
    have hroom : found.length < maxProfileOutputs := by
      have hbounded := h.bounded
      rw [List.length_append, List.length_cons] at hbounded
      omega
    rw [List.map_cons]
    unfold fingerprintLines
    rw [readFingerprint_line hf hnew hroom]
    dsimp only
    rw [ih (by simpa using h)]
    simp

theorem SoundSetup.perm {allowWildcard : Bool} {l m : List Fingerprint}
    (h : SoundSetup allowWildcard l) (hperm : l.Perm m) : SoundSetup allowWildcard m where
  accepted f hf := h.accepted f (hperm.mem_iff.mpr hf)
  nodup := (hperm.map _).nodup_iff.mp h.nodup
  bounded := hperm.length_eq ▸ h.bounded

theorem parseFingerprintLines_sound {allowWildcard : Bool} {lines : Option (List (List Char))}
    {c : IssueCollector} (h : (parseFingerprintLines allowWildcard lines c).2.issues = []) :
    c.issues = [] ∧ SoundSetup allowWildcard (parseFingerprintLines allowWildcard lines c).1 ∧
      (parseFingerprintLines allowWildcard lines c).1.Pairwise
        fun f g => f.output.value < g.output.value := by
  unfold parseFingerprintLines at h ⊢
  cases lines with
  | none => exact ⟨h, .nil, .nil⟩
  | some lines =>
    obtain ⟨hloop, -⟩ := IssueCollector.issues_report_eq_nil.mp h
    obtain ⟨hc, hsound⟩ := fingerprintLines_sound hloop .nil
    refine ⟨hc ▸ hloop, hsound.perm (sortedBy_perm _).symm, ?_⟩
    refine sortedBy_strict (f := fun f : Fingerprint => f.output.value) ?_
    have hnodup := hsound.nodup.map fun a b => Text.ext
    rwa [List.map_map] at hnodup

theorem parseFingerprintLines_spelled {allowWildcard : Bool} {setup : List Fingerprint}
    {c : IssueCollector} (h : SoundSetup allowWildcard setup) (hne : setup ≠ []) :
    parseFingerprintLines allowWildcard (some (setup.map fingerprintLine)) c =
      (sortedBy (·.output.value) setup, c) := by
  unfold parseFingerprintLines
  dsimp only
  rw [fingerprintLines_spelled (show SoundSetup allowWildcard ([] ++ setup) by simpa using h)]
  simp [IssueCollector.report, hne]

/-! ## Options and blocks -/

/-- An option as it is read from a line of its own. -/
structure SoundOption (o : ProfileOption) : Prop where
  key : Bare isSpace o.1.toList
  uncommented : o.1.toList.head? ≠ some '#'
  plain : o.1 ≠ "output"
  value : ∀ v ∈ o.2, v.toList ≠ [] ∧ Trimmed isSpace v.toList ∧
    ∀ c ∈ v.toList, isLineBreak c = false
  valued : o.1 ∈ valuedOptions → o.2.isSome
  flag : o.1 ∈ flagOptions → o.2 = none

/-- A block which was read without an issue. -/
structure SoundBlock (b : AutorandrConfigOutput) : Prop where
  output : validOutputName b.output = true
  options : ∀ o ∈ b.options, SoundOption o
  sorted : b.options.Pairwise fun o o' => o.1 < o'.1
  mode : b.active = true → b.mode.isSome = true
  off : b.active = false → ∀ o ∈ b.options, o.1 ≠ "mode" ∧ o.1 ≠ "primary"

def optionLine (o : ProfileOption) : List Char :=
  match o.2 with
  | none => o.1.toList
  | some v => o.1.toList ++ ' ' :: v.toList

theorem not_comment_of_bare {k l : List Char} (hk : Bare isSpace k) (hhead : k.head? ≠ some '#') :
    ¬ ((k ++ l).isEmpty = true ∨ (k ++ l).head? = some '#') := by
  obtain ⟨c, rest, rfl⟩ := List.exists_cons_of_ne_nil hk.ne_nil
  simpa using hhead

theorem readDirective_optionLine {o : ProfileOption} (hkey : Bare isSpace o.1.toList)
    (hhead : o.1.toList.head? ≠ some '#')
    (hvalue : ∀ v ∈ o.2, v.toList ≠ [] ∧ Trimmed isSpace v.toList) :
    readDirective (optionLine o) = some o := by
  obtain ⟨key, value⟩ := o
  unfold readDirective optionLine
  cases value with
  | none =>
    have hcomment := not_comment_of_bare (l := []) hkey hhead
    rw [List.append_nil] at hcomment
    dsimp only at hkey hcomment ⊢
    rw [hkey.trimmed.strip_eq, if_neg hcomment, hkey.cut_eq]
    simp
  | some v =>
    obtain ⟨hne, htrimmed⟩ := hvalue v rfl
    dsimp only at hkey hhead ⊢
    rw [(trimmed_pair hkey htrimmed hne).strip_eq, if_neg (not_comment_of_bare hkey hhead),
      cut_append hkey (by decide) htrimmed hne]
    simp

theorem readDirective_some {line : List Char} {o : ProfileOption}
    (h : readDirective line = some o) (hline : ∀ c ∈ line, isLineBreak c = false) :
    Bare isSpace o.1.toList ∧ o.1.toList.head? ≠ some '#' ∧
      ∀ v ∈ o.2, v.toList ≠ [] ∧ Trimmed isSpace v.toList ∧
        ∀ c ∈ v.toList, isLineBreak c = false := by
  unfold readDirective at h
  dsimp only at h
  split at h
  · cases h
  rename_i hcomment
  obtain ⟨⟨key, value⟩, hcut, rfl⟩ := Option.map_eq_some_iff.mp h
  obtain ⟨hkey, hhead, hvalue⟩ := cut_some hcut
  have htrimmed := strip_trimmed (p := isSpace) line
  refine ⟨by simpa using hkey, ?_, ?_⟩
  · have hnocomment := fun hc => hcomment (.inr hc)
    rw [hhead htrimmed] at hnocomment
    simpa using hnocomment
  · rintro _ hv
    obtain ⟨v, hread, rfl⟩ := Option.map_eq_some_iff.mp hv
    obtain ⟨hne, htrim, hsub⟩ := hvalue v hread
    refine ⟨by simpa using hne, by simpa using htrim htrimmed, fun c hc => ?_⟩
    exact hline c (mem_of_mem_strip (hsub (by simpa using hc)))

namespace IssueCollector

@[simp] theorem report_false (c : IssueCollector) (code : ParseIssueCode) (detail : String)
    (line : Option Nat) : c.report false code detail line = c := rfl

end IssueCollector

theorem issues_blockIssues {b : AutorandrConfigOutput} {line : Option Nat} {c : IssueCollector} :
    (blockIssues b line c).issues = [] ↔ c.issues = [] ∧ (b.options.map (·.1)).Nodup ∧
      (b.active = true → b.mode.isSome = true) ∧
      (b.active = false → ∀ o ∈ b.options, o.1 ≠ "mode" ∧ o.1 ≠ "primary") := by
  unfold blockIssues
  simp only [IssueCollector.issues_report_eq_nil, decide_eq_false_iff_not, not_not, and_assoc]
  refine and_congr_right fun _ => and_congr_right fun _ => and_congr ?_ ?_
  · cases b.active <;> cases b.mode <;> simp
  · cases b.active <;> simp

theorem blockIssues_eq {b : AutorandrConfigOutput} {line : Option Nat} {c : IssueCollector}
    (h : SoundBlock b) : blockIssues b line c = c := by
  have hnodup : (b.options.map (·.1)).Nodup := by
    rw [List.Nodup, List.pairwise_map]
    exact h.sorted.imp fun h => h.ne
  have hmode : (b.active && b.mode.isNone) = false := by
    cases hactive : b.active with
    | false => rfl
    | true => simpa using h.mode hactive
  have hoff : (!b.active && b.options.any fun o => o.1 = "mode" || o.1 = "primary") = false := by
    cases hactive : b.active with
    | false => simpa using h.off hactive
    | true => rfl
  unfold blockIssues
  rw [hmode, hoff, decide_eq_false (not_not.mpr hnodup)]
  rfl

/-- The parser between two lines which it accepted. -/
structure SoundState (s : ConfigState) : Prop where
  blocks : ∀ b ∈ s.blocks, SoundBlock b
  current : ∀ block ∈ s.current, validOutputName block.1 = true ∧ ∀ o ∈ block.2, SoundOption o
  names : s.outputNames = s.blocks.map (·.output) ++ (s.current.map Prod.fst).toList
  nodup : s.outputNames.Nodup

theorem mem_sortedOptions {options : List ProfileOption} {o : ProfileOption} :
    o ∈ sortedBy (·.1) options ↔ o ∈ options := mem_sortedBy

theorem find?_perm {α κ : Type} [DecidableEq κ] {f : α → κ} {l m : List α} (h : l.Perm m)
    (hnodup : (l.map f).Nodup) (k : κ) :
    l.find? (fun a => f a = k) = m.find? fun a => f a = k := by
  cases hfound : m.find? fun a => f a = k with
  | none =>
    rw [List.find?_eq_none] at hfound ⊢
    exact fun a ha => hfound a (h.mem_iff.mp ha)
  | some a =>
    have ha : a ∈ l := h.mem_iff.mpr (List.mem_of_find?_eq_some hfound)
    have hkey := List.find?_some hfound
    refine find?_of_unique ha hkey fun b hb hb' => List.inj_on_of_nodup_map hnodup hb ha ?_
    simp only [decide_eq_true_eq] at hkey hb'
    exact hb'.trans hkey.symm

theorem active_sorted (output : String) (options : List ProfileOption) :
    (AutorandrConfigOutput.mk output (sortedBy (·.1) options)).active =
      (AutorandrConfigOutput.mk output options).active :=
  (sortedBy_perm options).all_eq

theorem mode_sorted {output : String} {options : List ProfileOption}
    (h : (options.map (·.1)).Nodup) :
    (AutorandrConfigOutput.mk output (sortedBy (·.1) options)).mode =
      (AutorandrConfigOutput.mk output options).mode := by
  unfold AutorandrConfigOutput.mode
  rw [find?_perm (sortedBy_perm options) (f := Prod.fst)
    (((sortedBy_perm options).map _).nodup_iff.mpr h)]

theorem finishBlock_sound {line : Option Nat} {s : ConfigState}
    (h : (finishBlock line s).collector.issues = []) :
    s.collector.issues = [] ∧
      (SoundState s → SoundState (finishBlock line s) ∧ (finishBlock line s).current = none) := by
  unfold finishBlock at h ⊢
  split at h
  · rename_i hcurrent
    refine ⟨h, fun hs => ⟨?_, ?_⟩⟩
    · simpa only [hcurrent] using hs
    · exact hcurrent
  · rename_i output options hcurrent
    obtain ⟨hissues, hnodup, hmode, hoff⟩ := issues_blockIssues.mp h
    refine ⟨hissues, fun hs => ?_⟩
    obtain ⟨hname, hoptions⟩ := hs.current (output, options) hcurrent
    refine ⟨⟨?_, by simp, ?_, hs.nodup⟩, rfl⟩
    · intro b hb
      rcases List.mem_append.mp hb with hb | hb
      · exact hs.blocks b hb
      obtain rfl := List.mem_singleton.mp hb
      constructor
      · exact hname
      · exact fun o ho => hoptions o (mem_sortedOptions.mp ho)
      · exact sortedBy_strict hnodup
      · rw [active_sorted, mode_sorted hnodup]
        exact hmode
      · rw [active_sorted]
        exact fun hactive o ho => hoff hactive o (mem_sortedOptions.mp ho)
    · simp [hs.names, hcurrent]

theorem startBlock_sound {number : Nat} {value : Option String} {s : ConfigState}
    (h : (startBlock number value s).collector.issues = []) :
    s.collector.issues = [] ∧ (SoundState s → SoundState (startBlock number value s)) := by
  unfold startBlock at h ⊢
  dsimp only at h ⊢
  split at h
  · exact absurd h IssueCollector.issues_add_ne_nil
  rename_i name
  split at h
  · rename_i hname
    obtain ⟨hfinish, hnew⟩ := IssueCollector.issues_report_eq_nil.mp h
    obtain ⟨hissues, hsound⟩ := finishBlock_sound hfinish
    refine ⟨hissues, fun hs => ?_⟩
    obtain ⟨hs, hcurrent⟩ := hsound hs
    rw [if_pos hname]
    constructor
    · exact hs.blocks
    · rintro _ ⟨⟩
      exact ⟨hname, by simp⟩
    · simp [hs.names, hcurrent]
    · rw [List.nodup_append]
      refine ⟨hs.nodup, by simp, ?_⟩
      rintro a ha b hb rfl
      obtain rfl := List.mem_singleton.mp hb
      simp [ha] at hnew
  · exact absurd h IssueCollector.issues_add_ne_nil

theorem addOption_sound {number : Nat} {o : ProfileOption} {s : ConfigState}
    (h : (addOption number o s).collector.issues = [])
    (ho : Bare isSpace o.1.toList ∧ o.1.toList.head? ≠ some '#' ∧
      ∀ v ∈ o.2, v.toList ≠ [] ∧ Trimmed isSpace v.toList ∧ ∀ c ∈ v.toList, isLineBreak c = false)
    (hplain : o.1 ≠ "output") :
    s.collector.issues = [] ∧ (SoundState s → SoundState (addOption number o s)) := by
  unfold addOption at h ⊢
  split at h
  · exact absurd h IssueCollector.issues_add_ne_nil
  rename_i output options hcurrent
  obtain ⟨hissues, hflag⟩ := IssueCollector.issues_report_eq_nil.mp h
  obtain ⟨hissues, hvalued⟩ := IssueCollector.issues_report_eq_nil.mp hissues
  refine ⟨hissues, fun hs => ?_⟩
  obtain ⟨hname, hoptions⟩ := hs.current (output, options) hcurrent
  have hsound : SoundOption o := by
    refine ⟨ho.1, ho.2.1, hplain, ho.2.2, fun hmem => ?_, fun hmem => ?_⟩
    · simpa [hmem] using hvalued
    · simpa [hmem] using hflag
  constructor
  · exact hs.blocks
  · rintro _ ⟨⟩
    refine ⟨hname, fun o' ho' => ?_⟩
    rcases List.mem_append.mp ho' with ho' | ho'
    · exact hoptions o' ho'
    · exact List.mem_singleton.mp ho' ▸ hsound
  · simp [hs.names, hcurrent]
  · exact hs.nodup

theorem configLine_sound {number : Nat} {line : List Char} {s : ConfigState}
    (h : (configLine number line s).collector.issues = [])
    (hline : ∀ c ∈ line, isLineBreak c = false) :
    s.collector.issues = [] ∧ (SoundState s → SoundState (configLine number line s)) := by
  unfold configLine at h ⊢
  cases hread : readDirective line with
  | none =>
    rw [hread] at h
    exact ⟨h, id⟩
  | some o =>
    obtain ⟨key, value⟩ := o
    rw [hread] at h
    dsimp only at h ⊢
    split at h
    · rename_i hkey
      rw [if_pos hkey]
      exact startBlock_sound h
    · rename_i hkey
      rw [if_neg hkey]
      exact addOption_sound h (readDirective_some hread hline) hkey

theorem configLines_sound {number : Nat} {lines : List (List Char)} {s : ConfigState}
    (h : (configLines number lines s).collector.issues = [])
    (hlines : ∀ line ∈ lines, ∀ c ∈ line, isLineBreak c = false) :
    s.collector.issues = [] ∧ (SoundState s → SoundState (configLines number lines s)) := by
  induction lines generalizing number s with
  | nil => exact ⟨h, id⟩
  | cons line lines ih =>
    unfold configLines at h ⊢
    obtain ⟨hissues, hsound⟩ := ih h fun l hl => hlines l (List.mem_cons_of_mem _ hl)
    obtain ⟨hissues, hline⟩ := configLine_sound hissues (hlines line List.mem_cons_self)
    exact ⟨hissues, hsound ∘ hline⟩

/-- The blocks of a config file, sorted by output. -/
structure SoundConfig (config : List AutorandrConfigOutput) : Prop where
  blocks : ∀ b ∈ config, SoundBlock b
  sorted : config.Pairwise fun a b => a.output < b.output
  bounded : config.length ≤ maxProfileOutputs

theorem parseConfig_sound {lines : Option (List (List Char))} {c : IssueCollector}
    (h : (parseConfig lines c).2.issues = [])
    (hlines : ∀ l ∈ lines, ∀ line ∈ l, ∀ c ∈ line, isLineBreak c = false) :
    c.issues = [] ∧ SoundConfig (parseConfig lines c).1 := by
  unfold parseConfig at h ⊢
  cases lines with
  | none => exact ⟨h, by simp, .nil, Nat.zero_le _⟩
  | some lines =>
    dsimp only at h ⊢
    obtain ⟨hissues, hlong⟩ := IssueCollector.issues_report_eq_nil.mp h
    obtain ⟨hissues, -⟩ := IssueCollector.issues_report_eq_nil.mp hissues
    obtain ⟨hissues, hfinish⟩ := finishBlock_sound hissues
    obtain ⟨hissues, hrun⟩ := configLines_sound hissues (hlines lines rfl)
    refine ⟨hissues, ?_⟩
    obtain ⟨hs, hcurrent⟩ := hfinish (hrun ⟨by simp, by simp, by simp, by simp⟩)
    generalize finishBlock none (configLines 1 lines ⟨[], none, [], c⟩) = s at hs hcurrent hlong
    have hlength : (sortedBy (·.output) s.blocks).length ≤ maxProfileOutputs := by
      rw [(sortedBy_perm _).length_eq]
      simpa using hlong
    rw [List.take_of_length_le hlength]
    refine ⟨fun b hb => hs.blocks b (mem_sortedBy.mp hb), sortedBy_strict ?_, hlength⟩
    have hnames := hs.names
    rw [hcurrent] at hnames
    simp only [Option.map_none, Option.toList_none, List.append_nil] at hnames
    exact hnames ▸ hs.nodup

/-! ## Profiles -/

/-- A layout name as the parser accepts it. -/
structure SoundLayout (layout : String) : Prop where
  ne_nil : layout.toList ≠ []
  trimmed : Trimmed isSpace layout.toList
  clear : ∀ c ∈ layout.toList, isLineBreak c = false
  bounded : layout.length ≤ maxLayoutChars

/-- A profile which was returned. -/
structure SoundProfile (p : SavedAutorandrProfile) : Prop where
  setup : SoundSetup true p.setup
  setup_sorted : p.setup.Pairwise fun f g => f.output.value < g.output.value
  setup_nonempty : p.setup ≠ []
  config : SoundConfig p.config
  configured : ∀ f ∈ p.setup, f.output.value ∈ p.config.map (·.output)
  active : ∀ b ∈ p.config, b.active = true → b.output ∈ p.setup.map (·.output.value)
  primary : (p.config.filter fun b => b.active && b.primary).length ≤ 1
  layout : SoundLayout p.layout

theorem isSpace_of_isAlphanum {c : Char} (h : c.isAlphanum = true) : isSpace c = false := by
  unfold isSpace
  unfold Char.isAlphanum Char.isAlpha Char.isUpper Char.isLower Char.isDigit at h
  simp only [Bool.or_eq_true, Bool.and_eq_true, decide_eq_true_eq, ge_iff_le,
    UInt32.le_iff_toNat_le] at h
  have hval : c.toNat = c.val.toNat := rfl
  simp only [Bool.or_eq_false_iff, Bool.and_eq_false_iff, decide_eq_false_iff_not, hval]
  simp at h
  omega

theorem bare_of_validProfileName {name : String} (h : validProfileName name = true) :
    Bare isSpace name.toList ∧ name.length ≤ maxProfileNameChars := by
  unfold validProfileName at h
  cases hname : name.toList with
  | nil => simp [hname] at h
  | cons c rest =>
    rw [hname] at h
    simp only [Bool.and_eq_true, List.all_eq_true, decide_eq_true_eq] at h
    obtain ⟨⟨hc, hrest⟩, hlength⟩ := h
    refine ⟨⟨by simp, fun d hd => ?_⟩, hlength⟩
    rcases List.mem_cons.mp hd with rfl | hd
    · exact isSpace_of_isAlphanum hc
    · have hchar := hrest d hd
      simp only [Bool.or_eq_true, decide_eq_true_eq] at hchar
      rcases hchar with (((halnum | rfl) | rfl) | rfl) | rfl
      · exact isSpace_of_isAlphanum halnum
      all_goals decide

theorem soundLayout_of_name {name : String} (h : validProfileName name = true) :
    SoundLayout name := by
  obtain ⟨hbare, hlength⟩ := bare_of_validProfileName h
  exact ⟨hbare.ne_nil, hbare.trimmed, fun c hc => isLineBreak_of_isSpace (hbare.clear c hc),
    hlength⟩

theorem parseLayout_sound {name : String} {lines : Option (List (List Char))} {c : IssueCollector}
    (h : (parseLayout name lines c).2.issues = [])
    (hlines : ∀ l ∈ lines, ∀ line ∈ l, ∀ c ∈ line, isLineBreak c = false) :
    c.issues = [] ∧ (validProfileName name = true →
      ∀ layout ∈ (parseLayout name lines c).1, SoundLayout layout) := by
  unfold parseLayout at h ⊢
  split at h
  · refine ⟨h, ?_⟩
    rintro hname _ ⟨⟩
    exact soundLayout_of_name hname
  rename_i lines
  split at h
  · rename_i value hvalues
    split at h
    · rename_i hlength
      refine ⟨h, ?_⟩
      rw [if_pos hlength]
      rintro - _ ⟨⟩
      have hmem : value ∈ (lines.map (strip isSpace)).filter (!·.isEmpty) := by simp [hvalues]
      obtain ⟨hstripped, hne⟩ := List.mem_filter.mp hmem
      obtain ⟨line, hline, rfl⟩ := List.mem_map.mp hstripped
      constructor
      · simpa using hne
      · simpa using strip_trimmed line
      · intro c hc
        exact hlines lines rfl line hline c (mem_of_mem_strip (by simpa using hc))
      · simpa using hlength
    · exact absurd h IssueCollector.issues_add_ne_nil
  · exact absurd h IssueCollector.issues_add_ne_nil

theorem issues_profileIssues {config : List AutorandrConfigOutput} {setup : List Fingerprint}
    {c : IssueCollector} : (profileIssues config setup c).issues = [] ↔ c.issues = [] ∧
      (∀ f ∈ setup, f.output.value ∈ config.map (·.output)) ∧
      (∀ b ∈ config, b.active = true → b.output ∈ setup.map (·.output.value)) ∧
      (config.filter fun b => b.active && b.primary).length ≤ 1 := by
  unfold profileIssues
  simp only [IssueCollector.issues_report_eq_nil, IssueCollector.issues_reportEach_eq_nil,
    decide_eq_false_iff_not, Bool.not_eq_false', decide_eq_true_eq, and_assoc, not_lt,
    Bool.and_eq_false_imp]

theorem optionalLines_clear {evidence : Option TextCommandEvidence} {c : IssueCollector} :
    ∀ lines ∈ (optionalLines evidence c).1, ∀ line ∈ lines, ∀ c ∈ line, isLineBreak c = false := by
  cases evidence with
  | none => rintro _ ⟨⟩
  | some evidence => exact boundedLines_clear

theorem optionalLines_issues {evidence : Option TextCommandEvidence} {c : IssueCollector}
    (h : (optionalLines evidence c).2.issues = []) : (optionalLines evidence c).2 = c := by
  cases evidence with
  | none => rfl
  | some evidence => exact congrArg Prod.snd (boundedLines_issues h)

theorem parseProfileFiles_sound {name layout : String} {hashes : List ConfigurationContentHash}
    {configEvidence setupEvidence : TextCommandEvidence}
    {layoutEvidence : Option TextCommandEvidence} {config : List AutorandrConfigOutput}
    {setup : List Fingerprint} {c : IssueCollector}
    (h : parseProfileFiles name configEvidence setupEvidence layoutEvidence =
      ((config, setup, some layout), c)) (hc : c.issues = []) (hsetup : setup ≠ []) :
    SoundProfile ⟨name, setup, config, layout, profileScope setup, hashes⟩ := by
  unfold parseProfileFiles at h
  simp only [Prod.mk.injEq] at h
  obtain ⟨⟨rfl, rfl, hlayout⟩, rfl⟩ := h
  obtain ⟨hissues, hconfigured, hactive, hprimary⟩ := issues_profileIssues.mp hc
  obtain ⟨hissues, hsoundLayout⟩ := parseLayout_sound hissues optionalLines_clear
  obtain ⟨hissues, hsoundSetup, hsorted⟩ := parseFingerprintLines_sound hissues
  obtain ⟨hissues, hsoundConfig⟩ := parseConfig_sound hissues boundedLines_clear
  rw [optionalLines_issues hissues] at hissues
  have hsetupLines := congrArg Prod.snd (boundedLines_issues hissues)
  rw [hsetupLines] at hissues
  have hconfigLines := congrArg Prod.snd (boundedLines_issues hissues)
  rw [hconfigLines] at hissues
  have hname : validProfileName name = true := by
    simpa using (IssueCollector.issues_report_eq_nil.mp hissues).2
  exact ⟨hsoundSetup, hsorted, hsetup, hsoundConfig, hconfigured, hactive, hprimary,
    hsoundLayout hname layout hlayout⟩

/-- A profile which was returned is sound. -/
theorem parseSavedProfile_sound {hexdigest : List UInt8 → HexDigest} {name : String}
    {configEvidence setupEvidence : TextCommandEvidence}
    {layoutEvidence : Option TextCommandEvidence} {r : SavedProfileResult}
    {p : SavedAutorandrProfile}
    (h : parseSavedProfile hexdigest name configEvidence setupEvidence layoutEvidence = some r)
    (hp : r.profile = some p) : SoundProfile p := by
  unfold parseSavedProfile at h
  obtain ⟨⟨⟨config, setup, layout⟩, c⟩, hfiles⟩ :
      ∃ x, parseProfileFiles name configEvidence setupEvidence layoutEvidence = x := ⟨_, rfl⟩
  rw [hfiles] at h
  obtain ⟨references, -, h⟩ := Option.bind_eq_some_iff.mp h
  obtain rfl := Option.some.inj h
  obtain ⟨layout, rfl, hp⟩ := Option.bind_eq_some_iff.mp hp
  obtain ⟨⟨⟩, hguard, hp⟩ := Option.bind_eq_some_iff.mp hp
  obtain rfl := Option.some.inj hp
  have hchecks : c.issues = [] ∧ config ≠ [] ∧ setup ≠ [] := by simpa [guard] using hguard
  exact parseProfileFiles_sound hfiles hchecks.1 hchecks.2.2

end MonitorController
