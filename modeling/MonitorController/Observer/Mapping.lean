import Mathlib.Data.Prod.Lex
import MonitorController.Foundation.Dict
import MonitorController.Foundation.Matching
import MonitorController.Foundation.Outcome
import MonitorController.Observer.Profiles

/-! # Output mappings

A saved profile is loaded onto the outputs whose fingerprints its setup matches.
The mapping is resolved only when the complete bijection is unique. What the
resolver takes for a match is compared with what the pattern stands for.
-/

namespace MonitorController

open Words

/-- A unique complete mapping, or bounded reasons for rejecting it. -/
structure MappingResult where
  mapping : Option (List OutputMapping)
  issues : List ParseIssue

def fingerprintMatches (savedPattern liveFingerprint : List Char) : Except String Bool :=
  if 1 < savedPattern.count '*' then
    .error "saved fingerprint supports at most one wildcard"
  else if '*' ∈ liveFingerprint then
    .error "live fingerprint cannot contain a wildcard"
  else if '*' ∉ savedPattern then .ok (savedPattern = liveFingerprint)
  else
    .ok ((savedPattern.takeWhile (· ≠ '*')).isPrefixOf liveFingerprint &&
      ((savedPattern.dropWhile (· ≠ '*')).drop 1).isSuffixOf liveFingerprint)

def matchingOutputs (pattern : List Char) : List Fingerprint → Except String (List Text)
  | [] => .ok []
  | live :: rest => do
    let hit ← fingerprintMatches pattern live.value.value.toList
    let outputs ← matchingOutputs pattern rest
    return if hit then live.output :: outputs else outputs

/-- The loop which collects the candidates; unsupported syntax ends it. -/
def collectCandidates (live : List Fingerprint) :
    List Fingerprint → Dict Text (List Text) → IssueCollector →
      Except IssueCollector (Dict Text (List Text) × IssueCollector)
  | [], candidates, c => .ok (candidates, c)
  | saved :: rest, candidates, c =>
    match matchingOutputs saved.value.value.toList live with
    | .error _ =>
      .error (c.add .unsupportedWildcard "saved fingerprint contains unsupported wildcard syntax")
    | .ok outputs =>
      collectCandidates live rest (candidates.insert saved.output (sortedBy (·.value) outputs))
        (c.report outputs.isEmpty .unmatched "saved fingerprint has no live output match")

def maxMappingSolutions : Nat := 2

def coversExactly (required : List String) (used : List Text) : Bool :=
  used.all (·.value ∈ required) && required.all (· ∈ used.map (·.value))

/-- `unique_bijection`; more than one bijection is an error. -/
def uniqueBijection (candidates : Dict Text (List Text)) (required : List String) :
    Except Unit (Option (Dict Text Text)) :=
  let ordered := sortedBy (fun row => toLex (row.2.length, row.1.value)) candidates
  let solutions := Matching.search (coversExactly required) maxMappingSolutions ordered [] [] []
  if 1 < solutions.length then .error () else .ok solutions.head?

def sortedMapping (solution : Dict Text Text) : List OutputMapping :=
  (sortedBy (·.1.value) solution).map fun (saved, live) => ⟨saved, live⟩

def evidenceIssues (profile : SavedAutorandrProfile) (liveFingerprints : List Fingerprint)
    (connectedOutputs : List String) : IssueCollector :=
  let liveOutputs := liveFingerprints.map (·.output.value)
  ((((IssueCollector.empty .autorandrProfiles).report (¬ connectedOutputs.Nodup) .duplicate
    "connected output list has duplicates").report (¬ liveOutputs.Nodup) .duplicate
    "live fingerprint outputs collide").report
      (!(liveOutputs.all (· ∈ connectedOutputs) && connectedOutputs.all (· ∈ liveOutputs)))
      .topologyMismatch
    "live fingerprint outputs do not equal the exact connected topology").report
      (profile.setup.length ≠ connectedOutputs.length) .topologyMismatch
    "saved and connected output counts differ" |>.report
      (¬ (liveFingerprints.map (·.value)).Nodup || ¬ (profile.setup.map (·.value)).Nodup) .collision
    "duplicate fingerprints cannot prove connector identity"

def resolveOutputMapping (profile : SavedAutorandrProfile) (liveFingerprints : List Fingerprint)
    (connectedOutputs : List String) : MappingResult :=
  let c := evidenceIssues profile liveFingerprints connectedOutputs
  if c.issues ≠ [] then ⟨none, c.issues⟩
  else
    match collectCandidates liveFingerprints profile.setup [] c with
    | .error c => ⟨none, c.issues⟩
    | .ok (candidates, c) =>
      if c.issues ≠ [] then ⟨none, c.issues⟩
      else
        match uniqueBijection candidates connectedOutputs with
        | .error () =>
          ⟨none, (c.add .ambiguous "multiple complete fingerprint bijections exist").issues⟩
        | .ok none =>
          ⟨none, (c.add .unmatched "candidate edges do not form a complete bijection").issues⟩
        | .ok (some solution) => ⟨some (sortedMapping solution), []⟩

/-! ## What a pattern stands for -/

/-- A wildcard stands for any text between the prefix and the suffix of the pattern. -/
inductive Matches : List Char → List Char → Prop
  | exact {value : List Char} (h : '*' ∉ value) : Matches value value
  | wildcard (pre middle suffix : List Char) :
    Matches (pre ++ '*' :: suffix) (pre ++ middle ++ suffix)

/-- The prefix and the suffix of the pattern share characters of the value. -/
def Overlapping (pattern value : List Char) : Prop :=
  ∃ pre suffix, pattern = pre ++ '*' :: suffix ∧ pre <+: value ∧ suffix <:+ value ∧
    value.length < pre.length + suffix.length

/-- What the resolver takes for a match. -/
def TakenForMatch (pattern value : List Char) : Prop := fingerprintMatches pattern value = .ok true

instance : DecidableRel TakenForMatch := fun pattern value =>
  match h : fingerprintMatches pattern value with
  | .ok true => isTrue h
  | .ok false => isFalse (by simp [TakenForMatch, h])
  | .error _ => isFalse (by simp [TakenForMatch, h])

/-- A bijection from the outputs of a setup to the connected outputs, sorted by saved output. -/
structure Bijection (matched : List Char → List Char → Prop) (setup live : List Fingerprint)
    (connected : List String) (m : List OutputMapping) : Prop where
  saved_perm : (m.map (·.savedOutput)).Perm (setup.map (·.output))
  live_perm : (m.map (·.liveOutput.value)).Perm connected
  sorted : m.Pairwise fun a b => a.savedOutput.value < b.savedOutput.value
  pairs : ∀ e ∈ m, ∃ f ∈ setup, ∃ g ∈ live, f.output = e.savedOutput ∧ g.output = e.liveOutput ∧
    matched f.value.value.toList g.value.value.toList

/-- Neither side repeats an output or a fingerprint, and the live outputs are the connected ones. -/
structure ExactEvidence (setup live : List Fingerprint) (connected : List String) : Prop where
  saved_outputs : (setup.map (·.output)).Nodup
  saved_values : (setup.map (·.value)).Nodup
  live_outputs : (live.map (·.output)).Nodup
  live_values : (live.map (·.value)).Nodup
  connected_nodup : connected.Nodup
  topology : ∀ output, output ∈ live.map (·.output.value) ↔ output ∈ connected

/-- The resolver returns the one bijection of matching pairs, and nothing else. -/
def ResolvesExactly (profile : SavedAutorandrProfile) (live : List Fingerprint)
    (connected : List String) : Prop :=
  ∀ m, (resolveOutputMapping profile live connected).mapping = some m ↔
    ExactEvidence profile.setup live connected ∧ Bijection Matches profile.setup live connected m ∧
      ∀ n, Bijection Matches profile.setup live connected n → n = m

section Matching

variable {pattern value : List Char}

theorem wildcard_parts {pre : List Char} (h : '*' ∉ pre) (suffix : List Char) :
    (pre ++ '*' :: suffix).takeWhile (· ≠ '*') = pre ∧
      ((pre ++ '*' :: suffix).dropWhile (· ≠ '*')).drop 1 = suffix := by
  have hpre : ∀ c ∈ pre, decide (c ≠ '*') = true := by
    intro c hc
    exact decide_eq_true fun heq => h (heq ▸ hc)
  rw [List.takeWhile_append_of_pos hpre, List.dropWhile_append_of_pos hpre]
  simp

theorem notMem_of_count {pre suffix : List Char} (h : (pre ++ '*' :: suffix).count '*' ≤ 1) :
    '*' ∉ pre ∧ '*' ∉ suffix := by
  rw [List.count_append, List.count_cons_self] at h
  constructor
  · exact List.count_eq_zero.mp (by omega)
  · exact List.count_eq_zero.mp (by omega)

theorem takenForMatch_wildcard {pre suffix : List Char} (hlive : '*' ∉ value)
    (hcount : (pre ++ '*' :: suffix).count '*' ≤ 1) :
    TakenForMatch (pre ++ '*' :: suffix) value ↔ pre <+: value ∧ suffix <:+ value := by
  obtain ⟨hpre, hsuffix⟩ := wildcard_parts (notMem_of_count hcount).1 suffix
  unfold TakenForMatch fingerprintMatches
  rw [if_neg (by omega), if_neg hlive, if_neg (by simp), hpre, hsuffix]
  simp

theorem wildcard_inj {pre suffix pre' suffix' : List Char}
    (hcount : (pre ++ '*' :: suffix).count '*' ≤ 1)
    (h : pre ++ '*' :: suffix = pre' ++ '*' :: suffix') : pre' = pre ∧ suffix' = suffix := by
  obtain ⟨hpre, hsuffix⟩ := wildcard_parts (notMem_of_count hcount).1 suffix
  rw [h] at hcount hpre hsuffix
  obtain ⟨hpre', hsuffix'⟩ := wildcard_parts (notMem_of_count hcount).1 suffix'
  exact ⟨hpre'.symm.trans hpre, hsuffix'.symm.trans hsuffix⟩

theorem matches_wildcard {pre suffix : List Char} (hlive : '*' ∉ value)
    (hcount : (pre ++ '*' :: suffix).count '*' ≤ 1) :
    Matches (pre ++ '*' :: suffix) value ↔ ∃ middle, value = pre ++ middle ++ suffix := by
  constructor
  · intro h
    generalize hpattern : pre ++ '*' :: suffix = pattern at h
    cases h with
    | exact _ =>
      subst hpattern
      simp at hlive
    | wildcard pre' middle suffix' =>
      obtain ⟨rfl, rfl⟩ := wildcard_inj hcount hpattern
      exact ⟨middle, rfl⟩
  · rintro ⟨middle, rfl⟩
    exact .wildcard pre middle suffix

theorem overlapping_wildcard {pre suffix : List Char}
    (hcount : (pre ++ '*' :: suffix).count '*' ≤ 1) :
    Overlapping (pre ++ '*' :: suffix) value ↔
      pre <+: value ∧ suffix <:+ value ∧ value.length < pre.length + suffix.length := by
  constructor
  · rintro ⟨pre', suffix', hpattern, h⟩
    obtain ⟨rfl, rfl⟩ := wildcard_inj hcount hpattern
    exact h
  · intro h
    exact ⟨pre, suffix, rfl, h⟩

theorem exists_middle {pre suffix : List Char} (hpre : pre <+: value) (hsuffix : suffix <:+ value)
    (hlen : pre.length + suffix.length ≤ value.length) :
    ∃ middle, value = pre ++ middle ++ suffix := by
  obtain ⟨rest, rfl⟩ := hpre
  rw [List.length_append] at hlen
  obtain ⟨middle, rfl⟩ : suffix <:+ rest :=
    List.suffix_of_suffix_length_le hsuffix (List.suffix_append pre rest) (by omega)
  exact ⟨middle, by simp⟩

theorem takenForMatch_exact (hlive : '*' ∉ value) (hstar : '*' ∉ pattern) :
    TakenForMatch pattern value ↔ pattern = value := by
  unfold TakenForMatch fingerprintMatches
  rw [if_neg (by simp [List.count_eq_zero.mpr hstar]), if_neg hlive, if_pos hstar]
  simp

/-- The resolver takes a pair for a match if it matches or its pattern overlaps, not both. -/
theorem matches_iff (hlive : '*' ∉ value) (hcount : pattern.count '*' ≤ 1) :
    Matches pattern value ↔ TakenForMatch pattern value ∧ ¬ Overlapping pattern value := by
  by_cases hstar : '*' ∈ pattern
  · obtain ⟨pre, suffix, rfl⟩ := List.append_of_mem hstar
    rw [takenForMatch_wildcard hlive hcount, matches_wildcard hlive hcount,
      overlapping_wildcard hcount]
    constructor
    · rintro ⟨middle, rfl⟩
      have hbegins : pre <+: pre ++ middle ++ suffix := by
        rw [List.append_assoc]
        exact List.prefix_append pre _
      refine ⟨⟨hbegins, List.suffix_append _ suffix⟩, ?_⟩
      rintro ⟨-, -, hshort⟩
      simp only [List.length_append] at hshort
      omega
    · rintro ⟨⟨hpre, hsuffix⟩, hoverlap⟩
      refine exists_middle hpre hsuffix ?_
      by_contra hshort
      exact hoverlap ⟨hpre, hsuffix, by omega⟩
  · rw [takenForMatch_exact hlive hstar]
    constructor
    · intro h
      cases h with
      | exact _ =>
        refine ⟨rfl, ?_⟩
        rintro ⟨pre, suffix, rfl, -⟩
        simp at hstar
      | wildcard _ _ _ => simp at hstar
    · rintro ⟨rfl, -⟩
      exact .exact hlive

theorem fingerprintMatches_ok (hlive : '*' ∉ value) (hcount : pattern.count '*' ≤ 1) :
    ∃ hit, fingerprintMatches pattern value = .ok hit := by
  unfold fingerprintMatches
  rw [if_neg (by omega), if_neg hlive]
  split
  · exact ⟨_, rfl⟩
  · exact ⟨_, rfl⟩

end Matching

/-! ## Candidates and bijections -/

/-- A setup of patterns with one wildcard at most, and live values without any. -/
structure Comparable (setup live : List Fingerprint) : Prop where
  patterns : ∀ f ∈ setup, f.value.value.toList.count '*' ≤ 1
  values : ∀ g ∈ live, '*' ∉ g.value.value.toList

def takenOutputs (live : List Fingerprint) (saved : Fingerprint) : List Text :=
  (live.filter fun g => TakenForMatch saved.value.value.toList g.value.value.toList).map (·.output)

def candidateRow (live : List Fingerprint) (saved : Fingerprint) : Text × List Text :=
  (saved.output, sortedBy (·.value) (takenOutputs live saved))

theorem mem_candidateRow {live : List Fingerprint} {saved : Fingerprint} {output : Text} :
    output ∈ (candidateRow live saved).2 ↔ ∃ g ∈ live, g.output = output ∧
      TakenForMatch saved.value.value.toList g.value.value.toList := by
  unfold candidateRow takenOutputs
  rw [mem_sortedBy, List.mem_map]
  constructor
  · rintro ⟨g, hg, rfl⟩
    obtain ⟨hmem, htaken⟩ := List.mem_filter.mp hg
    exact ⟨g, hmem, rfl, of_decide_eq_true htaken⟩
  · rintro ⟨g, hmem, rfl, htaken⟩
    exact ⟨g, List.mem_filter.mpr ⟨hmem, decide_eq_true htaken⟩, rfl⟩

theorem matchingOutputs_eq {saved : Fingerprint} {live : List Fingerprint}
    (hcount : saved.value.value.toList.count '*' ≤ 1)
    (hlive : ∀ g ∈ live, '*' ∉ g.value.value.toList) :
    matchingOutputs saved.value.value.toList live = .ok (takenOutputs live saved) := by
  induction live with
  | nil => rfl
  | cons g live ih =>
    obtain ⟨hit, hhit⟩ := fingerprintMatches_ok (hlive g List.mem_cons_self) hcount
    unfold matchingOutputs takenOutputs
    rw [hhit, ih fun f hf => hlive f (List.mem_cons_of_mem _ hf), Outcome.ok_bind, Outcome.ok_bind]
    cases hit with
    | false =>
      rw [List.filter_cons_of_neg (by simp [TakenForMatch, hhit])]
      rfl
    | true =>
      rw [List.filter_cons_of_pos (by simp [TakenForMatch, hhit])]
      rfl

/-- Every saved output gets its row, and the rows without a candidate are reported. -/
theorem collectCandidates_eq {live setup : List Fingerprint} (candidates : Dict Text (List Text))
    (c : IssueCollector) (h : Comparable setup live)
    (hnodup : (candidates.keys ++ setup.map (·.output)).Nodup) :
    ∃ c', collectCandidates live setup candidates c =
        .ok (candidates ++ setup.map (candidateRow live), c') ∧
      (c'.issues = [] ↔ c.issues = [] ∧ ∀ f ∈ setup, (candidateRow live f).2 ≠ []) := by
  induction setup generalizing candidates c with
  | nil => exact ⟨c, by simp [collectCandidates], by simp⟩
  | cons f setup ih =>
    have hnew : f.output ∉ candidates.keys := by
      rw [List.map_cons, List.nodup_append] at hnodup
      exact fun hmem => hnodup.2.2 _ hmem _ List.mem_cons_self rfl
    have hrest : Comparable setup live :=
      ⟨fun g hg => h.patterns g (List.mem_cons_of_mem _ hg), h.values⟩
    have hempty : (takenOutputs live f).isEmpty = false ↔ (candidateRow live f).2 ≠ [] := by
      unfold candidateRow
      rw [List.isEmpty_eq_false_iff, ne_eq, ne_eq, ← List.length_eq_zero_iff,
        ← List.length_eq_zero_iff, (sortedBy_perm _).length_eq]
    obtain ⟨c', hc', hissues⟩ := ih (candidates ++ [candidateRow live f])
      (c.report (takenOutputs live f).isEmpty .unmatched
        "saved fingerprint has no live output match") hrest
      (by simpa [Dict.keys, candidateRow] using hnodup)
    refine ⟨c', ?_, ?_⟩
    · unfold collectCandidates
      rw [matchingOutputs_eq (h.patterns f List.mem_cons_self) h.values]
      dsimp only
      rw [Dict.insert_of_notMem hnew, List.map_cons,
        List.append_cons _ (candidateRow live f)]
      exact hc'
    · rw [hissues, IssueCollector.issues_report_eq_nil, hempty]
      simp [and_assoc]

theorem evidenceIssues_eq_nil {profile : SavedAutorandrProfile} {live : List Fingerprint}
    {connected : List String} (hsaved : (profile.setup.map (·.output)).Nodup) :
    (evidenceIssues profile live connected).issues = [] ↔
      ExactEvidence profile.setup live connected ∧ profile.setup.length = connected.length := by
  have houtputs : (live.map (·.output.value)).Nodup ↔ (live.map (·.output)).Nodup := by
    have hmap : live.map (·.output.value) = (live.map (·.output)).map (·.value) := by simp
    rw [hmap]
    exact List.nodup_map_iff fun _ _ => Text.ext
  unfold evidenceIssues
  simp only [IssueCollector.issues_report_eq_nil, decide_eq_false_iff_not, not_not, houtputs,
    Bool.not_eq_false', Bool.and_eq_true, List.all_eq_true, decide_eq_true_eq, ne_eq,
    Bool.or_eq_false_iff]
  constructor
  · rintro ⟨⟨⟨⟨⟨-, hconnected⟩, hlive⟩, htopology⟩, hlength⟩, hvalues, hsavedValues⟩
    exact ⟨⟨hsaved, hsavedValues, hlive, hvalues, hconnected,
      fun output => ⟨htopology.1 output, htopology.2 output⟩⟩, hlength⟩
  · rintro ⟨h, hlength⟩
    exact ⟨⟨⟨⟨⟨rfl, h.connected_nodup⟩, h.live_outputs⟩,
      fun o ho => (h.topology o).mp ho, fun o ho => (h.topology o).mpr ho⟩, hlength⟩,
      h.live_values, h.saved_values⟩

section Completions

variable {setup live : List Fingerprint} {connected : List String}

def orderedRows (live setup : List Fingerprint) : List (Text × List Text) :=
  sortedBy (fun row => toLex (row.2.length, row.1.value)) (setup.map (candidateRow live))

theorem mem_orderedRows {row : Text × List Text} :
    row ∈ orderedRows live setup ↔ ∃ f ∈ setup, candidateRow live f = row := by
  rw [orderedRows, mem_sortedBy, List.mem_map]

theorem keys_orderedRows :
    ((orderedRows live setup).map Prod.fst).Perm (setup.map (·.output)) := by
  have hperm := (sortedBy_perm (f := fun row : Text × List Text =>
    toLex (row.2.length, row.1.value)) (setup.map (candidateRow live))).map Prod.fst
  simpa [orderedRows, candidateRow, Function.comp_def] using hperm

theorem coversExactly_iff {used : List Text} (hused : used.Nodup) (hconnected : connected.Nodup) :
    coversExactly connected used = true ↔ (used.map (·.value)).Perm connected := by
  have hvalues : (used.map (·.value)).Nodup := hused.map fun _ _ => Text.ext
  rw [List.perm_ext_iff_of_nodup hvalues hconnected]
  unfold coversExactly
  simp only [Bool.and_eq_true, List.all_eq_true, decide_eq_true_eq]
  constructor
  · rintro ⟨hused, hconnected⟩ output
    constructor
    · intro h
      obtain ⟨live, hlive, rfl⟩ := List.mem_map.mp h
      exact hused live hlive
    · exact hconnected output
  · intro h
    exact ⟨fun live hlive => (h _).mp (List.mem_map.mpr ⟨live, hlive, rfl⟩),
      fun output houtput => (h output).mpr houtput⟩

/-- The search completes the choices which are bijections of pairs taken for matches. -/
theorem mem_completions_iff {m : Dict Text Text} (h : ExactEvidence setup live connected) :
    m ∈ Matching.completions (coversExactly connected) (orderedRows live setup) [] ↔
      m.keys = (orderedRows live setup).map Prod.fst ∧ (m.values.map (·.value)).Perm connected ∧
      ∀ e ∈ m, ∃ f ∈ setup, ∃ g ∈ live, f.output = e.1 ∧ g.output = e.2 ∧
        TakenForMatch f.value.value.toList g.value.value.toList := by
  have hkeys : ((orderedRows live setup).map Prod.fst).Nodup :=
    keys_orderedRows.nodup_iff.mpr h.saved_outputs
  have hpairs : ∀ e : Text × Text, (∃ row ∈ orderedRows live setup, row.1 = e.1 ∧ e.2 ∈ row.2) ↔
      ∃ f ∈ setup, ∃ g ∈ live, f.output = e.1 ∧ g.output = e.2 ∧
        TakenForMatch f.value.value.toList g.value.value.toList := by
    intro e
    constructor
    · rintro ⟨row, hrow, hsaved, hlive⟩
      obtain ⟨f, hf, rfl⟩ := mem_orderedRows.mp hrow
      obtain ⟨g, hg, houtput, htaken⟩ := mem_candidateRow.mp hlive
      exact ⟨f, hf, g, hg, hsaved, houtput, htaken⟩
    · rintro ⟨f, hf, g, hg, hsaved, houtput, htaken⟩
      exact ⟨candidateRow live f, mem_orderedRows.mpr ⟨f, hf, rfl⟩, hsaved,
        mem_candidateRow.mpr ⟨g, hg, houtput, htaken⟩⟩
  rw [Matching.mem_completions, Matching.chooses_iff hkeys, List.append_nil]
  have hreverse : (m.map Prod.snd).reverse.Perm m.values := List.reverse_perm _
  constructor
  · rintro ⟨⟨hm, hchoices, hnodup, -⟩, hcovers⟩
    rw [coversExactly_iff (hreverse.nodup_iff.mpr hnodup) h.connected_nodup] at hcovers
    exact ⟨hm, (hreverse.map _).symm.trans hcovers, fun e he => (hpairs e).mp (hchoices e he)⟩
  · rintro ⟨hm, hcovers, hchoices⟩
    have hnodup : m.values.Nodup := List.Nodup.of_map _ (hcovers.nodup_iff.mpr h.connected_nodup)
    refine ⟨⟨hm, fun e he => (hpairs e).mpr (hchoices e he), hnodup, by simp⟩, ?_⟩
    rw [coversExactly_iff (hreverse.nodup_iff.mpr hnodup) h.connected_nodup]
    exact (hreverse.map _).trans hcovers

def toMapping (solution : Dict Text Text) : List OutputMapping :=
  solution.map fun (saved, live) => ⟨saved, live⟩

theorem sortedMapping_perm (solution : Dict Text Text) :
    (sortedMapping solution).Perm (toMapping solution) := (sortedBy_perm solution).map _

theorem bijection_of_completion {m : Dict Text Text} (h : ExactEvidence setup live connected)
    (hm : m ∈ Matching.completions (coversExactly connected) (orderedRows live setup) []) :
    Bijection TakenForMatch setup live connected (sortedMapping m) := by
  obtain ⟨hkeys, hvalues, hpairs⟩ := (mem_completions_iff h).mp hm
  have hsaved : ((toMapping m).map (·.savedOutput)).Perm (setup.map (·.output)) := by
    have hmap : (toMapping m).map (·.savedOutput) = m.keys := by simp [toMapping, Dict.keys]
    rw [hmap, hkeys]
    exact keys_orderedRows
  constructor
  · exact ((sortedMapping_perm m).map _).trans hsaved
  · refine ((sortedMapping_perm m).map _).trans ?_
    simpa [toMapping, Dict.values, Function.comp_def] using hvalues
  · unfold sortedMapping
    rw [List.pairwise_map]
    refine sortedBy_strict (f := fun e : Text × Text => e.1.value) ?_
    have hnodup : (m.map fun e : Text × Text => e.1.value) = (m.keys).map (·.value) := by
      simp [Dict.keys]
    rw [hnodup, hkeys]
    exact (keys_orderedRows.nodup_iff.mpr h.saved_outputs).map fun _ _ => Text.ext
  · intro e he
    obtain ⟨⟨saved, live⟩, hchoice, rfl⟩ := List.mem_map.mp ((sortedMapping_perm m).mem_iff.mp he)
    exact hpairs _ hchoice

theorem exists_completion {n : List OutputMapping} (h : ExactEvidence setup live connected)
    (hn : Bijection TakenForMatch setup live connected n) :
    ∃ m ∈ Matching.completions (coversExactly connected) (orderedRows live setup) [],
      sortedMapping m = n := by
  let pair : OutputMapping → Text × Text := fun e => (e.savedOutput, e.liveOutput)
  have hkeys : ((orderedRows live setup).map Prod.fst).Perm ((n.map pair).map Prod.fst) := by
    rw [List.map_map]
    exact keys_orderedRows.trans hn.saved_perm.symm
  obtain ⟨m, hperm, hm⟩ := hkeys.exists_of_map
  have hcompletion :
      m ∈ Matching.completions (coversExactly connected) (orderedRows live setup) [] := by
    rw [mem_completions_iff h]
    refine ⟨hm, ?_, ?_⟩
    · refine ((hperm.map Prod.snd).map _).trans ?_
      simpa [pair, Function.comp_def] using hn.live_perm
    · intro e he
      obtain ⟨entry, hentry, rfl⟩ := List.mem_map.mp (hperm.mem_iff.mp he)
      exact hn.pairs entry hentry
  refine ⟨m, hcompletion, ?_⟩
  refine eq_of_strict (f := fun e : OutputMapping => e.savedOutput.value) ?_
    (bijection_of_completion h hcompletion).sorted hn.sorted
  refine (sortedMapping_perm m).trans ((hperm.map _).trans ?_)
  rw [List.map_map]
  exact List.Perm.of_eq (List.map_id n)

theorem completion_inj {m n : Dict Text Text} (h : ExactEvidence setup live connected)
    (hm : m ∈ Matching.completions (coversExactly connected) (orderedRows live setup) [])
    (hn : n ∈ Matching.completions (coversExactly connected) (orderedRows live setup) [])
    (heq : sortedMapping m = sortedMapping n) : m = n := by
  have hkeys := ((mem_completions_iff h).mp hm).1
  have hmap : (toMapping m).Perm (toMapping n) :=
    (sortedMapping_perm m).symm.trans (heq ▸ sortedMapping_perm n)
  have hperm : m.Perm n := by
    have hback := hmap.map fun e => (e.savedOutput, e.liveOutput)
    simpa [toMapping, Function.comp_def] using hback
  refine hperm.eq_of_map (f := Prod.fst) (hkeys.trans ((mem_completions_iff h).mp hn).1.symm) ?_
  have hm' : m.map Prod.fst = (orderedRows live setup).map Prod.fst := hkeys
  rw [hm']
  exact keys_orderedRows.nodup_iff.mpr h.saved_outputs

theorem uniqueBijection_eq :
    uniqueBijection (setup.map (candidateRow live)) connected =
      match Matching.completions (coversExactly connected) (orderedRows live setup) [] with
      | [] => .ok none
      | [m] => .ok (some m)
      | _ :: _ :: _ => .error () := by
  have hsearch : Matching.search (coversExactly connected) maxMappingSolutions
      (orderedRows live setup) [] [] [] = _ := Matching.search_eq _ _ _ (Nat.zero_le _)
  simp only [List.nil_append, List.map_id'] at hsearch
  unfold uniqueBijection
  change (if 1 < (Matching.search _ _ (orderedRows live setup) [] [] []).length then _ else
    Except.ok (Matching.search _ _ (orderedRows live setup) [] [] []).head?) = _
  rw [hsearch]
  cases Matching.completions (coversExactly connected) (orderedRows live setup) [] with
  | nil => rfl
  | cons m rest => cases rest <;> simp [maxMappingSolutions]

theorem nodup_completions (h : ExactEvidence setup live connected) :
    (Matching.completions (coversExactly connected) (orderedRows live setup) []).Nodup := by
  refine Matching.completions_nodup fun row hrow => ?_
  obtain ⟨f, -, rfl⟩ := mem_orderedRows.mp hrow
  refine (sortedBy_perm _).nodup_iff.mpr ?_
  exact h.live_outputs.sublist (List.filter_sublist.map _)

/-- The search returns the sole bijection of pairs taken for matches. -/
theorem uniqueBijection_iff {n : List OutputMapping} (h : ExactEvidence setup live connected) :
    (∃ m, uniqueBijection (setup.map (candidateRow live)) connected = .ok (some m) ∧
        sortedMapping m = n) ↔
      Bijection TakenForMatch setup live connected n ∧
        ∀ n', Bijection TakenForMatch setup live connected n' → n' = n := by
  have hnodup := nodup_completions h
  have hsound := fun m => bijection_of_completion (m := m) h
  have hcomplete := fun n' => exists_completion (n := n') h
  rw [uniqueBijection_eq]
  cases hall : Matching.completions (coversExactly connected) (orderedRows live setup) [] with
  | nil =>
    rw [hall] at hcomplete
    constructor
    · rintro ⟨m, hm, -⟩
      cases hm
    · rintro ⟨hn, -⟩
      obtain ⟨m, hm, -⟩ := hcomplete n hn
      cases hm
  | cons m rest =>
    cases rest with
    | nil =>
      rw [hall] at hsound hcomplete
      constructor
      · rintro ⟨m', hm', rfl⟩
        obtain rfl := Option.some.inj (Except.ok.inj hm')
        refine ⟨hsound m List.mem_cons_self, fun n' hn' => ?_⟩
        obtain ⟨m', hm', rfl⟩ := hcomplete n' hn'
        rw [List.mem_singleton.mp hm']
      · rintro ⟨hn, -⟩
        obtain ⟨m', hm', rfl⟩ := hcomplete n hn
        exact ⟨m, rfl, by rw [List.mem_singleton.mp hm']⟩
    | cons m' rest =>
      constructor
      · rintro ⟨_, hm, -⟩
        cases hm
      · rintro ⟨hn, hunique⟩
        have hm : m ∈ Matching.completions (coversExactly connected) (orderedRows live setup) [] := by
          simp [hall]
        have hm' :
            m' ∈ Matching.completions (coversExactly connected) (orderedRows live setup) [] := by
          simp [hall]
        have heq := completion_inj h hm hm'
          ((hunique _ (hsound m hm)).trans (hunique _ (hsound m' hm')).symm)
        rw [hall, heq] at hnodup
        simp at hnodup

end Completions

/-! ## Resolution -/

section Resolution

variable {profile : SavedAutorandrProfile} {live : List Fingerprint} {connected : List String}

theorem Bijection.length_eq {matched : List Char → List Char → Prop} {setup : List Fingerprint}
    {m : List OutputMapping} (h : Bijection matched setup live connected m) :
    setup.length = connected.length := by
  have hsaved := h.saved_perm.length_eq
  have hlive := h.live_perm.length_eq
  simp only [List.length_map] at hsaved hlive
  exact hsaved.symm.trans hlive

theorem Bijection.exists_candidate {setup : List Fingerprint} {m : List OutputMapping}
    (h : Bijection TakenForMatch setup live connected m) (hsaved : (setup.map (·.output)).Nodup)
    {f : Fingerprint} (hf : f ∈ setup) : (candidateRow live f).2 ≠ [] := by
  have hmem : f.output ∈ m.map (·.savedOutput) :=
    h.saved_perm.mem_iff.mpr (List.mem_map.mpr ⟨f, hf, rfl⟩)
  obtain ⟨e, he, heq⟩ := List.mem_map.mp hmem
  obtain ⟨f', hf', g, hg, hsavedOutput, -, htaken⟩ := h.pairs e he
  obtain rfl := List.inj_on_of_nodup_map hsaved hf' hf (hsavedOutput.trans heq)
  exact List.ne_nil_of_mem (mem_candidateRow.mpr ⟨g, hg, rfl, htaken⟩)

/-- The resolver returns the sole bijection of pairs which it takes for matches. -/
theorem resolveOutputMapping_iff (hsaved : (profile.setup.map (·.output)).Nodup)
    (hcomparable : Comparable profile.setup live) {m : List OutputMapping} :
    (resolveOutputMapping profile live connected).mapping = some m ↔
      ExactEvidence profile.setup live connected ∧
      Bijection TakenForMatch profile.setup live connected m ∧
      ∀ n, Bijection TakenForMatch profile.setup live connected n → n = m := by
  unfold resolveOutputMapping
  dsimp only
  by_cases hissues : (evidenceIssues profile live connected).issues = []
  · obtain ⟨hexact, -⟩ := (evidenceIssues_eq_nil hsaved).mp hissues
    obtain ⟨c, hcandidates, hc⟩ := collectCandidates_eq []
      (evidenceIssues profile live connected) hcomparable hsaved
    rw [if_neg (not_not.mpr hissues), hcandidates, List.nil_append]
    dsimp only
    by_cases hrows : c.issues = []
    · rw [if_neg (not_not.mpr hrows), ← uniqueBijection_iff hexact]
      constructor
      · intro h
        split at h
        · cases h
        · cases h
        · rename_i solution hsolution
          exact ⟨hexact, solution, hsolution, Option.some.inj h⟩
      · rintro ⟨-, solution, hsolution, rfl⟩
        rw [hsolution]
    · rw [if_pos hrows]
      constructor
      · intro h
        cases h
      · rintro ⟨-, hm, -⟩
        exact absurd (hc.mpr ⟨hissues, fun f hf => hm.exists_candidate hsaved hf⟩) hrows
  · rw [if_pos hissues]
    constructor
    · intro h
      cases h
    · rintro ⟨hexact, hm, -⟩
      exact absurd ((evidenceIssues_eq_nil hsaved).mpr ⟨hexact, hm.length_eq⟩) hissues

/-- No pair of a bijection shares characters between prefix and suffix. -/
def OverlapFree (setup live : List Fingerprint) (m : List OutputMapping) : Prop :=
  ∀ e ∈ m, ∀ f ∈ setup, ∀ g ∈ live, f.output = e.savedOutput → g.output = e.liveOutput →
    ¬ Overlapping f.value.value.toList g.value.value.toList

theorem bijection_matches_iff {setup : List Fingerprint} {m : List OutputMapping}
    (hexact : ExactEvidence setup live connected) (hcomparable : Comparable setup live) :
    Bijection Matches setup live connected m ↔
      Bijection TakenForMatch setup live connected m ∧ OverlapFree setup live m := by
  have hiff : ∀ f ∈ setup, ∀ g ∈ live, Matches f.value.value.toList g.value.value.toList ↔
      TakenForMatch f.value.value.toList g.value.value.toList ∧
        ¬ Overlapping f.value.value.toList g.value.value.toList :=
    fun f hf g hg => matches_iff (hcomparable.values g hg) (hcomparable.patterns f hf)
  constructor
  · intro h
    refine ⟨⟨h.saved_perm, h.live_perm, h.sorted, fun e he => ?_⟩, ?_⟩
    · obtain ⟨f, hf, g, hg, hsaved, hlive, hmatch⟩ := h.pairs e he
      exact ⟨f, hf, g, hg, hsaved, hlive, ((hiff f hf g hg).mp hmatch).1⟩
    · intro e he f hf g hg hsaved hlive
      obtain ⟨f', hf', g', hg', hsaved', hlive', hmatch⟩ := h.pairs e he
      obtain rfl := List.inj_on_of_nodup_map hexact.saved_outputs hf' hf (hsaved'.trans hsaved.symm)
      obtain rfl := List.inj_on_of_nodup_map hexact.live_outputs hg' hg (hlive'.trans hlive.symm)
      exact ((hiff f' hf g' hg).mp hmatch).2
  · rintro ⟨h, hfree⟩
    refine ⟨h.saved_perm, h.live_perm, h.sorted, fun e he => ?_⟩
    obtain ⟨f, hf, g, hg, hsaved, hlive, htaken⟩ := h.pairs e he
    exact ⟨f, hf, g, hg, hsaved, hlive,
      (hiff f hf g hg).mpr ⟨htaken, hfree e he f hf g hg hsaved hlive⟩⟩

/-- Strengthening a property of the sole candidate changes nothing, unless it decides between
several. -/
theorem sole_iff {α : Type} {p q : α → Prop} :
    (∀ m, (p m ∧ ∀ n, p n → n = m) ↔ ((p m ∧ q m) ∧ ∀ n, p n ∧ q n → n = m)) ↔
      (∀ m, p m → q m) ∨
        (∃ m n, p m ∧ p n ∧ m ≠ n) ∧ ¬ ∃ m, (p m ∧ q m) ∧ ∀ n, p n ∧ q n → n = m := by
  constructor
  · intro h
    by_cases hall : ∀ m, p m → q m
    · exact .inl hall
    push Not at hall
    obtain ⟨m, hm, hq⟩ := hall
    refine .inr ⟨?_, ?_⟩
    · by_contra hsole
      push Not at hsole
      exact hq (((h m).mp ⟨hm, fun n hn => hsole n m hn hm⟩).1.2)
    · rintro ⟨n, hn⟩
      have hunique := ((h n).mpr hn).2 m hm
      exact hq (hunique ▸ hn.1.2)
  · rintro (hall | ⟨⟨m, n, hm, hn, hne⟩, hnone⟩) k
    · constructor
      · rintro ⟨hk, hsole⟩
        exact ⟨⟨hk, hall k hk⟩, fun n hn => hsole n hn.1⟩
      · rintro ⟨hk, hsole⟩
        exact ⟨hk.1, fun n hn => hsole n ⟨hn, hall n hn⟩⟩
    · constructor
      · rintro ⟨hk, hsole⟩
        exact absurd ((hsole m hm).trans (hsole n hn).symm) hne
      · intro hk
        exact absurd ⟨k, hk⟩ hnone

end Resolution

/-- What the resolver returns is exact unless an overlap decides: it completes the only
bijection, or it is what makes the matching bijection look like one of several. -/
theorem resolvesExactly_iff {hexdigest : List UInt8 → HexDigest} {name : String}
    {configEvidence setupEvidence : TextCommandEvidence}
    {layoutEvidence : Option TextCommandEvidence} {r : SavedProfileResult}
    {profile : SavedAutorandrProfile}
    (hr : parseSavedProfile hexdigest name configEvidence setupEvidence layoutEvidence = some r)
    (hprofile : r.profile = some profile) {live : List Fingerprint}
    (hlive : ∀ g ∈ live, '*' ∉ g.value.value.toList) (connected : List String) :
    ResolvesExactly profile live connected ↔
      ¬ ExactEvidence profile.setup live connected ∨
      (∀ m, Bijection TakenForMatch profile.setup live connected m →
        OverlapFree profile.setup live m) ∨
      (∃ m n, Bijection TakenForMatch profile.setup live connected m ∧
          Bijection TakenForMatch profile.setup live connected n ∧ m ≠ n) ∧
        ¬ ∃ m, (Bijection TakenForMatch profile.setup live connected m ∧
            OverlapFree profile.setup live m) ∧
          ∀ n, Bijection TakenForMatch profile.setup live connected n ∧
            OverlapFree profile.setup live n → n = m := by
  have hsound := (parseSavedProfile_sound hr hprofile).setup
  have hcomparable : Comparable profile.setup live :=
    ⟨fun f hf => (hsound.accepted f hf).wildcards, hlive⟩
  unfold ResolvesExactly
  simp only [resolveOutputMapping_iff hsound.nodup hcomparable]
  by_cases hexact : ExactEvidence profile.setup live connected
  · simp only [bijection_matches_iff hexact hcomparable, hexact, true_and, not_true_eq_false,
      false_or]
    exact sole_iff
  · simp [hexact]

def plainDigest (_ : List UInt8) : HexDigest where
  value := String.ofList (List.replicate 64 '0')
  length := by simp
  digits c hc := by
    rw [String.toList_ofList] at hc
    rw [List.eq_of_mem_replicate hc]
    decide

theorem zero_le_maxCommandStatus : 0 ≤ maxCommandStatus := Nat.zero_le _

theorem failed_of_timedOut : false = true → 0 ≠ 0 := by decide

def profileFile (stdout : String) : TextCommandEvidence where
  source := .autorandrProfiles
  reference := "docked"
  stdout
  reference_bounded := by decide
  status_bounded := zero_le_maxCommandStatus
  timed_out_failed := failed_of_timedOut

def dockedOutput : Text := ⟨"DP-1", by decide⟩

/-- The result for a profile of one output, with the saved fingerprint. -/
def dockedResult (fingerprint : String) : Option SavedProfileResult :=
  parseSavedProfile plainDigest "docked" (profileFile "output DP-1\nmode 1920x1080\n")
    (profileFile ("DP-1 " ++ fingerprint ++ "\n")) none

theorem exists_profile {result : Option SavedProfileResult} {α : Type}
    {f : SavedAutorandrProfile → α} {a : α}
    (h : (result.bind (·.profile)).map f = some a) :
    ∃ r profile, result = some r ∧ r.profile = some profile ∧ f profile = a := by
  obtain ⟨profile, hprofile, ha⟩ := Option.map_eq_some_iff.mp h
  obtain ⟨r, hr, hprofile⟩ := Option.bind_eq_some_iff.mp hprofile
  exact ⟨r, profile, hr, hprofile, ha⟩

/-- The result for a profile of two outputs, the first of them with a wildcard. -/
def pairedResult : Option SavedProfileResult :=
  parseSavedProfile plainDigest "docked"
    (profileFile "output DP-1\nmode 1920x1080\noutput DP-2\nmode 1920x1080\n")
    (profileFile "DP-1 aa*ff\nDP-2 aabb\n") none

/-- What is connected: the first output has moved to another connector. -/
def pairedLive : List Fingerprint :=
  [⟨⟨"DP-2", by decide⟩, ⟨"aabb", by decide⟩⟩, ⟨⟨"DP-3", by decide⟩, ⟨"aa00ff", by decide⟩⟩]

theorem Overlapping.length_lt {pattern value : List Char} (h : Overlapping pattern value) :
    value.length + 1 < pattern.length := by
  obtain ⟨pre, suffix, rfl, -, -, hlength⟩ := h
  simp only [List.length_append, List.length_cons]
  omega

theorem resolvesExactly_paired : ∃ r profile, pairedResult = some r ∧
    r.profile = some profile ∧
    ResolvesExactly profile pairedLive ["DP-2", "DP-3"] ∧
    (resolveOutputMapping profile pairedLive ["DP-2", "DP-3"]).mapping =
      some [⟨⟨"DP-1", by decide⟩, ⟨"DP-3", by decide⟩⟩,
        ⟨⟨"DP-2", by decide⟩, ⟨"DP-2", by decide⟩⟩] := by
  have hresolved : (pairedResult.bind (·.profile)).map (fun p =>
      (p.setup.all fun f => pairedLive.all fun g =>
        f.value.value.toList.length ≤ g.value.value.toList.length + 1,
        (resolveOutputMapping p pairedLive ["DP-2", "DP-3"]).mapping)) =
      some (true, some [⟨⟨"DP-1", by decide⟩, ⟨"DP-3", by decide⟩⟩,
        ⟨⟨"DP-2", by decide⟩, ⟨"DP-2", by decide⟩⟩]) := by decide +kernel
  obtain ⟨r, profile, hr, hprofile, hresolved⟩ := exists_profile hresolved
  obtain ⟨hlong, hmapping⟩ := Prod.mk.inj hresolved
  refine ⟨r, profile, hr, hprofile, ?_, hmapping⟩
  refine (resolvesExactly_iff hr hprofile (by decide) _).mpr (.inr (.inl fun m _ e _ f hf => ?_))
  intro g hg _ _ hoverlapping
  have hle := List.all_eq_true.mp (List.all_eq_true.mp hlong f hf) g hg
  exact absurd hoverlapping.length_lt (not_lt.mpr (of_decide_eq_true hle))

/-- The prefix and the suffix of the pattern share the character in the middle. -/
theorem resolvesExactly_overlap : ∃ r profile, dockedResult "ab*ba" = some r ∧
    r.profile = some profile ∧
    ¬ ResolvesExactly profile [⟨dockedOutput, ⟨"aba", by decide⟩⟩] ["DP-1"] := by
  have hresolved : ((dockedResult "ab*ba").bind (·.profile)).map (fun p =>
      (p.setup, (resolveOutputMapping p [⟨dockedOutput, ⟨"aba", by decide⟩⟩] ["DP-1"]).mapping)) =
      some ([⟨dockedOutput, ⟨"ab*ba", by decide⟩⟩], some [⟨dockedOutput, dockedOutput⟩]) := by
    decide +kernel
  obtain ⟨r, profile, hr, hprofile, hresolved⟩ := exists_profile hresolved
  obtain ⟨hsetup, hmapping⟩ := Prod.mk.inj hresolved
  refine ⟨r, profile, hr, hprofile, fun h => ?_⟩
  obtain ⟨-, hbijection, -⟩ := (h _).mp hmapping
  obtain ⟨f, hf, g, hg, -, -, hmatch⟩ := hbijection.pairs _ List.mem_cons_self
  rw [hsetup] at hf
  obtain rfl := List.mem_singleton.mp hf
  obtain rfl := List.mem_singleton.mp hg
  have hparts : "ab*ba".toList = ['a', 'b'] ++ '*' :: ['b', 'a'] := by decide
  simp only [hparts] at hmatch
  obtain ⟨middle, hvalue⟩ := (matches_wildcard (by decide) (by decide)).mp hmatch
  have hlength := congrArg List.length hvalue
  have hshort : "aba".toList.length = 3 := by decide
  simp only [List.length_append, List.length_cons, List.length_nil, hshort] at hlength
  omega

end MonitorController
