import Mathlib.Data.String.Basic
import MonitorController.Observer.Evidence

/-! # Saved profiles

The strict parser of the two or three files of a saved profile. A profile is
returned only when nothing was reported: its setup names every output once, each
output has a block of its own, and the blocks of the setup carry what an active
output needs.
-/

namespace MonitorController

open Words

def maxProfileOutputs : Nat := 128

def maxProfileNameChars : Nat := 255

def maxOutputNameChars : Nat := 128

def maxFingerprintChars : Nat := 65536

def maxLayoutChars : Nat := 255

def unavailableFingerprintPrefix : List Char := "--CONNECTED-BUT-EDID-UNAVAILABLE--".toList

/-- `_OUTPUT_NAME`: neither a space nor a control character. -/
def outputNameChar (c : Char) : Bool := !isSpace c && 32 ≤ c.toNat && c.toNat ≠ 127

def validOutputName (value : String) : Bool :=
  !value.toList.isEmpty && value.toList.all outputNameChar && value.length ≤ maxOutputNameChars

def validProfileName (value : String) : Bool :=
  match value.toList with
  | [] => false
  | c :: rest => c.isAlphanum &&
      rest.all (fun c => c.isAlphanum || c = '.' || c = '_' || c = '+' || c = '-') &&
      value.length ≤ maxProfileNameChars

def validFingerprintValue (value : List Char) : Bool :=
  if unavailableFingerprintPrefix.isPrefixOf value then
    validOutputName (String.ofList (value.drop unavailableFingerprintPrefix.length))
  else value.all fun c => c ∈ "0123456789abcdefABCDEF*".toList

/-- `str.split()`: the words of a line. -/
def splitWords (line : List Char) : List Text :=
  (words isSpace line).pmap
    (fun word h => ⟨String.ofList word, by
      obtain ⟨c, rest, hword⟩ := List.exists_cons_of_ne_nil (Bare.ne_nil h)
      exact nonempty_of_mem (by simp [hword]) (h.clear c (by simp [hword]))⟩)
    fun _ h => bare_of_mem_words h

/-- What one line of a file gives. -/
inductive LineVerdict (α : Type) where
  | ignored
  | accepted (value : α)
  | refused (code : ParseIssueCode) (detail : String)
  | stopped (code : ParseIssueCode) (detail : String)
  deriving DecidableEq

def wildcardLimit (allowWildcard : Bool) : Nat := if allowWildcard then 1 else 0

/-- One line of `_parse_fingerprint_lines`, after the fingerprints found before it. -/
def readFingerprint (allowWildcard : Bool) (found : List Fingerprint) (line : List Char) :
    LineVerdict Fingerprint :=
  let stripped := strip isSpace line
  if stripped.isEmpty ∨ stripped.head? = some '#' then .ignored
  else
    match splitWords stripped with
    | [output, value] =>
      if ¬ validOutputName output.value then
        .refused .malformedLine "fingerprint output name is malformed"
      else if output ∈ found.map (·.output) then
        .refused .duplicate "duplicate fingerprint output"
      else if ¬ value.value.toList.all (·.toNat < 128) ∨
          maxFingerprintChars < value.value.length then
        .refused .tooLarge "fingerprint value is non-ASCII or exceeds its limit"
      else if wildcardLimit allowWildcard < value.value.toList.count '*' then
        .refused .unsupportedWildcard "fingerprint wildcard syntax is unsupported"
      else if ¬ validFingerprintValue value.value.toList then
        .refused .malformedLine "fingerprint value is not EDID/setup syntax"
      else if maxProfileOutputs ≤ found.length then
        .stopped .tooLarge
          ("fingerprints exceed the " ++ toString maxProfileOutputs ++ "-output limit")
      else .accepted ⟨output, value⟩
    | _ => .refused .malformedLine "fingerprint line must contain exactly output and fingerprint"

/-- The loop of `_parse_fingerprint_lines`. -/
def fingerprintLines (allowWildcard : Bool) :
    Nat → List (List Char) → List Fingerprint → IssueCollector → List Fingerprint × IssueCollector
  | _, [], found, c => (found, c)
  | number, line :: lines, found, c =>
    match readFingerprint allowWildcard found line with
    | .ignored => fingerprintLines allowWildcard (number + 1) lines found c
    | .accepted f => fingerprintLines allowWildcard (number + 1) lines (found ++ [f]) c
    | .refused code detail =>
      fingerprintLines allowWildcard (number + 1) lines found (c.add code detail number)
    | .stopped code detail => (found, c.add code detail number)

def parseFingerprintLines (allowWildcard : Bool) (lines : Option (List (List Char)))
    (c : IssueCollector) : List Fingerprint × IssueCollector :=
  match lines with
  | none => ([], c)
  | some lines =>
    let (found, c) := fingerprintLines allowWildcard 1 lines [] c
    (sortedBy (·.output.value) found,
      c.report found.isEmpty .missingRequired "no fingerprints found")

abbrev ProfileOption := String × Option String

/-- One output block from a profile's `config` file. -/
structure AutorandrConfigOutput where
  output : String
  options : List ProfileOption
  deriving DecidableEq

namespace AutorandrConfigOutput

def active (block : AutorandrConfigOutput) : Bool := block.options.all (·.1 ≠ "off")

def primary (block : AutorandrConfigOutput) : Bool := block.options.any (·.1 = "primary")

def mode (block : AutorandrConfigOutput) : Option String :=
  (block.options.find? (·.1 = "mode")).bind (·.2)

end AutorandrConfigOutput

/-- The local variables of `_parse_config`. -/
structure ConfigState where
  blocks : List AutorandrConfigOutput
  current : Option (String × List ProfileOption)
  outputNames : List String
  collector : IssueCollector

/-- The checks of `finish_block`. -/
def blockIssues (block : AutorandrConfigOutput) (line : Option Nat) (c : IssueCollector) :
    IssueCollector :=
  ((c.report (¬ (block.options.map (·.1)).Nodup) .duplicate
      "profile output block repeats an option" line).report
    (block.active && block.mode.isNone) .missingRequired
      "active profile output lacks a mode" line).report
    (!block.active && block.options.any fun o => o.1 = "mode" || o.1 = "primary") .inconsistent
      "off profile output carries mode or primary" line

def finishBlock (line : Option Nat) (s : ConfigState) : ConfigState :=
  match s.current with
  | none => s
  | some (output, options) =>
    { s with
      blocks := s.blocks ++ [⟨output, sortedBy (·.1) options⟩]
      current := none
      collector := blockIssues ⟨output, options⟩ line s.collector }

def readDirective (line : List Char) : Option ProfileOption :=
  let stripped := strip isSpace line
  if stripped.isEmpty ∨ stripped.head? = some '#' then none
  else (cut isSpace stripped).map fun (key, value) => (String.ofList key, value.map String.ofList)

/-- An `output` directive begins a new block. -/
def startBlock (number : Nat) (value : Option String) (s : ConfigState) : ConfigState :=
  let s := finishBlock (some number) s
  match value with
  | none =>
    { s with
      collector := s.collector.add .malformedLine "profile output directive is malformed" number }
  | some name =>
    if validOutputName name then
      { s with
        current := some (name, [])
        outputNames := s.outputNames ++ [name]
        collector := s.collector.report (name ∈ s.outputNames) .duplicate
          "duplicate profile output block" number }
    else
      { s with
        collector := s.collector.add .malformedLine "profile output directive is malformed" number }

def valuedOptions : List String := ["mode", "crtc", "pos", "rate"]

def flagOptions : List String := ["off", "primary"]

def addOption (number : Nat) (option : ProfileOption) (s : ConfigState) : ConfigState :=
  match s.current with
  | none =>
    { s with
      collector := s.collector.add .malformedLine
        "profile option appears before an output directive" number }
  | some (output, options) =>
    { s with
      current := some (output, options ++ [option])
      collector := (s.collector.report (option.1 ∈ valuedOptions && option.2.isNone) .malformedLine
          "profile option requires a value" number).report
        (option.1 ∈ flagOptions && option.2.isSome) .malformedLine
          "flag profile option cannot carry a value" number }

/-- One line of `_parse_config`. -/
def configLine (number : Nat) (line : List Char) (s : ConfigState) : ConfigState :=
  match readDirective line with
  | none => s
  | some (key, value) =>
    if key = "output" then startBlock number value s else addOption number (key, value) s

/-- The loop of `_parse_config`. -/
def configLines : Nat → List (List Char) → ConfigState → ConfigState
  | _, [], s => s
  | number, line :: lines, s => configLines (number + 1) lines (configLine number line s)

def parseConfig (lines : Option (List (List Char))) (c : IssueCollector) :
    List AutorandrConfigOutput × IssueCollector :=
  match lines with
  | none => ([], c)
  | some lines =>
    let s := finishBlock none (configLines 1 lines ⟨[], none, [], c⟩)
    ((sortedBy (·.output) s.blocks).take maxProfileOutputs,
      (s.collector.report s.blocks.isEmpty .missingRequired "profile config has no outputs").report
        (maxProfileOutputs < s.blocks.length) .tooLarge
        ("profile config exceeds the " ++ toString maxProfileOutputs ++ "-output limit"))

def parseLayout (profileName : String) (lines : Option (List (List Char))) (c : IssueCollector) :
    Option String × IssueCollector :=
  match lines with
  | none => (some profileName, c)
  | some lines =>
    match (lines.map (strip isSpace)).filter (!·.isEmpty) with
    | [value] =>
      if value.length ≤ maxLayoutChars then (some (String.ofList value), c)
      else (none, c.add .malformedLine
        "optional layout file must contain one bounded non-empty line")
    | _ => (none, c.add .malformedLine
        "optional layout file must contain one bounded non-empty line")

/-- `str.casefold`, as far as it yields a letter of an internal connector family. -/
def foldCase (c : Char) : Char := if c = 'ſ' then 's' else c.toLower

def isInternalOutput (output : String) : Bool :=
  String.ofList ((output.toList.takeWhile (· ≠ '-')).map foldCase) ∈ ["edp", "lvds", "dsi"]

def profileScope (setup : List Fingerprint) : ProfileScope :=
  let internal := setup.filter fun f => isInternalOutput f.output.value
  if internal.length = setup.length then .internalOnly
  else if internal.isEmpty then .externalOnly
  else .mixed

/-- Strict saved profile identity, topology, layout and configuration. -/
structure SavedAutorandrProfile where
  name : String
  setup : List Fingerprint
  config : List AutorandrConfigOutput
  layout : String
  scope : ProfileScope
  configurationHashes : List ConfigurationContentHash

/-- Active saved outputs which participate in setup identity. -/
def SavedAutorandrProfile.activeOutputs (p : SavedAutorandrProfile) : List String :=
  (p.config.filter fun block =>
    block.output ∈ p.setup.map (·.output.value) && block.active).map (·.output)

/-- Bounded parse result for the required and optional files. -/
structure SavedProfileResult where
  profile : Option SavedAutorandrProfile
  rawEvidence : List RawEvidenceReference
  issues : List ParseIssue

/-- The order of the references of a result. -/
def referenceOrder (a b : RawEvidenceReference) : Prop :=
  a.source.value < b.source.value ∨
    a.source.value = b.source.value ∧ a.reference.value ≤ b.reference.value

instance : DecidableRel referenceOrder := fun _ _ => inferInstanceAs (Decidable (_ ∨ _))

def profileIssues (config : List AutorandrConfigOutput) (setup : List Fingerprint)
    (c : IssueCollector) : IssueCollector :=
  ((c.reportEach setup (fun f => !decide (f.output.value ∈ config.map (·.output))) .inconsistent
      "setup output is absent from profile config").reportEach config
    (fun block => block.active && !decide (block.output ∈ setup.map (·.output.value)))
      .inconsistent "active config output lacks a setup fingerprint").report
    (1 < (config.filter fun block => block.active && block.primary).length) .inconsistent
      "profile has multiple primary outputs"

def optionalLines (evidence : Option TextCommandEvidence) (c : IssueCollector) :
    Option (List (List Char)) × IssueCollector :=
  match evidence with
  | none => (none, c)
  | some evidence => boundedLines evidence .autorandrProfiles c

/-- The blocks, the setup and the layout of the files, with everything that was reported. -/
def parseProfileFiles (name : String) (configEvidence setupEvidence : TextCommandEvidence)
    (layoutEvidence : Option TextCommandEvidence) :
    (List AutorandrConfigOutput × List Fingerprint × Option String) × IssueCollector :=
  let c := (IssueCollector.empty .autorandrProfiles).report (!validProfileName name)
    .malformedLine "profile name is malformed"
  let configLines := boundedLines configEvidence .autorandrProfiles c
  let setupLines := boundedLines setupEvidence .autorandrProfiles configLines.2
  let layoutLines := optionalLines layoutEvidence setupLines.2
  let config := parseConfig configLines.1 layoutLines.2
  let setup := parseFingerprintLines true setupLines.1 config.2
  let layout := parseLayout name layoutLines.1 setup.2
  ((config.1, setup.1, layout.1), profileIssues config.1 setup.1 layout.2)

/-- `parse_saved_profile`; it returns nothing for evidence with a blank reference. -/
def parseSavedProfile (hexdigest : List UInt8 → HexDigest) (name : String)
    (configEvidence setupEvidence : TextCommandEvidence)
    (layoutEvidence : Option TextCommandEvidence) : Option SavedProfileResult := do
  let ((config, setup, layout), c) :=
    parseProfileFiles name configEvidence setupEvidence layoutEvidence
  let references ←
    ([configEvidence, setupEvidence] ++ layoutEvidence.toList).mapM (·.rawReference hexdigest)
  let references := references.insertionSort referenceOrder
  let profile := do
    let layout ← layout
    guard (c.issues = [] ∧ config ≠ [] ∧ setup ≠ [])
    return ⟨name, setup, config, layout, profileScope setup,
      references.map fun r => ⟨r.reference, r.sha256⟩⟩
  return ⟨profile, references, c.issues⟩

end MonitorController
