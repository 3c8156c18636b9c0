import MonitorController.Foundation.Dict
import MonitorController.Foundation.Paths
import MonitorController.Observer.Profiles
import MonitorController.Transactions.Records

/-! # Materialized profiles

The application worker loads a copy of the saved profile whose outputs are
renamed to the live ones. The copy is written by one printer and read back, in
the worker, by the parser of saved profiles.
-/

namespace MonitorController

open Words Paths

/-! ## Rendering -/

/-- `AutorandrProfileMaterializationError`, and the errors of the artifact and of its encoding. -/
inductive MaterializationError where
  | malformed (message : String)
  | protocol (message : String)
  | encoding
  deriving DecidableEq, Repr

abbrev Materialized := Except MaterializationError

def insist (condition : Bool) (error : MaterializationError) : Materialized Unit :=
  if condition then .ok () else .error error

def lowerHexChar (c : Char) : Bool := c.isDigit || ('a' ≤ c && c ≤ 'f')

/-- `_ACTION_PROFILE`: the spelling of an application action. -/
def isActionProfile (value : String) : Bool :=
  let digits := value.toList.drop 12
  let number := digits.drop 33
  value.toList.take 12 = "application-".toList && (digits.take 32).length = 32 &&
    (digits.take 32).all lowerHexChar && digits[32]? = some '-' &&
    (number.head?.any fun c => '1' ≤ c && c ≤ '9') && number.all Char.isDigit

/-- `_OPTION_NAME`. -/
def isOptionName (name : String) : Bool :=
  (name.toList.head?.any Char.isLower) &&
    name.toList.all fun c => c.isLower || c.isDigit || c = '_' || c = '-'

def connectorReferenceOptions : List String := ["above", "below", "left-of", "right-of", "same-as"]

/-- `POSTSWITCH_CONTENT`: a hook which only records the enabled outputs. -/
def postswitchContent : List UInt8 := encodeText (
  "#!/bin/sh\nset -eu\n\n" ++
  "evidence=$\x7bMONITOR_CONTROLLER_AUTORANDR_POSTSWITCH_EVIDENCE:-\x7d\n" ++
  "[ -n \"$evidence\" ] || exit 0\n\n" ++
  "tmp=$evidence.$$\ntrap 'rm -f -- \"$tmp\"' EXIT HUP INT TERM\numask 077\n" ++
  "printf '%s\n' \"$\x7bAUTORANDR_MONITORS:-\x7d\" > \"$tmp\"\n" ++
  "mv -f -- \"$tmp\" \"$evidence\"\ntrap - EXIT HUP INT TERM\nexit 0\n")

/-- `TransactionArtifact`, with the checks of its constructor. -/
def makeArtifact (path : String) (content : List UInt8) (executable : Bool := false) :
    Materialized TransactionArtifact :=
  if !artifactPathCanonical path then
    .error (.protocol "transaction artifact path must be canonical below artifacts/")
  else if content.isEmpty || maxTransactionArtifactBytes < content.length then
    .error (.protocol "transaction artifact size is outside the accepted bounds")
  else .ok ⟨path, content, executable⟩

def contentHash (hexdigest : List UInt8 → HexDigest) (content : List UInt8) : String :=
  "sha256:" ++ (hexdigest content).value

/-- Canonical action profile content and its immutable transaction manifest. -/
structure MaterializedAutorandrProfile where
  sourceProfile : String
  actionProfile : String
  artifacts : List TransactionArtifact
  activeOutputs : List String
  layout : Option String
  name_valid : isActionProfile actionProfile = true
  paths_sorted : SortedUniqueKeys (artifacts.map (·.relativePath))

namespace MaterializedAutorandrProfile

variable (m : MaterializedAutorandrProfile)

def content (name : String) : Option (List UInt8) :=
  (m.artifacts.reverse.find? fun artifact => lastComponent artifact.relativePath = name).map
    (·.content)

/-- The closed hash manifest embedded in the immutable request. -/
def payload (hexdigest : List UInt8 → HexDigest) : Option (List (String × PayloadValue)) := do
  let config ← m.content "config"
  let postswitch ← m.content "postswitch"
  let setup ← m.content "setup"
  return [("action_profile", .text m.actionProfile),
    ("config_sha256", .text (contentHash hexdigest config)),
    ("layout_sha256",
      ((m.content "layout").map fun c => PayloadValue.text (contentHash hexdigest c)).getD .null),
    ("postswitch_sha256", .text (contentHash hexdigest postswitch)),
    ("setup_sha256", .text (contentHash hexdigest setup))]

end MaterializedAutorandrProfile

def profileRoot (actionProfile : String) : String :=
  "artifacts/xdg-config/autorandr/" ++ actionProfile

section Rendering

-- Python's `repr` of a text, which the messages quote
variable (quoted : String → String)

def mappingBySaved (mapping : List OutputMapping) : Dict String String :=
  mapping.map fun e => (e.savedOutput.value, e.liveOutput.value)

def validateCompleteMapping (profile : SavedAutorandrProfile) (mapping : List OutputMapping) :
    Materialized (Dict String String) :=
  let saved := mapping.map (·.savedOutput)
  let live := mapping.map (·.liveOutput)
  let setupOutputs := profile.setup.map (·.output)
  if ¬ SortedUniqueKeys (mapping.map (·.key)) then
    .error (.malformed "admitted output mapping must be sorted and unique")
  else if ¬ setupOutputs.Nodup ∨ ¬ (saved ⊆ setupOutputs ∧ setupOutputs ⊆ saved) ∨ ¬ saved.Nodup ∨
      ¬ live.Nodup ∨ (saved ++ live).any fun output => !validOutputName output.value then
    .error (.malformed "admitted mapping is not an exact saved-setup-to-live bijection")
  else .ok (mappingBySaved mapping)

def validateOption (option : ProfileOption) : Materialized Unit :=
  if !isOptionName option.1 then
    .error (.malformed ("saved autorandr option name is malformed: " ++ quoted option.1))
  else if option.2.any fun value => value.toList.isEmpty ||
      value.toList.any (fun c => c = '\x00' || c = '\r' || c = '\n') ||
      value.toList.any (·.toNat < 32) then
    .error (.malformed ("saved autorandr option value is malformed: " ++ quoted option.1))
  else .ok ()

def mappedOptionValue (liveOutput : String) (bySaved : Dict String String)
    (option : ProfileOption) : Materialized (Option String) :=
  if option.1 ∉ connectorReferenceOptions then .ok option.2
  else
    match option.2 with
    | none =>
      .error (.malformed ("saved autorandr connector reference is malformed: " ++ quoted option.1))
    | some value =>
      if !validOutputName value then
        .error (.malformed
          ("saved autorandr connector reference is malformed: " ++ quoted option.1))
      else
        match bySaved.get? value with
        | none =>
          .error (.malformed ("saved autorandr connector reference is unmapped: " ++ quoted value))
        | some mapped =>
          if mapped = liveOutput then
            .error (.malformed
              ("saved autorandr connector reference is self-referential: " ++ quoted value))
          else .ok (some mapped)

def renderOptions (liveOutput : String) (bySaved : Dict String String) :
    List ProfileOption → Materialized (List ProfileOption)
  | [] => .ok []
  | option :: options => do
    let value ← mappedOptionValue quoted liveOutput bySaved option
    let rest ← renderOptions liveOutput bySaved options
    return (option.1, value) :: rest

/-- The blocks of the copy, in the order of the saved outputs. -/
def renderBlocks (config : List AutorandrConfigOutput) (bySaved : Dict String String) :
    List (String × String) → Materialized (List AutorandrConfigOutput)
  | [] => .ok []
  | (savedOutput, liveOutput) :: entries =>
    match config.find? (·.output = savedOutput) with
    | none =>
      .error (.malformed ("saved setup output " ++ quoted savedOutput ++ " has no config block"))
    | some block => do
      let options ← renderOptions quoted liveOutput bySaved block.options
      let rest ← renderBlocks config bySaved entries
      return ⟨liveOutput, options⟩ :: rest

def blockLines (block : AutorandrConfigOutput) : List (List Char) :=
  optionLine ("output", some block.output) :: block.options.map optionLine

/-- The text of the `config` file. -/
def configText (blocks : List AutorandrConfigOutput) : String :=
  String.ofList ((['\n'].intercalate (blocks.map fun block => ['\n'].intercalate (blockLines block)))
    ++ ['\n'])

/-- The text of the `setup` file. -/
def setupText (setup : List Fingerprint) (bySaved : Dict String String) : String :=
  String.ofList ((sortedBy Prod.fst bySaved).flatMap fun (saved, live) =>
    live.toList ++ ' ' :: (((setup.find? (·.output.value = saved)).map
      (·.value.value.toList)).getD []) ++ ['\n'])

def profileHasLayoutFile (profile : SavedAutorandrProfile) : Bool :=
  profile.configurationHashes.any fun item => lastComponent item.path.value = "layout"

def validateLayout (layout : String) : Materialized Unit :=
  if layout.toList.isEmpty ∨ layout.toList.all isSpace ∨
      layout.toList.any (fun c => c = '\x00' || c = '\r' || c = '\n') then
    .error (.malformed "saved autorandr layout metadata is malformed")
  else .ok ()

/-- The artifact of the layout, where the profile has a layout file. -/
def layoutArtifact (root : String) : Option String → Materialized (List TransactionArtifact)
  | none => .ok []
  | some layout => do
    validateLayout layout
    let artifact ← makeArtifact (root ++ "/layout") (encodeText (layout ++ "\n"))
    return [artifact]

/-- The constructor of `MaterializedAutorandrProfile`. -/
def makeMaterialized (sourceProfile actionProfile : String) (artifacts : List TransactionArtifact)
    (activeOutputs : List String) (layout : Option String) :
    Materialized MaterializedAutorandrProfile :=
  if hname : isActionProfile actionProfile = true then
    if hpaths : SortedUniqueKeys (artifacts.map (·.relativePath)) then
      .ok ⟨sourceProfile, actionProfile, artifacts, activeOutputs, layout, hname, hpaths⟩
    else .error (.malformed "materialized autorandr artifact paths are not sorted and unique")
  else .error (.malformed "materialized autorandr action profile name is malformed")

def materializeAutorandrProfile (profile : SavedAutorandrProfile) (mapping : List OutputMapping)
    (actionProfile : String) : Materialized MaterializedAutorandrProfile := do
  insist (isActionProfile actionProfile)
    (.malformed "autorandr action profile must equal a canonical application action ID")
  let bySaved ← validateCompleteMapping profile mapping
  insist (profile.config.map (·.output)).Nodup
    (.malformed "saved autorandr profile has duplicate config outputs")
  profile.config.forM fun block => block.options.forM (validateOption quoted)
  let blocks ← renderBlocks quoted profile.config bySaved (sortedBy Prod.fst bySaved)
  let setupContent := setupText profile.setup bySaved
  insist (setupContent.toList.all (·.toNat < 128)) .encoding
  let root := profileRoot actionProfile
  let config ← makeArtifact (root ++ "/config") (encodeText (configText blocks))
  let layout := if profileHasLayoutFile profile then some profile.layout else none
  let layoutArtifacts ← layoutArtifact root layout
  let postswitch ← makeArtifact (root ++ "/postswitch") postswitchContent true
  let setup ← makeArtifact (root ++ "/setup") (encodeText setupContent)
  let activeOutputs := sortedBy id ((profile.config.filter (·.active)).filterMap fun block =>
    bySaved.get? block.output)
  makeMaterialized profile.name actionProfile
    (sortedBy (·.relativePath) ([config] ++ layoutArtifacts ++ [postswitch, setup]))
    activeOutputs layout

end Rendering

end MonitorController
