import Mathlib.Algebra.Order.BigOperators.Group.List
import MonitorController.Observer.Mapping
import MonitorController.Workers.Materialized

/-! # The application worker's profile

Before it loads a profile the worker reads the immutable artifacts of its
request, compares them with the hashes which the request binds, and parses them
again. Whatever was materialized for the request passes.
-/

namespace MonitorController

open Words Paths

/-- `WorkerStartupError`, and the errors which the check does not expect. -/
inductive ApplyError where
  | startup (message : String)
  | materialization (error : MaterializationError)
  | value (message : String)

abbrev Applied := Except ApplyError

def stale {α : Type} (detail : String) : Applied α := .error (.startup detail)

def applicationPayloadFields : List String :=
  ["action_profile", "config_sha256", "layout_sha256", "postswitch_sha256", "setup_sha256"]

def profileArtifactPath (actionProfile name : String) : Applied String :=
  if !isActionProfile actionProfile then
    .error (.materialization (.malformed "request action profile name is malformed"))
  else if name ∉ ["config", "layout", "postswitch", "setup"] then
    .error (.materialization
      (.malformed "request autorandr artifact name is outside the closed manifest"))
  else .ok (profileRoot actionProfile ++ "/" ++ name)

def artifactHashMatches (hexdigest : List UInt8 → HexDigest) (content : List UInt8)
    (expected : String) : Bool :=
  expected.toList.take 7 = "sha256:".toList && (expected.toList.drop 7).length = 64 &&
    (expected.toList.drop 7).all lowerHexChar && contentHash hexdigest content = expected

/-! ## The artifact tree of the action -/

/-- `read_artifact` of an action whose artifact tree holds these files. -/
def readArtifactOf (tree : List TransactionArtifact) (path : String) (executable : Bool) :
    Stored (List UInt8) :=
  match (tree.find? (·.relativePath = path)).filter (·.executable = executable) with
  | none => .error .fileNotFound
  | some artifact => .ok artifact.content

/-- `_validate_artifacts_at`: one file of the manifest. -/
def validateArtifactOf (tree : List TransactionArtifact) (artifact : TransactionArtifact) :
    Stored Unit := do
  let content ← readArtifactOf tree artifact.relativePath artifact.executable
  if content = artifact.content then .ok ()
  else .error (.immutable ("transaction artifact " ++ artifact.relativePath ++ " changed"))

/-- `validate_artifacts`: the artifact tree is exactly the manifest. -/
def validateArtifactsOf (tree artifacts : List TransactionArtifact) : Stored Unit := do
  let artifacts ← validatedArtifacts artifacts
  if tree.map (·.relativePath) ≠ artifacts.map (·.relativePath) then
    .error (.protocol "transaction artifact tree differs from its exact manifest")
  else artifacts.forM (validateArtifactOf tree)

/-! ## The check -/

def ParseIssueCode.value : ParseIssueCode → String
  | .tooLarge => "too_large"
  | .commandFailed => "command_failed"
  | .commandTimedOut => "command_timed_out"
  | .malformedLine => "malformed_line"
  | .duplicate => "duplicate"
  | .missingRequired => "missing_required"
  | .inconsistent => "inconsistent"
  | .unsupportedWildcard => "unsupported_wildcard"
  | .topologyMismatch => "topology_mismatch"
  | .unmatched => "unmatched"
  | .collision => "collision"
  | .ambiguous => "ambiguous"

section Check

-- Python's texts of a quoted name and of a store error
variable (quoted : String → String) (described : StoreError → String)
  (hexdigest : List UInt8 → HexDigest)

def payloadText (request : RequestBody) (name : String) : Applied String :=
  match request.payload.find? (·.1 = name) with
  | none => stale ("request payload has no " ++ quoted name ++ " field")
  | some (_, .text value) =>
    if value = "" then stale ("worker request " ++ name ++ " is not non-empty text") else .ok value
  | some _ => stale ("worker request " ++ name ++ " is not non-empty text")

/-- The content of one artifact, or the refusal to go on without it. -/
def readProfileArtifact (tree : List TransactionArtifact) (name path : String)
    (executable : Bool) : Applied (List UInt8) :=
  match readArtifactOf tree path executable with
  | .error error => stale ("cannot read immutable " ++ name ++ " artifact: " ++ described error)
  | .ok content => .ok content

def checkArtifactHash (name : String) (content : List UInt8) (digest : String) : Applied Unit :=
  if artifactHashMatches hexdigest content digest then .ok ()
  else stale ("materialized autorandr " ++ name ++ " content hash changed")

def requiredArtifact (request : RequestBody) (tree : List TransactionArtifact)
    (actionProfile name : String) : Applied TransactionArtifact := do
  let executable := name = "postswitch"
  let path ← profileArtifactPath actionProfile name
  let content ← readProfileArtifact described tree name path executable
  let digest ← payloadText quoted request (name ++ "_sha256")
  checkArtifactHash hexdigest name content digest
  return ⟨path, content, executable⟩

def optionalLayout (tree : List TransactionArtifact) (actionProfile : String) :
    Option PayloadValue → Applied (Option TransactionArtifact)
  | none | some .null => .ok none
  | some (.text digest) => do
    let path ← profileArtifactPath actionProfile "layout"
    let content ← readProfileArtifact described tree "layout" path false
    checkArtifactHash hexdigest "layout" content digest
    return some ⟨path, content, false⟩
  | some _ => stale "materialized autorandr layout hash is not text or null"

def profileEvidence (actionProfile name : String) (content : List UInt8) :
    Applied TextCommandEvidence :=
  match decodeText content with
  | none => stale "materialized autorandr artifact validation failed: content is not UTF-8"
  | some stdout =>
    let reference := "transaction:" ++ actionProfile ++ "/" ++ name
    if h : reference ≠ "" ∧ reference.length ≤ maxReferenceChars then
      .ok { source := .autorandrProfiles, reference, stdout, reference_bounded := h }
    else .error (.value "command evidence reference must be bounded and non-empty")

def layoutEvidence (actionProfile : String) :
    Option TransactionArtifact → Applied (Option TextCommandEvidence)
  | none => .ok none
  | some layout => do
    let evidence ← profileEvidence actionProfile "layout" layout.content
    return some evidence

/-- The manifest of the artifacts which were read, in the order of their paths. -/
def readManifest (config setup postswitch : TransactionArtifact)
    (layout : Option TransactionArtifact) : List TransactionArtifact :=
  sortedBy (·.relativePath) ([config, setup, postswitch] ++ layout.toList)

def checkParsedProfile (request : RequestBody) (parsed : SavedProfileResult) :
    Applied SavedAutorandrProfile :=
  match parsed.profile, parsed.issues with
  | some profile, [] =>
    let mappedLive : List String := request.outputMapping.map (·.liveOutput.value)
    let setupOutputs : List String := profile.setup.map (·.output.value)
    let configOutputs : List String := profile.config.map (·.output)
    if mappedLive ⊆ setupOutputs ∧ setupOutputs ⊆ mappedLive ∧ setupOutputs ⊆ configOutputs ∧
        configOutputs ⊆ setupOutputs then .ok profile
    else stale "materialized config/setup do not equal the admitted live bijection"
  | _, issues =>
    stale ("materialized autorandr profile grammar is invalid: " ++
      String.intercalate "," (issues.map (·.code.value)))

def validateMaterializedProfile (request : RequestBody) (tree : List TransactionArtifact) :
    Applied SavedAutorandrProfile := do
  let names := request.payload.map (·.1)
  if ¬ (names ⊆ applicationPayloadFields ∧ applicationPayloadFields ⊆ names) then
    stale "application request artifact manifest differs from the closed protocol"
  else
    let actionProfile ← payloadText quoted request "action_profile"
    if actionProfile ≠ request.actionId.value then
      stale "application action profile differs from its action ID"
    else
      let config ← requiredArtifact quoted described hexdigest request tree actionProfile "config"
      let setup ← requiredArtifact quoted described hexdigest request tree actionProfile "setup"
      let postswitch ←
        requiredArtifact quoted described hexdigest request tree actionProfile "postswitch"
      let layout ← optionalLayout described hexdigest tree actionProfile
        ((request.payload.reverse.find? (·.1 = "layout_sha256")).map (·.2))
      if postswitch.content ≠ postswitchContent then
        stale "materialized postswitch is not the controller no-op evidence hook"
      else
        match validateArtifactsOf tree (readManifest config setup postswitch layout) with
        | .error error =>
          stale ("materialized autorandr artifact validation failed: " ++ described error)
        | .ok () =>
          let configEvidence ← profileEvidence actionProfile "config" config.content
          let setupEvidence ← profileEvidence actionProfile "setup" setup.content
          let layoutEvidence ← layoutEvidence actionProfile layout
          match parseSavedProfile hexdigest actionProfile configEvidence setupEvidence
              layoutEvidence with
          | none => .error (.value "raw evidence reference must not be empty")
          | some parsed => checkParsedProfile request parsed

end Check

/-! ## Names of action profiles -/

theorem isAlphanum_of_lowerHexChar {c : Char} (h : lowerHexChar c = true) :
    c.isAlphanum = true := by
  unfold lowerHexChar at h
  simp only [Bool.or_eq_true, Bool.and_eq_true, decide_eq_true_eq, Char.le_def] at h
  unfold Char.isAlphanum Char.isAlpha Char.isUpper Char.isLower Char.isDigit
  unfold Char.isDigit at h
  simp only [Bool.or_eq_true, Bool.and_eq_true, decide_eq_true_eq, ge_iff_le,
    UInt32.le_iff_toNat_le] at h ⊢
  simp at h ⊢
  omega

/-- An action profile is spelled with letters, digits and dashes, a letter first. -/
theorem chars_of_isActionProfile {name : String} (h : isActionProfile name = true) :
    (∃ rest, name.toList = 'a' :: rest) ∧
      ∀ c ∈ name.toList, c.isAlphanum = true ∨ c = '-' := by
  unfold isActionProfile at h
  simp only [Bool.and_eq_true, decide_eq_true_eq] at h
  obtain ⟨⟨⟨⟨⟨hhead, -⟩, hhex⟩, hdash⟩, -⟩, hnumber⟩ := h
  have hsplit : name.toList = "application-".toList ++ (((name.toList.drop 12).take 32) ++
      '-' :: (name.toList.drop 12).drop 33) := by
    obtain ⟨hlt, hget⟩ := List.getElem?_eq_some_iff.mp hdash
    rw [← hget, List.cons_getElem_drop_succ, List.take_append_drop, ← hhead,
      List.take_append_drop]
  rw [hsplit]
  constructor
  · exact ⟨_, rfl⟩
  · intro c hc
    rcases List.mem_append.mp hc with hc | hc
    · have hletters : ("application-".toList.all fun c => c.isAlphanum || c = '-') = true := by
        decide
      simpa using List.all_eq_true.mp hletters c hc
    rcases List.mem_append.mp hc with hc | hc
    · exact .inl (isAlphanum_of_lowerHexChar (List.all_eq_true.mp hhex c hc))
    rcases List.mem_cons.mp hc with rfl | hc
    · exact .inr rfl
    · refine .inl ?_
      have hdigit := List.all_eq_true.mp hnumber c hc
      simp [Char.isAlphanum, hdigit]

theorem validProfileName_of_isActionProfile {name : String} (h : isActionProfile name = true)
    (hlength : name.length ≤ maxProfileNameChars) : validProfileName name = true := by
  obtain ⟨⟨rest, hrest⟩, hchars⟩ := chars_of_isActionProfile h
  unfold validProfileName
  rw [hrest] at hchars ⊢
  simp only [Bool.and_eq_true, List.all_eq_true, decide_eq_true_eq]
  refine ⟨⟨by decide, fun c hc => ?_⟩, hlength⟩
  rcases hchars c (List.mem_cons_of_mem _ hc) with halnum | rfl
  · simp [halnum]
  · decide

theorem length_of_canonical {name : String} (file : String) (h : isActionProfile name = true)
    (hcanonical : artifactPathCanonical (profileRoot name ++ "/" ++ file) = true) :
    name.length ≤ maxProfileNameChars := by
  have hslash : '/' ∉ name.toList := by
    intro hmem
    rcases (chars_of_isActionProfile h).2 _ hmem with halnum | hdash
    · exact absurd halnum (by decide)
    · exact absurd hdash (by decide)
  have hslashes : "artifacts/xdg-config/autorandr/".toList =
      "artifacts/xdg-config/autorandr".toList ++ ['/'] := by decide
  have hslashText : "/".toList = ['/'] := by decide
  have hpath : String.ofList ("artifacts/xdg-config/autorandr/".toList ++ name.toList ++
      '/' :: file.toList) = profileRoot name ++ "/" ++ file := by
    apply String.toList_inj.mp
    rw [String.toList_ofList]
    unfold profileRoot
    rw [String.toList_append, String.toList_append, String.toList_append, hslashText,
      List.append_assoc _ ['/'], List.singleton_append]
  have hmem := mem_splitOn hslash (.inr ⟨_, hslashes⟩) (.inr ⟨file.toList, rfl⟩)
  rw [hpath, String.ofList_toList] at hmem
  unfold artifactPathCanonical at hcanonical
  simp only [Bool.and_eq_true, List.all_eq_true, decide_eq_true_eq] at hcanonical
  exact (hcanonical.2 _ hmem).2

/-! ## The artifacts of a materialized profile -/

section Artifacts

variable {profile : SavedAutorandrProfile} {mapping : List OutputMapping}
  {saved : List AutorandrConfigOutput} {m : MaterializedAutorandrProfile}

theorem path_file (actionProfile : String) {file path : String} (h : path = "/" ++ file) :
    profileRoot actionProfile ++ path = profileRoot actionProfile ++ "/" ++ file := by
  rw [h, String.append_assoc]

theorem lastComponent_path (actionProfile : String) {file path : String} (h : path = "/" ++ file)
    (hfile : '/' ∉ file.toList) : lastComponent (profileRoot actionProfile ++ path) = file := by
  rw [path_file actionProfile h]
  exact lastComponent_append hfile _

theorem MaterializedFrom.content (h : MaterializedFrom profile mapping saved m) :
    m.content "config" = some (encodeText (configText (saved.map (renamedBlock mapping)))) ∧
      m.content "setup" =
        some (encodeText (setupText profile.setup (mappingBySaved mapping))) ∧
      m.content "postswitch" = some postswitchContent ∧
      m.content "layout" = m.layout.map fun layout => encodeText (layout ++ "\n") := by
  have hconfig : lastComponent (profileRoot m.actionProfile ++ "/config") = "config" :=
    lastComponent_path _ (by decide) (by decide)
  have hlayout : lastComponent (profileRoot m.actionProfile ++ "/layout") = "layout" :=
    lastComponent_path _ (by decide) (by decide)
  have hpostswitch : lastComponent (profileRoot m.actionProfile ++ "/postswitch") = "postswitch" :=
    lastComponent_path _ (by decide) (by decide)
  have hsetup : lastComponent (profileRoot m.actionProfile ++ "/setup") = "setup" :=
    lastComponent_path _ (by decide) (by decide)
  unfold MaterializedAutorandrProfile.content
  rw [h.artifacts]
  cases m.layout <;> simp [profileArtifacts, hconfig, hlayout, hpostswitch, hsetup]

theorem readArtifactOf_mem {artifact : TransactionArtifact} (h : artifact ∈ m.artifacts) :
    readArtifactOf m.artifacts artifact.relativePath artifact.executable = .ok artifact.content := by
  have hnodup : (m.artifacts.map (·.relativePath)).Nodup :=
    m.paths_sorted.imp fun h => h.ne
  have hfind : m.artifacts.find? (·.relativePath = artifact.relativePath) = some artifact := by
    refine find?_of_unique h (by simp) fun other hother heq => ?_
    exact List.inj_on_of_nodup_map hnodup hother h (by simpa using heq)
  unfold readArtifactOf
  rw [hfind, Option.filter_some, if_pos (by simp)]

/-- The published tree is its own manifest. -/
theorem MaterializedFrom.validateArtifacts (h : MaterializedFrom profile mapping saved m) :
    validateArtifactsOf m.artifacts m.artifacts = .ok () := by
  have hsorted : m.artifacts.Pairwise fun a b => a.relativePath < b.relativePath :=
    List.pairwise_map.mp m.paths_sorted
  have hmerge : m.artifacts.mergeSort (fun a b => a.relativePath ≤ b.relativePath) = m.artifacts :=
    List.mergeSort_of_pairwise (hsorted.imp fun h => decide_eq_true h.le)
  have hcount : m.artifacts.length ≤ 4 := by
    rw [h.artifacts]
    unfold profileArtifacts
    cases m.layout <;> simp
  have htotal : (m.artifacts.map (·.content.length)).sum ≤ maxTransactionArtifactTotalBytes := by
    have hbound := List.sum_le_card_nsmul (m.artifacts.map (·.content.length))
      maxTransactionArtifactBytes (by simpa using fun a ha => (h.canonical a ha).2.2)
    rw [List.length_map, Nat.nsmul_eq_mul] at hbound
    have hfour := Nat.mul_le_mul_right maxTransactionArtifactBytes hcount
    exact (hbound.trans hfour).trans (by decide)
  have hnodup : (m.artifacts.map (·.relativePath)).Nodup := m.paths_sorted.imp fun h => h.ne
  have hvalidated : validatedArtifacts m.artifacts = .ok m.artifacts := by
    have hpaths : m.artifacts.any (fun item => !artifactPathCanonical item.relativePath) = false :=
      List.any_eq_false.mpr fun a ha => by simp [(h.canonical a ha).1]
    have hsizes : m.artifacts.any (fun item =>
        item.content.isEmpty || maxTransactionArtifactBytes < item.content.length) = false :=
      List.any_eq_false.mpr fun a ha => by
        have hcanonical := h.canonical a ha
        simp [hcanonical.2.1, hcanonical.2.2]
    unfold validatedArtifacts
    rw [hpaths, hsizes, hmerge]
    dsimp only
    rw [if_neg (by simp), if_neg (by simp), if_neg (by unfold maxTransactionArtifacts; omega),
      if_neg (not_not.mpr hnodup), if_neg (by omega)]
  have hall : ∀ artifacts : List TransactionArtifact, artifacts ⊆ m.artifacts →
      artifacts.forM (validateArtifactOf m.artifacts) = .ok () := by
    intro artifacts hsub
    induction artifacts with
    | nil => rfl
    | cons artifact artifacts ih =>
      have hread := readArtifactOf_mem (hsub List.mem_cons_self)
      have hartifact : validateArtifactOf m.artifacts artifact = .ok () := by
        unfold validateArtifactOf
        rw [hread, Outcome.ok_bind, if_pos rfl]
      change (validateArtifactOf m.artifacts artifact >>= fun _ =>
        artifacts.forM (validateArtifactOf m.artifacts)) = _
      rw [hartifact, Outcome.ok_bind]
      exact ih fun a ha => hsub (List.mem_cons_of_mem _ ha)
  unfold validateArtifactsOf
  rw [hvalidated, Outcome.ok_bind, if_neg (by simp)]
  exact hall _ fun _ ha => ha

theorem artifactHashMatches_contentHash (hexdigest : List UInt8 → HexDigest)
    (content : List UInt8) :
    artifactHashMatches hexdigest content (contentHash hexdigest content) = true := by
  have hchars : (contentHash hexdigest content).toList =
      "sha256:".toList ++ (hexdigest content).value.toList := String.toList_append
  have hlength : "sha256:".toList.length = 7 := by decide
  have hdigits : "0123456789abcdef".toList.all lowerHexChar = true := by decide
  unfold artifactHashMatches
  rw [hchars, ← hlength, List.take_left, List.drop_left]
  simp only [decide_true, Bool.true_and, Bool.and_true, Bool.and_eq_true, decide_eq_true_eq,
    List.all_eq_true]
  exact ⟨(hexdigest content).length, fun c hc =>
    List.all_eq_true.mp hdigits c ((hexdigest content).digits c hc)⟩

/-- The request binds the hashes of the published files. -/
structure BindsArtifacts (hexdigest : List UInt8 → HexDigest) (m : MaterializedAutorandrProfile)
    (mapping : List OutputMapping) (request : RequestBody) : Prop where
  action : request.actionId.value = m.actionProfile
  payload : m.payload hexdigest = some request.payload
  mapping : request.outputMapping = mapping

theorem MaterializedFrom.payload_eq {hexdigest : List UInt8 → HexDigest} {request : RequestBody}
    (h : MaterializedFrom profile mapping saved m)
    (hrequest : BindsArtifacts hexdigest m mapping request) :
    request.payload = [("action_profile", .text m.actionProfile),
      ("config_sha256", .text (contentHash hexdigest
        (encodeText (configText (saved.map (renamedBlock mapping)))))),
      ("layout_sha256", ((m.layout.map fun layout => encodeText (layout ++ "\n")).map fun c =>
        PayloadValue.text (contentHash hexdigest c)).getD .null),
      ("postswitch_sha256", .text (contentHash hexdigest postswitchContent)),
      ("setup_sha256", .text (contentHash hexdigest
        (encodeText (setupText profile.setup (mappingBySaved mapping)))))] := by
  obtain ⟨hconfig, hsetup, hpostswitch, hlayout⟩ := h.content
  have hpayload := hrequest.payload
  unfold MaterializedAutorandrProfile.payload at hpayload
  rw [hconfig, hsetup, hpostswitch, hlayout] at hpayload
  exact (Option.some.inj hpayload).symm

theorem contentHash_ne_empty (hexdigest : List UInt8 → HexDigest) (content : List UInt8) :
    contentHash hexdigest content ≠ "" := by
  intro hempty
  have hchars := congrArg String.toList hempty
  rw [contentHash, String.toList_append] at hchars
  simp at hchars

theorem requiredArtifact_ok {quoted : String → String} {described : StoreError → String}
    {hexdigest : List UInt8 → HexDigest} {request : RequestBody} {name path : String}
    {artifact : TransactionArtifact} (hartifact : artifact ∈ m.artifacts)
    (hname : name ∈ ["config", "layout", "postswitch", "setup"]) (hpath : path = "/" ++ name)
    (hrelative : artifact.relativePath = profileRoot m.actionProfile ++ path)
    (hexecutable : artifact.executable = decide (name = "postswitch"))
    (hpayload : request.payload.find? (·.1 = name ++ "_sha256") =
      some (name ++ "_sha256", .text (contentHash hexdigest artifact.content))) :
    requiredArtifact quoted described hexdigest request m.artifacts m.actionProfile name =
      .ok artifact := by
  have hread := readArtifactOf_mem hartifact
  rw [hrelative, hexecutable, path_file _ hpath] at hread
  have hdigest : payloadText quoted request (name ++ "_sha256") =
      .ok (contentHash hexdigest artifact.content) := by
    unfold payloadText
    rw [hpayload]
    dsimp only
    rw [if_neg (contentHash_ne_empty _ _)]
  unfold requiredArtifact profileArtifactPath readProfileArtifact checkArtifactHash
  rw [if_neg (by simp [m.name_valid]), if_neg (not_not.mpr hname), Outcome.ok_bind, hread]
  dsimp only
  rw [Outcome.ok_bind, hdigest, Outcome.ok_bind, artifactHashMatches_contentHash, if_pos rfl,
    Outcome.ok_bind, ← hexecutable, ← path_file _ hpath, ← hrelative]
  rfl

theorem optionalLayout_ok {described : StoreError → String} {hexdigest : List UInt8 → HexDigest}
    (h : MaterializedFrom profile mapping saved m) :
    optionalLayout described hexdigest m.artifacts m.actionProfile
        (some (((m.layout.map fun layout => encodeText (layout ++ "\n")).map fun c =>
          PayloadValue.text (contentHash hexdigest c)).getD .null)) =
      .ok (m.layout.map fun layout =>
        ⟨profileRoot m.actionProfile ++ "/layout", encodeText (layout ++ "\n"), false⟩) := by
  cases hlayout : m.layout with
  | none => rfl
  | some layout =>
    have hread := readArtifactOf_mem (h.mem_artifacts.2.2 layout hlayout)
    have hpath : profileRoot m.actionProfile ++ "/" ++ "layout" =
        profileRoot m.actionProfile ++ "/layout" := (path_file _ (by decide)).symm
    simp only [Option.map_some, Option.getD_some]
    unfold optionalLayout profileArtifactPath readProfileArtifact checkArtifactHash
    dsimp only
    rw [if_neg (by simp [m.name_valid]), if_neg (by decide), Outcome.ok_bind, hpath, hread]
    dsimp only
    rw [Outcome.ok_bind, artifactHashMatches_contentHash, if_pos rfl, Outcome.ok_bind]
    rfl

theorem profileEvidence_ok {actionProfile : String} (name text : String)
    (hlength : actionProfile.length ≤ maxProfileNameChars) (hname : name.length ≤ 10) :
    ∃ evidence, profileEvidence actionProfile name (encodeText text) = .ok evidence ∧
      Captured evidence text := by
  have htransaction : "transaction:".length = 12 := by decide
  have hslash : "/".length = 1 := by decide
  have hbounds : "transaction:" ++ actionProfile ++ "/" ++ name ≠ "" ∧
      ("transaction:" ++ actionProfile ++ "/" ++ name).length ≤ maxReferenceChars := by
    unfold maxProfileNameChars at hlength
    unfold maxReferenceChars
    constructor
    · intro hempty
      have hzero := congrArg String.length hempty
      simp only [String.length_append, htransaction] at hzero
      simp at hzero
    · simp only [String.length_append, htransaction, hslash]
      omega
  unfold profileEvidence
  rw [decodeText_encodeText]
  dsimp only
  rw [dif_pos hbounds]
  refine ⟨_, rfl, rfl, rfl, rfl, rfl, nonempty_of_mem (c := 't') ?_ (by decide)⟩
  have hmem : 't' ∈ "transaction:".toList := by decide
  simp only [String.toList_append, List.mem_append]
  exact .inl (.inl (.inl hmem))

theorem layoutEvidence_ok (hlength : m.actionProfile.length ≤ maxProfileNameChars) :
    ∃ evidence, layoutEvidence m.actionProfile (m.layout.map fun layout =>
        ⟨profileRoot m.actionProfile ++ "/layout", encodeText (layout ++ "\n"), false⟩) =
      .ok evidence ∧ CapturedLayout m evidence := by
  unfold CapturedLayout
  cases m.layout with
  | none => exact ⟨none, rfl, by rintro e ⟨⟩⟩
  | some layout =>
    obtain ⟨evidence, hevidence, hcaptured⟩ := profileEvidence_ok "layout"
      (layout ++ "\n") hlength (by decide)
    refine ⟨some evidence, ?_, ?_⟩
    · unfold layoutEvidence
      dsimp only [Option.map_some]
      rw [hevidence]
      rfl
    · rintro e ⟨⟩
      exact ⟨layout, rfl, hcaptured⟩

/-- The parsed copy has the outputs which the request maps to. -/
theorem checkParsedProfile_ok {request : RequestBody} {parsed : SavedProfileResult}
    {copy : SavedAutorandrProfile} (h : CompleteMapping profile mapping)
    (hrequest : request.outputMapping = mapping) (hcopy : parsed.profile = some copy)
    (hissues : parsed.issues = []) (hread : ReadBack profile mapping m copy)
    (houtputs : ∀ output, output ∈ copy.setup.map (·.output.value) ↔
      output ∈ copy.config.map (·.output)) :
    checkParsedProfile request parsed = .ok copy := by
  have hmapped : ∀ output, output ∈ mapping.map (·.liveOutput.value) ↔
      output ∈ copy.setup.map (·.output.value) := by
    intro output
    rw [(hread.setup.map _).mem_iff, List.map_map]
    constructor
    · intro hmem
      obtain ⟨e, he, rfl⟩ := List.mem_map.mp hmem
      obtain ⟨f, hf, heq⟩ := List.mem_map.mp ((h.saved_mem e.savedOutput).mp
        (List.mem_map.mpr ⟨e, he, rfl⟩))
      refine List.mem_map.mpr ⟨f, hf, ?_⟩
      rw [Function.comp_apply, h.renamedFingerprint_eq he heq.symm]
    · intro hmem
      obtain ⟨f, hf, rfl⟩ := List.mem_map.mp hmem
      obtain ⟨e, he, heq⟩ := h.exists_entry hf
      refine List.mem_map.mpr ⟨e, he, ?_⟩
      rw [Function.comp_apply, h.renamedFingerprint_eq he heq]
  unfold checkParsedProfile
  rw [hcopy, hissues, hrequest]
  dsimp only
  exact if_pos ⟨fun o ho => (hmapped o).mp ho, fun o ho => (hmapped o).mpr ho,
    fun o ho => (houtputs o).mp ho, fun o ho => (houtputs o).mpr ho⟩

theorem readManifest_eq (h : MaterializedFrom profile mapping saved m) :
    readManifest
      ⟨profileRoot m.actionProfile ++ "/config",
        encodeText (configText (saved.map (renamedBlock mapping))), false⟩
      ⟨profileRoot m.actionProfile ++ "/setup",
        encodeText (setupText profile.setup (mappingBySaved mapping)), false⟩
      ⟨profileRoot m.actionProfile ++ "/postswitch", postswitchContent, true⟩
      (m.layout.map fun layout =>
        ⟨profileRoot m.actionProfile ++ "/layout", encodeText (layout ++ "\n"), false⟩) =
      m.artifacts := by
  have hsorted : m.artifacts.Pairwise fun a b => a.relativePath < b.relativePath :=
    List.pairwise_map.mp m.paths_sorted
  have hnodup : (m.artifacts.map (·.relativePath)).Nodup := m.paths_sorted.imp fun h => h.ne
  unfold readManifest
  generalize hread : [_, _, _] ++ Option.toList _ = read
  have hperm : read.Perm m.artifacts := by
    rw [← hread, h.artifacts]
    unfold profileArtifacts
    cases m.layout with
    | none => exact (List.reverse_perm _).symm.cons _
    | some layout => exact (List.reverse_perm _).symm.cons _
  refine eq_of_strict (f := fun a : TransactionArtifact => a.relativePath)
    ((sortedBy_perm _).trans hperm) (sortedBy_strict ?_) hsorted
  exact (hperm.map _).nodup_iff.mpr hnodup

/-- Whatever was materialized passes the check of the worker. -/
theorem validateMaterializedProfile_ok {quoted : String → String}
    {described : StoreError → String} {hexdigest : List UInt8 → HexDigest} {request : RequestBody}
    (h : MaterializedFrom profile mapping saved m) (hprofile : SoundProfile profile)
    (hlive : ∀ e ∈ mapping, e.liveOutput.value.toList.head? ≠ some '#')
    (hrequest : BindsArtifacts hexdigest m mapping request) :
    ∃ copy, validateMaterializedProfile quoted described hexdigest request m.artifacts =
      .ok copy ∧ ReadBack profile mapping m copy := by
  have hpayload := h.payload_eq hrequest
  obtain ⟨hconfigMem, hsetupMem, hlayoutMem⟩ := h.mem_artifacts
  have hpostswitchMem : ⟨profileRoot m.actionProfile ++ "/postswitch", postswitchContent, true⟩ ∈
      m.artifacts := by
    rw [h.artifacts]
    simp [profileArtifacts]
  have hlength : m.actionProfile.length ≤ maxProfileNameChars := by
    refine length_of_canonical "config" m.name_valid ?_
    rw [← path_file m.actionProfile (show "/config" = "/" ++ "config" by decide)]
    exact (h.canonical _ hconfigMem).1
  have hname : m.actionProfile ≠ "" := by
    obtain ⟨⟨rest, hrest⟩, -⟩ := chars_of_isActionProfile m.name_valid
    intro hempty
    simp [hempty] at hrest
  have haction : payloadText quoted request "action_profile" = .ok m.actionProfile := by
    unfold payloadText
    rw [hpayload]
    simp [hname]
  have hconfig : requiredArtifact quoted described hexdigest request m.artifacts m.actionProfile
      "config" = .ok _ :=
    requiredArtifact_ok hconfigMem (by decide) (by decide) rfl rfl
      (by rw [hpayload]; simp)
  have hsetup : requiredArtifact quoted described hexdigest request m.artifacts m.actionProfile
      "setup" = .ok _ :=
    requiredArtifact_ok hsetupMem (by decide) (by decide) rfl rfl
      (by rw [hpayload]; simp)
  have hpostswitch : requiredArtifact quoted described hexdigest request m.artifacts
      m.actionProfile "postswitch" = .ok _ :=
    requiredArtifact_ok hpostswitchMem (by decide) (by decide) rfl rfl
      (by rw [hpayload]; simp)
  have hlayout : optionalLayout described hexdigest m.artifacts m.actionProfile
      ((request.payload.reverse.find? (·.1 = "layout_sha256")).map (·.2)) =
      .ok (m.layout.map fun layout =>
        ⟨profileRoot m.actionProfile ++ "/layout", encodeText (layout ++ "\n"), false⟩) := by
    rw [hpayload]
    exact optionalLayout_ok h
  have hfields : request.payload.map (·.1) = applicationPayloadFields := by
    rw [hpayload]
    rfl
  obtain ⟨configEvidence, hconfigEvidence, hconfigCaptured⟩ := profileEvidence_ok "config"
    (configText (saved.map (renamedBlock mapping))) hlength (by decide)
  obtain ⟨setupEvidence, hsetupEvidence, hsetupCaptured⟩ := profileEvidence_ok "setup"
    (setupText profile.setup (mappingBySaved mapping)) hlength (by decide)
  obtain ⟨layoutEvidence', hlayoutEvidence, hlayoutCaptured⟩ := layoutEvidence_ok (m := m) hlength
  obtain ⟨result, copy, hparsed, hissues, hcopy, hread, houtputs⟩ :=
    parseSavedProfile_materialized hexdigest h hprofile hlive
      (validProfileName_of_isActionProfile m.name_valid hlength) hconfigCaptured hsetupCaptured
      hlayoutCaptured
  refine ⟨copy, ?_, hread⟩
  unfold validateMaterializedProfile
  dsimp only
  rw [hfields, if_neg (by simp), haction, Outcome.ok_bind, if_neg (not_not.mpr hrequest.action.symm),
    hconfig, Outcome.ok_bind, hsetup, Outcome.ok_bind, hpostswitch, Outcome.ok_bind, hlayout,
    Outcome.ok_bind, if_neg (by simp), readManifest_eq h, h.validateArtifacts]
  dsimp only
  rw [hconfigEvidence, Outcome.ok_bind, hsetupEvidence, Outcome.ok_bind, hlayoutEvidence,
    Outcome.ok_bind, hparsed]
  exact checkParsedProfile_ok h.complete hrequest.mapping hcopy hissues hread houtputs

end Artifacts

/-! ## Materializing and parsing -/

/-- The profile parser takes a fingerprint of this output. -/
def AcceptedName (output : Text) : Prop :=
  ∃ found line f, readFingerprint true found line = .accepted f ∧ f.output = output

/-- The file of that name was published and captured. -/
structure CapturedArtifact (m : MaterializedAutorandrProfile) (name : String)
    (evidence : TextCommandEvidence) : Prop where
  source : evidence.source = .autorandrProfiles
  in_time : evidence.timedOut = false
  status : evidence.exitStatus = 0
  reference : nonempty evidence.reference = true
  stdout : (m.content name).bind decodeText = some evidence.stdout

theorem CapturedArtifact.captured {m : MaterializedAutorandrProfile} {name text : String}
    {evidence : TextCommandEvidence} (h : CapturedArtifact m name evidence)
    (hcontent : m.content name = some (encodeText text)) : Captured evidence text := by
  have hstdout := h.stdout
  rw [hcontent, Option.bind_some, decodeText_encodeText] at hstdout
  exact ⟨h.source, h.in_time, h.status, (Option.some.inj hstdout).symm, h.reference⟩

def liveHdmi : OutputMapping := ⟨dockedOutput, ⟨"HDMI-2", by decide⟩⟩

theorem acceptedName_hdmi : AcceptedName liveHdmi.liveOutput :=
  ⟨[], "HDMI-2 00ff".toList, ⟨liveHdmi.liveOutput, ⟨"00ff", by decide⟩⟩, by decide +kernel, rfl⟩

theorem artifactPathCanonical_file {file path : String} (hpath : path = "/" ++ file)
    (h : file ∈ ["config", "postswitch", "setup"]) :
    artifactPathCanonical (profileRoot "application-00000000000000000000000000000000-1" ++ path) =
      true := by
  have hroot : (profileRoot "application-00000000000000000000000000000000-1").splitOn "/" =
      ["artifacts", "xdg-config", "autorandr", "application-00000000000000000000000000000000-1"] := by
    rw [splitOn_slash]
    decide +kernel
  have hfile : '/' ∉ file.toList ∧ file.length ≤ 10 ∧
      ["artifacts", "xdg-config", "autorandr", "application-00000000000000000000000000000000-1",
        file].all fun part => part ≠ "" && part ≠ "." && part ≠ ".." &&
          !part.toList.contains '\x00' && part.length ≤ 255 := by
    simp only [List.mem_cons, List.not_mem_nil, or_false] at h
    obtain rfl | rfl | rfl := h <;> decide
  have hlength : (profileRoot "application-00000000000000000000000000000000-1").length ≤ 100 := by
    decide +kernel
  have hslash : "/".length = 1 := by decide
  rw [path_file _ hpath]
  unfold artifactPathCanonical
  rw [splitOn_append_file hfile.1, hroot, String.length_append, String.length_append]
  simp only [Bool.and_eq_true, decide_eq_true_eq]
  exact ⟨⟨⟨rfl, by simp⟩, by omega⟩, hfile.2.2⟩

theorem sortedUniqueKeys_sortedBy (l : List TransactionArtifact) :
    SortedUniqueKeys ((sortedBy (·.relativePath) l).map (·.relativePath)) ↔
      (l.map (·.relativePath)).Nodup := by
  constructor
  · intro h
    have hnodup : ((sortedBy (·.relativePath) l).map (·.relativePath)).Nodup :=
      h.imp fun hlt => hlt.ne
    exact ((sortedBy_perm l).map _).nodup_iff.mp hnodup
  · intro h
    exact List.pairwise_map.mpr (sortedBy_strict h)

end MonitorController
