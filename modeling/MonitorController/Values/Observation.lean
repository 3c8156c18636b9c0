import MonitorController.Values.Evidence

/-! # Canonical observations

One immutable hardware/X/profile sample together with the checks its
constructor makes. Only a coherent sample may carry a probe candidate or an
exact profile.
-/

namespace MonitorController

def EdidIntegrity.value : EdidIntegrity → String
  | .absent => "absent"
  | .baseInvalid => "base_invalid"
  | .baseValidExtensionsIncomplete => "base_valid_extensions_incomplete"
  | .baseValidExtensionsInvalid => "base_valid_extensions_invalid"
  | .complete => "complete"

def ProfileScope.value : ProfileScope → String
  | .internalOnly => "internal_only"
  | .externalOnly => "external_only"
  | .mixed => "mixed"

def RawEvidenceSource.value : RawEvidenceSource → String
  | .drmConnectors => "drm_connectors"
  | .drmEdid => "drm_edid"
  | .xrandrQuery => "xrandr_query"
  | .xrandrProperties => "xrandr_properties"
  | .autorandrFingerprint => "autorandr_fingerprint"
  | .autorandrProfiles => "autorandr_profiles"
  | .dpms => "dpms"

/-- The fields of one sample, before the constructor's checks. -/
structure ObservationFields where
  observedAtMs : Nat
  observationGeneration : ObservationGeneration
  bootId : BootId
  physicalToken : PhysicalToken
  beginEventGeneration : EventGeneration
  endEventGeneration : EventGeneration
  kernelConnectedOutputs : List Text
  kernelExternalOutputs : List Text
  xConnectedOutputs : List Text
  xActiveOutputs : List Text
  xExternalOutputs : List Text
  connectorIdentities : List ConnectorIdentityEvidence
  liveFingerprints : List Fingerprint
  baseIdentityProfiles : List BaseIdentityMatch
  edidIntegrity : List EdidEvidence
  probeCandidate : Option ProbeCandidate
  eligibleProfiles : List ProfileMatch
  currentProfiles : List Text
  exactProfile : Option Text
  observationKey : ObservationKey
  validity : ObservationValidity
  invalidityReason : Option ObservationInvalidityReason
  rawEvidence : List RawEvidenceReference
  displayPower : DisplayPower := .on
  deriving DecidableEq

namespace ObservationFields

variable (o : ObservationFields)

def valid : Bool := o.validity = .valid

/-- The generation captured at successful sample completion. -/
def eventGeneration : EventGeneration := o.endEventGeneration

def hasExternalHardware : Bool :=
  !o.kernelExternalOutputs.isEmpty || !o.xExternalOutputs.isEmpty

/-- A connector number as the constructor sorts it, zero-padded to twenty digits. -/
def paddedId (n : Nat) : String :=
  let digits := toString n
  String.ofList (List.replicate (20 - digits.length) '0') ++ digits

def connectorKey (item : ConnectorIdentityEvidence) : String :=
  item.output.value ++ "\x00" ++ item.kernelConnector.value ++ "\x00" ++
    paddedId item.kernelConnectorId ++ "\x00" ++
    match item.xConnectorId with
    | none => "-"
    | some n => paddedId n

def profileKey (item : ProfileMatch) : String :=
  item.profile.value ++ "\x00" ++ item.scope.value ++ "\x00" ++ item.layout.value ++ "\x00" ++
    ";".intercalate (item.mapping.map fun m => m.savedOutput.value ++ ">" ++ m.liveOutput.value) ++
    "\x00" ++ ";".intercalate (item.activeOutputs.map (·.value)) ++ "\x00" ++
    ";".intercalate (item.configurationHashes.map fun c => c.path.value ++ "=" ++ c.sha256.value)

/-- Every listed field is sorted and free of duplicates. -/
def Sorted : Prop :=
  SortedUniqueStrings o.kernelConnectedOutputs ∧ SortedUniqueStrings o.kernelExternalOutputs ∧
    SortedUniqueStrings o.xConnectedOutputs ∧ SortedUniqueStrings o.xActiveOutputs ∧
    SortedUniqueStrings o.xExternalOutputs ∧ SortedUniqueStrings o.currentProfiles ∧
    SortedUniqueKeys (o.connectorIdentities.map connectorKey) ∧
    SortedUniqueKeys (o.liveFingerprints.map fun f => f.output.value ++ "\x00" ++ f.value.value) ∧
    SortedUniqueKeys
      (o.baseIdentityProfiles.map fun b => b.profile.value ++ "\x00" ++ b.output.value) ∧
    SortedUniqueKeys (o.edidIntegrity.map fun e =>
      e.output.value ++ "\x00" ++ e.integrity.value ++ "\x00" ++ e.baseHash.getD "") ∧
    SortedUniqueKeys (o.eligibleProfiles.map profileKey) ∧
    SortedUniqueKeys (o.rawEvidence.map fun r =>
      r.source.value ++ "\x00" ++ r.reference.value ++ "\x00" ++ r.sha256.value)

/-- `_profile_match`: the first eligible match of a profile. -/
def profileMatch (profile : Text) : Option ProfileMatch :=
  o.eligibleProfiles.find? (·.profile = profile)

def baseProven : Finset Text :=
  ((o.edidIntegrity.filter (·.baseHash.isSome)).map (·.output)).toFinset

/-- Outputs whose kernel and X connector correspondence is known. -/
def identified : Finset Text :=
  ((o.connectorIdentities.filter (·.xConnectorId.isSome)).map (·.output)).toFinset

def baseMatches (profile : Text) : Finset Text :=
  ((o.baseIdentityProfiles.filter (·.profile = profile)).map (·.output)).toFinset

def externalOutputs : Finset Text :=
  o.kernelExternalOutputs.toFinset ∪ o.xExternalOutputs.toFinset

/-- The proof a coherent sample owes for its exact profile. -/
def ExactProven (profile : Text) : Prop :=
  match o.profileMatch profile with
  | none => False
  | some m =>
    let mapped := (m.mapping.map (·.liveOutput)).toFinset
    o.kernelConnectedOutputs.toFinset = o.xConnectedOutputs.toFinset ∧
      o.xConnectedOutputs.toFinset = mapped ∧
      o.xActiveOutputs.toFinset = m.activeOutputs.toFinset ∧
      profile ∈ o.currentProfiles ∧
      o.externalOutputs ⊆ o.baseProven ∩ o.baseMatches profile ∩ o.identified

/-- The proof a coherent sample owes for its probe candidate. -/
def ProbeProven (probe : ProbeCandidate) : Prop :=
  o.kernelExternalOutputs.toFinset = o.xExternalOutputs.toFinset ∧
    o.xExternalOutputs.toFinset = {probe.output} ∧
    o.kernelConnectedOutputs.toFinset = o.xConnectedOutputs.toFinset ∧
    o.xConnectedOutputs.toFinset = {probe.output, probe.internalOutput} ∧
    o.xActiveOutputs.toFinset = {probe.internalOutput} ∧
    (o.baseIdentityProfiles.filter fun b =>
      b.profile = probe.profile ∧ b.output = probe.output).length = 1 ∧
    ((o.edidIntegrity.find? (·.output = probe.output)).any (·.integrity.probeAdmissible)) = true ∧
    probe.output ∈ o.identified ∧
    o.eligibleProfiles = []

/-- `_validate_consistent_sample`. -/
def ConsistentSample : Prop :=
  let known := o.kernelConnectedOutputs ++ o.xConnectedOutputs
  o.invalidityReason = none ∧
    (o.connectorIdentities.map (·.output)).Nodup ∧ (o.liveFingerprints.map (·.output)).Nodup ∧
    (o.edidIntegrity.map (·.output)).Nodup ∧ (o.eligibleProfiles.map (·.profile)).Nodup ∧
    (o.rawEvidence.map fun r => (r.source, r.reference)).Nodup ∧
    o.beginEventGeneration = o.endEventGeneration ∧
    o.kernelExternalOutputs ⊆ o.kernelConnectedOutputs ∧
    o.xActiveOutputs ⊆ o.xConnectedOutputs ∧ o.xExternalOutputs ⊆ o.xConnectedOutputs ∧
    (∀ i ∈ o.connectorIdentities, i.output ∈ known) ∧
    (∀ f ∈ o.liveFingerprints, f.output ∈ o.xConnectedOutputs) ∧
    (∀ e ∈ o.edidIntegrity, e.output ∈ o.kernelConnectedOutputs) ∧
    (∀ b ∈ o.baseIdentityProfiles, b.output ∈ known) ∧
    (∀ p ∈ o.eligibleProfiles, p.mapping.map (·.liveOutput) ⊆ o.xConnectedOutputs) ∧
    (∀ profile ∈ o.exactProfile, o.ExactProven profile) ∧
    (∀ probe ∈ o.probeCandidate, o.ProbeProven probe)

/-- A sample its constructor accepts. -/
def Accepted : Prop :=
  o.Sorted ∧
    if o.valid then o.ConsistentSample
    else o.invalidityReason ≠ none ∧ o.probeCandidate = none ∧ o.exactProfile = none

instance : Decidable o.Sorted := inferInstanceAs (Decidable (_ ∧ _))

instance (profile : Text) : Decidable (o.ExactProven profile) := by
  unfold ExactProven
  split <;> infer_instance

instance (probe : ProbeCandidate) : Decidable (o.ProbeProven probe) :=
  inferInstanceAs (Decidable (_ ∧ _))

instance : Decidable o.ConsistentSample := inferInstanceAs (Decidable (_ ∧ _))

instance : Decidable o.Accepted := inferInstanceAs (Decidable (_ ∧ _))

end ObservationFields

/-- One immutable, internally classified hardware/X/profile sample. -/
structure CanonicalObservation extends ObservationFields where
  accepted : toObservationFields.Accepted
  deriving DecidableEq

end MonitorController
