import MonitorController.Values.Identity

/-! # Hardware and profile evidence

The parts of a canonical sample. Mappings are bijections in sorted order, and
every profile match carries the content hashes its plan will be bound to.
-/

namespace MonitorController

/-- `_require_sorted_unique_keys`. -/
def SortedUniqueKeys (keys : List String) : Prop :=
  keys.Pairwise (· < ·)

/-- `_require_sorted_unique_strings`; texts are nonblank by construction. -/
def SortedUniqueStrings (values : List Text) : Prop :=
  values.Pairwise fun a b => a.value < b.value

instance (keys : List String) : Decidable (SortedUniqueKeys keys) :=
  inferInstanceAs (Decidable (keys.Pairwise (· < ·)))

instance (values : List Text) : Decidable (SortedUniqueStrings values) :=
  inferInstanceAs (Decidable (values.Pairwise fun a b => a.value < b.value))

/-- One proven saved-output to live-output mapping pair. -/
structure OutputMapping where
  savedOutput : Text
  liveOutput : Text
  deriving DecidableEq

def OutputMapping.key (m : OutputMapping) : String :=
  m.savedOutput.value ++ "\x00" ++ m.liveOutput.value

/-- The checks every mapping constructor makes: a nonempty sorted bijection. -/
def ValidMapping (outputs : List OutputMapping) : Prop :=
  outputs ≠ [] ∧ (outputs.map (·.savedOutput)).Nodup ∧ (outputs.map (·.liveOutput)).Nodup ∧
    SortedUniqueKeys (outputs.map (·.key))

instance (outputs : List OutputMapping) : Decidable (ValidMapping outputs) :=
  inferInstanceAs (Decidable (_ ∧ _))

/-- Digest of one configuration input which can change a desktop plan. -/
structure ConfigurationContentHash where
  path : Text
  sha256 : Text
  deriving DecidableEq

def ConfigurationContentHash.key (h : ConfigurationContentHash) : String :=
  h.path.value ++ "\x00" ++ h.sha256.value

def ValidHashes (hashes : List ConfigurationContentHash) : Prop :=
  SortedUniqueKeys (hashes.map (·.key))

instance (hashes : List ConfigurationContentHash) : Decidable (ValidHashes hashes) :=
  inferInstanceAs (Decidable (SortedUniqueKeys _))

/-- The active outputs of a profile are sorted live outputs of its mapping. -/
def ValidActiveOutputs (mapping : List OutputMapping) (active : List Text) : Prop :=
  SortedUniqueStrings active ∧ active ⊆ mapping.map (·.liveOutput)

instance (mapping : List OutputMapping) (active : List Text) :
    Decidable (ValidActiveOutputs mapping active) :=
  inferInstanceAs (Decidable (_ ∧ _))

/-- Identity of a planning proof, including its current config manifest. -/
structure PlanningInputKey where
  physicalEpoch : Nat
  profile : Text
  layout : Text
  observationKey : ObservationKey
  mapping : List OutputMapping
  activeOutputs : List Text
  configurationHashes : List ConfigurationContentHash
  mapping_valid : ValidMapping mapping
  active_valid : ValidActiveOutputs mapping activeOutputs
  hashes_nonempty : configurationHashes ≠ []
  hashes_valid : ValidHashes configurationHashes
  deriving DecidableEq

/-- Unique profile output bijection proven for one physical epoch. -/
structure MappingProof where
  profile : Text
  physicalEpoch : Nat
  observationKey : ObservationKey
  outputs : List OutputMapping
  outputs_valid : ValidMapping outputs
  deriving DecidableEq

/-- Machine-readable live output fingerprint. -/
structure Fingerprint where
  output : Text
  value : Text
  deriving DecidableEq

/-- EDID base identity and extension integrity for one connector. -/
structure EdidEvidence where
  output : Text
  integrity : EdidIntegrity
  baseHash : Option String
  absent_unhashed : integrity = .absent → baseHash = none
  hashed : integrity ≠ .absent → integrity ≠ .baseInvalid → ∃ h, baseHash = some h ∧ nonempty h
  deriving DecidableEq

/-- Kernel/X connector identity correspondence retained in a sample. -/
structure ConnectorIdentityEvidence where
  output : Text
  kernelConnector : Text
  kernelConnectorId : Nat
  xConnectorId : Option Nat
  deriving DecidableEq

/-- Reference and digest for one preserved raw observer input. -/
structure RawEvidenceReference where
  source : RawEvidenceSource
  reference : Text
  sha256 : Text
  deriving DecidableEq

/-- Eligible profile with separate application and desktop-plan inputs. -/
structure ProfileMatch where
  profile : Text
  scope : ProfileScope
  layout : Text
  mapping : List OutputMapping
  activeOutputs : List Text
  configurationHashes : List ConfigurationContentHash
  planningConfigurationHashes : List ConfigurationContentHash := []
  hashes_nonempty : configurationHashes ≠ []
  planning_valid : planningConfigurationHashes ≠ [] → ValidHashes planningConfigurationHashes
  hashes_valid : ValidHashes configurationHashes
  mapping_valid : ValidMapping mapping
  active_valid : ValidActiveOutputs mapping activeOutputs
  deriving DecidableEq

/-- Exact checksum-valid EDID base identity match to a saved profile. -/
structure BaseIdentityMatch where
  profile : Text
  output : Text
  deriving DecidableEq

/-- Fully constrained safe activation probe from canonical evidence. -/
structure ProbeCandidate where
  profile : Text
  output : Text
  internalOutput : Text
  preferredMode : Text
  distinct : output ≠ internalOutput
  deriving DecidableEq

/-- Persisted exact target selection and proof identity. -/
@[ext] structure CandidateSelection where
  profile : Text
  scope : ProfileScope
  mapping : MappingProof
  observationKey : ObservationKey
  profile_mapping : mapping.profile = profile
  key_mapping : mapping.observationKey = observationKey

instance : DecidableEq CandidateSelection := fun _ _ => decidable_of_iff' _ CandidateSelection.ext_iff

end MonitorController
