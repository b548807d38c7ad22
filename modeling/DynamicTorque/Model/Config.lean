import DynamicTorque.Model.Commands

/-!
# Configuration

The settings of `config.py` that the modelled operations read. They are set once at start-up;
the cloud resources, whose objects change at run time, are part of the state instead.

Where `default_location` is 1 a location is drawn at random. A draw is a natural number that
the caller supplies, so a statement for all draws is a statement for all random choices.
-/

open Python

namespace DynamicTorque

/-- The global settings. -/
structure Config where
  maxInaccessibleTime : ℤ := 900
  maxIdleTime : ℤ := 600
  maxDownTime : ℤ := 480
  maxDeleteRetryTime : ℤ := 600
  vmCreationBatchNumber : ℤ := 5
  jobPollerInterval : ℤ := 10
  torqueQueueToMonitor : List String := []
  maxNumberOfJobs : ℤ := -1
  cloudVmPrefix : String := "pbsdynwn-"
  cloudSecurityGroups : List String := []
  cloudAvailabilityZone : String := "noblepark"
  nodeProperty : String := ""
  locationProperties : LocationProperties := ∅
  defaultLocation : ℤ := 0
  commands : Commands := {}

namespace Config

/-- `random.choice(keys)` with a given draw. -/
def choice (keys : List String) (draw : ℕ) : Except PyError String :=
  match keys[draw % keys.length]? with
  | some k => .ok k
  | none => .error .indexError

/-- The first location that is mapped to a zone, in dictionary order. -/
def locationOfZone (cfg : Config) (zone : Option String) : Option String :=
  (cfg.locationProperties.entries.find? fun e ↦ some e.2 = zone).map Sigma.fst

/-- `get_default_node_location`. -/
def getDefaultNodeLocation (cfg : Config) (draw : ℕ) : Except PyError (Option String) :=
  if cfg.defaultLocation = 1 then do
    let loc ← choice cfg.locationProperties.keys draw
    pure (some loc)
  else pure (cfg.locationOfZone (some cfg.cloudAvailabilityZone))

/-- `convert_location_property_to_availability_zone`. -/
def convertLocationPropertyToAvailabilityZone (cfg : Config) (location : Option String)
    (draw : ℕ) : Except PyError String :=
  match location.bind fun l ↦ cfg.locationProperties.lookup l with
  | some zone => .ok zone
  | none =>
    if cfg.defaultLocation = 1 then choice cfg.locationProperties.keys draw
    else .ok cfg.cloudAvailabilityZone

end Config

end DynamicTorque
