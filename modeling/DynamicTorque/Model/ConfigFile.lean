import DynamicTorque.Model.Config

/-!
# The cloud resources

How the cloud resources get their values: `parse_static_worker_nodes` and
`parse_cloud_resources_config_file` of `config.py`, `CloudResource.__init__` of `cloud_tools.py`
and `_init_cloud_resources` of `cloud_management.py`.

The file is given as `ConfigParser` reads it: a list of sections, each with the texts of the
options that it has. The local variables of the parser belong to the function and not to a pass of
its loop, so those that a pass does not assign keep what the pass before has left.
-/

open Python

namespace DynamicTorque

/-! ### Static worker nodes -/

/-- The location of a request that names none: of the locations that are mapped to the default zone,
the last one in dictionary order. -/
def Config.staticLocation (cfg : Config) : Option String :=
  cfg.locationProperties.entries.foldl
    (fun defaultLocation loc ↦
      if loc.2 = cfg.cloudAvailabilityZone then some loc.1 else defaultLocation) none

/-- The loop body of `parse_static_worker_nodes`. -/
def parseStaticReq (defaultLocation : String) (staticVmList : StaticVMs) (req : String) :
    Except PyError StaticVMs :=
  match split ':' req with
  | [] => .error .indexError
  | count :: rest =>
    if isdigit count then do
      let numOfVm ← int count
      match rest with
      | [] => pure (staticVmList.addStaticReq defaultLocation numOfVm)
      | location :: _ => pure (staticVmList.addStaticReq location numOfVm)
    else pure staticVmList

/-- `parse_static_worker_nodes`. An empty location is no default location either. -/
def parseStaticWorkerNodes (cfg : Config) (staticWorkerNodes : String) :
    Except PyError (Option StaticVMs) :=
  match cfg.staticLocation with
  | none => .ok none
  | some defaultLocation =>
    if defaultLocation = "" then .ok none
    else if isdigit staticWorkerNodes then do
      let numOfVm ← int staticWorkerNodes
      pure (some (StaticVMs.addStaticReq defaultLocation numOfVm []))
    else do
      let staticVmList ←
        (split '+' staticWorkerNodes).foldlM (parseStaticReq defaultLocation) []
      pure (some staticVmList)

/-! ### The objects -/

/-- The arguments of `CloudResource.__init__`, each of which becomes an attribute. -/
structure ResourceArguments where
  username : String
  password : String
  tenantName : String
  imageUuid : String
  userDataFile : String
  workerNodeFlavors : FlavorNames
  staticWorkerNodes : String
  numberOfDynamicWorkerNodes : ℤ
  staticVmList : Option StaticVMs
  accountString : Option String := none
  hasVolume : Bool := false
  reservationType : String := "account"
  deriving DecidableEq, Repr

/-- `CloudResource.__init__`. -/
def CloudResource.init (args : ResourceArguments) : CloudResource where
  imageUuid := args.imageUuid
  userDataFile := args.userDataFile
  workerNodeFlavors := args.workerNodeFlavors
  numberOfDynamicWorkerNodes := args.numberOfDynamicWorkerNodes
  flavorObjects := []
  staticVmsToStart := args.staticVmList
  availableNumberOfNodes := args.numberOfDynamicWorkerNodes
  accountString := args.accountString
  hasVolume := args.hasVolume
  reservationType := args.reservationType

/-! ### The cloud-resources file -/

/-- The global settings that a section may leave to the main file. -/
structure ImageSettings where
  cloudImageUuid : String := "bf84de68-247e-443f-80ee-8db7edd38334"
  cloudVmUserdataFile : String := ""

/-- A section of the file: the texts of the options that are read, `none` where it has none. -/
structure Section where
  name : String
  cloudUsername : Option String := none
  cloudPassword : Option String := none
  cloudTenantName : Option String := none
  cloudImageUuid : Option String := none
  cloudVmUserdataFile : Option String := none
  workerNodeFlavor : Option String := none
  numberOfDynamicWorkerNodes : Option String := none
  staticWorkerNodes : Option String := none
  accountString : Option String := none
  hasVolume : Option String := none
  reservationType : Option String := none
  deriving DecidableEq, Repr

/-- A file, whose sections have different names. -/
structure ResourcesFile where
  sections : List Section
  nodup : (sections.map Section.name).Nodup

/-- The local variables that a pass may leave as they are. -/
structure ParserLocals where
  staticWorkerNodes : Option String := none
  accountString : Option String := none

/-- The value of a local variable, which must have been assigned. -/
def boundLocal {α : Type} (name : String) : Option α → Except PyError α
  | some value => .ok value
  | none => .error (.exception ("UnboundLocalError: " ++ name))

/-- `getboolean`: `none` if it raises `ValueError`. -/
def getboolean (text : String) : Option Bool :=
  if String.ofList (lower text) ∈ ["1", "yes", "true", "on"] then some true
  else if String.ofList (lower text) ∈ ["0", "no", "false", "off"] then some false
  else none

namespace Section

/-- `number_of_dynamic_worker_nodes`. -/
def number (resource : Section) : Except PyError ℤ :=
  match resource.numberOfDynamicWorkerNodes with
  | some text => int text
  | none => .ok 1

/-- `static_vm_list`. -/
def staticVmList (cfg : Config) (resource : Section) : Except PyError (Option StaticVMs) :=
  match resource.staticWorkerNodes with
  | some text => parseStaticWorkerNodes cfg text
  | none => .ok (some [])

/-- The local variables after a pass over a complete section. -/
def assign (resource : Section) (locals : ParserLocals) : ParserLocals where
  staticWorkerNodes := resource.staticWorkerNodes.or locals.staticWorkerNodes
  accountString := resource.accountString.or locals.accountString

/-- The mandatory options. The first one that is missing ends the pass. -/
def credentials (resource : Section) : Option (String × String × String) := do
  let cloudUsername ← resource.cloudUsername
  let cloudPassword ← resource.cloudPassword
  let cloudTenantName ← resource.cloudTenantName
  pure (cloudUsername, cloudPassword, cloudTenantName)

/-- The call of `CloudResource` at the end of a pass. -/
def arguments (cfg : Config) (settings : ImageSettings) (locals : ParserLocals)
    (resource : Section) (cloudUsername cloudPassword cloudTenantName : String) :
    Except PyError ResourceArguments := do
  let numberOfDynamicWorkerNodes ← resource.number
  let staticVmList ← resource.staticVmList cfg
  let locals := resource.assign locals
  let staticWorkerNodes ← boundLocal "static_worker_nodes" locals.staticWorkerNodes
  let accountString ← boundLocal "account_string" locals.accountString
  pure
    { username := cloudUsername
      password := cloudPassword
      tenantName := cloudTenantName
      imageUuid := resource.cloudImageUuid.getD settings.cloudImageUuid
      userDataFile := resource.cloudVmUserdataFile.getD settings.cloudVmUserdataFile
      workerNodeFlavors := .text (resource.workerNodeFlavor.getD "m1.small")
      staticWorkerNodes := staticWorkerNodes
      numberOfDynamicWorkerNodes := numberOfDynamicWorkerNodes
      staticVmList := staticVmList
      accountString := some accountString
      -- a text that is no truth value is reported, and leaves the value that was set before
      hasVolume := (resource.hasVolume.bind getboolean).getD false
      reservationType := resource.reservationType.getD "account" }

end Section

/-- The loop body of `parse_cloud_resources_config_file`. -/
def parseSection (cfg : Config) (settings : ImageSettings)
    (state : ParserLocals × Dict ResourceArguments) (resource : Section) :
    Except PyError (ParserLocals × Dict ResourceArguments) :=
  match resource.credentials with
  | none => .ok state
  | some (cloudUsername, cloudPassword, cloudTenantName) => do
    let args ← resource.arguments cfg settings state.1 cloudUsername cloudPassword cloudTenantName
    pure (resource.assign state.1, state.2.insert resource.name args)

/-- `parse_cloud_resources_config_file`. -/
def parseCloudResourcesConfigFile (cfg : Config) (settings : ImageSettings)
    (file : ResourcesFile) : Except PyError (Dict ResourceArguments) := do
  let state ← file.sections.foldlM (parseSection cfg settings) ({}, ∅)
  pure state.2

/-! ### The flavours of the cloud -/

/-- `name in worker_node_flavors`: an element of a list, a part of a string. -/
def FlavorNames.contains (flavorNames : FlavorNames) (name : String) : Bool :=
  match flavorNames with
  | .list names => names.contains name
  | .text value => strIn name value

/-- The inner loop of `_init_cloud_resources`. -/
def CloudResource.appendFlavors (flavors : List VMFlavor) (res : CloudResource) : CloudResource :=
  flavors.foldl
    (fun res flavor ↦
      if res.workerNodeFlavors.contains flavor.name then
        { res with flavorObjects := res.flavorObjects ++ [flavor] }
      else res) res

/-- `_init_cloud_resources`. -/
def CloudResources.initCloudResources (flavors : List VMFlavor) (crs : CloudResources) :
    CloudResources :=
  crs.names.foldl
    (fun crs resource ↦
      crs.modify resource (CloudResource.appendFlavors (sortByKey VMFlavor.vcpus flavors))) crs

end DynamicTorque
