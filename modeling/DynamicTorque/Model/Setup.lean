import DynamicTorque.Language.ConfigParser
import DynamicTorque.Model.ConfigFile

/-!
# The configuration

`setup` of `config.py`: the settings are read from the main file, each with its default, and the
table of resources is made of the default one and those of the cloud-resources file.

The names `~` stands for, the files and the formatting of a text that refers to other options are
parameters. Of what is printed nothing is kept.
-/

open Python

namespace DynamicTorque

/-! ### Options -/

/-- `get`, where `has_option` is true. -/
abbrev Options := String → String → Option (Except PyError String)

namespace Options

/-- An option that is kept as a text. -/
def text (options : Options) (sect option default : String) : Except PyError String :=
  (options sect option).getD (.ok default)

/-- An option without a default. -/
def text? (options : Options) (sect option : String) : Except PyError (Option String) :=
  match options sect option with
  | some value => some <$> value
  | none => .ok none

/-- `getint`. -/
def number (options : Options) (sect option : String) (default : ℤ) : Except PyError ℤ :=
  match options sect option with
  | some value => value >>= int
  | none => .ok default

/-- `getint`, without a default. -/
def number? (options : Options) (sect option : String) : Except PyError (Option ℤ) :=
  match options sect option with
  | some value => some <$> (value >>= int)
  | none => .ok none

/-- A handler of `ValueError`. -/
def catchValueError {α : Type} (x handler : Except PyError α) : Except PyError α :=
  match x with
  | .error (.valueError _) => handler
  | x => x

/-- A list that is separated by commas. An empty text stays what it is, which has no elements
either. -/
def list (options : Options) (sect option : String) : Except PyError (List String) := do
  let value ← options.text sect option ""
  return if value = "" then [] else split ',' value

end Options

/-! ### The main file -/

/-- The section `global`. The sizes of the pool are read and not used. -/
structure GlobalSettings where
  poolMinNum : Option ℤ
  poolMaxNum : Option ℤ
  maxIdleTime : ℤ
  maxDownTime : ℤ
  maxInaccessibleTime : ℤ
  jobPollerInterval : ℤ
  cloudPollerInterval : ℤ
  persistentFileLocation : String
  postAddNodeCommand : String
  postRemoveNodeCommand : String
  postVmProvisionCommand : String
  postVmDestroyCommand : String
  qstatCommand : String
  pbsnodesCommand : String
  addNodeCommand : String
  checkNodeCommand : String
  removeNodeCommand : String
  setNodeCommand : String
  diagnosePCommand : String
  setresCommand : String
  releaseresCommand : String
  deriving DecidableEq, Repr

/-- The section `global` of the file. -/
def GlobalSettings.read (options : Options) : Except PyError GlobalSettings := do
  let poolMinNum ← options.number? "global" "pool_min_num"
  let poolMaxNum ← options.number? "global" "pool_max_num"
  let maxIdleTime ← options.number "global" "max_idle_time" 600
  let maxDownTime ← options.number "global" "max_down_time" 480
  let maxInaccessibleTime ← options.number "global" "max_inaccessible_time" 900
  let jobPollerInterval ← options.number "global" "job_poller_interval" 10
  let cloudPollerInterval ← options.number "global" "cloud_poller_interval" 20
  let persistentFileLocation ←
    options.text "global" "persistent_file_location" "/var/lib/dynamictorque/nodes"
  let postAddNodeCommand ← options.text "global" "post_add_node_command" ""
  let postRemoveNodeCommand ← options.text "global" "post_remove_node_command" ""
  let postVmProvisionCommand ← options.text "global" "post_vm_provision_command" ""
  let postVmDestroyCommand ← options.text "global" "post_vm_destroy_command" ""
  let qstatCommand ← options.text "global" "qstat_command" "/usr/bin/qstat -x -t"
  let pbsnodesCommand ←
    options.text "global" "pbsnodes_command" "/usr/bin/pbsnodes \x7b0\x7d \x7b1\x7d"
  let addNodeCommand ←
    options.text "global" "add_node_command" "/usr/bin/qmgr -c \"create node \x7b0\x7d\""
  let checkNodeCommand ← options.text "global" "check_node_command" "/usr/bin/checknode \x7b0\x7d"
  let removeNodeCommand ←
    options.text "global" "remove_node_command" "/usr/bin/qmgr -c \"delete node \x7b0\x7d\""
  let setNodeCommand ← options.text "global" "set_node_command"
    "/usr/bin/qmgr -c \"set node \x7b0\x7d \x7b1\x7d \x7b2\x7d \x7b3\x7d\""
  let diagnosePCommand ← options.text "global" "diagnose_p_command" "/usr/bin/diagnose -p"
  let setresCommand ←
    options.text "global" "setres_command" "/usr/bin/setres -a \x7b0\x7d \x7b1\x7d"
  let releaseresCommand ← options.text "global" "releaseres_command"
    ("/usr/bin/releaseres `/usr/bin/showres -n | grep User | grep \x7b0\x7d" ++
      " | awk '\x7b\x7bprint $3\x7d\x7d' `")
  return {
    poolMinNum, poolMaxNum, maxIdleTime, maxDownTime, maxInaccessibleTime, jobPollerInterval
    cloudPollerInterval, persistentFileLocation, postAddNodeCommand, postRemoveNodeCommand
    postVmProvisionCommand, postVmDestroyCommand, qstatCommand, pbsnodesCommand, addNodeCommand
    checkNodeCommand, removeNodeCommand, setNodeCommand, diagnosePCommand, setresCommand
    releaseresCommand }

/-- The section `cloud`, without the options that are read later. -/
structure CloudSettings where
  cloudUsername : String
  cloudPassword : String
  cloudTenantName : String
  cloudAuthUrl : String
  cloudKeyName : String
  cloudSecurityGroups : List String
  cloudPrivateKeyLocation : String
  cloudAvailabilityZone : String
  cloudVmInitFile : String
  cloudVmUserdataFile : String
  cloudImageUuid : String
  cloudVmPrefix : String
  /-- The empty list where the variable has no value. -/
  workerNodeFlavors : List String
  cloudVmInitFinishFile : String
  numberOfDynamicWorkerNodes : ℤ
  cloudShellUser : String
  deriving DecidableEq, Repr

/-- The section `cloud` of the file. -/
def CloudSettings.read (options : Options) : Except PyError CloudSettings := do
  let cloudUsername ← options.text "cloud" "cloud_username" ""
  let cloudPassword ← options.text "cloud" "cloud_password" ""
  let cloudTenantName ← options.text "cloud" "cloud_tenant_name" ""
  let cloudAuthUrl ← options.text "cloud" "cloud_auth_url" ""
  let cloudKeyName ← options.text "cloud" "cloud_key_name" "nectarkey"
  let cloudSecurityGroups ← options.list "cloud" "cloud_security_groups"
  let cloudPrivateKeyLocation ← options.text "cloud" "cloud_private_key_location" ""
  let cloudAvailabilityZone ← options.text "cloud" "cloud_availability_zone" "noblepark"
  let cloudVmInitFile ← options.text "cloud" "cloud_vm_init_file" ""
  let cloudVmUserdataFile ← options.text "cloud" "cloud_vm_userdata_file" ""
  let cloudImageUuid ←
    options.text "cloud" "cloud_image_uuid" "bf84de68-247e-443f-80ee-8db7edd38334"
  let cloudVmPrefix ← options.text "cloud" "cloud_vm_prefix" "pbsdynwn-"
  let workerNodeFlavors ← options.list "cloud" "worker_node_flavors"
  let cloudVmInitFinishFile ←
    options.text "cloud" "cloud_vm_init_finish_file" "/var/run/cloud-init/done"
  let numberOfDynamicWorkerNodes ← options.number "cloud" "number_of_dynamic_worker_nodes" 2
  let cloudShellUser ← options.text "cloud" "cloud_shell_user" "root"
  return {
    cloudUsername, cloudPassword, cloudTenantName, cloudAuthUrl, cloudKeyName
    cloudSecurityGroups, cloudPrivateKeyLocation, cloudAvailabilityZone, cloudVmInitFile
    cloudVmUserdataFile, cloudImageUuid, cloudVmPrefix, workerNodeFlavors, cloudVmInitFinishFile
    numberOfDynamicWorkerNodes, cloudShellUser }

/-- A mapping `location:zone` is added. Anything else is passed over. -/
def addLocation (locationProperties : LocationProperties) (loc : String) : LocationProperties :=
  match split ':' loc with
  | [location, zone] => locationProperties.insert location zone
  | _ => locationProperties

/-- The section `torque`, without `default_location`. -/
structure TorqueSettings where
  torqueQueueToMonitor : List String
  nodeProperty : String
  locationProperties : LocationProperties
  maxNumberOfJobs : ℤ

/-- The section `torque` of the file. -/
def TorqueSettings.read (options : Options) : Except PyError TorqueSettings := do
  let torqueQueueToMonitor ← options.list "torque" "torque_queue_to_monitor"
  let nodeProperty ← options.text "torque" "node_property" ""
  let nodeLocationProperty ← options.list "torque" "node_location_property"
  let maxNumberOfJobs ← options.number "torque" "max_number_of_jobs" (-1)
  return {
    torqueQueueToMonitor, nodeProperty
    locationProperties := nodeLocationProperty.foldl addLocation ∅
    maxNumberOfJobs }

/-- The section `logging`. -/
structure LoggingSettings where
  logLevel : String
  logLocation : Option String
  logStdout : Bool
  logMaxSize : Option ℤ
  logFormat : String
  deriving DecidableEq, Repr

/-- The section `logging` of the file. A text that is no truth value is reported. -/
def LoggingSettings.read (expanduser : String → String) (options : Options) :
    Except PyError LoggingSettings := do
  let logLevel ← options.text "logging" "log_level" "INFO"
  let logLocation ← options.text? "logging" "log_location"
  let logStdout ← Options.catchValueError (options.text? "logging" "log_stdout") (.ok none)
  let logMaxSize ← Options.catchValueError (options.number? "logging" "log_max_size")
    (.error (.exception "SystemExit"))
  let logFormat ← options.text "logging" "log_format"
    "%(asctime)s - %(levelname)s - %(threadName)s - %(message)s"
  return {
    logLevel
    logLocation := logLocation.map expanduser
    logStdout := (logStdout.bind getboolean).getD false
    logMaxSize, logFormat }

/-! ### The whole configuration -/

/-- What is outside the process: the directory of the user, the paths that exist, the texts of the
files that can be opened, and how a text that refers to options is formatted with them. -/
structure Environment where
  homedir : String
  pathExists : String → Bool
  contents : String → Option String
  expanduser : String → String
  percent : ConfigParser → String → String → Except PyError String

/-- `ConfigParser().read(path)`, which passes over a file that cannot be opened. -/
def Environment.read (env : Environment) (path : String) : Except PyError ConfigParser :=
  match env.contents path with
  | some text => ConfigParser.read text
  | none => .ok .empty

/-- The file that is read. -/
def Environment.configFile (env : Environment) (path : Option String) : Except PyError String :=
  if path.getD "" ≠ "" then .ok (path.getD "")
  else if env.pathExists (env.homedir ++ "/.dynamictorque/dynamic_torque.conf") then
    .ok (env.homedir ++ "/.dynamictorque/dynamic_torque.conf")
  else if env.pathExists "/etc/dynamictorque/dynamic_torque.conf" then
    .ok "/etc/dynamictorque/dynamic_torque.conf"
  else .error (.exception "SystemExit")

/-- A section of the cloud-resources file, as far as it is read. -/
def sectionOf (options : Options) (name : String) : Except PyError Section := do
  let cloudUsername ← options.text? name "cloud_username"
  if cloudUsername = none then return { name }
  let cloudPassword ← options.text? name "cloud_password"
  if cloudPassword = none then return { name, cloudUsername }
  let cloudTenantName ← options.text? name "cloud_tenant_name"
  if cloudTenantName = none then return { name, cloudUsername, cloudPassword }
  let cloudImageUuid ← options.text? name "cloud_image_uuid"
  let cloudVmUserdataFile ← options.text? name "cloud_vm_userdata_file"
  let workerNodeFlavor ← options.text? name "worker_node_flavor"
  let numberOfDynamicWorkerNodes ← options.text? name "number_of_dynamic_worker_nodes"
  let staticWorkerNodes ← options.text? name "static_worker_nodes"
  let accountString ← options.text? name "account_string"
  let hasVolume ← Options.catchValueError (options.text? name "has_volume") (.ok none)
  let reservationType ← options.text? name "reservation_type"
  return {
    name, cloudUsername, cloudPassword, cloudTenantName, cloudImageUuid, cloudVmUserdataFile
    workerNodeFlavor, numberOfDynamicWorkerNodes, staticWorkerNodes, accountString, hasVolume
    reservationType }

theorem name_sectionOf {options : Options} {name : String} {sect : Section}
    (h : sectionOf options name = .ok sect) : sect.name = name := by
  rw [sectionOf] at h
  obtain ⟨_, -, h⟩ := bind_eq_ok.1 h
  split at h
  · rw [← Except.ok.inj h]
  obtain ⟨_, -, h⟩ := bind_eq_ok.1 h
  split at h
  · rw [← Except.ok.inj h]
  obtain ⟨_, -, h⟩ := bind_eq_ok.1 h
  split at h
  · rw [← Except.ok.inj h]
  obtain ⟨_, -, h⟩ := bind_eq_ok.1 h
  obtain ⟨_, -, h⟩ := bind_eq_ok.1 h
  obtain ⟨_, -, h⟩ := bind_eq_ok.1 h
  obtain ⟨_, -, h⟩ := bind_eq_ok.1 h
  obtain ⟨_, -, h⟩ := bind_eq_ok.1 h
  obtain ⟨_, -, h⟩ := bind_eq_ok.1 h
  obtain ⟨_, -, h⟩ := bind_eq_ok.1 h
  obtain ⟨_, -, h⟩ := bind_eq_ok.1 h
  rw [← Except.ok.inj h]

theorem names_of_mapM {options : Options} {names : List String} {sections : List Section}
    (h : names.mapM (sectionOf options) = .ok sections) : sections.map Section.name = names := by
  have hall := mapM_eq_ok.1 h
  clear h
  induction hall with
  | nil => rfl
  | cons hsection _ ih => rw [List.map_cons, name_sectionOf hsection, ih]

/-- The sections of the cloud-resources file, in order. -/
def resourcesFile (options : Options) (parser : ConfigParser) : Except PyError ResourcesFile :=
  match h : parser.sections.mapM (sectionOf options) with
  | .ok sections => .ok { sections, nodup := names_of_mapM h ▸ parser.nodup }
  | .error e => .error e

/-- The settings that the static syntax depends on. -/
def placement (cloud : CloudSettings) (torque : TorqueSettings) : Config :=
  { cloudAvailabilityZone := cloud.cloudAvailabilityZone
    locationProperties := torque.locationProperties }

/-- `parse_cloud_resources_config_file`, of the file at a location. -/
def Environment.cloudResources (env : Environment) (cloud : CloudSettings)
    (torque : TorqueSettings) (location : String) : Except PyError (Dict ResourceArguments) :=
  match env.read (env.expanduser location) with
  | .error _ => .error (.exception "SystemExit")
  | .ok parser => do
    let file ← resourcesFile (parser.get (env.percent parser)) parser
    parseCloudResourcesConfigFile (placement cloud torque)
      ⟨cloud.cloudImageUuid, cloud.cloudVmUserdataFile⟩ file

/-- The default resource. -/
def defaultResource (cloud : CloudSettings) (staticWorkerNodes : String)
    (staticVmList : Option StaticVMs) : ResourceArguments where
  username := cloud.cloudUsername
  password := cloud.cloudPassword
  tenantName := cloud.cloudTenantName
  imageUuid := cloud.cloudImageUuid
  userDataFile := cloud.cloudVmUserdataFile
  workerNodeFlavors := .list cloud.workerNodeFlavors
  staticWorkerNodes := staticWorkerNodes
  numberOfDynamicWorkerNodes := cloud.numberOfDynamicWorkerNodes
  staticVmList := staticVmList

/-- What `setup` has set. -/
structure Settings where
  globals : GlobalSettings
  cloud : CloudSettings
  torque : TorqueSettings
  staticWorkerNodes : String
  staticVmList : Option StaticVMs
  defaultLocation : ℤ
  cloudResources : Dict ResourceArguments
  logging : LoggingSettings

/-- The static VMs of the default resource. -/
def readStatic (options : Options) (cfg : Config) :
    Except PyError (String × Option StaticVMs) := do
  let staticWorkerNodes ← options.text? "cloud" "static_worker_nodes"
  match staticWorkerNodes with
  | some text => do
    let staticVmList ← parseStaticWorkerNodes cfg text
    return (text, staticVmList)
  | none => return ("", some [])

/-- The table of resources. The cloud-resources file may have a section `default`, too. -/
def readResources (env : Environment) (options : Options) (cloud : CloudSettings)
    (torque : TorqueSettings) (default : ResourceArguments) :
    Except PyError (Dict ResourceArguments) := do
  let location ← options.text? "cloud" "cloud_resources_config"
  match location with
  | none => return AList.singleton "default" default
  | some location => do
    let others ← env.cloudResources cloud torque location
    return others ∪ AList.singleton "default" default

/-- `setup`, of the options of the main file. Without flavours the variable has no value. -/
def setupFrom (env : Environment) (options : Options) : Except PyError Settings := do
  let globals ← GlobalSettings.read options
  let cloud ← CloudSettings.read options
  let torque ← TorqueSettings.read options
  let static ← readStatic options (placement cloud torque)
  let defaultLocation ← options.number "torque" "default_location" 0
  if cloud.workerNodeFlavors = [] then
    .error (.exception "NameError: worker_node_flavors")
  else
    let cloudResources ← readResources env options cloud torque
      (defaultResource cloud static.1 static.2)
    let logging ← LoggingSettings.read env.expanduser options
    return {
      globals, cloud, torque
      staticWorkerNodes := static.1
      staticVmList := static.2
      defaultLocation, cloudResources, logging }

/-- `setup`. -/
def setup (env : Environment) (path : Option String) : Except PyError Settings := do
  let path ← env.configFile path
  let parser ← env.read path
  setupFrom env (parser.get (env.percent parser))

/-! ### What the other modules read -/

/-- The objects of the resources. -/
def Settings.resources (s : Settings) : CloudResources where
  names := s.cloudResources.keys
  nodup := s.cloudResources.keys_nodup
  object := fun name ↦ .init ((s.cloudResources.lookup name).getD
    (defaultResource s.cloud s.staticWorkerNodes s.staticVmList))

end DynamicTorque
