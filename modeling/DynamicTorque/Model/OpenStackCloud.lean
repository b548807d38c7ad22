import DynamicTorque.Model.ClusterState

/-!
# The OpenStack wrapper

`openstack_cloud.py`. What the cloud answers is a parameter of each function, so a statement for
all answers is a statement for every behaviour of the cloud. `_open_connection` retries until it
is connected: a thread that waits for this gets no turn. What is left of it is the lookup of the
resource, which raises for an unknown name.
-/

open Python Atomic

namespace DynamicTorque

open Proc

/-- The lookup in `_open_connection`. -/
def openConnection (resource : String) : Proc CloudResource := do
  let crs ← resources
  Program.lift (crs.get resource)

/-! ### Destroying a server -/

/-- `vm_destroy`, with the record that the caller has at hand for the VM. -/
def vmDestroy (v : VmRef) (record : Option WorkerNode) (answer : DestroyAnswer) (now : Time) :
    Proc Bool := do
  let vm ← vm v
  let _ ← openConnection vm.cloudResourceName
  emit (.vmDestroy v record vm.forceOff answer)
  match answer with
  -- the exception is caught and logged
  | .failed => return false
  | .deleted | .notFound => do
    setVm v fun vm ↦ { vm with deleteTime := some now }
    return true

/-! ### Starting a server -/

/-- A server that was created. -/
structure StartedServer where
  id : String
  unique : String
  vcpus : ℤ
  created : Time

/-- `vm_start`. The answer is `none` where the function returns `None`: the userdata file is
missing, the flavour is unknown, or the creation raised. -/
def vmStart (cfg : Config) (flavor : FlavorRef) (zone : Option String) (resource : String)
    (answer : Option StartedServer) : Proc (Option VmRef) := do
  let res ← openConnection resource
  emit (.vmStart flavor zone resource)
  match answer with
  | none => return none
  | some server => do
    let zone := if zone.getD "" = "" then some cfg.cloudAvailabilityZone else zone
    let serverName := cfg.cloudVmPrefix ++ "-" ++ resource ++ "-" ++ server.unique
    let v ← newVm (VM.init server.id serverName server.vcpus (some flavor) server.created zone
      (some res.imageUuid) resource)
    return some v

/-! ### Checking a server -/

/-- What `vm_check` returns, from 0 to 4. -/
inductive CloudState
  | ready
  | configuring
  | building
  | destroyed
  | error
  deriving DecidableEq, Repr

/-- A server as the cloud reports it. `address` is `none` where the address cannot be read; the
two flavours are the answers to the two calls of `flavors.get`, `none` where the call raises. -/
structure ServerReport where
  status : String
  created : Time
  vmState : String
  taskState : Option String
  address : Option String
  imageId : String
  sizeFlavor : Option VMFlavor
  flavor : Option VMFlavor
  serverUp : Bool

/-- `connection.flavors.get`, which raises for an unknown flavour. -/
def getFlavor (answer : Option VMFlavor) : Proc VMFlavor :=
  match answer with
  | some flavor => pure flavor
  | none => Program.raise (.exception "flavor not found")

/-- The number of cores is looked up once. -/
def setVcpuNumber (v : VmRef) (sizeFlavor : Option VMFlavor) : Proc Unit := do
  let vm ← vm v
  -- 0 stands for not known yet
  if vm.vcpuNumber = 0 then
    let flavor ← getFlavor sizeFlavor
    setVm v fun vm ↦ { vm with vcpuNumber := flavor.vcpus }
  else pure ()

/-- The end of `vm_check`, for a server that is active and has an address. The zone is not read
from the server but set to the default one. -/
def checkActive (cfg : Config) (v : VmRef) (report : ServerReport) (ip : String) :
    Proc CloudState := do
  setVm v fun vm ↦
    { vm with
      availabilityZone := some cfg.cloudAvailabilityZone
      imageId := some report.imageId
      ip := some ip }
  let flavor ← getFlavor report.flavor
  setVm v fun vm ↦ { vm with flavor := some (.object flavor) }
  return if report.serverUp then .ready else .configuring

/-- `vm_check`. The answer is `none` where `servers.get` raises. -/
def vmCheck (cfg : Config) (v : VmRef) (answer : Option ServerReport) : Proc CloudState := do
  let vm ← vm v
  let _ ← openConnection vm.cloudResourceName
  match answer with
  | none => return .destroyed
  | some report => do
    setVm v fun vm ↦ { vm with state := some report.status, startTime := report.created }
    setVcpuNumber v report.sizeFlavor
    if report.status = "ERROR" ∨ report.vmState = "error" then return .error
    else if report.status ≠ "ACTIVE" ∨ report.vmState ≠ "active" ∨ report.taskState.isSome then
      return .building
    else
      match report.address with
      -- active, but the address cannot be read yet
      | none => return .building
      | some ip => checkActive cfg v report ip

/-! ### Listing servers -/

/-- A server in a listing. -/
structure ListedServer where
  id : String
  name : String
  status : String
  created : Time
  vmState : String
  taskState : Option String
  address : Option String
  zone : Option String
  imageId : String
  flavor : VMFlavor

/-- The VM object that `vm_list` makes of a server of a resource. -/
def ListedServer.toVm (server : ListedServer) (resource : String) : VM :=
  let active := server.status = "ACTIVE" ∧ server.vmState = "active" ∧ server.taskState = none
  -- address, zone and image are read only of a server that is up
  { VM.init server.id server.name server.flavor.vcpus (some (.object server.flavor))
      server.created none none resource with
    ip := if active then server.address else none
    availabilityZone := if active then server.zone else none
    imageId := if active then some server.imageId else none
    state := some server.status }

/-- `load_all_existing_worker_nodes`, from the listings of the resources. A listing that raises is
empty. -/
def loadAllExistingWorkerNodes (resources : List String) (vmList : String → List ListedServer) :
    List VM :=
  resources.flatMap fun res ↦ (vmList res).map fun server ↦ server.toVm res

/-! ### Security groups -/

/-- A rule of a security group. A rule without a `cidr` admits another group. -/
structure SecurityGroupRule where
  id : ℕ
  parentGroupId : ℕ
  protocol : String
  fromPort : Option ℤ
  toPort : Option ℤ
  cidr : Option String
  deriving DecidableEq, Repr

structure SecurityGroup where
  id : ℕ
  name : String
  deriving DecidableEq, Repr

/-- The security groups of a resource and their rules. A rule is known by its id, and the next id
has not been given away. -/
structure SecurityGroups where
  groups : List SecurityGroup
  rules : List SecurityGroupRule
  nextRuleId : ℕ
  nodup : (rules.map SecurityGroupRule.id).Nodup
  lt_nextRuleId : ∀ rule ∈ rules, rule.id < nextRuleId

/-- What a rule admits, as the callers give it. -/
structure RuleSpec where
  protocol : String
  cidr : String
  fromPort : ℤ
  toPort : ℤ
  deriving DecidableEq, Repr

/-- The test of both scans. -/
def RuleSpec.found (spec : RuleSpec) (rule : SecurityGroupRule) : Bool :=
  rule.fromPort = some spec.fromPort ∧ rule.toPort = some spec.toPort ∧ rule.cidr = some spec.cidr

namespace SecurityGroups

/-- `sg.rules`. -/
def rulesOf (sgs : SecurityGroups) (sg : SecurityGroup) : List SecurityGroupRule :=
  sgs.rules.filter fun rule ↦ rule.parentGroupId = sg.id

/-- The rule that `security_group_rules.create` makes. -/
def newRule (sgs : SecurityGroups) (sgId : ℕ) (spec : RuleSpec) : SecurityGroupRule where
  id := sgs.nextRuleId
  parentGroupId := sgId
  protocol := spec.protocol
  fromPort := some spec.fromPort
  toPort := some spec.toPort
  cidr := some spec.cidr

/-- `security_group_rules.create`. -/
def create (sgs : SecurityGroups) (sgId : ℕ) (spec : RuleSpec) : SecurityGroups where
  groups := sgs.groups
  rules := sgs.rules ++ [sgs.newRule sgId spec]
  nextRuleId := sgs.nextRuleId + 1
  nodup := by
    rw [List.map_append]
    refine sgs.nodup.append (List.nodup_singleton _) fun id hid hnew ↦ ?_
    obtain ⟨rule, hrule, rfl⟩ := List.mem_map.1 hid
    exact absurd (List.mem_singleton.1 hnew) (sgs.lt_nextRuleId rule hrule).ne
  lt_nextRuleId := by
    intro rule hrule
    rcases List.mem_append.1 hrule with hrule | hrule
    · exact Nat.lt_succ_of_lt (sgs.lt_nextRuleId rule hrule)
    · exact List.mem_singleton.1 hrule ▸ Nat.lt_succ_self _

/-- `security_group_rules.delete`. -/
def delete (sgs : SecurityGroups) (ruleId : ℕ) : SecurityGroups where
  groups := sgs.groups
  rules := sgs.rules.filter fun rule ↦ rule.id ≠ ruleId
  nextRuleId := sgs.nextRuleId
  nodup := sgs.nodup.sublist (List.filter_sublist.map SecurityGroupRule.id)
  lt_nextRuleId rule hrule := sgs.lt_nextRuleId rule (List.mem_of_mem_filter hrule)

end SecurityGroups

/-- `add_security_group_rule`. -/
def addSecurityGroupRule (crs : CloudResources) (res sgName : String) (spec : RuleSpec)
    (sgs : SecurityGroups) : Except PyError SecurityGroups := do
  let _ ← crs.get res
  match sgs.groups.find? fun sg ↦ sg.name = sgName with
  -- `the_sg` is not bound; the exception is caught and logged
  | none => return sgs
  | some sg => return if (sgs.rulesOf sg).any spec.found then sgs else sgs.create sg.id spec

/-- `remove_security_group_rule`. -/
def removeSecurityGroupRule (crs : CloudResources) (res sgName : String) (spec : RuleSpec)
    (sgs : SecurityGroups) : Except PyError SecurityGroups := do
  let _ ← crs.get res
  match sgs.groups.find? fun sg ↦ sg.name = sgName with
  | none => return sgs
  | some sg =>
    match (sgs.rulesOf sg).find? spec.found with
    | none => return sgs
    | some rule => return sgs.delete rule.id

end DynamicTorque
