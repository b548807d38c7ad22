import DynamicTorque.Language.Builtins

/-!
# Model classes

`cloud_tools.py`: virtual machines, flavours, cloud resources, the scheduler's allocations,
provision requests and the outstanding static requests. Fields that no modelled function
reads (credentials, job ids, idle counters, memory) are left out.

Integers that Python computes with are `ℤ`. A VM is referred to by a `VmRef`: Python lists
hold references and `list.remove` compares them by identity, as none of the classes defines
`__eq__`.
-/

open Python

namespace DynamicTorque

/-- A flavour as the cloud lists it. -/
structure VMFlavor where
  id : String
  name : String
  vcpus : ℤ
  deriving DecidableEq, Repr

/-- What the field `flavor` of a VM or of a request holds: the id that the request was made
with, or the object that a status check puts there. -/
inductive FlavorRef
  | id (flavorId : String)
  | object (flavor : VMFlavor)
  deriving DecidableEq, Repr

namespace FlavorRef

/-- `if flavor:`. An id is a string, and the empty one is false. -/
def truthy : FlavorRef → Bool
  | .id s => s ≠ ""
  | .object _ => true

/-- `flavor.name`, which a string does not have. -/
def name : FlavorRef → Except PyError String
  | .id _ => .error (.attributeError "name")
  | .object f => .ok f.name

end FlavorRef

/-- The identity of a VM object. -/
abbrev VmRef := ℕ

/-- A virtual machine. `availabilityZone` and `flavor` are `none` where Python has `None`. -/
structure VM where
  id : String
  name : String
  ip : Option String
  vcpuNumber : ℤ
  hostname : String
  flavor : Option FlavorRef
  cloudReady : Bool
  startTime : Time
  state : Option String
  stateTime : Option ℤ
  deleteTime : Option Time
  forceOff : Bool
  dynamic : Bool
  availabilityZone : Option String
  imageId : Option String
  cloudResourceName : String
  postProvisionCommandExecuted : Bool
  deriving DecidableEq, Repr

/-- `VM.__init__`. The constructor takes an availability zone and stores `None`. -/
def VM.init (id name : String) (vcpuNumber : ℤ) (flavor : Option FlavorRef) (created : Time)
    (_availabilityZone : Option String) (imageId : Option String)
    (cloudResourceName : String) : VM where
  id := id
  name := name
  ip := none
  vcpuNumber := vcpuNumber
  hostname := name
  flavor := flavor
  cloudReady := false
  startTime := created
  state := some "N/A"
  stateTime := none
  deleteTime := none
  forceOff := false
  dynamic := true
  availabilityZone := none
  imageId := imageId
  cloudResourceName := cloudResourceName
  postProvisionCommandExecuted := false

/-- A request to start one VM: `flavor` is a flavour, `zone` the name of a zone in the cloud. -/
structure ProvisionVM where
  flavor : FlavorRef
  zone : Option String
  resourceName : String
  static : Bool := false
  deriving DecidableEq, Repr

/-! ### Static requests -/

/-- An outstanding request for `numOfVm` static VMs at a location. -/
structure StaticReq where
  location : String
  numOfVm : ℤ
  deriving DecidableEq, Repr

/-- `StaticVMs.static_list`. -/
abbrev StaticVMs := List StaticReq

/-- The mapping from location properties to availability zones. -/
abbrev LocationProperties := Dict String

namespace StaticVMs

/-- `add_static_req`: add to the first entry of the location, or append an entry. -/
def addStaticReq (location : String) (numOfVm : ℤ) : StaticVMs → StaticVMs
  | [] => [⟨location, numOfVm⟩]
  | req :: rest =>
    if req.location = location then { req with numOfVm := req.numOfVm + numOfVm } :: rest
    else req :: addStaticReq location numOfVm rest

/-- `need_more`. -/
def needMore (reqs : StaticVMs) : Bool :=
  reqs.any fun req ↦ 0 < req.numOfVm

/-- Whether a VM in `zone` is at `location`. Without a mapping every VM is everywhere. -/
def atLocation (props : LocationProperties) (location : String) (zone : Option String) :
    Except PyError Bool :=
  if props.entries.isEmpty then .ok true
  else do
    let z ← props.get location
    pure (some z = zone)

/-- `need_vm`: the first entry with a positive count whose zone is the VM's zone is lowered by
one. The zone is looked up before the count is tested, so an unmapped location raises. -/
def needVm (zone : Option String) (props : LocationProperties) :
    StaticVMs → Except PyError (Bool × StaticVMs)
  | [] => .ok (false, [])
  | req :: rest => do
    let here ← atLocation props req.location zone
    if here ∧ 0 < req.numOfVm then pure (true, { req with numOfVm := req.numOfVm - 1 } :: rest)
    else
      let (found, rest') ← needVm zone props rest
      pure (found, req :: rest')

/-- `get_provision_list`: one request object for each entry, listed `num_of_vm` times. The
result pairs each object with its multiplicity. -/
def getProvisionList (flavor : VMFlavor) (resourceName : String) (props : LocationProperties) :
    StaticVMs → Except PyError (List (ProvisionVM × ℕ))
  | [] => .ok []
  | req :: rest => do
    let zone ← if props.entries.isEmpty then pure none
      else do
        let z ← props.get req.location
        pure (some z)
    let tail ← getProvisionList flavor resourceName props rest
    pure ((⟨.id flavor.id, zone, resourceName, true⟩, req.numOfVm.toNat) :: tail)

/-- The VMs still outstanding over all locations. -/
def outstanding (reqs : StaticVMs) : ℤ :=
  (reqs.map StaticReq.numOfVm).sum

end StaticVMs

/-! ### Cloud resources -/

/-- `worker_node_flavors`: a list of names for the default resource, and one string for a
resource from the cloud-resources file. -/
inductive FlavorNames
  | list (names : List String)
  | text (name : String)
  deriving DecidableEq, Repr

/-- `worker_node_flavors[0]`: the first name of a list, the first character of a string. -/
def FlavorNames.first : FlavorNames → Except PyError String
  | .list (n :: _) => .ok n
  | .list [] => .error .indexError
  | .text s =>
    match s.toList with
    | c :: _ => .ok (String.ofList [c])
    | [] => .error .indexError

/-- A set of credentials with its image, flavours and limits. -/
structure CloudResource where
  imageUuid : String
  userDataFile : String
  workerNodeFlavors : FlavorNames
  numberOfDynamicWorkerNodes : ℤ
  flavorObjects : List VMFlavor
  /-- `None` when the static request string could not be placed. -/
  staticVmsToStart : Option StaticVMs
  availableNumberOfNodes : ℤ
  accountString : Option String
  hasVolume : Bool
  reservationType : String
  deriving DecidableEq, Repr

namespace CloudResource

/-- `worker_node_flavor`, an attribute that `__init__` does not set. -/
def workerNodeFlavor (_ : CloudResource) : Except PyError String :=
  .error (.attributeError "worker_node_flavor")

/-- `flavor_objects[0]`. -/
def firstFlavor (res : CloudResource) : Except PyError VMFlavor :=
  match res.flavorObjects with
  | f :: _ => .ok f
  | [] => .error .indexError

/-- `flavor_objects.sort(key=vcpus, reverse=True)`. -/
def sortFlavors (res : CloudResource) : CloudResource :=
  { res with flavorObjects := sortByKeyReverse VMFlavor.vcpus res.flavorObjects }

/-- `available_cores`: the flavours are sorted in place, and the answer is in cores of the
largest one. -/
def availableCores (res : CloudResource) : Except PyError (ℤ × CloudResource) := do
  let largest ← res.sortFlavors.firstFlavor
  pure (res.availableNumberOfNodes * largest.vcpus, res.sortFlavors)

end CloudResource

/-- `config.cloud_resources`: the resource names and the object of each. -/
structure CloudResources where
  names : List String
  nodup : names.Nodup
  object : String → CloudResource

namespace CloudResources

/-- `cloud_resources[name]`. -/
def get (crs : CloudResources) (name : String) : Except PyError CloudResource :=
  if name ∈ crs.names then .ok (crs.object name) else .error (.keyError name)

/-- Assignment to fields of the object of a resource. -/
def modify (crs : CloudResources) (name : String) (f : CloudResource → CloudResource) :
    CloudResources :=
  { crs with object := Function.update crs.object name (f (crs.object name)) }

@[simp] theorem names_modify (crs : CloudResources) (name : String)
    (f : CloudResource → CloudResource) : (crs.modify name f).names = crs.names := rfl

@[simp] theorem object_modify_self (crs : CloudResources) (name : String)
    (f : CloudResource → CloudResource) :
    (crs.modify name f).object name = f (crs.object name) := by
  simp [modify]

theorem object_modify_of_ne (crs : CloudResources) {name other : String}
    (h : other ≠ name) (f : CloudResource → CloudResource) :
    (crs.modify name f).object other = crs.object other := by
  simp [modify, h]

/-- `cloud_resources[name].static_vms_to_start`, on which `method` is called next. The object may be
`None`, which has no methods. -/
def staticVmsToStart (crs : CloudResources) (name method : String) : Except PyError StaticVMs := do
  let res ← crs.get name
  match res.staticVmsToStart with
  | some reqs => .ok reqs
  | none => .error (.attributeError method)

theorem get_eq_ok_iff {crs : CloudResources} {name : String} {res : CloudResource} :
    crs.get name = .ok res ↔ name ∈ crs.names ∧ res = crs.object name := by
  by_cases h : name ∈ crs.names <;> simp [get, h, eq_comm]

end CloudResources

/-! ### Allocations -/

/-- The cores that one new node is to offer, and the location it must have. -/
structure ResAllocation where
  vcpuList : List ℤ
  locationProperty : Option String
  deriving DecidableEq, Repr

/-- `get_total_num_cores`. -/
def ResAllocation.getTotalNumCores (res : ResAllocation) : ℤ :=
  res.vcpuList.sum

end DynamicTorque
