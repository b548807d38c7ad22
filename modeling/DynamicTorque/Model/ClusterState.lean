import DynamicTorque.Language.Program
import DynamicTorque.Model.JobScheduler

/-!
# The state of the resource center and its atomic steps

`ResourceCenter` keeps one object per process, shared by the JobPoller, the CloudPoller and the
InfoServer. Its attributes are the fields of `State`. The VM objects live in a heap: the life-cycle
lists hold references, and `list.remove` compares references.

An operation of the class is a program over the steps of `Act`: a read or an assignment of an
attribute, a call of an external command (recorded in the trace), or a whole `with write_lock:`
block (`Block`). The granularity is that of the source: nothing outside a block is grouped into one
step except a scan or lookup of a list.
-/

open Python Atomic

namespace DynamicTorque

/-- A node as `pbsnodes` reports it. `jobs` is `none` where the record has no such entry. -/
structure WorkerNode where
  name : String
  state : String
  jobs : Option String
  deriving DecidableEq, Repr

/-- What happened to the two calls inside `vm_destroy`: the server was deleted, the cloud no
longer knows it, or something else was raised. -/
inductive DestroyAnswer
  | deleted
  | notFound
  | failed
  deriving DecidableEq, Repr

/-- The calls that leave the process, as the trace records them. -/
inductive Event
  | vmStart (flavor : FlavorRef) (zone : Option String) (resource : String)
  /-- `record` is the worker-node record that the operation has at hand for the VM. -/
  | vmDestroy (vm : VmRef) (record : Option WorkerNode) (forceOff : Bool) (answer : DestroyAnswer)
  | command (command : Command) (vm : VmRef)
  /-- `remove_node_from_torque` of a node that has no VM. -/
  | removeOrphan (name : String)
  | addSecurityGroupRule (resource ip : String)
  | removeSecurityGroupRule (resource ip : String)
  | dumpNodes (hostnames : List String)
  deriving DecidableEq, Repr

/-- An entry of `provision_waiting_list`: a request object. An object may be listed many times. -/
structure WaitingRequest where
  ref : ℕ
  request : ProvisionVM
  deriving DecidableEq, Repr

/-- The attributes that a query of Torque and Maui sets. -/
structure Cluster where
  idleJobs : List Job
  totalNumberOfIdleJobs : ℤ
  runningJobs : List Job
  numberOfWn : ℤ
  workerNodes : List WorkerNode
  pbsServerUp : Bool
  mauiServerUp : Bool
  deriving DecidableEq, Repr

/-- The life-cycle lists. -/
inductive ListName
  | existing
  | starting
  | deleting
  deriving DecidableEq, Repr

/-- The attributes of the resource center, the heap of VM objects and the trace. -/
structure State where
  sleepMode : Bool
  cluster : Cluster
  provisioning : Bool
  existing : List VmRef
  starting : List VmRef
  deleting : List VmRef
  waiting : List WaitingRequest
  vms : VmRef → VM
  nextVm : ℕ
  nextRequest : ℕ
  resources : CloudResources
  trace : List Event

namespace State

/-- The list of a name. -/
def list (s : State) : ListName → List VmRef
  | .existing => s.existing
  | .starting => s.starting
  | .deleting => s.deleting

/-- Assignment to the list of a name. -/
def setList (s : State) (xs : List VmRef) : ListName → State
  | .existing => { s with existing := xs }
  | .starting => { s with starting := xs }
  | .deleting => { s with deleting := xs }

/-- Assignment to attributes of a VM object. -/
def setVm (s : State) (v : VmRef) (f : VM → VM) : State :=
  { s with vms := Function.update s.vms v (f (s.vms v)) }

/-- One more event in the trace. -/
def emit (s : State) (e : Event) : State :=
  { s with trace := s.trace ++ [e] }

/-- The first existing VM with a hostname. -/
def findVm (s : State) (hostname : String) : Option VmRef :=
  s.existing.find? fun v ↦ (s.vms v).hostname = hostname

/-- `need_vm` of the static requests of a VM's resource. -/
def needVm (cfg : Config) (s : State) (v : VmRef) : Except PyError (Bool × StaticVMs) := do
  let vm := s.vms v
  let reqs ← s.resources.staticVmsToStart vm.cloudResourceName "need_vm"
  reqs.needVm vm.availabilityZone cfg.locationProperties

/-- New objects in the heap, one for each of `vms`. -/
def allocate (s : State) (vms : List VM) : State :=
  { s with
    vms := fun v ↦ if s.nextVm ≤ v then (vms[v - s.nextVm]?).getD (s.vms v) else s.vms v
    nextVm := s.nextVm + vms.length }

/-- New request objects, each listed as many times as its multiplicity says. -/
def waitFor (s : State) (requests : List (ProvisionVM × ℕ)) : State :=
  { s with
    waiting := s.waiting ++ (requests.zipIdx s.nextRequest).flatMap fun r ↦
      List.replicate r.1.2 ⟨r.2, r.1.1⟩
    nextRequest := s.nextRequest + requests.length }

/-- The nodes of a resource that `update_available_cores` counts as in use: the dynamic VMs that
exist or are being deleted. -/
def usedNodes (s : State) (resource : String) : ℕ :=
  (s.existing ++ s.deleting).countP fun v ↦
    (s.vms v).dynamic ∧ (s.vms v).cloudResourceName = resource

/-- The state after `update_available_cores`. -/
def updateAvailableCores (s : State) : State :=
  { s with
    resources :=
      { s.resources with
        object := fun resource ↦
          { s.resources.object resource with
            availableNumberOfNodes :=
              (s.resources.object resource).numberOfDynamicWorkerNodes - s.usedNodes resource } } }

end State

/-! ### Steps under the lock -/

/-- The code of a `with write_lock:` block. What was done before an exception stays done. -/
abbrev Locked := EStateM PyError State

namespace Locked

/-- `if c: x`. -/
def when (c : Prop) [Decidable c] (x : Locked Unit) : Locked Unit :=
  if c then x else pure ()

/-- `self.<list>.append(vm)`. -/
def append (L : ListName) (v : VmRef) : Locked Unit :=
  modify fun s ↦ s.setList (s.list L ++ [v]) L

/-- `self.<list>.remove(vm)`. -/
def removeFrom (L : ListName) (v : VmRef) : Locked Unit := do
  let s ← get
  let xs ← lift (remove v (s.list L))
  set (s.setList xs L)

def setVm (v : VmRef) (f : VM → VM) : Locked Unit :=
  modify fun s ↦ s.setVm v f

def emit (e : Event) : Locked Unit :=
  modify fun s ↦ s.emit e

def setStaticVmsToStart (name : String) (reqs : StaticVMs) : Locked Unit :=
  modify fun s ↦ { s with
    resources := s.resources.modify name fun res ↦ { res with staticVmsToStart := some reqs } }

/-- A VM that is ready: it leaves the starting list, becomes static if its zone needs one, and
exists. -/
def readyVm (cfg : Config) (v : VmRef) : Locked Unit := do
  removeFrom .starting v
  let s ← get
  let (needed, reqs) ← lift (s.needVm cfg v)
  setStaticVmsToStart (s.vms v).cloudResourceName reqs
  when needed (setVm v fun vm ↦ { vm with dynamic := false })
  append .existing v

/-- The loop of `update_provision_status` over the VMs that are ready. -/
def commitReady (cfg : Config) : List VmRef → Locked Unit
  | [] => pure ()
  | v :: vs => do
    readyVm cfg v
    commitReady cfg vs

/-- A VM that has an address is taken off the NFS security group of a resource. -/
def removeRule (cfg : Config) (vm : VM) (res : String) : Locked Unit :=
  match vm.ip, cfg.cloudSecurityGroups with
  | none, _ => pure ()
  | some _, [] => throw .indexError
  | some ip, _ :: _ => emit (.removeSecurityGroupRule res ip)

/-- The firewall part of the clean-up of a VM, for the resources `names`. -/
def closeFirewall (cfg : Config) (vm : VM) : List String → Locked Unit
  | [] => pure ()
  | res :: names => do
    let s ← get
    when (res ≠ "default" ∧ (s.resources.object res).hasVolume) (removeRule cfg vm res)
    closeFirewall cfg vm names

/-- The request that replaces a deleted static VM: its location asks for one more VM, and a
request with its flavour is queued. `self.flavors`, which stands in for a missing flavour, is not
an attribute of the class. -/
def replaceStatic (cfg : Config) (vm : VM) : Locked Unit :=
  match cfg.locationOfZone vm.availabilityZone with
  | none => pure ()
  | some loc =>
    if loc = "" then pure ()
    else do
      let s ← get
      let reqs ← lift (s.resources.staticVmsToStart vm.cloudResourceName "add_static_req")
      setStaticVmsToStart vm.cloudResourceName (reqs.addStaticReq loc 1)
      match vm.flavor with
      | some flavor =>
        if flavor.truthy then
          modify fun s ↦
            s.waitFor [(⟨flavor, vm.availabilityZone, vm.cloudResourceName, !vm.dynamic⟩, 1)]
        else throw (.attributeError "flavors")
      | none => throw (.attributeError "flavors")

/-- A hook of a VM. If its command line cannot be built it raises, and nothing has been run. -/
def runHook (cfg : Config) (hook : Command) (v : VmRef) : Locked Unit := do
  let s ← get
  let _ ← lift (hook.invocation cfg.commands (s.vms v))
  emit (.command hook v)

/-- A VM that is gone leaves the deleting list, and a static one is asked for again. -/
def dropVm (cfg : Config) (v : VmRef) : Locked Unit := do
  removeFrom .deleting v
  runHook cfg .postVmDestroyAction v
  runHook cfg .postRemoveNodeAction v
  let s ← get
  when ((s.vms v).cloudResourceName = "default")
    (closeFirewall cfg (s.vms v) s.resources.names)
  when (¬(s.vms v).dynamic) (replaceStatic cfg (s.vms v))

/-- The loop of `check_cleanup` over the VMs that are gone. -/
def dropDeleted (cfg : Config) : List VmRef → Locked Unit
  | [] => pure ()
  | v :: vs => do
    dropVm cfg v
    dropDeleted cfg vs

/-- A VM that is busy again exists again. -/
def resumeVm (v : VmRef) : Locked Unit := do
  append .existing v
  removeFrom .deleting v
  emit (.command .releaseNode v)

/-- The loop of `check_cleanup` over the VMs that are busy again. -/
def resumeExecuting : List VmRef → Locked Unit
  | [] => pure ()
  | v :: vs => do
    resumeVm v
    resumeExecuting vs

/-- The loop of `launch_instances` that takes requests off the waiting list. -/
def removeWaiting : List WaitingRequest → Locked Unit
  | [] => pure ()
  | r :: rs => do
    let s ← get
    let waiting ← lift (remove r s.waiting)
    set { s with waiting := waiting }
    removeWaiting rs

end Locked

/-- The `with write_lock:` blocks. -/
inductive Block
  /-- `kill_vm`, `check_existing_worker_nodes`. -/
  | existingToDeleting (v : VmRef)
  /-- `check_existing_worker_nodes`, for an idle node. -/
  | dropExisting (v : VmRef)
  /-- `forceoff`, for the existing and the starting VMs. -/
  | drain (L : ListName)
  /-- `_load_existing_worker_nodes`. -/
  | existingToStarting (v : VmRef)
  | destroyExisting (v : VmRef)
  /-- `update_provision_status`. -/
  | commitReady (vs : List VmRef)
  | startingToDeleting (v : VmRef)
  | setProvisioning (b : Bool)
  /-- `launch_instances`, after a start and at its end. -/
  | addStarting (v : VmRef)
  | endLaunch (rs : List WaitingRequest)
  /-- `determine_required_instances_numbers`. -/
  | queueRequests (requests : List ProvisionVM)
  | updateAvailableCores
  /-- `check_cleanup`. -/
  | commitCleanup (deleted executing : List VmRef)

open Locked in
/-- The code of each block. -/
def Block.code (cfg : Config) : Block → Locked Unit
  | .existingToDeleting v => do
    append .deleting v
    removeFrom .existing v
  | .dropExisting v => removeFrom .existing v
  | .drain L => modify fun s ↦
    { s.setList [] L with deleting := (s.setList [] L).deleting ++ s.list L }
  | .existingToStarting v => do
    removeFrom .existing v
    append .starting v
  | .destroyExisting v => do
    removeFrom .existing v
    append .deleting v
  | .commitReady vs => Locked.commitReady cfg vs
  | .startingToDeleting v => do
    removeFrom .starting v
    append .deleting v
  | .setProvisioning b => modify fun s ↦ { s with provisioning := b }
  | .addStarting v => append .starting v
  | .endLaunch rs => removeWaiting rs
  | .queueRequests requests => modify fun s ↦
    { s.waitFor (requests.map fun r ↦ (r, 1)) with provisioning := true }
  | .updateAvailableCores => modify State.updateAvailableCores
  | .commitCleanup deleted executing => do
    dropDeleted cfg deleted
    resumeExecuting executing

/-! ### Steps -/

/-- The atomic steps of the operations. -/
inductive Act
  /-- Reads. -/
  | list (L : ListName)
  | findVm (hostname : String)
  | vm (v : VmRef)
  | waiting
  | cluster
  | provisioning
  | sleepMode
  | resources
  /-- Assignments. -/
  | setVm (v : VmRef) (f : VM → VM)
  | setCluster (f : Cluster → Cluster)
  | setProvisioning (b : Bool)
  | toggleSleepMode
  | setStatic (resource : String) (reqs : StaticVMs)
  | setAvailable (resource : String) (n : ℤ)
  /-- Objects. -/
  | newVm (vm : VM)
  | setExisting (vms : List VM)
  | appendWaiting (requests : List (ProvisionVM × ℕ))
  /-- `calculate_new_instances`, which sorts the flavours of the resources it looks at. -/
  | calculate (draws : JobScheduler.Draws) (idleJobs : List Job) (numberOfWn : ℤ)
  /-- Calls. -/
  | emit (e : Event)
  | dumpNodes
  | locked (b : Block)

/-- What a step replies. -/
def Act.Reply : Act → Type
  | .list _ => List VmRef
  | .findVm _ => Option VmRef
  | .vm _ => VM
  | .waiting => List WaitingRequest
  | .cluster => Cluster
  | .provisioning => Bool
  | .sleepMode => Bool
  | .resources => CloudResources
  | .newVm _ => VmRef
  | .calculate _ _ _ => List ProvisionVM
  | _ => Unit

/-- The meaning of each step. -/
def exec (cfg : Config) : (a : Act) → EStateM PyError State a.Reply
  | .list L => do return (← get).list L
  | .findVm hostname => do return (← get).findVm hostname
  | .vm v => do return (← get).vms v
  | .waiting => do return (← get).waiting
  | .cluster => do return (← get).cluster
  | .provisioning => do return (← get).provisioning
  | .sleepMode => do return (← get).sleepMode
  | .resources => do return (← get).resources
  | .setVm v f => modify fun s ↦ s.setVm v f
  | .setCluster f => modify fun s ↦ { s with cluster := f s.cluster }
  | .setProvisioning b => modify fun s ↦ { s with provisioning := b }
  | .toggleSleepMode => modify fun s ↦ { s with sleepMode := !s.sleepMode }
  | .setStatic resource reqs => Locked.setStaticVmsToStart resource reqs
  | .setAvailable resource n => modify fun s ↦ { s with
      resources := s.resources.modify resource fun res ↦ { res with availableNumberOfNodes := n } }
  | .newVm vm => do
    let s ← get
    set (s.allocate [vm])
    return s.nextVm
  | .setExisting vms => modify fun s ↦
    { s.allocate vms with existing := List.range' s.nextVm vms.length }
  | .appendWaiting requests => modify fun s ↦ s.waitFor requests
  | .calculate draws idleJobs numberOfWn => do
    let s ← get
    let (requests, resources) ←
      lift (JobScheduler.calculateNewInstances cfg draws idleJobs numberOfWn s.resources)
    set { s with resources := resources }
    return requests
  | .emit e => modify fun s ↦ s.emit e
  | .dumpNodes => modify fun s ↦ s.emit (.dumpNodes (s.existing.map fun v ↦ (s.vms v).hostname))
  | .locked b => b.code cfg

/-- The operations of the resource center are programs over these steps. -/
abbrev Proc := Program Act Act.Reply PyError

namespace Proc

/-- An operation executed without interruption. -/
abbrev exec {α : Type} (p : Proc α) (cfg : Config) : EStateM PyError State α :=
  p.run (DynamicTorque.exec cfg)

/-! Each step as a program. -/

abbrev list (L : ListName) : Proc (List VmRef) := Program.perform (Act.list L)
abbrev findVm (hostname : String) : Proc (Option VmRef) :=
  Program.perform (Act.findVm hostname)
abbrev vm (v : VmRef) : Proc VM := Program.perform (Act.vm v)
abbrev waiting : Proc (List WaitingRequest) := Program.perform Act.waiting
abbrev cluster : Proc Cluster := Program.perform Act.cluster
abbrev provisioning : Proc Bool := Program.perform Act.provisioning
abbrev sleepMode : Proc Bool := Program.perform Act.sleepMode
abbrev resources : Proc CloudResources := Program.perform Act.resources
abbrev newVm (vm : VM) : Proc VmRef := Program.perform (Act.newVm vm)
abbrev calculate (draws : JobScheduler.Draws) (idleJobs : List Job) (numberOfWn : ℤ) :
    Proc (List ProvisionVM) :=
  Program.perform (Act.calculate draws idleJobs numberOfWn)
abbrev setVm (v : VmRef) (f : VM → VM) : Proc Unit := Program.perform (Act.setVm v f)
abbrev setCluster (f : Cluster → Cluster) : Proc Unit := Program.perform (Act.setCluster f)
abbrev setProvisioning (b : Bool) : Proc Unit := Program.perform (Act.setProvisioning b)
abbrev setStatic (resource : String) (reqs : StaticVMs) : Proc Unit :=
  Program.perform (Act.setStatic resource reqs)
abbrev setAvailable (resource : String) (n : ℤ) : Proc Unit :=
  Program.perform (Act.setAvailable resource n)
abbrev setExisting (vms : List VM) : Proc Unit := Program.perform (Act.setExisting vms)
abbrev appendWaiting (requests : List (ProvisionVM × ℕ)) : Proc Unit :=
  Program.perform (Act.appendWaiting requests)
abbrev emit (e : Event) : Proc Unit := Program.perform (Act.emit e)
abbrev dumpNodes : Proc Unit := Program.perform Act.dumpNodes
abbrev locked (b : Block) : Proc Unit := Program.perform (Act.locked b)

end Proc

end DynamicTorque
