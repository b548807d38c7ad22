import DynamicTorque.Model.ResManagement

/-!
# Start-up

`ResourceCenter.__init__` and `_load_existing_worker_nodes`: the VMs that the cloud lists are
compared with the nodes that Torque lists, and kept, picked up again, or destroyed; then each
resource is trimmed to its number of dynamic nodes and asked for its static ones.
-/

open Python Atomic

namespace DynamicTorque

open Proc

/-- The attributes before anything is loaded, with the resources as configured. -/
def State.initial (resources : CloudResources) : State where
  sleepMode := false
  cluster := ⟨[], 0, [], 0, [], true, true⟩
  provisioning := false
  existing := []
  starting := []
  deleting := []
  waiting := []
  vms := fun _ ↦ VM.init "" "" 0 none 0 none none "default"
  nextVm := 0
  nextRequest := 0
  resources := resources
  trace := []

/-- The answers during start-up. -/
structure StartUpAnswers where
  vmList : String → List ListedServer
  persistentNodes : List String
  wnQuery : Bool × List WorkerNode
  destroy : ℕ → DestroyCall
  trim : String → ℕ → DestroyCall
  launch : ℕ → Option StartedServer

/-- The scratch lists of `_load_existing_worker_nodes`. With each VM to delete goes the record
that was at hand when it was put there. -/
structure LoadScratch where
  toDelete : List (VmRef × Option WorkerNode)
  toStarting : List VmRef

/-- `"offline" in wn['state'] or "down" in wn['state']`. -/
def WorkerNode.unavailable (wn : WorkerNode) : Bool :=
  strIn "offline" wn.state || strIn "down" wn.state

/-- Whether a node without jobs runs another image than the configured one. -/
def runsOtherImage (vm : VM) (wn : WorkerNode) : Proc Bool :=
  if wn.jobs = none then do
    let crs ← resources
    let res ← Program.lift (crs.get vm.cloudResourceName)
    return vm.imageId ≠ some res.imageUuid
  else pure false

/-- One iteration of the loop over the VMs that the cloud lists. -/
def loadVisit (persistentNodes : List String) (v : VmRef) (scratch : LoadScratch) :
    Proc LoadScratch := do
  let vm ← vm v
  if vm.ip = none then return { scratch with toDelete := scratch.toDelete ++ [(v, none)] }
  else
    let record ← findWnFromVm v
    match record with
    | none =>
      -- Torque may have lost a node that was a worker before the restart
      return if vm.hostname ∈ persistentNodes then
          { scratch with toStarting := scratch.toStarting ++ [v] }
        else { scratch with toDelete := scratch.toDelete ++ [(v, none)] }
    | some wn =>
      let otherImage ← runsOtherImage vm wn
      return if otherImage || wn.unavailable then
          { scratch with toDelete := scratch.toDelete ++ [(v, some wn)] }
        else scratch

/-- One iteration of the loop over the nodes that Torque lists. -/
def orphanVisit (wn : WorkerNode) (wnToDelete : List WorkerNode) : Proc (List WorkerNode) := do
  let found ← findVm wn.name
  if found = none ∧ wn.unavailable then
    emit (.removeOrphan wn.name)
    return wnToDelete ++ [wn]
  else return wnToDelete

/-- An existing VM of the base flavour becomes static if its zone needs one. -/
def markStatic (cfg : Config) (resource : String) (v : VmRef) : Proc Unit := do
  let vm ← vm v
  let name ← Program.lift (match vm.flavor with
    | some flavor => flavor.name
    | none => .error (.attributeError "name"))
  let crs ← resources
  let res ← Program.lift (crs.get resource)
  let base ← Program.lift res.workerNodeFlavor
  if name = base then
    let reqs ← Program.lift (crs.staticVmsToStart resource "need_vm")
    let (needed, reqs') ← Program.lift (reqs.needVm vm.availabilityZone cfg.locationProperties)
    -- `need_vm` counts the VM as soon as it says yes
    setStatic resource reqs'
    Program.when needed (setVm v fun vm ↦ { vm with dynamic := false })
  else pure ()

/-- The loop that destroys dynamic VMs while there are more than `limit`. The VMs are popped from
the end of the list, which is given reversed here. -/
def trimOverused (calls : ℕ → DestroyCall) (limit : ℤ) : ℕ → ℤ → List VmRef → Proc ℤ
  | _, num, [] => if num > limit then Program.raise .indexError else pure num
  | i, num, v :: vs =>
    if num > limit then do
      let record ← findWnFromVm v
      let vm ← vm v
      if ¬vm.dynamic ∨ (record.bind WorkerNode.jobs).isSome then
        -- `continue`: popped, but not counted
        trimOverused calls limit (i + 1) num vs
      else
        let _ ← vmDestroy v record (calls i).answer (calls i).now
        locked (.destroyExisting v)
        trimOverused calls limit (i + 1) (num - 1) vs
    else pure num

/-- `static_vms_to_start.need_more()`, where the object may be `None`. -/
def needMoreStatic (resource : String) : Proc Bool := do
  let crs ← resources
  let reqs ← Program.lift (crs.staticVmsToStart resource "need_more")
  return reqs.needMore

/-- The requests for the static VMs that a resource still needs. -/
def requestStatic (cfg : Config) (resource : String) : Proc Unit := do
  let crs ← resources
  let res ← Program.lift (crs.get resource)
  let flavor ← Program.lift res.firstFlavor
  let reqs ← Program.lift (crs.staticVmsToStart resource "get_provision_list")
  let requests ← Program.lift (reqs.getProvisionList flavor resource cfg.locationProperties)
  appendWaiting requests

/-- One iteration of the loop over the resources. -/
def loadResource (cfg : Config) (answers : StartUpAnswers) (resource : String) : Proc Unit := do
  let existing ← list .existing
  let ofResource ← Program.forEach (fun _ v acc ↦ do
    let vm ← vm v
    return if vm.cloudResourceName = resource then acc ++ [v] else acc) 0 existing []
  let needed ← needMoreStatic resource
  Program.when needed (Program.forEach (fun _ v _ ↦ markStatic cfg resource v) 0 ofResource ())
  let numOfInstances ← Program.forEach (fun _ v n ↦ do
    let vm ← vm v
    return if vm.dynamic then n + 1 else n) 0 ofResource (0 : ℤ)
  let crs ← resources
  let res ← Program.lift (crs.get resource)
  let left ← trimOverused (answers.trim resource) res.numberOfDynamicWorkerNodes 0 numOfInstances
    ofResource.reverse
  setAvailable resource (res.numberOfDynamicWorkerNodes - left)
  let needed ← needMoreStatic resource
  Program.when needed (requestStatic cfg resource)

/-- `_load_existing_worker_nodes`. -/
def loadExistingWorkerNodes (cfg : Config) (answers : StartUpAnswers) : Proc Unit := do
  let crs ← resources
  setExisting (loadAllExistingWorkerNodes crs.names answers.vmList)
  setCluster fun c ↦
    { c with
      pbsServerUp := answers.wnQuery.1
      workerNodes := answers.wnQuery.2
      numberOfWn := answers.wnQuery.2.length }
  let existing ← list .existing
  let scratch ← Program.forEach (fun _ v scratch ↦ loadVisit answers.persistentNodes v scratch) 0
    existing ⟨[], []⟩
  -- nodes without a VM that Torque cannot reach
  let cluster ← cluster
  let wnToDelete ← Program.forEach (fun _ wn acc ↦ orphanVisit wn acc) 0 cluster.workerNodes []
  setCluster fun c ↦ { c with workerNodes := wnToDelete.foldl List.erase c.workerNodes }
  Program.forEach (fun _ v _ ↦ locked (.existingToStarting v)) 0 scratch.toStarting ()
  Program.forEach (fun i vr _ ↦ do
    let _ ← vmDestroy vr.1 vr.2 (answers.destroy i).answer (answers.destroy i).now
    locked (.destroyExisting vr.1)) 0 scratch.toDelete ()
  Program.forEach (fun _ resource _ ↦ loadResource cfg answers resource) 0 crs.names ()
  let starting ← list .starting
  Program.when (starting.length > 0) (locked (.setProvisioning true))
  let waiting ← waiting
  Program.when (waiting.length > 0) (launchInstances cfg answers.launch)

end DynamicTorque
