import DynamicTorque.Language.Unicode
import DynamicTorque.Model.Config

/-!
# The job scheduler

`job_scheduler.py`: how many new nodes, of which flavour and where, a list of idle jobs needs.

`calculate_new_instances` walks the idle jobs once. For each job it reads a requirement, a
list with the cores wanted on each node; it tests the requirement against a core budget of the
job's account, then of the default resource; and it packs an accepted requirement into the
allocations collected so far. The allocations of a resource become its provision requests.

The loop state is the dictionary of allocations together with the cloud resources, because
`available_cores` sorts the flavours of a resource in place and the packer relies on that
order.
-/

open Python

namespace DynamicTorque

/-- A job as `qstat` reports it; a field is `none` where the record has no such key. What was a
child of `Resource_List` may have no text. `priority` and `jobPriority` are two keys, `Priority` and
`job_priority`. -/
structure Job where
  jobId : String
  jobState : String := "Q"
  queue : Option String := none
  accountName : Option String := none
  neednodes : Option (Option String) := none
  ncpus : Option (Option String) := none
  nodes : Option (Option String) := none
  priority : Option ℤ := none
  jobPriority : Option ℤ := none
  deriving DecidableEq, Repr

/-- `req_list`: the allocations of each resource. -/
abbrev ReqList := Dict (List ResAllocation)

namespace JobScheduler

/-! ### Reading a job -/

/-- `int(s)` where `s` is all digits, and 1 otherwise. -/
def countOrOne : Option String → Except PyError ℤ
  | none => .error (.attributeError "isdigit")
  | some s => if Unicode.isdigit s then Unicode.int s else .ok 1

/-- The account a job is charged to: `Account_Name` if present, else the queue. -/
def accountString (job : Job) : Except PyError String :=
  match job.accountName, job.queue with
  | some a, _ => .ok a
  | none, some q => .ok q
  | none, none => .error (.keyError "queue")

/-- `_get_vcpu_requirement`: the cores wanted on each node, the location and the account. -/
def getVcpuRequirement (cfg : Config) (job : Job) (draw : ℕ) :
    Except PyError (Option (List ℤ) × Option String × String) := do
  let account ← accountString job
  match job.neednodes, job.ncpus, job.nodes with
  | some neednodes, some ncpus, _ =>
    let numNodes ← countOrOne neednodes
    let numCores ← countOrOne ncpus
    let location ← cfg.getDefaultNodeLocation draw
    pure (some (List.replicate numNodes.toNat numCores), location, account)
  | _, _, some nodes =>
    let numCores ← Unicode.intOfText nodes
    let location ← cfg.getDefaultNodeLocation draw
    pure (some [numCores], location, account)
  | none, none, none =>
    let location ← cfg.getDefaultNodeLocation draw
    pure (some [1], location, account)
  -- one of `neednodes` and `ncpus` without the other: the job is left alone
  | _, _, none => pure (none, none, account)

/-! ### Admission -/

/-- The cores of all allocations of a resource. -/
def totalCores (reqList : ReqList) (account : String) : ℤ :=
  (((reqList.lookup account).getD []).map ResAllocation.getTotalNumCores).sum

/-- `have_enough_cores`: the requirement must fit the core budget of the resource, and its
first element the largest flavour. -/
def haveEnoughCores (reqList : ReqList) (account : String) (requirement : List ℤ)
    (crs : CloudResources) : Except PyError (Bool × CloudResources) := do
  let res ← crs.get account
  let (budget, res') ← res.availableCores
  -- reading the budget has sorted the flavours of the resource
  let crs' := crs.modify account fun _ ↦ res'
  if totalCores reqList account + requirement.sum > budget then pure (false, crs')
  else
    let largest ← res'.firstFlavor
    match requirement with
    | [] => .error .indexError
    | v :: _ => pure (decide (v ≤ largest.vcpus), crs')

/-! ### Packing -/

/-- `config.cloud_resources[account].flavor_objects[0].vcpus`. -/
def nodeVcpus (crs : CloudResources) (account : String) : Except PyError ℤ := do
  let res ← crs.get account
  let flavor ← res.firstFlavor
  pure flavor.vcpus

/-- The loop of `add_new_requirement_to_list` over the sorted allocations. `idx` counts the
elements placed so far; the requirement is indexed before the capacity is looked up, so a
matching allocation that comes after the last element was placed raises `IndexError`. -/
def placeLoop (vcpus : Except PyError ℤ) (requirement : List ℤ) (location : Option String) :
    ℕ → List ResAllocation → Except PyError (ℕ × List ResAllocation)
  | idx, [] => .ok (idx, [])
  | idx, res :: rest =>
    if res.locationProperty ≠ location then do
      let (idx', rest') ← placeLoop vcpus requirement location idx rest
      pure (idx', res :: rest')
    else
      match requirement[idx]? with
      | none => .error .indexError
      | some v => do
        let capacity ← vcpus
        if res.getTotalNumCores + v ≤ capacity then
          let (idx', rest') ← placeLoop vcpus requirement location (idx + 1) rest
          pure (idx', { res with vcpuList := res.vcpuList ++ [v] } :: rest')
        else
          let (idx', rest') ← placeLoop vcpus requirement location idx rest
          pure (idx', res :: rest')

/-- New allocations for elements that no existing one took. -/
def freshAllocations (requirement : List ℤ) (location : Option String) : List ResAllocation :=
  requirement.map fun v ↦ ⟨[v], location⟩

/-- `add_new_requirement_to_list`. -/
def addNewRequirementToList (reqList : ReqList) (requirement : List ℤ)
    (location : Option String) (account : String) (crs : CloudResources) :
    Except PyError ReqList :=
  match reqList.lookup account with
  | none => .ok (reqList.insert account (freshAllocations requirement location))
  | some nodeList => do
    let (idx, placed) ← placeLoop (nodeVcpus crs account) requirement location 0
      (sortByKeyReverse ResAllocation.getTotalNumCores nodeList)
    pure (reqList.insert account (placed ++ freshAllocations (requirement.drop idx) location))

/-! ### The loop over the idle jobs -/

/-- The second branch: the requirement is charged to the default resource. The location is
compared with the account, as the source does. -/
def chargeDefault (reqList : ReqList) (crs : CloudResources) (requirement : List ℤ)
    (location : Option String) (account : String) : Except PyError (ReqList × CloudResources) := do
  let (enough, crs') ← haveEnoughCores reqList "default" requirement crs
  if enough ∧ some account ≠ location then
    let reqList' ← addNewRequirementToList reqList requirement location "default" crs'
    pure (reqList', crs')
  else pure (reqList, crs')

/-- One iteration for a job that is not skipped, with its requirement read. -/
def chargeJob (reqList : ReqList) (crs : CloudResources) (requirement : List ℤ)
    (location : Option String) (account : String) : Except PyError (ReqList × CloudResources) :=
  let account := if account ∈ crs.names then account else "default"
  if account = "default" then chargeDefault reqList crs requirement location account
  else do
    let (enough, crs') ← haveEnoughCores reqList account requirement crs
    if enough then
      let reqList' ← addNewRequirementToList reqList requirement location account crs'
      pure (reqList', crs')
    else chargeDefault reqList crs' requirement location account

/-- One iteration of the loop of `calculate_new_instances`. -/
def scheduleJob (cfg : Config) (numberOfWn : ℤ) (draw : ℕ) (job : Job)
    (reqList : ReqList) (crs : CloudResources) : Except PyError (ReqList × CloudResources) :=
  match job.jobPriority with
  | none => .error (.keyError "job_priority")
  | some p =>
    -- without any workers, jobs that have no priority count as well
    if p = -1 ∧ numberOfWn > 0 then .ok (reqList, crs)
    else do
      let (requirement, location, account) ← getVcpuRequirement cfg job draw
      match requirement with
      | none | some [] => pure (reqList, crs)
      | some (v :: vs) => chargeJob reqList crs (v :: vs) location account

/-- The loop of `calculate_new_instances`; iteration `i` uses the random draw `draws i`. -/
def scheduleJobs (cfg : Config) (numberOfWn : ℤ) (draws : ℕ → ℕ) :
    ℕ → List Job → ReqList → CloudResources → Except PyError (ReqList × CloudResources)
  | _, [], reqList, crs => .ok (reqList, crs)
  | i, job :: jobs, reqList, crs => do
    let (reqList', crs') ← scheduleJob cfg numberOfWn (draws i) job reqList crs
    scheduleJobs cfg numberOfWn draws (i + 1) jobs reqList' crs'

/-! ### From allocations to requests -/

/-- `best_flavor_from_node`: the smallest flavour that offers the cores of the allocation, and
the smallest flavour of all when none does. -/
def bestFlavorFromNode (crs : CloudResources) (resource : String) (alloc : ResAllocation) :
    Except PyError String := do
  let res ← crs.get resource
  let sorted := sortByKey VMFlavor.vcpus res.flavorObjects
  match sorted.find? fun f ↦ f.vcpus ≥ alloc.vcpuList.sum with
  | some f => pure f.id
  | none =>
    match sorted with
    | f :: _ => pure f.id
    | [] => .error .indexError

/-- The requests for the allocations of one resource; allocation `i` uses the draw
`draws i`. -/
def convertNodes (cfg : Config) (crs : CloudResources) (draws : ℕ → ℕ) (resource : String) :
    ℕ → List ResAllocation → Except PyError (List ProvisionVM)
  | _, [] => .ok []
  | i, node :: nodes => do
    let flavorId ← bestFlavorFromNode crs resource node
    let zone ← cfg.convertLocationPropertyToAvailabilityZone node.locationProperty (draws i)
    let tail ← convertNodes cfg crs draws resource (i + 1) nodes
    pure (⟨.id flavorId, some zone, resource, false⟩ :: tail)

/-- The loop of `convert_req_list_to_flavor` over the resources. -/
def convertEntries (cfg : Config) (crs : CloudResources) (draws : String → ℕ → ℕ) :
    List (Sigma fun _ : String ↦ List ResAllocation) → Except PyError (List ProvisionVM)
  | [] => .ok []
  | ⟨resource, nodes⟩ :: rest => do
    let here ← convertNodes cfg crs (draws resource) resource 0 nodes
    let tail ← convertEntries cfg crs draws rest
    pure (here ++ tail)

/-- `convert_req_list_to_flavor`. -/
def convertReqListToFlavor (cfg : Config) (crs : CloudResources) (draws : String → ℕ → ℕ)
    (reqList : ReqList) : Except PyError (List ProvisionVM) :=
  convertEntries cfg crs draws reqList.entries

/-- The random draws of one call of `calculate_new_instances`: one for each job, and one for
each allocation of each resource. -/
structure Draws where
  job : ℕ → ℕ
  zone : String → ℕ → ℕ

/-- `calculate_new_instances`. The resources are returned with the order of flavours that the
run left behind. -/
def calculateNewInstances (cfg : Config) (draws : Draws) (idleJobs : List Job)
    (numberOfWn : ℤ) (crs : CloudResources) :
    Except PyError (List ProvisionVM × CloudResources) := do
  let (reqList, crs') ← scheduleJobs cfg numberOfWn draws.job 0 idleJobs ∅ crs
  if reqList.entries.length > 0 then
    let requests ← convertReqListToFlavor cfg crs' draws.zone reqList
    pure (requests, crs')
  else pure ([], crs')

end JobScheduler

end DynamicTorque
