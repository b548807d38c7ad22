import DynamicTorque.Model.OpenStackCloud

/-!
# The operations of the resource center

`res_management.py`. Each method of `ResourceCenter` is a program over the steps of
`Model/ClusterState.lean`. The answers of the cloud and of Torque are parameters, grouped by
operation and, inside a loop, by the position in the list that the loop walks.
-/

open Python Atomic

namespace DynamicTorque

open Proc

/-- `a > b` where `a` may be `None`, which Python 2 takes to be smaller than every number. -/
def longerThan (a : Option ℤ) (b : ℤ) : Bool :=
  match a with
  | some t => b < t
  | none => false

/-- What a call of `vm_destroy` is answered, and when. -/
structure DestroyCall where
  answer : DestroyAnswer
  now : Time

/-- `find_wn_from_vm`. -/
def findWnFromVm (v : VmRef) : Proc (Option WorkerNode) := do
  let vm ← vm v
  let cluster ← cluster
  return cluster.workerNodes.find? fun wn ↦ wn.name = vm.hostname

/-- A command that is run only if its command line can be built. -/
def runCommand (cfg : Config) (command : Command) (v : VmRef) : Proc Unit := do
  let vm ← vm v
  let _ ← Program.lift (command.invocation cfg.commands vm)
  emit (.command command v)

/-! ### Operations of the administrator -/

/-- `kill_vm`. -/
def killVm (cfg : Config) (vmName : String) (forceoff : Bool) : Proc Unit := do
  let found ← findVm vmName
  match found with
  | none => Program.raise (.exception (vmName ++ " not found in vm list"))
  | some v => do
    let record ← findWnFromVm v
    match record with
    | none => Program.raise (.exception (vmName ++ " is not a worker node"))
    | some wn =>
      -- Maui is asked about the node before this test, but the answer is not used
      if wn.jobs.isSome ∧ ¬forceoff then
        Program.raise (.exception (vmName ++ " is busy, can't be killed"))
      else do
        setVm v fun vm ↦ { vm with forceOff := forceoff }
        runCommand cfg .holdNode v
        locked (.existingToDeleting v)

/-- The three commands that take a node out of the cluster. -/
def removeNode (cfg : Config) (v : VmRef) : Proc Unit := do
  runCommand cfg .removeNode v
  runCommand cfg .removeNodeFromHostsFile v
  runCommand cfg .removeNodeFromKnownHostsFile v

/-- The answers to one call of `forceoff`. -/
structure ForceoffAnswers where
  existing : ℕ → DestroyCall
  starting : ℕ → DestroyCall

/-- `forceoff`. -/
def forceoff (cfg : Config) (answers : ForceoffAnswers) : Proc Unit := do
  let existing ← list .existing
  Program.forEach (fun i v _ ↦ do
    setVm v fun vm ↦ { vm with forceOff := true }
    removeNode cfg v
    let _ ← vmDestroy v none (answers.existing i).answer (answers.existing i).now
    pure ()) 0 existing ()
  locked (.drain .existing)
  -- a starting VM is only destroyed: it is neither marked nor taken out of Torque
  let starting ← list .starting
  Program.forEach (fun i v _ ↦ do
    let _ ← vmDestroy v none (answers.starting i).answer (answers.starting i).now
    pure ()) 0 starting ()
  locked (.drain .starting)

/-- `toggle_sleep_mode`. -/
def toggleSleepMode : Proc Unit :=
  Program.perform Act.toggleSleepMode

/-! ### Launching -/

/-- The loop state of `launch_instances`: the VMs that may still be started, the entries to
remove, and whether a start has failed, which ends the loop. -/
structure LaunchLoop where
  vmNumber : ℤ
  toRemove : List WaitingRequest
  failed : Bool

/-- One iteration of `launch_instances`. -/
def launchVisit (cfg : Config) (answer : Option StartedServer) (entry : WaitingRequest)
    (loop : LaunchLoop) : Proc LaunchLoop :=
  if loop.failed then pure loop
  else if loop.vmNumber = 0 then
    -- the batch is full: static requests wait for the next one, dynamic ones are forgotten
    pure (if entry.request.static then loop
      else { loop with toRemove := loop.toRemove ++ [entry] })
  else do
    let started ← vmStart cfg entry.request.flavor entry.request.zone entry.request.resourceName
      answer
    match started with
    | some v => do
      locked (.addStarting v)
      return { loop with vmNumber := loop.vmNumber - 1, toRemove := loop.toRemove ++ [entry] }
    | none => return { loop with failed := true }

/-- `launch_instances`; the start for position `i` of the waiting list is answered `answers i`. -/
def launchInstances (cfg : Config) (answers : ℕ → Option StartedServer) : Proc Unit := do
  let waiting₀ ← waiting
  if 0 < waiting₀.length then
    let starting₀ ← list .starting
    if starting₀.length < cfg.vmCreationBatchNumber then
      locked (.setProvisioning true)
      let starting ← list .starting
      let waiting ← waiting
      let loop ← Program.forEach (fun i entry loop ↦ launchVisit cfg (answers i) entry loop) 0
        waiting ⟨cfg.vmCreationBatchNumber - starting.length, [], false⟩
      locked (.endLaunch loop.toRemove)
    else pure ()
  else pure ()

/-! ### Provisioning -/

/-- What Torque answers about one node: the query failed, no such node, or its record. -/
inductive TorqueAnswer
  | error
  | notLocated
  | record (wn : WorkerNode)

/-- The answers during the visit of one starting VM. -/
structure ProvisionAnswers where
  report : Option ServerReport
  now : Time
  addNode : ℕ → Bool
  checkNode : ℕ → Option String
  wnQuery : Bool × List WorkerNode
  wnInTorque : TorqueAnswer

/-- The scratch lists of `update_provision_status`. With each VM to delete goes the record that
was at hand when it was put there. -/
structure ProvisionScratch where
  toDelete : List (VmRef × Option WorkerNode)
  readyToUse : List VmRef

/-- The retries of `add_node_to_torque`: `n` are left. -/
def tryAddNode (cfg : Config) (v : VmRef) (addNode : ℕ → Bool) : ℕ → ℕ → Proc Bool
  | _, 0 => pure false
  | i, n + 1 => do
    let vm ← vm v
    -- the line in the hosts file is written before the command line is built
    emit (.command (.addNode (addNode i)) v)
    let _ ← Program.lift ((Command.addNode (addNode i)).invocation cfg.commands vm)
    if addNode i then pure true else tryAddNode cfg v addNode (i + 1) n

/-- The polls of Maui until it knows the node. -/
def checkedInMaui (checkNode : ℕ → Option String) : ℕ → ℕ → Bool
  | _, 0 => false
  | i, n + 1 => (checkNode i).isSome || checkedInMaui checkNode (i + 1) n

/-- What is set up for a node once Maui knows it. -/
def setUpNode (cfg : Config) (v : VmRef) (wnQuery : Bool × List WorkerNode) : Proc Unit := do
  setCluster fun c ↦ { c with pbsServerUp := wnQuery.1, workerNodes := wnQuery.2 }
  let vm ← vm v
  let crs ← resources
  let res ← Program.lift (crs.get vm.cloudResourceName)
  let account := res.accountString.getD ""
  Program.when (account ≠ "" ∧ res.reservationType ≠ "")
    (runCommand cfg (.setRes res.reservationType account) v)
  runCommand cfg .postAddNodeAction v
  Program.when (cfg.nodeProperty ≠ "") (runCommand cfg (.setNodeProperty cfg.nodeProperty) v)
  Program.when (account ≠ "") (runCommand cfg (.addNodeProperty account) v)
  Program.forEach (fun _ loc _ ↦
    Program.when (cfg.locationProperties.lookup loc = vm.availabilityZone)
      (runCommand cfg (.addNodeProperty loc) v)) 0 cfg.locationProperties.keys ()
  runCommand cfg (.setNp vm.vcpuNumber) v
  runCommand cfg .setNodeOnline v

/-- The VM is ready in the cloud: it is added to Torque. -/
def addToTorque (cfg : Config) (answers : ProvisionAnswers) (v : VmRef)
    (scratch : ProvisionScratch) : Proc ProvisionScratch := do
  setVm v fun vm ↦ { vm with cloudReady := true }
  let added ← tryAddNode cfg v answers.addNode 0 5
  if ¬added then
    -- each attempt has written its line into the hosts file
    return { scratch with toDelete := scratch.toDelete ++ [(v, none)] }
  else if ¬checkedInMaui answers.checkNode 0 60 then
    runCommand cfg .removeNode v
    return { scratch with toDelete := scratch.toDelete ++ [(v, none)] }
  else
    setUpNode cfg v answers.wnQuery
    return scratch

/-- The firewall is opened for a VM of the default resource. -/
def openFirewall (cfg : Config) (v : VmRef) : Proc Unit := do
  let crs ← resources
  Program.forEach (fun _ res _ ↦
    if res ≠ "default" ∧ (crs.object res).hasVolume then
      match cfg.cloudSecurityGroups with
      | [] => Program.raise .indexError
      | _ :: _ => do
        let vm ← vm v
        -- the address is concatenated with the mask, which raises for `None`
        match vm.ip with
        | some ip => emit (.addSecurityGroupRule res ip)
        | none => Program.raise .typeError
    else pure ()) 0 crs.names ()

/-- The command that is run once for a VM whose cloud-init is running. -/
def postProvision (cfg : Config) (v : VmRef) : Proc Unit := do
  let vm ← vm v
  if vm.postProvisionCommandExecuted then pure ()
  else do
    -- if the command line cannot be built this raises, and the flag stays unset
    let _ ← Program.lift (Command.postVmProvisionAction.invocation cfg.commands vm)
    emit (.command .postVmProvisionAction v)
    Program.when (vm.cloudResourceName = "default") (openFirewall cfg v)
    setVm v fun vm ↦ { vm with postProvisionCommandExecuted := true }

/-- A VM that is not ready in the cloud is given up after `max_inaccessible_time`. -/
def giveUpIfOverdue (cfg : Config) (now : Time) (v : VmRef) (scratch : ProvisionScratch) :
    Proc ProvisionScratch := do
  let vm ← vm v
  if timedeltaSeconds vm.startTime now > cfg.maxInaccessibleTime then
    return { scratch with toDelete := scratch.toDelete ++ [(v, none)] }
  else return scratch

/-- One iteration for a VM that is not ready in the cloud. -/
def pollCloud (cfg : Config) (answers : ProvisionAnswers) (v : VmRef)
    (scratch : ProvisionScratch) : Proc ProvisionScratch := do
  let state ← vmCheck cfg v answers.report
  match state with
  | .ready => addToTorque cfg answers v scratch
  | .configuring => do
    postProvision cfg v
    giveUpIfOverdue cfg answers.now v scratch
  | .building => giveUpIfOverdue cfg answers.now v scratch
  | .destroyed | .error => return { scratch with toDelete := scratch.toDelete ++ [(v, none)] }

/-- One iteration for a VM that was added to Torque. -/
def pollTorque (cfg : Config) (answers : ProvisionAnswers) (v : VmRef)
    (scratch : ProvisionScratch) : Proc ProvisionScratch :=
  match answers.wnInTorque with
  | .record wn => do
    if wn.state = "free" ∨ wn.state = "job-exclusive" then
      return { scratch with readyToUse := scratch.readyToUse ++ [v] }
    else
      -- nothing measures the time of a starting VM, so this is the value it was created with
      let vm ← vm v
      if longerThan vm.stateTime cfg.maxInaccessibleTime then
        return { scratch with toDelete := scratch.toDelete ++ [(v, some wn)] }
      else return scratch
  | .error | .notLocated => pure scratch

/-- One iteration of the first loop of `update_provision_status`. -/
def provisionVisit (cfg : Config) (answers : ProvisionAnswers) (v : VmRef)
    (scratch : ProvisionScratch) : Proc ProvisionScratch := do
  let vm ← vm v
  if vm.cloudReady then pollTorque cfg answers v scratch
  else pollCloud cfg answers v scratch

/-- A VM is asked for again if its flavour and zone are known. -/
def askAgain (vm : VM) : Proc Unit :=
  match vm.flavor, vm.availabilityZone with
  | some flavor, some zone =>
    -- appended without the write lock
    appendWaiting [(⟨flavor, some zone, vm.cloudResourceName, !vm.dynamic⟩, 1)]
  | _, _ => pure ()

/-- A VM is given up: asked for again, destroyed, and moved. -/
def giveUp (call : DestroyCall) (v : VmRef) (record : Option WorkerNode) : Proc Unit := do
  let vm ← vm v
  askAgain vm
  let _ ← vmDestroy v record call.answer call.now
  locked (.startingToDeleting v)

/-- The answers to one call of `update_provision_status`. -/
structure UpdateAnswers where
  visit : ℕ → ProvisionAnswers
  destroy : ℕ → DestroyCall
  launch : ℕ → Option StartedServer

/-- The end of `update_provision_status`: all done, or more to launch. -/
def finishProvisioning (cfg : Config) (launch : ℕ → Option StartedServer) : Proc Unit := do
  let starting ← list .starting
  if starting.length = 0 then
    let waiting ← waiting
    if waiting.length = 0 then locked (.setProvisioning false)
    else launchInstances cfg launch
  else launchInstances cfg launch

/-- `update_provision_status`. -/
def updateProvisionStatus (cfg : Config) (answers : UpdateAnswers) : Proc Unit := do
  let starting ← list .starting
  let scratch ← Program.forEach
    (fun i v scratch ↦ provisionVisit cfg (answers.visit i) v scratch) 0 starting ⟨[], []⟩
  locked (.commitReady scratch.readyToUse)
  Program.forEach (fun i vr _ ↦ giveUp (answers.destroy i) vr.1 vr.2) 0 scratch.toDelete ()
  locked .updateAvailableCores
  Program.when (scratch.readyToUse.length > 0) dumpNodes
  finishProvisioning cfg answers.launch

/-! ### Checking the existing workers -/

/-- The answers during the visit of one worker node. -/
structure WorkerAnswers where
  checkNode : Option String
  destroy : DestroyCall

/-- An idle node is shut down: it is taken out of the cluster, destroyed, and dropped. -/
def shutDownIdle (cfg : Config) (call : DestroyCall) (wn : WorkerNode) (v : VmRef) :
    Proc Unit := do
  setVm v fun vm ↦ { vm with forceOff := true }
  removeNode cfg v
  let _ ← vmDestroy v (some wn) call.answer call.now
  let existing ← list .existing
  Program.when (v ∈ existing) (locked (.dropExisting v))
  locked .updateAvailableCores
  -- cleared without the write lock, whatever is starting or waiting
  setProvisioning false

/-- The search for a busy dynamic VM that becomes static in the place of the idle static VM `v`,
which is shut down. -/
def swapStatic (cfg : Config) (call : DestroyCall) (wn : WorkerNode) (v : VmRef) :
    List WorkerNode → Proc Unit
  | [] => pure ()
  | otherWn :: rest =>
    if otherWn.name ≠ wn.name ∧ otherWn.jobs.isSome then do
      let found ← findVm otherWn.name
      match found with
      | none => swapStatic cfg call wn v rest
      | some otherV => do
        let other ← vm otherV
        let theVm ← vm v
        if other.dynamic ∧ other.vcpuNumber = theVm.vcpuNumber ∧
            other.availabilityZone = theVm.availabilityZone ∧
            other.cloudResourceName = theVm.cloudResourceName then do
          setVm v fun vm ↦ { vm with dynamic := true }
          setVm otherV fun vm ↦ { vm with dynamic := false }
          shutDownIdle cfg call wn v
        else swapStatic cfg call wn v rest
    else swapStatic cfg call wn v rest

/-- The warning about an idle static VM that is not of the base flavour. Nothing is logged that
matters here, but the lookups may raise. -/
def warnBaseFlavor (v : VmRef) : Proc Unit := do
  let vm ← vm v
  let crs ← resources
  let name ← Program.lift (match vm.flavor with
    | some flavor => flavor.name
    | none => .error (.attributeError "name"))
  let res ← Program.lift (crs.get vm.cloudResourceName)
  let base ← Program.lift res.workerNodeFlavors.first
  if name ≠ base then
    let _ ← Program.lift res.firstFlavor
    pure ()
  else pure ()

/-- How long a VM has been in the state that Maui reports: no time if the state is new, and one
more interval otherwise, which raises for a VM without a state time. -/
def stateTimeAfter (cfg : Config) (vm : VM) (state : Option String) : Except PyError ℤ :=
  if vm.state ≠ state then .ok 0
  else
    match vm.stateTime with
    | some t => .ok (t + cfg.jobPollerInterval)
    | none => .error .typeError

/-- The state that Maui reports is recorded. -/
def recordState (cfg : Config) (v : VmRef) (state : Option String) : Proc Unit := do
  let vm ← vm v
  let stateTime ← Program.lift (stateTimeAfter cfg vm state)
  setVm v fun vm ↦ { vm with stateTime := some stateTime }
  -- the field that `vm_check` sets to the status in the cloud
  setVm v fun vm ↦ { vm with state := state }

/-- A VM of another image than the configured one is held. -/
def holdOtherImage (cfg : Config) (v : VmRef) : Proc Unit := do
  let vm ← vm v
  let crs ← resources
  let res ← Program.lift (crs.get vm.cloudResourceName)
  Program.when (vm.imageId ≠ some res.imageUuid) (runCommand cfg .holdNode v)

/-- What is done about an idle worker: shut it down, swap it, or nothing. -/
def shutDownOrSwap (cfg : Config) (call : DestroyCall) (wn : WorkerNode) (v : VmRef) :
    Proc Unit := do
  let vm ← vm v
  if vm.dynamic then shutDownIdle cfg call wn v
  else do
    let running ← cluster
    -- the job may be on a dynamic VM that can be static instead
    Program.when (running.runningJobs.length > 0) do
      let cluster ← cluster
      swapStatic cfg call wn v cluster.workerNodes
    warnBaseFlavor v

/-- The decision about a worker without jobs, given the state that Maui reports. The answer says
whether its VM is to be deleted. -/
def checkIdleWorker (cfg : Config) (answers : WorkerAnswers) (wn : WorkerNode) (v : VmRef) :
    Proc Bool := do
  let vm ← vm v
  if answers.checkNode = some "free" ∧ longerThan vm.stateTime cfg.maxIdleTime then
    shutDownOrSwap cfg answers.destroy wn v
    return false
  else if answers.checkNode = some "drained" then return true
  else
    match answers.checkNode with
    | some state =>
      -- both Torque and Maui have to call the node down
      return isInfixOf "down".toList (lower wn.state) && strIn "down" state &&
        longerThan vm.stateTime cfg.maxDownTime
    | none => return false

/-- One iteration of `check_existing_worker_nodes`. -/
def checkWorker (cfg : Config) (answers : WorkerAnswers) (wn : WorkerNode) : Proc Unit := do
  let found ← findVm wn.name
  match found with
  | none => pure ()
  | some v => do
    recordState cfg v answers.checkNode
    holdOtherImage cfg v
    if wn.jobs = none then
      let toDelete ← checkIdleWorker cfg answers wn v
      Program.when toDelete (locked (.existingToDeleting v))
    else pure ()

/-- `check_existing_worker_nodes`. -/
def checkExistingWorkerNodes (cfg : Config) (answers : ℕ → WorkerAnswers) : Proc Unit := do
  let cluster ← cluster
  Program.forEach (fun i wn _ ↦ checkWorker cfg (answers i) wn) 0 cluster.workerNodes ()
  locked .updateAvailableCores

/-! ### Clean-up -/

/-- The answers during the visit of one VM that is being deleted. -/
structure CleanupAnswers where
  report : Option ServerReport
  wnInTorque : TorqueAnswer
  now : Time
  destroy : DestroyCall

/-- The scratch lists of `check_cleanup`. -/
structure CleanupScratch where
  deleted : List VmRef
  executing : List VmRef

/-- `release_res_for_node`. -/
def releaseResForNode (cfg : Config) (v : VmRef) : Proc Unit := do
  let vm ← vm v
  let crs ← resources
  let res ← Program.lift (crs.get vm.cloudResourceName)
  Program.when res.accountString.isSome (runCommand cfg .releaseRes v)

/-- Whether another attempt to delete the VM is due. -/
def deleteDue (cfg : Config) (vm : VM) (now : Time) : Bool :=
  match vm.deleteTime with
  | none => true
  -- the later time is subtracted from the earlier one
  | some d => timedeltaSeconds now d > cfg.maxDeleteRetryTime

/-- Torque does not know the node. -/
def cleanUpUnknown (cfg : Config) (answers : CleanupAnswers) (v : VmRef) (state : CloudState)
    (scratch : CleanupScratch) : Proc CleanupScratch :=
  if state = .destroyed then pure { scratch with deleted := scratch.deleted ++ [v] }
  else do
    let vm ← vm v
    if deleteDue cfg vm answers.now then
      let _ ← vmDestroy v none answers.destroy.answer answers.destroy.now
      return scratch
    else return scratch

/-- Torque still knows the node. -/
def cleanUpKnown (cfg : Config) (answers : CleanupAnswers) (v : VmRef) (state : CloudState)
    (wn : WorkerNode) (scratch : CleanupScratch) : Proc CleanupScratch :=
  if state = .destroyed then do
    -- the VM stays in the list until Torque has forgotten the node
    releaseResForNode cfg v
    runCommand cfg .removeNode v
    return scratch
  else if wn.jobs.isSome then do
    let vm ← vm v
    return if vm.forceOff then scratch
      else { scratch with executing := scratch.executing ++ [v] }
  else do
    releaseResForNode cfg v
    runCommand cfg .removeNode v
    let _ ← vmDestroy v (some wn) answers.destroy.answer answers.destroy.now
    setVm v fun vm ↦ { vm with deleteTime := some answers.now }
    return scratch

/-- One iteration of the first loop of `check_cleanup`. -/
def cleanupVisit (cfg : Config) (answers : CleanupAnswers) (v : VmRef)
    (scratch : CleanupScratch) : Proc CleanupScratch := do
  let state ← vmCheck cfg v answers.report
  let vm ← vm v
  if vm.hostname = "" then
    return if state = .destroyed then { scratch with deleted := scratch.deleted ++ [v] }
      else scratch
  else
    match answers.wnInTorque with
    -- no decision without an answer from Torque
    | .error => return scratch
    | .notLocated => cleanUpUnknown cfg answers v state scratch
    | .record wn => cleanUpKnown cfg answers v state wn scratch

/-- The launch at the end of `check_cleanup`. -/
def launchIfWaiting (cfg : Config) (launch : ℕ → Option StartedServer) : Proc Unit := do
  let waiting ← waiting
  if waiting.length > 0 then
    let provisioning ← provisioning
    if ¬provisioning then launchInstances cfg launch else pure ()
  else pure ()

/-- The answers to one call of `check_cleanup`. -/
structure CleanupCalls where
  visit : ℕ → CleanupAnswers
  launch : ℕ → Option StartedServer

/-- `check_cleanup`. -/
def checkCleanup (cfg : Config) (answers : CleanupCalls) : Proc Unit := do
  let deleting₀ ← list .deleting
  if deleting₀.length = 0 then pure ()
  else do
    let deleting ← list .deleting
    let scratch ← Program.forEach
      (fun i v scratch ↦ cleanupVisit cfg (answers.visit i) v scratch) 0 deleting ⟨[], []⟩
    locked (.commitCleanup scratch.deleted scratch.executing)
    locked .updateAvailableCores
    Program.when (scratch.deleted.length > 0 ∨ scratch.executing.length > 0) dumpNodes
    launchIfWaiting cfg answers.launch

end DynamicTorque
