import DynamicTorque.Model.ResManagement

/-!
# The InfoServer

`info_server.py`, and the methods of `ResourceCenter` that only it calls. What a request returns
goes to the client; an exception becomes a fault there, and `kill` catches it and replies with a
status and the text.
-/

open Python Atomic

namespace DynamicTorque

open Proc

/-- What `get_info` returns. A VM object is sent with the values it has when it is sent. -/
structure Info where
  existingInstances : List VM
  startingInstances : List VM
  deletingInstances : List VM
  provisionWaitingList : List WaitingRequest
  workerNodes : List WorkerNode
  provisioning : Bool
  sleepMode : Bool
  pbsServerUp : Bool
  mauiServerUp : Bool
  idleJobs : List Job
  totalNumberOfIdleJobs : ℤ
  cloudResources : CloudResources
  runningJobs : List Job

/-- The VM objects of a list, as they are sent. -/
def sendVms (vs : List VmRef) : Proc (List VM) :=
  Program.forEach (fun _ v sent ↦ do
    let vm ← vm v
    return sent ++ [vm]) 0 vs []

/-- `get_info`, and the encoding of its result. -/
def getInfo : Proc Info := do
  let existing ← list .existing
  let starting ← list .starting
  let deleting ← list .deleting
  let waiting ← waiting
  let nodes ← cluster
  let provisioning ← provisioning
  let sleepMode ← sleepMode
  let pbs ← cluster
  let maui ← cluster
  let idle ← cluster
  let total ← cluster
  let crs ← resources
  let running ← cluster
  let existingInstances ← sendVms existing
  let startingInstances ← sendVms starting
  let deletingInstances ← sendVms deleting
  return {
    existingInstances, startingInstances, deletingInstances
    provisionWaitingList := waiting
    workerNodes := nodes.workerNodes
    provisioning, sleepMode
    pbsServerUp := pbs.pbsServerUp
    mauiServerUp := maui.mauiServerUp
    idleJobs := idle.idleJobs
    totalNumberOfIdleJobs := total.totalNumberOfIdleJobs
    cloudResources := crs
    runningJobs := running.runningJobs }

/-- `get_detail`. -/
def getDetail (vmName : String) : Proc (VM × WorkerNode) := do
  let found ← findVm vmName
  match found with
  | none => Program.raise (.exception (vmName ++ " not found in vm list"))
  | some v => do
    let record ← findWnFromVm v
    match record with
    | none => Program.raise (.exception (vmName ++ " is not a worker node"))
    | some wn => do
      let vm ← vm v
      return (vm, wn)

/-- What a client may ask for: the methods of `externalFunctions`. -/
inductive Request
  | info
  | kill (vmName : String)
  | getDetail (vmName : String)
  | forceoff (answers : ForceoffAnswers)
  | toggleSleepMode

/-- What a client is sent. The text of an exception stands as the exception. -/
inductive Response
  | info (info : Info)
  | kill (rt : ℕ) (msg : Option PyError)
  | detail (vm : VM) (wn : WorkerNode)
  | done
  | fault (e : PyError)

/-- The program of a request. -/
def Request.program (cfg : Config) : Request → Proc Response
  | .info => Response.info <$> getInfo
  | .kill vmName => do
    killVm cfg vmName false
    return .kill 0 none
  | .getDetail vmName => (fun r ↦ Response.detail r.1 r.2) <$> DynamicTorque.getDetail vmName
  | .forceoff answers => do
    DynamicTorque.forceoff cfg answers
    return .done
  | .toggleSleepMode => do
    DynamicTorque.toggleSleepMode
    return .done

/-- The response to a request that raised. -/
def Request.failed : Request → PyError → Response
  | .kill _, e => .kill 1 (some e)
  | _, e => .fault e

end DynamicTorque
