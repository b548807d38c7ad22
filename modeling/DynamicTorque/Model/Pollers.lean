import DynamicTorque.Model.StartUp

/-!
# The pollers

`collect_cluster_information`, which the JobPoller calls again and again, and the loop body of the
CloudPoller. `Operation` collects the calls that a run can consist of.
-/

open Python Atomic

namespace DynamicTorque

open Proc

/-! ### Job priorities -/

/-- An entry of the list that Maui reports. -/
structure JobPriority where
  jobId : ℤ
  priority : ℤ
  deriving DecidableEq, Repr

/-- The number in a job id: what precedes the first dot and the first bracket. -/
def Job.number (job : Job) : Except PyError ℤ :=
  Unicode.int (String.ofList ((job.jobId.toList.takeWhile (· ≠ '.')).takeWhile (· ≠ '[')))

/-- The inner loop of `prioritise_jobs`, on the part of the priority list that is left: entries
before the job's are skipped, all but the last entry. -/
def skipBefore (number : ℤ) : List JobPriority → List JobPriority
  | [] => []
  | [p] => [p]
  | p :: q :: rest => if number > p.jobId then skipBefore number (q :: rest) else p :: q :: rest

/-- The outer loop. A job whose id has no number raises; the jobs before it have got theirs. -/
def mergePriorities : List Job → List JobPriority → List Job × Except PyError Unit
  | [], _ => ([], .ok ())
  | job :: jobs, left =>
    match job.number with
    | .error e => (job :: jobs, .error e)
    | .ok number =>
      match skipBefore number left with
      | [] => (job :: jobs, .ok ())
      | p :: rest =>
        if number = p.jobId then
          let job := { job with jobPriority := some p.priority }
          if rest = [] then (job :: jobs, .ok ())
          else
            let (jobs', r) := mergePriorities jobs rest
            (job :: jobs', r)
        else if number > p.jobId ∧ rest = [] then (job :: jobs, .ok ())
        else
          let (jobs', r) := mergePriorities jobs (p :: rest)
          (job :: jobs', r)

/-- The final sort, which raises if a job has no priority. -/
def sortByPriority (jobs : List Job) : Except PyError (List Job) :=
  if jobs.all fun job ↦ job.jobPriority.isSome then
    .ok (sortByKeyReverse (fun job ↦ job.jobPriority.getD 0) jobs)
  else .error (.keyError "job_priority")

/-- `prioritise_jobs`, given what Maui reports. -/
def prioritiseJobs (priorities : Bool × List JobPriority) : Proc Unit := do
  setCluster fun c ↦ { c with mauiServerUp := priorities.1 }
  if priorities.1 then
    Program.when (priorities.2.length > 0) do
      let c ← cluster
      let merged := mergePriorities c.idleJobs priorities.2
      setCluster fun c ↦ { c with idleJobs := merged.1 }
      Program.lift merged.2
    let c ← cluster
    let sorted ← Program.lift (sortByPriority c.idleJobs)
    setCluster fun c ↦ { c with idleJobs := sorted }
  else pure ()

/-! ### The JobPoller -/

/-- The answers to one call of `collect_cluster_information`. -/
structure JobAnswers where
  pbsServerUp : Bool
  totalNumberOfIdleJobs : ℤ
  idleJobs : List Job
  runningJobs : List Job
  priorities : Bool × List JobPriority
  wnQuery : Bool × List WorkerNode
  worker : ℕ → WorkerAnswers
  draws : JobScheduler.Draws

/-- `has_available_cores`. -/
def hasAvailableCores (crs : CloudResources) : Bool :=
  crs.names.any fun res ↦ 0 < (crs.object res).availableNumberOfNodes

/-- `determine_required_instances_numbers`. -/
def determineRequiredInstancesNumbers (draws : JobScheduler.Draws) : Proc Unit := do
  let cluster ← cluster
  if cluster.idleJobs.length > 0 then
    let flavorList ← calculate draws cluster.idleJobs cluster.numberOfWn
    if flavorList.length > 0 then
      let provisioning ← provisioning
      if provisioning then pure () else locked (.queueRequests flavorList)
    else pure ()
  else pure ()

/-- The part of `collect_cluster_information` that may change the VMs. -/
def adjustWorkers (cfg : Config) (answers : JobAnswers) : Proc Unit := do
  let provisioning ← provisioning
  if provisioning then pure ()
  else
    checkExistingWorkerNodes cfg answers.worker
    let crs ← resources
    if hasAvailableCores crs then determineRequiredInstancesNumbers answers.draws else pure ()

/-- `collect_cluster_information`. -/
def collectClusterInformation (cfg : Config) (answers : JobAnswers) : Proc Unit := do
  setCluster fun c ↦
    { c with
      pbsServerUp := answers.pbsServerUp
      totalNumberOfIdleJobs := answers.totalNumberOfIdleJobs
      idleJobs := answers.idleJobs
      runningJobs := answers.runningJobs }
  let c ← cluster
  if c.pbsServerUp then
    prioritiseJobs answers.priorities
    setCluster fun c ↦
      { c with pbsServerUp := answers.wnQuery.1, workerNodes := answers.wnQuery.2 }
    let c ← cluster
    if c.pbsServerUp then
      setCluster fun c ↦ { c with numberOfWn := c.workerNodes.length }
      let sleepMode ← sleepMode
      let c ← cluster
      if sleepMode || !c.pbsServerUp || !c.mauiServerUp then pure ()
      else adjustWorkers cfg answers
    else pure ()
  else pure ()

/-! ### The CloudPoller -/

/-- The answers during one round of the CloudPoller. -/
structure CloudAnswers where
  update : UpdateAnswers
  cleanup : CleanupCalls

/-- One round of `CloudPoller.run`. -/
def cloudPoll (cfg : Config) (answers : CloudAnswers) : Proc Unit := do
  let provisioning ← provisioning
  Program.when provisioning (updateProvisionStatus cfg answers.update)
  checkCleanup cfg answers.cleanup

/-! ### Threads -/

/-- The threads that share the resource center. -/
inductive Thread
  | infoServer
  | jobPoller
  | cloudPoller
  deriving DecidableEq, Repr

/-- A round of a poller, with the answers it gets. -/
inductive Round
  | job (answers : JobAnswers)
  | cloud (answers : CloudAnswers)

/-- The program of a round. -/
def Round.program (cfg : Config) : Round → Proc Unit
  | .job answers => collectClusterInformation cfg answers
  | .cloud answers => cloudPoll cfg answers

/-- The rounds of each thread. -/
def rounds (job : List JobAnswers) (cloud : List CloudAnswers) : Thread → List Round
  | .infoServer => []
  | .jobPoller => job.map .job
  | .cloudPoller => cloud.map .cloud

/-! ### Sequential runs -/

/-- The state after an execution, whether it returned or raised. -/
def stateAfter {α : Type} (x : EStateM PyError State α) (s : State) : State :=
  match x s with
  | .ok _ s' => s'
  | .error _ s' => s'

/-- The exception that an execution raised, if any. -/
def raised {α : Type} (x : EStateM PyError State α) (s : State) : Option PyError :=
  match x s with
  | .ok _ _ => none
  | .error e _ => some e

/-- The calls that move VMs, with their arguments and the answers they get, and the two other
things that `collect_cluster_information` does to the state: it records what a query reports, and
it queues requests. -/
inductive Operation
  | killVm (vmName : String) (force : Bool)
  | forceoff (answers : ForceoffAnswers)
  | checkExistingWorkerNodes (answers : ℕ → WorkerAnswers)
  | launchInstances (answers : ℕ → Option StartedServer)
  | updateProvisionStatus (answers : UpdateAnswers)
  | checkCleanup (answers : CleanupCalls)
  | query (report : Cluster → Cluster)
  | queueRequests (requests : List ProvisionVM)

/-- The program of a call. -/
def Operation.program (cfg : Config) : Operation → Proc Unit
  | .killVm vmName force => DynamicTorque.killVm cfg vmName force
  | .forceoff answers => DynamicTorque.forceoff cfg answers
  | .checkExistingWorkerNodes answers => DynamicTorque.checkExistingWorkerNodes cfg answers
  | .launchInstances answers => DynamicTorque.launchInstances cfg answers
  | .updateProvisionStatus answers => DynamicTorque.updateProvisionStatus cfg answers
  | .checkCleanup answers => DynamicTorque.checkCleanup cfg answers
  | .query report => setCluster report
  | .queueRequests requests => locked (.queueRequests requests)

/-- The state after a call, whether it returned or raised. -/
def Operation.after (cfg : Config) (op : Operation) (s : State) : State :=
  stateAfter ((op.program cfg).exec cfg) s

/-- The state after calls one after another. -/
def runOperations (cfg : Config) (ops : List Operation) (s : State) : State :=
  ops.foldl (fun s op ↦ op.after cfg s) s

end DynamicTorque
