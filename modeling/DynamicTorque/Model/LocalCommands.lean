import DynamicTorque.Model.Pollers

/-!
# The output of the queue commands, and the persistent file

`_qstat_to_job_list` and `_get_job_priorities` of `local_commands.py`, which read the XML that
`qstat -x -t` and `diagnose -p` print, and the two functions that write and read the names of the
nodes. The XML is given as `ElementTree` parses it: a job of
`qstat` is the dictionary that the loop over its children builds, a job of `diagnose` the texts of
the two children that are looked up.
-/

open Python

namespace DynamicTorque

/-- What a command printed: nothing, a text that is not XML, or the children of the root. -/
inductive XmlText (α : Type)
  | empty
  | malformed
  | root (children : List α)

/-- `ET.fromstring`. -/
def XmlText.fromstring {α : Type} : XmlText α → Except PyError (List α)
  | .root children => .ok children
  | _ => .error (.exception "ParseError")

/-! ### qstat -/

/-- A job of the XML; a field is `none` where the dictionary has no such key. A child of
`Resource_List` has its key also if it has no text. -/
structure RawJob where
  jobId : Option String := none
  jobState : Option String := none
  queue : Option String := none
  accountName : Option String := none
  neednodes : Option (Option String) := none
  ncpus : Option (Option String) := none
  nodes : Option (Option String) := none
  deriving DecidableEq, Repr

/-- The record that goes on a list. -/
def RawJob.toJob (rawJob : RawJob) (priority : Option ℤ) : Job where
  jobId := rawJob.jobId.getD ""
  jobState := rawJob.jobState.getD ""
  queue := rawJob.queue
  accountName := rawJob.accountName
  neednodes := rawJob.neednodes
  ncpus := rawJob.ncpus
  nodes := rawJob.nodes
  priority := priority

/-- The loop variables of `_qstat_to_job_list`. -/
structure JobLists where
  totalNumberOfIdleJobs : ℤ := 0
  numOfJobs : ℤ := 0
  idleJobs : List RawJob := []
  runningJobs : List RawJob := []

/-- Whether a queued job is in a monitored queue. The queue is looked up only if some are named. -/
def RawJob.monitored (cfg : Config) (job : RawJob) : Except PyError Bool :=
  if cfg.torqueQueueToMonitor.length = 0 then .ok true
  else
    match job.queue with
    | some queue => .ok (cfg.torqueQueueToMonitor.contains queue)
    | none => .error (.keyError "queue")

/-- The loop body of `_qstat_to_job_list`. -/
def collectJob (cfg : Config) (lists : JobLists) (job : RawJob) : Except PyError JobLists :=
  match job.jobState with
  | none => .error (.keyError "job_state")
  | some jobState => do
    let idle ← if jobState = "Q" then job.monitored cfg else pure false
    if idle then
      let lists :=
        { lists with totalNumberOfIdleJobs := lists.totalNumberOfIdleJobs + 1 }
      if cfg.maxNumberOfJobs < 1 ∨
          (cfg.maxNumberOfJobs > 0 ∧ lists.numOfJobs < cfg.maxNumberOfJobs) then
        pure
          { lists with
            idleJobs := lists.idleJobs ++ [job]
            numOfJobs := lists.numOfJobs + 1 }
      else pure lists
    else if jobState = "R" then pure { lists with runningJobs := lists.runningJobs ++ [job] }
    else pure lists

/-- The key that idle jobs are sorted by, with the job. -/
def RawJob.keyed (job : RawJob) : Except PyError (ℤ × Job) :=
  match job.jobId with
  | none => .error (.keyError "Job_Id")
  | some _ => do
    -- `job['Priority']` is set, which is not the key that the priorities are read from
    let number ← (job.toJob (some (-1))).number
    pure (number, job.toJob (some (-1)))

/-- The body of the `try` in `_qstat_to_job_list`. -/
def readJobs (cfg : Config) (qstatOutput : XmlText RawJob) :
    Except PyError (ℤ × List Job × List Job) := do
  let rawJobs ← qstatOutput.fromstring
  let lists ← rawJobs.foldlM (collectJob cfg) {}
  let keyed ← lists.idleJobs.mapM RawJob.keyed
  pure (lists.totalNumberOfIdleJobs, (sortByKey Prod.fst keyed).map Prod.snd,
    lists.runningJobs.map fun job ↦ job.toJob none)

/-- `_qstat_to_job_list`: the number of idle jobs, idle jobs by number, running jobs. Any exception
gives no jobs. -/
def qstatToJobList (cfg : Config) (qstatOutput : XmlText RawJob) : ℤ × List Job × List Job :=
  match readJobs cfg qstatOutput with
  | .ok result => result
  | .error _ => (0, [], [])

/-! ### diagnose -/

/-- A job of the XML: for `Job_Id` and `Priority`, `none` if there is no such child, else its
text, if it has one. -/
structure DiagnosedJob where
  jobId : Option (Option String)
  priority : Option (Option String)
  deriving DecidableEq, Repr

/-- `job.find(..).text`. -/
def findText : Option (Option String) → Except PyError (Option String)
  | none => .error (.attributeError "text")
  | some text => .ok text

/-- `int(text.split(".")[0])`. -/
def intBeforeDot : Option String → Except PyError ℤ
  | none => .error (.attributeError "split")
  | some text => Unicode.int (String.ofList (text.toList.takeWhile (· ≠ '.')))

/-- The loop body of `_get_job_priorities`. -/
def DiagnosedJob.toJobPriority (job : DiagnosedJob) : Except PyError JobPriority := do
  let jobId ← findText job.jobId >>= intBeforeDot
  let priority ← findText job.priority >>= Unicode.intOfText
  pure ⟨jobId, priority⟩

/-- `_get_job_priorities`. -/
def getJobPriorities : XmlText DiagnosedJob → Except PyError (List JobPriority)
  | .empty => .ok []
  | diagnoseOutput => do
    let jobs ← diagnoseOutput.fromstring
    let jobPriorities ← jobs.mapM DiagnosedJob.toJobPriority
    pure (sortByKey JobPriority.jobId jobPriorities)

/-! ### The persistent file -/

/-- The line that is written for a VM. -/
def VM.persistentLine (cfg : Config) (vm : VM) : String :=
  vm.hostname ++ " np=" ++ toString vm.vcpuNumber ++ " " ++ cfg.nodeProperty ++
    String.singleton '\n'

/-- `dump_nodes_to_persistent_file`: the text of the file. -/
def dumpNodesToPersistentFile (cfg : Config) (existingInstances : List VM) : String :=
  String.join (existingInstances.map (VM.persistentLine cfg))

/-- `line.split(" ")[0].strip()`. -/
def nodeOfLine (line : String) : String :=
  String.ofList (strip ((split ' ' line).headD "").toList)

/-- `read_nodes_from_persistent_file`. There may be no file. -/
def readNodesFromPersistentFile : Option String → List String
  | none => []
  | some content => (readlines content).map nodeOfLine

end DynamicTorque
