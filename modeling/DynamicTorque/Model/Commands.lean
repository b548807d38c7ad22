import DynamicTorque.Language.Format
import DynamicTorque.Model.CloudTools

/-!
# The command lines

The functions of `local_commands.py` that run a program for a VM: the words that they start it with.
A setting whose command line is formatted is given by its pieces, so its fields are numbers. Where a
command line cannot be built, the function raises out of the operation that calls it.
-/

open Python

namespace DynamicTorque

open Format (pieces)

/-- The commands of `config.py`. -/
structure Commands where
  qstatCommand : String := "/usr/bin/qstat -x -t"
  pbsnodesCommand : List Piece := pieces "/usr/bin/pbsnodes {0} {1}"
  addNodeCommand : List Piece := pieces "/usr/bin/qmgr -c \"create node {0}\""
  checkNodeCommand : List Piece := pieces "/usr/bin/checknode {0}"
  removeNodeCommand : List Piece := pieces "/usr/bin/qmgr -c \"delete node {0}\""
  setNodeCommand : List Piece := pieces "/usr/bin/qmgr -c \"set node {0} {1} {2} {3}\""
  diagnosePCommand : String := "/usr/bin/diagnose -p"
  postAddNodeCommand : List Piece := []
  postRemoveNodeCommand : List Piece := []
  postVmProvisionCommand : List Piece := []
  postVmDestroyCommand : List Piece := []
  setresCommand : List Piece := pieces "/usr/bin/setres -a {0} {1}"
  releaseresCommand : List Piece := pieces ("/usr/bin/releaseres `/usr/bin/showres -n" ++
    " | grep User | grep {0} | awk '\x7b\x7bprint $3\x7d\x7d' `")

/-- How a function starts a program: not at all, from its words, or through the shell. -/
inductive Invocation
  | skipped
  | argv (words : List String)
  | shell (line : String)
  deriving DecidableEq, Repr

/-! ### Words -/

/-- `shlex.split(line)`. -/
def shlexSplit (line : List Char) : Except PyError (List String) :=
  (Shlex.split Shlex.kindOfChar line).map (List.map String.ofList)

/-- `shlex.split(template.format(*args))`. -/
def commandWords (template : List Piece) (args : List String) : Except PyError (List String) :=
  format template args >>= shlexSplit

/-- The handler of the `try` joins the words for the log. If it is their computation that has
raised, the variable has no value. -/
def inTry {α : Type} : Except PyError α → Except PyError α
  | .ok a => .ok a
  | .error _ => .error (.exception "UnboundLocalError")

/-- The words, where the line is formatted for the log before the `try`. -/
def loggedWords (template : List Piece) (args : List String) : Except PyError (List String) := do
  let _ ← format template args
  inTry (commandWords template args)

/-! ### Commands for a VM -/

/-- The commands run for a VM, by name. -/
inductive Command
  | holdNode
  | releaseNode
  | removeNode
  | removeNodeFromHostsFile
  | removeNodeFromKnownHostsFile
  | addNode (added : Bool)
  | setRes (reservationType accountString : String)
  | releaseRes
  | setNodeProperty (property : String)
  | addNodeProperty (property : String)
  | setNp (np : ℤ)
  | setNodeOnline
  | postVmProvisionAction
  | postVmDestroyAction
  | postAddNodeAction
  | postRemoveNodeAction
  deriving DecidableEq, Repr

/-- The option of `setres` for a kind of reservation. -/
def reservationOption (resType : String) : Option String :=
  if resType = "account" then some "-a" else if resType = "queue" then some "-q" else none

/-- The four hooks, which are optional. -/
def postAction (template : List Piece) (args : List String) : Except PyError Invocation :=
  if template = [] then .ok .skipped else .argv <$> loggedWords template args

/-- An attribute, as `format` and `%s` print it. -/
def strOfOption : Option String → String
  | some s => s
  | none => "None"

/-- What is started for a VM, or what is raised because its command line cannot be built. -/
def Command.invocation (cmds : Commands) (vm : VM) : Command → Except PyError Invocation
  | .holdNode => .argv <$> inTry (commandWords cmds.pbsnodesCommand ["-o", vm.hostname])
  | .releaseNode => .argv <$> inTry (commandWords cmds.pbsnodesCommand ["-c", vm.hostname])
  | .removeNode => .argv <$> inTry (commandWords cmds.removeNodeCommand [vm.hostname])
  | .removeNodeFromHostsFile =>
    .argv <$> inTry (commandWords (pieces "sed -i '/{0}/d' /etc/hosts") [vm.hostname])
  | .removeNodeFromKnownHostsFile =>
    .argv <$> inTry (commandWords (pieces "ssh-keygen -R {0}") [vm.hostname])
  | .addNode _ => .argv <$> loggedWords cmds.addNodeCommand [vm.hostname]
  | .setRes resType accountString =>
    match reservationOption resType with
    | none => .ok .skipped
    | some resOpt =>
      .argv <$> loggedWords cmds.setresCommand [resOpt, accountString, vm.hostname]
  | .releaseRes =>
    (fun line ↦ .shell (String.ofList line)) <$> format cmds.releaseresCommand [vm.hostname]
  | .setNodeProperty nodeProperty =>
    .argv <$> loggedWords cmds.setNodeCommand [vm.hostname, "properties", "=", nodeProperty]
  | .addNodeProperty nodeProperty =>
    .argv <$> loggedWords cmds.setNodeCommand [vm.hostname, "properties", "+=", nodeProperty]
  | .setNp np => .argv <$> loggedWords cmds.setNodeCommand [vm.hostname, "np", "=", toString np]
  | .setNodeOnline =>
    .argv <$> inTry (commandWords cmds.setNodeCommand [vm.hostname, "state", "=", "free"])
  | .postVmProvisionAction =>
    postAction cmds.postVmProvisionCommand [vm.hostname, strOfOption vm.ip, vm.name]
  | .postVmDestroyAction =>
    postAction cmds.postVmDestroyCommand [vm.hostname, strOfOption vm.ip, vm.name]
  | .postAddNodeAction => postAction cmds.postAddNodeCommand [vm.hostname, strOfOption vm.ip]
  | .postRemoveNodeAction =>
    postAction cmds.postRemoveNodeCommand [vm.hostname, strOfOption vm.ip]

end DynamicTorque
