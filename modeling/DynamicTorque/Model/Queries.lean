import DynamicTorque.Language.Regex
import DynamicTorque.Model.LocalCommands
import DynamicTorque.Model.ResManagement

/-!
# The queries

The functions of `local_commands.py` that ask Torque and Maui: the words that they start the program
with, and what they make of its answer.
-/

open Python

namespace DynamicTorque

/-- What became of a program: it could not be run, or it has printed something and returned. -/
inductive Ran (α : Type)
  | raised
  | completed (out : α) (err : String) (returncode : ℤ)

/-- A child of an element of the XML, with its text, and the texts of its own children by tag. -/
structure XmlChild where
  tag : String
  text : Option String
  children : List (String × Option String) := []

/-- A node, or a job, as the loop over the children of its element builds it. A child without text
stands for its children. -/
def dictOfXml (children : List XmlChild) : Dict (Option String) :=
  children.foldl (fun d child ↦
    match child.text with
    | some text => d.insert child.tag (some text)
    | none =>
      child.children.foldl (fun d grandChild ↦
        d.insert (child.tag ++ "." ++ grandChild.1) grandChild.2) d) ∅

/-- `_pbsnodes_to_node_list`, from the elements `Node` of the root. -/
def pbsnodesToNodeList (pbsnodesOutput : XmlText (List XmlChild)) : List (Dict (Option String)) :=
  match pbsnodesOutput.fromstring with
  | .ok rawNodes => rawNodes.map dictOfXml
  | .error _ => []

/-- `wn_query`. -/
def wnQuery (cmds : Commands) (run : List String → Ran (XmlText (List XmlChild))) :
    Except PyError (Bool × List (Dict (Option String))) := do
  let words ← loggedWords cmds.pbsnodesCommand ["-x", ""]
  match run words with
  | .raised => pure (false, [])
  | .completed out err returncode =>
    pure (if returncode ≠ 0 then (strIn "No nodes found" err, [])
      else (true, pbsnodesToNodeList out))

/-- The loop of `get_wn_in_torque`: the first node with the name. -/
def findNode (hostname : String) :
    List (Dict (Option String)) → Except PyError (Option (Dict (Option String)))
  | [] => .ok none
  | node :: nodes => do
    let name ← node.get "name"
    if name = some hostname then pure (some node) else findNode hostname nodes

/-- `get_wn_in_torque`. -/
def getWnInTorque (cmds : Commands) (run : List String → Ran (XmlText (List XmlChild))) (vm : VM) :
    Except PyError (Option (Dict (Option String))) := do
  let words ← loggedWords cmds.pbsnodesCommand ["-x", vm.hostname]
  match run words with
  | .raised => pure none
  | .completed out err returncode =>
    if returncode ≠ 0 then
      pure (if strIn "cannot locate specified node" err then some ∅ else none)
    else findNode vm.hostname (pbsnodesToNodeList out)

/-- `job_query`. -/
def jobQuery (cfg : Config) (cmds : Commands) (run : List String → Ran (XmlText RawJob)) :
    Except PyError (Bool × ℤ × List Job × List Job) := do
  let words ← inTry (shlexSplit cmds.qstatCommand.toList)
  match run words with
  | .raised => pure (false, 0, [], [])
  | .completed out _ returncode =>
    if returncode ≠ 0 then pure (false, 0, [], [])
    else
      match out with
      | .empty => pure (true, 0, [], [])
      | out => pure (true, qstatToJobList cfg out)

/-- `get_job_priorities`. -/
def queryJobPriorities (cmds : Commands) (run : List String → Ran (XmlText DiagnosedJob)) :
    Except PyError (Bool × List JobPriority) := do
  let words ← inTry (shlexSplit cmds.diagnosePCommand.toList)
  match run words with
  | .raised => pure (false, [])
  | .completed out _ returncode =>
    if returncode ≠ 0 then pure (false, [])
    else do
      let jobPriorities ← getJobPriorities out
      pure (true, jobPriorities)

/-- `state = (.*)`. -/
def statePattern : Regex.Pattern Char :=
  .seq (Regex.Pattern.literal "state = ".toList) (.group (.star fun c ↦ c ≠ '\n'))

/-- `check_node`. -/
def checkNode (cmds : Commands) (run : List String → Ran String) (nodeName : String) :
    Except PyError (Option String) := do
  let words ← inTry (commandWords cmds.checkNodeCommand [nodeName])
  match run words with
  | .raised => pure none
  | .completed cmdOut _ returncode =>
    if returncode ≠ 0 then pure none
    else
      match statePattern.search cmdOut.toList with
      | some ⟨_, [state], _⟩ => pure (some (String.ofList (lower (String.ofList (strip state)))))
      | _ => pure (some "unknown")

end DynamicTorque
