import DynamicTorque.Language.Builtins
import DynamicTorque.Language.Program
import DynamicTorque.Language.Regex

/-!
# The submit filter

`scripts/qsub_filter`, which Torque runs on each job script: it copies the script from its standard
input to its standard output and returns -1 to have the job refused. The script is one for
Python 2, in which `/` divides integers with the remainder dropped and an indentation of 32 blanks
is one of four tabs. Lines of input and output are given with their line breaks.
-/

open Python Atomic Regex

namespace DynamicTorque.QsubFilter

/-! ### Runs of the filter -/

/-- What the filter reads besides the script. `accounts` is the text of `accounts.conf`, `none` if
the file cannot be opened. -/
structure Environment where
  user : String
  accounts : Option String

/-- A message on the standard error: a text, or a text and a list that is printed after it. -/
inductive Message
  | text (s : String)
  | list (s : String) (items : List String)
  deriving DecidableEq, Repr

structure Output where
  stdout : List String := []
  stderr : List Message := []
  deriving DecidableEq, Repr

/-- How the filter can be left before its last line. -/
inductive Exit
  | raised (e : PyError)
  | returned (code : ℤ)
  deriving DecidableEq, Repr

/-- A part of the filter. -/
abbrev Filter (α : Type) := EStateM Exit Output α

def raise {α : Type} (e : PyError) : Filter α := throw (.raised e)

/-- A call that may raise. -/
def call {α : Type} : Except PyError α → Filter α
  | .ok a => pure a
  | .error e => raise e

/-- `return code`, inside a loop. -/
def leave {α : Type} (code : ℤ) : Filter α := throw (.returned code)

def writeOut (line : String) : Filter Unit :=
  modify fun out ↦ { out with stdout := out.stdout ++ [line] }

def writeErr (message : Message) : Filter Unit :=
  modify fun out ↦ { out with stderr := out.stderr ++ [message] }

/-! ### The patterns -/

open Pattern

def blanks : Pattern Char := star fun c ↦ c = ' '

def digit19 (c : Char) : Bool := '1' ≤ c ∧ c ≤ '9'

def zeros : Pattern Char := star fun c ↦ c = '0'

/-- `(0*[1-9][0-9]?)` -/
def count : Pattern Char := group (seq zeros (seq (char digit19) (opt Char.isDigit)))

/-- `(0*[1-9][0-9]*)` -/
def amount : Pattern Char := group (seq zeros (seq (char digit19) (star Char.isDigit)))

/-- `([a-zA-Z][a-zA-Z])` -/
def unit : Pattern Char := group (seq (char Char.isAlpha) (char Char.isAlpha))

/-- `^ *#PBS  *-o  *` for an option `-o`. It is only matched at the start of a line. -/
def directive (option : List Char) : Pattern Char :=
  seq blanks (seq (literal ['#', 'P', 'B', 'S', ' ']) (seq blanks (seq (literal option)
    (seq (literal [' ']) blanks))))

def accountPattern : Pattern Char := directive ['-', 'A']

def resourcePattern : Pattern Char := directive ['-', 'l']

/-- ` *nodes=(0*[1-9][0-9]?)` -/
def nodesPattern : Pattern Char :=
  seq blanks (seq (literal ['n', 'o', 'd', 'e', 's', '=']) count)

/-- `ppn=(0*[1-9][0-9]?)` -/
def ppnPattern : Pattern Char := seq (literal ['p', 'p', 'n', '=']) count

/-- `ncpus=(0*[1-9][0-9]?)` -/
def ncpusPattern : Pattern Char := seq (literal ['n', 'c', 'p', 'u', 's', '=']) count

/-- ` *mem=(0*[1-9][0-9]*)([a-zA-Z][a-zA-Z])` -/
def memPattern : Pattern Char :=
  seq blanks (seq (literal ['m', 'e', 'm', '=']) (seq amount unit))

/-- `m.groups()[i]` -/
def groupText (m : Match Char) (i : ℕ) : String := String.ofList (m.groups.getD i [])

/-! ### The directives -/

/-- The variables that the loop over the lines sets. -/
structure Request where
  accountString : Option String := none
  nodeCount : ℤ := 0
  ppnCount : ℤ := 1
  memory : ℤ := 0
  deriving DecidableEq, Repr

/-- `line.find(" -A ")` -/
def findOption : List Char → Option ℕ
  | [] => none
  | c :: cs =>
    if [' ', '-', 'A', ' '].isPrefixOf (c :: cs) then some 0 else (findOption cs).map (· + 1)

/-- `line[line.find(" -A ")+4:].strip()`. The method gives -1 if there is no such text. -/
def accountOf (line : String) : String :=
  String.ofList (strip (line.toList.drop
    (match findOption line.toList with
    | some i => i + 4
    | none => 3)))

def pwdNotDefined : PyError := .exception "NameError: name 'pwd' is not defined"

/-- `pwd.getpwuid(os.getuid())[0]`. The module `pwd` is not imported. -/
def loginName : Filter String := raise pwdNotDefined

def multiNodeMessage : Message :=
  .text "Sorry, multi-node jobs are currently not supported.\n"

def memoryUnitMessage : Message :=
  .text ("Memory should be either in Kilo Bytes(kb, KB) or Mega Bytes (mb, MB) or Giga Bytes " ++
    "(gb, GB). Please fix the script.\n")

def tooMuchMemoryMessage : Message :=
  .text ("You have asked for too much memory. In Emu 4GB memory is allocated for each core. " ++
    "(But in theroy usable memory is a bit less because some are used by the system, etc.) " ++
    "Please fix the script.\n")

/-- The part of a resource directive that begins with `nodes=`. -/
def readNodes (line : String) (request : Request) : Filter Request :=
  match nodesPattern.search line.toList with
  | none => pure request
  | some m => do
    let nodeCount ← call (int (groupText m 0))
    let username ← loginName
    if nodeCount > 1 ∧ username ≠ "sreilly" ∧ username ≠ "shundezh" then
      writeErr multiNodeMessage
      leave (-1)
    else return { request with nodeCount := nodeCount }

def readPpn (line : String) (request : Request) : Filter Request :=
  match ppnPattern.search line.toList with
  | none => pure request
  | some m => do
    let ppnCount ← call (int (groupText m 0))
    return { request with ppnCount := ppnCount }

def readNcpus (line : String) (request : Request) : Filter Request :=
  match ncpusPattern.search line.toList with
  | none => pure request
  | some m => do
    let ppnCount ← call (int (groupText m 0))
    return { request with nodeCount := 1, ppnCount := ppnCount }

def readMem (line : String) (request : Request) : Filter Request :=
  match memPattern.search line.toList with
  | none => pure request
  | some m => do
    let memory ← call (int (groupText m 0))
    let mtag := lower (groupText m 1)
    if mtag = ['g', 'b'] then return { request with memory := memory * 1024 * 1024 }
    else if mtag = ['m', 'b'] then return { request with memory := memory * 1024 }
    else if mtag = ['k', 'b'] then return { request with memory := memory }
    else
      writeErr memoryUnitMessage
      leave (-1)

/-- The body of the loop over the lines. -/
def readLine (request : Request) (line : String) : Filter Request := do
  writeOut line
  let request :=
    if (accountPattern.first line.toList).isSome then
      { request with accountString := some (accountOf line) }
    else request
  if (resourcePattern.first line.toList).isSome then
    let request ← readNodes line request
    let request ← readPpn line request
    let request ← readNcpus line request
    readMem line request
  else return request

/-! ### The account -/

/-- The loop over the arguments. -/
def argvAccount : List String → Option String → Filter (Option String)
  | [], accountString => pure accountString
  | arg :: rest, accountString =>
    if arg = "-A" then
      match rest with
      | [] => raise .indexError
      | account :: _ => pure (some account)
    else argvAccount rest accountString

/-- `get_tenants`. -/
def getTenants (env : Environment) (username : String) : Except PyError (List String) :=
  match env.accounts with
  | none => .error (.exception "IOError: /etc/dynamictorque/accounts.conf")
  | some text =>
    let content := readlines text
    .ok ((content.filter fun line ↦ strIn username line).map fun line ↦ (split ' ' line).headD "")

/-- The end of `main`, once the account string is known. -/
def checkAccount (env : Environment) : Option String → Filter ℤ
  | none => return 0
  | some account => do
    let tenants ← call (getTenants env env.user)
    if account ∉ tenants then
      writeErr (.text ("You are not allowed to submit your jobs to " ++ account ++ "\n"))
      writeErr (.list "Your valid account strings are " tenants)
      return -1
    else return 0

/-! ### The filter -/

/-- `main`, up to how it is left. -/
def run (env : Environment) (stdin : List String) (argv : Option (List String)) : Filter ℤ := do
  let request ← stdin.foldlM readLine {}
  if request.nodeCount > 0 ∧ request.memory > 0 ∧
      request.memory / (request.nodeCount * request.ppnCount) > 4000000 then
    writeErr tooMuchMemoryMessage
    return -1
  else
    match argv with
    -- the default, which has no length
    | none => raise .typeError
    | some argv =>
      let accountString ← argvAccount argv request.accountString
      checkAccount env accountString

/-- `main`: what it writes, and what it returns or raises. -/
def main (env : Environment) (stdin : List String) (argv : Option (List String)) :
    Output × Except PyError ℤ :=
  match run env stdin argv {} with
  | .ok code out => (out, .ok code)
  | .error (.returned code) out => (out, .ok code)
  | .error (.raised e) out => (out, .error e)

end DynamicTorque.QsubFilter
