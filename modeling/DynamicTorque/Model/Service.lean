import DynamicTorque.Language.Schedules
import DynamicTorque.Model.InfoServer
import DynamicTorque.Model.Pollers

/-!
# The service

`main` of `dynamictorque.py` once the resource center is loaded, and the `run` methods of the three
threads that it starts: the JobPoller, the CloudPoller and the InfoServer. A turn is one step of one
thread: a test, a second of sleep, a call of `start`, `stop` or `join`, or one atomic step of the
operation that the thread is executing. A turn of a thread that is waiting changes nothing.

`Turn.signal` is the moment at which the handler of SIGTERM raises `SystemExit` in the main thread.
Only the watch over the pollers catches it. Where a bare `except` of the cloud wrapper swallows it,
the call in progress has failed, which the answers of the cloud cover.
-/

open Python Atomic

namespace DynamicTorque

/-- The settings, with the one that only the CloudPoller reads. -/
structure ServiceConfig extends Config where
  cloudPollerInterval : ℤ := 20

/-! ### Threads -/

/-- `service_threads`. -/
inductive Poller
  | job
  | cloud
  deriving DecidableEq, Repr

/-- The pollers in the order of `service_threads`. -/
def Poller.all : List Poller := [.job, .cloud]

/-- Where a poller is in its `run`. The body of the loop begins with `sleep_tics` 0 or sleeps. -/
inductive PollerState
  | notStarted
  /-- At `while not self.quit`. -/
  | testing (sleepTics : ℤ)
  | polling (left : Proc Unit)
  | sleeping (sleepTics : ℤ)
  /-- After the loop. -/
  | leaving (left : Proc Unit)
  /-- At the end of `run`, with the exception that was logged, if any. -/
  | ended (raised : Option PyError)

/-- `not thread.isAlive()`, of a thread that was started. -/
def PollerState.isEnded : PollerState → Bool
  | .ended _ => true
  | _ => false

/-- Where the InfoServer is in its `run`. -/
inductive ServerState
  | notStarted
  /-- In `handle_request`, without a request. -/
  | waiting
  | handling (request : Request) (left : Proc Response)
  | ended

/-- Where the main thread is, from the start of the threads on. -/
inductive MainState
  | startingServer
  | starting (threads : List Poller)
  /-- In the watch over the pollers, with those still to be looked at in this second. -/
  | watching (threads : List Poller) (die : Bool)
  | forcing (left : Proc Unit)
  | stopping (threads : List Poller)
  | joining (threads : List Poller)
  | stoppingServer
  | joiningServer
  /-- After `sys.exit()` at the end of `main`. -/
  | stopped
  /-- `forceoff` raised. -/
  | failed (e : PyError)
  /-- A signal arrived outside the watch. -/
  | interrupted

/-- The process. `polls` and `seconds` count, for each poller, the polls that have begun and the
seconds slept; the program keeps no such count. -/
structure Service where
  shared : State
  main : MainState
  poller : Poller → PollerState
  quit : Poller → Bool
  server : ServerState
  done : Bool
  sent : List Response
  polls : Poller → ℕ
  seconds : Poller → ℕ

/-- What happens next. The InfoServer is asked, or times out. -/
inductive Turn
  | main
  | signal
  | poller (p : Poller)
  | server (request : Option Request)

/-- The answers of Torque and the cloud: to each poll, and to the `forceoff` of the main thread. -/
structure ServiceAnswers where
  job : ℕ → JobAnswers
  cloud : ℕ → CloudAnswers
  forceoff : ForceoffAnswers

/-- The process before the threads start. -/
def Service.initial (s : State) : Service where
  shared := s
  main := .startingServer
  poller := fun _ ↦ .notStarted
  quit := fun _ ↦ false
  server := .notStarted
  done := false
  sent := []
  polls := fun _ ↦ 0
  seconds := fun _ ↦ 0

namespace Service

variable (cfg : ServiceConfig) (answers : ServiceAnswers)

/-! ### The pollers -/

def setPoller (s : Service) (p : Poller) (x : PollerState) : Service :=
  { s with poller := Function.update s.poller p x }

/-- `self.polling_interval`. -/
def pollingInterval : Poller → ℤ
  | .job => cfg.jobPollerInterval
  | .cloud => cfg.cloudPollerInterval

/-- The work of a poller in the body of its loop. -/
def poll (p : Poller) (n : ℕ) : Proc Unit :=
  match p with
  | .job => collectClusterInformation cfg.toConfig (answers.job n)
  | .cloud => cloudPoll cfg.toConfig (answers.cloud n)

/-- What a poller does after its loop: only the JobPoller dumps the nodes. -/
def afterLoop : Poller → Proc Unit
  | .job => Proc.dumpNodes
  | .cloud => pure ()

/-- One step of a program on the shared state. -/
def turn {α : Type} (s : Service) (left : Proc α) : Proc α × State :=
  left.turn (exec cfg.toConfig) s.shared

/-- One step of `JobPoller.run` or `CloudPoller.run`. -/
def advancePoller (p : Poller) (s : Service) : Service :=
  match s.poller p with
  | .notStarted | .ended _ => s
  | .testing tics =>
    if s.quit p then s.setPoller p (.leaving (afterLoop p))
    else if tics = 0 then
      { s.setPoller p (.polling (poll cfg answers p (s.polls p))) with
        polls := Function.update s.polls p (s.polls p + 1) }
    else s.setPoller p (.sleeping tics)
  | .polling (.ret _) => s.setPoller p (.sleeping 0)
  | .polling (.raise e) => s.setPoller p (.ended (some e))
  | .polling left =>
    { s.setPoller p (.polling (s.turn cfg left).1) with shared := (s.turn cfg left).2 }
  | .sleeping tics =>
    { s.setPoller p (.testing (if tics + 1 ≥ pollingInterval cfg p then 0 else tics + 1)) with
      seconds := Function.update s.seconds p (s.seconds p + 1) }
  | .leaving (.ret _) => s.setPoller p (.ended none)
  | .leaving (.raise e) => s.setPoller p (.ended (some e))
  | .leaving left =>
    { s.setPoller p (.leaving (s.turn cfg left).1) with shared := (s.turn cfg left).2 }

/-! ### The InfoServer -/

/-- The end of an iteration of `InfoServer.run`. -/
def testDone (s : Service) : Service :=
  { s with server := if s.done then .ended else .waiting }

/-- A response is sent. -/
def reply (s : Service) (response : Response) : Service :=
  { s with sent := s.sent ++ [response] }

/-- One step of `InfoServer.run`. -/
def advanceServer (request : Option Request) (s : Service) : Service :=
  match s.server with
  | .notStarted | .ended => s
  | .waiting =>
    match request with
    | none => s.testDone
    | some request => { s with server := .handling request (request.program cfg.toConfig) }
  | .handling _ (.ret response) => (s.reply response).testDone
  | .handling request (.raise e) => (s.reply (request.failed e)).testDone
  | .handling request left =>
    { s with server := .handling request (s.turn cfg left).1, shared := (s.turn cfg left).2 }

/-! ### The main thread -/

/-- One step of `main`. -/
def advanceMain (s : Service) : Service :=
  match s.main with
  | .startingServer => { s with server := .waiting, main := .starting Poller.all }
  | .starting (p :: threads) => { s.setPoller p (.testing 0) with main := .starting threads }
  | .starting [] => { s with main := .watching Poller.all false }
  | .watching (p :: threads) die =>
    { s with main := .watching threads (die || (s.poller p).isEnded) }
  -- a second of sleep, and the test
  | .watching [] die =>
    { s with
      main :=
        if die then .forcing (forceoff cfg.toConfig answers.forceoff)
        else .watching Poller.all false }
  | .forcing (.ret _) => { s with main := .stopping Poller.all }
  | .forcing (.raise e) => { s with main := .failed e }
  | .forcing left =>
    { s with main := .forcing (s.turn cfg left).1, shared := (s.turn cfg left).2 }
  | .stopping (p :: threads) =>
    { s with quit := Function.update s.quit p true, main := .stopping threads }
  | .stopping [] => { s with main := .joining Poller.all }
  | .joining (p :: threads) =>
    if (s.poller p).isEnded then { s with main := .joining threads } else s
  | .joining [] => { s with main := .stoppingServer }
  | .stoppingServer => { s with done := true, main := .joiningServer }
  | .joiningServer =>
    match s.server with
    | .ended => { s with main := .stopped }
    | _ => s
  | .stopped | .failed _ | .interrupted => s

/-- SIGTERM. -/
def signal (s : Service) : Service :=
  match s.main with
  | .watching _ _ => { s with main := .forcing (forceoff cfg.toConfig answers.forceoff) }
  | .stopped | .failed _ | .interrupted => s
  | _ => { s with main := .interrupted }

/-! ### Runs -/

/-- One turn. -/
def advance (t : Turn) (s : Service) : Service :=
  match t with
  | .main => advanceMain cfg answers s
  | .signal => signal cfg answers s
  | .poller p => advancePoller cfg answers p s
  | .server request => advanceServer cfg request s

/-- The process after the turns of a schedule. -/
def run (schedule : List Turn) (s : Service) : Service :=
  runTurns (advance cfg answers) schedule s

end Service

end DynamicTorque
