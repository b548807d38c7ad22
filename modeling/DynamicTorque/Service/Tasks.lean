import DynamicTorque.Service.Watch

/-!
# The tasks of the threads

The loops, flags and clocks of the service decide when an operation of the resource center begins.
What a thread is executing then is its `current` task, and a turn of the service is one of a few
things for the tasks (`Matches`): a thread begins a task, performs its next operation or leaves it,
or only the control flow moves.
-/

open Python Atomic Program

namespace DynamicTorque

/-- The threads of the process. -/
inductive ThreadId
  | main
  | poller (p : Poller)
  | server
  deriving DecidableEq

/-- The thread whose turn it is. A signal reaches the main thread. -/
def Turn.thread : Turn → ThreadId
  | .main | .signal => .main
  | .poller p => .poller p
  | .server _ => .server

/-- The operations that the threads execute. -/
inductive Task
  | forceoff
  | poll (p : Poller) (n : ℕ)
  | afterLoop (p : Poller)
  | request (request : Request)

namespace Service

/-- A program whose result is not looked at. -/
def discard {α : Type} (p : Proc α) : Proc Unit :=
  (fun _ ↦ ()) <$> p

variable (cfg : ServiceConfig) (answers : ServiceAnswers)

/-- The program of a task. -/
def taskProgram : Task → Proc Unit
  | .forceoff => DynamicTorque.forceoff cfg.toConfig answers.forceoff
  | .poll p n => poll cfg answers p n
  | .afterLoop p => Service.afterLoop p
  | .request request => discard (request.program cfg.toConfig)

/-- What a thread is executing, and what is left of it. -/
def current (s : Service) : ThreadId → List (Task × Proc Unit)
  | .main =>
    match s.main with
    | .forcing left => [(.forceoff, left)]
    | _ => []
  | .poller p =>
    match s.poller p with
    | .polling left => [(.poll p (s.polls p - 1), left)]
    | .leaving left => [(.afterLoop p, left)]
    | _ => []
  | .server =>
    match s.server with
    | .handling request left => [(.request request, discard left)]
    | _ => []

/-- What one turn of the service, on thread `i`, is for the tasks. -/
inductive Matches (i : ThreadId) (s s' : Service) : Prop
  | rests (shared : s'.shared = s.shared) (threads : ∀ j, current s' j = current s j)
  | begins (c : Task) (shared : s'.shared = s.shared) (idle : current s i = [])
      (threads : ∀ j, current s' j =
        if j = i then [(c, taskProgram cfg answers c)] else current s j)
  | performs (c : Task) (o : Act) (next : o.Reply → Proc Unit)
      (busy : current s i = [(c, .act o next)])
      (shared : s'.shared = ((Program.act o next).turn (exec cfg.toConfig) s.shared).2)
      (threads : ∀ j, current s' j =
        if j = i then [(c, ((Program.act o next).turn (exec cfg.toConfig) s.shared).1)]
        else current s j)
  | leaves (c : Task) (left : Proc Unit) (busy : current s i = [(c, left)])
      (hover : ∀ o next, left ≠ .act o next) (shared : s'.shared = s.shared)
      (threads : ∀ j, current s' j = if j = i then [] else current s j)
  | interrupted (own : i = .main) (shared : s'.shared = s.shared) (main : s'.main = .interrupted)
      (threads : ∀ j, j ≠ .main → current s' j = current s j)

variable {cfg answers} {s s' : Service} {p q : Poller}

/-! ### The turn of a poller -/

theorem over_ret {α : Type} (a : α) (o : Act) (next : o.Reply → Proc α) :
    (.ret a : Proc α) ≠ .act o next := fun h ↦ nomatch h

theorem over_raise {α : Type} (e : PyError) (o : Act) (next : o.Reply → Proc α) :
    (.raise e : Proc α) ≠ .act o next := fun h ↦ nomatch h

/-- A turn of a poller changes the task of no other thread. -/
theorem current_of_sameBut (h : SameBut p s s')
    (hpolls : ∀ q, q ≠ p → s'.polls q = s.polls q) {i : ThreadId} (hi : i ≠ .poller p) :
    current s' i = current s i := by
  cases i with
  | main => rw [current, current, h.main]
  | server => rw [current, current, h.server]
  | poller q =>
    have hq : q ≠ p := fun hq ↦ hi (hq ▸ rfl)
    rw [current, current, h.poller q hq, hpolls q hq]

/-- **A turn of a poller.** -/
theorem matches_advancePoller :
    Matches cfg answers (.poller p) s (advancePoller cfg answers p s) := by
  have hsame := sameBut_advancePoller cfg answers p s
  have hpolls : ∀ q, q ≠ p → (advancePoller cfg answers p s).polls q = s.polls q := fun q hq ↦
    (counts_of_ne cfg answers _ hq).1
  -- the other threads
  have hothers : ∀ x, current (advancePoller cfg answers p s) (.poller p) = x → ∀ j,
      current (advancePoller cfg answers p s) j = if j = .poller p then x else current s j := by
    intro x hx j
    split
    · rename_i hj
      rw [hj, hx]
    · rename_i hj
      exact current_of_sameBut hsame hpolls hj
  have hidle : ∀ x, current s (.poller p) = x → (advancePoller cfg answers p s).shared = s.shared →
      current (advancePoller cfg answers p s) (.poller p) = x →
      Matches cfg answers (.poller p) s (advancePoller cfg answers p s) := by
    intro x hx hshared hx'
    refine .rests hshared fun j ↦ ?_
    rw [hothers x hx' j]
    split
    · rename_i hj
      rw [hj, hx]
    · rfl
  cases hp : s.poller p with
  | notStarted =>
    have heq : advancePoller cfg answers p s = s := by rw [advancePoller, hp]
    exact hidle _ rfl (by rw [heq]) (by rw [heq])
  | ended r =>
    have heq : advancePoller cfg answers p s = s := by rw [advancePoller, hp]
    exact hidle _ rfl (by rw [heq]) (by rw [heq])
  | testing tics =>
    have hcurrent : current s (.poller p) = [] := by rw [current, hp]
    by_cases hquit : s.quit p = true
    · have heq : advancePoller cfg answers p s = s.setPoller p (.leaving (afterLoop p)) := by
        simp only [advancePoller, hp, hquit, if_true]
      refine .begins (.afterLoop p) (by rw [heq]; rfl) hcurrent (hothers _ ?_)
      rw [heq, current, setPoller_poller]
      rfl
    · by_cases htics : tics = 0
      · have heq : advancePoller cfg answers p s =
            { s.setPoller p (.polling (poll cfg answers p (s.polls p))) with
              polls := Function.update s.polls p (s.polls p + 1) } := by
          simp only [advancePoller, hp, hquit, Bool.false_eq_true, if_false, htics, if_true]
        refine .begins (.poll p (s.polls p)) (by rw [heq]; rfl) hcurrent (hothers _ ?_)
        rw [heq, current]
        simp only [setPoller_poller, Function.update_self, Nat.add_sub_cancel]
        rfl
      · have heq : advancePoller cfg answers p s = s.setPoller p (.sleeping tics) := by
          simp only [advancePoller, hp, hquit, Bool.false_eq_true, if_false, htics]
        exact hidle _ hcurrent (by rw [heq]; rfl) (by rw [heq, current, setPoller_poller])
  | sleeping tics =>
    have hcurrent : current s (.poller p) = [] := by rw [current, hp]
    refine hidle _ hcurrent ?_ ?_
    · rw [advancePoller, hp]
      rfl
    · simp only [advancePoller, hp, current, setPoller_poller]
  | polling left =>
    have hcurrent : current s (.poller p) = [(.poll p (s.polls p - 1), left)] := by
      rw [current, hp]
    cases left with
    | ret a =>
      have heq : advancePoller cfg answers p s = s.setPoller p (.sleeping 0) := by
        rw [advancePoller, hp]
      refine .leaves _ _ hcurrent (over_ret a) (by rw [heq]; rfl) (hothers _ ?_)
      rw [heq, current, setPoller_poller]
    | raise e =>
      have heq : advancePoller cfg answers p s = s.setPoller p (.ended (some e)) := by
        rw [advancePoller, hp]
      refine .leaves _ _ hcurrent (over_raise e) (by rw [heq]; rfl) (hothers _ ?_)
      rw [heq, current, setPoller_poller]
    | act o next =>
      refine .performs _ o next hcurrent ?_ (hothers _ ?_)
      · rw [advancePoller, hp]
        rfl
      · simp only [advancePoller, hp, current, setPoller_poller, setPoller_polls]
        rfl
  | leaving left =>
    have hcurrent : current s (.poller p) = [(.afterLoop p, left)] := by rw [current, hp]
    cases left with
    | ret a =>
      have heq : advancePoller cfg answers p s = s.setPoller p (.ended none) := by
        rw [advancePoller, hp]
      refine .leaves _ _ hcurrent (over_ret a) (by rw [heq]; rfl) (hothers _ ?_)
      rw [heq, current, setPoller_poller]
    | raise e =>
      have heq : advancePoller cfg answers p s = s.setPoller p (.ended (some e)) := by
        rw [advancePoller, hp]
      refine .leaves _ _ hcurrent (over_raise e) (by rw [heq]; rfl) (hothers _ ?_)
      rw [heq, current, setPoller_poller]
    | act o next =>
      refine .performs _ o next hcurrent ?_ (hothers _ ?_)
      · rw [advancePoller, hp]
        rfl
      · simp only [advancePoller, hp, current, setPoller_poller, setPoller_polls]
        rfl

/-! ### The turn of the InfoServer -/

/-- A turn of the InfoServer changes the task of no other thread. -/
theorem current_of_sameButServer (h : SameButServer s s') {i : ThreadId} (hi : i ≠ .server) :
    current s' i = current s i := by
  cases i with
  | main => rw [current, current, h.main]
  | poller q => rw [current, current, h.poller, h.polls]
  | server => exact absurd rfl hi

/-- A program that is over stays over when its result is discarded. -/
theorem over_of_discard {α : Type} {left : Proc α} (h : ∀ o next, left ≠ .act o next) (o : Act)
    (next : o.Reply → Proc Unit) : discard left ≠ .act o next := by
  cases left with
  | act o' next' => exact absurd rfl (h o' next')
  | ret a => nofun
  | raise e => nofun

/-- **A turn of the InfoServer.** -/
theorem matches_advanceServer (request : Option Request) :
    Matches cfg answers .server s (advanceServer cfg request s) := by
  have hsame := sameBut_advanceServer cfg request s
  have hothers : ∀ x, current (advanceServer cfg request s) .server = x → ∀ j,
      current (advanceServer cfg request s) j = if j = .server then x else current s j := by
    intro x hx j
    split
    · rename_i hj
      rw [hj, hx]
    · rename_i hj
      exact current_of_sameButServer hsame hj
  have hidle : ∀ x, current s .server = x → (advanceServer cfg request s).shared = s.shared →
      current (advanceServer cfg request s) .server = x →
      Matches cfg answers .server s (advanceServer cfg request s) := by
    intro x hx hshared hx'
    refine .rests hshared fun j ↦ ?_
    rw [hothers x hx' j]
    split
    · rename_i hj
      rw [hj, hx]
    · rfl
  have htest : ∀ s : Service, current s.testDone .server = [] := by
    intro s
    cases hdone : s.done <;>
      simp only [testDone, hdone, current, Bool.false_eq_true, if_false, if_true]
  cases hserver : s.server with
  | notStarted =>
    have heq : advanceServer cfg request s = s := by simp only [advanceServer, hserver]
    exact hidle _ rfl (by rw [heq]) (by rw [heq])
  | ended =>
    have heq : advanceServer cfg request s = s := by simp only [advanceServer, hserver]
    exact hidle _ rfl (by rw [heq]) (by rw [heq])
  | waiting =>
    have hcurrent : current s .server = [] := by rw [current, hserver]
    cases request with
    | none =>
      have heq : advanceServer cfg none s = s.testDone := by simp only [advanceServer, hserver]
      exact hidle _ hcurrent (by rw [heq]; rfl) (by rw [heq, htest])
    | some request =>
      have heq : advanceServer cfg (some request) s =
          { s with server := .handling request (request.program cfg.toConfig) } := by
        simp only [advanceServer, hserver]
      refine .begins (.request request) (by rw [heq]) hcurrent (hothers _ ?_)
      rw [heq]
      rfl
  | handling request' left =>
    have hcurrent : current s .server = [(.request request', discard left)] := by
      rw [current, hserver]
    cases left with
    | ret response =>
      have heq : advanceServer cfg request s = (s.reply response).testDone := by
        simp only [advanceServer, hserver]
      refine .leaves _ _ hcurrent (over_of_discard (over_ret response)) (by rw [heq]; rfl)
        (hothers _ ?_)
      rw [heq, htest]
    | raise e =>
      have heq : advanceServer cfg request s = (s.reply (request'.failed e)).testDone := by
        simp only [advanceServer, hserver]
      refine .leaves _ _ hcurrent (over_of_discard (over_raise e)) (by rw [heq]; rfl)
        (hothers _ ?_)
      rw [heq, htest]
    | act o next =>
      have heq : advanceServer cfg request s =
          { s with
            server := .handling request' (s.turn cfg (.act o next)).1
            shared := (s.turn cfg (.act o next)).2 } := by
        simp only [advanceServer, hserver]
      have hturn : (Program.act o fun r ↦ discard (next r)).turn (exec cfg.toConfig) s.shared =
          (discard (s.turn cfg (.act o next)).1, (s.turn cfg (.act o next)).2) := by
        simp only [turn, Program.turn]
        split <;> rfl
      refine .performs _ o (fun r ↦ discard (next r)) hcurrent ?_ (hothers _ ?_)
      · rw [heq, hturn]
      · rw [heq, hturn]
        rfl

/-! ### The turn of the main thread -/

/-- The main thread has no part in the tasks of the others. -/
theorem current_with_main (s : Service) (main : MainState) (shared : State) (j : ThreadId) :
    current { s with main := main, shared := shared } j = if j = .main then
      current { s with main := main, shared := shared } .main else current s j := by
  cases j <;> rfl

/-- A turn of the main thread that touches no task. -/
theorem matches_of_main (hshared : s'.shared = s.shared)
    (hpoller : ∀ p, current s' (.poller p) = current s (.poller p))
    (hserver : current s' .server = current s .server)
    (hmain : current s' .main = current s .main) : Matches cfg answers .main s s' := by
  refine .rests hshared fun j ↦ ?_
  cases j with
  | main => exact hmain
  | poller p => exact hpoller p
  | server => exact hserver

/-- The main thread begins `forceoff`. -/
theorem matches_force (hmain : ∀ left, s.main ≠ .forcing left) :
    Matches cfg answers .main s
      { s with main := .forcing (DynamicTorque.forceoff cfg.toConfig answers.forceoff) } := by
  refine .begins .forceoff rfl ?_ (current_with_main s (.forcing _) s.shared)
  rw [current]
  split
  · rename_i left h
    exact absurd h (hmain left)
  · rfl

/-- **A signal.** -/
theorem matches_signal : Matches cfg answers .main s (signal cfg answers s) := by
  rcases signal_cases cfg answers s with ⟨hsame, -⟩ | ⟨⟨threads, die, hmain⟩, hsignal⟩ |
    hsignal
  · rw [hsame]
    exact .rests rfl fun _ ↦ rfl
  · rw [hsignal]
    exact matches_force (by simp [hmain])
  · rw [hsignal]
    refine .interrupted rfl rfl rfl fun j hj ↦ ?_
    cases j with
    | main => exact absurd rfl hj
    | poller p => rfl
    | server => rfl

/-- **A turn of the main thread.** -/
theorem matches_advanceMain (h : s.InOrder) :
    Matches cfg answers .main s (advanceMain cfg answers s) := by
  rw [InOrder] at h
  have hrests : ∀ main, s.main = main → (∀ left, main ≠ .forcing left) → ∀ main',
      (∀ left, main' ≠ .forcing left) → Matches cfg answers .main s { s with main := main' } := by
    intro main hmain hnot main' hnot'
    refine matches_of_main rfl (fun _ ↦ rfl) rfl ?_
    rw [current, current, hmain]
    cases main' <;> cases main <;>
      first | rfl | exact absurd rfl (hnot _) | exact absurd rfl (hnot' _)
  unfold advanceMain
  cases hmain : s.main with
  | startingServer =>
    rw [hmain] at h
    refine matches_of_main rfl (fun _ ↦ rfl) ?_ ?_
    · show [] = _
      rw [current, h.1]
    · show [] = _
      rw [current, hmain]
  | starting threads =>
    cases threads with
    | nil => exact hrests _ hmain (by simp) _ (by simp)
    | cons p threads =>
      rw [hmain] at h
      refine matches_of_main rfl (fun q ↦ ?_) rfl ?_
      · by_cases hqp : q = p
        · subst hqp
          rw [current, current, h.2 q List.mem_cons_self]
          show (match (s.setPoller q (.testing 0)).poller q with
            | .polling left => _ | .leaving left => _ | _ => []) = []
          rw [setPoller_poller]
        · rw [current, current]
          show (match (s.setPoller p (.testing 0)).poller q with
            | .polling left => _ | .leaving left => _ | _ => []) = _
          rw [setPoller_poller_of_ne _ hqp]
          rfl
      · show [] = _
        rw [current, hmain]
  | watching threads die =>
    cases threads with
    | cons p threads => exact hrests _ hmain (by simp) _ (by simp)
    | nil =>
      cases die with
      | false => exact hrests _ hmain (by simp) _ (by simp)
      | true => exact matches_force (by simp [hmain])
  | forcing left =>
    have hcurrent : current s .main = [(.forceoff, left)] := by rw [current, hmain]
    cases left with
    | ret a =>
      exact .leaves _ _ hcurrent (over_ret a) rfl (current_with_main s (.stopping _) s.shared)
    | raise e =>
      exact .leaves _ _ hcurrent (over_raise e) rfl (current_with_main s (.failed e) s.shared)
    | act o next =>
      exact .performs _ o next hcurrent rfl (current_with_main s (.forcing _) _)
  | stopping threads =>
    cases threads with
    | cons p threads =>
      refine matches_of_main rfl (fun _ ↦ rfl) rfl ?_
      show [] = _
      rw [current, hmain]
    | nil => exact hrests _ hmain (by simp) _ (by simp)
  | joining threads =>
    cases threads with
    | cons p threads =>
      show Matches cfg answers .main s
        (if (s.poller p).isEnded then { s with main := .joining threads } else s)
      split
      · exact hrests _ hmain (by simp) _ (by simp)
      · exact .rests rfl fun _ ↦ rfl
    | nil => exact hrests _ hmain (by simp) _ (by simp)
  | stoppingServer =>
    refine matches_of_main rfl (fun _ ↦ rfl) rfl ?_
    show [] = _
    rw [current, hmain]
  | joiningServer =>
    by_cases hserver : s.server = .ended
    · have hstopped := hrests _ hmain (by simp) .stopped (by simp)
      simpa only [hserver] using hstopped
    · simpa only [hserver] using .rests rfl fun _ ↦ rfl
  | stopped => exact .rests rfl fun _ ↦ rfl
  | failed e => exact .rests rfl fun _ ↦ rfl
  | interrupted => exact .rests rfl fun _ ↦ rfl

/-! ### Any turn -/

/-- A turn of the service is one of these on the thread whose turn it is. -/
theorem matches_advance (horder : s.InOrder) (t : Turn) :
    Matches cfg answers t.thread s (advance cfg answers t s) := by
  cases t with
  | main => exact matches_advanceMain horder
  | signal => exact matches_signal
  | poller p => exact matches_advancePoller
  | server request => exact matches_advanceServer request

end Service

end DynamicTorque
