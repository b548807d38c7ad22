import DynamicTorque.Service.Identity
import DynamicTorque.Service.Watch

/-!
# The service stops at last

What happens in a schedule without end in which every thread gets turns again and again (`Fair`). A
main thread that has left its watch is never held up for ever: what it does by itself is
finite, the pollers that it joins have been told to stop and end (`eventually_ended`), and so does
the InfoServer (`eventually_server_ended`). Only an exception out of `forceoff` keeps it from
stopping the process.
-/

open Python Atomic Program

namespace DynamicTorque.Service

/-- Every thread gets turns again and again: no command and no call of the cloud keeps it for ever,
and it is connected to the cloud at last. -/
structure Fair (schedule : ℕ → Turn) : Prop where
  main : Recurs schedule (· = .main)
  poller : ∀ p, Recurs schedule (· = .poller p)
  server : Recurs schedule fun t ↦ ∃ request, t = .server request

/-- The process after `n` turns of a schedule without end. -/
def after (cfg : ServiceConfig) (answers : ServiceAnswers) (schedule : ℕ → Turn) (st : State)
    (n : ℕ) : Service :=
  stateAt (advance cfg answers) schedule (initial st) n

variable {cfg : ServiceConfig} {answers : ServiceAnswers} {s : Service} {p : Poller} {t : Turn}
  {schedule : ℕ → Turn} {st : State} {n : ℕ}

/-- The state after some turns, as a run. -/
theorem after_eq_run (n : ℕ) : after cfg answers schedule st n =
    run cfg answers ((List.range n).map schedule) (initial st) :=
  stateAt_eq_runTurns schedule (initial st) n

/-- Every state of a run is orderly, ... -/
theorem orderly_after (n : ℕ) : (after cfg answers schedule st n).Orderly := by
  rw [after_eq_run]
  exact (orderly_initial st).run _

/-- ... and in order. -/
theorem inOrder_after (n : ℕ) : (after cfg answers schedule st n).InOrder := by
  rw [after_eq_run]
  exact inOrder_of_run _ st

/-- What every turn keeps, from a time on. -/
theorem after_induction {I : Service → Prop} (hn : I (after cfg answers schedule st n))
    (step : ∀ s t, s.Orderly → s.InOrder → I s → I (advance cfg answers t s)) {m : ℕ}
    (hm : n ≤ m) : I (after cfg answers schedule st m) :=
  stateAt_induction (fun k _ h ↦ step _ _ (orderly_after k) (inOrder_after k) h) hn m hm

/-! ### What stays -/

/-- A poller that is told to stop is not told otherwise. -/
theorem quit_kept (h : s.quit p = true) (t : Turn) : (advance cfg answers t s).quit p = true := by
  cases t with
  | poller q =>
    show (advancePoller cfg answers q s).quit p = true
    rwa [(sameBut_advancePoller cfg answers q s).quit]
  | server request =>
    show (advanceServer cfg request s).quit p = true
    rwa [(sameBut_advanceServer cfg request s).quit]
  | signal =>
    obtain ⟨x, hx⟩ := signal_eq cfg answers s
    show (signal cfg answers s).quit p = true
    rwa [hx]
  | main =>
    show (advanceMain cfg answers s).quit p = true
    rcases (mainEffect_advanceMain cfg answers s).quit with hsame | ⟨q, threads, -, hnew⟩
    · rwa [hsame]
    · rw [hnew]
      by_cases hpq : p = q
      · rw [hpq, Function.update_self]
      · rwa [Function.update_of_ne hpq]

/-- Nor is the InfoServer. -/
theorem done_kept (h : s.done = true) (t : Turn) : (advance cfg answers t s).done = true := by
  cases t with
  | poller q =>
    show (advancePoller cfg answers q s).done = true
    rwa [(sameBut_advancePoller cfg answers q s).done]
  | server request =>
    show (advanceServer cfg request s).done = true
    rwa [(sameBut_advanceServer cfg request s).done]
  | signal =>
    obtain ⟨x, hx⟩ := signal_eq cfg answers s
    show (signal cfg answers s).done = true
    rwa [hx]
  | main =>
    show (advanceMain cfg answers s).done = true
    rcases (mainEffect_advanceMain cfg answers s).done with hsame | ⟨-, hnew⟩
    · rwa [hsame]
    · exact hnew

/-! ### The main thread -/

/-- The main thread has left its watch and was not interrupted. -/
def MainLeaves (x : MainState) : Prop :=
  x.pastWatch = true ∧ x ≠ .interrupted

/-- The main thread takes a step when it is its turn and it does not wait, and not otherwise. -/
theorem main_advance (ht : t ≠ .signal) :
    (advance cfg answers t s).main = s.main ∧ (t = .main → (advance cfg answers t s).MainWaits) ∨
      MainStep cfg answers s s.main (advance cfg answers t s).main := by
  cases t with
  | signal => exact absurd rfl ht
  | poller q => exact .inl ⟨(sameBut_advancePoller cfg answers q s).main, nofun⟩
  | server request => exact .inl ⟨(sameBut_advanceServer cfg request s).main, nofun⟩
  | main =>
    rcases advanceMain_cases cfg answers s with ⟨hsame, hwaits⟩ | hstep
    · refine .inl ⟨congrArg Service.main hsame, fun _ ↦ ?_⟩
      show (advanceMain cfg answers s).MainWaits
      rwa [hsame]
    · exact .inr hstep

/-- A main thread that has left its watch does not go back to it. -/
theorem MainStep.leaves {x y : MainState} (h : MainStep cfg answers s x y) (hx : MainLeaves x) :
    MainLeaves y := by
  obtain ⟨hpast, -⟩ := hx
  cases h <;> first | exact ⟨rfl, by simp⟩ | cases hpast

/-- What the main thread does by itself after its watch is finite. -/
theorem acc_mainStep (cfg : ServiceConfig) (answers : ServiceAnswers) {x : MainState}
    (hx : MainLeaves x) : Acc (fun y x ↦ ∃ s, MainStep cfg answers s x y) x := by
  have hstopped : Acc (fun y x ↦ ∃ s, MainStep cfg answers s x y) .stopped :=
    ⟨_, fun y ⟨s, h⟩ ↦ by cases h⟩
  have hfailed : ∀ e, Acc (fun y x ↦ ∃ s, MainStep cfg answers s x y) (.failed e) :=
    fun e ↦ ⟨_, fun y ⟨s, h⟩ ↦ by cases h⟩
  have hjoiningServer : Acc (fun y x ↦ ∃ s, MainStep cfg answers s x y) .joiningServer := by
    refine ⟨_, fun y ⟨s, h⟩ ↦ ?_⟩
    cases h
    exact hstopped
  have hstoppingServer : Acc (fun y x ↦ ∃ s, MainStep cfg answers s x y) .stoppingServer := by
    refine ⟨_, fun y ⟨s, h⟩ ↦ ?_⟩
    cases h
    exact hjoiningServer
  have hjoining : ∀ threads,
      Acc (fun y x ↦ ∃ s, MainStep cfg answers s x y) (.joining threads) := by
    intro threads
    induction threads with
    | nil =>
      refine ⟨_, fun y ⟨s, h⟩ ↦ ?_⟩
      cases h
      exact hstoppingServer
    | cons p threads ih =>
      refine ⟨_, fun y ⟨s, h⟩ ↦ ?_⟩
      cases h
      exact ih
  have hstopping : ∀ threads,
      Acc (fun y x ↦ ∃ s, MainStep cfg answers s x y) (.stopping threads) := by
    intro threads
    induction threads with
    | nil =>
      refine ⟨_, fun y ⟨s, h⟩ ↦ ?_⟩
      cases h
      exact hjoining _
    | cons p threads ih =>
      refine ⟨_, fun y ⟨s, h⟩ ↦ ?_⟩
      cases h
      exact ih
  cases x with
  | forcing left =>
    induction acc_follows left with
    | intro left _ ih =>
      refine ⟨_, fun y ⟨s, h⟩ ↦ ?_⟩
      cases h with
      | work hfollows => exact ih _ hfollows ⟨rfl, by simp⟩
      | forced => exact hstopping _
      | forceRaised e => exact hfailed e
  | stopping threads => exact hstopping threads
  | joining threads => exact hjoining threads
  | stoppingServer => exact hstoppingServer
  | joiningServer => exact hjoiningServer
  | stopped => exact hstopped
  | failed e => exact hfailed e
  | interrupted => exact absurd rfl hx.2
  | _ => cases hx.1

/-- Without a signal it stays like that. -/
theorem leaves_of_le (hsignal : ∀ m, n ≤ m → schedule m ≠ .signal)
    (h : MainLeaves (after cfg answers schedule st n).main) {m : ℕ} (hm : n ≤ m) :
    MainLeaves (after cfg answers schedule st m).main := by
  refine stateAt_induction (P := fun s : Service ↦ MainLeaves s.main) (fun k hk hP ↦ ?_) h m hm
  rcases main_advance (hsignal k hk) with ⟨hsame, -⟩ | hstep
  · rw [stateAt, hsame]
    exact hP
  · exact hstep.leaves hP

/-- A main thread that has left its watch comes to wait for a thread, or has nothing to do. -/
theorem eventually_waits (hfair : Fair schedule) (hsignal : ∀ m, n ≤ m → schedule m ≠ .signal)
    (h : MainLeaves (after cfg answers schedule st n).main) :
    ∃ m, n ≤ m ∧ (after cfg answers schedule st m).MainWaits ∧
      MainLeaves (after cfg answers schedule st m).main := by
  have hleaves : ∀ m, n ≤ m → MainLeaves (after cfg answers schedule st m).main :=
    fun m hm ↦ leaves_of_le hsignal h hm
  have hwaits : ∃ m, n ≤ m ∧ (after cfg answers schedule st m).MainWaits := by
    refine eventually_of_acc (P := fun s : Service ↦ MainLeaves s.main) (f := Service.main)
      hfair.main (fun m hm hP ↦ ?_) (fun m hm ht hP ↦ ?_) (acc_mainStep cfg answers h) h
    · rcases main_advance (hsignal m hm) with ⟨hsame, -⟩ | hstep
      · exact .inr ⟨hleaves (m + 1) (by omega), .inl hsame⟩
      · exact .inr ⟨hleaves (m + 1) (by omega), .inr ⟨_, hstep⟩⟩
    · rcases main_advance (hsignal m hm) with ⟨-, hwaits⟩ | hstep
      · exact .inl (hwaits ht)
      · exact .inr ⟨hleaves (m + 1) (by omega), _, hstep⟩
  obtain ⟨m, hm, hw⟩ := hwaits
  exact ⟨m, hm, hw, hleaves m hm⟩

/-! ### The pollers -/

/-- A poller that was started takes a step when it is its turn and it has not ended, and not
otherwise. -/
theorem poller_advance (horder : s.InOrder) (hstarted : s.poller p ≠ .notStarted) :
    (advance cfg answers t s).poller p = s.poller p ∧
        (t = .poller p → (s.poller p).isEnded = true) ∨
      PollerStep cfg answers p (s.quit p) (s.poller p) ((advance cfg answers t s).poller p) := by
  cases t with
  | poller q =>
    by_cases hpq : p = q
    · subst hpq
      rcases advancePoller_cases cfg answers s p with ⟨hsame, hnot | ⟨r, hended⟩⟩ | hstep
      · exact absurd hnot hstarted
      · exact .inl ⟨hsame, fun _ ↦ hended ▸ rfl⟩
      · exact .inr hstep
    · refine .inl ⟨(sameBut_advancePoller cfg answers q s).poller p hpq, fun ht ↦ ?_⟩
      cases ht
      exact absurd rfl hpq
  | server request =>
    exact .inl ⟨congrFun (sameBut_advanceServer cfg request s).poller p, nofun⟩
  | signal =>
    obtain ⟨x, hx⟩ := signal_eq cfg answers s
    refine .inl ⟨?_, nofun⟩
    show (signal cfg answers s).poller p = s.poller p
    rw [hx]
  | main =>
    refine .inl ⟨?_, nofun⟩
    show (advanceMain cfg answers s).poller p = s.poller p
    rcases (mainEffect_advanceMain cfg answers s).poller with hsame | ⟨q, threads, hmain, hnew⟩
    · rw [hsame]
    · rw [InOrder, hmain] at horder
      have hpq : p ≠ q := fun hpq ↦ hstarted (horder.2 p (hpq ▸ List.mem_cons_self))
      rw [hnew, Function.update_of_ne hpq]

/-- What a poller does once it is told to stop is finite. -/
theorem acc_pollerStep (cfg : ServiceConfig) (answers : ServiceAnswers) (p : Poller)
    (x : PollerState) : Acc (fun y x ↦ PollerStep cfg answers p true x y) x := by
  have hended : ∀ r, Acc (fun y x ↦ PollerStep cfg answers p true x y) (.ended r) :=
    fun r ↦ ⟨_, fun y h ↦ by cases h⟩
  have hleaving : ∀ left, Acc (fun y x ↦ PollerStep cfg answers p true x y) (.leaving left) := by
    intro left
    induction acc_follows left with
    | intro left _ ih =>
      refine ⟨_, fun y h ↦ ?_⟩
      cases h with
      | dump hfollows => exact ih _ hfollows
      | left => exact hended none
      | leaveRaised e => exact hended (some e)
  have htesting : ∀ tics, Acc (fun y x ↦ PollerStep cfg answers p true x y) (.testing tics) := by
    refine fun tics ↦ ⟨_, fun y h ↦ ?_⟩
    cases h with
    | leave _ _ => exact hleaving _
    | poll n hquit => cases hquit
    | rest _ hquit _ => cases hquit
  have hsleeping : ∀ tics, Acc (fun y x ↦ PollerStep cfg answers p true x y) (.sleeping tics) := by
    refine fun tics ↦ ⟨_, fun y h ↦ ?_⟩
    cases h
    exact htesting _
  cases x with
  | notStarted => exact ⟨_, fun y h ↦ by cases h⟩
  | testing tics => exact htesting tics
  | polling left =>
    induction acc_follows left with
    | intro left _ ih =>
      refine ⟨_, fun y h ↦ ?_⟩
      cases h with
      | work hfollows => exact ih _ hfollows
      | polled => exact hsleeping 0
      | pollRaised e => exact hended (some e)
  | sleeping tics => exact hsleeping tics
  | leaving left => exact hleaving left
  | ended r => exact hended r

/-- A poller that is told to stop ends. -/
theorem eventually_poller_ended (hfair : Fair schedule)
    (hquit : (after cfg answers schedule st n).quit p = true)
    (hstarted : (after cfg answers schedule st n).poller p ≠ .notStarted) :
    ∃ m, n ≤ m ∧ ((after cfg answers schedule st m).poller p).isEnded = true := by
  have hquits : ∀ m, n ≤ m → (after cfg answers schedule st m).quit p = true := fun m hm ↦
    after_induction (I := fun s ↦ s.quit p = true) hquit (fun _ t _ _ h ↦ quit_kept h t) hm
  have hkeeps : ∀ m, (after cfg answers schedule st m).poller p ≠ .notStarted →
      (after cfg answers schedule st (m + 1)).poller p ≠ .notStarted := by
    intro m h
    show (advance cfg answers (schedule m) (after cfg answers schedule st m)).poller p ≠ _
    rcases poller_advance (inOrder_after m) h with ⟨hsame, -⟩ | hstep
    · rwa [hsame]
    · exact hstep.started.1
  refine eventually_of_acc (P := fun s : Service ↦ s.poller p ≠ .notStarted)
    (Q := fun s : Service ↦ (s.poller p).isEnded = true) (f := fun s : Service ↦ s.poller p)
    (hfair.poller p) (fun m hm hP ↦ ?_) (fun m hm ht hP ↦ ?_)
    (acc_pollerStep cfg answers p ((after cfg answers schedule st n).poller p)) hstarted
  · rcases poller_advance (inOrder_after m) hP with ⟨hsame, -⟩ | hstep
    · exact .inr ⟨hkeeps m hP, .inl hsame⟩
    · exact .inr ⟨hkeeps m hP, .inr (hquits m hm ▸ hstep)⟩
  · rcases poller_advance (inOrder_after m) hP with ⟨hsame, hended⟩ | hstep
    · exact .inl ((congrArg PollerState.isEnded hsame).trans (hended ht))
    · exact .inr ⟨hkeeps m hP, hquits m hm ▸ hstep⟩

/-- A poller that has ended has ended for good. -/
theorem ended_of_le {m : ℕ} (hm : n ≤ m)
    (h : ((after cfg answers schedule st n).poller p).isEnded = true) :
    ((after cfg answers schedule st m).poller p).isEnded = true :=
  after_induction (I := fun s ↦ (s.poller p).isEnded = true) h
    (fun _ t _ horder h ↦ ended_advance horder h t) hm

/-- Pollers that are told to stop have all ended at some time. -/
theorem eventually_ended (hfair : Fair schedule)
    (hquit : ∀ p, (after cfg answers schedule st n).quit p = true)
    (hstarted : (after cfg answers schedule st n).Started) :
    ∃ m, n ≤ m ∧ (after cfg answers schedule st m).Ended := by
  have hends : ∀ p, ∃ m, n ≤ m ∧ ((after cfg answers schedule st m).poller p).isEnded = true :=
    fun p ↦ eventually_poller_ended hfair (hquit p) (hstarted.2 p)
  choose time htime hended using hends
  refine ⟨time .job + time .cloud, Nat.le_trans (htime .job) (Nat.le_add_right ..), fun p ↦ ?_⟩
  cases p with
  | job => exact ended_of_le (Nat.le_add_right ..) (hended .job)
  | cloud => exact ended_of_le (Nat.le_add_left ..) (hended .cloud)

/-! ### The InfoServer -/

/-- What a turn can do to the InfoServer. -/
theorem server_advance (horder : s.InOrder) (hstarted : s.server ≠ .notStarted) :
    (advance cfg answers t s).server = s.server ∧
        ((∃ request, t = .server request) → s.server = .ended) ∨
      ServerStep cfg s.done s.server (advance cfg answers t s).server := by
  cases t with
  | server request =>
    rcases serverStep_advanceServer cfg request s with ⟨hsame, hnot | hended⟩ | hstep
    · exact absurd hnot hstarted
    · exact .inl ⟨congrArg Service.server hsame, fun _ ↦ hended⟩
    · exact .inr hstep
  | poller q => exact .inl ⟨(sameBut_advancePoller cfg answers q s).server, nofun⟩
  | signal =>
    obtain ⟨x, hx⟩ := signal_eq cfg answers s
    refine .inl ⟨?_, nofun⟩
    show (signal cfg answers s).server = s.server
    rw [hx]
  | main =>
    refine .inl ⟨?_, nofun⟩
    rcases (mainEffect_advanceMain cfg answers s).server with hsame | hmain
    · exact hsame
    · rw [InOrder, hmain] at horder
      exact absurd horder.1 hstarted

/-- What the InfoServer does once it is told to stop is finite: one more request at most. -/
theorem acc_serverStep (cfg : ServiceConfig) (x : ServerState) :
    Acc (fun y x ↦ ServerStep cfg true x y) x := by
  have hended : Acc (fun y x ↦ ServerStep cfg true x y) .ended := ⟨_, fun y h ↦ by cases h⟩
  have htested : ∀ y, ServerTested true y → Acc (fun y x ↦ ServerStep cfg true x y) y := by
    intro y h
    cases h with
    | ended _ => exact hended
    | waiting hdone => cases hdone
  have hhandling : ∀ request left,
      Acc (fun y x ↦ ServerStep cfg true x y) (.handling request left) := by
    intro request left
    induction acc_follows left with
    | intro left _ ih =>
      refine ⟨_, fun y h ↦ ?_⟩
      cases h with
      | work hfollows => exact ih _ hfollows
      | reply h => exact htested y h
  cases x with
  | notStarted => exact ⟨_, fun y h ↦ by cases h⟩
  | waiting =>
    refine ⟨_, fun y h ↦ ?_⟩
    cases h with
    | timeout h => exact htested y h
    | accept request => exact hhandling request _
  | handling request left => exact hhandling request left
  | ended => exact hended

/-- An InfoServer that is told to stop ends. -/
theorem eventually_server_ended (hfair : Fair schedule)
    (hdone : (after cfg answers schedule st n).done = true)
    (hstarted : (after cfg answers schedule st n).server ≠ .notStarted) :
    ∃ m, n ≤ m ∧ (after cfg answers schedule st m).server = .ended := by
  have hdones : ∀ m, n ≤ m → (after cfg answers schedule st m).done = true := fun m hm ↦
    after_induction (I := fun s ↦ s.done = true) hdone (fun _ t _ _ h ↦ done_kept h t) hm
  have hkeeps : ∀ m, (after cfg answers schedule st m).server ≠ .notStarted →
      (after cfg answers schedule st (m + 1)).server ≠ .notStarted := by
    intro m h
    show (advance cfg answers (schedule m) (after cfg answers schedule st m)).server ≠ _
    rcases server_advance (inOrder_after m) h with ⟨hsame, -⟩ | hstep
    · rwa [hsame]
    · exact hstep.started.1
  refine eventually_of_acc (P := fun s : Service ↦ s.server ≠ .notStarted)
    (Q := fun s : Service ↦ s.server = .ended) (f := Service.server) hfair.server
    (fun m hm hP ↦ ?_) (fun m hm ht hP ↦ ?_)
    (acc_serverStep cfg (after cfg answers schedule st n).server) hstarted
  · rcases server_advance (inOrder_after m) hP with ⟨hsame, -⟩ | hstep
    · exact .inr ⟨hkeeps m hP, .inl hsame⟩
    · exact .inr ⟨hkeeps m hP, .inr (hdones m hm ▸ hstep)⟩
  · rcases server_advance (inOrder_after m) hP with ⟨hsame, hended⟩ | hstep
    · exact .inl (hsame.trans (hended ht))
    · exact .inr ⟨hkeeps m hP, hdones m hm ▸ hstep⟩

/-! ### The stages of a stop -/

/-- The process has stopped, or `forceoff` has raised in the main thread. -/
def Over (s : Service) : Prop :=
  s.main = .stopped ∨ ∃ e, s.main = .failed e

/-- Both pollers have ended for good. -/
theorem ended_after {m : ℕ} (hm : n ≤ m) (h : (after cfg answers schedule st n).Ended) :
    (after cfg answers schedule st m).Ended :=
  fun p ↦ ended_of_le hm (h p)

/-- Where the main thread waits. -/
theorem waits_cases (h : s.Orderly) (hwaits : s.MainWaits) (hleaves : MainLeaves s.main) :
    s.Over ∨ s.Started ∧ ((∀ p, s.quit p = true) ∧ ¬ s.Ended ∨
      s.Ended ∧ s.done = true ∧ s.server ≠ .ended) := by
  have hprepared := h.prepared
  rw [Prepared] at hprepared
  rw [MainWaits] at hwaits
  cases hmain : s.main <;> simp only [hmain] at hprepared hwaits hleaves
  case stopped => exact .inl (.inl hmain)
  case failed e => exact .inl (.inr ⟨e, hmain⟩)
  case interrupted => exact absurd rfl hleaves.2
  case joining threads =>
    obtain ⟨hstarted, hquit, -⟩ := hprepared
    cases threads with
    | nil => cases hwaits
    | cons p threads =>
      refine .inr ⟨hstarted, .inl ⟨hquit, fun hended ↦ ?_⟩⟩
      have hnot := hended p
      rw [hwaits] at hnot
      cases hnot
  case joiningServer =>
    obtain ⟨hstarted, hended, hdone⟩ := hprepared
    exact .inr ⟨hstarted, .inr ⟨hended, hdone, hwaits⟩⟩

/-- The last stage: everything but the main thread has ended. -/
theorem eventually_over_of_server_ended (hfair : Fair schedule)
    (hsignal : ∀ m, n ≤ m → schedule m ≠ .signal)
    (hended : (after cfg answers schedule st n).Ended)
    (hserver : (after cfg answers schedule st n).server = .ended)
    (h : MainLeaves (after cfg answers schedule st n).main) :
    ∃ m, n ≤ m ∧ (after cfg answers schedule st m).Over := by
  obtain ⟨m, hm, hwaits, hleaves⟩ := eventually_waits hfair hsignal h
  have hserver' : (after cfg answers schedule st m).server = .ended := by
    refine after_induction (I := fun s ↦ s.server = .ended) hserver (fun s t _ horder h ↦ ?_) hm
    rcases server_advance horder (t := t) (by rw [h]; nofun) with ⟨hsame, -⟩ | hstep
    · exact hsame.trans h
    · rw [h] at hstep
      cases hstep
  rcases waits_cases (orderly_after m) hwaits hleaves with hover | ⟨-, ⟨-, hnot⟩ | ⟨-, -, hnot⟩⟩
  · exact ⟨m, hm, hover⟩
  · exact absurd (ended_after hm hended) hnot
  · exact absurd hserver' hnot

/-- The stage before: the pollers have ended, and the InfoServer is told to. -/
theorem eventually_over_of_ended (hfair : Fair schedule)
    (hsignal : ∀ m, n ≤ m → schedule m ≠ .signal)
    (hended : (after cfg answers schedule st n).Ended)
    (h : MainLeaves (after cfg answers schedule st n).main) :
    ∃ m, n ≤ m ∧ (after cfg answers schedule st m).Over := by
  obtain ⟨m, hm, hwaits, hleaves⟩ := eventually_waits hfair hsignal h
  rcases waits_cases (orderly_after m) hwaits hleaves with
    hover | ⟨hstarted, ⟨-, hnot⟩ | ⟨hended', hdone, -⟩⟩
  · exact ⟨m, hm, hover⟩
  · exact absurd (ended_after hm hended) hnot
  · obtain ⟨k, hk, hserver⟩ := eventually_server_ended hfair hdone hstarted.1
    obtain ⟨l, hl, hover⟩ := eventually_over_of_server_ended hfair
      (fun i hi ↦ hsignal i (by omega)) (ended_after hk hended') hserver
      (leaves_of_le (fun i hi ↦ hsignal i (by omega)) hleaves hk)
    exact ⟨l, by omega, hover⟩

/-- The first stage: the main thread has left its watch. -/
theorem eventually_over (hfair : Fair schedule) (hsignal : ∀ m, n ≤ m → schedule m ≠ .signal)
    (h : MainLeaves (after cfg answers schedule st n).main) :
    ∃ m, n ≤ m ∧ (after cfg answers schedule st m).Over := by
  obtain ⟨m, hm, hwaits, hleaves⟩ := eventually_waits hfair hsignal h
  have hover_of_ended : ∀ k, m ≤ k → (after cfg answers schedule st k).Ended →
      ∃ l, n ≤ l ∧ (after cfg answers schedule st l).Over := by
    intro k hk hended
    obtain ⟨l, hl, hover⟩ := eventually_over_of_ended hfair (fun i hi ↦ hsignal i (by omega))
      hended (leaves_of_le (fun i hi ↦ hsignal i (by omega)) hleaves hk)
    exact ⟨l, by omega, hover⟩
  rcases waits_cases (orderly_after m) hwaits hleaves with
    hover | ⟨hstarted, ⟨hquit, -⟩ | ⟨hended, -, -⟩⟩
  · exact ⟨m, hm, hover⟩
  · obtain ⟨k, hk, hended⟩ := eventually_ended hfair hquit hstarted
    exact hover_of_ended k hk hended
  · exact hover_of_ended m (Nat.le_refl m) hended

/-! ### From the watch -/

/-- Once a poller has ended, the main thread leaves its watch. -/
theorem eventually_pastWatch (hfair : Fair schedule) (hsignal : ∀ m, n ≤ m → schedule m ≠ .signal)
    (hp : ((after cfg answers schedule st n).poller p).isEnded = true)
    (hmain : (after cfg answers schedule st n).main ≠ .interrupted) :
    ∃ m, n ≤ m ∧ MainLeaves (after cfg answers schedule st m).main := by
  have hkeeps : ∀ m, n ≤ m → (after cfg answers schedule st m).main ≠ .interrupted ∧
      ((after cfg answers schedule st m).poller p).isEnded = true := by
    intro m hm
    refine ⟨?_, ended_of_le hm hp⟩
    refine stateAt_induction (P := fun s : Service ↦ s.main ≠ .interrupted)
      (fun k hk hP ↦ ?_) hmain m hm
    rcases main_advance (hsignal k hk) with ⟨hsame, -⟩ | hstep
    · rw [stateAt, hsame]
      exact hP
    · intro hinterrupted
      rw [stateAt] at hinterrupted
      rw [hinterrupted] at hstep
      generalize (stateAt (advance cfg answers) schedule (initial st) k).main = x at hstep
      cases hstep
  -- the looks that are left become fewer at every turn of the main thread
  have hlooks : ∀ m, n ≤ m → lookouts p (after cfg answers schedule st (m + 1)).main ≤
      lookouts p (after cfg answers schedule st m).main - (if (schedule m).isMain then 1 else 0) :=
    fun m hm ↦ lookouts_advance cfg answers (hkeeps m hm).2 (schedule m)
  have hpast : ∃ m, n ≤ m ∧ (after cfg answers schedule st m).main.pastWatch = true := by
    refine eventually_of_acc (P := fun _ ↦ True) (Q := fun s : Service ↦ s.main.pastWatch = true)
      (f := fun s : Service ↦ lookouts p s.main) (r := (· < ·)) hfair.main (fun m hm _ ↦ ?_)
      (fun m hm ht _ ↦ ?_) (Nat.lt_wfRel.wf.apply _) trivial
    · have hle : lookouts p (after cfg answers schedule st (m + 1)).main ≤
          lookouts p (after cfg answers schedule st m).main :=
        (hlooks m hm).trans (Nat.sub_le ..)
      exact .inr ⟨trivial, (Nat.lt_or_eq_of_le hle).symm⟩
    · have hle := hlooks m hm
      rw [ht, Turn.isMain, if_pos rfl] at hle
      by_cases hzero : lookouts p (after cfg answers schedule st (m + 1)).main = 0
      · exact .inl (pastWatch_of_lookouts hzero)
      · refine .inr ⟨trivial, ?_⟩
        show lookouts p (after cfg answers schedule st (m + 1)).main <
          lookouts p (after cfg answers schedule st m).main
        omega
  obtain ⟨m, hm, hpast⟩ := hpast
  exact ⟨m, hm, hpast, (hkeeps m hm).1⟩

/-- **The service stops at last.** If every thread gets turns again and again and from some time on
no signal comes, and at that time the main thread has left its watch or a poller has ended, then
either the process stops, with every thread ended, and nothing changes any more; or the main thread
fails in `forceoff`. -/
theorem stops_at_last (cfg : ServiceConfig) (answers : ServiceAnswers) (st : State)
    (schedule : ℕ → Turn) (n : ℕ) (hfair : Fair schedule)
    (hsignal : ∀ m, n ≤ m → schedule m ≠ .signal)
    (hmain : (after cfg answers schedule st n).main ≠ .interrupted)
    (hleaves : (after cfg answers schedule st n).main.pastWatch = true ∨
      ∃ p, ((after cfg answers schedule st n).poller p).isEnded = true) :
    ∃ m, n ≤ m ∧ (((after cfg answers schedule st m).main = .stopped ∧
      (after cfg answers schedule st m).Ended ∧
      (after cfg answers schedule st m).server = .ended ∧
      ∀ k, m ≤ k → after cfg answers schedule st k = after cfg answers schedule st m) ∨
        ∃ e, (after cfg answers schedule st m).main = .failed e) := by
  have hpast : ∃ m, n ≤ m ∧ MainLeaves (after cfg answers schedule st m).main := by
    rcases hleaves with hpast | ⟨p, hp⟩
    · exact ⟨n, Nat.le_refl n, hpast, hmain⟩
    · exact eventually_pastWatch hfair hsignal hp hmain
  obtain ⟨k, hk, hleaves⟩ := hpast
  obtain ⟨m, hm, hover⟩ := eventually_over hfair (fun i hi ↦ hsignal i (by omega)) hleaves
  refine ⟨m, by omega, hover.imp_left fun hstopped ↦ ?_⟩
  have horderly : (after cfg answers schedule st m).Orderly := orderly_after m
  have hprepared := horderly.prepared
  rw [Prepared, hstopped] at hprepared
  obtain ⟨hended, hserver⟩ := hprepared
  refine ⟨hstopped, hended, hserver, fun i hi ↦ ?_⟩
  refine stateAt_induction (P := fun s ↦ s = after cfg answers schedule st m)
    (fun j _ hj ↦ ?_) rfl i hi
  rw [stateAt, hj]
  exact run_stopped hstopped hended hserver [schedule j]

/-- Torque does not answer, and the cloud does nothing. -/
def silence : ServiceAnswers where
  job := fun _ ↦ ⟨false, 0, [], [], (false, []), (false, []), fun _ ↦ ⟨none, ⟨.failed, 0⟩⟩,
    JobScheduler.noDraws⟩
  cloud := fun _ ↦
    { update := ⟨fun _ ↦ ⟨none, 0, fun _ ↦ false, fun _ ↦ none, (false, []), .error⟩,
        fun _ ↦ ⟨.failed, 0⟩, fun _ ↦ none⟩
      cleanup := ⟨fun _ ↦ ⟨none, .error, 0, ⟨.failed, 0⟩⟩, fun _ ↦ none⟩ }
  forceoff := ⟨fun _ ↦ ⟨.deleted, 0⟩, fun _ ↦ ⟨.deleted, 0⟩⟩

/-- Round robin. -/
def roundRobin (n : ℕ) : Turn :=
  match n % 4 with
  | 0 => .main
  | 1 => .poller .job
  | 2 => .poller .cloud
  | _ => .server none

/-- The process is told to terminate as soon as it watches. -/
def sigterm : ℕ → Turn
  | 0 | 1 | 2 | 3 => .main
  | 4 => .signal
  | n + 5 => roundRobin n

/-- The threads have their turns one after another. -/
theorem fair_sigterm : Fair sigterm := by
  have hturn : ∀ n i, i < 4 → sigterm (4 * n + i + 5) = roundRobin i := by
    intro n i hi
    have hmod : (4 * n + i) % 4 = i % 4 := by omega
    show roundRobin (4 * n + i) = _
    rw [roundRobin, hmod]
    rfl
  refine ⟨fun n ↦ ⟨4 * n + 0 + 5, by omega, hturn n 0 (by omega)⟩, fun p n ↦ ?_,
    fun n ↦ ⟨4 * n + 3 + 5, by omega, none, hturn n 3 (by omega)⟩⟩
  cases p with
  | job => exact ⟨4 * n + 1 + 5, by omega, hturn n 1 (by omega)⟩
  | cloud => exact ⟨4 * n + 2 + 5, by omega, hturn n 2 (by omega)⟩

theorem stops_at_last_sigterm : ∃ m, 5 ≤ m ∧
    (((after {} silence sigterm oneWorkerLoaded m).main = .stopped ∧
      (after {} silence sigterm oneWorkerLoaded m).Ended ∧
      (after {} silence sigterm oneWorkerLoaded m).server = .ended ∧
      ∀ k, m ≤ k → after {} silence sigterm oneWorkerLoaded k =
        after {} silence sigterm oneWorkerLoaded m) ∨
      ∃ e, (after {} silence sigterm oneWorkerLoaded m).main = .failed e) := by
  refine stops_at_last {} silence oneWorkerLoaded sigterm 5 fair_sigterm (fun m hm ↦ ?_) nofun
    (.inl rfl)
  obtain ⟨k, rfl⟩ := Nat.exists_eq_add_of_le' hm
  show roundRobin k ≠ .signal
  rw [roundRobin]
  split <;> nofun

end DynamicTorque.Service
