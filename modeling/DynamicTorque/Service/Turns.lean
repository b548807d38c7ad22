import DynamicTorque.Model.Service

/-!
# One turn

What a turn can do to each part of the process: to the pollers (`PollerStep`), to the main thread,
to the InfoServer, and to the flags that tell the threads to stop. The invariants of the service are
read off these.
-/

open Python Atomic Program

namespace DynamicTorque.Service

variable {cfg : ServiceConfig} {answers : ServiceAnswers} {s s' : Service} {p q : Poller}

/-- A run goes on from where another ends. -/
theorem run_append (before more : List Turn) (s : Service) :
    run cfg answers (before ++ more) s = run cfg answers more (run cfg answers before s) :=
  runTurns_append before more s

/-! ### The pollers -/

/-- The steps of a poller that is told to stop (`quit`) or not. -/
inductive PollerStep (cfg : ServiceConfig) (answers : ServiceAnswers) (p : Poller) (quit : Bool) :
    PollerState → PollerState → Prop
  | leave (tics : ℤ) : quit = true →
      PollerStep cfg answers p quit (.testing tics) (.leaving (afterLoop p))
  | poll (n : ℕ) : quit = false →
      PollerStep cfg answers p quit (.testing 0) (.polling (poll cfg answers p n))
  | rest (tics : ℤ) : quit = false → tics ≠ 0 →
      PollerStep cfg answers p quit (.testing tics) (.sleeping tics)
  | work {left left' : Proc Unit} : Follows left' left →
      PollerStep cfg answers p quit (.polling left) (.polling left')
  | polled : PollerStep cfg answers p quit (.polling (.ret ())) (.sleeping 0)
  | pollRaised (e : PyError) :
      PollerStep cfg answers p quit (.polling (.raise e)) (.ended (some e))
  | wake (tics : ℤ) : PollerStep cfg answers p quit (.sleeping tics)
      (.testing (if tics + 1 ≥ pollingInterval cfg p then 0 else tics + 1))
  | dump {left left' : Proc Unit} : Follows left' left →
      PollerStep cfg answers p quit (.leaving left) (.leaving left')
  | left : PollerStep cfg answers p quit (.leaving (.ret ())) (.ended none)
  | leaveRaised (e : PyError) :
      PollerStep cfg answers p quit (.leaving (.raise e)) (.ended (some e))

@[simp] theorem setPoller_poller (x : PollerState) : (s.setPoller p x).poller p = x :=
  Function.update_self ..

@[simp] theorem setPoller_polls (x : PollerState) : (s.setPoller p x).polls = s.polls := rfl

@[simp] theorem setPoller_seconds (x : PollerState) : (s.setPoller p x).seconds = s.seconds := rfl

theorem setPoller_poller_of_ne (x : PollerState) (h : q ≠ p) :
    (s.setPoller p x).poller q = s.poller q :=
  Function.update_of_ne h ..

variable (cfg answers) in
/-- A poller whose turn it is takes a step, unless it has not been started or has ended. -/
theorem advancePoller_cases (s : Service) (p : Poller) :
    (advancePoller cfg answers p s).poller p = s.poller p ∧
      (s.poller p = .notStarted ∨ ∃ r, s.poller p = .ended r) ∨
    PollerStep cfg answers p (s.quit p) (s.poller p)
      ((advancePoller cfg answers p s).poller p) := by
  rw [advancePoller]
  cases hp : s.poller p with
  | notStarted => exact .inl ⟨hp, .inl rfl⟩
  | ended r => exact .inl ⟨hp, .inr ⟨r, rfl⟩⟩
  | testing tics =>
    refine .inr ?_
    cases hquit : s.quit p with
    | true => simpa only [if_true, setPoller_poller] using .leave tics rfl
    | false =>
      by_cases htics : tics = 0
      · subst htics
        simpa only [Bool.false_eq_true, if_false, if_true, setPoller_poller] using .poll _ rfl
      · simpa only [Bool.false_eq_true, if_false, htics, setPoller_poller]
          using .rest tics rfl htics
  | polling left =>
    refine .inr ?_
    cases left with
    | ret a => simpa only [setPoller_poller] using .polled
    | raise e => simpa only [setPoller_poller] using .pollRaised e
    | act o next => simpa only [setPoller_poller] using .work follows_turn
  | sleeping tics => exact .inr (by simpa only [setPoller_poller] using .wake tics)
  | leaving left =>
    refine .inr ?_
    cases left with
    | ret a => simpa only [setPoller_poller] using .left
    | raise e => simpa only [setPoller_poller] using .leaveRaised e
    | act o next => simpa only [setPoller_poller] using .dump follows_turn

/-- What the turn of a poller leaves alone. -/
structure SameBut (p : Poller) (s s' : Service) : Prop where
  main : s'.main = s.main
  quit : s'.quit = s.quit
  server : s'.server = s.server
  done : s'.done = s.done
  poller : ∀ q, q ≠ p → s'.poller q = s.poller q

variable (cfg answers) in
/-- A turn of a poller changes no other thread. -/
theorem sameBut_advancePoller (p : Poller) (s : Service) :
    SameBut p s (advancePoller cfg answers p s) := by
  have hset : ∀ x, SameBut p s (s.setPoller p x) := fun x ↦
    ⟨rfl, rfl, rfl, rfl, fun q hq ↦ setPoller_poller_of_ne x hq⟩
  rw [advancePoller]
  split
  · exact ⟨rfl, rfl, rfl, rfl, fun _ _ ↦ rfl⟩
  · exact ⟨rfl, rfl, rfl, rfl, fun _ _ ↦ rfl⟩
  · split
    · exact hset _
    · split
      · exact ⟨rfl, rfl, rfl, rfl, (hset _).poller⟩
      · exact hset _
  · exact hset _
  · exact hset _
  · exact ⟨rfl, rfl, rfl, rfl, (hset _).poller⟩
  · exact ⟨rfl, rfl, rfl, rfl, (hset _).poller⟩
  · exact hset _
  · exact hset _
  · exact ⟨rfl, rfl, rfl, rfl, (hset _).poller⟩

variable (cfg answers) in
/-- The turn of a poller, for the other one. -/
theorem counts_of_ne (s : Service) (hqp : q ≠ p) :
    (advancePoller cfg answers p s).polls q = s.polls q ∧
    (advancePoller cfg answers p s).seconds q = s.seconds q := by
  unfold advancePoller
  split <;> try exact ⟨rfl, rfl⟩
  · split
    · exact ⟨rfl, rfl⟩
    · split
      · exact ⟨Function.update_of_ne hqp .., rfl⟩
      · exact ⟨rfl, rfl⟩
  · exact ⟨rfl, Function.update_of_ne hqp ..⟩

/-! ### The InfoServer -/

/-- What the turn of the InfoServer leaves alone. -/
structure SameButServer (s s' : Service) : Prop where
  main : s'.main = s.main
  quit : s'.quit = s.quit
  done : s'.done = s.done
  poller : s'.poller = s.poller
  polls : s'.polls = s.polls
  seconds : s'.seconds = s.seconds

/-- The end of an iteration of the InfoServer, which is told to stop (`done`) or not. -/
inductive ServerTested (done : Bool) : ServerState → Prop
  | ended : done = true → ServerTested done .ended
  | waiting : done = false → ServerTested done .waiting

/-- The steps of the InfoServer. -/
inductive ServerStep (cfg : ServiceConfig) (done : Bool) : ServerState → ServerState → Prop
  | timeout {y : ServerState} : ServerTested done y → ServerStep cfg done .waiting y
  | accept (request : Request) :
      ServerStep cfg done .waiting (.handling request (request.program cfg.toConfig))
  | work {request : Request} {left left' : Proc Response} : Follows left' left →
      ServerStep cfg done (.handling request left) (.handling request left')
  | reply {request : Request} {left : Proc Response} {y : ServerState} : ServerTested done y →
      ServerStep cfg done (.handling request left) y

/-- The test of the flag. -/
theorem serverTested_testDone (s : Service) : ServerTested s.done s.testDone.server := by
  cases hdone : s.done with
  | true => simpa only [testDone, hdone, if_true] using .ended rfl
  | false => simpa only [testDone, hdone, Bool.false_eq_true, if_false] using .waiting rfl

variable (cfg) in
/-- The InfoServer takes a step, unless it has not been started or has ended. -/
theorem serverStep_advanceServer (request : Option Request) (s : Service) :
    advanceServer cfg request s = s ∧ (s.server = .notStarted ∨ s.server = .ended) ∨
      ServerStep cfg s.done s.server (advanceServer cfg request s).server := by
  unfold advanceServer
  cases hserver : s.server with
  | notStarted => exact .inl ⟨rfl, .inl rfl⟩
  | ended => exact .inl ⟨rfl, .inr rfl⟩
  | waiting =>
    cases request with
    | none => exact .inr (.timeout (serverTested_testDone s))
    | some request => exact .inr (.accept request)
  | handling request' left =>
    cases left with
    | ret response => exact .inr (.reply (serverTested_testDone (s.reply response)))
    | raise e => exact .inr (.reply (serverTested_testDone (s.reply (request'.failed e))))
    | act o next => exact .inr (.work follows_turn)

variable (cfg) in
/-- A turn of the InfoServer changes no other thread. -/
theorem sameBut_advanceServer (request : Option Request) (s : Service) :
    SameButServer s (advanceServer cfg request s) := by
  unfold advanceServer
  cases s.server with
  | notStarted => exact ⟨rfl, rfl, rfl, rfl, rfl, rfl⟩
  | ended => exact ⟨rfl, rfl, rfl, rfl, rfl, rfl⟩
  | waiting => cases request <;> exact ⟨rfl, rfl, rfl, rfl, rfl, rfl⟩
  | handling request' left => cases left <;> exact ⟨rfl, rfl, rfl, rfl, rfl, rfl⟩

/-- An InfoServer that takes a step was started and stays so, and it ends only when it is told. -/
theorem ServerStep.started {done : Bool} {x y : ServerState} (h : ServerStep cfg done x y) :
    y ≠ .notStarted ∧ (y = .ended → done = true) := by
  have htested : ServerTested done y → y ≠ .notStarted ∧ (y = .ended → done = true) := by
    intro h
    cases h with
    | ended hdone => exact ⟨nofun, fun _ ↦ hdone⟩
    | waiting _ => exact ⟨nofun, nofun⟩
  cases h with
  | timeout h => exact htested h
  | reply h => exact htested h
  | accept request => exact ⟨nofun, nofun⟩
  | work h => exact ⟨nofun, nofun⟩

/-! ### The main thread -/

/-- The steps of the main thread, with what they wait for. -/
inductive MainStep (cfg : ServiceConfig) (answers : ServiceAnswers) (s : Service) :
    MainState → MainState → Prop
  | startServer : MainStep cfg answers s .startingServer (.starting Poller.all)
  | start (p : Poller) (threads : List Poller) :
      MainStep cfg answers s (.starting (p :: threads)) (.starting threads)
  | started : MainStep cfg answers s (.starting []) (.watching Poller.all false)
  | look (p : Poller) (threads : List Poller) (die : Bool) :
      MainStep cfg answers s (.watching (p :: threads) die)
        (.watching threads (die || (s.poller p).isEnded))
  | again : MainStep cfg answers s (.watching [] false) (.watching Poller.all false)
  | force : MainStep cfg answers s (.watching [] true)
      (.forcing (forceoff cfg.toConfig answers.forceoff))
  | work {left left' : Proc Unit} : Follows left' left →
      MainStep cfg answers s (.forcing left) (.forcing left')
  | forced : MainStep cfg answers s (.forcing (.ret ())) (.stopping Poller.all)
  | forceRaised (e : PyError) : MainStep cfg answers s (.forcing (.raise e)) (.failed e)
  | stop (p : Poller) (threads : List Poller) :
      MainStep cfg answers s (.stopping (p :: threads)) (.stopping threads)
  | stopAll : MainStep cfg answers s (.stopping []) (.joining Poller.all)
  | join (p : Poller) (threads : List Poller) : (s.poller p).isEnded = true →
      MainStep cfg answers s (.joining (p :: threads)) (.joining threads)
  | joinAll : MainStep cfg answers s (.joining []) .stoppingServer
  | stopServer : MainStep cfg answers s .stoppingServer .joiningServer
  | joinServer : s.server = .ended → MainStep cfg answers s .joiningServer .stopped

/-- The main thread waits for a thread to end, or has nothing more to do. -/
def MainWaits (s : Service) : Prop :=
  match s.main with
  | .joining (p :: _) => (s.poller p).isEnded = false
  | .joiningServer => s.server ≠ .ended
  | .stopped | .failed _ | .interrupted => True
  | _ => False

variable (cfg answers) in
/-- The main thread waits, or takes one of its steps. -/
theorem advanceMain_cases (s : Service) : advanceMain cfg answers s = s ∧ s.MainWaits ∨
    MainStep cfg answers s s.main (advanceMain cfg answers s).main := by
  unfold advanceMain MainWaits
  cases hmain : s.main with
  | startingServer => exact .inr .startServer
  | starting threads =>
    cases threads with
    | nil => exact .inr .started
    | cons p threads => exact .inr (.start p threads)
  | watching threads die =>
    cases threads with
    | nil =>
      cases die with
      | false => exact .inr .again
      | true => exact .inr .force
    | cons p threads => exact .inr (.look p threads die)
  | forcing left =>
    cases left with
    | ret a => exact .inr .forced
    | raise e => exact .inr (.forceRaised e)
    | act o next => exact .inr (.work follows_turn)
  | stopping threads =>
    cases threads with
    | nil => exact .inr .stopAll
    | cons p threads => exact .inr (.stop p threads)
  | joining threads =>
    cases threads with
    | nil => exact .inr .joinAll
    | cons p threads =>
      cases hp : (s.poller p).isEnded with
      | true => exact .inr (by simpa only [hp, if_true] using .join p threads hp)
      | false => exact .inl (by simp only [hp, Bool.false_eq_true, if_false, and_self])
  | stoppingServer => exact .inr .stopServer
  | joiningServer =>
    by_cases hserver : s.server = .ended
    · simp only [hserver]
      exact .inr (.joinServer hserver)
    · exact .inl ⟨by simp only, hserver⟩
  | stopped => exact .inl ⟨rfl, trivial⟩
  | failed e => exact .inl ⟨rfl, trivial⟩
  | interrupted => exact .inl ⟨rfl, trivial⟩

/-- What the turn of the main thread can do to the others. -/
structure MainEffect (s s' : Service) : Prop where
  quit : s'.quit = s.quit ∨ ∃ p threads, s.main = .stopping (p :: threads) ∧
    s'.quit = Function.update s.quit p true
  poller : s'.poller = s.poller ∨ ∃ p threads, s.main = .starting (p :: threads) ∧
    s'.poller = Function.update s.poller p (.testing 0)
  server : s'.server = s.server ∨ s.main = .startingServer
  done : s'.done = s.done ∨ s.main = .stoppingServer ∧ s'.done = true
  polls : s'.polls = s.polls
  seconds : s'.seconds = s.seconds

/-- Only these parts matter. -/
theorem MainEffect.of_eq (hquit : s'.quit = s.quit) (hpoller : s'.poller = s.poller)
    (hserver : s'.server = s.server) (hdone : s'.done = s.done) (hpolls : s'.polls = s.polls)
    (hseconds : s'.seconds = s.seconds) : MainEffect s s' :=
  ⟨.inl hquit, .inl hpoller, .inl hserver, .inl hdone, hpolls, hseconds⟩

variable (cfg answers) in
/-- **What the main thread does to the others.** -/
theorem mainEffect_advanceMain (s : Service) : MainEffect s (advanceMain cfg answers s) := by
  unfold advanceMain
  cases hmain : s.main with
  | startingServer => exact ⟨.inl rfl, .inl rfl, .inr hmain, .inl rfl, rfl, rfl⟩
  | starting threads =>
    cases threads with
    | nil => exact .of_eq rfl rfl rfl rfl rfl rfl
    | cons p threads =>
      exact ⟨.inl rfl, .inr ⟨p, threads, hmain, rfl⟩, .inl rfl, .inl rfl, rfl, rfl⟩
  | stopping threads =>
    cases threads with
    | nil => exact .of_eq rfl rfl rfl rfl rfl rfl
    | cons p threads =>
      exact ⟨.inr ⟨p, threads, hmain, rfl⟩, .inl rfl, .inl rfl, .inl rfl, rfl, rfl⟩
  | joining threads =>
    cases threads with
    | nil => exact .of_eq rfl rfl rfl rfl rfl rfl
    | cons p threads =>
      cases hp : (s.poller p).isEnded <;> simp only [hp, Bool.false_eq_true, if_true, if_false] <;>
        exact .of_eq rfl rfl rfl rfl rfl rfl
  | stoppingServer => exact ⟨.inl rfl, .inl rfl, .inl rfl, .inr ⟨hmain, rfl⟩, rfl, rfl⟩
  | joiningServer =>
    by_cases hserver : s.server = .ended <;> simp only [hserver]
    · exact .of_eq rfl rfl hserver.symm rfl rfl rfl
    · exact .of_eq rfl rfl rfl rfl rfl rfl
  | watching threads die => cases threads <;> exact .of_eq rfl rfl rfl rfl rfl rfl
  | forcing left => cases left <;> exact .of_eq rfl rfl rfl rfl rfl rfl
  | stopped => exact .of_eq rfl rfl rfl rfl rfl rfl
  | failed e => exact .of_eq rfl rfl rfl rfl rfl rfl
  | interrupted => exact .of_eq rfl rfl rfl rfl rfl rfl

variable (cfg answers) in
/-- A signal sends the main thread out of the watch, or out of `main`. -/
theorem signal_cases (s : Service) : signal cfg answers s = s ∧ s.MainWaits ∨
    (∃ threads die, s.main = .watching threads die) ∧
      signal cfg answers s = { s with main := .forcing (forceoff cfg.toConfig answers.forceoff) } ∨
    signal cfg answers s = { s with main := .interrupted } := by
  unfold signal MainWaits
  cases hmain : s.main with
  | watching threads die => exact .inr (.inl ⟨⟨threads, die, rfl⟩, rfl⟩)
  | stopped => exact .inl ⟨rfl, trivial⟩
  | failed e => exact .inl ⟨rfl, trivial⟩
  | interrupted => exact .inl ⟨rfl, trivial⟩
  | _ => exact .inr (.inr rfl)

variable (cfg answers) in
/-- A signal reaches only the main thread. -/
theorem signal_eq (s : Service) : ∃ x, signal cfg answers s = { s with main := x } := by
  rcases signal_cases cfg answers s with ⟨hsame, -⟩ | ⟨-, hsignal⟩ | hsignal
  · exact ⟨s.main, hsame⟩
  · exact ⟨_, hsignal⟩
  · exact ⟨_, hsignal⟩

/-! ### The order of the pollers -/

/-- The main thread starts the pollers and looks at them in order. -/
def InOrder (s : Service) : Prop :=
  match s.main with
  | .startingServer => s.server = .notStarted ∧ ∀ p, s.poller p = .notStarted
  | .starting threads => threads <:+ Poller.all ∧ ∀ p ∈ threads, s.poller p = .notStarted
  | .watching threads _ => threads <:+ Poller.all
  | _ => True

/-- A poller that has not been started does nothing. -/
theorem advancePoller_notStarted {q : Poller} (hp : s.poller p = .notStarted) :
    (advancePoller cfg answers q s).poller p = .notStarted := by
  by_cases hpq : p = q
  · subst hpq
    rw [advancePoller, hp]
    exact hp
  · rw [(sameBut_advancePoller cfg answers q s).poller p hpq, hp]

/-- The order is kept where the main thread is where it was. -/
theorem InOrder.of_main (h : s.InOrder) (hmain : s'.main = s.main)
    (hserver : s.server = .notStarted → s'.server = .notStarted)
    (hnot : ∀ p, s.poller p = .notStarted → s'.poller p = .notStarted) : s'.InOrder := by
  rw [InOrder] at h ⊢
  rw [hmain]
  cases hstate : s.main <;> simp only [hstate] at h ⊢
  case startingServer => exact ⟨hserver h.1, fun p ↦ hnot p (h.2 p)⟩
  case starting threads => exact ⟨h.1, fun p hp ↦ hnot p (h.2 p hp)⟩
  case watching => exact h

/-- A turn of the main thread. -/
theorem InOrder.advanceMain (h : s.InOrder) : (advanceMain cfg answers s).InOrder := by
  rcases advanceMain_cases cfg answers s with ⟨hsame, -⟩ | hstep
  · rwa [hsame]
  · have hpoller := (mainEffect_advanceMain cfg answers s).poller
    rw [InOrder] at h ⊢
    generalize hx : s.main = x at hstep h
    generalize (Service.advanceMain cfg answers s).main = y at hstep
    cases hstep with
    | startServer =>
      refine ⟨List.suffix_refl _, fun p _ ↦ ?_⟩
      rcases hpoller with hsame | ⟨q, threads, hmain, -⟩
      · rw [hsame, h.2 p]
      · exact nomatch hx.symm.trans hmain
    | start p threads =>
      obtain ⟨hsuffix, hnot⟩ := h
      have hnodup : (p :: threads).Nodup := hsuffix.sublist.nodup (by decide)
      refine ⟨(List.suffix_cons p threads).trans hsuffix, fun q hq ↦ ?_⟩
      have hqp : q ≠ p := fun hqp ↦ (List.nodup_cons.1 hnodup).1 (hqp ▸ hq)
      rcases hpoller with hsame | ⟨q', threads', hmain, hnew⟩
      · rw [hsame, hnot q (List.mem_cons_of_mem _ hq)]
      · obtain ⟨rfl, -⟩ := List.cons.inj (MainState.starting.inj (hx.symm.trans hmain))
        rw [hnew, Function.update_of_ne hqp, hnot q (List.mem_cons_of_mem _ hq)]
    | started => exact List.suffix_refl _
    | again => exact List.suffix_refl _
    | look p threads => exact (List.suffix_cons p threads).trans h
    | _ => trivial

/-- **One turn.** -/
theorem inOrder_advance (h : s.InOrder) (t : Turn) : (advance cfg answers t s).InOrder := by
  cases t with
  | main => exact h.advanceMain
  | poller p =>
    have hsame := sameBut_advancePoller cfg answers p s
    exact h.of_main hsame.main (fun hserver ↦ hsame.server ▸ hserver) fun _ ↦
      advancePoller_notStarted
  | server request =>
    have hsame := sameBut_advanceServer cfg request s
    refine h.of_main hsame.main (fun hserver ↦ ?_) fun p hp ↦ hsame.poller ▸ hp
    simp only [Service.advance, advanceServer, hserver]
  | signal =>
    show (Service.signal cfg answers s).InOrder
    rcases signal_cases cfg answers s with ⟨hsame, -⟩ | ⟨-, hsignal⟩ | hsignal
    · rwa [hsame]
    · rw [hsignal]
      trivial
    · rw [hsignal]
      trivial

/-- **Every run.** -/
theorem inOrder_of_run (schedule : List Turn) (st : State) :
    (Service.run cfg answers schedule (initial st)).InOrder :=
  run_induction (I := InOrder) (T := fun _ ↦ True) (fun t _ _ h ↦ inOrder_advance h t)
    (fun _ _ ↦ trivial) ⟨rfl, fun _ ↦ rfl⟩

end DynamicTorque.Service
