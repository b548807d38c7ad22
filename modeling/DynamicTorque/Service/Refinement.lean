import DynamicTorque.Language.Interleaving
import DynamicTorque.Service.Tasks

/-!
# The service as an interleaving of operations

What the control flow decides does not matter to the shared state: every run of the service is, on
the shared state, a run of a pool of four threads that execute operations one after another. The
pollers execute their polls in order, and the JobPoller its dump after the last one; the main thread
executes `forceoff` at most once; the InfoServer executes requests.
-/

open Python Atomic Program

namespace DynamicTorque.Service

variable (cfg : ServiceConfig) (answers : ServiceAnswers)

/-- The pool of the tasks that each thread has begun. -/
abbrev TaskPool := Pool ThreadId Task Act Act.Reply PyError State

/-- A pool has the shared state of the service and executes what the service executes, with the
tasks `rest` to come. A main thread that was interrupted leaves its task unfinished. -/
structure Simulates (s : Service) (pool : TaskPool) (rest : ThreadId → List Task) : Prop where
  shared : pool.shared = s.shared
  threads : ∀ i, (i = .main → s.main ≠ .interrupted) → bare (pool.threads i) =
    current s i ++ (rest i).map fun c ↦ (c, taskProgram cfg answers c)

variable {cfg answers} {s s' : Service} {p q : Poller}

/-! ### The simulation -/

/-- The tasks that the threads begin between two states. -/
def begun (s s' : Service) (i : ThreadId) : List Task :=
  if current s i = [] then (current s' i).map Prod.fst else []

theorem begun_of_eq {i : ThreadId} (h : current s' i = current s i) : begun s s' i = [] := by
  rw [begun, h]
  split
  · rename_i hnil
    rw [hnil]
    rfl
  · rfl

theorem begun_of_busy {i : ThreadId} {x : Task × Proc Unit} (h : current s i = [x]) :
    begun s s' i = [] := by
  rw [begun, h, if_neg nofun]

/-- **One turn.** The pool takes at most one turn for a turn of the service. -/
theorem Matches.simulates {i : ThreadId} (h : Matches cfg answers i s s')
    (hstays : s.main = .interrupted → s'.main = .interrupted) {pool : TaskPool}
    {rest : ThreadId → List Task}
    (hpool : Simulates cfg answers s pool fun i ↦ begun s s' i ++ rest i) :
    ∃ turns, Simulates cfg answers s' (pool.run (exec cfg.toConfig) turns) rest := by
  have hmain : ∀ {i : ThreadId}, (i = .main → s'.main ≠ .interrupted) →
      i = .main → s.main ≠ .interrupted := fun hi hmain hs ↦ hi hmain (hstays hs)
  -- a thread that is executing a task was not interrupted
  have hbusy : ∀ {i x}, current s i = [x] → i = .main → s.main ≠ .interrupted := by
    intro i x hx hi hs
    rw [hi, current, hs] at hx
    cases hx
  cases h with
  | rests shared threads =>
    refine ⟨[], hpool.shared.trans shared.symm, fun j hj ↦ ?_⟩
    show bare (pool.threads j) = _
    rw [hpool.threads j (hmain hj), begun_of_eq (threads j), threads j, List.nil_append]
  | begins c shared idle threads =>
    refine ⟨[], hpool.shared.trans shared.symm, fun j hj ↦ ?_⟩
    show bare (pool.threads j) = _
    rw [hpool.threads j (hmain hj)]
    by_cases hji : j = i
    · subst hji
      have hnew : current s' j = [(c, taskProgram cfg answers c)] := by rw [threads j, if_pos rfl]
      rw [begun, if_pos idle, idle, hnew]
      rfl
    · have hsame : current s' j = current s j := by rw [threads j, if_neg hji]
      rw [begun_of_eq hsame, hsame, List.nil_append]
  | performs c o next busy shared threads =>
    have hi := hpool.threads i (hbusy busy)
    rw [begun_of_busy busy, busy] at hi
    obtain ⟨hshared, hthreads⟩ := Pool.bare_advance_act (exec cfg.toConfig) hi
    refine ⟨[i], ?_, fun j hj ↦ ?_⟩
    · show (pool.advance (exec cfg.toConfig) i).shared = _
      rw [hshared, shared, hpool.shared]
    · show bare ((pool.advance (exec cfg.toConfig) i).threads j) = _
      rw [hthreads j, threads j, hpool.shared]
      split
      · rename_i hji
        rw [hji]
        rfl
      · rename_i hji
        have hsame : current s' j = current s j := by rw [threads j, if_neg hji]
        rw [hpool.threads j (hmain hj), begun_of_eq hsame, List.nil_append]
  | leaves c left busy hover shared threads =>
    have hi := hpool.threads i (hbusy busy)
    rw [begun_of_busy busy, busy] at hi
    obtain ⟨hshared, hthreads⟩ := Pool.bare_advance_over (exec cfg.toConfig) hi hover
    refine ⟨[i], ?_, fun j hj ↦ ?_⟩
    · show (pool.advance (exec cfg.toConfig) i).shared = _
      rw [hshared, shared, hpool.shared]
    · show bare ((pool.advance (exec cfg.toConfig) i).threads j) = _
      rw [hthreads j, threads j]
      split
      · rename_i hji
        rw [hji]
        rfl
      · rename_i hji
        have hsame : current s' j = current s j := by rw [threads j, if_neg hji]
        rw [hpool.threads j (hmain hj), begun_of_eq hsame, List.nil_append]
  | interrupted own shared main threads =>
    refine ⟨[], hpool.shared.trans shared.symm, fun j hj ↦ ?_⟩
    show bare (pool.threads j) = _
    have hne : j ≠ .main := fun hmain ↦ hj hmain main
    rw [hpool.threads j (hmain hj), begun_of_eq (threads j hne), threads j hne, List.nil_append]

/-! ### What the threads execute -/

/-- The poller has left its loop. -/
def PollerState.Left (x : PollerState) : Prop :=
  (∃ left, x = .leaving left) ∨ ∃ r, x = .ended r

/-- The tasks that each thread has begun: the pollers their polls in order. -/
structure Tasks (s : Service) (tasks : ThreadId → List Task) : Prop where
  main : tasks .main = [] ∨ tasks .main = [.forceoff] ∧ s.main.pastWatch = true
  poller : ∀ p, tasks (.poller p) = (List.range (s.polls p)).map (.poll p) ∨
    tasks (.poller p) = (List.range (s.polls p)).map (.poll p) ++ [.afterLoop p] ∧
      PollerState.Left (s.poller p)
  server : ∀ c ∈ tasks .server, ∃ request, c = .request request

theorem begun_server {c : Task} (h : c ∈ begun s s' .server) : ∃ request, c = .request request := by
  rw [begun] at h
  split at h
  · rw [current] at h
    split at h
    · exact ⟨_, List.mem_singleton.1 h⟩
    · cases h
  · cases h

theorem pastWatch_step {x y : MainState} (h : MainStep cfg answers s x y)
    (hx : x.pastWatch = true) : y.pastWatch = true := by
  cases h <;> first | rfl | cases hx

variable (cfg answers) in
theorem begun_main (s : Service) (t : Turn) :
    begun s (advance cfg answers t s) .main = [] ∧
      (s.main.pastWatch = true → (advance cfg answers t s).main.pastWatch = true) ∨
    begun s (advance cfg answers t s) .main = [.forceoff] ∧ s.main.pastWatch = false ∧
      (advance cfg answers t s).main.pastWatch = true := by
  have hsame : ∀ s' : Service, s'.main = s.main →
      begun s s' .main = [] ∧ (s.main.pastWatch = true → s'.main.pastWatch = true) := by
    intro s' h
    exact ⟨begun_of_eq (by rw [current, current, h]), fun hpast ↦ by rwa [h]⟩
  have hforce : (∃ threads die, s.main = .watching threads die) → ∀ s' : Service,
      (∃ left, s'.main = .forcing left) → begun s s' .main = [.forceoff] ∧
        s.main.pastWatch = false ∧ s'.main.pastWatch = true := by
    intro hwatch s' hforcing
    obtain ⟨threads, die, hmain⟩ := hwatch
    obtain ⟨left, hmain'⟩ := hforcing
    have hidle : current s .main = [] := by rw [current, hmain]
    rw [begun, if_pos hidle, current, hmain', hmain]
    exact ⟨rfl, rfl, rfl⟩
  have hnone : ∀ s' : Service, (∀ left, s'.main ≠ .forcing left) → begun s s' .main = [] := by
    intro s' hnot
    rw [begun, current.eq_def s']
    split
    · dsimp only
      split
      · rename_i left hmain
        exact absurd hmain (hnot left)
      · rfl
    · rfl
  cases t with
  | poller p => exact .inl (hsame _ (sameBut_advancePoller cfg answers p s).main)
  | server request => exact .inl (hsame _ (sameBut_advanceServer cfg request s).main)
  | signal =>
    show begun s (signal cfg answers s) .main = [] ∧
      (s.main.pastWatch = true → (signal cfg answers s).main.pastWatch = true) ∨
      begun s (signal cfg answers s) .main = [.forceoff] ∧ _ ∧
        (signal cfg answers s).main.pastWatch = true
    rcases signal_cases cfg answers s with ⟨hs, -⟩ | ⟨hwatch, hsignal⟩ | hsignal
    · rw [hs]
      exact .inl (hsame s rfl)
    · rw [hsignal]
      exact .inr (hforce hwatch _ ⟨_, rfl⟩)
    · rw [hsignal]
      exact .inl ⟨hnone _ (by simp), fun _ ↦ rfl⟩
  | main =>
    show begun s (advanceMain cfg answers s) .main = [] ∧
      (s.main.pastWatch = true → (advanceMain cfg answers s).main.pastWatch = true) ∨
      begun s (advanceMain cfg answers s) .main = [.forceoff] ∧ _ ∧
        (advanceMain cfg answers s).main.pastWatch = true
    rcases advanceMain_cases cfg answers s with ⟨hs, -⟩ | hstep
    · rw [hs]
      exact .inl (hsame s rfl)
    · have hpast := pastWatch_step hstep
      generalize hx : s.main = x at hstep hpast
      generalize hy : (advanceMain cfg answers s).main = y at hstep hpast
      cases hstep with
      | force => exact .inr (hx ▸ hy ▸ hforce ⟨_, _, hx⟩ _ ⟨_, hy⟩)
      | work hfollows =>
        rename_i left left'
        have hbusy : current s .main = [(.forceoff, left)] := by rw [current, hx]
        exact .inl ⟨begun_of_busy hbusy, hpast⟩
      | _ => exact .inl ⟨hnone _ (by simp [hy]), hpast⟩

/-- What a poller begins at its own turn. -/
theorem begun_advancePoller : let s' := advancePoller cfg answers p s
    begun s s' (.poller p) = [] ∧ s'.polls p = s.polls p ∧
      (PollerState.Left (s.poller p) → PollerState.Left (s'.poller p)) ∨
    begun s s' (.poller p) = [.poll p (s.polls p)] ∧ s'.polls p = s.polls p + 1 ∧
      ¬PollerState.Left (s.poller p) ∨
    begun s s' (.poller p) = [.afterLoop p] ∧ s'.polls p = s.polls p ∧
      ¬PollerState.Left (s.poller p) ∧ PollerState.Left (s'.poller p) := by
  intro s'
  have hs' : s' = advancePoller cfg answers p s := rfl
  clear_value s'
  have hnone : (∀ left, s'.poller p ≠ .polling left) → (∀ left, s'.poller p ≠ .leaving left) →
      begun s s' (.poller p) = [] := by
    intro hpolling hleaving
    rw [begun, current.eq_def s']
    split
    · dsimp only
      split
      · rename_i left hp
        exact absurd hp (hpolling left)
      · rename_i left hp
        exact absurd hp (hleaving left)
      · rfl
    · rfl
  have hbusy : ∀ x, current s (.poller p) = [x] → begun s s' (.poller p) = [] :=
    fun _ ↦ begun_of_busy
  cases hp : s.poller p with
  | notStarted =>
    rw [advancePoller, hp] at hs'
    rw [hs', begun_of_eq rfl, hp]
    exact .inl ⟨rfl, rfl, id⟩
  | ended r =>
    rw [advancePoller, hp] at hs'
    rw [hs', begun_of_eq rfl, hp]
    exact .inl ⟨rfl, rfl, id⟩
  | testing tics =>
    have hidle : current s (.poller p) = [] := by rw [current, hp]
    have hnot : ¬PollerState.Left (.testing tics) := by
      rintro (⟨left, h⟩ | ⟨r, h⟩) <;> cases h
    by_cases hquit : s.quit p = true
    · simp only [advancePoller, hp, hquit, if_true] at hs'
      subst hs'
      refine .inr (.inr ⟨?_, rfl, hnot, .inl ⟨afterLoop p, setPoller_poller _⟩⟩)
      rw [begun, if_pos hidle, current, setPoller_poller]
      rfl
    · by_cases htics : tics = 0
      · simp only [advancePoller, hp, hquit, Bool.false_eq_true, if_false, htics, if_true] at hs'
        subst hs'
        refine .inr (.inl ⟨?_, Function.update_self .., hnot⟩)
        rw [begun, if_pos hidle, current]
        simp only [setPoller_poller, Function.update_self, Nat.add_sub_cancel]
        rfl
      · simp only [advancePoller, hp, hquit, Bool.false_eq_true, if_false, htics] at hs'
        subst hs'
        exact .inl ⟨hnone (by simp) (by simp), rfl, fun h ↦ absurd h hnot⟩
  | sleeping tics =>
    have hnot : ¬PollerState.Left (.sleeping tics) := by
      rintro (⟨left, h⟩ | ⟨r, h⟩) <;> cases h
    simp only [advancePoller, hp] at hs'
    subst hs'
    exact .inl ⟨hnone (by simp) (by simp), rfl, fun h ↦ absurd h hnot⟩
  | polling left =>
    have hnot : ¬PollerState.Left (.polling left) := by
      rintro (⟨left, h⟩ | ⟨r, h⟩) <;> cases h
    refine .inl ⟨hbusy (.poll p (s.polls p - 1), left) (by rw [current, hp]), ?_,
      fun h ↦ absurd h hnot⟩
    rw [hs', advancePoller, hp]
    cases left <;> rfl
  | leaving left =>
    refine .inl ⟨hbusy (.afterLoop p, left) (by rw [current, hp]), ?_, fun _ ↦ ?_⟩
    · rw [hs', advancePoller, hp]
      cases left <;> rfl
    · rw [hs', advancePoller, hp]
      cases left with
      | ret a => exact .inr ⟨_, setPoller_poller _⟩
      | raise e => exact .inr ⟨_, setPoller_poller _⟩
      | act o next => exact .inl ⟨_, setPoller_poller _⟩

/-- What is begun on a poller by the turn of another thread. -/
theorem begun_poller_of_other {t : Turn} (horder : s.InOrder) (ht : t ≠ .poller p) :
    let s' := advance cfg answers t s
    begun s s' (.poller p) = [] ∧ s'.polls p = s.polls p ∧
      (PollerState.Left (s.poller p) → PollerState.Left (s'.poller p)) := by
  intro s'
  have hsame : s'.poller p = s.poller p → s'.polls p = s.polls p →
      begun s s' (.poller p) = [] ∧ s'.polls p = s.polls p ∧
        (PollerState.Left (s.poller p) → PollerState.Left (s'.poller p)) := by
    intro hpoller hpolls
    exact ⟨begun_of_eq (by rw [current, current, hpoller, hpolls]), hpolls,
      fun h ↦ by rwa [hpoller]⟩
  cases t with
  | poller q =>
    have hpq : p ≠ q := fun hpq ↦ ht (hpq ▸ rfl)
    exact hsame ((sameBut_advancePoller cfg answers q s).poller p hpq)
      (counts_of_ne cfg answers s hpq).1
  | server request =>
    have hserver := (sameBut_advanceServer cfg request s)
    exact hsame (congrFun hserver.poller p) (congrFun hserver.polls p)
  | signal =>
    have hs' : s' = signal cfg answers s := rfl
    rcases signal_cases cfg answers s with ⟨hs, -⟩ | ⟨-, hsignal⟩ | hsignal
    · exact hsame (by rw [hs', hs]) (by rw [hs', hs])
    · exact hsame (by rw [hs', hsignal]) (by rw [hs', hsignal])
    · exact hsame (by rw [hs', hsignal]) (by rw [hs', hsignal])
  | main =>
    have heffect := mainEffect_advanceMain cfg answers s
    rcases heffect.poller with hpoller | ⟨q, threads, hmain, hpoller⟩
    · exact hsame (congrFun hpoller p) (congrFun heffect.polls p)
    · by_cases hpq : p = q
      · subst hpq
        rw [InOrder, hmain] at horder
        have hnot := horder.2 p List.mem_cons_self
        have hnew : s'.poller p = .testing 0 := (congrFun hpoller p).trans (Function.update_self ..)
        refine ⟨begun_of_eq (by rw [current, current, hnew, hnot]), congrFun heffect.polls p,
          fun h ↦ ?_⟩
        rw [hnot] at h
        rcases h with ⟨left, h⟩ | ⟨r, h⟩ <;> cases h
      · exact hsame ((congrFun hpoller p).trans (Function.update_of_ne hpq ..))
          (congrFun heffect.polls p)

theorem Tasks.advance {tasks : ThreadId → List Task} (h : Tasks s tasks) (horder : s.InOrder)
    (t : Turn) : Tasks (advance cfg answers t s) fun i ↦
      tasks i ++ begun s (Service.advance cfg answers t s) i where
  main := by
    rcases begun_main cfg answers s t with ⟨hnone, hpast⟩ |
      ⟨hnew, hbefore, hafter⟩
    · rw [hnone, List.append_nil]
      exact h.main.imp_right fun h ↦ ⟨h.1, hpast h.2⟩
    · rw [hnew]
      rcases h.main with hmain | ⟨-, hpast⟩
      · exact .inr ⟨by rw [hmain, List.nil_append], hafter⟩
      · exact absurd (hpast.symm.trans hbefore) nofun
  poller := by
    intro p
    have hbegun : let s' := Service.advance cfg answers t s
        begun s s' (.poller p) = [] ∧ s'.polls p = s.polls p ∧
          (PollerState.Left (s.poller p) → PollerState.Left (s'.poller p)) ∨
        begun s s' (.poller p) = [.poll p (s.polls p)] ∧ s'.polls p = s.polls p + 1 ∧
          ¬PollerState.Left (s.poller p) ∨
        begun s s' (.poller p) = [.afterLoop p] ∧ s'.polls p = s.polls p ∧
          ¬PollerState.Left (s.poller p) ∧ PollerState.Left (s'.poller p) := by
      by_cases ht : t = .poller p
      · exact ht ▸ begun_advancePoller
      · exact .inl (begun_poller_of_other horder ht)
    rcases hbegun with ⟨hnone, hpolls, hleft⟩ | ⟨hnew, hpolls, hnot⟩ | ⟨hnew, hpolls, hnot, hleft⟩
    · rw [hnone, hpolls, List.append_nil]
      exact (h.poller p).imp_right fun h ↦ ⟨h.1, hleft h.2⟩
    · refine .inl ?_
      rw [hnew, hpolls, List.range_succ, List.map_append, List.map_singleton,
        (h.poller p).resolve_right fun h ↦ hnot h.2]
    · refine .inr ⟨?_, hleft⟩
      rw [hnew, hpolls, (h.poller p).resolve_right fun h ↦ hnot h.2]
  server := fun c hc ↦ (List.mem_append.1 hc).elim (h.server c) begun_server

/-- A main thread that was interrupted stays so. -/
theorem interrupted_advance (t : Turn) (h : s.main = .interrupted) :
    (advance cfg answers t s).main = .interrupted := by
  cases t with
  | main => rwa [advance, advanceMain, h]
  | signal => rwa [advance, signal, h]
  | poller p => exact (sameBut_advancePoller cfg answers p s).main.trans h
  | server request => exact (sameBut_advanceServer cfg request s).main.trans h

/-- **The service is an interleaving of operations.** Every run of the service is, on the shared
state, a run of a pool of four threads that execute their tasks one after another, and the pool is
executing what the service is executing. The pollers' tasks are their polls in order, each once, and
what they do after their loops; the main thread executes `forceoff` at most once. -/
theorem service_is_interleaving (cfg : ServiceConfig) (answers : ServiceAnswers) (st : State)
    (schedule : List Turn) :
    let s := Service.run cfg answers schedule (initial st)
    ∃ tasks turns, Tasks s tasks ∧ Simulates cfg answers s
      ((Pool.start (taskProgram cfg answers) tasks st : TaskPool).run (exec cfg.toConfig) turns)
      fun _ ↦ [] := by
  suffices h : ∃ tasks, Tasks (Service.run cfg answers schedule (initial st)) tasks ∧
      ∀ rest : ThreadId → List Task, ∃ turns,
        Simulates cfg answers (Service.run cfg answers schedule (initial st))
          ((Pool.start (taskProgram cfg answers) (fun i ↦ tasks i ++ rest i) st : TaskPool).run
            (exec cfg.toConfig) turns) rest by
    obtain ⟨tasks, htasks, hsim⟩ := h
    obtain ⟨turns, hturns⟩ := hsim fun _ ↦ []
    simp only [List.append_nil] at hturns
    exact ⟨tasks, turns, htasks, hturns⟩
  induction schedule using List.reverseRecOn with
  | nil =>
    refine ⟨fun _ ↦ [], ⟨.inl rfl, fun p ↦ .inl rfl, nofun⟩, fun rest ↦ ⟨[], rfl, fun i _ ↦ ?_⟩⟩
    show bare ((rest i).map (Call.begin (taskProgram cfg answers))) = _
    rw [bare_begin]
    cases i <;> rfl
  | append_singleton schedule t ih =>
    obtain ⟨tasks, htasks, hsim⟩ := ih
    have horder : (Service.run cfg answers schedule (initial st)).InOrder :=
      inOrder_of_run schedule st
    rw [Service.run, runTurns_concat]
    refine ⟨_, htasks.advance horder t, fun rest ↦ ?_⟩
    obtain ⟨turns, hturns⟩ := hsim fun i ↦ begun (Service.run cfg answers schedule (initial st))
      (Service.advance cfg answers t (Service.run cfg answers schedule (initial st))) i ++ rest i
    obtain ⟨more, hmore⟩ := (matches_advance horder t).simulates (interrupted_advance t) hturns
    refine ⟨turns ++ more, ?_⟩
    rw [Pool.run_append]
    simpa only [List.append_assoc, Service.run] using hmore

end DynamicTorque.Service
