import DynamicTorque.Service.Turns
import Mathlib.Data.List.Induction

/-!
# Stopping in order

What holds of the process after any schedule of turns. The pollers leave their loops only when they
are told to, and they are told to only after `forceoff` has returned in the main thread; the
InfoServer is told to stop only after both pollers have ended; and a process that has stopped does
nothing more.
-/

open Python Atomic Program

namespace DynamicTorque.Service

variable {cfg : ServiceConfig} {answers : ServiceAnswers} {s s' : Service} {p : Poller}

/-- Every thread has been started. -/
def Started (s : Service) : Prop :=
  s.server ≠ .notStarted ∧ ∀ p, s.poller p ≠ .notStarted

def Ended (s : Service) : Prop :=
  ∀ p, (s.poller p).isEnded = true

/-- What the main thread has done for the others, by where it is. -/
def Prepared (s : Service) : Prop :=
  match s.main with
  | .startingServer => (∀ p, s.quit p = false) ∧ s.done = false
  | .starting threads => (∀ p, s.quit p = false) ∧ s.done = false ∧ s.server ≠ .notStarted ∧
      ∀ p, p ∉ threads → s.poller p ≠ .notStarted
  | .watching _ _ | .forcing _ | .failed _ => (∀ p, s.quit p = false) ∧ s.Started
  | .stopping threads => s.Started ∧ ∀ p, p ∉ threads → s.quit p = true
  | .joining threads => s.Started ∧ (∀ p, s.quit p = true) ∧
      ∀ p, p ∉ threads → (s.poller p).isEnded = true
  | .stoppingServer => s.Started ∧ s.Ended
  | .joiningServer => s.Started ∧ s.Ended ∧ s.done = true
  | .stopped => s.Ended ∧ s.server = .ended
  | .interrupted => True

/-- The invariant of the process. -/
structure Orderly (s : Service) : Prop where
  prepared : s.Prepared
  /-- A poller leaves its loop when it is told to. -/
  leaving : ∀ p left, s.poller p = .leaving left → s.quit p = true
  ended : ∀ p, s.poller p = .ended none → s.quit p = true
  done : s.done = true → s.Ended
  server : s.server = .ended → s.done = true

theorem mem_all (p : Poller) : p ∈ Poller.all := by
  cases p <;> decide

theorem orderly_initial (s : State) : (initial s).Orderly where
  prepared := ⟨fun _ ↦ rfl, rfl⟩
  leaving := nofun
  ended := nofun
  done := nofun
  server := nofun

/-! ### The turn of a poller -/

/-- A poller that is started stays started, and one that has ended has ended. -/
theorem PollerStep.started {quit : Bool} {x y : PollerState}
    (h : PollerStep cfg answers p quit x y) : y ≠ .notStarted ∧ x.isEnded = false := by
  cases h <;> exact ⟨nofun, rfl⟩

theorem advancePoller_started (h : s.poller p ≠ .notStarted) :
    (advancePoller cfg answers p s).poller p ≠ .notStarted := by
  rcases advancePoller_cases cfg answers s p with
    ⟨hsame, -⟩ | hstep
  · rwa [hsame]
  · exact hstep.started.1

theorem advancePoller_isEnded (h : (s.poller p).isEnded = true) :
    (advancePoller cfg answers p s).poller p = s.poller p := by
  rcases advancePoller_cases cfg answers s p with
    ⟨hsame, -⟩ | hstep
  · exact hsame
  · exact absurd (h.symm.trans hstep.started.2) nofun

/-- What a turn of one poller gives the invariant of all. -/
theorem SameBut.forall {P : PollerState → Prop} (h : SameBut p s s')
    (hp : P (s.poller p) → P (s'.poller p)) {q : Poller} (hq : P (s.poller q)) :
    P (s'.poller q) := by
  by_cases hqp : q = p
  · exact hqp ▸ hp (hqp ▸ hq)
  · rwa [h.poller q hqp]

theorem Orderly.advancePoller (h : s.Orderly) (p : Poller) :
    (advancePoller cfg answers p s).Orderly := by
  have hsame := sameBut_advancePoller cfg answers p s
  have hstarted : ∀ q, s.poller q ≠ .notStarted →
      (Service.advancePoller cfg answers p s).poller q ≠ .notStarted := fun q ↦
    hsame.forall (P := (· ≠ .notStarted)) advancePoller_started
  have hended : ∀ q, (s.poller q).isEnded = true →
      ((Service.advancePoller cfg answers p s).poller q).isEnded = true := fun q ↦
    hsame.forall (P := (·.isEnded = true)) fun hp ↦ by rwa [advancePoller_isEnded hp]
  -- a poller that takes a step out of the loop was told to
  have hleft : ∀ q, (∃ left, (Service.advancePoller cfg answers p s).poller q = .leaving left) ∨
      (Service.advancePoller cfg answers p s).poller q = .ended none → s.quit q = true := by
    intro q hq
    by_cases hqp : q = p
    · subst hqp
      rcases advancePoller_cases cfg answers s q with
        ⟨hsame, -⟩ | hstep
      · rw [hsame] at hq
        rcases hq with ⟨left, hq⟩ | hq
        · exact h.leaving q left hq
        · exact h.ended q hq
      · generalize hx : s.poller q = x at hstep
        generalize (Service.advancePoller cfg answers q s).poller q = y at hstep hq
        cases hstep with
        | leave tics hquit => exact hquit
        | dump _ => exact h.leaving q _ hx
        | left => exact h.leaving q _ hx
        | _ => rcases hq with ⟨_, hq⟩ | hq <;> cases hq
    · rw [hsame.poller q hqp] at hq
      rcases hq with ⟨left, hq⟩ | hq
      · exact h.leaving q left hq
      · exact h.ended q hq
  have hprepared := h.prepared
  refine ⟨?_, ?_, ?_, ?_, ?_⟩
  · rw [Prepared] at hprepared ⊢
    simp only [hsame.main, hsame.quit, hsame.server, hsame.done, Started, Ended] at hprepared ⊢
    cases hmain : s.main <;> simp only [hmain] at hprepared ⊢ <;> grind
  · intro q left hq
    rw [hsame.quit]
    exact hleft q (.inl ⟨left, hq⟩)
  · intro q hq
    rw [hsame.quit]
    exact hleft q (.inr hq)
  · rw [hsame.done]
    exact fun hdone q ↦ hended q (h.done hdone q)
  · rw [hsame.server, hsame.done]
    exact h.server

/-! ### The turn of the InfoServer -/

variable (cfg s) in
theorem advanceServer_started (request : Option Request) (h : s.server ≠ .notStarted) :
    (advanceServer cfg request s).server ≠ .notStarted := by
  rcases serverStep_advanceServer cfg request s with ⟨hsame, -⟩ | hstep
  · rwa [hsame]
  · exact hstep.started.1

variable (cfg s) in
/-- A server that has ended stays as it is. -/
theorem advanceServer_ended (request : Option Request) (h : s.server = .ended) :
    (advanceServer cfg request s).server = .ended := by
  simp only [Service.advanceServer, h]

/-- A turn of the InfoServer. -/
theorem Orderly.advanceServer (h : s.Orderly) (request : Option Request) :
    (advanceServer cfg request s).Orderly := by
  have hsame := sameBut_advanceServer cfg request s
  have hstarted := advanceServer_started cfg s request
  have hended := advanceServer_ended cfg s request
  have hprepared := h.prepared
  refine ⟨?_, ?_, ?_, ?_, ?_⟩
  · rw [Prepared] at hprepared ⊢
    simp only [hsame.main, hsame.quit, hsame.poller, hsame.done, Started, Ended] at hprepared ⊢
    cases hmain : s.main <;> simp only [hmain] at hprepared ⊢ <;> grind
  · rw [hsame.poller, hsame.quit]
    exact h.leaving
  · rw [hsame.poller, hsame.quit]
    exact h.ended
  · rw [hsame.done, Ended, hsame.poller]
    exact h.done
  · rw [hsame.done]
    rcases serverStep_advanceServer cfg request s with ⟨hserver, -⟩ | hstep
    · rw [hserver]
      exact h.server
    · exact hstep.started.2

/-! ### The turn of the main thread -/

/-- A turn of the main thread that moves nothing but the main thread. -/
theorem Orderly.of_main (h : s.Orderly) {x : MainState}
    (hprepared : Prepared { s with main := x }) : Orderly { s with main := x } :=
  ⟨hprepared, h.leaving, h.ended, h.done, h.server⟩

/-- The main thread starts a poller. -/
theorem Orderly.startPoller (h : s.Orderly) {threads : List Poller}
    (hmain : s.main = .starting (p :: threads)) :
    Orderly { s.setPoller p (.testing 0) with main := .starting threads } := by
  have hprepared := h.prepared
  rw [Prepared, hmain] at hprepared
  obtain ⟨hquit, hdone, hserver, hstarted⟩ := hprepared
  have hpoller : ∀ q, q = p ∧ (s.setPoller p (.testing 0)).poller q = .testing 0 ∨
      q ≠ p ∧ (s.setPoller p (.testing 0)).poller q = s.poller q := by
    intro q
    by_cases hq : q = p
    · exact .inl ⟨hq, hq ▸ setPoller_poller _⟩
    · exact .inr ⟨hq, setPoller_poller_of_ne _ hq⟩
  refine ⟨⟨hquit, hdone, hserver, fun q hq ↦ ?_⟩, fun q left hq ↦ ?_, fun q hq ↦ ?_,
    fun hdone' ↦ (nomatch hdone.symm.trans hdone'), h.server⟩
  · show (s.setPoller p (.testing 0)).poller q ≠ .notStarted
    rcases hpoller q with ⟨-, hnew⟩ | ⟨hqp, hsame⟩
    · rw [hnew]
      nofun
    · rw [hsame]
      exact hstarted q (by simp [hqp, hq])
  · rcases hpoller q with ⟨-, hnew⟩ | ⟨-, hsame⟩
    · exact nomatch hnew.symm.trans hq
    · exact h.leaving q left (hsame.symm.trans hq)
  · rcases hpoller q with ⟨-, hnew⟩ | ⟨-, hsame⟩
    · exact nomatch hnew.symm.trans hq
    · exact h.ended q (hsame.symm.trans hq)

/-- The main thread tells a poller to stop. -/
theorem Orderly.stopPoller (h : s.Orderly) {threads : List Poller}
    (hmain : s.main = .stopping (p :: threads)) : Orderly
      { s with quit := Function.update s.quit p true, main := .stopping threads } := by
  have hprepared := h.prepared
  rw [Prepared, hmain] at hprepared
  obtain ⟨hstarted, hquit⟩ := hprepared
  have hkeeps : ∀ q, s.quit q = true → Function.update s.quit p true q = true := by
    intro q hq
    by_cases hqp : q = p
    · exact hqp ▸ Function.update_self ..
    · rwa [Function.update_of_ne hqp]
  refine ⟨⟨hstarted, fun q hq ↦ ?_⟩, fun q left hq ↦ hkeeps q (h.leaving q left hq),
    fun q hq ↦ hkeeps q (h.ended q hq), h.done, h.server⟩
  by_cases hqp : q = p
  · exact hqp ▸ Function.update_self ..
  · exact hkeeps q (hquit q (by simp [hqp, hq]))

/-- A turn of the main thread. -/
theorem Orderly.advanceMain (h : s.Orderly) : (advanceMain cfg answers s).Orderly := by
  have hprepared := h.prepared
  rw [Prepared] at hprepared
  unfold Service.advanceMain
  cases hmain : s.main with
  | startingServer =>
    rw [hmain] at hprepared
    obtain ⟨hquit, hdone⟩ := hprepared
    exact ⟨⟨hquit, hdone, (fun h ↦ by cases h), fun p hp ↦ absurd (mem_all p) hp⟩, h.leaving,
      h.ended, h.done, fun h ↦ by cases h⟩
  | starting threads =>
    cases threads with
    | cons p threads => exact h.startPoller hmain
    | nil =>
      rw [hmain] at hprepared
      obtain ⟨hquit, -, hserver, hstarted⟩ := hprepared
      exact h.of_main (x := .watching Poller.all false)
        ⟨hquit, hserver, fun p ↦ hstarted p List.not_mem_nil⟩
  | watching threads die =>
    rw [hmain] at hprepared
    cases threads with
    | cons p threads => exact h.of_main hprepared
    | nil =>
      refine h.of_main (x := if die then _ else _) ?_
      cases die <;> exact hprepared
  | forcing left =>
    rw [hmain] at hprepared
    cases left with
    | ret a =>
      exact h.of_main (x := .stopping Poller.all)
        ⟨hprepared.2, fun p hp ↦ absurd (mem_all p) hp⟩
    | raise e => exact h.of_main hprepared
    | act o next => exact ⟨hprepared, h.leaving, h.ended, h.done, h.server⟩
  | stopping threads =>
    cases threads with
    | cons p threads => exact h.stopPoller hmain
    | nil =>
      rw [hmain] at hprepared
      obtain ⟨hstarted, hquit⟩ := hprepared
      exact h.of_main (x := .joining Poller.all)
        ⟨hstarted, fun p ↦ hquit p List.not_mem_nil, fun p hp ↦ absurd (mem_all p) hp⟩
  | joining threads =>
    rw [hmain] at hprepared
    obtain ⟨hstarted, hquit, hended⟩ := hprepared
    cases threads with
    | cons p threads =>
      show Orderly (if (s.poller p).isEnded then { s with main := .joining threads } else s)
      split
      · rename_i hp
        refine h.of_main ⟨hstarted, hquit, fun q hq ↦ ?_⟩
        by_cases hqp : q = p
        · exact hqp ▸ hp
        · exact hended q (by simp [hqp, hq])
      · exact h
    | nil =>
      exact h.of_main (x := .stoppingServer) ⟨hstarted, fun p ↦ hended p List.not_mem_nil⟩
  | stoppingServer =>
    rw [hmain] at hprepared
    obtain ⟨hstarted, hended⟩ := hprepared
    exact ⟨⟨hstarted, hended, rfl⟩, h.leaving, h.ended, fun _ ↦ hended, fun _ ↦ rfl⟩
  | joiningServer =>
    rw [hmain] at hprepared
    obtain ⟨-, hended, -⟩ := hprepared
    by_cases hserver : s.server = .ended
    · have hstopped := h.of_main (x := .stopped) ⟨hended, hserver⟩
      simpa only [hserver] using hstopped
    · simpa only [hserver] using h
  | stopped => exact h
  | failed e => exact h
  | interrupted => exact h

/-- A signal. -/
theorem Orderly.signal (h : s.Orderly) : (signal cfg answers s).Orderly := by
  have hprepared := h.prepared
  rw [Prepared] at hprepared
  unfold Service.signal
  cases hmain : s.main with
  | watching threads die =>
    rw [hmain] at hprepared
    exact h.of_main hprepared
  | stopped => exact h
  | failed e => exact h
  | interrupted => exact h
  | _ => exact h.of_main trivial

/-- **The invariant.** -/
theorem Orderly.run (h : s.Orderly) (schedule : List Turn) :
    (run cfg answers schedule s).Orderly := by
  refine run_induction (I := Orderly) (T := fun _ ↦ True) (fun t s _ h ↦ ?_) (fun _ _ ↦ trivial) h
  cases t with
  | main => exact h.advanceMain
  | signal => exact h.signal
  | poller p => exact h.advancePoller p
  | server request => exact h.advanceServer request

/-! ### What comes before what -/

/-- At some time in a run the `forceoff` of the main thread had returned. -/
def Forced (cfg : ServiceConfig) (answers : ServiceAnswers) (schedule : List Turn) (s : Service) :
    Prop :=
  ∃ before after, schedule = before ++ after ∧
    (Service.run cfg answers before s).main = .forcing (.ret ())

/-- A longer schedule has the same beginning. -/
theorem Forced.append {schedule : List Turn} (h : Forced cfg answers schedule s)
    (more : List Turn) : Forced cfg answers (schedule ++ more) s := by
  obtain ⟨before, after, rfl, hmain⟩ := h
  exact ⟨before, after ++ more, List.append_assoc .., hmain⟩

/-- How the main thread comes to stop the pollers. -/
theorem main_of_stopping {t : Turn} {threads : List Poller}
    (h : (advance cfg answers t s).main = .stopping threads) :
    s.main = .forcing (.ret ()) ∨ ∃ threads, s.main = .stopping threads := by
  cases t with
  | poller p => exact .inr ⟨threads, (sameBut_advancePoller cfg answers p s).main.symm.trans h⟩
  | server request => exact .inr ⟨threads, (sameBut_advanceServer cfg request s).main.symm.trans h⟩
  | signal =>
    change (Service.signal cfg answers s).main = _ at h
    rcases signal_cases cfg answers s with ⟨hsame, -⟩ | ⟨-, hsignal⟩ | hsignal
    · exact .inr ⟨threads, hsame ▸ h⟩
    · exact nomatch hsignal ▸ h
    · exact nomatch hsignal ▸ h
  | main =>
    change (Service.advanceMain cfg answers s).main = _ at h
    rcases advanceMain_cases cfg answers s with ⟨hsame, -⟩ | hstep
    · exact .inr ⟨threads, hsame ▸ h⟩
    · rw [h] at hstep
      generalize s.main = x at hstep
      cases hstep with
      | forced => exact .inl rfl
      | stop p => exact .inr ⟨_, rfl⟩

/-- The main thread stops the pollers only after `forceoff` has returned. -/
theorem forced_of_stopping (schedule : List Turn) {st : State} {threads : List Poller}
    (h : (Service.run cfg answers schedule (initial st)).main = .stopping threads) :
    Forced cfg answers schedule (initial st) := by
  induction schedule using List.reverseRecOn generalizing threads with
  | nil => exact nomatch h
  | append_singleton schedule t ih =>
    rw [Service.run, runTurns_concat] at h
    rcases main_of_stopping h with hforced | ⟨threads, hstopping⟩
    · exact ⟨schedule, [t], rfl, hforced⟩
    · exact (ih hstopping).append [t]

/-- Who tells a poller to stop. -/
theorem quit_advance {t : Turn} (h : (advance cfg answers t s).quit p = true) :
    s.quit p = true ∨ ∃ threads, s.main = .stopping threads := by
  cases t with
  | poller q => exact .inl ((sameBut_advancePoller cfg answers q s).quit ▸ h)
  | server request => exact .inl ((sameBut_advanceServer cfg request s).quit ▸ h)
  | signal =>
    change (Service.signal cfg answers s).quit p = true at h
    rcases signal_cases cfg answers s with ⟨hsame, -⟩ | ⟨-, hsignal⟩ | hsignal
    · exact .inl (hsame ▸ h)
    · rw [hsignal] at h
      exact .inl h
    · rw [hsignal] at h
      exact .inl h
  | main =>
    rcases (mainEffect_advanceMain cfg answers s).quit with hsame | hstop
    · exact .inl (hsame ▸ h)
    · obtain ⟨q, threads, hmain, -⟩ := hstop
      exact .inr ⟨_, hmain⟩

/-- A poller is told to stop only after `forceoff` has returned. -/
theorem forced_of_quit (schedule : List Turn) {st : State}
    (h : (Service.run cfg answers schedule (initial st)).quit p = true) :
    Forced cfg answers schedule (initial st) := by
  induction schedule using List.reverseRecOn with
  | nil => exact nomatch h
  | append_singleton schedule t ih =>
    rw [Service.run, runTurns_concat] at h
    rcases quit_advance h with hquit | ⟨threads, hstopping⟩
    · exact (ih hquit).append [t]
    · exact (forced_of_stopping schedule hstopping).append [t]

/-- A process that has stopped does nothing more. -/
theorem run_stopped (hmain : s.main = .stopped) (hended : s.Ended) (hserver : s.server = .ended)
    (more : List Turn) : Service.run cfg answers more s = s := by
  refine run_induction (I := (· = s)) (T := fun _ ↦ True) (fun t s' _ h ↦ ?_)
    (fun _ _ ↦ trivial) rfl
  subst h
  cases t with
  | main =>
    show Service.advanceMain cfg answers s' = s'
    unfold Service.advanceMain
    simp only [hmain]
  | signal =>
    show Service.signal cfg answers s' = s'
    unfold Service.signal
    simp only [hmain]
  | poller p =>
    show Service.advancePoller cfg answers p s' = s'
    have hp := hended p
    unfold Service.advancePoller
    split <;> first | rfl | (rename_i hstate; exact absurd (hstate ▸ hp) nofun)
  | server request =>
    show Service.advanceServer cfg request s' = s'
    unfold Service.advanceServer
    simp only [hserver]

/-- **The order of a stop.** In every run, a poller has left its loop, other than by an exception,
only after the `forceoff` of the main thread has returned; the InfoServer ends only after both
pollers; and where the main thread has stopped everything has, and no turn changes anything. -/
theorem stopped_in_order (cfg : ServiceConfig) (answers : ServiceAnswers) (st : State)
    (schedule : List Turn) :
    let s := Service.run cfg answers schedule (initial st)
    (∀ p, (∃ left, s.poller p = .leaving left) ∨ s.poller p = .ended none →
      Forced cfg answers schedule (initial st)) ∧
    (s.server = .ended → s.Ended) ∧
    (s.main = .stopped → s.server = .ended ∧ ∀ more, Service.run cfg answers more s = s) := by
  intro s
  have h : s.Orderly := (orderly_initial st).run schedule
  refine ⟨fun p hp ↦ forced_of_quit (p := p) schedule ?_, fun hserver ↦ h.done (h.server hserver),
    fun hmain ↦ ?_⟩
  · rcases hp with ⟨left, hp⟩ | hp
    · exact h.leaving p left hp
    · exact h.ended p hp
  · have hprepared := h.prepared
    rw [Prepared, hmain] at hprepared
    exact ⟨hprepared.2, run_stopped hmain hprepared.1 hprepared.2⟩

end DynamicTorque.Service
