import DynamicTorque.Service.Turns

/-!
# When the pollers poll

A poller counts its sleep in seconds and polls again when the count reaches its interval. Whatever
the interval, negative ones included, and whatever the other threads do between two of its turns,
each poll begins after a fixed number of seconds of sleep.
-/

open Python Atomic Program

namespace DynamicTorque.Service

variable {cfg : ServiceConfig} {answers : ServiceAnswers} {s : Service} {p q : Poller}

/-- The seconds of sleep between two polls: at least one, whatever is configured. -/
def period (cfg : ServiceConfig) (p : Poller) : ℕ :=
  (max 1 (pollingInterval cfg p)).toNat

/-- A poll takes a second at least. -/
theorem one_le_period : 1 ≤ period cfg p := by
  rw [period]
  omega

/-- The reset of `sleep_tics` at the interval, as a count of seconds. -/
theorem nextTics_eq (d : ℕ) : (if (d : ℤ) + 1 ≥ pollingInterval cfg p then (0 : ℤ) else d + 1) =
    if period cfg p ≤ d + 1 then 0 else ((d + 1 : ℕ) : ℤ) := by
  rw [period]
  split <;> split <;> omega

/-- Where poller `p` is, by the seconds it has slept: `polls` polls have begun, and `d` seconds have
passed since the last one. -/
def OnTime (cfg : ServiceConfig) (p : Poller) (polls seconds : ℕ) : PollerState → Prop
  | .notStarted => polls = 0 ∧ seconds = 0
  | .testing tics => seconds = period cfg p * polls ∧ tics = 0 ∨
      ∃ d n, polls = n + 1 ∧ seconds = period cfg p * n + d ∧ tics = d ∧ 0 < d ∧ d < period cfg p
  | .polling _ => ∃ n, polls = n + 1 ∧ seconds = period cfg p * n
  | .sleeping tics => ∃ d n, polls = n + 1 ∧ seconds = period cfg p * n + d ∧ tics = d ∧
      d < period cfg p
  | .leaving _ | .ended _ => period cfg p * (polls - 1) ≤ seconds ∧ seconds ≤ period cfg p * polls

/-- The seconds of a poller that is on time are between those of its last poll and its next. -/
theorem OnTime.bounds {polls seconds : ℕ} {x : PollerState} (h : OnTime cfg p polls seconds x) :
    period cfg p * (polls - 1) ≤ seconds ∧ seconds ≤ period cfg p * polls := by
  have hmul : ∀ n, period cfg p * (n + 1) = period cfg p * n + period cfg p := fun n ↦
    Nat.mul_succ _ n
  cases x with
  | notStarted =>
    obtain ⟨rfl, rfl⟩ := h
    exact ⟨Nat.le_refl _, Nat.le_refl _⟩
  | testing tics =>
    rcases h with ⟨rfl, -⟩ | ⟨d, n, rfl, rfl, -, -, hd⟩
    · exact ⟨Nat.mul_le_mul_left _ (Nat.sub_le _ _), Nat.le_refl _⟩
    · rw [hmul, Nat.add_sub_cancel]
      omega
  | polling left =>
    obtain ⟨n, rfl, rfl⟩ := h
    rw [hmul, Nat.add_sub_cancel]
    omega
  | sleeping tics =>
    obtain ⟨d, n, rfl, rfl, -, hd⟩ := h
    rw [hmul, Nat.add_sub_cancel]
    omega
  | leaving left => exact h
  | ended r => exact h

/-- Each poller is on time. -/
def AllOnTime (cfg : ServiceConfig) (s : Service) : Prop :=
  ∀ p, OnTime cfg p (s.polls p) (s.seconds p) (s.poller p)

/-- One more second of sleep. -/
theorem onTime_wake {tics : ℤ} {polls seconds : ℕ}
    (h : OnTime cfg p polls seconds (.sleeping tics)) :
    OnTime cfg p polls (seconds + 1)
      (.testing (if tics + 1 ≥ pollingInterval cfg p then 0 else tics + 1)) := by
  obtain ⟨d, n, rfl, rfl, rfl, hd⟩ := h
  rw [nextTics_eq]
  split
  · refine .inl ⟨?_, rfl⟩
    rw [Nat.mul_succ]
    omega
  · exact .inr ⟨d + 1, n, rfl, by omega, rfl, by omega, by omega⟩

/-- The turn of a poller, for that poller. -/
theorem onTime_advancePoller (h : OnTime cfg p (s.polls p) (s.seconds p) (s.poller p)) :
    OnTime cfg p ((advancePoller cfg answers p s).polls p)
      ((advancePoller cfg answers p s).seconds p) ((advancePoller cfg answers p s).poller p) := by
  have hbounds := h.bounds
  unfold advancePoller
  cases hp : s.poller p with
  | notStarted => simpa only [hp] using h
  | ended r => simpa only [hp] using h
  | testing tics =>
    rw [hp] at h
    cases hquit : s.quit p with
    | true =>
      simp only [if_true, setPoller_polls, setPoller_seconds, setPoller_poller]
      exact hbounds
    | false =>
      simp only [Bool.false_eq_true, if_false]
      split
      · -- a poll begins
        rename_i htics
        simp only [setPoller_seconds, setPoller_poller, Function.update_self]
        rcases h with ⟨hseconds, -⟩ | ⟨d, n, -, -, hd, hpos, -⟩
        · exact ⟨s.polls p, rfl, hseconds⟩
        · omega
      · rename_i htics
        simp only [setPoller_polls, setPoller_seconds, setPoller_poller]
        rcases h with ⟨-, hzero⟩ | ⟨d, n, hpolls, hseconds, hd, -, hlt⟩
        · exact absurd hzero htics
        · exact ⟨d, n, hpolls, hseconds, hd, hlt⟩
  | polling left =>
    rw [hp] at h
    cases left with
    | ret a =>
      obtain ⟨n, hpolls, hseconds⟩ := h
      simp only [setPoller_polls, setPoller_seconds, setPoller_poller]
      exact ⟨0, n, hpolls, hseconds, rfl, one_le_period⟩
    | raise e =>
      simp only [setPoller_polls, setPoller_seconds, setPoller_poller]
      exact hbounds
    | act o next =>
      simp only [setPoller_polls, setPoller_seconds, setPoller_poller]
      exact h
  | sleeping tics =>
    rw [hp] at h
    simpa only [setPoller_polls, setPoller_seconds, setPoller_poller, Function.update_self]
      using onTime_wake h
  | leaving left =>
    cases left <;> simp only [setPoller_polls, setPoller_seconds, setPoller_poller] <;>
      exact hbounds

/-- Only the pollers and their counts matter. -/
theorem AllOnTime.of_eq {s' : Service} (h : AllOnTime cfg s) (hpolls : s'.polls = s.polls)
    (hseconds : s'.seconds = s.seconds) (hpoller : s'.poller = s.poller) : AllOnTime cfg s' := by
  rw [AllOnTime, hpolls, hseconds, hpoller]
  exact h

/-- **One turn.** -/
theorem AllOnTime.advance (h : AllOnTime cfg s) (horder : s.InOrder) (t : Turn) :
    AllOnTime cfg (advance cfg answers t s) := by
  cases t with
  | poller p =>
    intro q
    show OnTime cfg q ((advancePoller cfg answers p s).polls q)
      ((advancePoller cfg answers p s).seconds q) ((advancePoller cfg answers p s).poller q)
    by_cases hqp : q = p
    · subst hqp
      exact onTime_advancePoller (h q)
    · obtain ⟨hpolls, hseconds⟩ := counts_of_ne cfg answers s hqp
      rw [hpolls, hseconds, (sameBut_advancePoller cfg answers p s).poller q hqp]
      exact h q
  | server request =>
    have hsame := sameBut_advanceServer cfg request s
    exact h.of_eq hsame.polls hsame.seconds hsame.poller
  | signal =>
    show AllOnTime cfg (signal cfg answers s)
    rcases signal_cases cfg answers s with ⟨hsame, -⟩ | ⟨-, hsignal⟩ | hsignal
    · rwa [hsame]
    · rw [hsignal]
      exact h.of_eq rfl rfl rfl
    · rw [hsignal]
      exact h.of_eq rfl rfl rfl
  | main =>
    have heffect := mainEffect_advanceMain cfg answers s
    rcases heffect.poller with hsame | ⟨p, threads, hmain, hnew⟩
    · exact h.of_eq heffect.polls heffect.seconds hsame
    · -- a poller that is started has not polled or slept
      intro q
      show OnTime cfg q ((advanceMain cfg answers s).polls q)
        ((advanceMain cfg answers s).seconds q) ((advanceMain cfg answers s).poller q)
      rw [heffect.polls, heffect.seconds, hnew]
      by_cases hqp : q = p
      · subst hqp
        rw [InOrder, hmain] at horder
        have hnot := h q
        rw [horder.2 q List.mem_cons_self] at hnot
        rw [Function.update_self]
        exact .inl ⟨by rw [hnot.1, hnot.2, Nat.mul_zero], rfl⟩
      · rw [Function.update_of_ne hqp]
        exact h q

/-- **The cadence of the polls.** In every run, while a poller is busy with its poll number `n + 1`,
it has slept exactly `n` times the larger of one second and its interval, so that the polls begin at
a fixed distance in seconds of sleep; and at any time it has slept no longer than its next poll
allows. -/
theorem polls_on_time (cfg : ServiceConfig) (answers : ServiceAnswers) (st : State)
    (schedule : List Turn) (p : Poller) :
    let s := run cfg answers schedule (initial st)
    (∀ left, s.poller p = .polling left →
      ∃ n, s.polls p = n + 1 ∧ s.seconds p = period cfg p * n) ∧
    period cfg p * (s.polls p - 1) ≤ s.seconds p ∧ s.seconds p ≤ period cfg p * s.polls p := by
  intro s
  have h : AllOnTime cfg s := by
    have hinitial : (initial st).InOrder ∧ AllOnTime cfg (initial st) :=
      ⟨⟨rfl, fun _ ↦ rfl⟩, fun _ ↦ ⟨rfl, rfl⟩⟩
    exact (run_induction (I := fun s : Service ↦ s.InOrder ∧ AllOnTime cfg s)
      (T := fun _ ↦ True) (fun t s _ h ↦ ⟨inOrder_advance h.1 t, h.2.advance h.1 t⟩)
      (fun _ _ ↦ trivial) hinitial).2
  refine ⟨fun left hp ↦ ?_, (h p).bounds⟩
  have hpolling := h p
  rwa [hp] at hpolling

end DynamicTorque.Service
