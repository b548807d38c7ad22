import DynamicTorque.Service.Shutdown

/-!
# The watch over the pollers

Without a signal the main thread watches for ever, unless a poller ends by an exception; and once a
poller has ended, whatever the other threads do, the main thread leaves its watch within seven of
its own turns and drains the cluster.
-/

open Python Atomic Program

namespace DynamicTorque

/-- Whether the main thread has left its watch. -/
def MainState.pastWatch : MainState → Bool
  | .startingServer | .starting _ | .watching _ _ => false
  | _ => true

/-- A turn of the main thread. -/
def Turn.isMain : Turn → Bool
  | .main => true
  | _ => false

namespace Service

variable {cfg : ServiceConfig} {answers : ServiceAnswers} {s s' : Service} {p : Poller} {t : Turn}

/-! ### The cause -/

/-- A poller has ended by an exception. -/
def Raised (s : Service) : Prop :=
  ∃ p e, s.poller p = .ended (some e)

/-- Where the main thread has noticed that a poller has ended, it ended by an exception. -/
def Caused (s : Service) : Prop :=
  match s.main with
  | .startingServer | .starting _ => True
  | .watching _ die => die = true → s.Raised
  | _ => s.Raised

/-- A poller that has ended while the main thread watches has raised. -/
theorem Orderly.raised (h : s.Orderly) {threads : List Poller} {die : Bool}
    (hmain : s.main = .watching threads die) (hp : (s.poller p).isEnded = true) : s.Raised := by
  have hprepared := h.prepared
  rw [Prepared, hmain] at hprepared
  cases hstate : s.poller p with
  | ended r =>
    cases r with
    | some e => exact ⟨p, e, hstate⟩
    | none => exact absurd (h.ended p hstate) (by simp [hprepared.1 p])
  | _ =>
    rw [hstate] at hp
    cases hp

theorem Raised.advancePoller (h : s.Raised) (q : Poller) :
    (advancePoller cfg answers q s).Raised := by
  obtain ⟨p, e, hp⟩ := h
  refine ⟨p, e, ?_⟩
  by_cases hpq : p = q
  · subst hpq
    rw [advancePoller_isEnded (by rw [hp]; rfl), hp]
  · rw [(sameBut_advancePoller cfg answers q s).poller p hpq, hp]

/-- The cause is kept where the main thread is where it was. -/
theorem Caused.of_main (h : s.Caused) (hmain : s'.main = s.main) (hraised : s.Raised → s'.Raised) :
    s'.Caused := by
  rw [Caused] at h ⊢
  rw [hmain]
  cases hstate : s.main <;> simp only [hstate] at h ⊢ <;>
    first | exact hraised h | exact hraised ∘ h

/-- A turn of the main thread. -/
theorem Caused.advanceMain (hcaused : s.Caused) (h : s.Orderly) :
    (advanceMain cfg answers s).Caused := by
  have heffect := mainEffect_advanceMain cfg answers s
  rcases advanceMain_cases cfg answers s with ⟨hsame, -⟩ | hstep
  · rwa [hsame]
  · have hpoller : (∀ threads, s.main ≠ .starting threads) → s.Raised →
        (Service.advanceMain cfg answers s).Raised := by
      intro hnot hraised
      rcases heffect.poller with hsame | ⟨p, threads, hmain, -⟩
      · rwa [Raised, hsame]
      · exact absurd hmain (hnot _)
    rw [Caused] at hcaused
    rw [Caused]
    generalize hx : s.main = x at hstep hcaused hpoller
    generalize (Service.advanceMain cfg answers s).main = y at hstep
    cases hstep with
    | startServer => trivial
    | start => trivial
    | started => exact nofun
    | look p threads die =>
      intro hdie
      refine hpoller nofun ?_
      rcases Bool.or_eq_true_iff.1 hdie with hdie | hp
      · exact hcaused hdie
      · exact h.raised hx hp
    | again => exact nofun
    | force => exact hpoller nofun (hcaused rfl)
    | _ => exact hpoller nofun hcaused

/-- **Every run without signals.** -/
theorem caused_of_run {schedule : List Turn} (hsignal : ∀ t ∈ schedule, t ≠ .signal) (st : State) :
    (Service.run cfg answers schedule (initial st)).Caused := by
  refine (run_induction (I := fun s : Service ↦ s.Orderly ∧ s.Caused) (T := (· ≠ Turn.signal))
    (fun t s ht h ↦ ?_) hsignal ⟨orderly_initial st, trivial⟩).2
  obtain ⟨horderly, hcaused⟩ := h
  cases t with
  | signal => exact absurd rfl ht
  | main => exact ⟨horderly.advanceMain, hcaused.advanceMain horderly⟩
  | poller p =>
    exact ⟨horderly.advancePoller p,
      hcaused.of_main (sameBut_advancePoller cfg answers p s).main fun h ↦ h.advancePoller p⟩
  | server request =>
    have hsame := sameBut_advanceServer cfg request s
    exact ⟨horderly.advanceServer request,
      hcaused.of_main hsame.main fun ⟨p, e, hp⟩ ↦ ⟨p, e, hsame.poller ▸ hp⟩⟩

/-! ### The response -/

/-- How many of its own turns the main thread takes at most before it leaves its watch, when poller
`p` has ended. -/
def lookouts (p : Poller) : MainState → ℕ
  | .startingServer => 7
  | .starting threads => threads.length + 4
  | .watching threads die =>
    if die = true ∨ p ∈ threads then threads.length + 1 else threads.length + 4
  | _ => 0

/-- Each turn of the main thread brings it nearer to the end of its watch. -/
theorem lookouts_step {x y : MainState} (h : MainStep cfg answers s x y)
    (hp : (s.poller p).isEnded = true) : lookouts p y ≤ lookouts p x - 1 := by
  cases h with
  | startServer => exact Nat.le_refl _
  | start q threads =>
    show threads.length + 4 ≤ threads.length + 1 + 4 - 1
    omega
  | started =>
    show (if false = true ∨ p ∈ Poller.all then 3 else 6) ≤ 3
    rw [if_pos (.inr (mem_all p))]
  | look q threads die =>
    show (if (die || (s.poller q).isEnded) = true ∨ p ∈ threads then threads.length + 1
      else threads.length + 4) ≤ (if die = true ∨ p ∈ q :: threads then threads.length + 1 + 1
      else threads.length + 1 + 4) - 1
    by_cases hpq : p = q
    · subst hpq
      rw [if_pos (.inl (by rw [hp, Bool.or_true])), if_pos (.inr List.mem_cons_self)]
      omega
    · have hmem : p ∈ q :: threads ↔ p ∈ threads := by rw [List.mem_cons, or_iff_right hpq]
      simp only [hmem, Bool.or_eq_true]
      split <;> split <;> first | omega | tauto
  | again =>
    show (if false = true ∨ p ∈ Poller.all then 3 else 6) ≤ 3
    rw [if_pos (.inr (mem_all p))]
  | force => exact Nat.zero_le _
  | _ => exact Nat.le_refl _

/-- The main thread takes seven of its turns at most. -/
theorem lookouts_le (h : s.InOrder) : lookouts p s.main ≤ 7 := by
  rw [InOrder] at h
  cases hmain : s.main <;> simp only [hmain] at h
  case starting threads =>
    have hlength : threads.length ≤ 2 := h.1.length_le
    show threads.length + 4 ≤ 7
    omega
  case watching threads die =>
    have hlength : threads.length ≤ 2 := h.length_le
    rw [lookouts]
    split <;> omega
  case startingServer => exact Nat.le_refl _
  all_goals exact Nat.zero_le _

/-- With none of them to come it has left its watch. -/
theorem pastWatch_of_lookouts {x : MainState} (h : lookouts p x = 0) : x.pastWatch = true := by
  cases x with
  | watching threads die =>
    rw [lookouts] at h
    split at h <;> omega
  | _ => first | rfl | cases h

/-- A poller that has ended stays as it is. -/
theorem ended_advance (h : s.InOrder) (hp : (s.poller p).isEnded = true) (t : Turn) :
    ((advance cfg answers t s).poller p).isEnded = true := by
  cases t with
  | poller q =>
    refine (sameBut_advancePoller cfg answers q s).forall (P := (·.isEnded = true)) (fun hq ↦ ?_) hp
    rwa [advancePoller_isEnded hq]
  | server request =>
    show ((advanceServer cfg request s).poller p).isEnded = true
    rwa [(sameBut_advanceServer cfg request s).poller]
  | signal =>
    show ((Service.signal cfg answers s).poller p).isEnded = true
    rcases signal_cases cfg answers s with ⟨hsame, -⟩ | ⟨-, hsignal⟩ | hsignal
    · rwa [hsame]
    · rwa [hsignal]
    · rwa [hsignal]
  | main =>
    show ((Service.advanceMain cfg answers s).poller p).isEnded = true
    rcases (mainEffect_advanceMain cfg answers s).poller with
      hsame | ⟨q, threads, hmain, hnew⟩
    · rwa [hsame]
    · rw [InOrder, hmain] at h
      have hpq : p ≠ q := by
        rintro rfl
        rw [h.2 p List.mem_cons_self] at hp
        cases hp
      rwa [hnew, Function.update_of_ne hpq]

variable (cfg answers) in
/-- Each of its turns is one less to come. -/
theorem lookouts_advance (hp : (s.poller p).isEnded = true) (t : Turn) :
    lookouts p (advance cfg answers t s).main ≤
      lookouts p s.main - (if t.isMain then 1 else 0) := by
  cases t with
  | poller q => exact (congrArg (lookouts p) (sameBut_advancePoller cfg answers q s).main).le
  | server request =>
    exact (congrArg (lookouts p) (sameBut_advanceServer cfg request s).main).le
  | signal =>
    show lookouts p (Service.signal cfg answers s).main ≤ _
    rcases signal_cases cfg answers s with ⟨hsame, -⟩ | ⟨-, hsignal⟩ | hsignal
    · rw [hsame]
      exact Nat.le_refl _
    · rw [hsignal]
      exact Nat.zero_le _
    · rw [hsignal]
      exact Nat.zero_le _
  | main =>
    show lookouts p (Service.advanceMain cfg answers s).main ≤ lookouts p s.main - 1
    rcases advanceMain_cases cfg answers s with ⟨hsame, hwaits⟩ | hstep
    · rw [hsame]
      rw [MainWaits] at hwaits
      cases hmain : s.main <;> simp only [hmain] at hwaits <;> exact Nat.zero_le _
    · exact lookouts_step hstep hp

/-- The main thread is past its watch after enough of its own turns. -/
theorem pastWatch_of_count (h : s.InOrder) (hp : (s.poller p).isEnded = true) (more : List Turn)
    (hcount : lookouts p s.main ≤ more.countP Turn.isMain) :
    (Service.run cfg answers more s).main.pastWatch = true := by
  induction more generalizing s with
  | nil => exact pastWatch_of_lookouts (Nat.le_zero.1 hcount)
  | cons t more ih =>
    refine ih (inOrder_advance h t) (ended_advance h hp t) ?_
    have hadvance := lookouts_advance cfg answers hp t
    rw [List.countP_cons] at hcount
    show lookouts p (advance cfg answers t s).main ≤ _
    omega

/-- **Fail-stop.** In a run without a signal the main thread is past its watch only if a poller has
ended by an exception. Once a poller has ended, however it did and whatever the others do, the main
thread is past its watch after seven more of its own turns. -/
theorem watch_ends (cfg : ServiceConfig) (answers : ServiceAnswers) (st : State)
    (schedule : List Turn) :
    let s := Service.run cfg answers schedule (initial st)
    ((∀ t ∈ schedule, t ≠ .signal) → s.main.pastWatch = true → s.Raised) ∧
    ∀ p more, (s.poller p).isEnded = true → 7 ≤ more.countP Turn.isMain →
      (Service.run cfg answers more s).main.pastWatch = true := by
  intro s
  refine ⟨fun hsignal hpast ↦ ?_, fun p more hp hcount ↦ ?_⟩
  · have hcaused : s.Caused := caused_of_run hsignal st
    rw [Caused] at hcaused
    cases hmain : s.main <;> simp only [hmain] at hpast hcaused <;>
      first | exact hcaused | cases hpast
  · have h : s.InOrder := inOrder_of_run schedule st
    exact pastWatch_of_count h hp more ((lookouts_le h).trans hcount)

end Service

end DynamicTorque
