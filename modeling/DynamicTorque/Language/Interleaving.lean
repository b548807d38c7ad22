import DynamicTorque.Language.Program
import Mathlib.Data.List.Induction
import Mathlib.Logic.Function.Basic

/-!
# Interleavings of programs

Several threads share a state. Each has calls to make, one after another, and a schedule says whose
turn it is: at its turn a thread performs one operation of the call in progress, or leaves a call
that has returned or raised. A call keeps a log of what has happened to the shared state since the
one before it ended, with a mark at its own operations.

A `Discipline` is an automaton over the operations of a program. Its states say what a program knows
of the shared state; `Program.Obeys` reads the tree, and says that the program performs only what
the discipline allows at what it knows then. `Rules` says what the knowledge means: an operation
that is allowed keeps the invariant and gives the knowledge that the discipline claims, and it
leaves intact what the other threads know. The rules make an invariant of every run
(`Rules.fine_of_run`).

Nothing here depends on a program, a set of operations or a type of states.
-/

namespace Atomic

variable {ι C Op : Type} {Reply : Op → Type} {ε σ κ α β : Type}

/-! ### Disciplines -/

/-- What a program may do that knows `k`, what the operations may reply and raise, and what the
program knows after that. -/
structure Discipline (Op : Type) (Reply : Op → Type) (ε κ : Type) where
  allows : κ → Op → Prop
  replies : (o : Op) → Reply o → Prop
  raises : Op → ε → Prop
  after : κ → (o : Op) → Except ε (Reply o) → κ

/-- The operations in `P` are allowed to a program whose knowledge satisfies `J`, do not raise, and
leave `J` true. -/
def Discipline.Preserves (D : Discipline Op Reply ε κ) (P : Op → Prop) (J : κ → Prop) : Prop :=
  ∀ o, P o → ∀ k, J k → D.allows k o ∧ (∀ e, ¬D.raises o e) ∧ ∀ r, J (D.after k o (.ok r))

namespace Program

variable {D : Discipline Op Reply ε κ} {Φ Φ' : α → κ → Prop} {Ψ : β → κ → Prop}
  {Ε Ε' : ε → κ → Prop} {k : κ}

/-- A program that knows `k` keeps to the discipline. It returns in `Φ` or raises in `Ε`. -/
def Obeys (D : Discipline Op Reply ε κ) (Φ : α → κ → Prop) (Ε : ε → κ → Prop) :
    Program Op Reply ε α → κ → Prop
  | ret a, k => Φ a k
  | raise e, k => Ε e k
  | act o next, k => D.allows k o ∧ (∀ e, D.raises o e → Ε e (D.after k o (.error e))) ∧
    ∀ r, D.replies o r → (next r).Obeys D Φ Ε (D.after k o (.ok r))

/-- **Consequence.** -/
theorem Obeys.mono {p : Program Op Reply ε α} (h : p.Obeys D Φ Ε k) (hΦ : ∀ a k, Φ a k → Φ' a k)
    (hΕ : ∀ e k, Ε e k → Ε' e k) : p.Obeys D Φ' Ε' k := by
  induction p generalizing k with
  | ret a => exact hΦ a k h
  | raise e => exact hΕ e k h
  | act o next ih =>
    obtain ⟨hallows, hraises, hnext⟩ := h
    exact ⟨hallows, fun e he ↦ hΕ e _ (hraises e he), fun r hr ↦ ih r (hnext r hr)⟩

/-- **Sequencing.** -/
theorem Obeys.bind {p : Program Op Reply ε α} {f : α → Program Op Reply ε β}
    (h : p.Obeys D Φ Ε k) (hf : ∀ a k, Φ a k → (f a).Obeys D Ψ Ε k) :
    (p >>= f).Obeys D Ψ Ε k := by
  induction p generalizing k with
  | ret a => exact hf a k h
  | raise e => exact h
  | act o next ih =>
    obtain ⟨hallows, hraises, hnext⟩ := h
    exact ⟨hallows, hraises, fun r hr ↦ ih r (hnext r hr)⟩

/-- One operation, then the rest. -/
theorem Obeys.step {o : Op} {f : Reply o → Program Op Reply ε α} (hallows : D.allows k o)
    (hraises : ∀ e, D.raises o e → Ε e (D.after k o (.error e)))
    (hf : ∀ r, D.replies o r → (f r).Obeys D Φ Ε (D.after k o (.ok r))) :
    (perform o >>= f).Obeys D Φ Ε k :=
  ⟨hallows, hraises, hf⟩

/-- Operations that are allowed under an assertion about what the program knows, and keep it. -/
theorem Within.obeys_of_kept {P : Op → Prop} {J : κ → Prop} {Φ₀ : α → Prop} {Ε₀ : ε → Prop}
    {p : Program Op Reply ε α} (h : p.Within P Φ₀ Ε₀) (hallows : ∀ k o, P o → J k → D.allows k o)
    (hafter : ∀ k o r, P o → J k → J (D.after k o (.ok r))) (hk : J k) :
    p.Obeys D (fun _ ↦ J) (fun _ _ ↦ True) k := by
  induction p generalizing k with
  | ret a => exact hk
  | raise e => trivial
  | act o next ih =>
    exact ⟨hallows k o h.1 hk, fun _ _ ↦ trivial, fun r _ ↦ ih r (h.2 r) (hafter k o r h.1 hk)⟩

/-- Operations that are allowed whatever the program knows, where the outcome does not matter. -/
theorem Within.obeys_of_forall {P : Op → Prop} {Φ₀ : α → Prop} {Ε₀ : ε → Prop}
    {p : Program Op Reply ε α} (h : p.Within P Φ₀ Ε₀) (hallows : ∀ k o, P o → D.allows k o)
    (k : κ) : p.Obeys D (fun _ _ ↦ True) (fun _ _ ↦ True) k :=
  h.obeys_of_kept (J := fun _ ↦ True) (fun k o ho _ ↦ hallows k o ho) (fun _ _ _ _ _ ↦ trivial)
    trivial

/-- Only operations that preserve an assertion about what the program knows. -/
theorem Within.obeys {P : Op → Prop} {J : κ → Prop} {Φ₀ : α → Prop} {Ε₀ : ε → Prop}
    {p : Program Op Reply ε α} (h : p.Within P Φ₀ Ε₀) (hpreserves : D.Preserves P J) (hk : J k)
    (hΦ : ∀ a k, Φ₀ a → J k → Φ a k) (hΕ : ∀ e k, Ε₀ e → J k → Ε e k) : p.Obeys D Φ Ε k := by
  induction p generalizing k with
  | ret a => exact hΦ a k h hk
  | raise e => exact hΕ e k h hk
  | act o next ih =>
    obtain ⟨hallows, hraises, hafter⟩ := hpreserves o h.1 k hk
    exact ⟨hallows, fun e he ↦ absurd he (hraises e), fun r _ ↦ ih r (h.2 r) (hafter r)⟩

/-- Operations that preserve an assertion come first. -/
theorem Within.obeys_bind {P : Op → Prop} {J : κ → Prop} {Φ₀ : α → Prop} {Ε₀ : ε → Prop}
    {p : Program Op Reply ε α} {f : α → Program Op Reply ε β} (h : p.Within P Φ₀ Ε₀)
    (hpreserves : D.Preserves P J) (hk : J k)
    (hf : ∀ a k, Φ₀ a → J k → (f a).Obeys D Ψ Ε k) (hΕ : ∀ e k, Ε₀ e → J k → Ε e k) :
    (p >>= f).Obeys D Ψ Ε k := by
  have hp : p.Obeys D (fun a k ↦ Φ₀ a ∧ J k) Ε k :=
    h.obeys hpreserves hk (fun _ _ ha hk ↦ ⟨ha, hk⟩) hΕ
  exact hp.bind fun a k ha ↦ hf a k ha.1 ha.2

theorem obeys_lift {x : Except ε α} (hΦ : ∀ a, x = .ok a → Φ a k)
    (hΕ : ∀ e, x = .error e → Ε e k) : (lift x : Program Op Reply ε α).Obeys D Φ Ε k := by
  cases x with
  | ok a => exact hΦ a rfl
  | error e => exact hΕ e rfl

theorem obeys_when {c : Prop} [Decidable c] {p : Program Op Reply ε Unit}
    {Φ : Unit → κ → Prop} (h : c → p.Obeys D Φ Ε k) (hskip : ¬c → Φ () k) :
    (when c p).Obeys D Φ Ε k := by
  rw [when]
  split
  · rename_i hc
    exact h hc
  · rename_i hc
    exact hskip hc

/-- **Loops.** `I done acc k` is the invariant after the elements `done`. -/
theorem obeys_forEach {τ : Type} {body : ℕ → β → τ → Program Op Reply ε τ}
    {I : List β → τ → κ → Prop} {xs : List β}
    (step : ∀ done x rest acc k, done ++ x :: rest = xs → I done acc k →
      (body done.length x acc).Obeys D (I (done ++ [x])) Ε k) {acc : τ} (init : I [] acc k) :
    (forEach body 0 xs acc).Obeys D (I xs) Ε k := by
  suffices h : ∀ rest done acc k, done ++ rest = xs → I done acc k →
      (forEach body done.length rest acc).Obeys D (I xs) Ε k from h xs [] acc k rfl init
  intro rest
  induction rest with
  | nil =>
    intro done acc k hxs hI
    obtain rfl : done = xs := by simpa using hxs
    exact hI
  | cons x rest ih =>
    intro done acc k hxs hI
    refine (step done x rest acc k hxs hI).bind fun acc' k' hI' ↦ ?_
    have hlength : done.length + 1 = (done ++ [x]).length := by simp
    rw [hlength]
    exact ih (done ++ [x]) acc' k' (by simpa using hxs) hI'

end Program

/-! ### Pools of threads -/

/-- An operation that was performed while a call was in progress, and whether the call did it. -/
structure Entry (Op σ : Type) where
  own : Bool
  op : Op
  before : σ
  after : σ

/-- A call: its name, what is left of it, and its log. -/
structure Call (C Op : Type) (Reply : Op → Type) (ε σ : Type) where
  name : C
  left : Program Op Reply ε Unit
  log : List (Entry Op σ)

/-- The shared state, and the calls of each thread from the one in progress on. -/
structure Pool (ι C Op : Type) (Reply : Op → Type) (ε σ : Type) where
  shared : σ
  threads : ι → List (Call C Op Reply ε σ)

/-- A call at its beginning. -/
def Call.begin (program : C → Program Op Reply ε Unit) (c : C) : Call C Op Reply ε σ :=
  ⟨c, program c, []⟩

/-- Whether there is nothing left of a call but its outcome. -/
def Call.Over (call : Call C Op Reply ε σ) : Prop :=
  ∀ o next, call.left ≠ .act o next

/-- The calls of a thread after an operation of another thread. -/
def notice (e : Entry Op σ) : List (Call C Op Reply ε σ) → List (Call C Op Reply ε σ)
  | [] => []
  | call :: calls => { call with log := call.log ++ [e] } :: calls

namespace Pool

/-- The pool in which no call has begun. -/
def start (program : C → Program Op Reply ε Unit) (calls : ι → List C) (s : σ) :
    Pool ι C Op Reply ε σ :=
  ⟨s, fun i ↦ (calls i).map (Call.begin program)⟩

/-- The turn of thread `i` meets a condition on the log of the call, the operation that is due
and the shared state. -/
def Meets (cond : ι → List (Entry Op σ) → Op → σ → Prop) (i : ι)
    (pool : Pool ι C Op Reply ε σ) : Prop :=
  ∀ call calls o next, pool.threads i = call :: calls → call.left = .act o next →
    cond i call.log o pool.shared

theorem meets_of_next {pool : Pool ι C Op Reply ε σ} {i : ι} {call : Call C Op Reply ε σ}
    {calls : List (Call C Op Reply ε σ)} {cond : ι → List (Entry Op σ) → Op → σ → Prop} {o : Op}
    {next : Reply o → Program Op Reply ε Unit} (h : pool.threads i = call :: calls)
    (hleft : call.left = .act o next) (hcond : cond i call.log o pool.shared) :
    pool.Meets cond i := by
  intro call' calls' o' next' h' hleft'
  obtain ⟨rfl, -⟩ := List.cons.inj (h.symm.trans h')
  obtain ⟨rfl, -⟩ := Program.act.inj (hleft.symm.trans hleft')
  exact hcond

variable [DecidableEq ι] (exec : (o : Op) → EStateM ε σ (Reply o))

/-- The pool after a call of thread `i` has performed `o`, and `left` is left of the call. -/
def performed (pool : Pool ι C Op Reply ε σ) (i : ι) (call : Call C Op Reply ε σ)
    (calls : List (Call C Op Reply ε σ)) (o : Op) (left : Program Op Reply ε Unit) (after : σ) :
    Pool ι C Op Reply ε σ where
  shared := after
  threads := fun j ↦
    if j = i then ⟨call.name, left, call.log ++ [⟨true, o, pool.shared, after⟩]⟩ :: calls
    else notice ⟨false, o, pool.shared, after⟩ (pool.threads j)

/-- One turn of thread `i`. -/
def advance (i : ι) (pool : Pool ι C Op Reply ε σ) : Pool ι C Op Reply ε σ :=
  match pool.threads i with
  | [] => pool
  | call :: calls =>
    match call.left with
    | .ret _ | .raise _ => { pool with threads := Function.update pool.threads i calls }
    | .act o next =>
      match exec o pool.shared with
      | .ok r s => pool.performed i call calls o (next r) s
      | .error e s => pool.performed i call calls o (.raise e) s

/-- The pool after the turns of a schedule. -/
def run (schedule : List ι) (pool : Pool ι C Op Reply ε σ) : Pool ι C Op Reply ε σ :=
  schedule.foldl (fun pool i ↦ pool.advance exec i) pool

/-- Every turn of a schedule meets a condition. -/
def Turns (cond : ι → List (Entry Op σ) → Op → σ → Prop) :
    List ι → Pool ι C Op Reply ε σ → Prop
  | [], _ => True
  | i :: schedule, pool => pool.Meets cond i ∧ Turns cond schedule (pool.advance exec i)

variable {exec} {pool : Pool ι C Op Reply ε σ} {i : ι} {call : Call C Op Reply ε σ}
  {calls : List (Call C Op Reply ε σ)}

/-- Whether a turn meets a condition that can be decided. -/
instance decidableMeets {cond : ι → List (Entry Op σ) → Op → σ → Prop}
    [∀ i log o s, Decidable (cond i log o s)] (i : ι) (pool : Pool ι C Op Reply ε σ) :
    Decidable (pool.Meets cond i) :=
  match hthread : pool.threads i with
  | [] => isTrue fun _ _ _ _ h ↦ absurd (hthread.symm.trans h) (List.cons_ne_nil _ _).symm
  | call :: calls =>
    match hleft : call.left with
    | .act o next =>
      decidable_of_iff (cond i call.log o pool.shared)
        ⟨meets_of_next hthread hleft, fun h ↦ h call calls o next hthread hleft⟩
    | .ret a => isTrue fun _ _ _ _ h hact ↦ by
        rw [← (List.cons.inj (hthread.symm.trans h)).1, hleft] at hact
        cases hact
    | .raise e => isTrue fun _ _ _ _ h hact ↦ by
        rw [← (List.cons.inj (hthread.symm.trans h)).1, hleft] at hact
        cases hact

/-- Whether the turns of a schedule do. -/
instance decidableTurns {cond : ι → List (Entry Op σ) → Op → σ → Prop}
    [∀ i log o s, Decidable (cond i log o s)] :
    ∀ (schedule : List ι) (pool : Pool ι C Op Reply ε σ), Decidable (pool.Turns exec cond schedule)
  | [], _ => inferInstanceAs (Decidable True)
  | i :: schedule, pool =>
    @instDecidableAnd _ _ (decidableMeets i pool) (decidableTurns schedule (pool.advance exec i))

/-- The turns of a schedule one after another. -/
theorem meets_of_turns {cond : ι → List (Entry Op σ) → Op → σ → Prop} {schedule : List ι}
    (h : pool.Turns exec cond schedule) : ∀ before i after, schedule = before ++ i :: after →
      (pool.run exec before).Meets cond i := by
  intro before
  induction before generalizing schedule pool with
  | nil =>
    rintro i after rfl
    exact h.1
  | cons j before ih =>
    rintro i after rfl
    exact ih h.2 i after rfl

theorem advance_nil (h : pool.threads i = []) : pool.advance exec i = pool := by
  rw [advance, h]

theorem advance_over (h : pool.threads i = call :: calls) (hover : call.Over) :
    pool.advance exec i = { pool with threads := Function.update pool.threads i calls } := by
  rw [advance, h]
  cases hleft : call.left with
  | act o next => exact absurd hleft (hover o next)
  | ret a => simp only [hleft]
  | raise e => simp only [hleft]

/-- **A turn.** What holds of the pool after a turn, from what the operation does. -/
theorem of_performed {P : Pool ι C Op Reply ε σ → Prop} {o : Op}
    {next : Reply o → Program Op Reply ε Unit} (h : pool.threads i = call :: calls)
    (hleft : call.left = .act o next)
    (hends : Ends (exec o) pool.shared (fun r s ↦ P (pool.performed i call calls o (next r) s))
      fun e s ↦ P (pool.performed i call calls o (.raise e) s)) : P (pool.advance exec i) := by
  rw [advance, h]
  simp only [hleft]
  rw [Ends] at hends
  split at hends <;> simp only [*]

end Pool

/-! ### Calls up to their logs -/

/-- The calls of a thread, without their logs. -/
def bare (calls : List (Call C Op Reply ε σ)) : List (C × Program Op Reply ε Unit) :=
  calls.map fun call ↦ (call.name, call.left)

@[simp] theorem bare_notice (e : Entry Op σ) (calls : List (Call C Op Reply ε σ)) :
    bare (notice e calls) = bare calls := by
  cases calls <;> rfl

@[simp] theorem bare_begin (program : C → Program Op Reply ε Unit) (names : List C) :
    bare (names.map (Call.begin program) : List (Call C Op Reply ε σ)) =
      names.map fun c ↦ (c, program c) := by
  simp [bare, Call.begin]

theorem exists_of_bare_eq_cons {calls : List (Call C Op Reply ε σ)} {c : C}
    {left : Program Op Reply ε Unit} {rest : List (C × Program Op Reply ε Unit)}
    (h : bare calls = (c, left) :: rest) :
    ∃ log tail, calls = ⟨c, left, log⟩ :: tail ∧ bare tail = rest := by
  rcases calls with _ | ⟨⟨name, left', log⟩, tail⟩
  · cases h
  · obtain ⟨hcall, rfl⟩ := List.cons.inj h
    obtain ⟨rfl, rfl⟩ := Prod.mk.inj hcall
    exact ⟨log, tail, rfl, rfl⟩

namespace Pool

variable [DecidableEq ι] {exec : (o : Op) → EStateM ε σ (Reply o)} {pool : Pool ι C Op Reply ε σ}
  {i : ι} {c : C} {rest : List (C × Program Op Reply ε Unit)}

variable (exec) in
/-- A turn of a call that has an operation to perform. -/
theorem bare_advance_act {o : Op} {next : Reply o → Program Op Reply ε Unit}
    (h : bare (pool.threads i) = (c, .act o next) :: rest) :
    (pool.advance exec i).shared = ((Program.act o next).turn exec pool.shared).2 ∧
    ∀ j, bare ((pool.advance exec i).threads j) =
      if j = i then (c, ((Program.act o next).turn exec pool.shared).1) :: rest
      else bare (pool.threads j) := by
  obtain ⟨log, tail, hthread, rfl⟩ := exists_of_bare_eq_cons h
  have hperformed : ∀ left after, ∀ j, bare ((pool.performed i ⟨c, .act o next, log⟩ tail o left
      after).threads j) = if j = i then (c, left) :: bare tail else bare (pool.threads j) := by
    intro left after j
    by_cases hj : j = i
    · simp only [performed, hj, if_true]
      rfl
    · simp only [performed, hj, if_false, bare_notice]
  rw [advance, hthread]
  cases hexec : exec o pool.shared <;> simp only [Program.turn, hexec] <;>
    exact ⟨rfl, hperformed _ _⟩

variable (exec) in
/-- A turn of a call that is over. -/
theorem bare_advance_over {left : Program Op Reply ε Unit}
    (h : bare (pool.threads i) = (c, left) :: rest) (hover : ∀ o next, left ≠ .act o next) :
    (pool.advance exec i).shared = pool.shared ∧
    ∀ j, bare ((pool.advance exec i).threads j) =
      if j = i then rest else bare (pool.threads j) := by
  obtain ⟨log, tail, hthread, rfl⟩ := exists_of_bare_eq_cons h
  rw [advance_over hthread hover]
  refine ⟨rfl, fun j ↦ ?_⟩
  by_cases hj : j = i
  · simp only [hj, Function.update_self, if_true]
  · simp only [Function.update_of_ne hj, hj, if_false]

theorem run_append (before after : List ι) :
    pool.run exec (before ++ after) = (pool.run exec before).run exec after :=
  List.foldl_append

end Pool

/-! ### Threads that keep to their disciplines -/

section Fine

/-- The call of a thread that knows `k` keeps to the thread's discipline. -/
def Call.ObeysAt (D : ι → Discipline Op Reply ε κ) (Φ : C → κ → Prop) (Ε : C → ε → κ → Prop)
    (i : ι) (call : Call C Op Reply ε σ) (k : κ) : Prop :=
  call.left.Obeys (D i) (fun _ ↦ Φ call.name) (Ε call.name) k

/-- The state of a thread: the call in progress keeps to the discipline with what is known then,
and the calls after it have not begun. -/
def Fine (D : ι → Discipline Op Reply ε κ) (K : ι → κ → List (Entry Op σ) → σ → Prop) (k₀ : κ)
    (Φ : C → κ → Prop) (Ε : C → ε → κ → Prop) (s : σ) (i : ι) :
    List (Call C Op Reply ε σ) → Prop
  | [] => True
  | call :: calls => (∃ k, call.ObeysAt D Φ Ε i k ∧ K i k call.log s) ∧
    ∀ c ∈ calls, c.log = [] ∧ c.ObeysAt D Φ Ε i k₀

/-- The invariant of a pool. -/
structure Pool.Fine (D : ι → Discipline Op Reply ε κ) (I : σ → Prop)
    (K : ι → κ → List (Entry Op σ) → σ → Prop) (k₀ : κ) (Φ : C → κ → Prop) (Ε : C → ε → κ → Prop)
    (pool : Pool ι C Op Reply ε σ) : Prop where
  shared : I pool.shared
  thread : ∀ i, Atomic.Fine D K k₀ Φ Ε pool.shared i (pool.threads i)

variable {D : ι → Discipline Op Reply ε κ} {I : σ → Prop}
  {K : ι → κ → List (Entry Op σ) → σ → Prop} {k₀ : κ} {Φ : C → κ → Prop} {Ε : C → ε → κ → Prop}
  {i : ι}

/-- A thread that knows what every call begins with. -/
theorem Fine.of_not_begun {s : σ} {calls : List (Call C Op Reply ε σ)} (hknows : K i k₀ [] s)
    (hcalls : ∀ c ∈ calls, c.log = [] ∧ c.ObeysAt D Φ Ε i k₀) : Fine D K k₀ Φ Ε s i calls := by
  rcases calls with _ | ⟨call, calls⟩
  · trivial
  · obtain ⟨hlog, hobeys⟩ := hcalls call List.mem_cons_self
    exact ⟨⟨k₀, hobeys, hlog ▸ hknows⟩, fun c hc ↦ hcalls c (List.mem_cons_of_mem _ hc)⟩

/-- A thread keeps what it knows when another thread performs an operation. -/
theorem Fine.notice {s s' : σ} {e : Entry Op σ} {calls : List (Call C Op Reply ε σ)}
    (h : Fine D K k₀ Φ Ε s i calls) (hknows : ∀ k log, K i k log s → K i k (log ++ [e]) s') :
    Fine D K k₀ Φ Ε s' i (notice e calls) := by
  rcases calls with _ | ⟨call, calls⟩
  · trivial
  · obtain ⟨⟨k, hobeys, hk⟩, hcalls⟩ := h
    exact ⟨⟨k, hobeys, hknows k _ hk⟩, hcalls⟩

/-- The pool in which no call has begun. -/
theorem Pool.fine_start {program : C → Program Op Reply ε Unit} {calls : ι → List C} {s : σ}
    (hI : I s) (hknows : ∀ i, K i k₀ [] s)
    (hobeys : ∀ i, ∀ c ∈ calls i, (program c).Obeys (D i) (fun _ ↦ Φ c) (Ε c) k₀) :
    (Pool.start program calls s : Pool ι C Op Reply ε σ).Fine D I K k₀ Φ Ε := by
  refine ⟨hI, fun i ↦ .of_not_begun (hknows i) fun call hcall ↦ ?_⟩
  obtain ⟨c, hc, rfl⟩ := List.mem_map.1 hcall
  exact ⟨rfl, hobeys i c hc⟩

/-- **Calls in progress.** What is left of a call keeps to the discipline with what its thread
knows. -/
theorem Pool.Fine.call {pool : Pool ι C Op Reply ε σ} (h : pool.Fine D I K k₀ Φ Ε)
    {call : Call C Op Reply ε σ} {calls : List (Call C Op Reply ε σ)}
    (hthread : pool.threads i = call :: calls) :
    ∃ k, call.ObeysAt D Φ Ε i k ∧ K i k call.log pool.shared := by
  have hfine := h.thread i
  rw [hthread] at hfine
  exact hfine.1

end Fine

/-! ### Rules -/

/-- What the knowledge of disciplines means. -/
structure Rules (exec : (o : Op) → EStateM ε σ (Reply o)) (D : ι → Discipline Op Reply ε κ)
    (I : σ → Prop) (K : ι → κ → List (Entry Op σ) → σ → Prop) (k₀ : κ)
    (cond : ι → List (Entry Op σ) → Op → σ → Prop) : Prop where
  /-- The thread that performs an operation. -/
  perform : ∀ {i k log o s}, I s → K i k log s → (D i).allows k o → cond i log o s →
    Ends (exec o) s
      (fun r s' ↦ I s' ∧ (D i).replies o r ∧
        K i ((D i).after k o (.ok r)) (log ++ [⟨true, o, s, s'⟩]) s')
      fun e s' ↦ I s' ∧ (D i).raises o e ∧
        K i ((D i).after k o (.error e)) (log ++ [⟨true, o, s, s'⟩]) s'
  /-- The other threads. -/
  interfere : ∀ {i j k k' log log' o s}, j ≠ i → I s → K i k log s → (D i).allows k o →
    cond i log o s → K j k' log' s →
      Ends (exec o) s (fun _ s' ↦ K j k' (log' ++ [⟨false, o, s, s'⟩]) s')
        fun _ s' ↦ K j k' (log' ++ [⟨false, o, s, s'⟩]) s'
  /-- The next call of a thread. -/
  start : ∀ i s, I s → K i k₀ [] s

namespace Rules

variable [DecidableEq ι] {exec : (o : Op) → EStateM ε σ (Reply o)}
  {D : ι → Discipline Op Reply ε κ} {I : σ → Prop} {K : ι → κ → List (Entry Op σ) → σ → Prop}
  {k₀ : κ} {cond : ι → List (Entry Op σ) → Op → σ → Prop} {Φ : C → κ → Prop}
  {Ε : C → ε → κ → Prop} {pool : Pool ι C Op Reply ε σ} {i : ι}

/-- **One turn.** -/
theorem fine_advance (rules : Rules exec D I K k₀ cond) (h : pool.Fine D I K k₀ Φ Ε)
    (hmeets : pool.Meets cond i) : (pool.advance exec i).Fine D I K k₀ Φ Ε := by
  obtain ⟨hI, hfine⟩ := h
  have hi := hfine i
  rcases hthread : pool.threads i with _ | ⟨call, calls⟩
  · rw [Pool.advance_nil hthread]
    exact ⟨hI, hfine⟩
  rw [hthread] at hi
  obtain ⟨⟨k, hobeys, hknows⟩, hcalls⟩ := hi
  -- a call that is over makes way for the next one
  have hleave : call.Over → (pool.advance exec i).Fine D I K k₀ Φ Ε := by
    intro hover
    rw [Pool.advance_over hthread hover]
    refine ⟨hI, fun j ↦ ?_⟩
    by_cases hj : j = i
    · subst hj
      simpa using Fine.of_not_begun (rules.start j _ hI) hcalls
    · simpa [hj] using hfine j
  cases hleft : call.left with
  | ret a => exact hleave fun o next h ↦ by simp [hleft] at h
  | raise e => exact hleave fun o next h ↦ by simp [hleft] at h
  | act o next =>
    rw [Call.ObeysAt, hleft] at hobeys
    obtain ⟨hallows, hraises, hnext⟩ := hobeys
    have hcond : cond i call.log o pool.shared := hmeets call calls o next hthread hleft
    -- the pool is fine if the thread is, and the others keep what they know
    have hpool : ∀ s' left, I s' → (∀ j, j ≠ i → ∀ k' log', K j k' log' pool.shared →
        K j k' (log' ++ [⟨false, o, pool.shared, s'⟩]) s') →
          Atomic.Fine D K k₀ Φ Ε s' i
            (⟨call.name, left, call.log ++ [⟨true, o, pool.shared, s'⟩]⟩ :: calls) →
          (pool.performed i call calls o left s').Fine D I K k₀ Φ Ε := by
      intro s' left hI' hstable hown
      refine ⟨hI', fun j ↦ ?_⟩
      rw [Pool.performed]
      by_cases hj : j = i
      · subst hj
        simpa using hown
      · simpa [hj] using (hfine j).notice (hstable j hj)
    have hperform := (rules.perform hI hknows hallows hcond).and
      (ends_forall fun j ↦ ends_forall fun hj : j ≠ i ↦ ends_forall fun k' ↦
        ends_forall fun log' ↦ ends_forall fun hk' : K j k' log' pool.shared ↦
          rules.interfere hj hI hknows hallows hcond hk')
    refine Pool.of_performed hthread hleft (hperform.mono ?_ ?_)
    · intro r s' h
      obtain ⟨⟨hI', hr, hknows'⟩, hstable⟩ := h
      exact hpool s' _ hI' hstable ⟨⟨_, hnext r hr, hknows'⟩, hcalls⟩
    · intro e s' h
      obtain ⟨⟨hI', he, hknows'⟩, hstable⟩ := h
      exact hpool s' _ hI' hstable ⟨⟨_, hraises e he, hknows'⟩, hcalls⟩

/-- **Every run.** If every turn meets the condition, the invariant holds after every one. -/
theorem fine_of_run (rules : Rules exec D I K k₀ cond) (h : pool.Fine D I K k₀ Φ Ε)
    (schedule : List ι)
    (hmeets : ∀ before i after, schedule = before ++ i :: after →
      (pool.run exec before).Meets cond i) :
    ∀ before after, schedule = before ++ after →
      (pool.run exec before).Fine D I K k₀ Φ Ε := by
  intro before
  induction before using List.reverseRecOn with
  | nil => exact fun _ _ ↦ h
  | append_singleton before i ih =>
    intro after hschedule
    have hsplit : schedule = before ++ i :: after := by simpa using hschedule
    have hrun : pool.run exec (before ++ [i]) = (pool.run exec before).advance exec i := by
      simp [Pool.run]
    rw [hrun]
    exact rules.fine_advance (ih (i :: after) hsplit) (hmeets before i after hsplit)

end Rules

end Atomic
