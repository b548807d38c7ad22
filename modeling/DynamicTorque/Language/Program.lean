import Mathlib.Data.List.Basic

/-!
# Programs of atomic steps

A program over shared state, written as the tree of its atomic steps: `act o next` performs the
operation `o` and goes on with `next` at whatever the operation replied. The tree fixes which
steps a program can take and leaves open what they do; a *handler* gives each operation a meaning
as a state transformer that may raise, and `run` executes a program without interruption. The same
tree can be executed one step at a time among the steps of other programs.

Three ways to reason about a program, for three kinds of property.

* `p.Within P Φ Ε` reads the tree only: every operation `p` can reach satisfies `P`, every value it
  can return satisfies `Φ` and every exception it can raise satisfies `Ε`, whatever the operations
  reply. Such a fact holds of any execution, interrupted or not.
* `p.turn` performs one operation of `p`. What is left of `p` `Follows` what was left before, and as
  programs are finite trees every program is accessible (`acc_follows`), however wide the tree is
  and whatever happens to the shared state between two turns.
* `Ends x s Q E` is a total statement about one uninterrupted execution: `x` started in `s`
  returns in `Q` or raises in `E`. `ends_run_of_within` passes from the first to the second.

Nothing here depends on a program, a set of operations or a type of states.
-/

namespace Atomic

/-! ### Executions -/

section Ends

variable {ε σ α β : Type}

/-- `x` started in `s` returns a value and a state in `Q`, or raises with a state in `E`. -/
def Ends (x : EStateM ε σ α) (s : σ) (Q : α → σ → Prop) (E : ε → σ → Prop) : Prop :=
  match x s with
  | .ok a s' => Q a s'
  | .error e s' => E e s'

variable {x : EStateM ε σ α} {f : α → EStateM ε σ β} {s : σ}

@[simp] theorem ends_pure {a : α} {Q : α → σ → Prop} {E : ε → σ → Prop} :
    Ends (pure a) s Q E ↔ Q a s := Iff.rfl

@[simp] theorem ends_throw {e : ε} {Q : α → σ → Prop} {E : ε → σ → Prop} :
    Ends (throw e) s Q E ↔ E e s := Iff.rfl

@[simp] theorem ends_get {Q : σ → σ → Prop} {E : ε → σ → Prop} : Ends get s Q E ↔ Q s s := Iff.rfl

@[simp] theorem ends_set {t : σ} {Q : PUnit → σ → Prop} {E : ε → σ → Prop} :
    Ends (set t) s Q E ↔ Q ⟨⟩ t := Iff.rfl

@[simp] theorem ends_modify {g : σ → σ} {Q : PUnit → σ → Prop} {E : ε → σ → Prop} :
    Ends (modify g) s Q E ↔ Q ⟨⟩ (g s) := Iff.rfl

/-- **Sequencing.** -/
@[simp] theorem ends_bind {Q : β → σ → Prop} {E : ε → σ → Prop} :
    Ends (x >>= f) s Q E ↔ Ends x s (fun a s' ↦ Ends (f a) s' Q E) E := by
  change (match EStateM.bind x f s with | .ok a s' => Q a s' | .error e s' => E e s') ↔ _
  rw [EStateM.bind, Ends]
  cases x s <;> rfl

variable {Q Q' : α → σ → Prop} {E E' : ε → σ → Prop}

/-- **Consequence.** -/
theorem Ends.mono (h : Ends x s Q E) (hQ : ∀ a s', Q a s' → Q' a s')
    (hE : ∀ e s', E e s' → E' e s') : Ends x s Q' E' := by
  rw [Ends] at h ⊢
  split at h
  · exact hQ _ _ h
  · exact hE _ _ h

theorem Ends.and (h : Ends x s Q E) (h' : Ends x s Q' E') :
    Ends x s (fun a s' ↦ Q a s' ∧ Q' a s') (fun e s' ↦ E e s' ∧ E' e s') := by
  rw [Ends] at h h' ⊢
  cases hx : x s <;> simp only [hx] at h h' <;> exact ⟨h, h'⟩

theorem ends_forall {ι : Sort*} {Q : ι → α → σ → Prop} {E : ι → ε → σ → Prop}
    (h : ∀ i, Ends x s (Q i) (E i)) :
    Ends x s (fun a s' ↦ ∀ i, Q i a s') fun e s' ↦ ∀ i, E i e s' := by
  simp only [Ends] at h ⊢
  cases hx : x s <;> simpa only [hx] using h

/-- An execution returns or raises. -/
theorem Ends.elim (h : Ends x s (fun _ _ ↦ False) fun _ _ ↦ False) : False := by
  rw [Ends] at h
  split at h <;> exact h

/-- What holds of a returning execution. -/
theorem Ends.of_ok (h : Ends x s Q E) {a : α} {s' : σ} (hx : x s = .ok a s') : Q a s' := by
  rwa [Ends, hx] at h

/-- What holds of a raising execution. -/
theorem Ends.of_error (h : Ends x s Q E) {e : ε} {s' : σ} (hx : x s = .error e s') : E e s' := by
  rwa [Ends, hx] at h

/-- How an execution ends. -/
theorem ends_self : Ends x s (fun a s' ↦ x s = .ok a s') fun e s' ↦ x s = .error e s' := by
  rw [Ends]
  cases x s <;> rfl

/-- What an execution returned, next to what is known of it. -/
theorem Ends.attach (h : Ends x s Q E) : Ends x s (fun a s' ↦ Q a s' ∧ x s = .ok a s') E :=
  (h.and ends_self).mono (fun _ _ h ↦ h) fun _ _ h ↦ h.1

/-- A computation that cannot change the state, inside one that can. -/
def lift (x : Except ε α) : EStateM ε σ α :=
  match x with
  | .ok a => pure a
  | .error e => throw e

@[simp] theorem lift_ok {a : α} : (lift (.ok a) : EStateM ε σ α) = pure a := rfl

@[simp] theorem lift_error {e : ε} : (lift (.error e) : EStateM ε σ α) = throw e := rfl

theorem ends_lift {y : Except ε α} (hQ : ∀ a, y = .ok a → Q a s) (hE : ∀ e, y = .error e → E e s) :
    Ends (lift y) s Q E := by
  cases y with
  | ok a => exact hQ a rfl
  | error e => exact hE e rfl

end Ends

/-! ### Programs -/

/-- The programs over operations `Op`, of which `o` replies with a `Reply o`, with exceptions `ε`
and results `α`. -/
inductive Program (Op : Type) (Reply : Op → Type) (ε α : Type) : Type
  | ret (a : α)
  | raise (e : ε)
  | act (o : Op) (next : Reply o → Program Op Reply ε α)

namespace Program

variable {Op : Type} {Reply : Op → Type} {ε α β : Type}

/-- Sequencing. -/
def bind : Program Op Reply ε α → (α → Program Op Reply ε β) → Program Op Reply ε β
  | ret a, f => f a
  | raise e, _ => raise e
  | act o next, f => act o fun r ↦ (next r).bind f

instance : Monad (Program Op Reply ε) where
  pure := ret
  bind := bind

@[simp] theorem pure_eq_ret (a : α) : (pure a : Program Op Reply ε α) = ret a := rfl

@[simp] theorem ret_bind (a : α) (f : α → Program Op Reply ε β) : (ret a >>= f) = f a := rfl

@[simp] theorem raise_bind (e : ε) (f : α → Program Op Reply ε β) :
    (raise e >>= f) = raise e := rfl

@[simp] theorem act_bind (o : Op) (next : Reply o → Program Op Reply ε α)
    (f : α → Program Op Reply ε β) : (act o next >>= f) = act o fun r ↦ next r >>= f := rfl

theorem map_id_eq (p : Program Op Reply ε α) : id <$> p = p := by
  induction p with
  | ret a => rfl
  | raise e => rfl
  | act o next ih => exact congrArg (act o) (funext ih)

theorem bind_bind {γ : Type} (p : Program Op Reply ε α) (f : α → Program Op Reply ε β)
    (g : β → Program Op Reply ε γ) : p >>= f >>= g = p >>= fun a ↦ f a >>= g := by
  induction p with
  | ret a => rfl
  | raise e => rfl
  | act o next ih => exact congrArg (act o) (funext ih)

instance : LawfulMonad (Program Op Reply ε) :=
  LawfulMonad.mk' _ map_id_eq (fun _ _ ↦ rfl) bind_bind

/-- The program of one step. -/
def perform (o : Op) : Program Op Reply ε (Reply o) :=
  act o ret

@[simp] theorem perform_bind (o : Op) (f : Reply o → Program Op Reply ε β) :
    (perform o >>= f) = act o f := rfl

/-- A computation without steps, inside a program. -/
def lift (x : Except ε α) : Program Op Reply ε α :=
  match x with
  | .ok a => ret a
  | .error e => raise e

@[simp] theorem lift_ok (a : α) : (lift (.ok a) : Program Op Reply ε α) = ret a := rfl

@[simp] theorem lift_error (e : ε) : (lift (.error e) : Program Op Reply ε α) = raise e := rfl

/-- `if c: p`. -/
def when (c : Prop) [Decidable c] (p : Program Op Reply ε Unit) : Program Op Reply ε Unit :=
  if c then p else ret ()

/-- `try p except: pass`. -/
def attempt : Program Op Reply ε Unit → Program Op Reply ε Unit
  | ret a => ret a
  | raise _ => ret ()
  | act o next => act o fun r ↦ (next r).attempt

/-- A loop over a list with an accumulator. The body gets the position of the element. -/
def forEach {τ : Type} (body : ℕ → β → τ → Program Op Reply ε τ) :
    ℕ → List β → τ → Program Op Reply ε τ
  | _, [], acc => ret acc
  | i, x :: xs, acc => body i x acc >>= forEach body (i + 1) xs

/-- The positions of a list with one more element at its end. -/
theorem getElem?_concat_eq_some {τ : Type} {xs : List τ} {x y : τ} {i : ℕ}
    (h : (xs ++ [x])[i]? = some y) : xs[i]? = some y ∨ i = xs.length ∧ y = x := by
  rw [List.getElem?_append] at h
  split at h
  · exact .inl h
  · rename_i hlength
    rw [List.getElem?_singleton] at h
    split at h
    · exact .inr ⟨by omega, (Option.some.inj h).symm⟩
    · cases h

/-! ### Facts about the tree -/

/-- Every operation that the program can reach satisfies `P`, every value that it can return
satisfies `Φ`, and every exception that it can raise itself satisfies `Ε`. -/
def Within (P : Op → Prop) (Φ : α → Prop) (Ε : ε → Prop) : Program Op Reply ε α → Prop
  | ret a => Φ a
  | raise e => Ε e
  | act o next => P o ∧ ∀ r, (next r).Within P Φ Ε

section Within

variable {P P' : Op → Prop} {Φ Φ' : α → Prop} {Ψ : β → Prop} {Ε Ε' : ε → Prop}

theorem within_lift {x : Except ε α} (h : ∀ a, x = .ok a → Φ a) (he : ∀ e, x = .error e → Ε e) :
    (lift x : Program Op Reply ε α).Within P Φ Ε := by
  cases x with
  | ok a => exact h a rfl
  | error e => exact he e rfl

theorem Within.mono {p : Program Op Reply ε α} (h : p.Within P Φ Ε) (hP : ∀ o, P o → P' o)
    (hΦ : ∀ a, Φ a → Φ' a) (hΕ : ∀ e, Ε e → Ε' e) : p.Within P' Φ' Ε' := by
  induction p with
  | ret a => exact hΦ a h
  | raise e => exact hΕ e h
  | act o next ih => exact ⟨hP o h.1, fun r ↦ ih r (h.2 r)⟩

/-- **Sequencing.** -/
theorem Within.bind {p : Program Op Reply ε α} {f : α → Program Op Reply ε β}
    (h : p.Within P Φ Ε) (hf : ∀ a, Φ a → (f a).Within P Ψ Ε) : (p >>= f).Within P Ψ Ε := by
  induction p with
  | ret a => exact hf a h
  | raise e => exact h
  | act o next ih => exact ⟨h.1, fun r ↦ ih r (h.2 r)⟩

/-- One step, then the rest. -/
theorem Within.step {o : Op} {f : Reply o → Program Op Reply ε α} (h : P o)
    (hf : ∀ r, (f r).Within P Φ Ε) : (perform o >>= f).Within P Φ Ε :=
  ⟨h, hf⟩

theorem within_when {c : Prop} [Decidable c] {p : Program Op Reply ε Unit}
    (h : c → p.Within P (fun _ ↦ True) Ε) : (when c p).Within P (fun _ ↦ True) Ε := by
  rw [when]
  split
  · rename_i hc
    exact h hc
  · trivial

/-- **Loops.** `I done acc` is the invariant after the elements `done`. -/
theorem within_forEach {τ : Type} {body : ℕ → β → τ → Program Op Reply ε τ}
    {I : List β → τ → Prop} {xs : List β}
    (step : ∀ done x rest acc, done ++ x :: rest = xs → I done acc →
      (body done.length x acc).Within P (I (done ++ [x])) Ε) {acc : τ} (init : I [] acc) :
    (forEach body 0 xs acc).Within P (I xs) Ε := by
  suffices h : ∀ rest done acc, done ++ rest = xs → I done acc →
      (forEach body done.length rest acc).Within P (I xs) Ε from h xs [] acc rfl init
  intro rest
  induction rest with
  | nil =>
    intro done acc hxs hI
    obtain rfl : done = xs := by simpa using hxs
    exact hI
  | cons x rest ih =>
    intro done acc hxs hI
    refine (step done x rest acc hxs hI).bind fun acc' hI' ↦ ?_
    have hlength : done.length + 1 = (done ++ [x]).length := by simp
    rw [hlength]
    exact ih (done ++ [x]) acc' (by simpa using hxs) hI'

/-- A loop all of whose bodies stay within `P` stays within `P`. -/
theorem within_forEach_of_forall {τ : Type} {body : ℕ → β → τ → Program Op Reply ε τ}
    {xs : List β} (step : ∀ i, ∀ x ∈ xs, ∀ acc, (body i x acc).Within P (fun _ ↦ True) Ε)
    (acc : τ) : (forEach body 0 xs acc).Within P (fun _ ↦ True) Ε := by
  refine within_forEach (I := fun _ _ ↦ True) (fun done x rest acc hxs _ ↦ ?_) trivial
  exact step done.length x (by simp [← hxs]) acc

end Within

/-! ### Uninterrupted runs -/

section Run

variable {σ : Type} (exec : (o : Op) → EStateM ε σ (Reply o))

/-- The execution of a program without interruption. -/
def run : Program Op Reply ε α → EStateM ε σ α
  | ret a => pure a
  | raise e => throw e
  | act o next => exec o >>= fun r ↦ (next r).run

@[simp] theorem run_ret (a : α) : (ret a : Program Op Reply ε α).run exec = pure a := rfl

@[simp] theorem run_raise (e : ε) : (raise e : Program Op Reply ε α).run exec = throw e := rfl

@[simp] theorem run_act (o : Op) (next : Reply o → Program Op Reply ε α) :
    (act o next).run exec = exec o >>= fun r ↦ (next r).run exec := rfl

@[simp] theorem run_bind (p : Program Op Reply ε α) (f : α → Program Op Reply ε β) :
    (p >>= f).run exec = p.run exec >>= fun a ↦ (f a).run exec := by
  induction p with
  | ret a => simp
  | raise e => rfl
  | act o next ih => simp [ih]

@[simp] theorem run_perform (o : Op) :
    (perform o : Program Op Reply ε (Reply o)).run exec = exec o := by
  simp [perform]

@[simp] theorem run_lift (x : Except ε α) :
    (lift x : Program Op Reply ε α).run exec = Atomic.lift x := by
  cases x <;> rfl

variable {exec} {s : σ}

theorem ends_perform {o : Op} {Q : Reply o → σ → Prop} {E : ε → σ → Prop} :
    Ends ((perform o : Program Op Reply ε (Reply o)).run exec) s Q E ↔ Ends (exec o) s Q E := by
  rw [run_perform]

theorem ends_lift_bind {x : Except ε α} {f : α → Program Op Reply ε β} {Q : β → σ → Prop}
    {E : ε → σ → Prop} (hQ : ∀ a, x = .ok a → Ends ((f a).run exec) s Q E)
    (hE : ∀ e, x = .error e → E e s) : Ends ((lift x >>= f).run exec) s Q E := by
  cases x with
  | ok a => exact hQ a rfl
  | error e => exact hE e rfl

/-- **Loops.** `I done acc` is the invariant after the elements `done`. -/
theorem ends_forEach {τ : Type} {body : ℕ → β → τ → Program Op Reply ε τ}
    {I : List β → τ → σ → Prop} {E : ε → σ → Prop} {xs : List β}
    (step : ∀ done x rest acc s, done ++ x :: rest = xs → I done acc s →
      Ends ((body done.length x acc).run exec) s (I (done ++ [x])) E) {acc : τ}
    (init : I [] acc s) : Ends ((forEach body 0 xs acc).run exec) s (I xs) E := by
  suffices h : ∀ rest done acc s, done ++ rest = xs → I done acc s →
      Ends ((forEach body done.length rest acc).run exec) s (I xs) E from h xs [] acc s rfl init
  intro rest
  induction rest with
  | nil =>
    intro done acc s hxs hI
    obtain rfl : done = xs := by simpa using hxs
    exact hI
  | cons x rest ih =>
    intro done acc s hxs hI
    rw [forEach, run_bind, ends_bind]
    refine (step done x rest acc s hxs hI).mono (fun acc' s' hI' ↦ ?_) fun _ _ hE ↦ hE
    have hlength : done.length + 1 = (done ++ [x]).length := by simp
    rw [hlength]
    exact ih (done ++ [x]) acc' s' (by simpa using hxs) hI'

/-- Operations in `P` keep the assertion `I`, and raise in `Ε` if they raise. -/
def Keeps (exec : (o : Op) → EStateM ε σ (Reply o)) (P : Op → Prop) (I : σ → Prop)
    (Ε : ε → Prop) : Prop :=
  ∀ o, P o → ∀ s, I s → Ends (exec o) s (fun _ ↦ I) fun e s' ↦ Ε e ∧ I s'

/-- **From the tree to the run.** A program within `P` keeps every assertion that the operations
in `P` keep, and returns in `Φ` or raises in `Ε`. -/
theorem ends_run_of_within {P : Op → Prop} {Φ : α → Prop} {Ε : ε → Prop} {I : σ → Prop}
    (hkeeps : Keeps exec P I Ε) {p : Program Op Reply ε α} (h : p.Within P Φ Ε) (hI : I s) :
    Ends (p.run exec) s (fun a s' ↦ Φ a ∧ I s') fun e s' ↦ Ε e ∧ I s' := by
  induction p generalizing s with
  | ret a => exact ⟨h, hI⟩
  | raise e => exact ⟨h, hI⟩
  | act o next ih =>
    rw [run_act, ends_bind]
    exact (hkeeps o h.1 s hI).mono (fun r s' hI' ↦ ih r (h.2 r) hI') fun _ _ hI' ↦ hI'

end Run

/-! ### One turn -/

section Turn

variable {σ : Type}

/-- One turn of a program: an operation that raises ends it, and one that is over stays. -/
def turn (exec : (o : Op) → EStateM ε σ (Reply o)) (s : σ) :
    Program Op Reply ε α → Program Op Reply ε α × σ
  | ret a => (ret a, s)
  | raise e => (raise e, s)
  | act o next =>
    match exec o s with
    | .ok r s' => (next r, s')
    | .error e s' => (raise e, s')

/-- What may be left of a program after one operation. -/
inductive Follows : Program Op Reply ε α → Program Op Reply ε α → Prop
  | next {o : Op} {next : Reply o → Program Op Reply ε α} (r : Reply o) :
      Follows (next r) (act o next)
  | raised {o : Op} {next : Reply o → Program Op Reply ε α} (e : ε) :
      Follows (raise e) (act o next)

theorem acc_raise (e : ε) : Acc Follows (raise e : Program Op Reply ε α) :=
  ⟨_, fun _ h ↦ nomatch h⟩

/-- A program is over after finitely many operations. -/
theorem acc_follows (p : Program Op Reply ε α) : Acc Follows p := by
  induction p with
  | ret a => exact ⟨_, fun _ h ↦ nomatch h⟩
  | raise e => exact acc_raise e
  | act o next ih =>
    refine ⟨_, fun q hq ↦ ?_⟩
    cases hq with
    | next r => exact ih r
    | raised e => exact acc_raise e

variable {exec : (o : Op) → EStateM ε σ (Reply o)} {s : σ}

theorem follows_turn {o : Op} {next : Reply o → Program Op Reply ε α} :
    Follows ((act o next).turn exec s).1 (act o next) := by
  rw [turn]
  split
  · exact .next _
  · exact .raised _

end Turn

end Program

end Atomic
