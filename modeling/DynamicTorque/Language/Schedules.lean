import Mathlib.Data.Nat.Init

/-!
# Schedules

A system takes turns: `advance t s` is its state after a turn `t` in the state `s`. A schedule says
which turn comes when. A *run* is a finite schedule, for what always holds; a schedule without end
is for what happens at last, if the turns that help come again and again (`Recurs`).

* `run_induction`: what one turn keeps, a run keeps.
* `eventually_of_acc`: turns that do not help leave the rank or lower it, turns that help lower it,
  and ranks are accessible, so the goal is reached.

Nothing here depends on a kind of turns or a type of states.
-/

namespace Atomic

/-! ### Runs -/

section Runs

variable {τ σ α : Type} (advance : τ → σ → σ)

/-- The state after the turns of a schedule. -/
def runTurns (schedule : List τ) (s : σ) : σ :=
  schedule.foldl (fun s t ↦ advance t s) s

/-- The state after the first `n` turns of a schedule without end. -/
def stateAt (schedule : ℕ → τ) (s : σ) : ℕ → σ
  | 0 => s
  | n + 1 => advance (schedule n) (stateAt schedule s n)

/-- Turns of a kind come again and again. -/
def Recurs (schedule : ℕ → τ) (T : τ → Prop) : Prop :=
  ∀ n, ∃ m, n ≤ m ∧ T (schedule m)

variable {advance}

@[simp] theorem runTurns_nil (s : σ) : runTurns advance [] s = s := rfl

theorem runTurns_append (before after : List τ) (s : σ) :
    runTurns advance (before ++ after) s = runTurns advance after (runTurns advance before s) :=
  List.foldl_append

theorem runTurns_concat (schedule : List τ) (t : τ) (s : σ) :
    runTurns advance (schedule ++ [t]) s = advance t (runTurns advance schedule s) :=
  runTurns_append schedule [t] s

/-- **Invariants.** What every turn of a run keeps holds at its end. -/
theorem run_induction {I : σ → Prop} {T : τ → Prop}
    (step : ∀ t s, T t → I s → I (advance t s)) {schedule : List τ} {s : σ}
    (hT : ∀ t ∈ schedule, T t) (h : I s) : I (runTurns advance schedule s) := by
  induction schedule generalizing s with
  | nil => exact h
  | cons t schedule ih =>
    exact ih (fun t ht ↦ hT t (List.mem_cons_of_mem _ ht)) (step t s (hT t List.mem_cons_self) h)

/-- The states of a schedule without end are those of its finite parts. -/
theorem stateAt_eq_runTurns (schedule : ℕ → τ) (s : σ) (n : ℕ) :
    stateAt advance schedule s n = runTurns advance ((List.range n).map schedule) s := by
  induction n with
  | zero => rfl
  | succ n ih =>
    rw [stateAt, ih, List.range_succ, List.map_append, List.map_singleton, runTurns_concat]

variable {schedule : ℕ → τ} {s : σ}

/-- What every turn from time `n` on keeps. -/
theorem stateAt_induction {P : σ → Prop} {n : ℕ}
    (step : ∀ m, n ≤ m → P (stateAt advance schedule s m) → P (stateAt advance schedule s (m + 1)))
    (h : P (stateAt advance schedule s n)) :
    ∀ m, n ≤ m → P (stateAt advance schedule s m) := by
  intro m hm
  induction m, hm using Nat.le_induction with
  | base => exact h
  | succ m hm ih => exact step m hm ih

/-- **Progress.** From a time on, every turn leaves the rank `f` or lowers it as long as the goal is
not reached, and a turn of a kind that recurs lowers it. -/
theorem eventually_of_acc {r : α → α → Prop} {f : σ → α} {P Q : σ → Prop} {T : τ → Prop}
    (hrecurs : Recurs schedule T) {n : ℕ}
    (step : ∀ m, n ≤ m → P (stateAt advance schedule s m) →
      Q (stateAt advance schedule s (m + 1)) ∨ P (stateAt advance schedule s (m + 1)) ∧
        (f (stateAt advance schedule s (m + 1)) = f (stateAt advance schedule s m) ∨
          r (f (stateAt advance schedule s (m + 1))) (f (stateAt advance schedule s m))))
    (helps : ∀ m, n ≤ m → T (schedule m) → P (stateAt advance schedule s m) →
      Q (stateAt advance schedule s (m + 1)) ∨ P (stateAt advance schedule s (m + 1)) ∧
        r (f (stateAt advance schedule s (m + 1))) (f (stateAt advance schedule s m)))
    (hacc : Acc r (f (stateAt advance schedule s n)))
    (h : P (stateAt advance schedule s n)) :
    ∃ m, n ≤ m ∧ Q (stateAt advance schedule s m) := by
  generalize hx : f (stateAt advance schedule s n) = x at hacc
  induction hacc generalizing n with
  | intro x _ ih =>
    subst hx
    -- a lower rank at a later time
    have hlower : ∀ k, n ≤ k → P (stateAt advance schedule s k) →
        r (f (stateAt advance schedule s k)) (f (stateAt advance schedule s n)) →
        ∃ m, n ≤ m ∧ Q (stateAt advance schedule s m) := by
      intro k hk hP hr
      obtain ⟨m, hm, hQ⟩ := ih _ hr (fun m hm ↦ step m (Nat.le_trans hk hm))
        (fun m hm ↦ helps m (Nat.le_trans hk hm)) hP rfl
      exact ⟨m, Nat.le_trans hk hm, hQ⟩
    obtain ⟨k, hk, hT⟩ := hrecurs n
    -- until the turn that helps the rank stays, unless it is lowered before
    have hstays : ∀ d, n + d ≤ k → (∃ m, n ≤ m ∧ Q (stateAt advance schedule s m)) ∨
        P (stateAt advance schedule s (n + d)) ∧
          f (stateAt advance schedule s (n + d)) = f (stateAt advance schedule s n) := by
      intro d
      induction d with
      | zero => exact fun _ ↦ .inr ⟨h, rfl⟩
      | succ d ihd =>
        intro hd
        rcases ihd (by omega) with hQ | ⟨hP, hrank⟩
        · exact .inl hQ
        · rcases step (n + d) (by omega) hP with hQ | ⟨hP', hsame | hr⟩
          · exact .inl ⟨_, by omega, hQ⟩
          · exact .inr ⟨hP', hsame.trans hrank⟩
          · exact .inl (hlower _ (by omega) hP' (hrank ▸ hr))
    rcases hstays (k - n) (by omega) with hQ | ⟨hP, hrank⟩
    · exact hQ
    · rw [Nat.add_sub_cancel' hk] at hP hrank
      rcases helps k hk hT hP with hQ | ⟨hP', hr⟩
      · exact ⟨k + 1, by omega, hQ⟩
      · exact hlower (k + 1) (by omega) hP' (hrank ▸ hr)

end Runs

end Atomic
