import DynamicTorque.Language.Program

/-!
# Frames

A frame is a relation between states that holds of every state and itself, and of the ends of two
steps if it holds of each step. Code stays within a frame if its end is related to its beginning,
whether it returns or raises; then so does what is composed of such code. Nothing here depends on a
type of states.
-/

namespace Atomic

variable {σ ε α β : Type}

/-- A relation between states that is kept by doing nothing and by doing one thing after another. -/
structure Frame (σ : Type) where
  rel : σ → σ → Prop
  refl : ∀ s, rel s s
  trans : ∀ s t u, rel s t → rel t u → rel s u

/-- Code that stays within a frame, whether it returns or raises. -/
def Stays (F : Frame σ) (x : EStateM ε σ α) : Prop :=
  ∀ s, Ends x s (fun _ ↦ F.rel s) fun _ ↦ F.rel s

variable {F : Frame σ}

theorem Stays.bind {x : EStateM ε σ α} {f : α → EStateM ε σ β} (h : Stays F x)
    (hf : ∀ a, Stays F (f a)) : Stays F (x >>= f) := by
  intro s
  rw [ends_bind]
  exact (h s).mono (fun a t h₁ ↦ (hf a t).mono (fun _ _ h₂ ↦ F.trans _ _ _ h₁ h₂)
    fun _ _ h₂ ↦ F.trans _ _ _ h₁ h₂) fun _ _ h₁ ↦ h₁

theorem stays_pure (a : α) : Stays F (pure a : EStateM ε σ α) := F.refl

theorem stays_throw (e : ε) : Stays F (throw e : EStateM ε σ α) := F.refl

theorem stays_get : Stays F (get : EStateM ε σ σ) := F.refl

theorem stays_modify {g : σ → σ} (h : ∀ s, F.rel s (g s)) :
    Stays F (modify g : EStateM ε σ Unit) := h

theorem stays_lift (x : Except ε α) : Stays F (lift x : EStateM ε σ α) := by
  cases x with
  | ok a => exact stays_pure a
  | error e => exact stays_throw e

/-- The state is replaced by one that depends on a part of it, if there is one. -/
theorem stays_replace {g : σ → Except ε α} {f : σ → α → σ}
    (h : ∀ s a, g s = .ok a → F.rel s (f s a)) :
    Stays F (do let s ← get; let a ← lift (g s); set (f s a) : EStateM ε σ PUnit) := by
  intro s
  rw [ends_bind, ends_get, ends_bind]
  exact ends_lift (fun a ha ↦ h s a ha) fun _ _ ↦ F.refl s

end Atomic
