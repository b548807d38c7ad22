import DynamicTorque.Language.Frames
import DynamicTorque.Model.ClusterState

/-!
# What the blocks are made of

The code under the write lock is made of a few primitive assignments. A frame that these stay within
is one that every block stays within (`stays_code`).
-/

open Python Atomic

namespace DynamicTorque

open Locked

/-- The frame holds of every assignment that the blocks are made of. -/
structure Primitives (F : Frame State) : Prop where
  setList : ∀ s xs L, F.rel s (s.setList xs L)
  dynamic : ∀ s v, F.rel s (s.setVm v fun vm ↦ { vm with dynamic := false })
  command : ∀ s c v, F.rel s (s.emit (.command c v))
  rule : ∀ s res ip, F.rel s (s.emit (.removeSecurityGroupRule res ip))
  static : ∀ s name (reqs : StaticVMs), F.rel s
    { s with
      resources := s.resources.modify name fun res ↦ { res with staticVmsToStart := some reqs } }
  cores : ∀ s, F.rel s s.updateAvailableCores
  waiting : ∀ s ws, F.rel s { s with waiting := ws }
  waitFor : ∀ s requests, F.rel s (s.waitFor requests)
  provisioning : ∀ s b, F.rel s { s with provisioning := b }

variable {F : Frame State} {α : Type} {cfg : Config}

theorem stays_when {c : Prop} [Decidable c] {x : Locked Unit} (h : Stays F x) :
    Stays F (Locked.when c x) := by
  rw [Locked.when]
  split
  · exact h
  · exact stays_pure ()

namespace Primitives

theorem append (h : Primitives F) (L : ListName) (v : VmRef) : Stays F (append L v) :=
  stays_modify fun s ↦ h.setList s _ L

theorem removeFrom (h : Primitives F) (L : ListName) (v : VmRef) : Stays F (removeFrom L v) :=
  stays_replace fun s xs _ ↦ h.setList s xs L

theorem emit_command (h : Primitives F) (c : Command) (v : VmRef) :
    Stays F (Locked.emit (.command c v)) :=
  stays_modify fun s ↦ h.command s c v

theorem runHook (h : Primitives F) (hook : Command) (v : VmRef) :
    Stays F (Locked.runHook cfg hook v) :=
  stays_get.bind fun _ ↦ (stays_lift _).bind fun _ ↦ h.emit_command hook v

theorem setStatic (h : Primitives F) (name : String) (reqs : StaticVMs) :
    Stays F (setStaticVmsToStart name reqs) :=
  stays_modify fun s ↦ h.static s name reqs

theorem commitReady (h : Primitives F) (vs : List VmRef) : Stays F (Locked.commitReady cfg vs) := by
  induction vs with
  | nil => exact stays_pure ()
  | cons v vs ih =>
    have hready : Stays F (readyVm cfg v) := by
      refine (h.removeFrom .starting v).bind fun _ ↦ stays_get.bind fun s ↦
        (stays_lift _).bind fun r ↦ ?_
      obtain ⟨needed, reqs⟩ := r
      exact (h.setStatic _ reqs).bind fun _ ↦
        (stays_when (stays_modify fun s ↦ h.dynamic s v)).bind fun _ ↦ h.append .existing v
    exact hready.bind fun _ ↦ ih

theorem closeFirewall (h : Primitives F) (vm : VM) (names : List String) :
    Stays F (closeFirewall cfg vm names) := by
  induction names with
  | nil => exact stays_pure ()
  | cons res names ih =>
    refine stays_get.bind fun s ↦ (stays_when ?_).bind fun _ ↦ ih
    rw [removeRule.eq_def]
    split
    · exact stays_pure ()
    · exact stays_throw _
    · exact stays_modify fun s ↦ h.rule s _ _

theorem replaceStatic (h : Primitives F) (vm : VM) : Stays F (replaceStatic cfg vm) := by
  rw [Locked.replaceStatic]
  split
  · exact stays_pure ()
  · split
    · exact stays_pure ()
    · refine stays_get.bind fun s ↦ (stays_lift _).bind fun reqs ↦
        (h.setStatic _ _).bind fun _ ↦ ?_
      split
      · split
        · exact stays_modify fun s ↦ h.waitFor s _
        · exact stays_throw _
      · exact stays_throw _

/-- What is done with a VM once it is out of the deleting list. -/
theorem dropRest (h : Primitives F) (v : VmRef) : Stays F (do
    Locked.runHook cfg .postVmDestroyAction v
    Locked.runHook cfg .postRemoveNodeAction v
    let s ← get
    Locked.when ((s.vms v).cloudResourceName = "default")
      (Locked.closeFirewall cfg (s.vms v) s.resources.names)
    Locked.when (¬(s.vms v).dynamic) (Locked.replaceStatic cfg (s.vms v))) :=
  (h.runHook _ v).bind fun _ ↦ (h.runHook _ v).bind fun _ ↦ stays_get.bind fun _ ↦
    (stays_when (h.closeFirewall _ _)).bind fun _ ↦ stays_when (h.replaceStatic _)

theorem dropDeleted (h : Primitives F) (vs : List VmRef) : Stays F (dropDeleted cfg vs) := by
  induction vs with
  | nil => exact stays_pure ()
  | cons v vs ih =>
    have hdrop : Stays F (dropVm cfg v) := (h.removeFrom .deleting v).bind fun _ ↦ h.dropRest v
    exact hdrop.bind fun _ ↦ ih

theorem resumeExecuting (h : Primitives F) (vs : List VmRef) : Stays F (resumeExecuting vs) := by
  induction vs with
  | nil => exact stays_pure ()
  | cons v vs ih =>
    have hresume : Stays F (resumeVm v) :=
      (h.append .existing v).bind fun _ ↦ (h.removeFrom .deleting v).bind fun _ ↦
        h.emit_command _ v
    exact hresume.bind fun _ ↦ ih

theorem removeWaiting (h : Primitives F) (rs : List WaitingRequest) :
    Stays F (removeWaiting rs) := by
  induction rs with
  | nil => exact stays_pure ()
  | cons r rs ih =>
    intro s
    rw [Locked.removeWaiting, ends_bind, ends_get, ends_bind]
    refine ends_lift (fun waiting _ ↦ ?_) fun e _ ↦ F.refl s
    rw [ends_bind, ends_set]
    have hset : F.rel s { s with waiting := waiting } := h.waiting s waiting
    exact (ih _).mono (fun _ _ h' ↦ F.trans _ _ _ hset h') fun _ _ h' ↦ F.trans _ _ _ hset h'

/-- **The blocks** stay within the frame. -/
theorem stays_code (h : Primitives F) (b : Block) : Stays F (b.code cfg) := by
  cases b with
  | existingToDeleting v =>
    exact (h.append .deleting v).bind fun _ ↦ h.removeFrom .existing v
  | dropExisting v => exact h.removeFrom .existing v
  | drain L =>
    refine stays_modify fun s ↦ ?_
    exact F.trans _ _ _ (h.setList s [] L) (h.setList _ _ .deleting)
  | existingToStarting v =>
    exact (h.removeFrom .existing v).bind fun _ ↦ h.append .starting v
  | destroyExisting v =>
    exact (h.removeFrom .existing v).bind fun _ ↦ h.append .deleting v
  | commitReady vs => exact h.commitReady vs
  | startingToDeleting v =>
    exact (h.removeFrom .starting v).bind fun _ ↦ h.append .deleting v
  | setProvisioning b => exact stays_modify fun s ↦ h.provisioning s b
  | addStarting v => exact h.append .starting v
  | endLaunch rs => exact h.removeWaiting rs
  | queueRequests requests =>
    refine stays_modify fun s ↦ ?_
    exact F.trans _ _ _ (h.waitFor s _) (h.provisioning _ true)
  | updateAvailableCores => exact stays_modify h.cores
  | commitCleanup deleted executing =>
    exact (h.dropDeleted deleted).bind fun _ ↦ h.resumeExecuting executing

end Primitives

end DynamicTorque
