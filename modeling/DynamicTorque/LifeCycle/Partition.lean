import DynamicTorque.LifeCycle.Cleanup
import DynamicTorque.LifeCycle.StartUp
import DynamicTorque.LifeCycle.Provisioning
import DynamicTorque.LifeCycle.Workers
import DynamicTorque.Scheduler.Packing

/-!
# The life-cycle lists stay a partition

Each operation, executed without interruption from well-formed lists, leaves well-formed lists and
raises nothing that comes from `list.remove`, whatever the cloud and Torque answer: `Conserves`
says so, and also which VMs it may lose. The run theorem composes this over any sequence of
operations.
-/

open Python Atomic Program

namespace DynamicTorque

/-- An execution that loses only VMs in `lost`, keeps the lists well formed, and raises nothing
that comes from `list.remove`. -/
def Conserves {α : Type} (lost : VmRef → Prop) (x : EStateM PyError State α) (s : State) : Prop :=
  Ends x s (fun _ s' ↦ Moves lost s s') fun e s' ↦ NotFromRemove e ∧ Moves lost s s'

namespace Conserves

variable {α : Type} {lost lost' : VmRef → Prop} {x : EStateM PyError State α} {s s₁ : State}

theorem mono (h : Conserves lost x s) (hlost : ∀ v, lost v → lost' v) : Conserves lost' x s :=
  Ends.mono h (fun _ _ h ↦ h.mono hlost) fun _ _ h ↦ ⟨h.1, h.2.mono hlost⟩

/-- What was moved before counts. -/
theorem after (h : Moves lost s s₁) (h' : Conserves lost x s₁) :
    Ends x s₁ (fun _ s' ↦ Moves lost s s') fun e s' ↦ NotFromRemove e ∧ Moves lost s s' :=
  Ends.mono h' (fun _ _ h' ↦ h.trans h') fun _ _ h' ↦ ⟨h'.1, h.trans h'.2⟩

end Conserves

section Operations

variable {cfg : Config} {s : State} {lost : VmRef → Prop}

/-- A scan moves nothing. -/
theorem conserves_scan_bind {α β : Type} {scope : Scope} {p : Proc β} {Φ : β → Prop}
    {f : β → Proc α} (h : Scanning scope p Φ)
    (hf : ∀ b s₁, Φ b → Scanned scope s s₁ → Conserves lost ((f b).exec cfg) s₁) :
    Conserves lost ((p >>= f).exec cfg) s :=
  ends_scanning_bind h (fun b s₁ hb hs ↦ Conserves.after (.of_scanned hs) (hf b s₁ hb hs))
    fun _ _ he hs ↦ ⟨he, .of_scanned hs⟩

theorem conserves_locked {b : Block} (h : Conserves lost (b.code cfg) s) :
    Conserves lost ((Proc.locked b).exec cfg) s :=
  ends_block.2 h

/-- A block comes first. -/
theorem conserves_locked_bind {α : Type} {b : Block} {f : Unit → Proc α}
    {R : State → Prop} (h : Ends (b.code cfg) s (fun _ s₁ ↦ R s₁ ∧ Moves lost s s₁)
      fun e s₁ ↦ NotFromRemove e ∧ Moves lost s s₁)
    (hf : ∀ s₁, R s₁ → Conserves lost ((f ()).exec cfg) s₁) :
    Conserves lost ((Proc.locked b >>= f).exec cfg) s :=
  ends_locked.2 (h.mono (fun _ s₁ h₁ ↦ Conserves.after h₁.2 (hf s₁ h₁.1)) fun _ _ h ↦ h)

theorem conserves_existingToDeleting {v : VmRef} (h : v ∈ s.existing) :
    Conserves lost ((Block.existingToDeleting v).code cfg) s := by
  rw [Conserves, ends_existingToDeleting h]
  exact moves_existingToDeleting h

/-! ### Operations of the administrator -/

theorem conserves_killVm (vmName : String) (force : Bool) :
    Conserves lost ((killVm cfg vmName force).exec cfg) s := by
  rw [Conserves, killVm, ends_findVm]
  split
  · exact ⟨nofun, .of_perm (.refl _) le_rfl⟩
  · rename_i v hfound
    have hrecord : Scanning .any (findWnFromVm v) fun _ ↦ True := scanning_findWnFromVm v
    refine conserves_scan_bind hrecord fun record s₁ _ hs₁ ↦ ?_
    split
    · exact ⟨nofun, .of_perm (.refl _) le_rfl⟩
    · split
      · exact ⟨nofun, .of_perm (.refl _) le_rfl⟩
      · have hset : Scanning .any (Proc.setVm v fun vm ↦ { vm with forceOff := force })
            fun _ ↦ True := scanning_setVm trivial fun _ ↦ ⟨rfl, rfl, rfl, rfl⟩
        have hhold : Scanning .any (runCommand cfg .holdNode v) fun _ ↦ True :=
          scanning_runCommand .holdNode v
        refine conserves_scan_bind hset fun _ s₂ _ hs₂ ↦ ?_
        refine conserves_scan_bind hhold fun _ s₃ _ hs₃ ↦ ?_
        have hmem : v ∈ s₃.existing := by
          rw [hs₃.existing, hs₂.existing, hs₁.existing]
          exact mem_existing_of_findVm hfound
        exact conserves_locked (conserves_existingToDeleting hmem)

/-- The two loops of `forceoff` only destroy. -/
theorem scanning_forceoffExisting (calls : ℕ → DestroyCall) (vs : List VmRef) :
    Scanning .any (forEach (fun i v _ ↦ do
      Proc.setVm v fun vm ↦ { vm with forceOff := true }
      removeNode cfg v
      let _ ← vmDestroy v none (calls i).answer (calls i).now
      pure ()) 0 vs ()) fun _ ↦ True := by
  refine within_forEach_of_forall (fun i v _ _ ↦ ?_) ()
  refine .step ⟨trivial, fun _ ↦ ⟨rfl, rfl, rfl, rfl⟩⟩ fun _ ↦
    (scanning_removeNode v).bind fun _ _ ↦ ?_
  exact (scanning_vmDestroy trivial (fun _ ↦ trivial) _).bind fun _ _ ↦ trivial

theorem scanning_forceoffStarting (calls : ℕ → DestroyCall) (vs : List VmRef) :
    Scanning .any (forEach (fun i v _ ↦ do
      let _ ← vmDestroy v none (calls i).answer (calls i).now
      pure ()) 0 vs ()) fun _ ↦ True := by
  refine within_forEach_of_forall (fun i v _ _ ↦ ?_) ()
  exact (scanning_vmDestroy trivial (fun _ ↦ trivial) _).bind fun _ _ ↦ trivial

theorem conserves_forceoff (answers : ForceoffAnswers) :
    Conserves lost ((forceoff cfg answers).exec cfg) s := by
  rw [Conserves, forceoff, ends_list]
  refine conserves_scan_bind (scanning_forceoffExisting answers.existing _) fun _ s₁ _ _ ↦ ?_
  refine conserves_locked_bind (R := fun _ ↦ True) ⟨trivial, moves_drain_existing⟩ fun s₂ _ ↦ ?_
  rw [Conserves, ends_list]
  refine conserves_scan_bind (scanning_forceoffStarting answers.starting _) fun _ s₃ _ _ ↦ ?_
  exact conserves_locked moves_drain_starting

/-! ### Launching -/

/-- The last part of an operation loses nothing. -/
theorem Finishes.conserves {p : Proc Unit} (h : Finishes cfg p s) :
    Conserves lost (p.exec cfg) s :=
  Ends.mono h (fun _ _ h ↦ h.moves.mono fun _ h ↦ h.elim) fun _ _ h ↦
    ⟨h.1, h.2.moves.mono fun _ h ↦ h.elim⟩

/-! ### Provisioning -/

/-- The ready VMs whose static requests cannot be searched are lost. -/
theorem conserves_updateProvisionStatus {answers : UpdateAnswers} (hnodup : s.starting.Nodup)
    (hlost : ∀ v ∈ (s.provisionScratch cfg answers).readyToUse,
      ¬Searchable cfg s.resources (s.vms v).cloudResourceName → lost v) :
    Conserves lost ((updateProvisionStatus cfg answers).exec cfg) s := by
  refine ends_updateProvisionStatus Scope.any.destroys hnodup
    (fun _ _ _ _ _ _ ↦ trivial) (fun e s₁ he h₁ ↦ ⟨he, .of_scanned h₁⟩) ?_ ?_ ?_
  · intro e s₁ s₂ done v he h₁ hpre h₂ hmem hsearch
    have hv : v ∈ (s.provisionScratch cfg answers).readyToUse := hpre.subset (by simp)
    exact ⟨he, ((Moves.of_scanned h₁).trans h₂.moves).trans
      (moves_dropStarting hmem (hlost v hv hsearch))⟩
  · intro e s₁ s₂ s₃ done he h₁ h₂ _ h₃
    exact ⟨he, ((Moves.of_scanned h₁).trans h₂.moves).trans h₃.moves⟩
  · intro s₁ s₂ s₃ h₁ h₂ h₃ _ _
    refine Conserves.after (((Moves.of_scanned h₁).trans h₂.moves).trans h₃.moves) ?_
    exact Finishes.conserves (finishes_updateAvailableCores fun s ↦
      finishes_finishProvisioning answers.launch)

/-! ### Checking the existing workers -/

/-- The VMs that the visits from position `i` on shut down, each in the state before its visit. -/
def ShutDownIn (cfg : Config) (answers : ℕ → WorkerAnswers) : ℕ → List WorkerNode → State →
    VmRef → Prop
  | _, [], _, _ => False
  | i, wn :: wns, s, v => IdleShutDown cfg (answers i) s wn v ∨
    ∃ s', (checkWorker cfg (answers i) wn).exec cfg s = .ok () s' ∧
      ShutDownIn cfg answers (i + 1) wns s' v

theorem Checked.moves {answers : WorkerAnswers} {wn : WorkerNode} {s' : State}
    (h : Checked cfg answers wn s s') : Moves (IdleShutDown cfg answers s wn) s s' := by
  cases h with
  | looked h => exact .of_scanned h
  | deleted hfound h =>
    refine (Moves.of_scanned h).trans (moves_existingToDeleting ?_)
    rw [h.existing]
    exact mem_existing_of_findVm hfound
  | shutDown hidle h =>
    have hdrop : Moves (IdleShutDown cfg answers s wn) s
        { s with existing := s.existing.erase _ } :=
      moves_dropExisting (mem_existing_of_findVm hidle.found) hidle
    exact hdrop.trans (.of_eq h.existing h.starting h.deleting h.nextVm.ge)
  | failed h => exact .of_eq h.existing h.starting h.deleting h.nextVm.ge

theorem conserves_checkWorkers {answers : ℕ → WorkerAnswers} (wns : List WorkerNode) (i : ℕ)
    (s : State) : Conserves (ShutDownIn cfg answers i wns s)
      (Proc.exec (forEach (fun i wn _ ↦ checkWorker cfg (answers i) wn) i wns ()) cfg) s := by
  induction wns generalizing i s with
  | nil => exact .of_perm (.refl _) le_rfl
  | cons wn wns ih =>
    rw [Conserves, forEach, Proc.exec, run_bind, ends_bind]
    refine ends_checkWorker.attach.mono ?_ fun e s' h ↦ ⟨h.1, h.2.moves.mono fun v hv ↦ .inl hv⟩
    rintro ⟨⟩ s' ⟨hchecked, hexec⟩
    refine Conserves.after (hchecked.moves.mono fun v hv ↦ .inl hv) ?_
    exact (ih (i + 1) s').mono fun v hv ↦ .inr ⟨s', hexec, hv⟩

theorem conserves_checkExistingWorkerNodes (answers : ℕ → WorkerAnswers) :
    Conserves (ShutDownIn cfg answers 0 s.cluster.workerNodes s)
      ((checkExistingWorkerNodes cfg answers).exec cfg) s := by
  rw [Conserves, checkExistingWorkerNodes, ends_cluster, Proc.exec, run_bind, ends_bind]
  refine Ends.mono (conserves_checkWorkers _ 0 s) (fun _ s' h ↦ ?_) fun _ _ h ↦ h
  exact Conserves.after h (conserves_locked (.of_eq rfl rfl rfl le_rfl))

/-! ### Clean-up -/

/-- The VMs that the cloud does not know any more are lost. -/
theorem conserves_checkCleanup (answers : CleanupCalls) :
    Conserves (ReportedDestroyed answers s) ((checkCleanup cfg answers).exec cfg) s := by
  refine ends_checkCleanup (.of_perm (.refl _) le_rfl) (fun e s₁ he h₁ ↦ ⟨he, .of_scanned h₁⟩) ?_ ?_
  · intro e s₁ s₂ done scratch he h₁ hpre h₂
    exact ⟨he, (Moves.of_scanned h₁.scanned).trans
      (moves_dropped h₂ fun v hv ↦ h₁.reported v (hpre.subset hv))⟩
  · intro s₁ s₂ s₃ scratch _ h₁ h₂ h₃
    refine Conserves.after (((Moves.of_scanned h₁.scanned).trans
      (moves_dropped h₂ h₁.reported)).trans (moves_resumed h₃)) ?_
    exact Finishes.conserves (finishes_updateAvailableCores fun s ↦
      finishes_launchIfWaiting answers.launch)

/-! ### Sequential runs -/

/-- **One call.** The lists stay well formed, and no `list.remove` raises. -/
theorem conserves_operation (op : Operation) (h : WellFormed s) :
    Conserves (fun _ ↦ True) ((op.program cfg).exec cfg) s := by
  cases op with
  | killVm vmName force => exact conserves_killVm vmName force
  | forceoff answers => exact conserves_forceoff answers
  | checkExistingWorkerNodes answers =>
    exact (conserves_checkExistingWorkerNodes answers).mono fun _ _ ↦ trivial
  | launchInstances answers => exact (finishes_launchInstances answers).conserves
  | updateProvisionStatus answers =>
    exact conserves_updateProvisionStatus h.partition.starting fun _ _ _ ↦ trivial
  | checkCleanup answers => exact (conserves_checkCleanup answers).mono fun _ _ ↦ trivial
  | query report => exact Moves.of_eq rfl rfl rfl le_rfl
  | queueRequests requests => exact Moves.of_eq rfl rfl rfl le_rfl

theorem WellFormed.after (h : WellFormed s) (op : Operation) : WellFormed (op.after cfg s) :=
  stateAfter_of_ends (Ends.mono (conserves_operation op h) (fun _ _ h' ↦ h'.wellFormed h)
    fun _ _ h' ↦ h'.2.wellFormed h)

theorem WellFormed.run (h : WellFormed s) (ops : List Operation) :
    WellFormed (runOperations cfg ops s) := by
  induction ops generalizing s with
  | nil => exact h
  | cons op ops ih => exact ih (h.after op)

end Operations

/-- **The life-cycle lists stay a partition.** After any calls one after another, whatever the
cloud and Torque answer, the lists are pairwise disjoint and duplicate-free, and no call has raised
what `list.remove` raises. -/
theorem partition_of_run (cfg : Config) (ops : List Operation) (s : State) (h : WellFormed s) :
    Partition (runOperations cfg ops s) ∧
      ∀ before op after, ops = before ++ op :: after →
        raised ((op.program cfg).exec cfg) (runOperations cfg before s) ≠ some .notInList := by
  refine ⟨(h.run ops).partition, ?_⟩
  rintro before op after - hraised
  have hbefore : WellFormed (runOperations cfg before s) := h.run before
  have hcall : Conserves (fun _ ↦ True) ((op.program cfg).exec cfg) (runOperations cfg before s) :=
    conserves_operation op hbefore
  exact (of_raised hcall hraised).1 rfl

/-- One VM exists and another one is being started. -/
def twoVms : State :=
  { State.initial JobScheduler.threeNodes with existing := [0], starting := [1], nextVm := 2 }

theorem partition_of_run_twoVms :
    Partition (runOperations {} [.forceoff ⟨fun _ ↦ ⟨.failed, 0⟩, fun _ ↦ ⟨.deleted, 0⟩⟩] twoVms) ∧
      ∀ before op after,
        [Operation.forceoff ⟨fun _ ↦ ⟨.failed, 0⟩, fun _ ↦ ⟨.deleted, 0⟩⟩] =
          before ++ op :: after →
        raised ((op.program {}).exec {}) (runOperations {} before twoVms) ≠ some .notInList :=
  partition_of_run {} _ twoVms ⟨partition_iff.2 (by decide), by decide⟩

end DynamicTorque
