import DynamicTorque.LifeCycle.CleanupDecisions
import DynamicTorque.LifeCycle.Partition
import DynamicTorque.LifeCycle.Trimming

/-!
# Forcing all workers off

The documentation of `admin.py -f` says that busy nodes are set offline and destroyed once their
jobs have finished. `forceoff` does not look for jobs: every VM is taken out of Torque and destroyed
at once, and the call that would hold its node is commented out.

* `ends_forceoff_destroys`: what becomes of every VM.
* `forceoff_drains_iff`: so busy VMs are drained only where there are none.
-/

open Python Atomic Program

namespace DynamicTorque

/-- A busy VM has been set aside between `s` and `s'`: it is held in Torque, not destroyed, and a
later clean-up destroys it only when Torque shows no jobs. -/
structure Drained (cfg : Config) (s s' : State) (v : VmRef) : Prop where
  spared : ¬s.DestroyCalled s' v
  kept : .command .removeNode v ∉ s.since s'
  held : .command .holdNode v ∈ s.since s'
  deleting : v ∈ s'.deleting
  later : ∀ (ops : List Operation) (answers : CleanupCalls) record forceOff answer,
    .vmDestroy v record forceOff answer ∈ (runOperations cfg ops s').since
      ((Operation.checkCleanup answers).after cfg (runOperations cfg ops s')) →
    (record.bind WorkerNode.jobs) = none

/-! ### What is not done -/

/-- The steps that hold no node. -/
def Act.HoldsNone : Act → Prop
  | .list _ | .vm _ | .resources | .setVm _ _ | .locked (.drain _) => True
  | .emit e => ∀ v, e ≠ .command .holdNode v
  | _ => False

section Unheld

variable {cfg : Config} {s : State} {v : VmRef}

theorem keeps_unheld (cfg : Config) (s : State) :
    Keeps (exec cfg) Act.HoldsNone (Emits (fun e ↦ ∀ v, e ≠ .command .holdNode v) s)
      fun _ ↦ True := by
  intro a ha s₁ h₁
  cases a with
  | list L => exact h₁
  | vm v => exact h₁
  | resources => exact h₁
  | setVm v f => exact h₁.trans (.of_eq rfl)
  | emit e => exact h₁.trans (.emit s₁ ha)
  | locked b =>
    cases b with
    | drain L =>
      have hdrain : Ends ((Block.drain L).code cfg) s₁ (fun _ s' ↦ s'.trace = s₁.trace)
          fun _ _ ↦ False := by cases L <;> exact rfl
      exact hdrain.mono (fun _ s' h ↦ h₁.trans (.of_eq h)) fun _ _ h ↦ h.elim
    | _ => exact ha.elim
  | _ => exact ha.elim

theorem holdsNone_vmDestroy (record : Option WorkerNode) (answer : DestroyAnswer) (now : Time) :
    (vmDestroy v record answer now).Within Act.HoldsNone (fun _ ↦ True) fun _ ↦ True :=
  within_vmDestroy trivial trivial (fun _ _ ↦ by simp) trivial fun _ _ ↦ trivial

theorem holdsNone_forceoff (cfg : Config) (answers : ForceoffAnswers) :
    (forceoff cfg answers).Within Act.HoldsNone (fun _ ↦ True) fun _ ↦ True := by
  refine .step trivial fun existing ↦ Within.bind (Φ := fun _ ↦ True)
    (within_forEach_of_forall (fun i v _ _ ↦ ?_) ()) fun _ _ ↦ .step trivial fun _ ↦
      .step trivial fun starting ↦ Within.bind (Φ := fun _ ↦ True)
        (within_forEach_of_forall (fun i v _ _ ↦ ?_) ()) fun _ _ ↦ ⟨trivial, fun _ ↦ trivial⟩
  · have hremove : (removeNode cfg v).Within Act.HoldsNone (fun _ ↦ True) fun _ ↦ True :=
      within_removeNode (fun _ ↦ trivial) (fun _ ↦ by simp) (fun _ ↦ by simp) (fun _ ↦ by simp)
        fun _ _ ↦ trivial
    exact .step trivial fun _ ↦ hremove.bind fun _ _ ↦
      (holdsNone_vmDestroy _ _ _).bind fun _ _ ↦ trivial
  · exact (holdsNone_vmDestroy _ _ _).bind fun _ _ ↦ trivial

/-- `forceoff` holds no node. -/
theorem not_held_forceoff (answers : ForceoffAnswers) :
    .command .holdNode v ∉ s.since ((Operation.forceoff answers).after cfg s) := by
  have hends := ends_run_of_within (keeps_unheld cfg s) (holdsNone_forceoff cfg answers) (.refl s)
  have hunheld := stateAfter_of_ends (hends.mono (fun _ _ h ↦ h.2) fun _ _ h ↦ h.2)
  exact fun hheld ↦ hunheld.events _ hheld v rfl

end Unheld

/-! ### What is done -/

section Destroys

variable {cfg : Config} {s s₁ s' : State} {v : VmRef} {answers : ForceoffAnswers}

/-- The VM was taken out of Torque and destroyed. -/
def State.TakenOut (s s' : State) (v : VmRef) : Prop :=
  s.DestroyCalled s' v ∧ .command .removeNode v ∈ s.since s'

/-- What was done stays done. -/
theorem State.TakenOut.trans {P P' : Event → Prop} (h : s.TakenOut s₁ v) (hemits : Emits P s s₁)
    (hemits' : Emits P' s₁ s') : s.TakenOut s' v := by
  refine ⟨(State.destroyCalled_iff hemits hemits').2 (.inl h.1), ?_⟩
  rw [hemits.since_trans hemits']
  exact List.mem_append_left _ h.2

/-- What is done later is done. -/
theorem State.TakenOut.of_later {P P' : Event → Prop} (h : s₁.TakenOut s' v)
    (hemits : Emits P s s₁) (hemits' : Emits P' s₁ s') : s.TakenOut s' v := by
  refine ⟨(State.destroyCalled_iff hemits hemits').2 (.inr h.1), ?_⟩
  rw [hemits.since_trans hemits']
  exact List.mem_append_right _ h.2

/-- A VM that is forced off and taken out of the cluster. -/
theorem scanned_forcedOff (s : State) (v : VmRef) :
    Scanned .any s ((s.setVm v fun vm ↦ { vm with forceOff := true }).removeNode v) :=
  have hset : Scanned .any s (s.setVm v fun vm ↦ { vm with forceOff := true }) :=
    .setVm s trivial fun _ ↦ ⟨rfl, rfl, rfl, rfl⟩
  hset.trans (scanned_removeNode _ v)

/-- One existing VM. -/
theorem ends_forceoffVisit (call : DestroyCall) :
    Ends (Proc.exec (do
      Proc.setVm v fun vm ↦ { vm with forceOff := true }
      removeNode cfg v
      let _ ← vmDestroy v none call.answer call.now
      pure ()) cfg) s (fun _ s' ↦ Scanned .any s s' ∧ s.TakenOut s' v) fun _ _ ↦ True := by
  rw [ends_setVm]
  refine ends_removeNode ?_ fun _ _ _ _ ↦ trivial
  rw [Proc.exec, run_bind, ends_bind]
  have hremove := scanned_forcedOff s v
  have hv : Scope.any.touches v := trivial
  refine (ends_vmDestroy_called hv fun _ ↦ trivial).mono ?_ fun _ _ _ ↦ trivial
  rintro - s' ⟨h', hcalled⟩
  refine ⟨hremove.trans h', (State.destroyCalled_iff hremove.trace h'.trace).2 (.inr hcalled), ?_⟩
  rw [hremove.trace.since_trans h'.trace]
  refine List.mem_append_left _ ?_
  simp [State.since, State.removeNode, State.emit, State.setVm]

/-- **What becomes of the workers.** Whether they have jobs or not, all VMs are destroyed, and the
existing ones are taken out of Torque. -/
theorem ends_forceoff_destroys : Ends ((forceoff cfg answers).exec cfg) s
    (fun _ s' ↦ (∀ v ∈ s.existing, s.TakenOut s' v) ∧ (∀ v ∈ s.starting, s.DestroyCalled s' v) ∧
      s'.existing = [] ∧ s'.starting = [] ∧
        s'.deleting = s.deleting ++ s.existing ++ s.starting) fun _ _ ↦ True := by
  rw [forceoff, ends_list, Proc.exec, run_bind, ends_bind]
  refine (ends_forEach (I := fun done _ s' ↦ Scanned .any s s' ∧ ∀ v ∈ done, s.TakenOut s' v) ?_
    ⟨.refl s, fun _ h ↦ absurd h List.not_mem_nil⟩).mono (fun _ s₁ h₁ ↦ ?_) fun _ _ h ↦ h
  · rintro done v rest - s₁ - ⟨h₁, hdone⟩
    refine (ends_forceoffVisit _).mono ?_ fun _ _ h ↦ h
    rintro - s₂ ⟨h₂, hout⟩
    refine ⟨h₁.trans h₂, fun w hw ↦ ?_⟩
    rcases List.mem_append.1 hw with hw | hw
    · exact (hdone w hw).trans h₁.trace h₂.trace
    · exact List.mem_singleton.1 hw ▸ hout.of_later h₁.trace h₂.trace
  obtain ⟨h₁, hexisting⟩ := h₁
  refine ends_locked.2 ?_
  show Ends (Proc.exec (Proc.list .starting >>= _) cfg)
    { s₁ with existing := [], deleting := s₁.deleting ++ s₁.existing } _ _
  rw [ends_list, Proc.exec, run_bind, ends_bind]
  generalize hs₂ : ({ s₁ with existing := [], deleting := s₁.deleting ++ s₁.existing } : State) = s₂
  have hdrain : Emits (Event.Allowed Scope.any.destroys) s₁ s₂ := .of_eq (by rw [← hs₂])
  have hlist : s₂.list .starting = s.starting := by
    rw [← hs₂]
    exact h₁.starting
  rw [hlist]
  refine (ends_forEach (I := fun done _ s' ↦ Scanned .any s₂ s' ∧ ∀ v ∈ done, s₂.DestroyCalled s' v)
    ?_ ⟨.refl s₂, fun _ h ↦ absurd h List.not_mem_nil⟩).mono (fun _ s₃ h₃ ↦ ?_) fun _ _ h ↦ h
  · rintro done v rest - s₃ - ⟨h₃, hdone⟩
    have hv : Scope.any.touches v := trivial
    rw [run_bind, ends_bind]
    refine (ends_vmDestroy_called hv fun _ ↦ trivial).mono ?_ fun _ _ _ ↦ trivial
    rintro - s₄ ⟨h₄, hcalled⟩
    refine ⟨h₃.trans h₄, fun w hw ↦ ?_⟩
    rw [State.destroyCalled_iff h₃.trace h₄.trace]
    rcases List.mem_append.1 hw with hw | hw
    · exact .inl (hdone w hw)
    · exact .inr (List.mem_singleton.1 hw ▸ hcalled)
  obtain ⟨h₃, hstarting⟩ := h₃
  refine ends_block.2 ⟨fun v hv ↦ ?_, fun v hv ↦ ?_, ?_, rfl, ?_⟩
  · show s.TakenOut s₃ v
    exact (hexisting v hv).trans h₁.trace (hdrain.trans h₃.trace)
  · show s.DestroyCalled s₃ v
    exact (State.destroyCalled_iff (h₁.trace.trans hdrain) h₃.trace).2 (.inr (hstarting v hv))
  · show s₃.existing = []
    rw [h₃.existing, ← hs₂]
  · show s₃.deleting ++ s₃.starting = _
    rw [h₃.deleting, h₃.starting, ← hs₂]
    show s₁.deleting ++ s₁.existing ++ s₁.starting = _
    rw [h₁.deleting, h₁.existing, h₁.starting]

end Destroys

/-- In every state a clean-up destroys a VM only if Torque showed it absent or without jobs. -/
theorem idle_of_checkCleanup {cfg : Config} {answers : CleanupCalls} {s : State} {v : VmRef}
    {record : Option WorkerNode} {forceOff : Bool} {answer : DestroyAnswer}
    (h : .vmDestroy v record forceOff answer ∈
      s.since ((Operation.checkCleanup answers).after cfg s)) :
    record.bind WorkerNode.jobs = none :=
  (stateAfter_of_ends ends_checkCleanup_idle).events _ h

/-- **Draining.** `forceoff` drains the busy VMs, as documented, if and only if there are none: it
holds no node, so it drains no VM. What the later clean-ups have to do they do: they destroy no VM
with jobs. -/
theorem forceoff_drains_iff (cfg : Config) (answers : ForceoffAnswers) (s : State) :
    ((∀ v ∈ s.existing ++ s.starting, s.hasJobs v = true →
        Drained cfg s ((Operation.forceoff answers).after cfg s) v) ↔
      ∀ v ∈ s.existing ++ s.starting, s.hasJobs v = false) ∧
    (raised ((forceoff cfg answers).exec cfg) s = none →
      ∀ v ∈ s.existing, s.TakenOut ((Operation.forceoff answers).after cfg s) v) ∧
    ∀ (s₁ : State) (cleanup : CleanupCalls) v record forceOff answer,
      .vmDestroy v record forceOff answer ∈
        s₁.since ((Operation.checkCleanup cleanup).after cfg s₁) →
      record.bind WorkerNode.jobs = none := by
  refine ⟨⟨fun h v hv ↦ ?_, fun h v hv hjobs ↦ ?_⟩, fun hreturns v hv ↦ ?_,
    fun s₁ cleanup v record forceOff answer hcalled ↦ idle_of_checkCleanup hcalled⟩
  · refine Bool.eq_false_iff.2 fun hjobs ↦ ?_
    exact not_held_forceoff answers (h v hv hjobs).held
  · exact absurd ((h v hv).symm.trans hjobs) Bool.false_ne_true
  · obtain ⟨-, hout, -⟩ := of_returned ends_forceoff_destroys hreturns
    exact hout v hv

/-- The cloud deletes every server. -/
def allDeleted : ForceoffAnswers := ⟨fun _ ↦ ⟨.deleted, 0⟩, fun _ ↦ ⟨.deleted, 0⟩⟩

/-- The worker has a job, and is destroyed at once. -/
theorem busy_vm_destroyed :
    ¬∀ (cfg : Config) (answers : ForceoffAnswers) (s : State), ∀ v ∈ s.existing ++ s.starting,
      s.hasJobs v = true → Drained cfg s ((Operation.forceoff answers).after cfg s) v := by
  intro h
  have hdrained := h {} allDeleted oneBusyDynamic 0 (by decide) (by decide)
  have hreturns : raised ((forceoff {} allDeleted).exec {}) oneBusyDynamic = none := by
    decide +kernel
  obtain ⟨-, hout, -⟩ := of_returned ends_forceoff_destroys hreturns
  exact hdrained.spared (hout 0 (by decide)).1

end DynamicTorque
