import DynamicTorque.Language.Elapsed
import DynamicTorque.LifeCycle.Cleanup
import DynamicTorque.LifeCycle.Provisioning
import DynamicTorque.Scheduler.Packing

/-!
# What `check_cleanup` decides

The scan of `check_cleanup` asks the cloud and Torque about each VM that is being deleted. What it
decides depends on the VM as it was before the call and on the two answers: `cleanupScratch` replays
the decisions, and `CleanupAnswers.destroys` says on which VMs `vm_destroy` is called.

* `ends_cleanupVisit_removal`: where `vm_check` returns, a visit raises only where a node that it
  takes out of Torque cannot be taken out.
* `ends_cleanupScan_decides`: the scan comes to the decisions of the replay.
* `delete_retried_iff`: when a delete that has not worked is retried after the configured time. The
  code subtracts the later instant from the earlier one.
-/

open Python Atomic Program

namespace DynamicTorque

/-! ### One visit -/

/-- What becomes of a VM in its visit. -/
inductive Fate
  | gone
  | executing
  | stays
  deriving DecidableEq

/-- The scratch lists after a visit with this end. -/
def Fate.add (v : VmRef) (scratch : CleanupScratch) : Fate → CleanupScratch
  | .gone => { scratch with deleted := scratch.deleted ++ [v] }
  | .executing => { scratch with executing := scratch.executing ++ [v] }
  | .stays => scratch

/-- What becomes of a VM, if nothing raises. -/
def CleanupAnswers.fate (answers : CleanupAnswers) (vm : VM) : Fate :=
  if vm.hostname = "" then if answers.report.isNone then .gone else .stays
  else
    match answers.wnInTorque with
    | .error => .stays
    | .notLocated => if answers.report.isNone then .gone else .stays
    | .record wn =>
      if answers.report.isSome ∧ wn.jobs.isSome ∧ vm.forceOff = false then .executing else .stays

theorem CleanupAnswers.fate_of_gone {answers : CleanupAnswers} {vm : VM} (h : answers.Gone vm) :
    answers.fate vm = .gone := by
  obtain ⟨hreport, hname | hnode⟩ := h
  · simp [CleanupAnswers.fate, hreport, hname]
  · simp [CleanupAnswers.fate, hreport, hnode]

/-- A VM that the cloud does not know stays if Torque has not forgotten it. -/
theorem CleanupAnswers.fate_of_left {answers : CleanupAnswers} {vm : VM}
    (hreport : answers.report = none) (h : ¬answers.Gone vm) : answers.fate vm = .stays := by
  obtain ⟨hname, hnode⟩ := not_or.1 fun hor ↦ h ⟨hreport, hor⟩
  rw [CleanupAnswers.fate, if_neg hname, hreport]
  cases hanswer : answers.wnInTorque with
  | error => rfl
  | notLocated => exact absurd hanswer hnode
  | record wn => rfl

/-- Whether `vm_destroy` is called on a VM, if nothing raises. -/
def CleanupAnswers.destroys (cfg : Config) (answers : CleanupAnswers) (vm : VM) : Bool :=
  if vm.hostname = "" then false
  else
    match answers.wnInTorque with
    | .error => false
    | .notLocated => answers.report.isSome && deleteDue cfg vm answers.now
    | .record wn => answers.report.isSome && wn.jobs.isNone

/-- Between `s` and `s'` there is a call of `vm_destroy` on a VM. -/
def State.DestroyCalled (s s' : State) (v : VmRef) : Prop :=
  ∃ record forceOff answer, Event.vmDestroy v record forceOff answer ∈ s.since s'

/-- What a visit may do: destroy its VM if that is decided, and change it if the cloud knows it. -/
def CleanupAnswers.scope (cfg : Config) (answers : CleanupAnswers) (vm : VM) (v : VmRef) :
    Scope where
  destroys := fun w _ _ _ ↦ w = v ∧ answers.destroys cfg vm = true
  touches := fun w ↦ w = v ∧ answers.report.isSome = true

/-- What a delete reads of a VM and a status check does not change. -/
def VM.deletion (vm : VM) : Option Time × Bool :=
  (vm.deleteTime, vm.forceOff)

section Visit

variable {cfg : Config} {s s₁ : State} {v : VmRef} {answers : CleanupAnswers}

/-- A status check of a VM that the cloud knows. -/
theorem ends_vmCheck_known {scope : Scope} {report : ServerReport} (hv : scope.touches v) :
    Ends ((vmCheck cfg v (some report)).exec cfg) s
      (fun state s' ↦ state ≠ .destroyed ∧ Scanned scope s s' ∧
        (s'.vms v).deletion = (s.vms v).deletion)
      fun e s' ↦ NotFromRemove e ∧ Scanned scope s s' := by
  have hcheck : Scanning scope (vmCheck cfg v (some report))
      fun state ↦ state = cloudState (some report) := scanning_vmCheck hv _
  refine ((ends_of_scanning hcheck s).and (ends_vmCheck (some report))).mono ?_ fun _ _ h ↦ h.1
  rintro state s' ⟨⟨rfl, h⟩, -, -, hs'⟩
  refine ⟨fun hdestroyed ↦ Option.some_ne_none _ (report_of_destroyed hdestroyed), h, ?_⟩
  rw [hs', State.setVm_vms_self, VM.checked]
  split <;> rfl

/-- Calls add up. -/
theorem State.destroyCalled_iff {P P' : Event → Prop} {s' : State} (h : Emits P s s₁)
    (h' : Emits P' s₁ s') :
    s.DestroyCalled s' v ↔ s.DestroyCalled s₁ v ∨ s₁.DestroyCalled s' v := by
  simp only [State.DestroyCalled, h.since_trans h', List.mem_append]
  constructor
  · rintro ⟨record, forceOff, answer, hevent⟩
    exact hevent.imp (⟨record, forceOff, answer, ·⟩) (⟨record, forceOff, answer, ·⟩)
  · rintro (⟨record, forceOff, answer, hevent⟩ | ⟨record, forceOff, answer, hevent⟩)
    · exact ⟨record, forceOff, answer, .inl hevent⟩
    · exact ⟨record, forceOff, answer, .inr hevent⟩

/-- What is not allowed is not called. -/
theorem Emits.not_destroyCalled {destroys : Destroys}
    (h : Emits (Event.DestroysOnly destroys) s s₁)
    (hnot : ∀ record forceOff answer, ¬destroys v record forceOff answer) :
    ¬s.DestroyCalled s₁ v := by
  rintro ⟨record, forceOff, answer, hevent⟩
  exact hnot _ _ _ (h.events _ hevent)

/-- A call of `vm_destroy` in a visit. -/
theorem ends_vmDestroy_called {scope : Scope} {record : Option WorkerNode} {call : DestroyCall}
    (hv : scope.touches v)
    (hdestroys : ∀ forceOff, scope.destroys v record forceOff call.answer) :
    Ends ((vmDestroy v record call.answer call.now).exec cfg) s
      (fun _ s' ↦ Scanned scope s s' ∧ s.DestroyCalled s' v)
      fun e s' ↦ NotFromRemove e ∧ Scanned scope s s' := by
  refine (ends_vmDestroy (hdestroys _) call.now).mono ?_ ?_
  · rintro - s' ⟨h, hevent⟩
    exact ⟨h.mono (fun h ↦ h) fun w hw ↦ hw ▸ hv, _, _, _, hevent⟩
  · rintro e _ ⟨he, rfl⟩
    exact ⟨notFromRemove_of_get he, .refl _⟩

/-- What one visit leaves, if nothing raises. -/
structure CleanupVisited (cfg : Config) (answers : CleanupAnswers) (v : VmRef) (s : State)
    (scratch scratch' : CleanupScratch) (s' : State) : Prop where
  scratch : scratch' = (answers.fate (s.vms v)).add v scratch
  scanned : Scanned (answers.scope cfg (s.vms v) v) s s'
  called : answers.destroys cfg (s.vms v) = true → s.DestroyCalled s' v

theorem deleteDue_of_deletion {vm vm' : VM} (h : vm'.deletion = vm.deletion) (now : Time) :
    deleteDue cfg vm' now = deleteDue cfg vm now := by
  obtain ⟨hdelete, -⟩ := Prod.mk.inj h
  rw [deleteDue, deleteDue, hdelete]

/-- The cloud knows the VM and Torque does not: another attempt is made if it is due. -/
theorem ends_cleanUpUnknown_known {state : CloudState} (hreport : answers.report.isSome = true)
    (hname : (s.vms v).hostname ≠ "") (hnode : answers.wnInTorque = .notLocated)
    (hstate : state ≠ .destroyed) (h : Scanned (answers.scope cfg (s.vms v) v) s s₁)
    (hdeletion : (s₁.vms v).deletion = (s.vms v).deletion) (scratch : CleanupScratch) :
    Ends ((cleanUpUnknown cfg answers v state scratch).exec cfg) s₁
      (CleanupVisited cfg answers v s scratch)
      fun e s' ↦ NotFromRemove e ∧ Scanned (answers.scope cfg (s.vms v) v) s s' := by
  have hfate : answers.fate (s.vms v) = .stays := by
    rw [CleanupAnswers.fate, if_neg hname, hnode]
    simp [Option.isSome_iff_ne_none.1 hreport]
  have hdestroys : answers.destroys cfg (s.vms v) = deleteDue cfg (s.vms v) answers.now := by
    rw [CleanupAnswers.destroys, if_neg hname, hnode]
    simp [hreport]
  rw [cleanUpUnknown, if_neg hstate, ends_vm, deleteDue_of_deletion hdeletion]
  split
  · rename_i hdue
    have hv : (answers.scope cfg (s.vms v) v).touches v := ⟨rfl, hreport⟩
    rw [Proc.exec, run_bind, ends_bind]
    refine (ends_vmDestroy_called hv fun _ ↦ ⟨rfl, hdestroys.trans hdue⟩).mono
      (fun _ s₂ h₂ ↦ ?_) fun e s₂ h₂ ↦ ⟨h₂.1, h.trans h₂.2⟩
    exact ⟨by rw [hfate]; rfl, h.trans h₂.1, fun _ ↦
      (State.destroyCalled_iff h.trace h₂.1.trace).2 (.inr h₂.2)⟩
  · rename_i hdue
    exact ⟨by rw [hfate]; rfl, h, fun hcalled ↦ absurd (hdestroys.symm.trans hcalled) hdue⟩

/-- The cloud and Torque know the VM: it is destroyed if it has no jobs. -/
theorem ends_cleanUpKnown_known {state : CloudState} {wn : WorkerNode}
    (hreport : answers.report.isSome = true) (hname : (s.vms v).hostname ≠ "")
    (hnode : answers.wnInTorque = .record wn) (hstate : state ≠ .destroyed)
    (h : Scanned (answers.scope cfg (s.vms v) v) s s₁)
    (hdeletion : (s₁.vms v).deletion = (s.vms v).deletion) (scratch : CleanupScratch) :
    Ends ((cleanUpKnown cfg answers v state wn scratch).exec cfg) s₁
      (CleanupVisited cfg answers v s scratch)
      fun e s' ↦ NotFromRemove e ∧ Scanned (answers.scope cfg (s.vms v) v) s s' := by
  obtain ⟨-, hforce⟩ := Prod.mk.inj hdeletion
  have hdestroys : answers.destroys cfg (s.vms v) = wn.jobs.isNone := by
    rw [CleanupAnswers.destroys, if_neg hname, hnode]
    simp [hreport]
  rw [cleanUpKnown, if_neg hstate]
  split
  · rename_i hjobs
    have hcalled : answers.destroys cfg (s.vms v) = true → s.DestroyCalled s₁ v := by
      rw [hdestroys, Option.isNone_iff_eq_none]
      exact fun hnone ↦ absurd hnone (Option.isSome_iff_ne_none.1 hjobs)
    rw [ends_vm, hforce]
    refine ⟨?_, h, hcalled⟩
    rw [CleanupAnswers.fate, if_neg hname, hnode]
    cases hflag : (s.vms v).forceOff <;> simp [hreport, hjobs, Fate.add]
  · rename_i hjobs
    have hfate : answers.fate (s.vms v) = .stays := by
      rw [CleanupAnswers.fate, if_neg hname, hnode]
      simp [hjobs]
    have hidle : answers.destroys cfg (s.vms v) = true := by
      rw [hdestroys]
      simpa using hjobs
    refine ends_scanning_bind (scanning_releaseResForNode v) (fun _ s₂ _ h₂ ↦ ?_)
      fun e s₂ he h₂ ↦ ⟨he, h.trans h₂⟩
    refine ends_scanning_bind (scanning_runCommand .removeNode v) (fun _ s₃ _ h₃ ↦ ?_)
      fun e s₃ he h₃ ↦ ⟨he, (h.trans h₂).trans h₃⟩
    have hremoved : Scanned (answers.scope cfg (s.vms v) v) s s₃ := (h.trans h₂).trans h₃
    have hv : (answers.scope cfg (s.vms v) v).touches v := ⟨rfl, hreport⟩
    rw [Proc.exec, run_bind, ends_bind]
    refine (ends_vmDestroy_called hv fun _ ↦ ⟨rfl, hidle⟩).mono (fun _ s₄ h₄ ↦ ?_)
      fun e s₄ h₄ ↦ ⟨h₄.1, hremoved.trans h₄.2⟩
    have hset : Scanned (answers.scope cfg (s.vms v) v) s₄
        (s₄.setVm v fun vm ↦ { vm with deleteTime := some answers.now }) :=
      .setVm s₄ hv fun _ ↦ ⟨rfl, rfl, rfl, rfl⟩
    have hcalled : s.DestroyCalled s₄ v :=
      (State.destroyCalled_iff hremoved.trace h₄.1.trace).2 (.inr h₄.2)
    exact ⟨by rw [hfate]; rfl, (hremoved.trans h₄.1).trans hset, fun _ ↦
      (State.destroyCalled_iff (hremoved.trans h₄.1).trace hset.trace).2 (.inl hcalled)⟩

/-- **One visit.** -/
theorem ends_cleanupVisit_decides (scratch : CleanupScratch) :
    Ends ((cleanupVisit cfg answers v scratch).exec cfg) s
      (CleanupVisited cfg answers v s scratch)
      fun e s' ↦ NotFromRemove e ∧ Scanned (answers.scope cfg (s.vms v) v) s s' := by
  cases hreport : answers.report with
  | some report =>
    have hsome : answers.report.isSome = true := by rw [hreport]; rfl
    have hv : (answers.scope cfg (s.vms v) v).touches v := ⟨rfl, hsome⟩
    rw [cleanupVisit, hreport, Proc.exec, run_bind, ends_bind]
    refine (ends_vmCheck_known hv).mono ?_ fun _ _ h ↦ h
    rintro state s₁ ⟨hstate, h, hdeletion⟩
    rw [ends_vm, (h.vm v).hostname, if_neg hstate]
    split
    · rename_i hname
      refine ⟨?_, h, fun hcalled ↦ ?_⟩
      · rw [CleanupAnswers.fate, if_pos hname, hreport]
        rfl
      · rw [CleanupAnswers.destroys, if_pos hname] at hcalled
        exact absurd hcalled Bool.false_ne_true
    · rename_i hname
      cases hnode : answers.wnInTorque with
      | error =>
        refine ⟨?_, h, fun hcalled ↦ ?_⟩
        · rw [CleanupAnswers.fate, if_neg hname, hnode]
          rfl
        · rw [CleanupAnswers.destroys, if_neg hname, hnode] at hcalled
          exact absurd hcalled Bool.false_ne_true
      | notLocated =>
        exact ends_cleanUpUnknown_known hsome hname hnode hstate h hdeletion scratch
      | record wn => exact ends_cleanUpKnown_known hsome hname hnode hstate h hdeletion scratch
  | none =>
    have hkept : answers.destroys cfg (s.vms v) = false := by
      rw [CleanupAnswers.destroys, hreport]
      split
      · rfl
      · cases answers.wnInTorque <;> rfl
    have hnever : ∀ s', answers.destroys cfg (s.vms v) = true → s.DestroyCalled s' v :=
      fun _ hcalled ↦ absurd (hkept.symm.trans hcalled) Bool.false_ne_true
    refine ends_cleanupVisit_unknown hreport (fun hgone ↦ ⟨?_, .refl s, hnever s⟩)
      (fun s' hleft h ↦ ⟨?_, h, hnever s'⟩) fun e s' he h ↦ ⟨he, h⟩
    · rw [CleanupAnswers.fate_of_gone hgone]
      rfl
    · rw [CleanupAnswers.fate_of_left hreport hleft]
      rfl

end Visit

/-! ### Visits that return -/

/-- The visit takes the node of the VM out of Torque: Torque has it, and the cloud does not know the
VM or its node has no jobs. -/
def CleanupAnswers.Removes (answers : CleanupAnswers) (vm : VM) : Prop :=
  vm.hostname ≠ "" ∧ ∃ wn, answers.wnInTorque = .record wn ∧
    (answers.report = none ∨ wn.jobs = none)

/-- The command lines that take the node of a VM out of Torque can be built. -/
def RemovalBuilt (cfg : Config) (crs : CloudResources) (vm : VM) : Prop :=
  ((crs.object vm.cloudResourceName).accountString.isSome = true →
      Returns (Command.releaseRes.invocation cfg.commands vm)) ∧
    Returns (Command.removeNode.invocation cfg.commands vm)

/-- Nothing raises in the visit of a VM. -/
structure Visitable (cfg : Config) (crs : CloudResources) (vm : VM) (answers : CleanupAnswers) :
    Prop where
  check : Checkable crs vm answers.report
  removal : answers.Removes vm → RemovalBuilt cfg crs vm

section Returning

variable {cfg : Config} {s : State} {v : VmRef}

theorem ends_openConnection {α : Type} {resource : String} {f : CloudResource → Proc α}
    {Q : α → State → Prop} {E : PyError → State → Prop} (h : resource ∈ s.resources.names)
    (hf : Ends ((f (s.resources.object resource)).exec cfg) s Q E) :
    Ends ((openConnection resource >>= f).exec cfg) s Q E := by
  have hget : s.resources.get resource = .ok (s.resources.object resource) :=
    CloudResources.get_eq_ok_iff.2 ⟨h, rfl⟩
  show Ends (Proc.exec (Program.lift (s.resources.get resource) >>= f) cfg) s Q E
  rw [hget]
  exact hf

theorem ends_vmDestroy_returns {record : Option WorkerNode} {answer : DestroyAnswer} {now : Time}
    (h : (s.vms v).cloudResourceName ∈ s.resources.names) :
    Ends ((vmDestroy v record answer now).exec cfg) s (fun _ _ ↦ True) fun _ _ ↦ False := by
  rw [vmDestroy.eq_def, ends_vm]
  refine ends_openConnection h ?_
  cases answer <;> trivial

/-- A command is run exactly if its command line can be built. -/
theorem ends_runCommand {command : Command} : Ends ((runCommand cfg command v).exec cfg) s
    (fun _ _ ↦ Returns (command.invocation cfg.commands (s.vms v)))
    fun _ _ ↦ ¬Returns (command.invocation cfg.commands (s.vms v)) := by
  rw [runCommand, ends_vm]
  refine ends_lift_bind (fun invocation h ↦ ⟨invocation, h⟩) fun e h ↦ ?_
  rw [h]
  exact not_returns_error e

theorem ends_releaseResForNode (h : (s.vms v).cloudResourceName ∈ s.resources.names) :
    Ends ((releaseResForNode cfg v).exec cfg) s
      (fun _ _ ↦ (s.resources.object (s.vms v).cloudResourceName).accountString.isSome = true →
        Returns (Command.releaseRes.invocation cfg.commands (s.vms v)))
      fun _ _ ↦ (s.resources.object (s.vms v).cloudResourceName).accountString.isSome = true ∧
        ¬Returns (Command.releaseRes.invocation cfg.commands (s.vms v)) := by
  rw [releaseResForNode, ends_vm, ends_resources]
  refine ends_lift_bind (fun res hres ↦ ?_) fun e he ↦ ?_
  · obtain ⟨-, rfl⟩ := CloudResources.get_eq_ok_iff.1 hres
    rw [Program.when]
    split
    · rename_i hsome
      exact ends_runCommand.mono (fun _ _ h _ ↦ h) fun _ _ h ↦ ⟨hsome, h⟩
    · rename_i hnone
      exact fun hsome ↦ absurd hsome hnone
  · rw [CloudResources.get, if_pos h] at he
    cases he

/-- Whether the command lines can be built is a matter of the name of the node. -/
theorem removalBuilt_congr {crs : CloudResources} {vm vm' : VM} (h : SameVm vm vm') :
    RemovalBuilt cfg crs vm' ↔ RemovalBuilt cfg crs vm := by
  simp only [RemovalBuilt, Command.invocation, h.hostname, h.resource]

/-- **A node is taken out of Torque** exactly if the command lines can be built. -/
theorem ends_removal {α : Type} {f : Unit → Proc α} {Q : α → State → Prop}
    {E : PyError → State → Prop} (h : (s.vms v).cloudResourceName ∈ s.resources.names)
    (hf : RemovalBuilt cfg s.resources (s.vms v) → ∀ s', Scanned .any s s' →
      Ends ((f ()).exec cfg) s' Q E)
    (hraises : ¬RemovalBuilt cfg s.resources (s.vms v) → ∀ e s', E e s') :
    Ends (Proc.exec (releaseResForNode cfg v >>= fun _ ↦ runCommand cfg .removeNode v >>= f) cfg)
      s Q E := by
  have hreleasing : Scanning .any (releaseResForNode cfg v) fun _ ↦ True :=
    scanning_releaseResForNode v
  have hremoving : Scanning .any (runCommand cfg .removeNode v) fun _ ↦ True :=
    scanning_runCommand .removeNode v
  rw [Proc.exec, run_bind, ends_bind]
  refine ((ends_of_scanning hreleasing s).and (ends_releaseResForNode h)).mono ?_ ?_
  · rintro - s₁ ⟨⟨-, h₁⟩, hrelease⟩
    rw [run_bind, ends_bind]
    have hcommand : Command.removeNode.invocation cfg.commands (s₁.vms v) =
        Command.removeNode.invocation cfg.commands (s.vms v) := by
      simp only [Command.invocation, (h₁.vm v).hostname]
    refine ((ends_of_scanning hremoving s₁).and ends_runCommand).mono ?_ ?_
    · rintro - s₂ ⟨⟨-, h₂⟩, hremove⟩
      exact hf ⟨hrelease, hcommand ▸ hremove⟩ s₂ (h₁.trans h₂)
    · rintro e s₂ ⟨-, hremove⟩
      exact hraises (fun hbuilt ↦ hremove (hcommand ▸ hbuilt.2)) e s₂
  · rintro e s₁ ⟨-, hsome, hrelease⟩
    exact hraises (fun hbuilt ↦ hrelease (hbuilt.1 hsome)) e s₁

/-- **One visit**, where the check returns: it returns exactly if a node that it takes out of Torque
can be taken out. -/
theorem ends_cleanupVisit_removal {answers : CleanupAnswers}
    (h : Checkable s.resources (s.vms v) answers.report) (scratch : CleanupScratch) :
    Ends ((cleanupVisit cfg answers v scratch).exec cfg) s
      (fun _ _ ↦ answers.Removes (s.vms v) → RemovalBuilt cfg s.resources (s.vms v))
      fun _ _ ↦ answers.Removes (s.vms v) ∧ ¬RemovalBuilt cfg s.resources (s.vms v) := by
  -- none of the steps changes which resources there are, or the resource of the VM
  have hknown : ∀ {s₁ : State}, Scanned .any s s₁ →
      (s₁.vms v).cloudResourceName ∈ s₁.resources.names := fun {s₁} h₁ ↦ by
    rw [(h₁.vm v).resource, h₁.resources]
    exact h.resource
  have hbuilt : ∀ {s₁ : State}, Scanned .any s s₁ →
      (RemovalBuilt cfg s₁.resources (s₁.vms v) ↔ RemovalBuilt cfg s.resources (s.vms v)) :=
    fun {s₁} h₁ ↦ by rw [h₁.resources, removalBuilt_congr (h₁.vm v)]
  have hcheck : Scanning .any (vmCheck cfg v answers.report)
      fun state ↦ state = cloudState answers.report := scanning_vmCheck trivial _
  rw [cleanupVisit, Proc.exec, run_bind, ends_bind]
  refine ((ends_of_scanning hcheck s).and (ends_vmCheck_returns h)).mono ?_
    fun _ _ h ↦ h.2.elim
  rintro state s₁ ⟨⟨hstate, h₁⟩, -⟩
  rw [ends_vm, (h₁.vm v).hostname]
  split
  · rename_i hname
    exact fun hremoves ↦ absurd hname hremoves.1
  · rename_i hname
    have hkeeps : ∀ {wn : WorkerNode}, ¬(answers.report = none ∨ wn.jobs = none) →
        answers.wnInTorque = .record wn → ¬answers.Removes (s.vms v) := by
      rintro wn hnot hnode ⟨-, wn', hnode', hremoves⟩
      obtain rfl : wn = wn' := by simpa using hnode.symm.trans hnode'
      exact hnot hremoves
    have hrecorded : answers.Removes (s.vms v) → ∃ wn, answers.wnInTorque = .record wn := by
      rintro ⟨-, wn, hrecord, -⟩
      exact ⟨wn, hrecord⟩
    cases hnode : answers.wnInTorque with
    | error => exact fun hremoves ↦ absurd (hrecorded hremoves) (by simp [hnode])
    | notLocated =>
      have hnot : answers.Removes (s.vms v) → RemovalBuilt cfg s.resources (s.vms v) :=
        fun hremoves ↦ absurd (hrecorded hremoves) (by simp [hnode])
      show Ends ((cleanUpUnknown cfg answers v state scratch).exec cfg) s₁ _ _
      rw [cleanUpUnknown]
      split
      · exact hnot
      · rw [ends_vm]
        split
        · rw [Proc.exec, run_bind, ends_bind]
          exact (ends_vmDestroy_returns (hknown h₁)).mono (fun _ _ _ ↦ hnot) fun _ _ h ↦ h.elim
        · exact hnot
    | record wn =>
      show Ends ((cleanUpKnown cfg answers v state wn scratch).exec cfg) s₁ _ _
      rw [cleanUpKnown]
      split
      · rename_i hdestroyed
        have hremoves : answers.Removes (s.vms v) :=
          ⟨hname, wn, hnode, .inl (report_of_destroyed (hstate ▸ hdestroyed))⟩
        exact ends_removal (hknown h₁) (fun hremoval _ _ _ ↦ (hbuilt h₁).1 hremoval)
          fun hremoval _ _ ↦ ⟨hremoves, fun h ↦ hremoval ((hbuilt h₁).2 h)⟩
      · rename_i hlives
        split
        · rename_i hjobs
          rw [ends_vm]
          refine fun hremoves ↦ absurd hremoves (hkeeps ?_ hnode)
          rintro (hnone | hnone)
          · exact hlives (hstate.trans (by rw [hnone]; rfl))
          · exact absurd hnone (Option.isSome_iff_ne_none.1 hjobs)
        · rename_i hidle
          have hremoves : answers.Removes (s.vms v) :=
            ⟨hname, wn, hnode, .inr (by simpa using hidle)⟩
          refine ends_removal (hknown h₁) (fun hremoval s₂ h₂ ↦ ?_)
            fun hremoval _ _ ↦ ⟨hremoves, fun h ↦ hremoval ((hbuilt h₁).2 h)⟩
          rw [Proc.exec, run_bind, ends_bind]
          exact (ends_vmDestroy_returns (hknown (h₁.trans h₂))).mono
            (fun _ _ _ _ ↦ (hbuilt h₁).1 hremoval) fun _ _ h ↦ h.elim

theorem ends_cleanupVisit_returns {answers : CleanupAnswers}
    (h : Visitable cfg s.resources (s.vms v) answers) (scratch : CleanupScratch) :
    Ends ((cleanupVisit cfg answers v scratch).exec cfg) s (fun _ _ ↦ True) fun _ _ ↦ False :=
  (ends_cleanupVisit_removal h.check scratch).mono (fun _ _ _ ↦ trivial)
    fun _ _ hraised ↦ hraised.2 (h.removal hraised.1)

end Returning

/-! ### The scan -/

/-- The VMs of `vs` that a clean-up finds in a given way. -/
def decided (fate : Fate) (answers : ℕ → CleanupAnswers) (vms : VmRef → VM) (vs : List VmRef) :
    List VmRef :=
  (vs.zipIdx.filter fun vi ↦ (answers vi.2).fate (vms vi.1) = fate).map Prod.fst

/-- The decisions of the first loop of `check_cleanup` over the VMs `vs`. -/
def cleanupScratch (answers : ℕ → CleanupAnswers) (vms : VmRef → VM) (vs : List VmRef) :
    CleanupScratch where
  deleted := decided .gone answers vms vs
  executing := decided .executing answers vms vs

section Decided

variable {answers : ℕ → CleanupAnswers} {vms : VmRef → VM} {vs : List VmRef} {v : VmRef}
  {fate : Fate}

theorem mem_decided : v ∈ decided fate answers vms vs ↔
    ∃ i, vs[i]? = some v ∧ (answers i).fate (vms v) = fate := by
  simp only [decided, List.mem_map, List.mem_filter, Prod.exists, decide_eq_true_eq,
    List.mk_mem_zipIdx_iff_getElem?]
  constructor
  · rintro ⟨w, i, ⟨hget, hfate⟩, rfl⟩
    exact ⟨i, hget, hfate⟩
  · rintro ⟨i, hget, hfate⟩
    exact ⟨v, i, ⟨hget, hfate⟩, rfl⟩

theorem cleanupScratch_append_singleton (vs : List VmRef) (v : VmRef) :
    cleanupScratch answers vms (vs ++ [v]) =
      ((answers vs.length).fate (vms v)).add v (cleanupScratch answers vms vs) := by
  simp only [cleanupScratch, decided, List.zipIdx_append, List.filter_append, Nat.zero_add,
    List.zipIdx_singleton, List.map_append]
  cases h : (answers vs.length).fate (vms v) <;> simp [h, Fate.add]

end Decided

/-- What the scan has come to after the VMs `done`. -/
structure CleanupDecided (cfg : Config) (answers : CleanupCalls) (done : List VmRef) (s : State)
    (scratch : CleanupScratch) (s' : State) : Prop where
  scratch : scratch = cleanupScratch answers.visit s.vms done
  scanned : Scanned .any s s'
  called : ∀ {i : ℕ} {v}, done[i]? = some v →
    (s.DestroyCalled s' v ↔ (answers.visit i).destroys cfg (s.vms v) = true)
  uncalled : ∀ {v}, v ∉ done → ¬s.DestroyCalled s' v
  untouched : ∀ {v}, v ∉ done → s'.vms v = s.vms v
  unknown : ∀ {i : ℕ} {v}, done[i]? = some v → (answers.visit i).report = none →
    s'.vms v = s.vms v

/-- The scan raised at a VM whose visit does not return; the ones before it have been visited. -/
def CleanupBroken (cfg : Config) (answers : CleanupCalls) (s s' : State) : Prop :=
  ∃ done v rest, done ++ v :: rest = s.deleting ∧
    ¬Visitable cfg s.resources (s.vms v) (answers.visit done.length) ∧
    ∀ (i : ℕ) w, done[i]? = some w →
      (s.DestroyCalled s' w ↔ (answers.visit i).destroys cfg (s.vms w) = true)

section Scan

variable {cfg : Config} {answers : CleanupCalls} {s s₁ s₂ : State} {done : List VmRef} {v : VmRef}
  {scratch scratch' : CleanupScratch}

/-- The calls of a visit are about its own VM. -/
theorem destroyCalled_of_scope {vm : VM} {visit : CleanupAnswers} {w : VmRef} (hne : w ≠ v)
    (h : Scanned .any s s₁) (h' : Scanned (visit.scope cfg vm v) s₁ s₂) :
    s.DestroyCalled s₂ w ↔ s.DestroyCalled s₁ w := by
  have hnot : ¬s₁.DestroyCalled s₂ w :=
    (h'.trace.mono fun _ he ↦ he.destroysOnly id).not_destroyCalled fun _ _ _ hw ↦ hne hw.1
  rw [State.destroyCalled_iff h.trace h'.trace, or_iff_left hnot]

/-- **One more VM.** -/
theorem CleanupDecided.visit (h : CleanupDecided cfg answers done s scratch s₁) (hfresh : v ∉ done)
    (h' : CleanupVisited cfg (answers.visit done.length) v s₁ scratch scratch' s₂) :
    CleanupDecided cfg answers (done ++ [v]) s scratch' s₂ := by
  have hvm : s₁.vms v = s.vms v := h.untouched hfresh
  obtain ⟨hscratch, hscanned, hcalled⟩ := h'
  rw [hvm] at hscratch hscanned hcalled
  have hother : ∀ {w}, w ∈ done → w ≠ v := fun hw heq ↦ hfresh (heq ▸ hw)
  exact
    { scratch := by rw [hscratch, h.scratch, cleanupScratch_append_singleton]
      scanned := h.scanned.trans (hscanned.mono (fun _ ↦ trivial) fun _ _ ↦ trivial)
      called := fun {i w} hget ↦ by
        rcases getElem?_concat_eq_some hget with hold | ⟨rfl, rfl⟩
        · have hne := hother (List.mem_of_getElem? hold)
          rw [destroyCalled_of_scope hne h.scanned hscanned]
          exact h.called hold
        · rw [State.destroyCalled_iff h.scanned.trace hscanned.trace,
            or_iff_right (h.uncalled hfresh)]
          refine ⟨fun hdestroyed ↦ ?_, hcalled⟩
          obtain ⟨_, _, _, hevent⟩ := hdestroyed
          exact (hscanned.trace.events _ hevent).2
      uncalled := fun {w} hw ↦ by
        rw [List.mem_append, not_or, List.mem_singleton] at hw
        rw [destroyCalled_of_scope hw.2 h.scanned hscanned]
        exact h.uncalled hw.1
      untouched := fun {w} hw ↦ by
        rw [List.mem_append, not_or, List.mem_singleton] at hw
        exact (hscanned.untouched w fun htouch ↦ hw.2 htouch.1).trans (h.untouched hw.1)
      unknown := fun {i w} hget hnone ↦ by
        rcases getElem?_concat_eq_some hget with hold | ⟨rfl, rfl⟩
        · have hne := hother (List.mem_of_getElem? hold)
          exact (hscanned.untouched w fun htouch ↦ hne htouch.1).trans (h.unknown hold hnone)
        · refine (hscanned.untouched w fun htouch ↦ ?_).trans hvm
          exact absurd htouch.2 (by simp [hnone]) }

theorem CleanupDecided.start : CleanupDecided cfg answers [] s ⟨[], []⟩ s where
  scratch := rfl
  scanned := .refl s
  called := fun h ↦ by simp at h
  uncalled := fun _ ↦ (Emits.refl (P := Event.DestroysOnly fun _ _ _ _ ↦ False) s)
    |>.not_destroyCalled fun _ _ _ h ↦ h
  untouched := fun _ ↦ rfl
  unknown := fun _ _ ↦ rfl

/-- **The scan.** It comes to the decisions that the replay predicts. -/
theorem ends_cleanupScan_decides (hnodup : s.deleting.Nodup) : Ends (Proc.exec (forEach
    (fun i v scratch ↦ cleanupVisit cfg (answers.visit i) v scratch) 0 s.deleting ⟨[], []⟩) cfg) s
    (CleanupDecided cfg answers s.deleting s) fun _ s' ↦ CleanupBroken cfg answers s s' := by
  refine ends_forEach (I := fun done ↦ CleanupDecided cfg answers done s) ?_ .start
  intro done v rest scratch s₁ hdone h₁
  have hfresh : v ∉ done := notMem_of_nodup hdone hnodup
  rcases Classical.em (Visitable cfg s.resources (s.vms v) (answers.visit done.length)) with
    hvisit | hvisit
  · have hvisit₁ : Visitable cfg s₁.resources (s₁.vms v) (answers.visit done.length) := by
      rwa [h₁.scanned.resources, h₁.untouched hfresh]
    exact ((ends_cleanupVisit_decides scratch).and
      (ends_cleanupVisit_returns hvisit₁ scratch)).mono (fun _ s₂ h₂ ↦ h₁.visit hfresh h₂.1)
        fun _ _ h₂ ↦ h₂.2.elim
  · refine (ends_cleanupVisit_decides scratch).mono (fun _ s₂ h₂ ↦ h₁.visit hfresh h₂) ?_
    rintro e s₂ ⟨-, h₂⟩
    refine ⟨done, v, rest, hdone, hvisit, fun i w hget ↦ ?_⟩
    have hne : w ≠ v := fun h ↦ hfresh (h ▸ List.mem_of_getElem? hget)
    rw [destroyCalled_of_scope hne h₁.scanned h₂]
    exact h₁.called hget

end Scan

/-! ### `check_cleanup` -/

section CheckCleanup

variable {cfg : Config} {answers : CleanupCalls} {s s' : State} {i : ℕ} {v : VmRef}

/-- The calls of `vm_destroy` are those of the scan, up to the VM whose visit raised. -/
theorem ends_checkCleanup_called (hnodup : s.deleting.Nodup) :
    Ends ((checkCleanup cfg answers).exec cfg) s
      (fun _ s' ↦ ∀ (i : ℕ) v, s.deleting[i]? = some v →
        (s.DestroyCalled s' v ↔ (answers.visit i).destroys cfg (s.vms v) = true))
      fun _ s' ↦ (∀ (i : ℕ) v, s.deleting[i]? = some v →
        (s.DestroyCalled s' v ↔ (answers.visit i).destroys cfg (s.vms v) = true)) ∨
          CleanupBroken cfg answers s s' := by
  let Called (s' : State) : Prop := ∀ (i : ℕ) v, s.deleting[i]? = some v →
    (s.DestroyCalled s' v ↔ (answers.visit i).destroys cfg (s.vms v) = true)
  -- what follows the scan destroys nothing
  have hrest : ∀ {scratch s₁ s₂}, CleanupDecided cfg answers s.deleting s scratch s₁ →
      Emits (Event.DestroysOnly fun _ _ _ _ ↦ False) s₁ s₂ → Called s₂ := by
    intro scratch s₁ s₂ h₁ h₂ i v hget
    rw [State.destroyCalled_iff h₁.scanned.trace h₂,
      or_iff_left (h₂.not_destroyCalled fun _ _ _ h ↦ h)]
    exact h₁.called hget
  have hquiet : ∀ {s₁ s₂ : State}, Emits (Event.Allowed fun _ _ _ _ ↦ False) s₁ s₂ →
      Emits (Event.DestroysOnly fun _ _ _ _ ↦ False) s₁ s₂ := fun h ↦
    h.mono fun _ he ↦ he.destroysOnly id
  refine ends_checkCleanup_of_scan (ends_cleanupScan_decides hnodup) ?_ (fun _ _ _ h _ ↦ .inr h)
    (fun _ _ _ _ _ _ h₁ _ _ h₂ ↦ .inl (hrest h₁ (hquiet h₂.trace))) ?_
  · intro hempty i v hget
    simp [hempty] at hget
  · intro s₁ s₂ s₃ scratch _ h₁ _ h₂ h₃
    have hdone := (hquiet h₂.trace).trans (hquiet h₃.trace)
    refine (finishes_updateAvailableCores fun s ↦
      finishes_launchIfWaiting answers.launch).mono ?_ ?_
    · exact fun _ s' h' ↦ hrest h₁ (hdone.trans h'.trace)
    · exact fun _ s' h' ↦ .inl (hrest h₁ (hdone.trans h'.2.trace))

/-- The visits return up to the position `i`. -/
def VisitsReturn (cfg : Config) (answers : CleanupCalls) (s : State) (i : ℕ) : Prop :=
  ∀ j ≤ i, ∀ w, s.deleting[j]? = some w → Visitable cfg s.resources (s.vms w) (answers.visit j)

/-- **Where the visits return up to a VM, `vm_destroy` is called on it as it is decided.** -/
theorem destroyCalled_checkCleanup (hnodup : s.deleting.Nodup) (hv : s.deleting[i]? = some v)
    (hvisits : VisitsReturn cfg answers s i) :
    s.DestroyCalled ((Operation.checkCleanup answers).after cfg s) v ↔
      (answers.visit i).destroys cfg (s.vms v) = true := by
  refine stateAfter_of_ends (P := fun s' ↦ s.DestroyCalled s' v ↔ _)
    ((ends_checkCleanup_called hnodup).mono (fun _ _ h ↦ h i v hv) fun _ s' h ↦ ?_)
  rcases h with h | ⟨done, w, rest, hdone, hbroken, hcalled⟩
  · exact h i v hv
  · -- the visit that raised comes later
    have hlater : i < done.length := by
      by_contra hle
      refine hbroken (hvisits done.length (by omega) w ?_)
      simp [← hdone]
    refine hcalled i v ?_
    rw [← hdone, List.getElem?_append_left hlater] at hv
    exact hv

/-! ### Retries -/

/-- A delete is to be tried again: none was tried, or more than the configured time has passed since
the last one. -/
def RetryDue (cfg : Config) (vm : VM) (now : Time) : Prop :=
  ∀ d, vm.deleteTime = some d → cfg.maxDeleteRetryTime * 1000000 < now - d

/-- The seconds since the last delete and those that are missing to a whole day are on the same side
of the configured time. -/
def RetryAgrees (cfg : Config) (vm : VM) (now : Time) : Prop :=
  ∀ d, vm.deleteTime = some d →
    (cfg.maxDeleteRetryTime < untilNextDay (startedSeconds d now) ∧
      cfg.maxDeleteRetryTime < startedSeconds d now) ∨
    (untilNextDay (startedSeconds d now) ≤ cfg.maxDeleteRetryTime ∧
      startedSeconds d now ≤ cfg.maxDeleteRetryTime)

theorem deleteDue_iff (vm : VM) (now : Time) :
    (deleteDue cfg vm now = true ↔ RetryDue cfg vm now) ↔ RetryAgrees cfg vm now := by
  rw [deleteDue, RetryDue, RetryAgrees]
  cases vm.deleteTime with
  | none => simp
  | some d =>
    simp only [Option.some.injEq, forall_eq', decide_eq_true_eq, gt_iff_lt]
    exact lt_timedeltaSeconds_swap_iff

/-- **Retries.** A VM that the cloud knows and Torque does not is destroyed again when that is due,
exactly if the time since the last attempt and what is missing from it to a whole day agree. -/
theorem delete_retried_iff (answers : CleanupCalls) (hnodup : s.deleting.Nodup)
    (hv : s.deleting[i]? = some v) (hvisits : VisitsReturn cfg answers s i)
    (hname : (s.vms v).hostname ≠ "") (hcloud : (answers.visit i).report.isSome = true)
    (htorque : (answers.visit i).wnInTorque = .notLocated) :
    (s.DestroyCalled ((Operation.checkCleanup answers).after cfg s) v ↔
        RetryDue cfg (s.vms v) (answers.visit i).now) ↔
      RetryAgrees cfg (s.vms v) (answers.visit i).now := by
  have hdestroys : (answers.visit i).destroys cfg (s.vms v) =
      deleteDue cfg (s.vms v) (answers.visit i).now := by
    rw [CleanupAnswers.destroys, if_neg hname, htorque]
    simp [hcloud]
  rw [destroyCalled_checkCleanup hnodup hv hvisits, hdestroys]
  exact deleteDue_iff _ _

end CheckCleanup

/-- One VM, deleted at the instant 0. -/
def oneDeleted : State :=
  { State.initial JobScheduler.threeNodes with
    deleting := [0]
    nextVm := 1
    vms := fun _ ↦
      { VM.init "id" "wn1" 4 (some (.id "3")) 0 none (some "image") "default" with
        deleteTime := some 0 } }

/-- At the time `now` the cloud still knows the VM. -/
def stillInCloud (now : Time) : CleanupCalls where
  visit := fun _ ↦
    { report := some ⟨"ACTIVE", 0, "active", some "deleting", none, "image", none, none, false⟩
      wnInTorque := .notLocated
      now := now
      destroy := ⟨.deleted, now⟩ }
  launch := fun _ ↦ none

theorem visitsReturn_stillInCloud (now : Time) :
    VisitsReturn {} (stillInCloud now) oneDeleted 0 := by
  intro j _ w _
  refine ⟨⟨show "default" ∈ oneDeleted.resources.names by decide,
    fun _ _ hzero ↦ absurd hzero (show ¬(4 : ℤ) = 0 by decide),
    fun _ _ hactive ↦ absurd hactive (by simp [cloudState, stillInCloud])⟩, ?_⟩
  rintro ⟨-, wn, hrecord, -⟩
  simp [stillInCloud] at hrecord

/-- Half a day after the delete it is tried again, as is due; one second after it that differs. -/
theorem delete_retried_iff_stillInCloud :
    oneDeleted.DestroyCalled
        ((Operation.checkCleanup (stillInCloud 43200000000)).after {} oneDeleted) 0 ∧
      ¬(oneDeleted.DestroyCalled
          ((Operation.checkCleanup (stillInCloud 1000000)).after {} oneDeleted) 0 ↔
        RetryDue {} (oneDeleted.vms 0) 1000000) := by
  constructor
  · refine ((delete_retried_iff (stillInCloud 43200000000) (i := 0) (by decide) rfl
      (visitsReturn_stillInCloud _) (by decide) rfl rfl).2 ?_).2 ?_
    · exact fun d hd ↦ Option.some.inj hd ▸ .inl (by decide)
    · exact fun d hd ↦ Option.some.inj hd ▸ by decide
  · intro h
    have hagrees := (delete_retried_iff (stillInCloud 1000000) (i := 0) (by decide) rfl
      (visitsReturn_stillInCloud _) (by decide) rfl rfl).1 h
    exact absurd (hagrees 0 rfl) (by decide)

/-- The delete is retried after one second. -/
theorem retried_at_once :
    ¬∀ (cfg : Config) (answers : CleanupCalls) (s : State) (i : ℕ) (v : VmRef),
      s.deleting.Nodup → s.deleting[i]? = some v → VisitsReturn cfg answers s i →
      (s.vms v).hostname ≠ "" → (answers.visit i).report.isSome = true →
      (answers.visit i).wnInTorque = .notLocated →
      (∀ d, (s.vms v).deleteTime = some d → d ≤ (answers.visit i).now) →
      (s.DestroyCalled ((Operation.checkCleanup answers).after cfg s) v ↔
        RetryDue cfg (s.vms v) (answers.visit i).now) := by
  intro h
  have hcalled : oneDeleted.DestroyCalled
      ((Operation.checkCleanup (stillInCloud 1000000)).after {} oneDeleted) 0 :=
    (destroyCalled_checkCleanup (i := 0) (by decide) rfl (visitsReturn_stillInCloud _)).2
      (by decide +kernel)
  have hdue := (h {} (stillInCloud 1000000) oneDeleted 0 0 (by decide) rfl
    (visitsReturn_stillInCloud _) (by decide) rfl rfl
    (fun d hd ↦ Option.some.inj hd ▸ by decide)).1 hcalled
  exact absurd (hdue 0 rfl) (by decide)

end DynamicTorque
