import DynamicTorque.LifeCycle.Provisioning
import DynamicTorque.LifeCycle.Workers

/-!
# What the operations write

Two files are kept outside the process: the persistent node file, which `dump_nodes` rewrites, and
`/etc/hosts`, to which `add_node_to_torque` appends and from which `remove_node_from_hosts_file`
deletes. Most of what the operations do concerns neither. Two classes of steps say so.

* `Act.Aside`: steps that take no VM out of the lists, such as launching, polling and moving VMs
  from the starting to the deleting list.
* `Act.Releases`: steps that create no VM, such as those that kill, shut down and destroy VMs.

Each is relative to an attribute of the VMs that stays as it is.
-/

open Python Atomic Program

namespace DynamicTorque

/-! ### Events -/

/-- An event that writes neither file. -/
def Event.Plain : Event → Prop
  | .dumpNodes _ => False
  | .command (.addNode _) _ => False
  | .command .removeNodeFromHostsFile _ => False
  | _ => True

/-- An event that adds nothing to either file. -/
def Event.Removing : Event → Prop
  | .dumpNodes _ => False
  | .command (.addNode _) _ => False
  | _ => True

/-- An event that does not write the persistent node file. -/
def Event.Undumped : Event → Prop
  | .dumpNodes _ => False
  | _ => True

theorem Event.Plain.removing {e : Event} (h : e.Plain) : e.Removing := by
  cases e with
  | dumpNodes hostnames => exact h
  | command c v => cases c <;> first | exact h | trivial
  | _ => trivial

theorem Event.Removing.undumped {e : Event} (h : e.Removing) : e.Undumped := by
  cases e with
  | dumpNodes hostnames => exact h
  | _ => trivial

theorem Event.Plain.undumped {e : Event} (h : e.Plain) : e.Undumped :=
  h.removing.undumped

/-- What the files say of a VM: its name, and whether it was added to Torque. -/
def VM.role (vm : VM) : String × Bool :=
  (vm.hostname, vm.cloudReady)

/-! ### Steps aside -/

/-- The steps that keep an attribute of every VM, cause only the events `P`, and take no VM out of
the lists. -/
def Act.Aside {β : Type} (g : VM → β) (P : Event → Prop) : Act → Prop
  | .list _ | .findVm _ | .vm _ | .waiting => True
  | .cluster | .provisioning | .sleepMode | .resources => True
  | .setVm _ f => ∀ vm, g (f vm) = g vm
  | .setCluster _ | .setProvisioning _ | .newVm _ | .appendWaiting _ => True
  | .emit e => P e
  | .locked (.startingToDeleting _) | .locked (.setProvisioning _) => True
  | .locked (.addStarting _) | .locked (.endLaunch _) => True
  | .locked (.queueRequests _) | .locked .updateAvailableCores => True
  | _ => False

/-- A program that steps aside. -/
abbrev Aside {α β : Type} (g : VM → β) (P : Event → Prop) (p : Proc α) : Prop :=
  p.Within (Act.Aside g P) (fun _ ↦ True) fun _ ↦ True

section Aside

variable {α β : Type} {cfg : Config} {g : VM → β} {P : Event → Prop} {v : VmRef}

theorem Aside.weaken {γ : Type} {g' : VM → γ} {P' : Event → Prop} {p : Proc α}
    (h : Aside g P p) (hg : ∀ vm vm', g vm' = g vm → g' vm' = g' vm) (hP : ∀ e, P e → P' e) :
    Aside g' P' p := by
  refine Within.mono h (fun o ho ↦ ?_) (fun _ _ ↦ trivial) fun _ _ ↦ trivial
  cases o with
  | setVm v f => exact fun vm ↦ hg vm (f vm) (ho vm)
  | emit e => exact hP e ho
  | locked b => cases b <;> exact ho
  | _ => exact ho

theorem aside_lift (x : Except PyError α) : Aside g P (Program.lift x : Proc α) :=
  within_lift (fun _ _ ↦ trivial) fun _ _ ↦ trivial

theorem aside_step {o : Act} (h : o.Aside g P) : Aside g P (Program.perform o) :=
  ⟨h, fun _ ↦ trivial⟩

theorem aside_openConnection (resource : String) : Aside g P (openConnection resource) :=
  within_openConnection trivial (fun _ _ ↦ trivial) resource

theorem aside_getFlavor (answer : Option VMFlavor) : Aside g P (getFlavor answer) := by
  cases answer <;> trivial

theorem aside_runCommand {command : Command} (h : P (.command command v)) :
    Aside g P (runCommand cfg command v) :=
  within_runCommand (fun _ ↦ trivial) h fun _ _ ↦ trivial

theorem aside_command {c : Prop} [Decidable c] {command : Command} (h : P (.command command v)) :
    Aside g P (Program.when c (runCommand cfg command v)) :=
  within_when fun _ ↦ aside_runCommand h

theorem aside_vmDestroy (record : Option WorkerNode) (answer : DestroyAnswer) (now : Time) :
    Aside VM.role Event.Plain (vmDestroy v record answer now) :=
  within_vmDestroy trivial trivial (fun _ ↦ trivial) (fun _ ↦ rfl) fun _ _ ↦ trivial

theorem aside_vmCheck (answer : Option ServerReport) :
    Aside VM.role Event.Plain (vmCheck cfg v answer) := by
  refine .step trivial fun vm ↦ (aside_openConnection _).bind fun _ _ ↦ ?_
  cases answer with
  | none => trivial
  | some report =>
    have hcpu : Aside VM.role Event.Plain (setVcpuNumber v report.sizeFlavor) := by
      refine .step trivial fun vm ↦ ?_
      split
      · exact (aside_getFlavor _).bind fun flavor _ ↦ aside_step fun _ ↦ rfl
      · trivial
    refine .step (fun _ ↦ rfl) fun _ ↦ hcpu.bind fun _ _ ↦ ?_
    split
    · trivial
    · split
      · trivial
      · split
        · trivial
        · exact .step (fun _ ↦ rfl) fun _ ↦ (aside_getFlavor _).bind fun _ _ ↦
            .step (fun _ ↦ rfl) fun _ ↦ trivial

theorem aside_setUpNode (wnQuery : Bool × List WorkerNode) :
    Aside VM.role Event.Plain (setUpNode cfg v wnQuery) := by
  refine .step trivial fun _ ↦ .step trivial fun vm ↦ .step trivial fun crs ↦ ?_
  refine (aside_lift _).bind fun res _ ↦ (aside_command trivial).bind fun _ _ ↦ ?_
  refine (aside_runCommand trivial).bind fun _ _ ↦ (aside_command trivial).bind fun _ _ ↦ ?_
  refine (aside_command trivial).bind fun _ _ ↦ ?_
  refine (within_forEach_of_forall (fun _ loc _ _ ↦ aside_command trivial) ()).bind fun _ _ ↦ ?_
  exact (aside_runCommand trivial).bind fun _ _ ↦ aside_runCommand trivial

theorem aside_postProvision : Aside VM.role Event.Plain (postProvision cfg v) :=
  within_postProvision (fun _ ↦ trivial) trivial (fun _ _ ↦ trivial) trivial (fun _ ↦ rfl)
    fun _ _ ↦ trivial

theorem aside_giveUpIfOverdue (now : Time) (scratch : ProvisionScratch) :
    Aside g P (giveUpIfOverdue cfg now v scratch) := by
  refine .step trivial fun vm ↦ ?_
  split <;> trivial

theorem aside_pollTorque (answers : ProvisionAnswers) (scratch : ProvisionScratch) :
    Aside g P (pollTorque cfg answers v scratch) := by
  rw [pollTorque]
  split
  · split
    · trivial
    · refine .step trivial fun vm ↦ ?_
      split <;> trivial
  · trivial
  · trivial

theorem aside_giveUp (call : DestroyCall) (record : Option WorkerNode) :
    Aside VM.role Event.Plain (giveUp call v record) := by
  refine .step trivial fun (vm : VM) ↦ Within.bind (Φ := fun _ ↦ True) ?_ fun _ _ ↦ ?_
  · show Aside VM.role Event.Plain (askAgain vm)
    rw [askAgain.eq_def]
    split
    · exact aside_step trivial
    · trivial
  · exact (aside_vmDestroy record call.answer call.now).bind fun _ _ ↦ aside_step trivial

theorem aside_launchInstances (answers : ℕ → Option StartedServer) :
    Aside VM.role Event.Plain (launchInstances cfg answers) :=
  within_launchInstances trivial trivial trivial trivial (fun _ _ _ ↦ trivial) (fun _ ↦ trivial)
    (fun _ ↦ trivial) (fun _ ↦ trivial) (fun _ _ ↦ trivial) answers

theorem aside_finishProvisioning (launch : ℕ → Option StartedServer) :
    Aside VM.role Event.Plain (finishProvisioning cfg launch) := by
  refine .step trivial fun (starting : List VmRef) ↦ ?_
  split
  · refine .step trivial fun (waiting : List WaitingRequest) ↦ ?_
    split
    · exact aside_step trivial
    · exact aside_launchInstances launch
  · exact aside_launchInstances launch

theorem aside_launchIfWaiting (launch : ℕ → Option StartedServer) :
    Aside VM.role Event.Plain (launchIfWaiting cfg launch) := by
  refine .step trivial fun (waiting : List WaitingRequest) ↦ ?_
  split
  · refine .step trivial fun (provisioning : Bool) ↦ ?_
    split
    · exact aside_launchInstances launch
    · trivial
  · trivial

theorem aside_cleanupVisit (answers : CleanupAnswers) (scratch : CleanupScratch) :
    Aside VM.role Event.Plain (cleanupVisit cfg answers v scratch) := by
  have hrelease : Aside VM.role Event.Plain (releaseResForNode cfg v) :=
    within_releaseResForNode (fun _ ↦ trivial) trivial trivial fun _ _ ↦ trivial
  have hremove : Aside VM.role Event.Plain (runCommand cfg .removeNode v) :=
    within_runCommand (fun _ ↦ trivial) trivial fun _ _ ↦ trivial
  refine (aside_vmCheck _).bind fun state _ ↦ .step trivial fun vm ↦ ?_
  split
  · split <;> trivial
  · split
    · trivial
    · rw [cleanUpUnknown]
      split
      · trivial
      · refine .step trivial fun vm ↦ ?_
        split
        · exact (aside_vmDestroy _ _ _).bind fun _ _ ↦ trivial
        · trivial
    · rw [cleanUpKnown]
      split
      · exact hrelease.bind fun _ _ ↦ hremove.bind fun _ _ ↦ trivial
      · split
        · exact .step trivial fun vm ↦ trivial
        · exact hrelease.bind fun _ _ ↦ hremove.bind fun _ _ ↦
            (aside_vmDestroy _ _ _).bind fun _ _ ↦ .step (fun _ ↦ rfl) fun _ ↦ trivial

end Aside

/-! #### What they leave -/

/-- The frame of the blocks and assignments aside: the VMs that exist, the objects and the trace are
as they were, and every VM that was in a list is in one. -/
structure SteppedAside (s s' : State) : Prop where
  existing : s'.existing = s.existing
  tracked : ∀ v ∈ s.tracked, v ∈ s'.tracked
  vms : s'.vms = s.vms
  nextVm : s'.nextVm = s.nextVm
  trace : s'.trace = s.trace

section Keeps

open Locked

variable {β : Type} {cfg : Config} {g : VM → β} {P : Event → Prop} {s s₁ s' : State}

theorem SteppedAside.refl (s : State) : SteppedAside s s :=
  ⟨rfl, fun _ hv ↦ hv, rfl, rfl, rfl⟩

theorem SteppedAside.trans (h : SteppedAside s s₁) (h' : SteppedAside s₁ s') :
    SteppedAside s s' where
  existing := h'.existing.trans h.existing
  tracked := fun v hv ↦ h'.tracked v (h.tracked v hv)
  vms := h'.vms.trans h.vms
  nextVm := h'.nextVm.trans h.nextVm
  trace := h'.trace.trans h.trace

theorem ends_removeWaiting_aside (rs : List WaitingRequest) (s : State) :
    Ends (removeWaiting rs) s (fun _ ↦ SteppedAside s) fun _ ↦ SteppedAside s := by
  induction rs generalizing s with
  | nil => exact SteppedAside.refl s
  | cons r rs ih =>
    rw [removeWaiting, ends_bind, ends_get, ends_bind]
    refine ends_lift (fun waiting _ ↦ ?_) fun _ _ ↦ .refl s
    rw [ends_bind, ends_set]
    have hset : SteppedAside s { s with waiting := waiting } := ⟨rfl, fun _ hv ↦ hv, rfl, rfl, rfl⟩
    exact (ih _).mono (fun _ _ h ↦ hset.trans h) fun _ _ h ↦ hset.trans h

/-- **The blocks.** -/
theorem ends_block_aside {b : Block} (h : Act.Aside g P (.locked b)) (s : State) :
    Ends (b.code cfg) s (fun _ ↦ SteppedAside s) fun _ ↦ SteppedAside s := by
  cases b with
  | startingToDeleting v =>
    show Ends (removeFrom .starting v >>= fun _ ↦ append .deleting v) s _ _
    by_cases hmem : v ∈ s.starting
    · rw [ends_bind, ends_removeFrom (L := .starting) hmem, ends_append]
      have hmoves : Moves (fun _ ↦ False) s
          { s with starting := s.starting.erase v, deleting := s.deleting ++ [v] } :=
        moves_startingToDeleting hmem
      exact ⟨rfl, fun w hw ↦ (hmoves.kept w hw).resolve_right id, rfl, rfl, rfl⟩
    · rw [ends_bind, removeFrom, ends_bind, ends_get, ends_bind]
      refine ends_lift (fun xs hxs ↦ ?_) fun _ _ ↦ .refl s
      exact absurd hxs (remove_ne_ok hmem)
  | setProvisioning b => exact ⟨rfl, fun _ hv ↦ hv, rfl, rfl, rfl⟩
  | addStarting v =>
    refine ⟨rfl, fun w hw ↦ ?_, rfl, rfl, rfl⟩
    rw [State.mem_tracked] at hw ⊢
    exact hw.imp_right fun hw ↦ hw.imp_left fun hw ↦ List.mem_append_left _ hw
  | endLaunch rs => exact ends_removeWaiting_aside rs s
  | queueRequests requests => exact ⟨rfl, fun _ hv ↦ hv, rfl, rfl, rfl⟩
  | updateAvailableCores => exact ⟨rfl, fun _ hv ↦ hv, rfl, rfl, rfl⟩
  | _ => exact h.elim

/-- **What steps aside keep**: an assertion that blocks and assignments aside keep, and assignments
to VMs, events and new VMs. -/
theorem keeps_aside {I : State → Prop} (hblock : ∀ s s', SteppedAside s s' → I s → I s')
    (hset : ∀ s v f, (∀ vm, g (f vm) = g vm) → I s → I (s.setVm v f))
    (hemit : ∀ s e, P e → I s → I (s.emit e)) (hnew : ∀ s vm, I s → I (s.allocate [vm])) :
    Keeps (exec cfg) (Act.Aside g P) I fun _ ↦ True := by
  intro a ha s hs
  cases a with
  | setVm v f => exact hset s v f ha hs
  | emit e => exact hemit s e ha hs
  | newVm vm => exact hnew s vm hs
  | locked b =>
    exact (ends_block_aside ha s).mono (fun _ s' h ↦ hblock s s' h hs)
      fun _ s' h ↦ ⟨trivial, hblock s s' h hs⟩
  | setCluster f => exact hblock s _ ⟨rfl, fun _ hv ↦ hv, rfl, rfl, rfl⟩ hs
  | setProvisioning b => exact hblock s _ ⟨rfl, fun _ hv ↦ hv, rfl, rfl, rfl⟩ hs
  | appendWaiting requests => exact hblock s _ ⟨rfl, fun _ hv ↦ hv, rfl, rfl, rfl⟩ hs
  | list _ | findVm _ | vm _ | waiting => exact hs
  | cluster | provisioning | sleepMode | resources => exact hs
  | _ => exact ha.elim

/-- A program that steps aside keeps such an assertion. -/
theorem Aside.ends {α : Type} {p : Proc α} {I : State → Prop}
    (hkeeps : Keeps (exec cfg) (Act.Aside g P) I fun _ ↦ True) (h : Aside g P p) (hI : I s) :
    Ends (p.exec cfg) s (fun _ ↦ I) fun _ ↦ I :=
  (ends_run_of_within hkeeps h hI).mono (fun _ _ h ↦ h.2) fun _ _ h ↦ h.2

/-- A program that steps aside comes first. -/
theorem ends_aside_bind {α γ : Type} {p : Proc γ} {f : γ → Proc α} {I : State → Prop}
    {Q : α → State → Prop} {E : PyError → State → Prop}
    (hkeeps : Keeps (exec cfg) (Act.Aside g P) I fun _ ↦ True) (h : Aside g P p) (hI : I s)
    (hf : ∀ b s₁, I s₁ → Ends ((f b).exec cfg) s₁ Q E) (hE : ∀ e s₁, I s₁ → E e s₁) :
    Ends ((p >>= f).exec cfg) s Q E := by
  rw [Proc.exec, run_bind, ends_bind]
  exact (Aside.ends hkeeps h hI).mono hf hE

/-- **The VMs that are ready.** An assertion that is kept when one VM has become ready, and when
`need_vm` has raised for one, holds after `commitReady`. -/
theorem ends_commitReady_of_forall {I : State → Prop} {vs : List VmRef}
    (hready : ∀ s, ∀ v ∈ vs, ∀ needed reqs, v ∈ s.starting →
      s.needVm cfg v = .ok (needed, reqs) → I s → I (s.ready v needed reqs))
    (hraise : ∀ s, ∀ v ∈ vs, ∀ e, v ∈ s.starting → s.needVm cfg v = .error e → I s →
      I { s with starting := s.starting.erase v }) (hI : I s) :
    Ends (commitReady cfg vs) s (fun _ ↦ I) fun _ ↦ I := by
  induction vs generalizing s with
  | nil => exact hI
  | cons v vs ih =>
    rw [commitReady, ends_bind]
    by_cases hmem : v ∈ s.starting
    · refine ends_readyVm hmem (fun needed reqs hneed ↦ ?_) fun e he ↦
        hraise s v List.mem_cons_self e hmem he hI
      exact ih (fun s w hw ↦ hready s w (List.mem_cons_of_mem _ hw))
        (fun s w hw ↦ hraise s w (List.mem_cons_of_mem _ hw))
        (hready s v List.mem_cons_self needed reqs hmem hneed hI)
    · rw [readyVm, ends_bind, removeFrom, ends_bind, ends_get, ends_bind]
      refine ends_lift (fun xs hxs ↦ ?_) fun _ _ ↦ hI
      exact absurd hxs (remove_ne_ok hmem)

end Keeps

/-! ### Steps that release VMs -/

/-- The steps that keep an attribute of every VM, create none, and add nothing to the files. -/
def Act.Releases {β : Type} (g : VM → β) : Act → Prop
  | .list _ | .findVm _ | .vm _ | .cluster | .resources => True
  | .setProvisioning b => b = false
  | .setVm _ f => ∀ vm, g (f vm) = g vm
  | .emit e => e.Removing
  | .locked (.dropExisting _) | .locked (.existingToDeleting _) | .locked (.drain _) => True
  | .locked .updateAvailableCores => True
  | _ => False

/-- A program that only releases VMs. -/
abbrev Releases {α β : Type} (g : VM → β) (p : Proc α) : Prop :=
  p.Within (Act.Releases g) (fun _ ↦ True) fun _ ↦ True

/-- From `s` to `s'` the attribute stays as it is, no VM is created, and nothing is added to the
files. -/
structure Released {β : Type} (g : VM → β) (s s' : State) : Prop where
  vm : ∀ v, g (s'.vms v) = g (s.vms v)
  nextVm : s'.nextVm = s.nextVm
  trace : Emits Event.Removing s s'

section Releases

variable {α β : Type} {cfg : Config} {g : VM → β} {s : State} {v : VmRef}

theorem Released.trans {s₁ s' : State} (h : Released g s s₁) (h' : Released g s₁ s') :
    Released g s s' :=
  ⟨fun v ↦ (h'.vm v).trans (h.vm v), h'.nextVm.trans h.nextVm, h.trace.trans h'.trace⟩

theorem Released.of_eq {s' : State} (hvms : s'.vms = s.vms) (hnext : s'.nextVm = s.nextVm)
    (htrace : s'.trace = s.trace) : Released g s s' :=
  ⟨fun v ↦ by rw [hvms], hnext, .of_eq htrace⟩

/-- Taking a VM off a list touches neither the heap nor the trace. -/
theorem ends_removeFrom_released (L : ListName) (w : VmRef) :
    Ends (Locked.removeFrom L w) s (fun _ ↦ Released g s) fun _ ↦ Released g s := by
  rw [Locked.removeFrom, ends_bind, ends_get]
  refine ends_bind.2 (ends_lift (fun xs _ ↦ ?_) fun _ _ ↦ .of_eq rfl rfl rfl)
  cases L with
  | existing => exact Released.of_eq rfl rfl rfl
  | starting => exact Released.of_eq rfl rfl rfl
  | deleting => exact Released.of_eq rfl rfl rfl

theorem keeps_released (cfg : Config) (g : VM → β) (s : State) :
    Keeps (exec cfg) (Act.Releases g) (Released g s) fun _ ↦ True := by
  intro a ha s₁ h₁
  cases a with
  | setVm w f =>
    refine h₁.trans ⟨fun v ↦ ?_, rfl, .of_eq rfl⟩
    have hkeep : g (f (s₁.vms w)) = g (s₁.vms w) := ha _
    by_cases hw : v = w
    · simp [State.setVm, hw, hkeep]
    · simp [State.setVm, hw]
  | emit e => exact h₁.trans ⟨fun _ ↦ rfl, rfl, .emit s₁ ha⟩
  | locked b =>
    cases b with
    | dropExisting w =>
      exact (ends_removeFrom_released .existing w).mono (fun _ s' h ↦ h₁.trans h)
        fun _ s' h ↦ ⟨trivial, h₁.trans h⟩
    | existingToDeleting w =>
      show Ends (Locked.append .deleting w >>= fun _ ↦ Locked.removeFrom .existing w) s₁ _ _
      have happend : Released g s (s₁.setList (s₁.deleting ++ [w]) .deleting) :=
        h₁.trans (.of_eq rfl rfl rfl)
      exact ends_bind.2 (ends_append.2 ((ends_removeFrom_released .existing w).mono
        (fun _ s' h ↦ happend.trans h) fun _ s' h ↦ ⟨trivial, happend.trans h⟩))
    | drain L => exact h₁.trans (by cases L <;> exact .of_eq rfl rfl rfl)
    | updateAvailableCores => exact h₁.trans (.of_eq rfl rfl rfl)
    | _ => exact ha.elim
  | setProvisioning b => exact h₁.trans (.of_eq rfl rfl rfl)
  | list _ | findVm _ | vm _ | cluster | resources => exact h₁
  | _ => exact ha.elim

/-- What a program that only releases VMs has done. -/
theorem Releases.ends {p : Proc α} (h : Releases g p) :
    Ends (p.exec cfg) s (fun _ ↦ Released g s) fun _ ↦ Released g s :=
  (ends_run_of_within (keeps_released cfg g s) h (.of_eq rfl rfl rfl)).mono (fun _ _ h ↦ h.2)
    fun _ _ h ↦ h.2

theorem releases_lift (x : Except PyError α) : Releases g (Program.lift x : Proc α) :=
  within_lift (fun _ _ ↦ trivial) fun _ _ ↦ trivial

theorem releases_step {o : Act} (h : o.Releases g) : Releases g (Program.perform o) :=
  ⟨h, fun _ ↦ trivial⟩

theorem releases_removeNode (w : VmRef) : Releases g (removeNode cfg w) :=
  within_removeNode (fun _ ↦ trivial) trivial trivial trivial fun _ _ ↦ trivial

theorem releases_holdNode (w : VmRef) : Releases g (runCommand cfg .holdNode w) :=
  within_runCommand (fun _ ↦ trivial) trivial fun _ _ ↦ trivial

theorem releases_holdOtherImage (w : VmRef) : Releases g (holdOtherImage cfg w) := by
  refine .step trivial fun vm ↦ .step trivial fun crs ↦ (releases_lift _).bind fun res _ ↦ ?_
  exact within_when fun _ ↦ releases_holdNode w

theorem releases_warnBaseFlavor (w : VmRef) : Releases g (warnBaseFlavor w) := by
  refine .step trivial fun vm ↦ .step trivial fun crs ↦ (releases_lift _).bind fun name _ ↦
    (releases_lift _).bind fun res _ ↦ (releases_lift _).bind fun base _ ↦ ?_
  split
  · exact (releases_lift _).bind fun _ _ ↦ trivial
  · trivial

/-! #### Attributes that releasing a VM keeps -/

variable (hg : ∀ (vm : VM) forceOff dynamic deleteTime, g { vm with
  forceOff := forceOff, dynamic := dynamic, deleteTime := deleteTime } = g vm)

include hg

theorem releases_vmDestroy (record : Option WorkerNode) (answer : DestroyAnswer) (now : Time) :
    Releases g (vmDestroy v record answer now) :=
  within_vmDestroy trivial trivial (fun _ ↦ trivial)
    (fun vm ↦ hg vm vm.forceOff vm.dynamic (some now)) fun _ _ ↦ trivial

theorem releases_shutDownIdle (call : DestroyCall) (wn : WorkerNode) (w : VmRef) :
    Releases g (shutDownIdle cfg call wn w) := by
  refine .step (fun vm ↦ hg vm true vm.dynamic vm.deleteTime) fun _ ↦
    (releases_removeNode w).bind fun _ _ ↦ ?_
  refine (releases_vmDestroy hg _ call.answer call.now).bind fun _ _ ↦
    .step trivial fun (existing : List VmRef) ↦ ?_
  refine Within.bind (within_when fun _ ↦ releases_step trivial) fun _ _ ↦ ?_
  exact .step trivial fun _ ↦ releases_step rfl

theorem releases_swapStatic (call : DestroyCall) (wn : WorkerNode) (w : VmRef)
    (wns : List WorkerNode) : Releases g (swapStatic cfg call wn w wns) := by
  induction wns with
  | nil => trivial
  | cons otherWn rest ih =>
    rw [swapStatic]
    split
    · refine .step trivial fun found ↦ ?_
      cases found with
      | none => exact ih
      | some otherV =>
        refine .step trivial fun other ↦ .step trivial fun theVm ↦ ?_
        split
        · exact .step (fun vm ↦ hg vm vm.forceOff true vm.deleteTime) fun _ ↦
            .step (fun vm ↦ hg vm vm.forceOff false vm.deleteTime) fun _ ↦
              releases_shutDownIdle hg call wn w
        · exact ih
    · exact ih

theorem releases_checkIdleWorker (answers : WorkerAnswers) (wn : WorkerNode) (w : VmRef) :
    Releases g (checkIdleWorker cfg answers wn w) := by
  have hshut : Releases g (shutDownOrSwap cfg answers.destroy wn w) := by
    refine .step trivial fun vm ↦ ?_
    split
    · exact releases_shutDownIdle hg answers.destroy wn w
    · refine .step trivial fun running ↦ ?_
      refine (within_when fun _ ↦ .step trivial fun c ↦ ?_).bind fun _ _ ↦ ?_
      · exact releases_swapStatic hg answers.destroy wn w c.workerNodes
      · exact releases_warnBaseFlavor w
  refine .step trivial fun vm ↦ ?_
  split
  · exact hshut.bind fun _ _ ↦ trivial
  · split
    · trivial
    · split <;> trivial

/-- What a visit does after it has recorded a report. -/
theorem releases_afterReport (answers : WorkerAnswers) (wn : WorkerNode) (w : VmRef) :
    Releases g (do
      holdOtherImage cfg w
      if wn.jobs = none then
        let toDelete ← checkIdleWorker cfg answers wn w
        Program.when toDelete (Proc.locked (.existingToDeleting w))
      else pure ()) := by
  refine (releases_holdOtherImage w).bind fun _ _ ↦ ?_
  split
  · exact (releases_checkIdleWorker hg answers wn w).bind fun _ _ ↦
      within_when fun _ ↦ releases_step trivial
  · trivial

theorem releases_killVm (vmName : String) (force : Bool) :
    Releases g (killVm cfg vmName force) := by
  refine .step trivial fun found ↦ ?_
  cases found with
  | none => trivial
  | some w =>
    have hrecord : Releases g (findWnFromVm w) :=
      .step trivial fun _ ↦ .step trivial fun _ ↦ trivial
    refine hrecord.bind fun record _ ↦ ?_
    split
    · trivial
    · split
      · trivial
      · exact .step (fun vm ↦ hg vm force vm.dynamic vm.deleteTime) fun _ ↦
          (releases_holdNode w).bind fun _ _ ↦ releases_step trivial

theorem releases_forceoff (answers : ForceoffAnswers) : Releases g (forceoff cfg answers) := by
  refine .step trivial fun existing ↦ Within.bind (Φ := fun _ ↦ True)
    (within_forEach_of_forall (fun i w _ _ ↦ ?_) ()) fun _ _ ↦ .step trivial fun _ ↦
      .step trivial fun starting ↦ Within.bind (Φ := fun _ ↦ True)
        (within_forEach_of_forall (fun i w _ _ ↦ ?_) ()) fun _ _ ↦ releases_step trivial
  · refine .step (fun vm ↦ hg vm true vm.dynamic vm.deleteTime) fun _ ↦
      (releases_removeNode w).bind fun _ _ ↦ ?_
    exact (releases_vmDestroy hg _ _ _).bind fun _ _ ↦ trivial
  · exact (releases_vmDestroy hg _ _ _).bind fun _ _ ↦ trivial

end Releases

/-! #### Checking the workers -/

section Visits

variable {β : Type} {cfg : Config} {g : VM → β}

theorem releases_checkWorker
    (hg : ∀ (vm : VM) forceOff dynamic deleteTime, g { vm with
      forceOff := forceOff, dynamic := dynamic, deleteTime := deleteTime } = g vm)
    (hreport : ∀ (vm : VM) state stateTime, g { vm with
      state := state, stateTime := stateTime } = g vm)
    (answers : WorkerAnswers) (wn : WorkerNode) : Releases g (checkWorker cfg answers wn) := by
  refine .step trivial fun found ↦ ?_
  cases found with
  | none => trivial
  | some w =>
    have hrecord : Releases g (recordState cfg w answers.checkNode) :=
      .step trivial fun vm ↦ (releases_lift _).bind fun t _ ↦
        .step (fun vm ↦ hreport vm vm.state (some t)) fun _ ↦
          releases_step fun vm ↦ hreport vm answers.checkNode vm.stateTime
    exact hrecord.bind fun _ _ ↦ releases_afterReport hg answers wn w

theorem releases_checkExistingWorkerNodes (answers : ℕ → WorkerAnswers) :
    Releases VM.role (checkExistingWorkerNodes cfg answers) :=
  .step trivial fun _ ↦ (within_forEach_of_forall (fun i wn _ _ ↦
    releases_checkWorker (fun _ _ _ _ ↦ rfl) (fun _ _ _ ↦ rfl) (answers i) wn) ()).bind
      fun _ _ ↦ releases_step trivial

end Visits

end DynamicTorque
