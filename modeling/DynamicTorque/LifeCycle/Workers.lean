import DynamicTorque.LifeCycle.Lists

/-!
# Checking the existing workers

One iteration of `check_existing_worker_nodes` looks at a node, and may then move its VM to the
deleting list or, if it has been idle for too long, shut it down (`Checked`). A VM that is shut
down is destroyed and dropped from the lists; `IdleShutDown` says when this happens.
-/

open Python Atomic Program

namespace DynamicTorque

/-! ### When an idle VM is shut down -/

/-- The node has been free for longer than `max_idle_time`, counting the report at hand. -/
def WorkerAnswers.IdleTooLong (cfg : Config) (answers : WorkerAnswers) (vm : VM) : Prop :=
  answers.checkNode = some "free" ∧
    ∃ t, stateTimeAfter cfg vm answers.checkNode = .ok t ∧ cfg.maxIdleTime < t

/-- A busy dynamic VM can take the place of the static VM `v` of the node `wn`. -/
def SwapsWith (s : State) (wn : WorkerNode) (v : VmRef) (otherWn : WorkerNode) : Prop :=
  otherWn.name ≠ wn.name ∧ otherWn.jobs.isSome ∧ ∃ otherV, s.findVm otherWn.name = some otherV ∧
    (s.vms otherV).dynamic = true ∧ (s.vms otherV).vcpuNumber = (s.vms v).vcpuNumber ∧
    (s.vms otherV).availabilityZone = (s.vms v).availabilityZone ∧
    (s.vms otherV).cloudResourceName = (s.vms v).cloudResourceName

/-- The visit of the node `wn` shuts down its VM `v`. -/
structure IdleShutDown (cfg : Config) (answers : WorkerAnswers) (s : State) (wn : WorkerNode)
    (v : VmRef) : Prop where
  found : s.findVm wn.name = some v
  known : (s.vms v).cloudResourceName ∈ s.resources.names
  jobs : wn.jobs = none
  idle : answers.IdleTooLong cfg (s.vms v)
  replaceable : (s.vms v).dynamic = true ∨
    0 < s.cluster.runningJobs.length ∧ ∃ otherWn ∈ s.cluster.workerNodes, SwapsWith s wn v otherWn

/-- An idle VM is dynamic, or a busy one can take its place. -/
def CanShutDown (s : State) (wn : WorkerNode) (v : VmRef) : Prop :=
  (s.vms v).dynamic = true ∨
    0 < s.cluster.runningJobs.length ∧ ∃ otherWn ∈ s.cluster.workerNodes, SwapsWith s wn v otherWn

/-! ### When a VM stops existing -/

/-- The node has been down for longer than `max_down_time`, counting the report at hand. -/
def WorkerAnswers.DownTooLong (cfg : Config) (answers : WorkerAnswers) (wn : WorkerNode) (vm : VM) :
    Prop :=
  ∃ state, answers.checkNode = some state ∧ isInfixOf "down".toList (lower wn.state) = true ∧
    strIn "down" state = true ∧
    ∃ t, stateTimeAfter cfg vm answers.checkNode = .ok t ∧ cfg.maxDownTime < t

/-- The visit of the node `wn` takes its VM `v` out of the existing list: the node has no jobs, and
it is idle for too long and can be shut down, or drained, or down for too long. -/
structure Takes (cfg : Config) (answers : WorkerAnswers) (s : State) (wn : WorkerNode)
    (v : VmRef) : Prop where
  found : s.findVm wn.name = some v
  jobs : wn.jobs = none
  cause : (answers.IdleTooLong cfg (s.vms v) ∧ CanShutDown s wn v) ∨
    answers.checkNode = some "drained" ∨ answers.DownTooLong cfg wn (s.vms v)

/-- The existing list after a visit that has not raised. -/
structure TakesOut (cfg : Config) (answers : WorkerAnswers) (s : State) (wn : WorkerNode)
    (s' : State) : Prop where
  taken : ∀ v, Takes cfg answers s wn v → s'.existing = s.existing.erase v
  spared : (∀ v, ¬Takes cfg answers s wn v) → s'.existing = s.existing

/-! ### What a visit leaves -/

/-- The tables of resources agree in their names and static requests. -/
structure SameStatic (crs crs' : CloudResources) : Prop where
  names : crs'.names = crs.names
  static : ∀ name, (crs'.object name).staticVmsToStart = (crs.object name).staticVmsToStart

/-- The frame of a shut-down: the VM is in no list any more. -/
structure ShutDown (v : VmRef) (s s' : State) : Prop where
  existing : s'.existing = s.existing.erase v
  starting : s'.starting = s.starting
  deleting : s'.deleting = s.deleting
  waiting : s'.waiting = s.waiting
  nextVm : s'.nextVm = s.nextVm
  provisioning : s'.provisioning = false
  sleepMode : s'.sleepMode = s.sleepMode
  resource : ∀ w, (s'.vms w).cloudResourceName = (s.vms w).cloudResourceName
  static : SameStatic s.resources s'.resources
  trace : Emits (Event.Allowed idleDestroy) s s'
  hosts : .command .removeNodeFromHostsFile v ∈ s.since s'

/-- From `s` to `s'` no VM changes but `v`, which stays dynamic or static. -/
structure OnlyVm (v : VmRef) (s s' : State) : Prop where
  others : ∀ u, u ≠ v → s'.vms u = s.vms u
  dynamic : (s'.vms v).dynamic = (s.vms v).dynamic

/-- The frame of a shut-down that raises: no VM has moved. Two of them may have been swapped. -/
structure Unmoved (s s' : State) : Prop where
  existing : s'.existing = s.existing
  starting : s'.starting = s.starting
  deleting : s'.deleting = s.deleting
  waiting : s'.waiting = s.waiting
  nextVm : s'.nextVm = s.nextVm
  provisioning : s'.provisioning = s.provisioning
  sleepMode : s'.sleepMode = s.sleepMode
  resource : ∀ w, (s'.vms w).cloudResourceName = (s.vms w).cloudResourceName
  resources : s'.resources = s.resources
  trace : Emits (Event.Allowed idleDestroy) s s'

/-- What a visit of the node `wn` can do. -/
inductive Checked (cfg : Config) (answers : WorkerAnswers) (wn : WorkerNode) (s : State) :
    State → Prop
  | looked {s' : State} (h : Scanned .idle s s') : Checked cfg answers wn s s'
  | deleted {v : VmRef} {s₁ : State} (hfound : s.findVm wn.name = some v)
      (h : Scanned .idle s s₁) : Checked cfg answers wn s
        { s₁ with existing := s₁.existing.erase v, deleting := s₁.deleting ++ [v] }
  | shutDown {v : VmRef} {s' : State} (hidle : IdleShutDown cfg answers s wn v)
      (h : ShutDown v s s') : Checked cfg answers wn s s'
  | failed {s' : State} (h : Unmoved s s') : Checked cfg answers wn s s'

section Visit

variable {cfg : Config} {answers : WorkerAnswers} {wn : WorkerNode} {v : VmRef} {s s₁ s' : State}

theorem mem_existing_of_findVm {hostname : String} (h : s.findVm hostname = some v) :
    v ∈ s.existing :=
  List.mem_of_find?_eq_some h

theorem ShutDown.scanned_left (h : Scanned .idle s s₁) (h' : ShutDown v s₁ s') :
    ShutDown v s s' where
  existing := by rw [h'.existing, h.existing]
  starting := h'.starting.trans h.starting
  deleting := h'.deleting.trans h.deleting
  waiting := h'.waiting.trans h.waiting
  nextVm := h'.nextVm.trans h.nextVm
  provisioning := h'.provisioning
  sleepMode := h'.sleepMode.trans h.sleepMode
  resource := fun w ↦ (h'.resource w).trans (h.vm w).resource
  static := h.resources ▸ h'.static
  trace := h.trace.trans h'.trace
  hosts := by
    rw [h.trace.since_trans h'.trace]
    exact List.mem_append_right _ h'.hosts

theorem ShutDown.scanned_right (h : ShutDown v s s₁) (h' : Scanned .idle s₁ s') :
    ShutDown v s s' where
  existing := h'.existing.trans h.existing
  starting := h'.starting.trans h.starting
  deleting := h'.deleting.trans h.deleting
  waiting := h'.waiting.trans h.waiting
  nextVm := h'.nextVm.trans h.nextVm
  provisioning := h'.provisioning.trans h.provisioning
  sleepMode := h'.sleepMode.trans h.sleepMode
  resource := fun w ↦ (h'.vm w).resource.trans (h.resource w)
  static := h'.resources ▸ h.static
  trace := h.trace.trans h'.trace
  hosts := by
    rw [h.trace.since_trans h'.trace]
    exact List.mem_append_left _ h.hosts

theorem Scanned.unmoved (h : Scanned .idle s s') : Unmoved s s' where
  existing := h.existing
  starting := h.starting
  deleting := h.deleting
  waiting := h.waiting
  nextVm := h.nextVm
  provisioning := h.provisioning
  sleepMode := h.sleepMode
  resource := fun w ↦ (h.vm w).resource
  resources := h.resources
  trace := h.trace

theorem Unmoved.trans (h : Unmoved s s₁) (h' : Unmoved s₁ s') : Unmoved s s' where
  existing := h'.existing.trans h.existing
  starting := h'.starting.trans h.starting
  deleting := h'.deleting.trans h.deleting
  waiting := h'.waiting.trans h.waiting
  nextVm := h'.nextVm.trans h.nextVm
  provisioning := h'.provisioning.trans h.provisioning
  sleepMode := h'.sleepMode.trans h.sleepMode
  resource := fun w ↦ (h'.resource w).trans (h.resource w)
  resources := h'.resources.trans h.resources
  trace := h.trace.trans h'.trace

theorem OnlyVm.of_scanned {destroys : Destroys} (h : Scanned ⟨destroys, (· = v)⟩ s s') :
    OnlyVm v s s' :=
  ⟨fun u hu ↦ h.untouched u hu, (h.vm v).dynamic⟩

theorem OnlyVm.trans (h : OnlyVm v s s₁) (h' : OnlyVm v s₁ s') : OnlyVm v s s' :=
  ⟨fun u hu ↦ (h'.others u hu).trans (h.others u hu), h'.dynamic.trans h.dynamic⟩

/-- A VM of a known resource is shut down, unless its node cannot be taken out of the cluster. Other
VMs are left alone. -/
theorem ends_shutDownIdle_onlyVm {call : DestroyCall} (hmem : v ∈ s.existing)
    (hknown : (s.vms v).cloudResourceName ∈ s.resources.names) (hjobs : wn.jobs = none) :
    Ends ((shutDownIdle cfg call wn v).exec cfg) s (fun _ s' ↦ ShutDown v s s' ∧ OnlyVm v s s')
      fun e s' ↦ NotFromRemove e ∧ Scanned ⟨idleDestroy, (· = v)⟩ s s' := by
  have hforce : Scanned ⟨idleDestroy, (· = v)⟩ s (s.setVm v fun vm ↦
      { vm with forceOff := true }) := .setVm s rfl fun _ ↦ ⟨rfl, rfl, rfl, rfl⟩
  rw [shutDownIdle, ends_setVm]
  refine ends_removeNode ?_ fun e s' he h ↦
    ⟨he, hforce.trans (h.mono (fun h ↦ h.elim) fun _ h ↦ h.elim)⟩
  rw [Proc.exec, run_bind, ends_bind]
  generalize hs₀ : (State.removeNode _ v) = s₀
  have h₀' : Scanned ⟨idleDestroy, (· = v)⟩ s s₀ := hs₀ ▸ hforce.trans (scanned_removeNode _ v)
  have h₀ : Scanned .idle s s₀ := h₀'.mono (fun h ↦ h) fun _ _ ↦ trivial
  -- the line in the hosts file is deleted whatever the cloud answers
  have hline : .command .removeNodeFromHostsFile v ∈ s.since s₀ := by
    rw [← hs₀]
    simp [State.since, State.removeNode, State.emit, State.setVm]
  have hnone : ∀ forceOff answer, idleDestroy v (some wn) forceOff answer := fun _ _ ↦ by
    simpa [idleDestroy] using hjobs
  refine (ends_vmDestroy (hnone _ _) _).mono ?_ ?_
  · rintro - s₁ ⟨hdestroy, -⟩
    have h₁ : Scanned .idle s s₁ :=
      h₀.trans (hdestroy.mono (fun h ↦ h) fun _ _ ↦ trivial)
    have hmem₁ : v ∈ s₁.existing := by rwa [h₁.existing]
    show Ends (Proc.exec _ cfg) s₁ _ _
    rw [ends_list, show s₁.list .existing = s₁.existing from rfl, Program.when, if_pos hmem₁,
      ends_locked, ends_dropExisting hmem₁]
    have honly : OnlyVm v s s₁ := (OnlyVm.of_scanned h₀').trans (.of_scanned hdestroy)
    refine ⟨?_, honly.others, honly.dynamic⟩
    exact
      { existing := congrArg (List.erase · v) h₁.existing
        starting := h₁.starting
        deleting := h₁.deleting
        waiting := h₁.waiting
        nextVm := h₁.nextVm
        provisioning := rfl
        sleepMode := h₁.sleepMode
        resource := fun w ↦ (h₁.vm w).resource
        static := by
          rw [← h₁.resources]
          exact ⟨rfl, fun _ ↦ rfl⟩
        trace := ⟨h₁.trace.trace, h₁.trace.events⟩
        hosts := by
          show _ ∈ s.since s₁
          rw [h₀.trace.since_trans hdestroy.trace]
          exact List.mem_append_left _ hline }
  · rintro e s₁ ⟨he, -⟩
    rw [(h₀.vm v).resource, h₀.resources, CloudResources.get, if_pos hknown] at he
    cases he

theorem ends_shutDownIdle {call : DestroyCall} (hmem : v ∈ s.existing)
    (hknown : (s.vms v).cloudResourceName ∈ s.resources.names) (hjobs : wn.jobs = none) :
    Ends ((shutDownIdle cfg call wn v).exec cfg) s (fun _ ↦ ShutDown v s)
      fun e s' ↦ NotFromRemove e ∧ Unmoved s s' :=
  (ends_shutDownIdle_onlyVm hmem hknown hjobs).mono (fun _ _ h ↦ h.1) fun _ s' h ↦
    have hidle : Scanned .idle s s' := h.2.mono (fun h ↦ h) fun _ _ ↦ trivial
    ⟨h.1, hidle.unmoved⟩

/-- What the first part of a visit leaves: the report is recorded, and nothing else matters. -/
structure Observed (cfg : Config) (answers : WorkerAnswers) (v : VmRef) (s s₁ : State) :
    Prop where
  scanned : Scanned (.looking (· = v)) s s₁
  cluster : s₁.cluster = s.cluster
  known : (s.vms v).cloudResourceName ∈ s.resources.names
  vm : ∃ t, stateTimeAfter cfg (s.vms v) answers.checkNode = .ok t ∧
    s₁.vms v = { s.vms v with stateTime := some t, state := answers.checkNode }

theorem ends_recordState (state : Option String) :
    Ends ((recordState cfg v state).exec cfg) s
      (fun _ s' ↦ ∃ t, stateTimeAfter cfg (s.vms v) state = .ok t ∧
        s' = (s.setVm v fun vm ↦ { vm with stateTime := some t }).setVm v
          fun vm ↦ { vm with state := state })
      fun e s' ↦ stateTimeAfter cfg (s.vms v) state = .error e ∧ s' = s := by
  rw [recordState, ends_vm]
  refine Program.ends_lift_bind (fun t ht ↦ ?_) fun e he ↦ ⟨he, rfl⟩
  exact ⟨t, ht, rfl⟩

theorem ends_holdOtherImage :
    Ends ((holdOtherImage cfg v).exec cfg) s
      (fun _ s' ↦ (s.vms v).cloudResourceName ∈ s.resources.names ∧
        (s' = s ∨ s' = s.emit (.command .holdNode v)))
      fun e s' ↦ NotFromRemove e ∧ s' = s := by
  rw [holdOtherImage, ends_vm, ends_resources]
  refine Program.ends_lift_bind (fun res hres ↦ ?_) fun e he ↦ ⟨notFromRemove_of_get he, rfl⟩
  have hknown := (CloudResources.get_eq_ok_iff.1 hres).1
  rw [Program.when]
  split
  · exact ends_runCommand_emits ⟨hknown, .inr rfl⟩ fun e he ↦ ⟨he, rfl⟩
  · exact ⟨hknown, .inl rfl⟩

/-- **The first part of a visit.** -/
theorem ends_observe {α : Type} {p : Proc α} {Q : α → State → Prop}
    {E : PyError → State → Prop}
    (hQ : ∀ s₁, Observed cfg answers v s s₁ → Ends (p.exec cfg) s₁ Q E)
    (hE : ∀ e s₁, NotFromRemove e → Scanned (.looking (· = v)) s s₁ → E e s₁) :
    Ends (Proc.exec (do
      recordState cfg v answers.checkNode
      holdOtherImage cfg v
      p) cfg) s Q E := by
  rw [Proc.exec, run_bind, ends_bind]
  refine (ends_recordState _).mono ?_ ?_
  rotate_left
  · rintro e s' ⟨he, rfl⟩
    exact hE e _ (notFromRemove_of_stateTimeAfter he) (.refl _)
  rintro - s' ⟨t, ht, rfl⟩
  have hrecorded : ∀ scope : Scope, scope.touches v → Scanned scope s
      ((s.setVm v fun vm ↦ { vm with stateTime := some t }).setVm v
        fun vm ↦ { vm with state := answers.checkNode }) := by
    intro scope hv
    refine Scanned.trans (.setVm s hv fun _ ↦ ?_) (.setVm _ hv fun _ ↦ ?_)
    · exact ⟨rfl, rfl, rfl, rfl⟩
    · exact ⟨rfl, rfl, rfl, rfl⟩
  rw [run_bind, ends_bind]
  refine ends_holdOtherImage.mono ?_ fun e s' h ↦ hE e s' h.1 (h.2 ▸ hrecorded _ rfl)
  rintro - s₁ ⟨hknown, hs₁⟩
  have hknown : (s.vms v).cloudResourceName ∈ s.resources.names := by
    simpa [State.setVm] using hknown
  refine hQ s₁ ?_
  rcases hs₁ with rfl | rfl
  · exact ⟨hrecorded _ rfl, rfl, hknown, t, ht, by simp [State.setVm]⟩
  · exact ⟨(hrecorded _ rfl).trans (.emit _ trivial), rfl, hknown, t, ht,
      by simp [State.setVm, State.emit]⟩

/-- The VM of the node is among the existing ones throughout the first part. -/
theorem Observed.mem_existing (h : Observed cfg answers v s s₁)
    (hfound : s.findVm wn.name = some v) : v ∈ s₁.existing :=
  h.scanned.existing ▸ mem_existing_of_findVm hfound

/-- What a report does not change about any VM. -/
theorem Observed.same (h : Observed cfg answers v s s₁) (w : VmRef) :
    (s₁.vms w).vcpuNumber = (s.vms w).vcpuNumber ∧
      (s₁.vms w).availabilityZone = (s.vms w).availabilityZone := by
  by_cases hw : w = v
  · obtain ⟨t, -, hvm⟩ := h.vm
    rw [hw, hvm]
    exact ⟨rfl, rfl⟩
  · rw [h.scanned.untouched w hw]
    exact ⟨rfl, rfl⟩

/-- A swap is possible after the report is recorded if it was possible before. -/
theorem Observed.swapsWith_iff (h : Observed cfg answers v s s₁) {otherWn : WorkerNode} :
    SwapsWith s₁ wn v otherWn ↔ SwapsWith s wn v otherWn := by
  simp only [SwapsWith, h.scanned.findVm, fun w ↦ (h.scanned.vm w).dynamic, fun w ↦ (h.same w).1,
    fun w ↦ (h.same w).2, fun w ↦ (h.scanned.vm w).resource]

/-- The VM can be shut down after the report is recorded if it could be before. -/
theorem Observed.canShutDown_iff (h : Observed cfg answers v s s₁) :
    CanShutDown s₁ wn v ↔ CanShutDown s wn v := by
  simp only [CanShutDown, h.cluster, (h.scanned.vm v).dynamic, h.swapsWith_iff]

/-- The time that is tested is the one that was just recorded. -/
theorem Observed.longerThan_iff (h : Observed cfg answers v s s₁) (limit : ℤ) :
    longerThan (s₁.vms v).stateTime limit = true ↔
      ∃ t, stateTimeAfter cfg (s.vms v) answers.checkNode = .ok t ∧ limit < t := by
  obtain ⟨t, ht, hvm⟩ := h.vm
  rw [hvm, ht]
  show decide (limit < t) = true ↔ _
  simp

/-! #### Shutting down -/

theorem resource_setVm {f : VM → VM} (hf : ∀ vm, (f vm).cloudResourceName = vm.cloudResourceName)
    (w : VmRef) : ((s.setVm v f).vms w).cloudResourceName = (s.vms w).cloudResourceName := by
  by_cases hw : w = v
  · simp [State.setVm, hw, hf]
  · simp [State.setVm, hw]

/-- A swap of two VMs before one is shut down. -/
theorem ShutDown.swapped {w : VmRef} {f g : VM → VM}
    (hf : ∀ vm, (f vm).cloudResourceName = vm.cloudResourceName)
    (hg : ∀ vm, (g vm).cloudResourceName = vm.cloudResourceName)
    (h : ShutDown v ((s.setVm v f).setVm w g) s') : ShutDown v s s' :=
  { h with
    resource := fun u ↦ by rw [h.resource, resource_setVm hg, resource_setVm hf]
    trace := ⟨h.trace.trace, h.trace.events⟩
    hosts := h.hosts }

theorem Unmoved.swapped {w : VmRef} {f g : VM → VM}
    (hf : ∀ vm, (f vm).cloudResourceName = vm.cloudResourceName)
    (hg : ∀ vm, (g vm).cloudResourceName = vm.cloudResourceName)
    (h : Unmoved ((s.setVm v f).setVm w g) s') : Unmoved s s' :=
  { h with
    resource := fun u ↦ by rw [h.resource, resource_setVm hg, resource_setVm hf]
    trace := ⟨h.trace.trace, h.trace.events⟩ }

/-- **The search for a swap.** It shuts the VM down if it finds one. -/
theorem ends_swapStatic {call : DestroyCall} (hmem : v ∈ s.existing)
    (hknown : (s.vms v).cloudResourceName ∈ s.resources.names) (hjobs : wn.jobs = none) :
    ∀ wns : List WorkerNode, Ends ((swapStatic cfg call wn v wns).exec cfg) s
      (fun _ s' ↦ (s' = s ∧ ∀ otherWn ∈ wns, ¬SwapsWith s wn v otherWn) ∨
        (∃ otherWn ∈ wns, SwapsWith s wn v otherWn) ∧ ShutDown v s s')
      fun e s' ↦ NotFromRemove e ∧ Unmoved s s' := by
  intro wns
  induction wns with
  | nil => exact .inl ⟨rfl, nofun⟩
  | cons otherWn rest ih =>
    -- this node is passed over
    have hrest (hnot : ¬SwapsWith s wn v otherWn) :
        Ends ((swapStatic cfg call wn v rest).exec cfg) s
          (fun _ s' ↦ (s' = s ∧ ∀ other ∈ otherWn :: rest, ¬SwapsWith s wn v other) ∨
            (∃ other ∈ otherWn :: rest, SwapsWith s wn v other) ∧ ShutDown v s s')
          fun e s' ↦ NotFromRemove e ∧ Unmoved s s' := by
      refine ih.mono (fun _ s' h ↦ ?_) fun _ _ h ↦ h
      rcases h with ⟨rfl, hnone⟩ | ⟨⟨other, hother, hswap⟩, hshut⟩
      · exact .inl ⟨rfl, List.forall_mem_cons.2 ⟨hnot, hnone⟩⟩
      · exact .inr ⟨⟨other, List.mem_cons_of_mem _ hother, hswap⟩, hshut⟩
    rw [swapStatic]
    split
    · rename_i hother
      rw [ends_findVm]
      split
      · rename_i hnone
        refine hrest fun hswap ↦ ?_
        obtain ⟨-, -, otherV, hfound, -⟩ := hswap
        exact nomatch hnone.symm.trans hfound
      · rename_i otherV hfound
        rw [ends_vm, ends_vm]
        split
        · rename_i hswap
          rw [ends_setVm, ends_setVm]
          refine (ends_shutDownIdle ?_ ?_ hjobs).mono (fun _ s' h ↦ ?_) fun _ _ h ↦
            ⟨h.1, h.2.swapped (by exact fun _ ↦ rfl) (by exact fun _ ↦ rfl)⟩
          · exact hmem
          · refine (congrArg (· ∈ s.resources.names) ?_).mpr hknown
            exact (resource_setVm (by exact fun _ ↦ rfl) v).trans
              (resource_setVm (by exact fun _ ↦ rfl) v)
          · refine .inr
              ⟨⟨otherWn, List.mem_cons_self, hother.1, hother.2, otherV, hfound, hswap⟩, ?_⟩
            exact h.swapped (by exact fun _ ↦ rfl) (by exact fun _ ↦ rfl)
        · rename_i hnot
          refine hrest fun hswap ↦ hnot ?_
          obtain ⟨-, -, w, hfound', hsame⟩ := hswap
          obtain rfl : otherV = w := Option.some.inj (hfound.symm.trans hfound')
          exact hsame
    · rename_i hnot
      exact hrest fun hswap ↦ hnot ⟨hswap.1, hswap.2.1⟩

/-- **An idle worker.** It is shut down if it can be, and otherwise left alone. -/
theorem ends_shutDownOrSwap {call : DestroyCall} (hmem : v ∈ s.existing)
    (hknown : (s.vms v).cloudResourceName ∈ s.resources.names) (hjobs : wn.jobs = none) :
    Ends ((shutDownOrSwap cfg call wn v).exec cfg) s
      (fun _ s' ↦ (Scanned .idle s s' ∧ ¬CanShutDown s wn v) ∨
        CanShutDown s wn v ∧ ShutDown v s s')
      fun e s' ↦ NotFromRemove e ∧
        (Unmoved s s' ∨ CanShutDown s wn v ∧ ShutDown v s s') := by
  -- the warning comes after the decision, and may still raise
  have hwarn : ∀ s₁, Ends ((warnBaseFlavor v).exec cfg) s₁ (fun _ ↦ Scanned .idle s₁)
      fun e s' ↦ NotFromRemove e ∧ Scanned .idle s₁ s' := fun s₁ ↦
    (ends_of_scanning (scanning_warnBaseFlavor v) s₁).mono (fun _ _ h ↦ h.2) fun _ _ h ↦ h
  rw [shutDownOrSwap, ends_vm]
  split
  · rename_i hdynamic
    exact (ends_shutDownIdle hmem hknown hjobs).mono (fun _ _ h ↦ .inr ⟨.inl hdynamic, h⟩)
      fun _ _ h ↦ ⟨h.1, .inl h.2⟩
  · rename_i hstatic
    rw [ends_cluster, Program.when]
    split
    · rename_i hrunning
      rw [Proc.exec, run_bind, ends_bind]
      refine (ends_cluster.2 (ends_swapStatic hmem hknown hjobs _)).mono ?_
        fun _ _ h ↦ ⟨h.1, .inl h.2⟩
      rintro - s₁ (⟨rfl, hnone⟩ | ⟨hswap, h₁⟩)
      · have hnot : ¬CanShutDown s₁ wn v := by
          rintro (hdynamic | ⟨-, otherWn, hother, hswap⟩)
          · exact hstatic hdynamic
          · exact hnone otherWn hother hswap
        exact (hwarn s₁).mono (fun _ _ h ↦ .inl ⟨h, hnot⟩) fun _ _ h ↦ ⟨h.1, .inl h.2.unmoved⟩
      · exact (hwarn s₁).mono (fun _ _ h ↦ .inr ⟨.inr ⟨hrunning, hswap⟩, h₁.scanned_right h⟩)
          fun _ _ h ↦ ⟨h.1, .inr ⟨.inr ⟨hrunning, hswap⟩, h₁.scanned_right h.2⟩⟩
    · rename_i hnone
      have hnot : ¬CanShutDown s wn v := fun h ↦ h.elim hstatic fun h ↦ hnone h.1
      exact (hwarn s).mono (fun _ _ h ↦ .inl ⟨h, hnot⟩) fun _ _ h ↦ ⟨h.1, .inl h.2.unmoved⟩

/-- A visit brings no VM back. -/
theorem Checked.existing (h : Checked cfg answers wn s s') (hv : v ∉ s.existing) :
    v ∉ s'.existing := by
  cases h with
  | looked h => rwa [h.existing]
  | deleted _ h => exact fun hmem ↦ hv (h.existing ▸ List.mem_of_mem_erase hmem)
  | shutDown _ h => exact fun hmem ↦ hv (List.mem_of_mem_erase (h.existing ▸ hmem))
  | failed h => rwa [h.existing]

theorem Checked.starting (h : Checked cfg answers wn s s') :
    s'.starting = s.starting ∧ s'.nextVm = s.nextVm := by
  cases h with
  | looked h => exact ⟨h.starting, h.nextVm⟩
  | deleted _ h => exact ⟨h.starting, h.nextVm⟩
  | shutDown _ h => exact ⟨h.starting, h.nextVm⟩
  | failed h => exact ⟨h.starting, h.nextVm⟩

/-- A visit that leaves the existing list alone, where nothing is to be taken out of it. -/
theorem Checked.looked_takesOut (h : Scanned .idle s s')
    (hnot : ∀ v, ¬Takes cfg answers s wn v) :
    Checked cfg answers wn s s' ∧ TakesOut cfg answers s wn s' :=
  ⟨.looked h, fun v hv ↦ absurd hv (hnot v), fun _ ↦ h.existing⟩

/-- A visit that takes the VM of the node out of the existing list. -/
theorem TakesOut.of_takes (h : Takes cfg answers s wn v)
    (hexisting : s'.existing = s.existing.erase v) : TakesOut cfg answers s wn s' where
  taken := fun w hw ↦ by
    obtain rfl : v = w := Option.some.inj (h.found.symm.trans hw.found)
    exact hexisting
  spared := fun hnot ↦ absurd h (hnot v)

/-- **One visit**, with what it takes out of the existing list if it does not raise. -/
theorem ends_checkWorker_takesOut : Ends ((checkWorker cfg answers wn).exec cfg) s
    (fun _ s' ↦ Checked cfg answers wn s s' ∧ TakesOut cfg answers s wn s')
    fun e s' ↦ NotFromRemove e ∧ Checked cfg answers wn s s' := by
  rw [checkWorker, ends_findVm]
  split
  · rename_i hnone
    refine Checked.looked_takesOut (.refl s) fun v hv ↦ ?_
    exact absurd (hv.found.symm.trans hnone) (Option.some_ne_none v)
  · rename_i v hfound
    -- the VM of the node is the only one that the visit can take
    have hown : ∀ {w}, Takes cfg answers s wn w → Takes cfg answers s wn v := by
      intro w hw
      obtain rfl : v = w := Option.some.inj (hfound.symm.trans hw.found)
      exact hw
    have hwiden : ∀ {s₁}, Scanned (.looking (· = v)) s s₁ → Scanned .idle s s₁ := fun h ↦
      h.mono (fun h ↦ h.elim) fun _ _ ↦ trivial
    refine ends_observe (fun s₁ h₁ ↦ ?_) fun e s₁ he h₁ ↦ ⟨he, .looked (hwiden h₁)⟩
    have hidle : Scanned .idle s s₁ := hwiden h₁.scanned
    have hmem : v ∈ s₁.existing := h₁.mem_existing hfound
    have hknown : (s₁.vms v).cloudResourceName ∈ s₁.resources.names := by
      rw [(h₁.scanned.vm v).resource, h₁.scanned.resources]
      exact h₁.known
    split
    · rename_i hjobs
      rw [Proc.exec, run_bind, ends_bind, checkIdleWorker, ends_vm]
      -- Too long idle, drained, down for too long, or nothing to do.
      split
      · rename_i htest
        have hlong : answers.IdleTooLong cfg (s.vms v) :=
          ⟨htest.1, (h₁.longerThan_iff _).1 htest.2⟩
        rw [Proc.exec, run_bind, ends_bind]
        have hshut : ∀ {s'}, CanShutDown s₁ wn v ∧ ShutDown v s₁ s' →
            Checked cfg answers wn s s' ∧ TakesOut cfg answers s wn s' := by
          rintro s' ⟨hcan, h⟩
          have hcan : CanShutDown s wn v := h₁.canShutDown_iff.1 hcan
          exact ⟨.shutDown ⟨hfound, h₁.known, hjobs, hlong, hcan⟩ (h.scanned_left hidle),
            .of_takes ⟨hfound, hjobs, .inl ⟨hlong, hcan⟩⟩ (h.scanned_left hidle).existing⟩
        refine (ends_shutDownOrSwap hmem hknown hjobs).mono ?_ ?_
        · rintro - s' (⟨h, hcannot⟩ | h)
          · refine Checked.looked_takesOut (hidle.trans h) fun w hw ↦ ?_
            rcases (hown hw).cause with ⟨-, hcan⟩ | hdrained | ⟨state, hstate, -, hdown, -⟩
            · exact hcannot (h₁.canShutDown_iff.2 hcan)
            · exact absurd (htest.1.symm.trans hdrained) (by decide)
            · obtain rfl := Option.some.inj (htest.1.symm.trans hstate)
              exact absurd hdown (by decide)
          · exact hshut h
        · rintro e s' ⟨he, h | h⟩
          · exact ⟨he, .failed (hidle.unmoved.trans h)⟩
          · exact ⟨he, (hshut h).1⟩
      · rename_i htest
        have hshort : ¬answers.IdleTooLong cfg (s.vms v) := fun h ↦
          htest ⟨h.1, (h₁.longerThan_iff _).2 h.2⟩
        have hmove : ∀ toDelete : Bool, (toDelete = true ↔ answers.checkNode = some "drained" ∨
            answers.DownTooLong cfg wn (s.vms v)) → Ends ((Program.when (toDelete = true)
              (Proc.locked (.existingToDeleting v))).run (exec cfg)) s₁
            (fun _ s' ↦ Checked cfg answers wn s s' ∧ TakesOut cfg answers s wn s')
            fun e s' ↦ NotFromRemove e ∧ Checked cfg answers wn s s' := by
          intro toDelete hdelete
          rw [Program.when]
          split
          · rename_i htrue
            refine ends_block.2 ((ends_existingToDeleting hmem).2 ⟨.deleted hfound hidle, ?_⟩)
            exact .of_takes ⟨hfound, hjobs, .inr (hdelete.1 htrue)⟩
              (congrArg (List.erase · v) hidle.existing)
          · rename_i hfalse
            refine Checked.looked_takesOut hidle fun w hw ↦ hfalse (hdelete.2 ?_)
            exact (hown hw).cause.resolve_left fun h ↦ hshort h.1
        split
        · rename_i hdrained
          exact hmove true ⟨fun _ ↦ .inl hdrained, fun _ ↦ rfl⟩
        · rename_i hdrained
          cases hnode : answers.checkNode with
          | none =>
            refine hmove false ⟨fun hfalse ↦ absurd hfalse Bool.false_ne_true, ?_⟩
            rintro (h | ⟨state, h, -⟩)
            · exact absurd h hdrained
            · exact absurd (h.symm.trans hnode) (Option.some_ne_none state)
          | some state =>
            refine hmove _ ?_
            rw [Bool.and_eq_true, Bool.and_eq_true, h₁.longerThan_iff]
            constructor
            · rintro ⟨⟨hwn, hstate⟩, hlong⟩
              exact .inr ⟨state, hnode, hwn, hstate, hlong⟩
            · rintro (h | ⟨state', h, hwn, hstate, hlong⟩)
              · exact absurd h hdrained
              · obtain rfl := Option.some.inj (hnode.symm.trans h)
                exact ⟨⟨hwn, hstate⟩, hlong⟩
    · rename_i hjobs
      exact Checked.looked_takesOut hidle fun w hw ↦ hjobs hw.jobs

/-- **One visit.** -/
theorem ends_checkWorker : Ends ((checkWorker cfg answers wn).exec cfg) s
    (fun _ ↦ Checked cfg answers wn s) fun e s' ↦ NotFromRemove e ∧ Checked cfg answers wn s s' :=
  ends_checkWorker_takesOut.mono (fun _ _ h ↦ h.1) fun _ _ h ↦ h

end Visit

end DynamicTorque
