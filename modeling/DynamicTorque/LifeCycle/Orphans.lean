import DynamicTorque.LifeCycle.StartUp
import DynamicTorque.Scheduler.Packing

/-!
# Orphan nodes

At its start the process removes nodes from Torque that have no VM and are down or offline. The
comment in the source says that this concerns nodes whose name has the prefix; the loop does not
look at the name.

* `ends_load_orphans`: the orphans are removed, and nothing else.
* `keeps_nodes`: nothing after the loop removes a node.
* `own_orphans_only_iff`: so only own nodes are removed if and only if every orphan happens to have
  the prefix.
-/

open Python Atomic Program

namespace DynamicTorque

/-! ### Steps that leave the nodes -/

/-- An event that removes no node from Torque. -/
def Event.KeepsNodes : Event → Prop
  | .removeOrphan _ => False
  | .command .removeNode _ => False
  | _ => True

/-- The steps that leave the nodes in Torque and in `worker_nodes`. -/
def Act.KeepsNodes : Act → Prop
  | .setCluster _ | .dumpNodes | .setExisting _ | .calculate _ _ _ => False
  | .emit e => e.KeepsNodes
  | .locked (.existingToStarting _) | .locked (.destroyExisting _) => True
  | .locked (.setProvisioning _) | .locked (.addStarting _) | .locked (.endLaunch _) => True
  | .locked _ => False
  | _ => True

/-- A program of such steps. -/
abbrev LeavesNodes {α : Type} (p : Proc α) : Prop :=
  p.Within Act.KeepsNodes (fun _ ↦ True) fun _ ↦ True

/-- From `s` to `s'` no node is removed. -/
structure NodesLeft (s s' : State) : Prop where
  cluster : s'.cluster = s.cluster
  trace : Emits Event.KeepsNodes s s'

section Leaves

variable {α : Type} {cfg : Config} {s s₁ s' : State} {v : VmRef}

theorem NodesLeft.of_eq (hcluster : s'.cluster = s.cluster) (htrace : s'.trace = s.trace) :
    NodesLeft s s' :=
  ⟨hcluster, .of_eq htrace⟩

theorem NodesLeft.trans (h : NodesLeft s s₁) (h' : NodesLeft s₁ s') : NodesLeft s s' :=
  ⟨h'.cluster.trans h.cluster, h.trace.trans h'.trace⟩

theorem ends_removeFrom_nodes (L : ListName) (v : VmRef) :
    Ends (Locked.removeFrom L v) s (fun _ ↦ NodesLeft s) fun _ ↦ NodesLeft s := by
  rw [Locked.removeFrom, ends_bind, ends_get]
  refine ends_bind.2 (ends_lift (fun xs _ ↦ ?_) fun _ _ ↦ .of_eq rfl rfl)
  cases L with
  | existing => exact NodesLeft.of_eq rfl rfl
  | starting => exact NodesLeft.of_eq rfl rfl
  | deleting => exact NodesLeft.of_eq rfl rfl

theorem ends_append_nodes (L : ListName) (v : VmRef) :
    Ends (Locked.append L v) s (fun _ ↦ NodesLeft s) fun _ ↦ NodesLeft s := by
  cases L with
  | existing => exact NodesLeft.of_eq rfl rfl
  | starting => exact NodesLeft.of_eq rfl rfl
  | deleting => exact NodesLeft.of_eq rfl rfl

theorem ends_removeWaiting_nodes (rs : List WaitingRequest) (s : State) :
    Ends (Locked.removeWaiting rs) s (fun _ ↦ NodesLeft s) fun _ ↦ NodesLeft s := by
  induction rs generalizing s with
  | nil => exact NodesLeft.of_eq rfl rfl
  | cons r rs ih =>
    rw [Locked.removeWaiting, ends_bind, ends_get, ends_bind]
    refine ends_lift (fun waiting _ ↦ ?_) fun _ _ ↦ .of_eq rfl rfl
    rw [ends_bind, ends_set]
    have hset : NodesLeft s { s with waiting := waiting } := .of_eq rfl rfl
    exact (ih _).mono (fun _ _ h ↦ hset.trans h) fun _ _ h ↦ hset.trans h

/-- **The blocks.** -/
theorem ends_block_nodes {b : Block} (h : Act.KeepsNodes (.locked b)) (s : State) :
    Ends (b.code cfg) s (fun _ ↦ NodesLeft s) fun _ ↦ NodesLeft s := by
  have hmove : ∀ (L : ListName) (v : VmRef),
      Ends (Locked.removeFrom .existing v >>= fun _ ↦ Locked.append L v) s (fun _ ↦ NodesLeft s)
        fun _ ↦ NodesLeft s := fun L v ↦ by
    rw [ends_bind]
    refine (ends_removeFrom_nodes .existing v).mono (fun _ s₁ h₁ ↦ ?_) fun _ _ h ↦ h
    exact (ends_append_nodes L v).mono (fun _ _ h ↦ h₁.trans h) fun _ _ h ↦ h₁.trans h
  cases b with
  | existingToStarting v => exact hmove .starting v
  | destroyExisting v => exact hmove .deleting v
  | setProvisioning b => exact NodesLeft.of_eq rfl rfl
  | addStarting v => exact ends_append_nodes .starting v
  | endLaunch rs => exact ends_removeWaiting_nodes rs s
  | _ => exact h.elim

/-- **What such steps leave.** -/
theorem keeps_nodes (cfg : Config) (s : State) :
    Keeps (exec cfg) Act.KeepsNodes (NodesLeft s) fun _ ↦ True := by
  intro a ha s₁ h₁
  cases a with
  | emit e => exact ⟨h₁.cluster, h₁.trace.trans (.emit s₁ ha)⟩
  | locked b =>
    exact (ends_block_nodes ha s₁).mono (fun _ _ h ↦ h₁.trans h)
      fun _ _ h ↦ ⟨trivial, h₁.trans h⟩
  | setVm v f => exact h₁.trans (.of_eq rfl rfl)
  | setProvisioning b => exact h₁.trans (.of_eq rfl rfl)
  | toggleSleepMode => exact h₁.trans (.of_eq rfl rfl)
  | setStatic resource reqs => exact h₁.trans (.of_eq rfl rfl)
  | setAvailable resource n => exact h₁.trans (.of_eq rfl rfl)
  | newVm vm => exact h₁.trans (.of_eq rfl rfl)
  | appendWaiting requests => exact h₁.trans (.of_eq rfl rfl)
  | list _ | findVm _ | vm _ | waiting => exact h₁
  | cluster | provisioning | sleepMode | resources => exact h₁
  | _ => exact ha.elim

theorem LeavesNodes.ends {p : Proc α} (h : LeavesNodes p) :
    Ends (p.exec cfg) s (fun _ ↦ NodesLeft s) fun _ ↦ NodesLeft s :=
  (ends_run_of_within (keeps_nodes cfg s) h (.of_eq rfl rfl)).mono (fun _ _ h ↦ h.2)
    fun _ _ h ↦ h.2

theorem leavesNodes_lift (x : Except PyError α) : LeavesNodes (Program.lift x : Proc α) :=
  within_lift (fun _ _ ↦ trivial) fun _ _ ↦ trivial

theorem leavesNodes_step {o : Act} (h : o.KeepsNodes) : LeavesNodes (Program.perform o) :=
  ⟨h, fun _ ↦ trivial⟩

theorem leavesNodes_vmDestroy (record : Option WorkerNode) (answer : DestroyAnswer) (now : Time) :
    LeavesNodes (vmDestroy v record answer now) :=
  within_vmDestroy trivial trivial (fun _ ↦ trivial) trivial fun _ _ ↦ trivial

theorem leavesNodes_launchInstances (answers : ℕ → Option StartedServer) :
    LeavesNodes (launchInstances cfg answers) :=
  within_launchInstances trivial trivial trivial trivial (fun _ _ _ ↦ trivial) (fun _ ↦ trivial)
    (fun _ ↦ trivial) (fun _ ↦ trivial) (fun _ _ ↦ trivial) answers

/-! #### The resources -/

variable {resource : String}

theorem leavesNodes_findWnFromVm (v : VmRef) : LeavesNodes (findWnFromVm v) :=
  .step trivial fun _ ↦ .step trivial fun _ ↦ trivial

theorem leavesNodes_needMoreStatic : LeavesNodes (needMoreStatic resource) :=
  .step trivial fun _ ↦ (leavesNodes_lift _).bind fun _ _ ↦ trivial

theorem leavesNodes_markStatic (v : VmRef) : LeavesNodes (markStatic cfg resource v) := by
  refine .step trivial fun vm ↦ (leavesNodes_lift _).bind fun name _ ↦ .step trivial fun crs ↦
    (leavesNodes_lift _).bind fun res _ ↦ (leavesNodes_lift _).bind fun base _ ↦ ?_
  split
  · refine (leavesNodes_lift _).bind fun reqs _ ↦ (leavesNodes_lift _).bind fun found _ ↦
      .step trivial fun _ ↦ within_when fun _ ↦ leavesNodes_step trivial
  · trivial

theorem leavesNodes_trimOverused {calls : ℕ → DestroyCall} {limit : ℤ} :
    ∀ (vs : List VmRef) (i : ℕ) (num : ℤ), LeavesNodes (trimOverused calls limit i num vs) := by
  intro vs
  induction vs with
  | nil =>
    intro i num
    rw [trimOverused]
    split <;> trivial
  | cons v vs ih =>
    intro i num
    rw [trimOverused]
    split
    · refine (leavesNodes_findWnFromVm v).bind fun record _ ↦ .step trivial fun vm ↦ ?_
      split
      · exact ih _ _
      · exact (leavesNodes_vmDestroy _ _ _).bind fun _ _ ↦ .step trivial fun _ ↦ ih _ _
    · trivial

theorem leavesNodes_requestStatic : LeavesNodes (requestStatic cfg resource) :=
  .step trivial fun _ ↦ (leavesNodes_lift _).bind fun _ _ ↦ (leavesNodes_lift _).bind fun _ _ ↦
    (leavesNodes_lift _).bind fun _ _ ↦ (leavesNodes_lift _).bind fun _ _ ↦ leavesNodes_step trivial

theorem leavesNodes_loadResource (answers : StartUpAnswers) :
    LeavesNodes (loadResource cfg answers resource) := by
  refine .step trivial fun existing ↦ Within.bind (Φ := fun _ ↦ True)
    (within_forEach_of_forall (fun _ v _ _ ↦ ?_) _) fun ofResource _ ↦ ?_
  · exact .step trivial fun _ ↦ trivial
  refine leavesNodes_needMoreStatic.bind fun needed _ ↦ (within_when fun _ ↦
    within_forEach_of_forall (fun _ v _ _ ↦ leavesNodes_markStatic v) ()).bind fun _ _ ↦ ?_
  refine Within.bind (Φ := fun _ ↦ True) (within_forEach_of_forall (fun _ v _ _ ↦ ?_) _)
    fun num _ ↦ .step trivial fun crs ↦ (leavesNodes_lift _).bind fun res _ ↦ ?_
  · exact .step trivial fun _ ↦ trivial
  refine (leavesNodes_trimOverused _ _ _).bind fun left _ ↦ .step trivial fun _ ↦ ?_
  exact leavesNodes_needMoreStatic.bind fun needed _ ↦ within_when fun _ ↦
    leavesNodes_requestStatic

end Leaves

/-! ### Own nodes -/

/-- The name of the node has the prefix. -/
def WorkerNode.Own (cfg : Config) (wn : WorkerNode) : Prop :=
  cfg.cloudVmPrefix.toList <+: wn.name.toList

/-- A node that Torque reports as down or offline, and that is the node of no VM of the cloud. -/
def StartUpAnswers.Orphan (crs : CloudResources) (answers : StartUpAnswers) (wn : WorkerNode) :
    Prop :=
  wn.unavailable = true ∧
    ∀ vm ∈ loadAllExistingWorkerNodes crs.names answers.vmList, vm.hostname ≠ wn.name

section Own

variable {cfg : Config} {crs : CloudResources} {answers : StartUpAnswers} {s' : State}
  {wn : WorkerNode}

theorem orphan_listed : (State.listed crs answers).orphan wn = true ↔ answers.Orphan crs wn := by
  have hvm : ∀ v (h : v < (loadAllExistingWorkerNodes crs.names answers.vmList).length),
      (State.listed crs answers).vms v =
        (loadAllExistingWorkerNodes crs.names answers.vmList)[v] := fun v h ↦ by
    simp [State.listed, State.allocate, State.initial, h]
  rw [State.orphan, Bool.and_eq_true, and_comm, Option.isNone_iff_eq_none, State.findVm,
    List.find?_eq_none]
  refine and_congr_right fun _ ↦ ?_
  constructor
  · intro h vm hvm'
    obtain ⟨v, hv, rfl⟩ := List.getElem_of_mem hvm'
    have hne := h v (mem_listed.2 hv)
    rw [hvm v hv] at hne
    simpa using hne
  · intro h v hv
    rw [hvm v (mem_listed.1 hv)]
    simpa using h _ (List.getElem_mem (mem_listed.1 hv))

/-- What start-up has done to the nodes that Torque reports. -/
structure OrphansRemoved (crs : CloudResources) (answers : StartUpAnswers) (s' : State) : Prop where
  workerNodes : s'.cluster.workerNodes =
    answers.wnQuery.2.filter fun wn ↦ !(State.listed crs answers).orphan wn
  trace : ∃ events, s'.trace = ((answers.wnQuery.2.filter (State.listed crs answers).orphan).map
    fun wn ↦ Event.removeOrphan wn.name) ++ events ∧ ∀ e ∈ events, e.KeepsNodes

/-- **The nodes after the start-up**, however it ends. -/
theorem ends_load_orphans (cfg : Config) : Ends ((loadExistingWorkerNodes cfg answers).exec cfg)
    (State.initial crs) (fun _ ↦ OrphansRemoved crs answers)
      fun _ ↦ OrphansRemoved crs answers := by
  have hend : ∀ s', NodesLeft (State.cleaned crs answers) s' → OrphansRemoved crs answers s' :=
    fun s' h ↦
      { workerNodes := by
          rw [h.cluster]
          rfl
        trace := ⟨(State.cleaned crs answers).since s', h.trace.trace, h.trace.events⟩ }
  refine ends_load_of_decided ((LeavesNodes.ends ?_).mono (fun _ ↦ hend) fun _ ↦ hend)
  refine (within_forEach_of_forall (fun _ v _ _ ↦ leavesNodes_step
    (o := .locked (.existingToStarting v)) trivial) ()).bind fun _ _ ↦ ?_
  refine (within_forEach_of_forall (fun i vr _ _ ↦ (leavesNodes_vmDestroy _ _ _).bind fun _ _ ↦
    leavesNodes_step (o := .locked (.destroyExisting vr.1)) trivial) ()).bind fun _ _ ↦ ?_
  refine (within_forEach_of_forall (fun _ resource _ _ ↦ leavesNodes_loadResource answers)
    ()).bind fun _ _ ↦ ?_
  refine .step trivial fun starting ↦ (within_when fun _ ↦ leavesNodes_step
    (o := .locked (.setProvisioning true)) trivial).bind fun _ _ ↦ .step trivial fun waiting ↦ ?_
  exact within_when fun _ ↦ leavesNodes_launchInstances _

/-- Start-up cleans its own nodes only: it removes own orphans from Torque, and the other nodes
stay in Torque and in `worker_nodes`. -/
structure OwnOrphansOnly (cfg : Config) (crs : CloudResources) (answers : StartUpAnswers)
    (s' : State) : Prop where
  removed : ∀ name, .removeOrphan name ∈ s'.trace →
    ∃ wn ∈ answers.wnQuery.2, wn.name = name ∧ wn.Own cfg ∧ answers.Orphan crs wn
  remains : ∀ wn ∈ answers.wnQuery.2,
    (∀ other ∈ answers.wnQuery.2, other.name = wn.name → other = wn) →
    ¬(wn.Own cfg ∧ answers.Orphan crs wn) → .removeOrphan wn.name ∉ s'.trace
  kept : ∀ wn ∈ answers.wnQuery.2, ¬(wn.Own cfg ∧ answers.Orphan crs wn) →
    wn ∈ s'.cluster.workerNodes
  removeNode : ∀ v, .command .removeNode v ∉ s'.trace

namespace OrphansRemoved

variable (h : OrphansRemoved crs answers s')
include h

/-- The orphans are the nodes that are removed from Torque. -/
theorem removeOrphan_mem {name : String} : .removeOrphan name ∈ s'.trace ↔
    ∃ wn ∈ answers.wnQuery.2, wn.name = name ∧ answers.Orphan crs wn := by
  obtain ⟨events, htrace, hevents⟩ := h.trace
  have hnot : .removeOrphan name ∉ events := fun hmem ↦ hevents _ hmem
  rw [htrace, List.mem_append, or_iff_left hnot, List.mem_map]
  constructor
  · rintro ⟨wn, hwn, hname⟩
    obtain ⟨hmem, horphan⟩ := List.mem_filter.1 hwn
    exact ⟨wn, hmem, Event.removeOrphan.inj hname, orphan_listed.1 horphan⟩
  · rintro ⟨wn, hmem, rfl, horphan⟩
    exact ⟨wn, List.mem_filter.2 ⟨hmem, orphan_listed.2 horphan⟩, rfl⟩

theorem removeNode_not_mem (v : VmRef) : .command .removeNode v ∉ s'.trace := by
  obtain ⟨events, htrace, hevents⟩ := h.trace
  rw [htrace, List.mem_append, not_or]
  refine ⟨fun hmem ↦ ?_, fun hmem ↦ hevents _ hmem⟩
  obtain ⟨wn, -, hwn⟩ := List.mem_map.1 hmem
  cases hwn

/-- The others are the nodes that stay in `worker_nodes`. -/
theorem mem_workerNodes :
    wn ∈ s'.cluster.workerNodes ↔ wn ∈ answers.wnQuery.2 ∧ ¬answers.Orphan crs wn := by
  rw [h.workerNodes, List.mem_filter, ← orphan_listed]
  simp

/-- If only own orphans are removed, then every orphan is an own node. -/
theorem own (honly : OwnOrphansOnly cfg crs answers s') :
    ∀ wn ∈ answers.wnQuery.2, answers.Orphan crs wn → wn.Own cfg := by
  intro wn hwn horphan
  obtain ⟨other, -, hname, hown, -⟩ :=
    honly.removed wn.name (h.removeOrphan_mem.2 ⟨wn, hwn, rfl, horphan⟩)
  rwa [WorkerNode.Own, hname] at hown

theorem ownOrphansOnly
    (hown : ∀ wn ∈ answers.wnQuery.2, answers.Orphan crs wn → wn.Own cfg) :
    OwnOrphansOnly cfg crs answers s' where
  removed := fun name hmem ↦ by
    obtain ⟨wn, hwn, hname, horphan⟩ := h.removeOrphan_mem.1 hmem
    exact ⟨wn, hwn, hname, hown wn hwn horphan, horphan⟩
  remains := fun wn hwn honly hnot hmem ↦ by
    obtain ⟨other, hother, hname, horphan⟩ := h.removeOrphan_mem.1 hmem
    obtain rfl := honly other hother hname
    exact hnot ⟨hown other hother horphan, horphan⟩
  kept := fun wn hwn hnot ↦
    h.mem_workerNodes.2 ⟨hwn, fun horphan ↦ hnot ⟨hown wn hwn horphan, horphan⟩⟩
  removeNode := h.removeNode_not_mem

end OrphansRemoved

/-- **The nodes that start-up removes.** They are own nodes, and all other nodes stay, if and only
if every orphan that Torque reports happens to have the prefix. -/
theorem own_orphans_only_iff (cfg : Config) (crs : CloudResources) (answers : StartUpAnswers) :
    Ends ((loadExistingWorkerNodes cfg answers).exec cfg) (State.initial crs)
        (fun _ ↦ OwnOrphansOnly cfg crs answers) (fun _ ↦ OwnOrphansOnly cfg crs answers) ↔
      ∀ wn ∈ answers.wnQuery.2, answers.Orphan crs wn → wn.Own cfg := by
  constructor
  · intro h
    have hremoved : OrphansRemoved crs answers _ := stateAfter_of_ends (ends_load_orphans cfg)
    exact hremoved.own (stateAfter_of_ends h)
  · intro hown
    exact (ends_load_orphans cfg).mono (fun _ _ h ↦ h.ownOrphansOnly hown)
      fun _ _ h ↦ h.ownOrphansOnly hown

end Own

/-- No VMs in the cloud, and a physical node that is offline for maintenance. -/
def maintenanceAnswers : StartUpAnswers where
  vmList := fun _ ↦ []
  persistentNodes := []
  wnQuery := (true, [⟨"physical1", "offline", none⟩])
  destroy := fun _ ↦ ⟨.deleted, 0⟩
  trim := fun _ _ ↦ ⟨.deleted, 0⟩
  launch := fun _ ↦ none

/-- The physical node is removed from Torque. -/
theorem physical_node_removed :
    ¬∀ (cfg : Config) (crs : CloudResources) (answers : StartUpAnswers),
      Ends ((loadExistingWorkerNodes cfg answers).exec cfg) (State.initial crs)
        (fun _ ↦ OwnOrphansOnly cfg crs answers) (fun _ ↦ OwnOrphansOnly cfg crs answers) := by
  intro h
  have honly := stateAfter_of_ends (h {} JobScheduler.threeNodes maintenanceAnswers)
  have hremoved : OrphansRemoved JobScheduler.threeNodes maintenanceAnswers _ :=
    stateAfter_of_ends (ends_load_orphans {})
  have horphan : maintenanceAnswers.Orphan JobScheduler.threeNodes ⟨"physical1", "offline", none⟩ :=
    ⟨by decide +kernel, fun vm hvm ↦ by
      simp [maintenanceAnswers, loadAllExistingWorkerNodes] at hvm⟩
  have hown := hremoved.own honly _ List.mem_cons_self horphan
  revert hown
  rw [WorkerNode.Own]
  decide +kernel

end DynamicTorque
