import DynamicTorque.LifeCycle.StaticRequests
import Mathlib.Data.List.Induction

/-!
# Start-up

`_load_existing_worker_nodes`, part by part. The decisions about the VMs that the cloud lists are
replayed without executing anything (`loadScratch`); then VMs are picked up again or discarded, and
each resource is trimmed and asked for its static VMs. `StartedUp` collects what holds when all of
it is done.
-/

open Python Atomic Program

namespace DynamicTorque

/-! ### The VMs that the cloud lists -/

/-- What becomes of a VM that the cloud lists. -/
inductive LoadOutcome
  | kept
  | toStarting
  | toDelete (record : Option WorkerNode)

/-- The scratch lists after a visit with an outcome. -/
def LoadOutcome.add (v : VmRef) (scratch : LoadScratch) : LoadOutcome → LoadScratch
  | .kept => scratch
  | .toStarting => { scratch with toStarting := scratch.toStarting ++ [v] }
  | .toDelete record => { scratch with toDelete := scratch.toDelete ++ [(v, record)] }

def LoadOutcome.toStarting? (v : VmRef) : LoadOutcome → Option VmRef
  | .toStarting => some v
  | .kept | .toDelete _ => none

def LoadOutcome.toDelete? (v : VmRef) : LoadOutcome → Option (VmRef × Option WorkerNode)
  | .toDelete record => some (v, record)
  | .kept | .toStarting => none

/-- The decision about a VM, given the nodes that Torque lists. -/
def loadOutcome (persistentNodes : List String) (workerNodes : List WorkerNode)
    (crs : CloudResources) (vm : VM) : LoadOutcome :=
  if vm.ip = none then .toDelete none
  else
    match workerNodes.find? fun wn ↦ wn.name = vm.hostname with
    | none => if vm.hostname ∈ persistentNodes then .toStarting else .toDelete none
    | some wn =>
      if (wn.jobs = none ∧ vm.imageId ≠ some (crs.object vm.cloudResourceName).imageUuid) ∨
          wn.unavailable = true then
        .toDelete (some wn)
      else .kept

/-- The decisions about the VMs `vs`. -/
def loadScratch (persistentNodes : List String) (workerNodes : List WorkerNode)
    (crs : CloudResources) (vms : VmRef → VM) (vs : List VmRef) : LoadScratch where
  toDelete := vs.filterMap fun v ↦
    (loadOutcome persistentNodes workerNodes crs (vms v)).toDelete? v
  toStarting := vs.filterMap fun v ↦
    (loadOutcome persistentNodes workerNodes crs (vms v)).toStarting? v

section Scan

variable {cfg : Config} {s : State} {v : VmRef} {persistentNodes : List String}
  {workerNodes : List WorkerNode} {crs : CloudResources} {vms : VmRef → VM} {vs : List VmRef}

theorem loadScratch_append_singleton (vs : List VmRef) (v : VmRef) :
    loadScratch persistentNodes workerNodes crs vms (vs ++ [v]) =
      (loadOutcome persistentNodes workerNodes crs (vms v)).add v
        (loadScratch persistentNodes workerNodes crs vms vs) := by
  simp only [loadScratch, List.filterMap_append]
  cases h : loadOutcome persistentNodes workerNodes crs (vms v) <;>
    simp [h, LoadOutcome.add, LoadOutcome.toStarting?, LoadOutcome.toDelete?]

/-- No VM is put in two places. -/
theorem loadScratch_subperm :
    ((loadScratch persistentNodes workerNodes crs vms vs).toStarting ++
      (loadScratch persistentNodes workerNodes crs vms vs).toDelete.map Prod.fst).Subperm vs := by
  induction vs using List.reverseRecOn with
  | nil => exact .refl _
  | append_singleton vs v ih =>
    rw [loadScratch_append_singleton]
    generalize loadScratch persistentNodes workerNodes crs vms vs = scratch at ih ⊢
    have hadd : ([v] ++ (scratch.toStarting ++ scratch.toDelete.map Prod.fst)).Subperm
        (vs ++ [v]) :=
      ((List.subperm_append_left [v]).2 ih).trans List.perm_append_comm.subperm
    cases loadOutcome persistentNodes workerNodes crs (vms v) with
    | kept => exact ih.trans (List.sublist_append_left _ _).subperm
    | toStarting =>
      refine List.Subperm.trans (List.Perm.subperm ?_) hadd
      rw [LoadOutcome.add, List.append_assoc]
      exact List.perm_append_comm_assoc _ _ _
    | toDelete record =>
      refine List.Subperm.trans (List.Perm.subperm ?_) hadd
      rw [LoadOutcome.add, List.map_append, ← List.append_assoc]
      exact List.perm_append_comm

theorem ends_runsOtherImage {vm : VM} (hknown : vm.cloudResourceName ∈ s.resources.names)
    (wn : WorkerNode) : Ends ((runsOtherImage vm wn).exec cfg) s
      (fun other s' ↦ s' = s ∧ (other = true ↔ wn.jobs = none ∧
        vm.imageId ≠ some (s.resources.object vm.cloudResourceName).imageUuid))
      fun _ _ ↦ False := by
  have hget : s.resources.get vm.cloudResourceName =
      .ok (s.resources.object vm.cloudResourceName) := if_pos hknown
  rw [runsOtherImage]
  split
  · rename_i hjobs
    rw [ends_resources, hget]
    exact ⟨rfl, by simp [hjobs]⟩
  · rename_i hjobs
    exact ⟨rfl, by simp [hjobs]⟩

/-- **One VM.** A visit changes nothing. -/
theorem ends_loadVisit (hknown : (s.vms v).cloudResourceName ∈ s.resources.names)
    (scratch : LoadScratch) :
    Ends ((loadVisit persistentNodes v scratch).exec cfg) s
      (fun scratch' s' ↦ s' = s ∧ scratch' = (loadOutcome persistentNodes s.cluster.workerNodes
        s.resources (s.vms v)).add v scratch) fun _ _ ↦ False := by
  rw [loadVisit, ends_vm, loadOutcome]
  split
  · exact ⟨rfl, rfl⟩
  · rw [ends_findWnFromVm]
    cases s.cluster.workerNodes.find? fun wn ↦ wn.name = (s.vms v).hostname with
    | none =>
      refine ⟨rfl, ?_⟩
      dsimp only
      split <;> rfl
    | some wn =>
      rw [Proc.exec, run_bind, ends_bind]
      refine (ends_runsOtherImage hknown wn).mono ?_ fun _ _ h ↦ h
      rintro other s' ⟨hsame, hother⟩
      refine ⟨hsame, ?_⟩
      have htest : (other || wn.unavailable) = true ↔ (wn.jobs = none ∧ (s.vms v).imageId ≠
          some (s.resources.object (s.vms v).cloudResourceName).imageUuid) ∨
          wn.unavailable = true := by rw [Bool.or_eq_true, hother]
      by_cases h : (other || wn.unavailable) = true
      · dsimp only
        rw [if_pos h, if_pos (htest.1 h)]
        rfl
      · dsimp only
        rw [if_neg h, if_neg (mt htest.2 h)]
        rfl

/-- **The scan.** It changes nothing and comes to the decisions that the replay predicts. -/
theorem ends_loadScan (hknown : ∀ v ∈ vs, (s.vms v).cloudResourceName ∈ s.resources.names) :
    Ends (Proc.exec (forEach (fun _ v scratch ↦ loadVisit persistentNodes v scratch) 0 vs
      ⟨[], []⟩) cfg) s
      (fun scratch s' ↦ s' = s ∧ scratch = loadScratch persistentNodes s.cluster.workerNodes
        s.resources s.vms vs) fun _ _ ↦ False := by
  refine ends_forEach (I := fun done scratch s' ↦ s' = s ∧ scratch =
    loadScratch persistentNodes s.cluster.workerNodes s.resources s.vms done) ?_ ⟨rfl, rfl⟩
  rintro done v rest scratch _ hdone ⟨rfl, rfl⟩
  refine (ends_loadVisit (hknown v (by simp [← hdone])) _).mono ?_ fun _ _ h ↦ h
  rintro scratch' _ ⟨rfl, rfl⟩
  exact ⟨rfl, (loadScratch_append_singleton done v).symm⟩

end Scan

/-! ### The nodes that Torque lists -/

/-- A node that the loop takes for an orphan: no existing VM has its name, and it is down or
offline. -/
def State.orphan (s : State) (wn : WorkerNode) : Bool :=
  (s.findVm wn.name).isNone && wn.unavailable

/-- The state after the orphans among some nodes were removed from Torque. -/
def State.withoutOrphans (s : State) (wns : List WorkerNode) : State :=
  { s with
    trace := s.trace ++ (wns.filter s.orphan).map fun wn ↦ Event.removeOrphan wn.name }

section Orphans

variable {cfg : Config} {s : State}

theorem scanned_withoutOrphans (s : State) (wns : List WorkerNode) :
    Scanned (.looking fun _ ↦ False) s (s.withoutOrphans wns) :=
  { Scanned.refl s with
    trace := .of_append rfl fun e he ↦ by
      obtain ⟨wn, -, rfl⟩ := List.mem_map.1 he
      trivial }

/-- **The loop.** The orphans are removed from Torque and remembered, and nothing else happens. -/
theorem ends_orphans (wns : List WorkerNode) :
    Ends (Proc.exec (forEach (fun _ wn acc ↦ orphanVisit wn acc) 0 wns []) cfg) s
      (fun toDelete s' ↦ toDelete = wns.filter s.orphan ∧ s' = s.withoutOrphans wns)
      fun _ _ ↦ False := by
  have hnone : s = s.withoutOrphans [] := by
    simp [State.withoutOrphans]
  refine ends_forEach (I := fun done toDelete s' ↦
    toDelete = done.filter s.orphan ∧ s' = s.withoutOrphans done) ?_ ⟨rfl, hnone⟩
  rintro done wn rest toDelete s₁ - ⟨rfl, rfl⟩
  have hfound : (s.withoutOrphans done).findVm wn.name = s.findVm wn.name := rfl
  have horphan : (s.findVm wn.name = none ∧ wn.unavailable = true) ↔ s.orphan wn = true := by
    rw [State.orphan, Bool.and_eq_true, Option.isNone_iff_eq_none]
  rw [orphanVisit, ends_findVm, hfound, List.filter_append, State.withoutOrphans,
    State.withoutOrphans, List.filter_append]
  by_cases h : s.orphan wn = true
  · rw [if_pos (horphan.2 h), ends_emit, List.filter_cons_of_pos h]
    refine ⟨rfl, ?_⟩
    simp [State.emit]
  · rw [if_neg (mt horphan.1 h), List.filter_cons_of_neg h]
    exact ⟨(List.append_nil _).symm, by simp⟩

end Orphans

/-! ### Moving VMs -/

/-- The VMs that are picked up again are moved to the starting list. -/
theorem ends_pickUp {cfg : Config} : ∀ {vs : List VmRef} {s : State} (i : ℕ),
    vs.Subperm s.existing →
    Ends (Proc.exec (forEach (fun _ v _ ↦ Proc.locked (.existingToStarting v)) i vs ()) cfg) s
      (fun _ s' ↦ s' =
        { s with existing := s.existing.diff vs, starting := s.starting ++ vs })
      fun _ _ ↦ False := by
  intro vs
  induction vs with
  | nil =>
    intro s i _
    simp [forEach]
  | cons v vs ih =>
    intro s i hsub
    have hmem : v ∈ s.existing := hsub.subset List.mem_cons_self
    have hrest : vs.Subperm (s.existing.erase v) := by simpa using hsub.erase v
    rw [forEach, ends_locked, ends_existingToStarting hmem]
    refine (ih (i + 1) hrest).mono ?_ fun _ _ h ↦ h
    rintro - s' rfl
    simp

/-- The frame of the loops that destroy existing VMs, after they have discarded `done`. -/
structure Discarded (destroys : Destroys) (done : List VmRef) (s s' : State) : Prop where
  subperm : done.Subperm s.existing
  existing : s'.existing = s.existing.diff done
  starting : s'.starting = s.starting
  deleting : s'.deleting = s.deleting ++ done
  waiting : s'.waiting = s.waiting
  resources : s'.resources = s.resources
  nextVm : s'.nextVm = s.nextVm
  provisioning : s'.provisioning = s.provisioning
  vm : ∀ w, SameVm (s.vms w) (s'.vms w)
  untouched : ∀ w, w ∉ done → s'.vms w = s.vms w
  trace : Emits (Event.Allowed destroys) s s'

namespace Discarded

variable {destroys : Destroys} {done done' : List VmRef} {s s₁ s' : State} {v : VmRef}

theorem refl (s : State) : Discarded destroys [] s s where
  subperm := List.nil_subperm
  existing := rfl
  starting := rfl
  deleting := by simp
  waiting := rfl
  resources := rfl
  nextVm := rfl
  provisioning := rfl
  vm := fun _ ↦ .refl _
  untouched := fun _ _ ↦ rfl
  trace := .refl s

theorem trans (h : Discarded destroys done s s₁) (h' : Discarded destroys done' s₁ s') :
    Discarded destroys (done ++ done') s s' where
  subperm := subperm_append h.subperm (h.existing ▸ h'.subperm)
  existing := by rw [h'.existing, h.existing, List.diff_append]
  starting := h'.starting.trans h.starting
  deleting := by rw [h'.deleting, h.deleting, List.append_assoc]
  waiting := h'.waiting.trans h.waiting
  resources := h'.resources.trans h.resources
  nextVm := h'.nextVm.trans h.nextVm
  provisioning := h'.provisioning.trans h.provisioning
  vm := fun w ↦ (h.vm w).trans (h'.vm w)
  untouched := fun w hw ↦ by
    rw [List.mem_append, not_or] at hw
    exact (h'.untouched w hw.2).trans (h.untouched w hw.1)
  trace := h.trace.trans h'.trace

theorem moves {lost : VmRef → Prop} (h : Discarded destroys done s s') : Moves lost s s' := by
  refine .of_perm ?_ h.nextVm.ge
  rw [State.tracked, State.tracked, h.existing, h.starting, h.deleting]
  have hmove : (s.existing.diff done ++ s.starting ++ (s.deleting ++ done)).Perm
      (done ++ s.existing.diff done ++ s.starting ++ s.deleting) := by
    rw [← List.append_assoc, List.append_assoc done, List.append_assoc done]
    exact List.perm_append_comm
  exact hmove.trans (((append_diff_perm h.subperm).append_right _).append_right _)

end Discarded

section Discard

variable {cfg : Config} {destroys : Destroys} {s : State} {v : VmRef}

/-- A call of `vm_destroy` queries nothing. -/
theorem ends_vmDestroy_cluster {record : Option WorkerNode} {answer : DestroyAnswer} {now : Time} :
    Ends ((vmDestroy v record answer now).exec cfg) s (fun _ s' ↦ s'.cluster = s.cluster)
      fun _ s' ↦ s'.cluster = s.cluster := by
  rw [vmDestroy.eq_def, ends_vm, openConnection]
  refine Program.ends_lift_bind (fun res _ ↦ ?_) fun _ _ ↦ rfl
  cases answer <;> exact rfl

/-- One VM. An unknown resource raises before it is moved. -/
theorem ends_discard {α : Type} {record : Option WorkerNode} {answer : DestroyAnswer} {now : Time}
    {p : Proc α} {Q : α → State → Prop} {E : PyError → State → Prop} (hmem : v ∈ s.existing)
    (hdestroy : destroys v record (s.vms v).forceOff answer)
    (hQ : ∀ s', Discarded destroys [v] s s' → s'.cluster = s.cluster →
      .vmDestroy v record (s.vms v).forceOff answer ∈ s.since s' → Ends (p.exec cfg) s' Q E)
    (hE : ∀ e, s.resources.get (s.vms v).cloudResourceName = .error e → E e s) :
    Ends (Proc.exec (do
      let _ ← vmDestroy v record answer now
      Proc.locked (.destroyExisting v)
      p) cfg) s Q E := by
  rw [Proc.exec, run_bind, ends_bind]
  refine ((ends_vmDestroy hdestroy now).and ends_vmDestroy_cluster).mono ?_ ?_
  · rintro - s₁ ⟨⟨h₁, hevent⟩, hcluster⟩
    have hmem₁ : v ∈ s₁.existing := by rwa [h₁.existing]
    refine ends_locked.2 ((ends_destroyExisting hmem₁).2 (hQ _ ?_ hcluster hevent))
    exact
      { subperm := List.singleton_subperm_iff.2 hmem
        existing := by rw [h₁.existing]; simp
        starting := h₁.starting
        deleting := by rw [h₁.deleting]
        waiting := h₁.waiting
        resources := h₁.resources
        nextVm := h₁.nextVm
        provisioning := h₁.provisioning
        vm := h₁.vm
        untouched := fun w hw ↦ h₁.untouched w fun h ↦ hw (List.mem_singleton.2 h)
        trace := ⟨h₁.trace.trace, h₁.trace.events⟩ }
  · rintro e _ ⟨⟨he, rfl⟩, -⟩
    exact hE e he

/-- The VMs that are not used are discarded one after another, with the records at hand. Nothing
raises if their resources are known. -/
theorem ends_discardAll {calls : ℕ → DestroyCall} {toDelete : List (VmRef × Option WorkerNode)}
    (hsub : (toDelete.map Prod.fst).Subperm s.existing) (hnodup : (toDelete.map Prod.fst).Nodup)
    (hdestroy : ∀ (i : ℕ) v record, toDelete[i]? = some (v, record) →
      destroys v record (s.vms v).forceOff (calls i).answer)
    (hknown : ∀ v ∈ toDelete.map Prod.fst, (s.vms v).cloudResourceName ∈ s.resources.names) :
    Ends (Proc.exec (forEach (fun i vr _ ↦ do
      let _ ← vmDestroy vr.1 vr.2 (calls i).answer (calls i).now
      Proc.locked (.destroyExisting vr.1)) 0 toDelete ()) cfg) s
      (fun _ s' ↦ Discarded destroys (toDelete.map Prod.fst) s s' ∧
        ∀ (i : ℕ) v record, toDelete[i]? = some (v, record) →
          .vmDestroy v record (s.vms v).forceOff (calls i).answer ∈ s.since s')
      fun _ _ ↦ False := by
  refine ends_forEach (I := fun done _ s' ↦ Discarded destroys (done.map Prod.fst) s s' ∧
    ∀ (i : ℕ) v record, done[i]? = some (v, record) →
      .vmDestroy v record (s.vms v).forceOff (calls i).answer ∈ s.since s') ?_ ⟨.refl s, by simp⟩
  rintro done ⟨v, record⟩ rest - s₁ hdone ⟨h₁, hevents⟩
  have hget : toDelete[done.length]? = some (v, record) := by simp [← hdone]
  have hsplit := map_fst_split hdone
  have hfresh : v ∉ done.map Prod.fst := notMem_of_nodup hsplit hnodup
  have hmem : v ∈ s₁.existing := by
    rw [h₁.existing]
    exact mem_diff_of_subperm (hsplit ▸ hsub)
  have hvm : s₁.vms v = s.vms v := h₁.untouched v hfresh
  refine ends_discard (p := pure ()) hmem (hvm ▸ hdestroy done.length v record hget)
    (fun s₂ h₂ _ hevent ↦ ?_) fun e he ↦ ?_
  rotate_left
  · have hmem : v ∈ toDelete.map Prod.fst := List.mem_map.2 ⟨_, List.mem_of_getElem? hget, rfl⟩
    rw [hvm, h₁.resources, CloudResources.get, if_pos (hknown v hmem)] at he
    cases he
  refine ⟨by simpa using h₁.trans h₂, fun i w record' hget' ↦ ?_⟩
  rw [h₁.trace.since_trans h₂.trace]
  rcases getElem?_concat_eq_some hget' with hold | ⟨rfl, hlast⟩
  · exact List.mem_append_left _ (hevents i w record' hold)
  · obtain ⟨rfl, rfl⟩ := Prod.mk.inj hlast
    exact List.mem_append_right _ (hvm ▸ hevent)

/-- **The trim of a resource.** Only idle VMs are destroyed. -/
theorem ends_trimOverused {calls : ℕ → DestroyCall} {limit : ℤ} : ∀ {vs : List VmRef} {s : State}
    (i : ℕ) (num : ℤ), vs.Subperm s.existing →
    Ends ((trimOverused calls limit i num vs).exec cfg) s
      (fun _ s' ↦ ∃ done, Discarded idleDestroy done s s')
      fun e s' ↦ NotFromRemove e ∧ ∃ done, Discarded idleDestroy done s s' := by
  intro vs
  induction vs with
  | nil =>
    intro s i num _
    rw [trimOverused]
    -- an empty list is popped: `IndexError`
    split
    · exact ⟨nofun, [], .refl s⟩
    · exact ⟨[], .refl s⟩
  | cons v vs ih =>
    intro s i num hsub
    rw [trimOverused]
    split
    · rw [ends_findWnFromVm, ends_vm]
      split
      · exact ih (i + 1) num ((List.sublist_cons_self v vs).subperm.trans hsub)
      · rename_i hkeep
        have hidle : idleDestroy v (s.cluster.workerNodes.find? fun wn ↦
            wn.name = (s.vms v).hostname) (s.vms v).forceOff (calls i).answer := by
          simpa [idleDestroy] using (not_or.1 hkeep).2
        refine ends_discard (hsub.subset List.mem_cons_self) hidle (fun s₁ h₁ _ _ ↦ ?_)
          fun e he ↦ ⟨notFromRemove_of_get he, [], .refl s⟩
        have hrest : vs.Subperm s₁.existing := by
          rw [h₁.existing]
          simpa using hsub.erase v
        refine (ih (i + 1) (num - 1) hrest).mono ?_ ?_
        · rintro _ s₂ ⟨done, h₂⟩
          exact ⟨_, h₁.trans h₂⟩
        · rintro e s₂ ⟨he, done, h₂⟩
          exact ⟨he, _, h₁.trans h₂⟩
    · exact ⟨[], .refl s⟩

end Discard

/-! ### One resource -/

/-- The frame of one iteration of the loop over the resources. Its outstanding static VMs have been
asked for. -/
structure LoadedResource (resource : String) (s s' : State) : Prop where
  moves : Moves (fun _ ↦ False) s s'
  starting : s'.starting = s.starting
  provisioning : s'.provisioning = s.provisioning
  static : SameStatic s.resources s'.resources
  waiting : s.waiting <+: s'.waiting
  served : s.outstanding resource ≤ staticCount resource s'.waiting
  trace : Emits (Event.Allowed idleDestroy) s s'

section Resource

variable {cfg : Config} {s : State} {resource : String}

theorem ends_needMoreStatic : Ends ((needMoreStatic resource).exec cfg) s
    (fun needed s' ↦ s' = s ∧ ∃ reqs,
      s.resources.staticVmsToStart resource "need_more" = .ok reqs ∧ needed = reqs.needMore)
    fun e s' ↦ NotFromRemove e ∧ s' = s := by
  rw [needMoreStatic, ends_resources]
  refine Program.ends_lift_bind (fun reqs hreqs ↦ ?_) fun e he ↦
    ⟨notFromRemove_of_staticVmsToStart he, rfl⟩
  exact ⟨rfl, reqs, hreqs, rfl⟩

/-- `worker_node_flavor` is not an attribute of the resources, so no VM is ever marked. -/
theorem ends_markStatic (v : VmRef) : Ends ((markStatic cfg resource v).exec cfg) s
    (fun _ _ ↦ False) fun e s' ↦ NotFromRemove e ∧ s' = s := by
  rw [markStatic, ends_vm]
  refine Program.ends_lift_bind (fun name _ ↦ ?_) fun e he ↦ ⟨?_, rfl⟩
  · rw [ends_resources]
    refine Program.ends_lift_bind (fun res _ ↦ ?_) fun e he ↦ ⟨notFromRemove_of_get he, rfl⟩
    exact ⟨nofun, rfl⟩
  · exact notFromRemove_of_flavorName he

/-- The outstanding static VMs of a resource are asked for. -/
theorem ends_requestStatic : Ends ((requestStatic cfg resource).exec cfg) s
    (fun _ s' ↦ ∃ requests, s' = s.waitFor requests ∧
      (∀ r ∈ requests, r.1.static = true ∧ r.1.resourceName = resource) ∧
      s.outstanding resource ≤ (requests.map Prod.snd).sum)
    fun e s' ↦ NotFromRemove e ∧ s' = s := by
  rw [requestStatic, ends_resources]
  refine Program.ends_lift_bind (fun res _ ↦ ?_) fun e he ↦ ⟨notFromRemove_of_get he, rfl⟩
  refine Program.ends_lift_bind (fun flavor _ ↦ ?_) fun e he ↦
    ⟨notFromRemove_of_firstFlavor he, rfl⟩
  refine Program.ends_lift_bind (fun reqs hreqs ↦ ?_) fun e he ↦
    ⟨notFromRemove_of_staticVmsToStart he, rfl⟩
  refine Program.ends_lift_bind (fun requests hrequests ↦ ?_) fun e he ↦
    ⟨notFromRemove_of_getProvisionList he, rfl⟩
  obtain ⟨hstatic, hsum⟩ := getProvisionList_serves hrequests
  refine ⟨requests, rfl, hstatic, ?_⟩
  rwa [outstanding_of_staticVmsToStart hreqs]

/-- The VMs of a resource are looked up. -/
theorem ends_ofResource (vs : List VmRef) : Ends (Proc.exec (forEach (fun _ v acc ↦ do
    let vm ← Proc.vm v
    return if vm.cloudResourceName = resource then acc ++ [v] else acc) 0 vs []) cfg) s
    (fun ofResource s' ↦ s' = s ∧
      ofResource = vs.filter fun v ↦ (s.vms v).cloudResourceName = resource)
    fun _ _ ↦ False := by
  refine ends_forEach (I := fun done (acc : List VmRef) s' ↦ s' = s ∧
    acc = done.filter fun v ↦ (s.vms v).cloudResourceName = resource) ?_ ⟨rfl, rfl⟩
  rintro done v rest acc _ - ⟨rfl, rfl⟩
  rw [ends_vm, List.filter_append]
  refine ⟨rfl, ?_⟩
  split
  · rename_i hmem
    rw [List.filter_cons_of_pos (by simpa using hmem), List.filter_nil]
  · rename_i hother
    rw [List.filter_cons_of_neg (by simpa using hother), List.filter_nil, List.append_nil]

/-- No VM is marked, so marking VMs succeeds only where there are none. -/
theorem ends_markAll (needed : Bool) (vs : List VmRef) :
    Ends (Proc.exec (Program.when needed (forEach (fun _ v _ ↦ markStatic cfg resource v) 0 vs
      ())) cfg) s (fun _ s' ↦ s' = s ∧ (needed = true → vs = []))
      fun e s' ↦ NotFromRemove e ∧ s' = s ∧ needed = true ∧ vs ≠ [] := by
  rw [Program.when]
  split
  · rename_i hneeded
    cases vs with
    | nil => exact ⟨rfl, fun _ ↦ rfl⟩
    | cons v vs =>
      rw [forEach, Proc.exec, run_bind, ends_bind]
      exact (ends_markStatic v).mono (fun _ _ h ↦ h.elim)
        fun _ _ h ↦ ⟨h.1, h.2, hneeded, List.cons_ne_nil v vs⟩
  · rename_i hnot
    exact ⟨rfl, fun hneeded ↦ absurd hneeded hnot⟩

/-- The dynamic VMs are counted. -/
theorem ends_countDynamic (vs : List VmRef) : Ends (Proc.exec (forEach (fun _ v n ↦ do
    let vm ← Proc.vm v
    return if vm.dynamic then n + 1 else n) 0 vs (0 : ℤ)) cfg) s
    (fun n s' ↦ n = vs.countP (fun v ↦ (s.vms v).dynamic) ∧ s' = s) fun _ _ ↦ False := by
  refine ends_forEach (I := fun done (n : ℤ) s' ↦
    n = done.countP (fun v ↦ (s.vms v).dynamic) ∧ s' = s) ?_ ⟨rfl, rfl⟩
  rintro done v rest n _ - ⟨rfl, rfl⟩
  rw [ends_vm, List.countP_append, List.countP_singleton]
  split
  · exact ⟨by push_cast; rfl, rfl⟩
  · exact ⟨by simp, rfl⟩

/-- The state after a resource was told its free nodes. -/
def State.setAvailable (s : State) (resource : String) (n : ℤ) : State :=
  { s with
    resources := s.resources.modify resource fun res ↦ { res with availableNumberOfNodes := n } }

theorem sameStatic_setAvailable (s : State) (resource : String) (n : ℤ) :
    SameStatic s.resources (s.setAvailable resource n).resources where
  names := rfl
  static := fun name ↦ by
    by_cases h : name = resource
    · subst h
      simp [State.setAvailable]
    · rw [State.setAvailable, s.resources.object_modify_of_ne h]

theorem waitFor_nil (s : State) : s.waitFor [] = s := by
  simp [State.waitFor]

/-- The end of an iteration: the VMs `done` are discarded, and requests are queued. -/
theorem loadedResource_of_discarded {done : List VmRef} {s₁ : State}
    (h : Discarded idleDestroy done s s₁) (n : ℤ) {requests : List (ProvisionVM × ℕ)}
    (hrequests : ∀ r ∈ requests, r.1.static = true ∧ r.1.resourceName = resource)
    (hserved : s.outstanding resource ≤ (requests.map Prod.snd).sum) :
    LoadedResource resource s ((s₁.setAvailable resource n).waitFor requests) where
  moves := h.moves.trans (.of_eq rfl rfl rfl le_rfl)
  starting := h.starting
  provisioning := h.provisioning
  static := h.resources ▸ sameStatic_setAvailable s₁ resource n
  waiting := h.waiting ▸ List.prefix_append _ _
  served := by
    rw [staticCount_waitFor _ hrequests]
    omega
  trace := ⟨h.trace.trace, h.trace.events⟩

/-- The static VMs that a resource still needs are asked for. -/
theorem ends_requestMissing : Ends (Proc.exec (do
      let needed ← needMoreStatic resource
      Program.when needed (requestStatic cfg resource)) cfg) s
    (fun _ s' ↦ ∃ requests, s' = s.waitFor requests ∧
      (∀ r ∈ requests, r.1.static = true ∧ r.1.resourceName = resource) ∧
      s.outstanding resource ≤ (requests.map Prod.snd).sum)
    fun e s' ↦ NotFromRemove e ∧ s' = s := by
  rw [Proc.exec, run_bind, ends_bind]
  refine ends_needMoreStatic.mono ?_ fun _ _ h ↦ h
  rintro needed _ ⟨rfl, reqs, hreqs, rfl⟩
  rw [Program.when]
  split
  · exact ends_requestStatic
  · rename_i hnone
    have hle := outstanding_of_not_needMore (Bool.not_eq_true _ ▸ hnone)
    rw [← outstanding_of_staticVmsToStart hreqs] at hle
    exact ⟨[], (waitFor_nil _).symm, fun _ hr ↦ absurd hr List.not_mem_nil, by simpa using hle⟩

/-- **One resource.** Whatever happens, only idle VMs are destroyed. -/
theorem ends_loadResource (answers : StartUpAnswers) :
    Ends ((loadResource cfg answers resource).exec cfg) s (fun _ ↦ LoadedResource resource s)
      fun e s' ↦ NotFromRemove e ∧ Emits (Event.Allowed idleDestroy) s s' := by
  have hsame : ∀ e s', NotFromRemove e ∧ s' = s →
      NotFromRemove e ∧ Emits (Event.Allowed idleDestroy) s s' := by
    rintro e _ ⟨he, rfl⟩
    exact ⟨he, .refl _⟩
  rw [loadResource, ends_list, Proc.exec, run_bind, ends_bind]
  refine (ends_ofResource _).mono ?_ fun _ _ h ↦ h.elim
  rintro ofResource _ ⟨rfl, hofResource⟩
  have hsub : ofResource.Sublist _ := hofResource ▸ List.filter_sublist
  rw [run_bind, ends_bind]
  refine ends_needMoreStatic.mono ?_ hsame
  rintro needed _ ⟨rfl, -⟩
  rw [run_bind, ends_bind]
  refine (ends_markAll needed ofResource).mono ?_ fun e s' h ↦ hsame e s' ⟨h.1, h.2.1⟩
  rintro - _ ⟨rfl, -⟩
  rw [run_bind, ends_bind]
  refine (ends_countDynamic ofResource).mono ?_ fun _ _ h ↦ h.elim
  rintro numOfInstances _ ⟨-, rfl⟩
  rename_i s
  show Ends (Proc.exec _ cfg) s _ _
  rw [ends_resources]
  refine Program.ends_lift_bind (fun res _ ↦ ?_) fun e he ↦
    hsame e s ⟨notFromRemove_of_get he, rfl⟩
  have htrim : ofResource.reverse.Subperm s.existing :=
    (List.reverse_perm ofResource).subperm.trans hsub.subperm
  rw [run_bind, ends_bind]
  refine (ends_trimOverused 0 numOfInstances htrim).mono ?_ ?_
  · rintro left s₁ ⟨done, h₁⟩
    show Ends (Proc.exec (needMoreStatic resource >>= _) cfg)
      (s₁.setAvailable resource (res.numberOfDynamicWorkerNodes - left)) _ _
    have hout : (s₁.setAvailable resource
        (res.numberOfDynamicWorkerNodes - left)).outstanding resource = s.outstanding resource := by
      rw [(sameStatic_setAvailable s₁ resource _).outstanding, State.outstanding, h₁.resources]
      rfl
    refine ends_requestMissing.mono ?_ ?_
    · rintro - _ ⟨requests, rfl, hrequests, hserved⟩
      exact loadedResource_of_discarded h₁ _ hrequests (hout ▸ hserved)
    · rintro e _ ⟨he, rfl⟩
      exact ⟨he, h₁.trace.trace, h₁.trace.events⟩
  · rintro e s₁ ⟨he, done, h₁⟩
    exact ⟨he, h₁.trace⟩

/-- The frame of the loop over the resources. -/
structure LoadedResources (names : List String) (s s' : State) : Prop where
  moves : Moves (fun _ ↦ False) s s'
  starting : s'.starting = s.starting
  provisioning : s'.provisioning = s.provisioning
  static : SameStatic s.resources s'.resources
  served : ∀ name ∈ names, s.outstanding name ≤ staticCount name s'.waiting
  trace : Emits (Event.Allowed idleDestroy) s s'

theorem ends_loadResources (answers : StartUpAnswers) (names : List String) :
    Ends (Proc.exec (forEach (fun _ name _ ↦ loadResource cfg answers name) 0 names ()) cfg) s
      (fun _ ↦ LoadedResources names s)
      fun e s' ↦ NotFromRemove e ∧ Emits (Event.Allowed idleDestroy) s s' := by
  refine ends_forEach (I := fun done _ ↦ LoadedResources done s) ?_
    ⟨.of_eq rfl rfl rfl le_rfl, rfl, rfl, ⟨rfl, fun _ ↦ rfl⟩, nofun, .refl s⟩
  rintro done name rest - s₁ - h₁
  refine (ends_loadResource answers).mono (fun _ s₂ h₂ ↦ ?_) fun e s₂ h₂ ↦ ?_
  · exact
      { moves := h₁.moves.trans h₂.moves
        starting := h₂.starting.trans h₁.starting
        provisioning := h₂.provisioning.trans h₁.provisioning
        static := ⟨h₂.static.names.trans h₁.static.names, fun other ↦
          (h₂.static.static other).trans (h₁.static.static other)⟩
        served := fun other hother ↦ by
          rcases List.mem_append.1 hother with hother | hother
          · have hgrow : staticCount other s₁.waiting ≤ staticCount other s₂.waiting :=
              h₂.waiting.sublist.countP_le
            have hold := h₁.served other hother
            omega
          · obtain rfl := List.mem_singleton.1 hother
            exact h₁.static.outstanding other ▸ h₂.served
        trace := h₁.trace.trans h₂.trace }
  · exact ⟨h₂.1, h₁.trace.trans h₂.2⟩

end Resource

/-! ### The whole start-up -/

/-- What holds once everything is loaded. -/
structure StartedUp (crs : CloudResources) (s : State) : Prop where
  wellFormed : WellFormed s
  provisioning : s.starting ≠ [] → s.provisioning = true
  names : s.resources.names = crs.names
  covered : Covered s

/-- The state in which the VMs of the cloud and the nodes of Torque are listed. -/
def State.listed (crs : CloudResources) (answers : StartUpAnswers) : State :=
  let vms := loadAllExistingWorkerNodes crs.names answers.vmList
  { (State.initial crs).allocate vms with
    existing := List.range' 0 vms.length
    cluster := ⟨[], 0, [], answers.wnQuery.2.length, answers.wnQuery.2, answers.wnQuery.1, true⟩ }

/-- What start-up decides about the VMs that the cloud lists. -/
def StartUpAnswers.scratch (crs : CloudResources) (answers : StartUpAnswers) : LoadScratch :=
  loadScratch answers.persistentNodes answers.wnQuery.2 crs (State.listed crs answers).vms
    (State.listed crs answers).existing

section Listed

variable {cfg : Config} {crs : CloudResources} {answers : StartUpAnswers} {v : VmRef}

theorem mem_listed : v ∈ (State.listed crs answers).existing ↔
    v < (loadAllExistingWorkerNodes crs.names answers.vmList).length := by
  simp [State.listed]

/-- A listed VM is one that the cloud reports for a configured resource. -/
theorem listed_vm (hv : v ∈ (State.listed crs answers).existing) :
    ((State.listed crs answers).vms v).cloudResourceName ∈ crs.names ∧
      ((State.listed crs answers).vms v).forceOff = false := by
  have hlt := mem_listed.1 hv
  have hmem := List.getElem_mem hlt
  have hvm : (State.listed crs answers).vms v =
      (loadAllExistingWorkerNodes crs.names answers.vmList)[v] := by
    simp [State.listed, State.allocate, State.initial, hlt]
  rw [hvm]
  generalize (loadAllExistingWorkerNodes crs.names answers.vmList)[v] = vm at hmem
  simp only [loadAllExistingWorkerNodes, List.mem_flatMap, List.mem_map] at hmem
  obtain ⟨name, hname, server, -, rfl⟩ := hmem
  exact ⟨hname, rfl⟩

theorem wellFormed_listed : WellFormed (State.listed crs answers) where
  partition := partition_iff.2 (by
    simp [State.tracked, State.listed, State.allocate, State.initial, List.nodup_range'])
  fresh := fun v hv ↦ by
    simpa [State.tracked, State.listed, State.allocate, State.initial] using hv

/-- The state in which the orphans have been removed from Torque and are forgotten. -/
def State.cleaned (crs : CloudResources) (answers : StartUpAnswers) : State :=
  { (State.listed crs answers).withoutOrphans answers.wnQuery.2 with
    cluster := { (State.listed crs answers).cluster with
      workerNodes := answers.wnQuery.2.filter fun wn ↦ !(State.listed crs answers).orphan wn } }

/-- What is done with the decisions about the VMs. -/
def loadDecided (cfg : Config) (answers : StartUpAnswers) (crs : CloudResources) : Proc Unit := do
  forEach (fun _ v _ ↦ Proc.locked (.existingToStarting v)) 0 (answers.scratch crs).toStarting ()
  forEach (fun i vr _ ↦ do
    let _ ← vmDestroy vr.1 vr.2 (answers.destroy i).answer (answers.destroy i).now
    Proc.locked (.destroyExisting vr.1)) 0 (answers.scratch crs).toDelete ()
  forEach (fun _ resource _ ↦ loadResource cfg answers resource) 0 crs.names ()
  let starting ← Proc.list .starting
  Program.when (starting.length > 0) (Proc.locked (.setProvisioning true))
  let waiting ← Proc.waiting
  Program.when (waiting.length > 0) (launchInstances cfg answers.launch)

theorem scanned_cleaned (crs : CloudResources) (answers : StartUpAnswers) :
    Scanned (.looking fun _ ↦ False) (State.listed crs answers) (State.cleaned crs answers) :=
  { scanned_withoutOrphans (State.listed crs answers) answers.wnQuery.2 with
    trace := ⟨(scanned_withoutOrphans _ _).trace.trace, (scanned_withoutOrphans _ _).trace.events⟩ }

/-- **The first part** decides about the VMs and removes the orphans. -/
theorem ends_load_of_decided {Q : Unit → State → Prop} {E : PyError → State → Prop}
    (h : Ends ((loadDecided cfg answers crs).exec cfg) (State.cleaned crs answers) Q E) :
    Ends ((loadExistingWorkerNodes cfg answers).exec cfg) (State.initial crs) Q E := by
  rw [loadExistingWorkerNodes, ends_resources]
  show Ends (Proc.exec (Proc.list .existing >>= _) cfg) (State.listed crs answers) _ _
  rw [ends_list, Proc.exec, run_bind, ends_bind]
  refine (ends_loadScan fun v hv ↦ (listed_vm hv).1).mono ?_ fun _ _ h ↦ h.elim
  rintro scratch _ ⟨rfl, rfl⟩
  show Ends (Proc.exec (Proc.cluster >>= _) cfg) (State.listed crs answers) _ _
  rw [ends_cluster, Proc.exec, run_bind, ends_bind]
  refine (ends_orphans _).mono ?_ fun _ _ h ↦ h.elim
  rintro toDelete _ ⟨rfl, rfl⟩
  have hfilter : (answers.wnQuery.2.filter (State.listed crs answers).orphan).foldl List.erase
      answers.wnQuery.2 = answers.wnQuery.2.filter fun wn ↦ !(State.listed crs answers).orphan wn :=
    (List.diff_eq_foldl _ _).symm.trans (diff_filter _ _)
  rw [State.cleaned, ← hfilter] at h
  exact h

end Listed

section Load

variable {cfg : Config} {crs : CloudResources} {answers : StartUpAnswers} {s s₀ : State}

/-- The VMs that are picked up again. -/
theorem moves_pickUp {lost : VmRef → Prop} {vs : List VmRef} (hsub : vs.Subperm s.existing) :
    Moves lost s { s with existing := s.existing.diff vs, starting := s.starting ++ vs } := by
  refine .of_perm ?_ le_rfl
  have hmove : (s.existing.diff vs ++ (s.starting ++ vs)).Perm
      (vs ++ s.existing.diff vs ++ s.starting) := by
    rw [← List.append_assoc, List.append_assoc vs]
    exact List.perm_append_comm
  exact (hmove.trans ((append_diff_perm hsub).append_right _)).append_right _

/-- The launch at the end of the start-up. -/
theorem StartedUp.launched {toRemove : List WaitingRequest} {s' : State} (h : StartedUp crs s)
    (hsub : toRemove.Subperm s.waiting) (hlaunched : Launched s.beginLaunch toRemove s') :
    StartedUp crs { s' with waiting := s.waiting.diff toRemove } where
  wellFormed := by
    have hbegin : Moves (fun _ ↦ False) s s.beginLaunch := .of_eq rfl rfl rfl le_rfl
    have hend : Moves (fun _ ↦ False) s'
        { s' with waiting := s.waiting.diff toRemove } :=
      .of_eq rfl rfl rfl le_rfl
    exact ((hbegin.trans hlaunched.moves).trans hend).wellFormed h.wellFormed
  provisioning := fun _ ↦ hlaunched.provisioning
  names := by
    rw [← h.names]
    exact congrArg CloudResources.names hlaunched.resources
  covered := h.covered.launched h.wellFormed hsub hlaunched

/-- What start-up has destroyed: only what is allowed, and everything that it has decided to
delete. -/
structure Destroyed (destroys : Destroys) (crs : CloudResources) (answers : StartUpAnswers)
    (s : State) : Prop where
  trace : Emits (Event.DestroysOnly destroys) (State.initial crs) s
  events : ∀ (i : ℕ) v record, (answers.scratch crs).toDelete[i]? = some (v, record) →
    .vmDestroy v record false (answers.destroy i).answer ∈ (State.initial crs).since s

theorem Destroyed.emits {destroys : Destroys} (h : Destroyed destroys crs answers s₀)
    (h' : Emits (Event.DestroysOnly destroys) s₀ s) : Destroyed destroys crs answers s where
  trace := h.trace.trans h'
  events := fun i v record hget ↦ by
    rw [h.trace.since_trans h']
    exact List.mem_append_left _ (h.events i v record hget)

/-- The launch destroys nothing. -/
theorem ends_launchLoaded {destroys : Destroys} (h : StartedUp crs s)
    (hdestroyed : Destroyed destroys crs answers s) (launch : ℕ → Option StartedServer) :
    Ends (Proc.exec (do
      let waiting ← Proc.waiting
      Program.when (waiting.length > 0) (launchInstances cfg launch)) cfg) s
      (fun _ s' ↦ StartedUp crs s' ∧ Destroyed destroys crs answers s')
      fun e s' ↦ NotFromRemove e ∧ Destroyed destroys crs answers s' := by
  have hlaunched : ∀ {toRemove : List WaitingRequest} {s' : State},
      Launched s.beginLaunch toRemove s' → Emits (Event.DestroysOnly destroys) s s' := fun h' ↦
    ⟨h'.trace.trace, fun e he ↦ by
      obtain ⟨flavor, zone, resource, rfl⟩ := h'.trace.events e he
      trivial⟩
  rw [ends_waiting, Program.when]
  split
  · refine ends_launchInstances ⟨h, hdestroyed⟩ ?_ ?_
    · intro toRemove s' _ _ hsub h'
      have hemits : Emits (Event.DestroysOnly destroys) s
          { s' with waiting := s.waiting.diff toRemove } :=
        ⟨(hlaunched h').trace, (hlaunched h').events⟩
      exact ⟨h.launched hsub h', hdestroyed.emits hemits⟩
    · exact fun e _ s' he _ _ h' ↦ ⟨he, hdestroyed.emits (hlaunched h')⟩
  · exact ⟨h, hdestroyed⟩

/-- What holds once the VMs that the cloud lists have been picked up or discarded. -/
structure Compared (crs : CloudResources) (s : State) : Prop where
  wellFormed : WellFormed s
  resources : s.resources = crs

/-- The rest of the start-up: the resources, the flag and the launch. -/
theorem Compared.ends {destroys : Destroys} (h : Compared crs s)
    (hdestroyed : Destroyed destroys crs answers s)
    (hidle : ∀ {v record forceOff answer}, idleDestroy v record forceOff answer →
      destroys v record forceOff answer) :
    Ends (Proc.exec (do
      forEach (fun _ resource _ ↦ loadResource cfg answers resource) 0 crs.names ()
      let starting ← Proc.list .starting
      Program.when (starting.length > 0) (Proc.locked (.setProvisioning true))
      let waiting ← Proc.waiting
      Program.when (waiting.length > 0) (launchInstances cfg answers.launch)) cfg) s
      (fun _ s' ↦ StartedUp crs s' ∧ Destroyed destroys crs answers s')
      fun e s' ↦ NotFromRemove e ∧ Destroyed destroys crs answers s' := by
  rw [Proc.exec, run_bind, ends_bind]
  refine (ends_loadResources answers crs.names).mono ?_ ?_
  · rintro ⟨⟩ s₁ h₁
    have hdestroyed₁ : Destroyed destroys crs answers s₁ :=
      hdestroyed.emits (h₁.trace.mono fun e he ↦ he.destroysOnly hidle)
    -- The flag is set where VMs were picked up.
    have hstarted : ∀ s₂, s₂ = { s₁ with provisioning := s₂.provisioning } →
        (s₂.starting ≠ [] → s₂.provisioning = true) → StartedUp crs s₂ := by
      intro s₂ hs₂ hflag
      have hnames : s₁.resources.names = crs.names := by rw [h₁.static.names, h.resources]
      have hkept : Moves (fun _ ↦ False) s₁ s₂ := by
        rw [hs₂]
        exact .of_eq rfl rfl rfl le_rfl
      exact
        { wellFormed := (h₁.moves.trans hkept).wellFormed h.wellFormed
          provisioning := hflag
          names := by rw [hs₂]; exact hnames
          covered := by
            rw [hs₂]
            intro resource hresource
            have hserved := h₁.served resource (hnames ▸ hresource)
            rw [← h₁.static.outstanding] at hserved
            exact hserved.trans (Int.ofNat_le.2 (Nat.le_add_right _ _)) }
    rw [ends_list, Program.when]
    split
    · rw [ends_locked]
      have hstart : StartedUp crs { s₁ with provisioning := true } := hstarted _ rfl fun _ ↦ rfl
      exact ends_launchLoaded hstart (hdestroyed₁.emits (.of_eq rfl)) _
    · rename_i hnone
      exact ends_launchLoaded (hstarted _ rfl fun hstarting ↦
        absurd (List.length_pos_iff.2 hstarting) hnone) hdestroyed₁ _
  · rintro e s₁ ⟨he, h₁⟩
    exact ⟨he, hdestroyed.emits (h₁.mono fun e he ↦ he.destroysOnly hidle)⟩

/-- **`_load_existing_worker_nodes`.** Besides idle VMs it destroys those that it has decided to
delete, with the records at hand. -/
theorem ends_loadExistingWorkerNodes {destroys : Destroys}
    (hidle : ∀ {v record forceOff answer}, idleDestroy v record forceOff answer →
      destroys v record forceOff answer)
    (hdestroy : ∀ (i : ℕ) v record, (answers.scratch crs).toDelete[i]? = some (v, record) →
      destroys v record false (answers.destroy i).answer) :
    Ends ((loadExistingWorkerNodes cfg answers).exec cfg) (State.initial crs)
      (fun _ s' ↦ StartedUp crs s' ∧ Destroyed destroys crs answers s')
      fun e s' ↦ NotFromRemove e ∧ Destroyed destroys crs answers s' := by
  have hsub : ((answers.scratch crs).toStarting ++
      (answers.scratch crs).toDelete.map Prod.fst).Subperm (State.listed crs answers).existing :=
    loadScratch_subperm
  have hexisting : (State.listed crs answers).existing.Nodup := wellFormed_listed.partition.existing
  have hpick : (answers.scratch crs).toStarting.Subperm (State.listed crs answers).existing :=
    (List.sublist_append_left _ _).subperm.trans hsub
  have hnodup : ((answers.scratch crs).toDelete.map Prod.fst).Nodup :=
    (nodup_of_subperm hsub hexisting).2.1
  have hlisted : Emits (Event.DestroysOnly destroys) (State.initial crs)
      (State.listed crs answers) := .of_eq rfl
  refine ends_load_of_decided ?_
  -- No list of VMs was concerned so far.
  have h₂ := scanned_cleaned crs answers
  generalize State.cleaned crs answers = s₂ at h₂ ⊢
  rw [loadDecided]
  rw [Proc.exec, run_bind, ends_bind]
  refine (ends_pickUp 0 (h₂.existing ▸ hpick)).mono ?_ fun _ _ h ↦ h.elim
  rintro ⟨⟩ s₃ hs₃
  have hvm₃ : ∀ v, s₃.vms v = (State.listed crs answers).vms v := fun v ↦ by
    rw [hs₃]
    exact h₂.untouched v id
  have hexisting₃ : s₃.existing =
      (State.listed crs answers).existing.diff (answers.scratch crs).toStarting := by
    rw [hs₃, h₂.existing]
  have hmoves₃ : Moves (fun _ ↦ False) (State.listed crs answers) s₃ :=
    (Moves.of_scanned h₂).trans (hs₃ ▸ moves_pickUp (h₂.existing ▸ hpick))
  have hemits₃ : Emits (Event.DestroysOnly destroys) (State.initial crs) s₃ := by
    refine hlisted.trans ((h₂.trace.mono fun e he ↦ he.destroysOnly False.elim).trans (.of_eq ?_))
    rw [hs₃]
  rw [run_bind, ends_bind]
  have hforceOff : ∀ (i : ℕ) v record, (answers.scratch crs).toDelete[i]? = some (v, record) →
      (s₃.vms v).forceOff = false := fun i v record hget ↦ by
    have hmem : v ∈ (answers.scratch crs).toDelete.map Prod.fst :=
      List.mem_map.2 ⟨_, List.mem_of_getElem? hget, rfl⟩
    rw [hvm₃]
    exact (listed_vm (hsub.subset (List.mem_append_right _ hmem))).2
  have hdestroy₃ : ∀ (i : ℕ) v record, (answers.scratch crs).toDelete[i]? = some (v, record) →
      destroys v record (s₃.vms v).forceOff (answers.destroy i).answer := fun i v record hget ↦ by
    rw [hforceOff i v record hget]
    exact hdestroy i v record hget
  have hknown₃ : ∀ v ∈ (answers.scratch crs).toDelete.map Prod.fst,
      (s₃.vms v).cloudResourceName ∈ s₃.resources.names := fun v hv ↦ by
    have hresources : s₃.resources = crs := by
      rw [hs₃]
      exact h₂.resources
    rw [hvm₃, hresources]
    exact (listed_vm (hsub.subset (List.mem_append_right _ hv))).1
  refine (ends_discardAll (hexisting₃ ▸ subperm_diff hsub) hnodup hdestroy₃ hknown₃).mono ?_
    fun _ _ h ↦ h.elim
  rintro ⟨⟩ s₄ ⟨h₄, hevents⟩
  have hemits : Emits (Event.DestroysOnly destroys) s₃ s₄ :=
    h₄.trace.mono fun e he ↦ he.destroysOnly id
  have hcompared : Compared crs s₄ :=
    { wellFormed := (hmoves₃.trans h₄.moves).wellFormed wellFormed_listed
      resources := by rw [h₄.resources, hs₃]; exact h₂.resources }
  refine hcompared.ends ⟨hemits₃.trans hemits, fun i v record hget ↦ ?_⟩ hidle
  have hsince : (State.initial crs).since s₄ = (State.initial crs).since s₃ ++ s₃.since s₄ :=
    hemits₃.since_trans hemits
  have hevent := hevents i v record hget
  rw [hforceOff i v record hget] at hevent
  exact hsince ▸ List.mem_append_right _ hevent

end Load

end DynamicTorque
