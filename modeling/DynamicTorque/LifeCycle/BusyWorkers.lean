import DynamicTorque.LifeCycle.Tracking

/-!
# Busy workers are not destroyed

Which calls of `vm_destroy` the automatic operations make on a worker whose record has jobs.
Checking the existing workers and the clean-up make none. Start-up makes one for every worker that
Torque lists as offline or down, busy or not, and so does provisioning for a starting VM that has
been in neither of the two states of a working node for too long; the theorem gives the exact
condition for both.
-/

open Python Atomic Program

namespace DynamicTorque

/-- A worker with jobs is destroyed only if that was forced, or if the cloud does not know it any
more. -/
def sparesBusy : Destroys := fun _ record forceOff answer ↦
  (record.bind WorkerNode.jobs).isSome → forceOff = true ∨ answer = .notFound

/-- No call of `vm_destroy` of an execution is one on a busy worker. -/
def SparesBusy (x : EStateM PyError State Unit) (s : State) : Prop :=
  ∀ e ∈ s.since (stateAfter x s), e.DestroysOnly sparesBusy

theorem sparesBusy_of_idleDestroy {v : VmRef} {record : Option WorkerNode} {forceOff : Bool}
    {answer : DestroyAnswer} (h : idleDestroy v record forceOff answer) :
    sparesBusy v record forceOff answer := by
  intro hjobs
  rw [show record.bind WorkerNode.jobs = none from h] at hjobs
  cases hjobs

/-! ### The operations that destroy idle workers only -/

section Idle

variable {cfg : Config} {s s' : State}

/-- An execution that emits only what `P` allows, whether it returns or raises. -/
theorem sparesBusy_of_ends {x : EStateM PyError State Unit}
    (h : Ends x s (fun _ ↦ Emits (Event.DestroysOnly sparesBusy) s)
      fun _ ↦ Emits (Event.DestroysOnly sparesBusy) s) : SparesBusy x s :=
  (stateAfter_of_ends h).events

theorem Emits.sparesBusy (h : Emits (Event.Allowed idleDestroy) s s') :
    Emits (Event.DestroysOnly DynamicTorque.sparesBusy) s s' :=
  h.mono fun _ he ↦ he.destroysOnly sparesBusy_of_idleDestroy

theorem Finished.sparesBusy (h : Finished s s') :
    Emits (Event.DestroysOnly DynamicTorque.sparesBusy) s s' :=
  h.trace.mono fun _ he ↦ he.mono False.elim

theorem Checked.emits {answers : WorkerAnswers} {wn : WorkerNode}
    (h : Checked cfg answers wn s s') : Emits (Event.Allowed idleDestroy) s s' := by
  cases h with
  | looked h => exact h.trace
  | deleted hfound h => exact ⟨h.trace.trace, h.trace.events⟩
  | shutDown hidle h => exact h.trace
  | failed h => exact h.trace

/-- **`check_existing_worker_nodes`** spares every busy worker. -/
theorem sparesBusy_checkExistingWorkerNodes (answers : ℕ → WorkerAnswers) :
    SparesBusy ((checkExistingWorkerNodes cfg answers).exec cfg) s := by
  refine sparesBusy_of_ends ?_
  rw [checkExistingWorkerNodes, ends_cluster, Proc.exec, run_bind, ends_bind]
  refine (ends_forEach (I := fun _ _ ↦ Emits (Event.Allowed idleDestroy) s) ?_ (.refl s)).mono
    ?_ fun _ _ h ↦ h
  · rintro done wn rest - s₁ - h₁
    exact ends_checkWorker.mono (fun _ _ h ↦ h₁.trans h.emits)
      fun _ _ h ↦ (h₁.trans h.2.emits).sparesBusy
  · intro _ s₁ h₁
    have hcores : Emits (Event.Allowed idleDestroy) s₁ s₁.updateAvailableCores := .of_eq rfl
    exact ends_block.2 (h₁.trans hcores).sparesBusy

/-- **`check_cleanup`** spares every busy worker. -/
theorem sparesBusy_checkCleanup (answers : CleanupCalls) :
    SparesBusy ((checkCleanup cfg answers).exec cfg) s := by
  have hspares : ∀ s' : State, Emits (Event.DestroysOnly idleDestroy) s s' →
      Emits (Event.DestroysOnly sparesBusy) s s' := fun s' h ↦
    h.mono fun _ he ↦ he.mono sparesBusy_of_idleDestroy
  exact sparesBusy_of_ends
    (ends_checkCleanup_idle.mono (fun _ s' h ↦ hspares s' h) fun _ s' h ↦ hspares s' h)

end Idle

/-! ### Start-up -/

section StartUp

variable {cfg : Config} {crs : CloudResources} {answers : StartUpAnswers}

/-- The cloud lists the VM with an address, and Torque lists its node with jobs, but offline or
down. -/
structure HeldAtStart (crs : CloudResources) (answers : StartUpAnswers) (v : VmRef)
    (wn : WorkerNode) : Prop where
  listed : v ∈ (State.listed crs answers).existing
  ip : ((State.listed crs answers).vms v).ip ≠ none
  node : (answers.wnQuery.2.find? fun wn ↦
    wn.name = ((State.listed crs answers).vms v).hostname) = some wn
  jobs : wn.jobs.isSome
  unavailable : wn.unavailable = true

/-- The cloud does not know any VM that is held busy at the start when its destruction is asked
for. -/
def SparedAtStart (crs : CloudResources) (answers : StartUpAnswers) : Prop :=
  ∀ v wn, HeldAtStart crs answers v wn →
    ∀ i : ℕ, (answers.scratch crs).toDelete[i]? = some (v, some wn) →
      (answers.destroy i).answer = .notFound

theorem mem_loadScratch_toDelete {persistentNodes : List String} {workerNodes : List WorkerNode}
    {vms : VmRef → VM} {vs : List VmRef} {v : VmRef} {record : Option WorkerNode} :
    (v, record) ∈ (loadScratch persistentNodes workerNodes crs vms vs).toDelete ↔
      v ∈ vs ∧ loadOutcome persistentNodes workerNodes crs (vms v) = .toDelete record := by
  simp only [loadScratch, List.mem_filterMap]
  constructor
  · rintro ⟨w, hw, h⟩
    cases houtcome : loadOutcome persistentNodes workerNodes crs (vms w) with
    | toDelete record' =>
      rw [houtcome] at h
      obtain ⟨rfl, rfl⟩ := Prod.mk.inj (Option.some.inj h)
      exact ⟨hw, houtcome⟩
    | kept =>
      rw [houtcome] at h
      cases h
    | toStarting =>
      rw [houtcome] at h
      cases h
  · rintro ⟨hv, houtcome⟩
    exact ⟨v, hv, by rw [houtcome]; rfl⟩

/-- A VM that is destroyed at the start with a busy record at hand is one that is held. -/
theorem heldAtStart_of_toDelete {v : VmRef} {wn : WorkerNode}
    (h : (v, some wn) ∈ (answers.scratch crs).toDelete) (hjobs : wn.jobs.isSome) :
    HeldAtStart crs answers v wn := by
  obtain ⟨hlisted, houtcome⟩ := mem_loadScratch_toDelete.1 h
  rw [loadOutcome] at houtcome
  split at houtcome
  · cases houtcome
  · rename_i hip
    split at houtcome
    · split at houtcome
      · cases houtcome
      · cases houtcome
    · rename_i wn' hnode
      split at houtcome
      · rename_i htest
        obtain rfl := Option.some.inj (LoadOutcome.toDelete.inj houtcome)
        have hunavailable : wn'.unavailable = true :=
          htest.resolve_left fun hother ↦ by simp [hother.1] at hjobs
        exact ⟨hlisted, hip, hnode, hjobs, hunavailable⟩
      · cases houtcome

/-- **`_load_existing_worker_nodes`** spares the busy workers under the condition, -/
theorem sparesBusy_of_sparedAtStart (h : SparedAtStart crs answers) :
    SparesBusy ((loadExistingWorkerNodes cfg answers).exec cfg) (State.initial crs) := by
  refine sparesBusy_of_ends ((ends_loadExistingWorkerNodes sparesBusy_of_idleDestroy ?_).mono
    (fun _ _ h ↦ h.2.trace) fun _ _ h ↦ h.2.trace)
  intro i v record hget hjobs
  cases record with
  | none => cases hjobs
  | some wn =>
    have hheld := heldAtStart_of_toDelete (List.mem_of_getElem? hget) hjobs
    exact .inr (h v wn hheld i hget)

/-- and only under the condition. -/
theorem sparedAtStart_of_sparesBusy
    (h : SparesBusy ((loadExistingWorkerNodes cfg answers).exec cfg) (State.initial crs)) :
    SparedAtStart crs answers := by
  intro v wn hheld i hget
  have hdestroyed : Destroyed Scope.any.destroys crs answers
      (stateAfter ((loadExistingWorkerNodes cfg answers).exec cfg) (State.initial crs)) :=
    stateAfter_of_ends ((ends_loadExistingWorkerNodes (fun _ ↦ trivial) fun _ _ _ _ ↦ trivial).mono
      (fun _ _ h ↦ h.2) fun _ _ h ↦ h.2)
  have hspared : sparesBusy v (some wn) false (answers.destroy i).answer :=
    h _ (hdestroyed.events i v (some wn) hget)
  exact (hspared hheld.jobs).resolve_left Bool.false_ne_true

end StartUp

/-! ### Provisioning -/

section Provisioning

variable {cfg : Config} {s : State} {answers : UpdateAnswers}

/-- The starting VM `v`, the `i`th in the list, is ready in the cloud and not forced off, and its
node has jobs, but has been in another state than those of a working node for too long. -/
structure DownAndBusy (cfg : Config) (s : State) (answers : UpdateAnswers) (i : ℕ) (v : VmRef)
    (wn : WorkerNode) : Prop where
  starting : s.starting[i]? = some v
  cloudReady : (s.vms v).cloudReady = true
  forceOff : (s.vms v).forceOff = false
  node : (answers.visit i).wnInTorque = .record wn
  jobs : wn.jobs.isSome
  state : wn.state ≠ "free" ∧ wn.state ≠ "job-exclusive"
  overdue : longerThan (s.vms v).stateTime cfg.maxInaccessibleTime = true

/-- The cloud does not know any such VM when its destruction is asked for. -/
def SparedByPoll (cfg : Config) (s : State) (answers : UpdateAnswers) : Prop :=
  ∀ j v wn, DownAndBusy cfg s answers j v wn →
    ∀ i : ℕ, (s.provisionScratch cfg answers).toDelete[i]? = some (v, some wn) →
      (answers.destroy i).answer = .notFound

/-- A VM that is given up with a busy record at hand is one of them, unless it is forced off. -/
theorem downAndBusy_of_toDelete {v : VmRef} {wn : WorkerNode}
    (h : (v, some wn) ∈ (s.provisionScratch cfg answers).toDelete) (hjobs : wn.jobs.isSome)
    (hforce : (s.vms v).forceOff = false) : ∃ j, DownAndBusy cfg s answers j v wn := by
  obtain ⟨j, hstarting, houtcome⟩ := mem_toDelete.1 h
  obtain ⟨hready, hnode, hfree, hexclusive, hoverdue⟩ := outcome_givenUp_some houtcome
  exact ⟨j, hstarting, hready, hforce, hnode, hjobs, ⟨hfree, hexclusive⟩, hoverdue⟩

theorem Provisioned.emits {s' : State} {destroys : Destroys} (h : Provisioned s s') :
    Emits (Event.Allowed destroys) s s' :=
  h.trace.mono fun _ he ↦ he.mono False.elim

/-- **`update_provision_status`** spares the busy workers under the condition, -/
theorem sparesBusy_of_sparedByPoll (hnodup : s.starting.Nodup) (h : SparedByPoll cfg s answers) :
    SparesBusy ((updateProvisionStatus cfg answers).exec cfg) s := by
  have hallowed : ∀ {s s' : State}, Emits (Event.Allowed sparesBusy) s s' →
      Emits (Event.DestroysOnly sparesBusy) s s' := fun h ↦ h.mono fun _ he ↦ he.destroysOnly id
  refine sparesBusy_of_ends (ends_updateProvisionStatus sparesBusy hnodup ?_ ?_ ?_ ?_ ?_)
  · intro i v record hget forceOff hforceOff hjobs
    cases record with
    | none => cases hjobs
    | some wn =>
      cases hforce : (s.vms v).forceOff with
      | true => exact .inl ((hforceOff rfl).trans hforce)
      | false =>
        obtain ⟨j, hdown⟩ := downAndBusy_of_toDelete (List.mem_of_getElem? hget) hjobs hforce
        exact .inr (h j v wn hdown i hget)
  · exact fun _ s₁ _ h₁ ↦ hallowed (Provisioned.emits h₁)
  · intro e s₁ s₂ done v _ h₁ _ h₂ _ _
    exact hallowed ((Provisioned.emits h₁).trans (.of_eq h₂.trace))
  · intro e s₁ s₂ s₃ done _ h₁ h₂ _ h₃
    exact hallowed (((Provisioned.emits h₁).trans (.of_eq h₂.trace)).trans h₃.trace)
  · intro s₁ s₂ s₃ h₁ h₂ h₃ _ _
    have hdone : Emits (Event.DestroysOnly sparesBusy) s s₃ :=
      hallowed (((Provisioned.emits h₁).trans (.of_eq h₂.trace)).trans h₃.trace)
    refine (finishes_updateAvailableCores fun s ↦
      finishes_finishProvisioning answers.launch).mono ?_ ?_
    · exact fun _ s' h' ↦ hdone.trans h'.sparesBusy
    · exact fun _ s' h' ↦ hdone.trans h'.2.sparesBusy

/-- and, if it returns, only under the condition. -/
theorem sparedByPoll_of_sparesBusy (hnodup : s.starting.Nodup)
    (hreturns : raised ((updateProvisionStatus cfg answers).exec cfg) s = none)
    (h : SparesBusy ((updateProvisionStatus cfg answers).exec cfg) s) :
    SparedByPoll cfg s answers := by
  intro j v wn hdown i hget
  have hends : Ends ((updateProvisionStatus cfg answers).exec cfg) s
      (fun _ s' ↦ .vmDestroy v (some wn) (s.vms v).forceOff (answers.destroy i).answer ∈
        s.since s') fun _ _ ↦ True := by
    refine ends_updateProvisionStatus Scope.any.destroys hnodup (fun _ _ _ _ _ _ ↦ trivial)
      (fun _ _ _ _ ↦ trivial) (fun _ _ _ _ _ _ _ _ _ _ _ ↦ trivial)
      (fun _ _ _ _ _ _ _ _ _ _ ↦ trivial) ?_
    intro s₁ s₂ s₃ h₁ h₂ h₃ hevents _
    have hdone : Emits (fun _ ↦ True) s s₃ :=
      ((h₁.trace.mono fun _ _ ↦ trivial).trans (.of_eq h₂.trace)).trans
        (h₃.trace.mono fun _ _ ↦ trivial)
    refine Ends.mono (finishes_updateAvailableCores fun s ↦
      finishes_finishProvisioning answers.launch) (fun _ s' h' ↦ ?_) fun _ _ _ ↦ trivial
    rw [hdone.since_trans (h'.trace.mono fun _ _ ↦ trivial)]
    exact List.mem_append_left _ (hevents i v wn hget)
  obtain ⟨-, hevent⟩ := of_returned hends hreturns
  have hspared : sparesBusy v (some wn) (s.vms v).forceOff (answers.destroy i).answer :=
    h _ hevent
  refine (hspared hdown.jobs).resolve_left ?_
  rw [hdown.forceOff]
  exact Bool.false_ne_true

end Provisioning

/-- **Busy workers are spared exactly under the conditions.** Checking the existing workers and the
clean-up never destroy a busy worker. Start-up destroys none exactly if its condition holds.
Provisioning destroys none if its condition holds, and where it returns, only then. -/
theorem busy_workers_spared_iff (cfg : Config) :
    (∀ (s : State) (answers : ℕ → WorkerAnswers),
      SparesBusy ((checkExistingWorkerNodes cfg answers).exec cfg) s) ∧
    (∀ (s : State) (answers : CleanupCalls),
      SparesBusy ((checkCleanup cfg answers).exec cfg) s) ∧
    (∀ (crs : CloudResources) (answers : StartUpAnswers),
      SparesBusy ((loadExistingWorkerNodes cfg answers).exec cfg) (State.initial crs) ↔
        SparedAtStart crs answers) ∧
    (∀ (s : State) (answers : UpdateAnswers), s.starting.Nodup →
      (SparedByPoll cfg s answers →
        SparesBusy ((updateProvisionStatus cfg answers).exec cfg) s) ∧
      (raised ((updateProvisionStatus cfg answers).exec cfg) s = none →
        SparesBusy ((updateProvisionStatus cfg answers).exec cfg) s →
        SparedByPoll cfg s answers)) :=
  ⟨fun _ ↦ sparesBusy_checkExistingWorkerNodes, fun _ ↦ sparesBusy_checkCleanup,
    fun _ _ ↦ ⟨sparedAtStart_of_sparesBusy, sparesBusy_of_sparedAtStart⟩,
    fun _ _ hnodup ↦ ⟨sparesBusy_of_sparedByPoll hnodup, sparedByPoll_of_sparesBusy hnodup⟩⟩

/-- The cloud has finished no VM yet. -/
def buildingPoll : UpdateAnswers where
  visit := fun _ ↦
    { report := none, wnInTorque := .notLocated, now := 0, addNode := fun _ ↦ false,
      checkNode := fun _ ↦ none, wnQuery := (true, []) }
  destroy := fun _ ↦ ⟨.notFound, 0⟩
  launch := fun _ ↦ none

theorem busy_workers_spared_oneWorker :
    SparesBusy ((loadExistingWorkerNodes {} oneWorker).exec {})
        (State.initial JobScheduler.threeNodes) ∧
      SparesBusy ((updateProvisionStatus {} buildingPoll).exec {}) twoVms := by
  obtain ⟨-, -, hload, hupdate⟩ := busy_workers_spared_iff {}
  refine ⟨(hload JobScheduler.threeNodes oneWorker).2 ?_,
    (hupdate twoVms buildingPoll (by decide)).1 ?_⟩
  · intro v wn hheld
    have hnode : wn = ⟨"wn1", "free", none⟩ :=
      List.mem_singleton.1 (List.mem_of_find?_eq_some hheld.node)
    rw [hnode] at hheld
    exact nomatch hheld.jobs
  · exact fun j v wn hdown ↦ nomatch hdown.cloudReady

/-- One worker is held, but still has a job. -/
def heldWorker : StartUpAnswers :=
  { oneWorker with
    wnQuery := (true, [⟨"wn1", "offline", some "0/1.server"⟩])
    destroy := fun _ ↦ ⟨.deleted, 0⟩ }

/-- Start-up destroys the held worker, which has a job, is still in the cloud and is not forced
off. -/
theorem held_worker_destroyed : ¬∀ (cfg : Config) (crs : CloudResources)
    (answers : StartUpAnswers),
    SparesBusy ((loadExistingWorkerNodes cfg answers).exec cfg) (State.initial crs) := by
  intro h
  have hspared : SparesBusy ((loadExistingWorkerNodes {} heldWorker).exec {})
      (State.initial JobScheduler.threeNodes) := h {} JobScheduler.threeNodes heldWorker
  have hevent : Event.vmDestroy 0 (some ⟨"wn1", "offline", some "0/1.server"⟩) false .deleted ∈
      (State.initial JobScheduler.threeNodes).since
        (stateAfter ((loadExistingWorkerNodes {} heldWorker).exec {})
          (State.initial JobScheduler.threeNodes)) := by decide
  have hbad : sparesBusy 0 (some ⟨"wn1", "offline", some "0/1.server"⟩) false .deleted :=
    hspared _ hevent
  rcases hbad rfl with hforce | hanswer
  · cases hforce
  · cases hanswer

end DynamicTorque
