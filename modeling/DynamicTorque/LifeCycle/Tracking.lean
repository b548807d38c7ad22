import DynamicTorque.LifeCycle.Partition

/-!
# No VM is forgotten

A VM that is in one of the life-cycle lists before a call is in one of them after it, or the
clean-up has dropped it because the cloud does not know it any more. The calls break this in three
places. An idle worker that is shut down leaves the existing list for no other, so nobody tries
again if its deletion failed and its clean-up actions never run; a ready VM has left the starting
list when the search of the static requests raises; and a VM that is gone has left the deleting list
when the command line of one of its actions cannot be built. `KeepsTrack` says that a call does not
come to any of these places.
-/

open Python Atomic Program

namespace DynamicTorque

/-- The call is a clean-up that dropped the VM after the cloud reported it destroyed, and its
actions have run. -/
def CleanedUp (op : Operation) (s s' : State) (v : VmRef) : Prop :=
  ∃ answers, op = .checkCleanup answers ∧ ReportedDestroyed answers s v ∧
    .command .postVmDestroyAction v ∈ s.since s' ∧ .command .postRemoveNodeAction v ∈ s.since s'

/-- No call of a run forgets a VM. -/
def NoneForgotten (cfg : Config) (ops : List Operation) (s : State) : Prop :=
  ∀ before op after, ops = before ++ op :: after →
    ∀ v ∈ (runOperations cfg before s).tracked,
      v ∈ (op.after cfg (runOperations cfg before s)).tracked ∨
        CleanedUp op (runOperations cfg before s) (op.after cfg (runOperations cfg before s)) v

/-- No idle worker is shut down, no search of the static requests raises, and the actions of each VM
that is found gone can be built. -/
def KeepsTrack (cfg : Config) (s : State) : Operation → Prop
  | .checkExistingWorkerNodes answers =>
    ∀ v, ¬ShutDownIn cfg answers 0 s.cluster.workerNodes s v
  | .updateProvisionStatus answers => ∀ v ∈ (s.provisionScratch cfg answers).readyToUse,
    Searchable cfg s.resources (s.vms v).cloudResourceName
  | .checkCleanup answers => ∀ v, FoundGone answers s v → ActionsBuilt cfg (s.vms v)
  | _ => True

section Tracking

variable {cfg : Config} {s s₁ s₂ s' : State} {v : VmRef}

/-- What becomes of the VMs of `s`, where a VM in `dropped` has had its clean-up actions. -/
structure Tidies (dropped : VmRef → Prop) (s s' : State) : Prop where
  moves : Moves dropped s s'
  actions : ∀ v, dropped v → .command .postVmDestroyAction v ∈ s.since s' ∧
    .command .postRemoveNodeAction v ∈ s.since s'

/-- The VMs that a clean-up has dropped, and what it does then. -/
theorem tidies_of_dropped {done : List VmRef} (h₁ : Scanned .idle s s₁)
    (h₂ : Dropped cfg done s₁ s₂) (hbuilt : ∀ v ∈ done, ActionsBuilt cfg (s₁.vms v))
    (h' : Finished s₂ s') : Tidies (· ∈ done) s s' where
  moves := ((Moves.of_scanned h₁).trans (moves_dropped h₂ fun _ h ↦ h)).trans
    (h'.moves.mono fun _ h ↦ h.elim)
  actions := fun v hv ↦ by
    have hdone : Emits (fun _ ↦ True) s s₂ := (h₁.trace.mono fun _ _ ↦ trivial).trans
      (h₂.trace.mono fun _ _ ↦ trivial)
    have hrest : Emits (fun _ ↦ True) s₂ s' := h'.trace.mono fun _ _ ↦ trivial
    have hsince : s.since s' = s.since s₁ ++ s₁.since s₂ ++ s₂.since s' := by
      rw [hdone.since_trans hrest, h₁.trace.since_trans h₂.trace]
    rw [hsince]
    exact (h₂.actions v hv (hbuilt v hv)).imp
      (fun h ↦ List.mem_append_left _ (List.mem_append_right _ h))
      fun h ↦ List.mem_append_left _ (List.mem_append_right _ h)

/-- The VMs that the scan has found gone are as they were, so their actions can be built. -/
theorem CleanupScanned.actionsBuilt {answers : CleanupCalls} {vs : List VmRef}
    {scratch : CleanupScratch} (h : CleanupScanned answers vs s scratch s₁)
    (hnodup : s.deleting.Nodup)
    (hbuilt : ∀ v, FoundGone answers s v → ActionsBuilt cfg (s.vms v)) :
    ∀ v ∈ scratch.deleted, ActionsBuilt cfg (s₁.vms v) := by
  intro v hv
  obtain ⟨hfound, hsame⟩ := h.gone hnodup v hv
  rw [hsame]
  exact hbuilt v hfound

/-- **The clean-up.** It drops only VMs that the cloud reports destroyed, and runs their actions if
these can be built. -/
theorem ends_checkCleanup_tidies (answers : CleanupCalls) (hnodup : s.deleting.Nodup)
    (hbuilt : ∀ v, FoundGone answers s v → ActionsBuilt cfg (s.vms v)) :
    Ends ((checkCleanup cfg answers).exec cfg) s
      (fun _ s' ↦ ∃ done : List VmRef,
        (∀ v ∈ done, ReportedDestroyed answers s v) ∧ Tidies (· ∈ done) s s')
      fun _ s' ↦ ∃ done : List VmRef,
        (∀ v ∈ done, ReportedDestroyed answers s v) ∧ Tidies (· ∈ done) s s' := by
  refine ends_checkCleanup ⟨[], nofun, .of_perm (.refl _) le_rfl, nofun⟩ ?_ ?_ ?_
  · exact fun _ s₁ _ h₁ ↦ ⟨[], nofun, .of_scanned h₁, nofun⟩
  · intro _ s₁ s₂ done scratch _ h₁ hpre h₂
    have hactions := h₁.actionsBuilt hnodup hbuilt
    exact ⟨done, fun v hv ↦ h₁.reported v (hpre.subset hv),
      tidies_of_dropped h₁.scanned h₂ (fun v hv ↦ hactions v (hpre.subset hv)) (.refl s₂)⟩
  · intro s₁ s₂ s₃ scratch _ h₁ h₂ h₃
    have hactions := h₁.actionsBuilt hnodup hbuilt
    have hresumed : Finished s₂ s₃ :=
      ⟨moves_resumed h₃, h₃.trace.mono fun _ he ↦ he.destroysOnly id⟩
    refine (finishes_updateAvailableCores fun s ↦
      finishes_launchIfWaiting answers.launch).mono ?_ ?_
    · exact fun _ s' h' ↦
        ⟨scratch.deleted, h₁.reported, tidies_of_dropped h₁.scanned h₂ hactions
          (hresumed.trans h')⟩
    · exact fun _ s' h' ↦
        ⟨scratch.deleted, h₁.reported, tidies_of_dropped h₁.scanned h₂ hactions
          (hresumed.trans h'.2)⟩

theorem kept_of_conserves {α : Type} {x : EStateM PyError State α}
    (h : Conserves (fun _ ↦ False) x s) (hv : v ∈ s.tracked) : v ∈ (stateAfter x s).tracked := by
  have hmoves : Moves (fun _ ↦ False) s (stateAfter x s) :=
    stateAfter_of_ends (Ends.mono h (fun _ _ h ↦ h) fun _ _ h ↦ h.2)
  exact (hmoves.kept v hv).resolve_right id

/-- **One call.** A call that meets the condition forgets no VM. -/
theorem tracked_after (op : Operation) (h : WellFormed s) (hkeeps : KeepsTrack cfg s op)
    (hv : v ∈ s.tracked) :
    v ∈ (op.after cfg s).tracked ∨ CleanedUp op s (op.after cfg s) v := by
  cases op with
  | killVm vmName force => exact .inl (kept_of_conserves (conserves_killVm vmName force) hv)
  | forceoff answers => exact .inl (kept_of_conserves (conserves_forceoff answers) hv)
  | checkExistingWorkerNodes answers =>
    exact .inl (kept_of_conserves
      ((conserves_checkExistingWorkerNodes answers).mono hkeeps) hv)
  | launchInstances answers =>
    exact .inl (kept_of_conserves (finishes_launchInstances answers).conserves hv)
  | updateProvisionStatus answers =>
    exact .inl (kept_of_conserves (conserves_updateProvisionStatus h.partition.starting
      fun w hw hsearch ↦ hsearch (hkeeps w hw)) hv)
  | checkCleanup answers =>
    obtain ⟨done, hreported, htidies⟩ :=
      stateAfter_of_ends (ends_checkCleanup_tidies answers h.partition.deleting hkeeps)
    refine (htidies.moves.kept v hv).imp_right fun hdone ↦ ?_
    exact ⟨answers, rfl, hreported v hdone, htidies.actions v hdone⟩
  | query report => exact .inl hv
  | queueRequests requests => exact .inl hv

/-- Start-up leaves well-formed lists. -/
theorem startedUp_of_ok {crs : CloudResources} {answers : StartUpAnswers}
    (h : (loadExistingWorkerNodes cfg answers).exec cfg (State.initial crs) = .ok () s) :
    StartedUp crs s :=
  ((ends_loadExistingWorkerNodes (fun _ ↦ trivial) fun _ _ _ _ ↦ trivial).of_ok h).1

end Tracking

/-- **No VM is forgotten.** In a run after start-up all of whose calls meet the condition, every VM
that is tracked before a call is tracked after it, unless the call is a clean-up that dropped it
after the cloud reported it destroyed, and ran its actions. -/
theorem noneForgotten_of_run (cfg : Config) (crs : CloudResources) (answers : StartUpAnswers)
    (ops : List Operation) (s : State)
    (hstart : (loadExistingWorkerNodes cfg answers).exec cfg (State.initial crs) = .ok () s)
    (hkeeps : ∀ before op after, ops = before ++ op :: after →
      KeepsTrack cfg (runOperations cfg before s) op) : NoneForgotten cfg ops s := by
  intro before op after hops v hv
  have hwell : WellFormed (runOperations cfg before s) :=
    (startedUp_of_ok hstart).wellFormed.run before
  exact tracked_after op hwell (hkeeps before op after hops) hv

/-! ### A worker that is forgotten -/

/-- A worker as the cloud lists it. -/
def listedWorker : ListedServer where
  id := "1"
  name := "wn1"
  status := "ACTIVE"
  created := 0
  vmState := "active"
  taskState := none
  address := some "10.0.0.1"
  zone := some "noblepark"
  imageId := "image"
  flavor := ⟨"3", "m1.large", 4⟩

/-- The cloud lists one worker, which Torque reports as free. -/
def oneWorker : StartUpAnswers where
  vmList := fun _ ↦ [listedWorker]
  persistentNodes := []
  wnQuery := (true, [⟨"wn1", "free", none⟩])
  destroy := fun _ ↦ ⟨.failed, 0⟩
  trim := fun _ _ ↦ ⟨.failed, 0⟩
  launch := fun _ ↦ none

/-- The state after the start-up with one worker. -/
def oneWorkerLoaded : State :=
  stateAfter ((loadExistingWorkerNodes {} oneWorker).exec {})
    (State.initial JobScheduler.threeNodes)

theorem loads_oneWorker : (loadExistingWorkerNodes {} oneWorker).exec {}
    (State.initial JobScheduler.threeNodes) = .ok () oneWorkerLoaded := rfl

/-- The worker is killed by the administrator and gone at the next clean-up. -/
def killedAndGone : List Operation :=
  [.killVm "wn1" false, .checkCleanup
    ⟨fun _ ↦ ⟨none, .notLocated, 0, ⟨.failed, 0⟩⟩, fun _ ↦ none⟩]

theorem noneForgotten_of_run_oneWorker : NoneForgotten {} killedAndGone oneWorkerLoaded := by
  refine noneForgotten_of_run {} JobScheduler.threeNodes oneWorker _ _ loads_oneWorker ?_
  intro before op after hops
  have hmem : op ∈ killedAndGone := by simp [hops]
  rcases List.mem_pair.1 hmem with rfl | rfl
  · trivial
  · exact fun _ _ ↦ ⟨⟨.skipped, rfl⟩, ⟨.skipped, rfl⟩⟩

/-- A poll that finds every worker free and cannot delete any. -/
def freePoll : Operation :=
  .checkExistingWorkerNodes fun _ ↦ ⟨some "free", ⟨.failed, 0⟩⟩

/-- The worker is found free twice, is shut down the second time, and is in no list then although
its deletion failed. -/
theorem idle_worker_forgotten : ¬∀ (cfg : Config) (crs : CloudResources)
    (answers : StartUpAnswers) (ops : List Operation) (s : State),
    (loadExistingWorkerNodes cfg answers).exec cfg (State.initial crs) = .ok () s →
      NoneForgotten cfg ops s := by
  intro h
  have hrun : NoneForgotten { maxIdleTime := 5 } [freePoll, freePoll] oneWorkerLoaded :=
    h { maxIdleTime := 5 } JobScheduler.threeNodes oneWorker _ _ rfl
  have hbefore : 0 ∈ (runOperations { maxIdleTime := 5 } [freePoll] oneWorkerLoaded).tracked := by
    decide
  rcases hrun [freePoll] freePoll [] rfl 0 hbefore with hafter | ⟨answers, hop, -⟩
  · revert hafter
    decide
  · cases hop

end DynamicTorque
