import DynamicTorque.LifeCycle.Partition
import DynamicTorque.LifeCycle.StaticSwaps
import DynamicTorque.LifeCycle.Timeouts

/-!
# A VM that never comes up in Torque

`update_provision_status` gives up a VM that was added to Torque and is reported in a state other
than free and job-exclusive once its `state_time` exceeds `max_inaccessible_time`. `state_time` is
advanced by `check_existing_worker_nodes` only, which visits existing VMs and not starting ones.

* `LeavesStarting`: the calls other than polls leave such a VM where and as it is.
* `given_up_iff`: so it is given up in the first poll that returns, or in none.
-/

open Python Atomic Program

namespace DynamicTorque

/-! ### Calls that concern no starting VM -/

/-- From `s` to `s'` the starting VMs stay, and those that were added to Torque stay as they are. -/
structure LeavesStarting (s s' : State) : Prop where
  starts : Starts s s'
  stays : ∀ v ∈ s.starting, v ∈ s'.starting

section LeavesStarting

variable {cfg : Config} {s s₁ s' : State}

theorem LeavesStarting.of_eq (hnextVm : s.nextVm ≤ s'.nextVm) (hstarting : s'.starting = s.starting)
    (hvms : ∀ v ∈ s.starting, s'.vms v = s.vms v) : LeavesStarting s s' where
  starts := .of_eq hnextVm hstarting fun v hv _ ↦ hvms v hv
  stays := fun _ hv ↦ hstarting ▸ hv

theorem LeavesStarting.refl (s : State) : LeavesStarting s s :=
  .of_eq le_rfl rfl fun _ _ ↦ rfl

theorem Launches.leavesStarting (hs : WellFormed s) (h : Launches s s') : LeavesStarting s s' :=
  ⟨h.starts hs, fun _ hv ↦ h.mem_starting hv⟩

theorem LeavesStarting.trans (hs : WellFormed s) (h : LeavesStarting s s₁)
    (h' : LeavesStarting s₁ s') : LeavesStarting s s' :=
  ⟨h.starts.trans hs h'.starts, fun v hv ↦ h'.stays v (h.stays v hv)⟩

/-- Existing VMs and those that are being deleted do not start. -/
theorem LeavesStarting.of_scanned {scope : Scope} (h : Scanned scope s s')
    (htouches : ∀ v ∈ s.starting, ¬scope.touches v) : LeavesStarting s s' :=
  .of_eq h.nextVm.ge h.starting fun v hv ↦ h.untouched v (htouches v hv)

theorem ends_killVm_leavesStarting (hs : WellFormed s) (vmName : String) (force : Bool) :
    Ends ((killVm cfg vmName force).exec cfg) s (fun _ ↦ LeavesStarting s)
      fun _ ↦ LeavesStarting s := by
  rw [killVm, ends_findVm]
  split
  · exact LeavesStarting.refl s
  · rename_i v hfound
    have hmem : v ∈ s.existing := mem_existing_of_findVm hfound
    rw [ends_findWnFromVm]
    split
    · exact LeavesStarting.refl s
    · split
      · exact LeavesStarting.refl s
      · have hne : ∀ u ∈ s.starting, u ≠ v := fun u hu heq ↦
          hs.partition.existing_starting hmem (heq ▸ hu)
        rw [ends_setVm]
        refine ends_runCommand_bind (ends_block.2 ((ends_existingToDeleting ?_).2
          (.of_eq le_rfl rfl fun u hu ↦ ?_))) fun _ _ ↦ .of_eq le_rfl rfl fun u hu ↦ ?_
        · exact hmem
        · simp [State.setVm, State.emit, hne u hu]
        · simp [State.setVm, hne u hu]

theorem ends_checkExistingWorkerNodes_leavesStarting (hs : WellFormed s)
    (answers : ℕ → WorkerAnswers) :
    Ends ((checkExistingWorkerNodes cfg answers).exec cfg) s (fun _ ↦ LeavesStarting s)
      fun _ ↦ LeavesStarting s := by
  let Apart (s' : State) := s'.starting = s.starting ∧ s'.nextVm = s.nextVm ∧
    ∀ v ∈ s.starting, v ∉ s'.existing ∧ s'.vms v = s.vms v
  have hleaves : ∀ {s'}, Apart s' → LeavesStarting s s' := fun h ↦
    .of_eq h.2.1.ge h.1 fun v hv ↦ (h.2.2 v hv).2
  have hstart : Apart s :=
    ⟨rfl, rfl, fun v hv ↦ ⟨fun hmem ↦ hs.partition.existing_starting hmem hv, rfl⟩⟩
  rw [checkExistingWorkerNodes, ends_cluster, Proc.exec, run_bind, ends_bind]
  refine (ends_forEach (I := fun _ _ s' ↦ Apart s') ?_ hstart).mono ?_ fun _ _ h ↦ h
  · rintro done wn rest - s₁ - h₁
    -- a visit leaves a VM alone that does not exist
    have hvisit : ∀ {s₂}, Checked cfg (answers done.length) wn s₁ s₂ → LeavesOthers s₁ s₂ →
        Apart s₂ := by
      intro s₂ hchecked hothers
      obtain ⟨hstarting, hnextVm⟩ := hchecked.starting
      refine ⟨hstarting.trans h₁.1, hnextVm.trans h₁.2.1, fun v hv ↦ ?_⟩
      obtain ⟨hnot, hvm⟩ := h₁.2.2 v hv
      exact ⟨hchecked.existing hnot, (hothers v hnot).trans hvm⟩
    exact (ends_checkWorker.and ends_checkWorker_rebalances).mono
      (fun _ _ h ↦ hvisit h.1 h.2.2) fun _ _ h ↦ hleaves (hvisit h.1.2 h.2)
  · exact fun _ s₁ h₁ ↦ ends_block.2 (show LeavesStarting s s₁.updateAvailableCores from
      .of_eq h₁.2.1.ge h₁.1 fun v hv ↦ (h₁.2.2 v hv).2)

theorem ends_launchIfWaiting_launches (launch : ℕ → Option StartedServer) :
    Ends ((launchIfWaiting cfg launch).exec cfg) s (fun _ ↦ Launches s) fun _ ↦ Launches s := by
  rw [launchIfWaiting, ends_waiting]
  split
  · rw [ends_provisioning]
    split
    · exact ends_launchInstances_launches launch
    · exact Launches.refl s
  · exact Launches.refl s

theorem ends_checkCleanup_leavesStarting (hs : WellFormed s) (answers : CleanupCalls) :
    Ends ((checkCleanup cfg answers).exec cfg) s (fun _ ↦ LeavesStarting s)
      fun _ ↦ LeavesStarting s := by
  have hapart : ∀ v ∈ s.starting, v ∉ s.deleting := fun v hv hmem ↦
    hs.partition.starting_deleting hv hmem
  have hdropped : ∀ {s₁ s₂ done scratch}, CleanupScanned answers s.deleting s scratch s₁ →
      Dropped cfg done s₁ s₂ → LeavesStarting s s₂ := by
    intro s₁ s₂ done scratch h₁ h₂
    refine .of_eq ?_ (h₂.starting.trans h₁.scanned.starting) fun v hv ↦ ?_
    · rw [h₂.nextVm, h₁.scanned.nextVm]
    · rw [h₂.vms]
      exact h₁.fresh hs.partition.deleting v (hapart v hv)
  refine ends_checkCleanup (.refl s) (fun e s₁ _ h₁ ↦ .of_scanned h₁ hapart)
    (fun e s₁ s₂ done scratch _ h₁ _ h₂ ↦ hdropped h₁ h₂) ?_
  intro s₁ s₂ s₃ scratch _ h₁ h₂ h₃
  have hresumed : LeavesStarting s s₃ :=
    (hdropped h₁ h₂).trans hs (.of_eq h₃.nextVm.ge h₃.starting fun v _ ↦ by rw [h₃.vms])
  have hmoves : Moves (fun _ ↦ True) s s₃ :=
    ((Moves.of_scanned h₁.scanned).trans (moves_dropped h₂ fun _ _ ↦ trivial)).trans
      (moves_resumed h₃)
  have hwell₃ : WellFormed s₃ := hmoves.wellFormed hs
  exact (ends_lastPart _ fun s ↦ ends_launchIfWaiting_launches answers.launch).mono
    (fun _ _ h ↦ hresumed.trans hs (h.leavesStarting hwell₃))
    fun _ _ h ↦ hresumed.trans hs (h.leavesStarting hwell₃)

/-- The calls that neither poll the starting VMs nor force them off. -/
def Operation.LeavesStarting : Operation → Prop
  | .forceoff _ | .updateProvisionStatus _ => False
  | _ => True

theorem leavesStarting_after {op : Operation} (hop : op.LeavesStarting) (hs : WellFormed s) :
    LeavesStarting s (op.after cfg s) := by
  refine stateAfter_of_ends ?_
  cases op with
  | killVm vmName force => exact ends_killVm_leavesStarting hs vmName force
  | forceoff answers => exact hop.elim
  | checkExistingWorkerNodes answers =>
    exact ends_checkExistingWorkerNodes_leavesStarting hs answers
  | launchInstances answers =>
    exact (ends_launchInstances_launches answers).mono (fun _ _ h ↦ h.leavesStarting hs)
      fun _ _ h ↦ h.leavesStarting hs
  | updateProvisionStatus answers => exact hop.elim
  | checkCleanup answers => exact ends_checkCleanup_leavesStarting hs answers
  | query report => exact LeavesStarting.of_eq le_rfl rfl fun _ _ ↦ rfl
  | queueRequests requests => exact LeavesStarting.of_eq le_rfl rfl fun _ _ ↦ rfl

end LeavesStarting

/-! ### Polls of a VM that stays down -/

/-- Torque reports the VM in a state other than free and job-exclusive, if it is still polled. -/
def UpdateAnswers.ReportsDown (answers : UpdateAnswers) (s : State) (v : VmRef) : Prop :=
  ∀ i, s.starting[i]? = some v → ∃ wn, (answers.visit i).wnInTorque = .record wn ∧
    wn.state ≠ "free" ∧ wn.state ≠ "job-exclusive"

/-- A state that is reached from `s₀` with `n` polls that have returned, at each of which Torque
reports `v` as down. Polls may raise, and other calls come in between. -/
inductive PolledDown (cfg : Config) (v : VmRef) (s₀ : State) : ℕ → State → Prop
  | start : PolledDown cfg v s₀ 0 s₀
  | poll {n : ℕ} {s : State} (h : PolledDown cfg v s₀ n s) (answers : UpdateAnswers)
    (hdown : answers.ReportsDown s v)
    (hreturn : raised ((updateProvisionStatus cfg answers).exec cfg) s = none) :
    PolledDown cfg v s₀ (n + 1) (Operation.after cfg (.updateProvisionStatus answers) s)
  | failed {n : ℕ} {s : State} (h : PolledDown cfg v s₀ n s) (answers : UpdateAnswers)
    (hdown : answers.ReportsDown s v)
    (hraise : raised ((updateProvisionStatus cfg answers).exec cfg) s ≠ none) :
    PolledDown cfg v s₀ n (Operation.after cfg (.updateProvisionStatus answers) s)
  | other {n : ℕ} {s : State} (h : PolledDown cfg v s₀ n s) {op : Operation}
    (hop : op.LeavesStarting) : PolledDown cfg v s₀ n (op.after cfg s)

/-- What is known of `v` in such a state: it is as it was while it starts, it starts if its
`state_time` does not exceed the limit, and otherwise it does not start after the first poll. -/
structure WaitsFor (cfg : Config) (v : VmRef) (s₀ : State) (n : ℕ) (s : State) : Prop where
  wellFormed : WellFormed s
  created : v < s.nextVm
  same : v ∈ s.starting → s.vms v = s₀.vms v
  stays : longerThan (s₀.vms v).stateTime cfg.maxInaccessibleTime = false → v ∈ s.starting
  leaves : longerThan (s₀.vms v).stateTime cfg.maxInaccessibleTime = true → 0 < n →
    v ∉ s.starting

section Polls

variable {cfg : Config} {v : VmRef} {s₀ s : State} {n : ℕ} {answers : UpdateAnswers}

/-- The decision about a VM that Torque reports as down. -/
theorem outcome_of_down {answers : ProvisionAnswers} {vm : VM} {wn : WorkerNode}
    (hready : vm.cloudReady = true) (hwn : answers.wnInTorque = .record wn)
    (hfree : wn.state ≠ "free") (hexclusive : wn.state ≠ "job-exclusive") :
    answers.outcome cfg vm =
      if longerThan vm.stateTime cfg.maxInaccessibleTime then .givenUp (some wn) else .stays := by
  rw [ProvisionAnswers.outcome, if_pos hready, hwn]
  simp [hfree, hexclusive]

/-- **One poll.** -/
theorem WaitsFor.poll (h : WaitsFor cfg v s₀ n s) (hready : (s₀.vms v).cloudReady = true)
    (hdown : answers.ReportsDown s v) :
    Ends ((updateProvisionStatus cfg answers).exec cfg) s
      (fun _ ↦ WaitsFor cfg v s₀ (n + 1)) fun _ ↦ WaitsFor cfg v s₀ n := by
  -- the decision about the VM, if it is still starting
  have houtcome : ∀ i, s.starting[i]? = some v → ∃ wn,
      (answers.visit i).outcome cfg (s.vms v) =
        if longerThan (s₀.vms v).stateTime cfg.maxInaccessibleTime then .givenUp (some wn)
        else .stays := by
    intro i hget
    obtain ⟨wn, hwn, hfree, hexclusive⟩ := hdown i hget
    have hsame : s.vms v = s₀.vms v := h.same (List.mem_of_getElem? hget)
    refine ⟨wn, ?_⟩
    rw [hsame]
    exact outcome_of_down hready hwn hfree hexclusive
  have hupdated : ∀ {m s'}, Updated cfg answers s s' →
      (longerThan (s₀.vms v).stateTime cfg.maxInaccessibleTime = true → 0 < m →
        v ∉ s'.starting) → WaitsFor cfg v s₀ m s' := by
    intro m s' h' hleaves
    refine
      { wellFormed := h'.wellFormed
        created := h.created.trans_le h'.starts.nextVm
        same := fun hv' ↦ ?_
        stays := fun hshort ↦ ?_
        leaves := hleaves }
    · have hv : v ∈ s.starting := by
        by_contra hnot
        exact h'.starts.not_mem hnot h.created hv'
      have hsame : s.vms v = s₀.vms v := h.same hv
      exact (h'.starts.vms v hv hv' (hsame ▸ hready)).trans hsame
    · have hstays : ∀ i, s.starting[i]? = some v →
          (answers.visit i).outcome cfg (s.vms v) = .stays := by
        intro i hget
        obtain ⟨wn, hwn⟩ := houtcome i hget
        rwa [if_neg (by simp [hshort])] at hwn
      refine h'.undecided v (h.stays hshort) ⟨fun hmem ↦ ?_, fun hmem ↦ ?_⟩
      · obtain ⟨i, hget, hout⟩ := mem_readyToUse.1 hmem
        cases hout.symm.trans (hstays i hget)
      · obtain ⟨⟨u, record⟩, hvr, rfl⟩ := List.mem_map.1 hmem
        obtain ⟨i, hget, hout⟩ := mem_toDelete.1 hvr
        cases hout.symm.trans (hstays i hget)
  refine (ends_updateProvisionStatus_decided h.wellFormed).mono (fun _ s' h' ↦ ?_) fun _ s' h' ↦ ?_
  · refine hupdated h'.1 fun hlong _ hv' ↦ ?_
    -- a VM that was starting has been moved to the deleting list
    by_cases hv : v ∈ s.starting
    · obtain ⟨i, hget⟩ := List.mem_iff_getElem?.1 hv
      obtain ⟨wn, hout⟩ := houtcome i hget
      rw [if_pos hlong] at hout
      have hgivenUp : v ∈ (s.provisionScratch cfg answers).toDelete.map Prod.fst :=
        List.mem_map_of_mem (mem_toDelete.2 ⟨i, hget, hout⟩)
      have hdeleting : v ∈ s'.deleting := by
        rw [h'.2.deleting]
        exact List.mem_append_right _ hgivenUp
      exact h'.1.wellFormed.partition.starting_deleting hv' hdeleting
    · exact h'.1.starts.not_mem hv h.created hv'
  · exact hupdated h' fun hlong hn ↦ h'.starts.not_mem (h.leaves hlong hn) h.created

/-- **Every run.** -/
theorem waitsFor_of_polledDown (hwell : WellFormed s₀) (hstart : v ∈ s₀.starting)
    (hready : (s₀.vms v).cloudReady = true) (h : PolledDown cfg v s₀ n s) :
    WaitsFor cfg v s₀ n s := by
  induction h with
  | start =>
    exact ⟨hwell, hwell.lt_nextVm hstart, fun _ ↦ rfl, fun _ ↦ hstart, fun _ hn ↦
      absurd hn (lt_irrefl 0)⟩
  | poll h answers hdown hreturn ih =>
    obtain ⟨-, h'⟩ := of_returned (ih.poll hready hdown) hreturn
    exact h'
  | failed h answers hdown hraise ih =>
    obtain ⟨e, he⟩ := Option.ne_none_iff_exists'.1 hraise
    exact of_raised (ih.poll hready hdown) he
  | @other n s h op hop ih =>
    have hleaves : LeavesStarting s (op.after cfg s) := leavesStarting_after hop ih.wellFormed
    have hstarts := hleaves.starts
    exact
      { wellFormed := ih.wellFormed.after op
        created := ih.created.trans_le hstarts.nextVm
        same := fun hv' ↦ by
          have hv : v ∈ s.starting := by
            by_contra hnot
            exact hstarts.not_mem hnot ih.created hv'
          have hsame : s.vms v = s₀.vms v := ih.same hv
          exact (hstarts.vms v hv hv' (hsame ▸ hready)).trans hsame
        stays := fun hshort ↦ hleaves.stays v (ih.stays hshort)
        leaves := fun hlong hn ↦ hstarts.not_mem (ih.leaves hlong hn) ih.created }

end Polls

/-- **A VM that never comes up in Torque** does not start any more after enough polls if and only if
its `state_time` exceeded the limit before the first of them. -/
theorem given_up_iff (cfg : Config) (v : VmRef) (s₀ s : State) (n : ℕ) (interval : ℤ)
    (hwell : WellFormed s₀) (hstart : v ∈ s₀.starting) (hready : (s₀.vms v).cloudReady = true)
    (hrun : PolledDown cfg v s₀ n s)
    (hlate : 0 < n ∧ cfg.maxInaccessibleTime < n * interval) :
    v ∉ s.starting ↔ longerThan (s₀.vms v).stateTime cfg.maxInaccessibleTime = true := by
  have h : WaitsFor cfg v s₀ n s := waitsFor_of_polledDown hwell hstart hready hrun
  constructor
  · intro hnot
    by_contra hshort
    exact hnot (h.stays (by simpa using hshort))
  · exact fun hlong ↦ h.leaves hlong hlate.1

/-- A VM that this process has started and added to Torque. -/
def oneDown : State :=
  { State.initial JobScheduler.threeNodes with
    starting := [0]
    nextVm := 1
    vms := fun _ ↦
      { VM.init "id" "wn1" 4 (some (.id "3")) 0 none (some "image") "default" with
        cloudReady := true } }

/-- A poll that finds the node of the VM down. -/
def nodeDown : UpdateAnswers where
  visit := fun _ ↦ { stillBuilding 0 with wnInTorque := .record ⟨"wn1", "down", none⟩ }
  destroy := fun _ ↦ ⟨.deleted, 0⟩
  launch := fun _ ↦ none

/-- A VM may be down for five seconds, and the CloudPoller polls every ten. -/
def fiveSeconds : Config := { maxInaccessibleTime := 5 }

/-- The state after one poll. -/
def afterDown : State :=
  Operation.after fiveSeconds (.updateProvisionStatus nodeDown) oneDown

theorem polledDown_afterDown : PolledDown fiveSeconds 0 oneDown 1 afterDown :=
  .poll .start nodeDown (fun _ _ ↦ ⟨⟨"wn1", "down", none⟩, rfl, by decide, by decide⟩) rfl

/-- The same VM, once its `state_time` is ten seconds. -/
def longDown : State :=
  { oneDown with vms := fun v ↦ { oneDown.vms v with stateTime := some 10 } }

/-- A poll gives up the second VM, and not the first. -/
theorem given_up_iff_longDown :
    0 ∈ afterDown.starting ∧
      0 ∉ (Operation.after fiveSeconds (.updateProvisionStatus nodeDown) longDown).starting := by
  refine ⟨by_contra fun hgone ↦ ?_, ?_⟩
  · have hlong := (given_up_iff fiveSeconds 0 oneDown afterDown 1 10
      ⟨partition_iff.2 (by decide), by decide⟩ (by decide) rfl polledDown_afterDown
      (by decide)).1 hgone
    exact absurd hlong (by decide)
  · refine (given_up_iff fiveSeconds 0 longDown _ 1 10 ⟨partition_iff.2 (by decide), by decide⟩
      (by decide) rfl (.poll .start nodeDown (fun _ _ ↦ ?_) rfl) (by decide)).2 (by decide)
    exact ⟨⟨"wn1", "down", none⟩, rfl, by decide, by decide⟩

/-- The VM is kept for good: nothing measures how long it has been down. -/
theorem down_vm_kept :
    ¬∀ (cfg : Config) (v : VmRef) (s₀ s : State) (n : ℕ) (interval : ℤ), WellFormed s₀ →
      v ∈ s₀.starting → (s₀.vms v).cloudReady = true → PolledDown cfg v s₀ n s →
      cfg.maxInaccessibleTime < n * interval → v ∉ s.starting := by
  intro h
  exact h fiveSeconds 0 oneDown afterDown 1 10 ⟨partition_iff.2 (by decide), by decide⟩
    (by decide) rfl polledDown_afterDown (by decide) (by decide +kernel)

end DynamicTorque
