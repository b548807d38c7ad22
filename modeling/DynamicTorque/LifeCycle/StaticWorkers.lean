import DynamicTorque.LifeCycle.SleepMode
import DynamicTorque.LifeCycle.StaticRequests

/-!
# Static workers

Start-up covers every missing static worker: a request waits for it or a VM is being started. A
starting VM stops counting when it becomes ready in a zone that needs no static worker, and when
it is given up, because the request that replaces it is not static. `KeepsCovered` says of a poll
that neither happens to a resource whose missing workers depend on the VMs that are being started.
-/

open Python Atomic Program

namespace DynamicTorque

/-- The static VMs of a resource that are missing without anything on its way. -/
def State.missing (s : State) (resource : String) : ℤ :=
  s.outstanding resource - s.underWay resource

/-- From `s` to `s'` no static VM goes missing. -/
structure Covers (s s' : State) : Prop where
  names : s'.resources.names = s.resources.names
  missing : ∀ resource, s'.missing resource ≤ s.missing resource

/-- Torque reports a VM that is being started as up. -/
def ProvisionAnswers.findsReady (answers : ProvisionAnswers) (vm : VM) : Bool :=
  vm.cloudReady && match answers.wnInTorque with
    | .record wn => wn.state = "free" || wn.state = "job-exclusive"
    | .error | .notLocated => false

/-- The VMs that a poll finds ready. -/
def State.foundReady (s : State) (answers : UpdateAnswers) : List VmRef :=
  (s.starting.zipIdx.filter fun vi ↦ (answers.visit vi.2).findsReady (s.vms vi.1)).map Prod.fst

/-- VMs in the zones, one after another, are each wanted by a static request. -/
def StaticVMs.Wants (props : LocationProperties) : List (Option String) → StaticVMs → Prop
  | [], _ => True
  | zone :: zones, reqs =>
    ∃ reqs', reqs.needVm zone props = .ok (true, reqs') ∧ Wants props zones reqs'

/-- The requests that wait are enough for the static workers of a resource that are missing. -/
def State.Awaited (s : State) (resource : String) : Prop :=
  s.outstanding resource ≤ staticCount resource s.waiting

/-- A poll that loses no VM of a resource: none is given up, and those that are ready are wanted. -/
def LosesNone (cfg : Config) (s : State) (answers : UpdateAnswers) (resource : String) : Prop :=
  (∀ (i : ℕ) v, s.starting[i]? = some v → (s.vms v).cloudResourceName = resource →
    ∀ record, (answers.visit i).outcome cfg (s.vms v) ≠ .givenUp record) ∧
  ∀ reqs ∈ (s.resources.object resource).staticVmsToStart,
    reqs.Wants cfg.locationProperties (s.zonesOf (s.foundReady answers) resource)

/-- A call that leaves every missing static worker covered. A poll must be able to search the static
requests of the VMs that are ready, and lose no VM of a resource that depends on them. -/
def KeepsCovered (cfg : Config) (s : State) : Operation → Prop
  | .updateProvisionStatus answers =>
    (∀ v ∈ s.foundReady answers, Searchable cfg s.resources (s.vms v).cloudResourceName) ∧
    ∀ resource ∈ s.resources.names, s.Awaited resource ∨ LosesNone cfg s answers resource
  | .checkCleanup answers => ∀ v, FoundGone answers s v →
    AsksForAnother cfg (s.vms v) → (s.vms v).Replaceable
  | .forceoff _ => ∀ resource ∈ s.resources.names, s.Awaited resource
  | _ => True

/-- The VMs in a list that belong to a resource. -/
def State.countOf (s : State) (vs : List VmRef) (resource : String) : ℕ :=
  vs.countP fun v ↦ (s.vms v).cloudResourceName = resource

section Cover

variable {cfg : Config} {s s₁ s' : State} {v : VmRef}

namespace Covers

theorem refl (s : State) : Covers s s := ⟨rfl, fun _ ↦ le_rfl⟩

theorem trans (h : Covers s s₁) (h' : Covers s₁ s') : Covers s s' :=
  ⟨h'.names.trans h.names, fun resource ↦ (h'.missing resource).trans (h.missing resource)⟩

theorem covered (h : Covers s s') (hs : Covered s) : Covered s' := by
  intro resource hresource
  have hold : s.outstanding resource ≤ s.underWay resource := hs resource (h.names ▸ hresource)
  have hmissing : s'.missing resource ≤ s.missing resource := h.missing resource
  rw [State.missing, State.missing] at hmissing
  omega

/-- The static requests, what waits and the starting VMs decide. -/
theorem of_eq (hstatic : SameStatic s.resources s'.resources)
    (hwaiting : s.waiting <+: s'.waiting) (hstarting : s'.starting = s.starting)
    (hresource : ∀ v, (s'.vms v).cloudResourceName = (s.vms v).cloudResourceName) :
    Covers s s' where
  names := hstatic.names
  missing := fun resource ↦ by
    have hout : s'.outstanding resource = s.outstanding resource := hstatic.outstanding resource
    have hstart : s'.startingOf resource = s.startingOf resource :=
      startingOf_eq hstarting fun v _ ↦ hresource v
    have hwait : staticCount resource s.waiting ≤ staticCount resource s'.waiting :=
      hwaiting.sublist.countP_le
    rw [State.missing, State.missing, State.underWay, State.underWay, hout, hstart]
    omega

theorem of_scanned {scope : Scope} (h : Scanned scope s s') : Covers s s' :=
  .of_eq ⟨congrArg _ h.resources, fun _ ↦ by rw [h.resources]⟩ (h.waiting ▸ List.prefix_refl _)
    h.starting fun v ↦ (h.vm v).resource

end Covers

/-- A program that leaves no static VM missing. -/
def CoversThrough (cfg : Config) (p : Proc Unit) (s : State) : Prop :=
  Ends (p.exec cfg) s (fun _ ↦ Covers s) fun _ ↦ Covers s

theorem CoversThrough.after {p : Proc Unit} (h : Covers s s₁) (h' : CoversThrough cfg p s₁) :
    Ends (p.exec cfg) s₁ (fun _ ↦ Covers s) fun _ ↦ Covers s :=
  Ends.mono h' (fun _ _ h' ↦ h.trans h') fun _ _ h' ↦ h.trans h'

/-! ### Launching -/

/-- A launch that has not finished has added VMs and taken no request off. -/
theorem Launched.covers {toRemove : List WaitingRequest} (h : Launched s.beginLaunch toRemove s')
    (hwell : WellFormed s) : Covers s s' where
  names := congrArg CloudResources.names h.resources
  missing := fun resource ↦ by
    have hfresh : ∀ v ∈ s.starting, v < s.nextVm := fun v hv ↦
      hwell.fresh v (State.mem_tracked.2 (.inr (.inl hv)))
    have hout : s'.outstanding resource = s.outstanding resource := by
      rw [State.outstanding, State.outstanding, show s'.resources = s.resources from h.resources]
    have hwait : s'.waiting = s.waiting := h.waiting
    have hstart : s.startingOf resource ≤ s'.startingOf resource := by
      obtain ⟨new, hstarting, -, -⟩ := h.starting
      have hold : s.starting.countP (fun v ↦ decide ((s'.vms v).cloudResourceName = resource)) =
          s.startingOf resource := List.countP_congr fun v hv ↦ by
        rw [show s'.vms v = s.vms v from h.vms v (hfresh v hv)]
      rw [← hold, State.startingOf, hstarting, List.countP_append]
      exact Nat.le_add_right _ _
    rw [State.missing, State.missing, State.underWay, State.underWay, hout, hwait]
    omega

/-- A launch that has finished has turned each static request that it took off into a VM. -/
theorem Launched.covers_end {toRemove : List WaitingRequest}
    (h : Launched s.beginLaunch toRemove s') (hwell : WellFormed s)
    (hsub : toRemove.Subperm s.waiting) :
    Covers s { s' with waiting := s.waiting.diff toRemove } where
  names := congrArg CloudResources.names h.resources
  missing := fun resource ↦ by
    have hfresh : ∀ v ∈ s.starting, v < s.nextVm := fun v hv ↦
      hwell.fresh v (State.mem_tracked.2 (.inr (.inl hv)))
    have hle : s.underWay resource ≤
        staticCount resource (s.waiting.diff toRemove) + s'.startingOf resource :=
      h.underWay_le hsub hfresh
    have hout : State.outstanding { s' with waiting := s.waiting.diff toRemove }
        resource = s.outstanding resource := by
      rw [State.outstanding, State.outstanding, show s'.resources = s.resources from h.resources]
    rw [State.missing, State.missing, hout]
    exact Int.sub_le_sub_left (Int.ofNat_le.2 hle) _

theorem coversThrough_launchInstances {answers : ℕ → Option StartedServer} (hwell : WellFormed s) :
    CoversThrough cfg (launchInstances cfg answers) s :=
  ends_launchInstances (.refl s) (fun _ _ _ _ hsub h ↦ h.covers_end hwell hsub)
    fun _ _ _ _ _ _ h ↦ h.covers hwell

/-- The free nodes are counted and the nodes dumped before the launch. -/
theorem coversThrough_updateAvailableCores {c : Prop} [Decidable c] {p : Proc Unit}
    (hwell : WellFormed s) (h : ∀ s₁, WellFormed s₁ → CoversThrough cfg p s₁) :
    CoversThrough cfg (do
      Proc.locked .updateAvailableCores
      Program.when c Proc.dumpNodes
      p) s := by
  have hcores : Covers s s.updateAvailableCores :=
    .of_eq ⟨rfl, fun _ ↦ rfl⟩ (List.prefix_refl _) rfl fun _ ↦ rfl
  have hmoves : Moves (fun _ ↦ False) s s.updateAvailableCores := .of_eq rfl rfl rfl le_rfl
  have hdump : Scanning (.looking fun _ ↦ False) (Program.when c Proc.dumpNodes) fun _ ↦ True :=
    scanning_dumpNodes
  rw [CoversThrough, ends_locked]
  refine ends_scanning_bind hdump (fun _ s₁ _ h₁ ↦ ?_) fun _ s₁ _ h₁ ↦ hcores.trans (.of_scanned h₁)
  have hscan : Moves (fun _ ↦ False) s.updateAvailableCores s₁ := .of_scanned h₁
  exact CoversThrough.after (hcores.trans (.of_scanned h₁))
    (h s₁ ((hmoves.trans hscan).wellFormed hwell))

theorem coversThrough_finishProvisioning {launch : ℕ → Option StartedServer}
    (hwell : WellFormed s) : CoversThrough cfg (finishProvisioning cfg launch) s := by
  rw [CoversThrough, finishProvisioning, ends_list]
  split
  · rw [ends_waiting]
    split
    · exact ends_block.2 (Covers.of_eq ⟨rfl, fun _ ↦ rfl⟩ (List.prefix_refl _) rfl fun _ ↦ rfl)
    · exact coversThrough_launchInstances hwell
  · exact coversThrough_launchInstances hwell

theorem coversThrough_launchIfWaiting {launch : ℕ → Option StartedServer}
    (hwell : WellFormed s) : CoversThrough cfg (launchIfWaiting cfg launch) s := by
  rw [CoversThrough, launchIfWaiting, ends_waiting]
  split
  · rw [ends_provisioning]
    split
    · exact coversThrough_launchInstances hwell
    · exact Covers.refl s
  · exact Covers.refl s

/-! ### Operations that concern no starting VM -/

theorem covers_existingToDeleting : Covers s
    { s with existing := s.existing.erase v, deleting := s.deleting ++ [v] } :=
  .of_eq ⟨rfl, fun _ ↦ rfl⟩ (List.prefix_refl _) rfl fun _ ↦ rfl

theorem coversThrough_killVm (vmName : String) (force : Bool) :
    CoversThrough cfg (killVm cfg vmName force) s := by
  rw [CoversThrough, killVm, ends_findVm]
  split
  · exact Covers.refl s
  · rename_i v hfound
    rw [ends_findWnFromVm]
    split
    · exact Covers.refl s
    · split
      · exact Covers.refl s
      · have hset : Scanned .any s (s.setVm v fun vm ↦ { vm with forceOff := force }) :=
          .setVm s trivial fun _ ↦ ⟨rfl, rfl, rfl, rfl⟩
        rw [ends_setVm]
        refine ends_runCommand_bind ?_ fun _ _ ↦ .of_scanned hset
        have hscan : Scanned .any s ((s.setVm v fun vm ↦ { vm with forceOff := force }).emit
            (.command .holdNode v)) := hset.trans (.emit _ trivial)
        revert hscan
        generalize (s.setVm v fun vm ↦ { vm with forceOff := force }).emit
          (.command .holdNode v) = s₁
        intro hscan
        have hmem : v ∈ s₁.existing := by
          rw [hscan.existing]
          exact mem_existing_of_findVm hfound
        exact ends_block.2 ((ends_existingToDeleting hmem).2
          ((Covers.of_scanned hscan).trans covers_existingToDeleting))

theorem Checked.covers {answers : WorkerAnswers} {wn : WorkerNode}
    (h : Checked cfg answers wn s s') : Covers s s' := by
  cases h with
  | looked h => exact .of_scanned h
  | deleted hfound h => exact (Covers.of_scanned h).trans covers_existingToDeleting
  | shutDown hidle h =>
    exact .of_eq h.static (h.waiting ▸ List.prefix_refl _) h.starting h.resource
  | failed h =>
    exact .of_eq (h.resources ▸ ⟨rfl, fun _ ↦ rfl⟩) (h.waiting ▸ List.prefix_refl _) h.starting
      h.resource

theorem coversThrough_checkExistingWorkerNodes (answers : ℕ → WorkerAnswers) :
    CoversThrough cfg (checkExistingWorkerNodes cfg answers) s := by
  rw [CoversThrough, checkExistingWorkerNodes, ends_cluster, Proc.exec, run_bind, ends_bind]
  refine (ends_forEach (I := fun _ _ ↦ Covers s) ?_ (.refl s)).mono ?_ fun _ _ h ↦ h
  · rintro done wn rest - s₁ - h₁
    exact ends_checkWorker.mono (fun _ _ h ↦ h₁.trans h.covers) fun _ _ h ↦ h₁.trans h.2.covers
  · intro _ s₁ h₁
    have hcores : Covers s₁ s₁.updateAvailableCores :=
      .of_eq ⟨rfl, fun _ ↦ rfl⟩ (List.prefix_refl _) rfl fun _ ↦ rfl
    exact ends_block.2 (h₁.trans hcores)

/-! ### Clean-up -/

/-- What a clean-up drops is asked for again with a request. -/
theorem Dropped.covers {done : List VmRef} (h : Dropped cfg done s s')
    (hreplaceable : ∀ v ∈ done, AsksForAnother cfg (s.vms v) → (s.vms v).Replaceable) :
    Covers s s' where
  names := h.names
  missing := fun resource ↦ by
    have hshort : s'.shortfall resource ≤ s.shortfall resource := h.shortfall hreplaceable resource
    have hstart : s'.startingOf resource = s.startingOf resource :=
      startingOf_eq h.starting fun v _ ↦ by rw [h.vms]
    rw [State.shortfall, State.shortfall] at hshort
    rw [State.missing, State.missing, State.underWay, State.underWay, hstart]
    omega

theorem coversThrough_checkCleanup {answers : CleanupCalls} (hwell : WellFormed s)
    (h : KeepsCovered cfg s (.checkCleanup answers)) :
    CoversThrough cfg (checkCleanup cfg answers) s := by
  have hreplaceable : ∀ {s₁ done scratch}, CleanupScanned answers s.deleting s scratch s₁ →
      done <+: scratch.deleted →
      ∀ v ∈ done, AsksForAnother cfg (s₁.vms v) → (s₁.vms v).Replaceable := by
    intro s₁ done scratch h₁ hpre v hv
    obtain ⟨hfound, hsame⟩ := h₁.gone hwell.partition.deleting v (hpre.subset hv)
    rw [hsame]
    exact h v hfound
  refine ends_checkCleanup (.refl s) (fun _ s₁ _ h₁ ↦ .of_scanned h₁) ?_ ?_
  · exact fun _ s₁ s₂ done scratch _ h₁ hpre h₂ ↦
      (Covers.of_scanned h₁.scanned).trans (h₂.covers (hreplaceable h₁ hpre))
  · intro s₁ s₂ s₃ scratch _ h₁ h₂ h₃
    have hresumed : Covers s₂ s₃ := .of_eq ⟨congrArg _ h₃.resources, fun _ ↦ by rw [h₃.resources]⟩
      (h₃.waiting ▸ List.prefix_refl _) h₃.starting fun v ↦ by rw [h₃.vms]
    have hwell₃ : WellFormed s₃ := by
      have hscan : Moves (fun _ ↦ True) s s₁ := .of_scanned h₁.scanned
      have hdrop : Moves (fun _ ↦ True) s₁ s₂ := moves_dropped h₂ fun _ _ ↦ trivial
      exact ((hscan.trans hdrop).trans (moves_resumed h₃)).wellFormed hwell
    refine CoversThrough.after (((Covers.of_scanned h₁.scanned).trans
      (h₂.covers (hreplaceable h₁ (List.prefix_refl _)))).trans hresumed) ?_
    exact coversThrough_updateAvailableCores hwell₃ fun _ hwell₄ ↦
      coversThrough_launchIfWaiting hwell₄

/-! ### Provisioning -/

/-- A VM that is found ready is up in Torque. -/
theorem outcome_eq_ready_iff {answers : ProvisionAnswers} {vm : VM} :
    answers.outcome cfg vm = .ready ↔ answers.findsReady vm = true := by
  rw [ProvisionAnswers.outcome, ProvisionAnswers.findsReady]
  cases hready : vm.cloudReady with
  | true =>
    rw [if_pos rfl, Bool.true_and]
    cases answers.wnInTorque with
    | record wn =>
      dsimp only
      split
      · rename_i hup
        simpa using hup
      · rename_i hdown
        refine iff_of_false ?_ (by simpa using hdown)
        split <;> exact Outcome.noConfusion
    | error => exact iff_of_false Outcome.noConfusion Bool.false_ne_true
    | notLocated => exact iff_of_false Outcome.noConfusion Bool.false_ne_true
  | false =>
    rw [if_neg Bool.false_ne_true, Bool.false_and]
    refine iff_of_false ?_ Bool.false_ne_true
    rw [ProvisionAnswers.torqueOutcome.eq_def]
    split
    · split_ifs <;> simp
    · split_ifs <;> simp
    · split_ifs <;> simp
    · exact Outcome.noConfusion
    · exact Outcome.noConfusion

/-- The scan puts the VMs that the poll finds ready on its list. -/
theorem readyToUse_eq {answers : UpdateAnswers} :
    (s.provisionScratch cfg answers).readyToUse = s.foundReady answers := by
  show s.starting.zipIdx.filterMap _ = _
  rw [State.foundReady, ← List.filterMap_eq_map, List.filterMap_filter]
  refine List.filterMap_congr fun vi _ ↦ ?_
  by_cases hready : (answers.visit vi.2).findsReady (s.vms vi.1) = true
  · rw [if_pos hready, outcome_eq_ready_iff.2 hready]
    rfl
  · rw [if_neg hready]
    have hother : (answers.visit vi.2).outcome cfg (s.vms vi.1) ≠ .ready := fun h ↦
      hready (outcome_eq_ready_iff.1 h)
    cases houtcome : (answers.visit vi.2).outcome cfg (s.vms vi.1) with
    | ready => exact absurd houtcome hother
    | givenUp record => rfl
    | stays => rfl

/-! ### Serving the static requests -/

section Served

variable {props : LocationProperties} {zones : List (Option String)} {reqs : StaticVMs}

/-- Serving never asks for more. -/
theorem outstanding_served_le :
    (StaticVMs.served props zones reqs).outstanding ≤ reqs.outstanding := by
  induction zones generalizing reqs with
  | nil => exact le_refl reqs.outstanding
  | cons zone zones ih =>
    refine ih.trans ?_
    dsimp only
    split
    · rename_i needed reqs' hneed
      have hout : reqs'.outstanding = reqs.outstanding - if needed then 1 else 0 :=
        (needVm_eq_ok hneed).2
      split at hout <;> omega
    · exact le_rfl

/-- Each VM that is wanted serves one. -/
theorem outstanding_served_of_wants (h : reqs.Wants props zones) :
    (StaticVMs.served props zones reqs).outstanding = reqs.outstanding - zones.length := by
  induction zones generalizing reqs with
  | nil => simp
  | cons zone zones ih =>
    obtain ⟨reqs', hneed, hrest⟩ := h
    have hout : reqs'.outstanding = reqs.outstanding - 1 := (needVm_eq_ok hneed).2
    have hstep : StaticVMs.served props (zone :: zones) reqs =
        StaticVMs.served props zones reqs' := by
      simp only [StaticVMs.served, List.foldl_cons, hneed]
    rw [hstep, ih hrest, hout, List.length_cons]
    omega

end Served

/-- What is taken out of a list and what is left. -/
theorem countOf_diff {vs xs : List VmRef} (h : vs.Subperm xs) (resource : String) :
    s.countOf vs resource + s.countOf (xs.diff vs) resource = s.countOf xs resource := by
  rw [State.countOf, State.countOf, State.countOf, ← List.countP_append]
  exact (append_diff_perm h).countP_eq _

theorem countOf_congr (h : ∀ v, (s'.vms v).cloudResourceName = (s.vms v).cloudResourceName)
    (vs : List VmRef) (resource : String) : s'.countOf vs resource = s.countOf vs resource :=
  List.countP_congr fun v _ ↦ by rw [h v]

section Update

variable {answers : UpdateAnswers}

/-- The VMs that leave the starting list are those that are ready and those that are given up. -/
theorem startingOf_givenUp {s₂ s₃ : State} {done : List (VmRef × Option WorkerNode)}
    {destroys : Destroys} (h₁ : Provisioned s s₁) (h₂ : Readied cfg (s.foundReady answers) s₁ s₂)
    (hpre : done <+: (s.provisionScratch cfg answers).toDelete)
    (h₃ : GivenUp destroys done s₂ s₃) (resource : String) :
    s.startingOf resource ≤ s₃.startingOf resource + s.countOf (s.foundReady answers) resource +
      s.countOf ((s.provisionScratch cfg answers).toDelete.map Prod.fst) resource := by
  have hresource : ∀ v, (s₃.vms v).cloudResourceName = (s.vms v).cloudResourceName := fun v ↦
    ((h₃.vm v).resource.trans (h₂.resource v)).trans (h₁.vm v).resource
  have hstart : s₃.startingOf resource = s.countOf s₃.starting resource :=
    countOf_congr hresource _ _
  have hready : s.countOf (s.foundReady answers) resource + s.countOf s₂.starting resource =
      s.startingOf resource := by
    rw [h₂.starting, countOf_diff h₂.subperm, h₁.starting]
    rfl
  have hgiven : s.countOf (done.map Prod.fst) resource + s.countOf s₃.starting resource =
      s.countOf s₂.starting resource := by
    rw [h₃.starting, countOf_diff h₃.subperm]
  have hdone : s.countOf (done.map Prod.fst) resource ≤
      s.countOf ((s.provisionScratch cfg answers).toDelete.map Prod.fst) resource :=
    (hpre.sublist.map Prod.fst).countP_le
  omega

/-- The ready VMs have served what they could. -/
theorem outstanding_givenUp {s₂ s₃ : State} {done : List (VmRef × Option WorkerNode)}
    {destroys : Destroys} (h₁ : Provisioned s s₁) (h₂ : Readied cfg (s.foundReady answers) s₁ s₂)
    (h₃ : GivenUp destroys done s₂ s₃) (resource : String) :
    s₃.outstanding resource = (((s.resources.object resource).staticVmsToStart.map
      (StaticVMs.served cfg.locationProperties
        (s.zonesOf (s.foundReady answers) resource))).map StaticVMs.outstanding).getD 0 := by
  -- the zones of the ready VMs are as they were before the scan
  have hsame : ∀ v ∈ s.foundReady answers, s₁.vms v = s.vms v := by
    intro v hv
    obtain ⟨⟨w, i⟩, hmem, rfl⟩ := List.mem_map.1 hv
    have hready : (s.vms w).cloudReady = true := by
      have hfinds : (answers.visit i).findsReady (s.vms w) = true := (List.mem_filter.1 hmem).2
      exact (Bool.and_eq_true _ _ ▸ hfinds).1
    exact h₁.untouched w fun htouched ↦ Bool.false_ne_true (htouched.2.symm.trans hready)
  have hzones : s₁.zonesOf (s.foundReady answers) resource =
      s.zonesOf (s.foundReady answers) resource := by
    rw [State.zonesOf, State.zonesOf, List.filter_congr fun v hv ↦ by rw [hsame v hv]]
    exact List.map_congr_left fun v hv ↦ by rw [hsame v (List.mem_of_mem_filter hv)]
  rw [State.outstanding, h₃.resources, h₂.static, hzones, h₁.resources]

/-- A poll that gives up no VM of a resource. -/
theorem countOf_toDelete {resource : String} (h : LosesNone cfg s answers resource) :
    s.countOf ((s.provisionScratch cfg answers).toDelete.map Prod.fst) resource = 0 := by
  refine List.countP_eq_zero.2 fun v hv hresource ↦ ?_
  obtain ⟨⟨w, record⟩, hmem, rfl⟩ := List.mem_map.1 hv
  obtain ⟨i, hget, houtcome⟩ := mem_toDelete.1 hmem
  exact h.1 i w hget (of_decide_eq_true hresource) record houtcome

/-- **What a poll that meets the condition leaves covered.** -/
theorem covered_of_givenUp {s₂ s₃ : State} {done : List (VmRef × Option WorkerNode)}
    {destroys : Destroys} (hcovered : Covered s)
    (h : KeepsCovered cfg s (.updateProvisionStatus answers)) (h₁ : Provisioned s s₁)
    (h₂ : Readied cfg (s.foundReady answers) s₁ s₂)
    (hpre : done <+: (s.provisionScratch cfg answers).toDelete)
    (h₃ : GivenUp destroys done s₂ s₃) : Covered s₃ := by
  intro resource hresource
  have hnames : s₃.resources.names = s.resources.names := by
    rw [h₃.resources, h₂.names, h₁.resources]
  have hwaiting : staticCount resource s.waiting ≤ staticCount resource s₃.waiting := by
    have hkept : s₂.waiting = s.waiting := h₂.waiting.trans h₁.waiting
    exact (hkept ▸ h₃.waiting).sublist.countP_le
  have hstarting := startingOf_givenUp h₁ h₂ hpre h₃ resource
  have hunder : s.outstanding resource ≤ s.underWay resource :=
    hcovered resource (hnames ▸ hresource)
  rw [outstanding_givenUp h₁ h₂ h₃, State.underWay]
  rw [State.outstanding, State.underWay] at hunder
  cases hreqs : (s.resources.object resource).staticVmsToStart with
  | none =>
    show (0 : ℤ) ≤ _
    exact Int.natCast_nonneg _
  | some reqs =>
    rw [hreqs] at hunder
    show (StaticVMs.served _ _ reqs).outstanding ≤ _
    have hold : reqs.outstanding ≤
        ((staticCount resource s.waiting + s.startingOf resource : ℕ) : ℤ) := hunder
    rcases h.2 resource (hnames ▸ hresource) with hawaited | hnone
    · -- the requests that wait stay
      have hawaits : reqs.outstanding ≤ staticCount resource s.waiting := by
        rw [State.Awaited, State.outstanding, hreqs] at hawaited
        exact hawaited
      have hserved : (StaticVMs.served cfg.locationProperties
          (s.zonesOf (s.foundReady answers) resource) reqs).outstanding ≤ reqs.outstanding :=
        outstanding_served_le
      omega
    · -- what leaves the starting list has served a request
      have hserved := outstanding_served_of_wants (hnone.2 reqs hreqs)
      have hlength : (s.zonesOf (s.foundReady answers) resource).length =
          s.countOf (s.foundReady answers) resource := by
        rw [State.zonesOf, List.length_map, State.countOf, List.countP_eq_length_filter]
      have hdelete := countOf_toDelete hnone
      omega

/-- **`update_provision_status`** leaves every missing static worker covered under the condition. -/
theorem ends_updateProvisionStatus_covered (hcovered : Covered s) (hwell : WellFormed s)
    (h : KeepsCovered cfg s (.updateProvisionStatus answers)) :
    Ends ((updateProvisionStatus cfg answers).exec cfg) s (fun _ ↦ Covered) fun _ ↦ Covered := by
  refine ends_updateProvisionStatus Scope.any.destroys hwell.partition.starting
    (fun _ _ _ _ _ _ ↦ trivial) ?_ ?_ ?_ ?_
  · exact fun _ s₁ _ h₁ ↦ (Covers.of_scanned h₁).covered hcovered
  · intro e s₁ s₂ done v _ _ hpre _ _ hsearch
    exact absurd (h.1 v (readyToUse_eq ▸ hpre.subset (by simp))) hsearch
  · exact fun _ s₁ s₂ s₃ done _ h₁ h₂ hpre h₃ ↦
      covered_of_givenUp hcovered h h₁ (readyToUse_eq ▸ h₂) hpre h₃
  · intro s₁ s₂ s₃ h₁ h₂ h₃ _ _
    have hcovered₃ : Covered s₃ :=
      covered_of_givenUp hcovered h h₁ (readyToUse_eq ▸ h₂) (List.prefix_refl _) h₃
    have hwell₃ : WellFormed s₃ := by
      have hmoves : Moves (fun _ ↦ False) s s₁ := .of_scanned h₁
      exact ((hmoves.trans h₂.moves).trans h₃.moves).wellFormed hwell
    refine Ends.mono (coversThrough_updateAvailableCores hwell₃ fun _ hwell₄ ↦
      coversThrough_finishProvisioning hwell₄) ?_ ?_
    · exact fun _ _ h' ↦ h'.covered hcovered₃
    · exact fun _ _ h' ↦ h'.covered hcovered₃

end Update

/-! ### Giving everything up -/

theorem ends_forceoff_covered {answers : ForceoffAnswers} (hcovered : Covered s)
    (h : KeepsCovered cfg s (.forceoff answers)) :
    Ends ((forceoff cfg answers).exec cfg) s (fun _ ↦ Covered) fun _ ↦ Covered := by
  rw [forceoff, ends_list]
  refine ends_scanning_bind (scanning_forceoffExisting answers.existing _) (fun _ s₁ _ h₁ ↦ ?_)
    fun _ s₁ _ h₁ ↦ (Covers.of_scanned h₁).covered hcovered
  rw [ends_locked]
  show Ends (Proc.exec (Proc.list .starting >>= _) cfg)
    { s₁ with existing := [], deleting := s₁.deleting ++ s₁.existing } _ _
  -- existing VMs are not counted as under way, so their block costs nothing
  have hdrained : Covers s
      { s₁ with existing := [], deleting := s₁.deleting ++ s₁.existing } :=
    (Covers.of_scanned h₁).trans
      (.of_eq ⟨rfl, fun _ ↦ rfl⟩ (List.prefix_refl _) rfl fun _ ↦ rfl)
  rw [ends_list]
  refine ends_scanning_bind (scanning_forceoffStarting answers.starting _) (fun _ s₂ _ h₂ ↦ ?_)
    fun _ s₂ _ h₂ ↦ (hdrained.trans (.of_scanned h₂)).covered hcovered
  refine ends_block.2 ?_
  show Covered { s₂ with starting := [], deleting := s₂.deleting ++ s₂.starting }
  -- the starting VMs no longer count, so the waiting requests have to serve alone
  intro resource hresource
  have hresources : s₂.resources = s.resources := h₂.resources.trans h₁.resources
  have hwaiting : s₂.waiting = s.waiting := h₂.waiting.trans h₁.waiting
  have hserved : s.outstanding resource ≤ staticCount resource s.waiting :=
    h resource (hresources ▸ hresource)
  have hout : State.outstanding
      { s₂ with starting := [], deleting := s₂.deleting ++ s₂.starting } resource =
        s.outstanding resource := by
    rw [State.outstanding, State.outstanding, ← hresources]
  rw [hout, State.underWay]
  show _ ≤ ((staticCount resource s₂.waiting + 0 : ℕ) : ℤ)
  rw [hwaiting]
  omega

/-! ### Runs -/

/-- **One call.** A call that meets the condition leaves every missing static worker covered. -/
theorem covered_after (op : Operation) (hcovered : Covered s) (hwell : WellFormed s)
    (h : KeepsCovered cfg s op) : Covered (op.after cfg s) := by
  have hcovers : CoversThrough cfg (op.program cfg) s → Covered (op.after cfg s) := fun h ↦
    (stateAfter_of_ends h).covered hcovered
  cases op with
  | killVm vmName force => exact hcovers (coversThrough_killVm vmName force)
  | forceoff answers => exact stateAfter_of_ends (ends_forceoff_covered hcovered h)
  | checkExistingWorkerNodes answers =>
    exact hcovers (coversThrough_checkExistingWorkerNodes answers)
  | launchInstances answers => exact hcovers (coversThrough_launchInstances hwell)
  | updateProvisionStatus answers =>
    exact stateAfter_of_ends (ends_updateProvisionStatus_covered hcovered hwell h)
  | checkCleanup answers => exact hcovers (coversThrough_checkCleanup hwell h)
  | query report =>
    exact hcovers (Covers.of_eq ⟨rfl, fun _ ↦ rfl⟩ (List.prefix_refl _) rfl fun _ ↦ rfl)
  | queueRequests requests =>
    exact hcovers (Covers.of_eq ⟨rfl, fun _ ↦ rfl⟩ (List.prefix_append _ _) rfl fun _ ↦ rfl)

end Cover

/-- **Static requests are covered.** In a run after start-up all of whose calls meet the condition,
every missing static worker has something on its way in every state. -/
theorem covered_of_run (cfg : Config) (crs : CloudResources) (answers : StartUpAnswers)
    (ops : List Operation) (s : State)
    (hstart : (loadExistingWorkerNodes cfg answers).exec cfg (State.initial crs) = .ok () s)
    (hkeeps : ∀ before op after, ops = before ++ op :: after →
      KeepsCovered cfg (runOperations cfg before s) op) :
    ∀ before after, ops = before ++ after → Covered (runOperations cfg before s) := by
  have hstarted : StartedUp crs s := startedUp_of_ok hstart
  intro before
  induction before using List.reverseRecOn with
  | nil => exact fun _ _ ↦ hstarted.covered
  | append_singleton before op ih =>
    intro after hops
    have hsplit : ops = before ++ op :: after := by simpa using hops
    have hstep : runOperations cfg (before ++ [op]) s =
        op.after cfg (runOperations cfg before s) := by
      simp [runOperations]
    rw [hstep]
    exact covered_after op (ih (op :: after) hsplit) (hstarted.wellFormed.run before)
      (hkeeps before op after hsplit)

/-- The cloud starts the static worker at the start-up. -/
def startingWorker : StartUpAnswers :=
  { noWorkers with launch := fun _ ↦ some ⟨"1", "a", 4, 0⟩ }

/-- The state after the start-up with one static worker that is being started. -/
def startingWorkerLoaded : State :=
  stateAfter ((loadExistingWorkerNodes oneLocation startingWorker).exec oneLocation)
    (State.initial oneStatic)

/-- A server that is up. -/
def upAndRunning : ServerReport where
  status := "ACTIVE"
  created := 0
  vmState := "active"
  taskState := none
  address := some "10.0.0.1"
  imageId := "image"
  sizeFlavor := some ⟨"3", "m1.large", 4⟩
  flavor := some ⟨"3", "m1.large", 4⟩
  serverUp := true

/-- The nodes that Torque reports. -/
def twoNodes : List WorkerNode :=
  [⟨"wn1", "free", none⟩, ⟨"pbsdynwn--default-a", "free", none⟩]

/-- A starting VM is up, and a node that Torque accepts. -/
def readyVisit : ProvisionAnswers where
  report := some upAndRunning
  now := 0
  addNode := fun _ ↦ true
  checkNode := fun _ ↦ some "free"
  wnQuery := (true, twoNodes)
  wnInTorque := .record ⟨"wn1", "free", none⟩

/-- A poll of starting VMs that are up. -/
def upPoll : UpdateAnswers :=
  { buildingPoll with visit := fun _ ↦ readyVisit }

/-- The static worker is added to Torque, and ready at the second poll. It is drained later, and
gone at the clean-up, which starts another one. -/
def drainedLater : List Operation :=
  [.updateProvisionStatus upPoll, .updateProvisionStatus upPoll,
    .checkExistingWorkerNodes fun _ ↦ ⟨some "drained", ⟨.deleted, 0⟩⟩,
    .checkCleanup ⟨fun _ ↦ ⟨none, .notLocated, 0, ⟨.failed, 0⟩⟩, fun _ ↦ some ⟨"2", "b", 4, 0⟩⟩]

theorem covered_of_run_drainedLater :
    Covered (runOperations oneLocation drainedLater startingWorkerLoaded) := by
  refine covered_of_run oneLocation oneStatic startingWorker drainedLater startingWorkerLoaded rfl
    ?_ drainedLater [] (List.append_nil drainedLater).symm
  have hone : ∀ {vs : List VmRef} {v : VmRef}, vs = [0] → v ∈ vs → v = 0 := fun hvs hv ↦
    List.mem_singleton.1 (hvs ▸ hv)
  intro before op after hops
  rcases before with _ | ⟨first, _ | ⟨second, _ | ⟨third, _ | ⟨fourth, before⟩⟩⟩⟩
  all_goals simp only [drainedLater, List.cons_append, List.nil_append, List.cons.injEq] at hops
  · -- the worker is added to Torque, and stays on the list
    obtain ⟨rfl, -⟩ := hops
    have hready : startingWorkerLoaded.foundReady upPoll = [] := by decide
    refine ⟨fun v hv ↦ absurd (hready ▸ hv) List.not_mem_nil, fun resource _ ↦ .inr ⟨?_, ?_⟩⟩
    · intro i v hget _ record
      obtain rfl : v = 0 := hone (by decide) (List.mem_of_getElem? hget)
      exact fun h ↦ nomatch (show Outcome.stays = .givenUp record from h)
    · intro reqs _
      show reqs.Wants _ (State.zonesOf _ (startingWorkerLoaded.foundReady upPoll) resource)
      rw [hready]
      trivial
  · -- it is ready, and serves the static request
    obtain ⟨rfl, rfl, -⟩ := hops
    refine ⟨fun v hv ↦ ?_, fun resource hresource ↦ .inr ⟨?_, ?_⟩⟩
    · obtain rfl : v = 0 := hone (by decide) hv
      exact ⟨[⟨"rack", 1⟩], rfl, .inr (by decide)⟩
    · intro i v hget _ record
      obtain rfl : v = 0 := hone (by decide) (List.mem_of_getElem? hget)
      exact fun h ↦ nomatch (show Outcome.ready = .givenUp record from h)
    · obtain rfl := List.mem_singleton.1 hresource
      rintro reqs hreqs
      obtain rfl : [⟨"rack", 1⟩] = reqs := Option.some.inj hreqs
      exact ⟨[⟨"rack", 0⟩], rfl, trivial⟩
  · obtain ⟨rfl, rfl, rfl, -⟩ := hops
    trivial
  · -- the one that is gone has the flavour that the cloud reported
    obtain ⟨rfl, rfl, rfl, rfl, -⟩ := hops
    rintro v ⟨i, hget, -⟩ -
    obtain rfl : v = 0 := hone (by decide) (List.mem_of_getElem? hget)
    exact ⟨.object ⟨"3", "m1.large", 4⟩, rfl, rfl⟩
  · simp at hops

/-! ### A static worker that is lost -/

/-- A server that has gone into an error. -/
def erroneous : ServerReport where
  status := "ERROR"
  created := 0
  vmState := "error"
  taskState := none
  address := none
  imageId := "image"
  sizeFlavor := none
  flavor := none
  serverUp := false

/-- A poll that finds every server in an error. -/
def errorPoll : UpdateAnswers :=
  { buildingPoll with visit := fun v ↦ { buildingPoll.visit v with report := some erroneous } }

/-- The static worker that start-up launches goes into an error and is given up. One static worker
is still outstanding, and nothing is on its way. -/
theorem static_request_lost : ¬∀ (cfg : Config) (crs : CloudResources)
    (answers : StartUpAnswers) (ops : List Operation) (s : State),
    (loadExistingWorkerNodes cfg answers).exec cfg (State.initial crs) = .ok () s →
      Covered (runOperations cfg ops s) := by
  intro h
  have hcovered := h oneLocation oneStatic startingWorker [.updateProvisionStatus errorPoll] _ rfl
  have hle := hcovered "default" (by decide)
  revert hle
  decide

end DynamicTorque
