import DynamicTorque.Language.Elapsed
import DynamicTorque.LifeCycle.Batches
import DynamicTorque.LifeCycle.Provisioning

/-!
# When a starting VM is given up

`update_provision_status` has two time limits for a starting VM, both `max_inaccessible_time`. While
the cloud builds or configures the VM, its age is compared with the limit. Once it was added to
Torque, `state_time` is, which nothing advances for a starting VM.

* `ends_updateProvisionStatus_decided`: what a call makes of its decisions.
* `timed_out_iff`: the age is read without its days, and this is when that makes no difference.
-/

open Python Atomic Program

namespace DynamicTorque

/-! ### Which VMs start -/

/-- A VM that starts in `s'` has started in `s`, or is new. If it was added to Torque before, it is
as it was. -/
structure Starts (s s' : State) : Prop where
  nextVm : s.nextVm ≤ s'.nextVm
  starting : ∀ v ∈ s'.starting, v ∈ s.starting ∨ s.nextVm ≤ v
  vms : ∀ v ∈ s.starting, v ∈ s'.starting → (s.vms v).cloudReady = true → s'.vms v = s.vms v

section Starts

variable {s s₁ s' : State}

theorem Starts.of_eq (hnextVm : s.nextVm ≤ s'.nextVm) (hstarting : s'.starting = s.starting)
    (hvms : ∀ v ∈ s.starting, (s.vms v).cloudReady = true → s'.vms v = s.vms v) : Starts s s' where
  nextVm := hnextVm
  starting := fun _ hv ↦ .inl (hstarting ▸ hv)
  vms := fun v hv _ hready ↦ hvms v hv hready

theorem Starts.refl (s : State) : Starts s s :=
  .of_eq le_rfl rfl fun _ _ _ ↦ rfl

theorem WellFormed.lt_nextVm {v : VmRef} (hs : WellFormed s) (hv : v ∈ s.starting) :
    v < s.nextVm :=
  hs.fresh v (State.mem_tracked.2 (.inr (.inl hv)))

/-- A VM that was created before and does not start will not start again. -/
theorem Starts.not_mem {v : VmRef} (h : Starts s s') (hv : v ∉ s.starting) (hold : v < s.nextVm) :
    v ∉ s'.starting := fun hmem ↦
  (h.starting v hmem).elim hv (not_le.2 hold)

theorem Starts.trans (hs : WellFormed s) (h : Starts s s₁) (h' : Starts s₁ s') : Starts s s' where
  nextVm := h.nextVm.trans h'.nextVm
  starting := fun v hv ↦ by
    rcases h'.starting v hv with hold | hnew
    · exact h.starting v hold
    · exact .inr (h.nextVm.trans hnew)
  vms := fun v hv hv' hready ↦ by
    have hv₁ : v ∈ s₁.starting := by
      by_contra hnot
      exact h'.not_mem hnot ((hs.lt_nextVm hv).trans_le h.nextVm) hv'
    have hsame : s₁.vms v = s.vms v := h.vms v hv hv₁ hready
    exact (h'.vms v hv₁ hv' (hsame ▸ hready)).trans hsame

end Starts

/-! ### The last part of a call -/

/-- What the last part of an operation leaves, in which VMs may be launched. -/
structure Launches (s s' : State) : Prop where
  moves : Moves (fun _ ↦ False) s s'
  existing : s'.existing = s.existing
  starting : ∃ new, s'.starting = s.starting ++ new ∧ ∀ v ∈ new, s.nextVm ≤ v
  deleting : s'.deleting = s.deleting
  vms : ∀ v < s.nextVm, s'.vms v = s.vms v
  nextVm : s.nextVm ≤ s'.nextVm

section Last

variable {cfg : Config} {s s₁ s' : State}

theorem Launches.refl (s : State) : Launches s s where
  moves := .of_eq rfl rfl rfl le_rfl
  existing := rfl
  starting := ⟨[], (List.append_nil _).symm, nofun⟩
  deleting := rfl
  vms := fun _ _ ↦ rfl
  nextVm := le_rfl

theorem Launches.mem_starting {v : VmRef} (h : Launches s s') (hv : v ∈ s.starting) :
    v ∈ s'.starting := by
  obtain ⟨new, hstarting, -⟩ := h.starting
  rw [hstarting]
  exact List.mem_append_left _ hv

theorem Launches.starts (hs : WellFormed s) (h : Launches s s') : Starts s s' where
  nextVm := h.nextVm
  starting := fun v hv ↦ by
    obtain ⟨new, hstarting, hnew⟩ := h.starting
    rw [hstarting] at hv
    exact (List.mem_append.1 hv).imp_right (hnew v)
  vms := fun v hv _ _ ↦ h.vms v (hs.lt_nextVm hv)

theorem StartedInOrder.launches {answers : ℕ → Option StartedServer} {ws : List WaitingRequest}
    {k n : ℕ} (h : StartedInOrder cfg answers ws k n s s') : Launches s s' where
  moves := h.moves
  existing := h.existing
  starting := ⟨_, h.starting, fun _ hv ↦ List.left_le_of_mem_range' hv⟩
  deleting := h.deleting
  vms := h.vms
  nextVm := by
    rw [h.nextVm]
    exact Nat.le_add_right _ _

theorem ends_launchInstances_launches (answers : ℕ → Option StartedServer) :
    Ends ((launchInstances cfg answers).exec cfg) s (fun _ ↦ Launches s) fun _ ↦ Launches s := by
  -- neither the flag nor the waiting list matters here
  have hbegin : ∀ {s₁ s'}, Launches s.beginLaunch s₁ →
      s' = { s₁ with waiting := s'.waiting, provisioning := s'.provisioning } →
        Launches s s' := by
    intro s₁ s' h hs'
    have hmoves : Moves (fun _ ↦ False) s s.beginLaunch := .of_eq rfl rfl rfl le_rfl
    rw [hs']
    exact
      { moves := (hmoves.trans h.moves).trans (.of_eq rfl rfl rfl le_rfl)
        existing := h.existing
        starting := h.starting
        deleting := h.deleting
        vms := h.vms
        nextVm := h.nextVm }
  by_cases hroom : (s.starting.length : ℤ) < cfg.vmCreationBatchNumber
  · refine (ends_launchInstances_batch hroom).mono ?_ ?_
    · rintro - s' ⟨k, n, s₁, h, hs', -⟩
      exact hbegin h.launches hs'
    · rintro - s' ⟨-, k, n, h⟩
      exact hbegin h.launches rfl
  · exact ends_launchInstances (.refl s) (fun _ _ _ h ↦ absurd h hroom)
      fun _ _ _ _ _ h ↦ absurd h hroom

theorem ends_finishProvisioning_launches (launch : ℕ → Option StartedServer) :
    Ends ((finishProvisioning cfg launch).exec cfg) s (fun _ ↦ Launches s)
      fun _ ↦ Launches s := by
  rw [finishProvisioning, ends_list]
  split
  · rw [ends_waiting]
    split
    · refine ends_block.2 (show Launches s { s with provisioning := false } from ?_)
      exact { (Launches.refl s : Launches s s) with moves := .of_eq rfl rfl rfl le_rfl }
    · exact ends_launchInstances_launches launch
  · exact ends_launchInstances_launches launch

/-- The end of a call that dumps the node list in between. -/
theorem ends_lastPart (c : Prop) [Decidable c] {p : Proc Unit}
    (hp : ∀ s, Ends (p.exec cfg) s (fun _ ↦ Launches s) fun _ ↦ Launches s) :
    Ends (Proc.exec (do
      Proc.locked .updateAvailableCores
      Program.when c Proc.dumpNodes
      p) cfg) s (fun _ ↦ Launches s) fun _ ↦ Launches s := by
  have hcores : ∀ {s₁ s'}, Scanned (.looking fun _ ↦ False) s.updateAvailableCores s₁ →
      Launches s₁ s' → Launches s s' := by
    intro s₁ s' h₁ h'
    have hmoves : Moves (fun _ ↦ False) s s₁ :=
      .of_eq h₁.existing h₁.starting h₁.deleting h₁.nextVm.ge
    have hnext : s₁.nextVm = s.nextVm := h₁.nextVm
    exact
      { moves := hmoves.trans h'.moves
        existing := h'.existing.trans h₁.existing
        starting := by
          obtain ⟨new, hstarting, hnew⟩ := h'.starting
          exact ⟨new, hstarting.trans (congrArg (· ++ new) h₁.starting), hnext ▸ hnew⟩
        deleting := h'.deleting.trans h₁.deleting
        vms := fun v hv ↦ (h'.vms v (hnext ▸ hv)).trans (h₁.untouched v id)
        nextVm := hnext ▸ h'.nextVm }
  have hdump : Scanning (.looking fun _ ↦ False) (Program.when c Proc.dumpNodes) fun _ ↦ True :=
    scanning_dumpNodes
  rw [ends_locked]
  refine ends_scanning_bind hdump (fun _ s₁ _ h₁ ↦ ?_) fun e s₁ _ h₁ ↦ hcores h₁ (.refl s₁)
  exact (hp s₁).mono (fun _ _ h' ↦ hcores h₁ h') fun _ _ h' ↦ hcores h₁ h'

end Last

/-! ### What a call leaves -/

/-- What a call of `update_provision_status` that returns makes of its decisions. -/
structure Decided (cfg : Config) (answers : UpdateAnswers) (s s' : State) : Prop where
  existing : s'.existing = s.existing ++ (s.provisionScratch cfg answers).readyToUse
  deleting : s'.deleting = s.deleting ++ (s.provisionScratch cfg answers).toDelete.map Prod.fst
  kept : ∀ v ∈ s.starting, v ∈ s'.tracked

/-- A call decides nothing about a VM. -/
structure Undecided (cfg : Config) (answers : UpdateAnswers) (s : State) (v : VmRef) : Prop where
  notReady : v ∉ (s.provisionScratch cfg answers).readyToUse
  notGivenUp : v ∉ (s.provisionScratch cfg answers).toDelete.map Prod.fst

/-- What a call of `update_provision_status` leaves, whether it returns or raises. -/
structure Updated (cfg : Config) (answers : UpdateAnswers) (s s' : State) : Prop where
  wellFormed : WellFormed s'
  starts : Starts s s'
  undecided : ∀ v ∈ s.starting, Undecided cfg answers s v → v ∈ s'.starting

section Update

variable {cfg : Config} {answers : UpdateAnswers} {s s₁ s₂ s₃ s' : State} {v : VmRef}

theorem Provisioned.starts (h : Provisioned s s₁) : Starts s s₁ :=
  .of_eq h.nextVm.ge h.starting fun v _ hready ↦
    h.untouched v fun htouched ↦ absurd (hready.symm.trans htouched.2) (by decide)

/-- VMs that leave a list without repetitions are not in it any more. -/
theorem Starts.of_diff {vs : List VmRef} (hnodup : s.starting.Nodup)
    (hstarting : s'.starting = s.starting.diff vs) (hnextVm : s'.nextVm = s.nextVm)
    (hvms : ∀ v, v ∉ vs → s'.vms v = s.vms v) : Starts s s' where
  nextVm := hnextVm.ge
  starting := fun _ hv ↦ .inl (List.diff_subset _ _ (hstarting ▸ hv))
  vms := fun v _ hv _ ↦ hvms v (hnodup.mem_sdiff_iff.1 (hstarting ▸ hv)).2

/-- **`update_provision_status`, decided.** -/
theorem ends_updateProvisionStatus_decided (hs : WellFormed s) :
    Ends ((updateProvisionStatus cfg answers).exec cfg) s
      (fun _ s' ↦ Updated cfg answers s s' ∧ Decided cfg answers s s')
      fun _ s' ↦ Updated cfg answers s s' := by
  -- what the scan and the commit leave of an undecided VM
  have hscanned : ∀ {s₁}, Provisioned s s₁ → WellFormed s₁ := by
    intro s₁ h₁
    have hmoves : Moves (fun _ ↦ False) s s₁ := .of_scanned h₁
    exact hmoves.wellFormed hs
  have hcommitted : ∀ {s₁ s₂ done}, Provisioned s s₁ → Readied cfg done s₁ s₂ →
      WellFormed s₂ := by
    intro s₁ s₂ done h₁ h₂
    have hmoves : Moves (fun _ ↦ False) s₁ s₂ := h₂.moves
    exact hmoves.wellFormed (hscanned h₁)
  have hreadied : ∀ {s₁ s₂ done}, Provisioned s s₁ → Readied cfg done s₁ s₂ → Starts s s₂ := by
    intro s₁ s₂ done h₁ h₂
    exact (Provisioned.starts h₁).trans hs
      (.of_diff (hscanned h₁).partition.starting h₂.starting h₂.nextVm h₂.untouched)
  have hstays₂ : ∀ {s₁ s₂ done}, Provisioned s s₁ → Readied cfg done s₁ s₂ →
      done <+: (s.provisionScratch cfg answers).readyToUse →
      ∀ v ∈ s.starting, Undecided cfg answers s v → v ∈ s₂.starting := by
    intro s₁ s₂ done h₁ h₂ hdone v hv hundecided
    rw [h₂.starting, h₁.starting]
    exact List.mem_diff_of_mem hv fun hmem ↦ hundecided.notReady (hdone.subset hmem)
  have hgivenUp : ∀ {s₁ s₂ s₃ done}, Provisioned s s₁ →
      Readied cfg (s.provisionScratch cfg answers).readyToUse s₁ s₂ →
      done <+: (s.provisionScratch cfg answers).toDelete →
      GivenUp (fun _ _ _ _ ↦ True) done s₂ s₃ → Updated cfg answers s s₃ := by
    intro s₁ s₂ s₃ done h₁ h₂ hdone h₃
    have hwell₂ : WellFormed s₂ := hcommitted h₁ h₂
    have hmoves : Moves (fun _ ↦ False) s₂ s₃ := h₃.moves
    refine ⟨hmoves.wellFormed hwell₂, ?_, fun v hv hundecided ↦ ?_⟩
    · exact (hreadied h₁ h₂).trans hs
        (.of_diff hwell₂.partition.starting h₃.starting h₃.nextVm h₃.untouched)
    · rw [h₃.starting]
      refine List.mem_diff_of_mem (hstays₂ h₁ h₂ (List.prefix_refl _) v hv hundecided) ?_
      intro hmem
      obtain ⟨vr, hvr, rfl⟩ := List.mem_map.1 hmem
      exact hundecided.notGivenUp (List.mem_map_of_mem (hdone.subset hvr))
  refine ends_updateProvisionStatus (fun _ _ _ _ ↦ True) hs.partition.starting
    (fun _ _ _ _ _ _ ↦ trivial) ?_ ?_ ?_ ?_
  · exact fun e s₁ _ h₁ ↦
      ⟨hscanned h₁, Provisioned.starts h₁, fun v hv _ ↦ h₁.starting ▸ hv⟩
  · intro e s₁ s₂ done w _ h₁ hdone h₂ hw _
    have hwell₂ : WellFormed s₂ := hcommitted h₁ h₂
    have hdrop : Moves (fun _ ↦ True) s₂ { s₂ with starting := s₂.starting.erase w } :=
      moves_dropStarting hw trivial
    refine ⟨hdrop.wellFormed hwell₂, ?_, fun v hv hundecided ↦ ?_⟩
    · exact (hreadied h₁ h₂).trans hs
        ⟨le_rfl, fun v hv ↦ .inl (List.mem_of_mem_erase hv), fun _ _ _ _ ↦ rfl⟩
    · have hstays : v ∈ s₂.starting :=
        hstays₂ h₁ h₂ ((List.prefix_append _ _).trans hdone) v hv hundecided
      have hne : v ≠ w := fun h ↦ hundecided.notReady (hdone.subset (by simp [h]))
      exact (List.mem_erase_of_ne hne).2 hstays
  · exact fun e s₁ s₂ s₃ done _ h₁ h₂ hdone h₃ ↦ hgivenUp h₁ h₂ hdone h₃
  · intro s₁ s₂ s₃ h₁ h₂ h₃ _ _
    have h := hgivenUp h₁ h₂ (List.prefix_refl _) h₃
    have hmoves : Moves (fun _ ↦ False) s s₃ :=
      ((Moves.of_scanned h₁).trans h₂.moves).trans h₃.moves
    have hupdated : ∀ {s'}, Launches s₃ s' → Updated cfg answers s s' := fun h' ↦
      { wellFormed := h'.moves.wellFormed h.wellFormed
        starts := h.starts.trans hs (h'.starts h.wellFormed)
        undecided := fun v hv hundecided ↦ h'.mem_starting (h.undecided v hv hundecided) }
    refine (ends_lastPart _ fun s ↦ ends_finishProvisioning_launches answers.launch).mono
      (fun _ s' h' ↦ ⟨hupdated h', ?_, ?_, fun v hv ↦ ?_⟩) fun _ s' h' ↦ hupdated h'
    · rw [h'.existing, h₃.existing, h₂.existing, h₁.existing]
    · rw [h'.deleting, h₃.deleting, h₂.deleting, h₁.deleting]
    · exact ((hmoves.trans h'.moves).kept v
        (State.mem_tracked.2 (.inr (.inl hv)))).resolve_right id

end Update

/-! ### VMs that the cloud is building or configuring -/

/-- The first loop of `update_provision_status`. -/
def provisionScan (cfg : Config) (answers : ℕ → ProvisionAnswers) (vs : List VmRef) :
    Proc ProvisionScratch :=
  Program.forEach (fun i v scratch ↦ provisionVisit cfg (answers i) v scratch) 0 vs ⟨[], []⟩

/-- The decision about a VM that the cloud is building or configuring. -/
theorem outcome_of_building {cfg : Config} {answers : ProvisionAnswers} {vm : VM}
    {report : ServerReport} (hready : vm.cloudReady = false)
    (hreport : answers.report = some report)
    (hstate : cloudState (some report) = .configuring ∨ cloudState (some report) = .building) :
    answers.outcome cfg vm =
      if cfg.maxInaccessibleTime < timedeltaSeconds report.created answers.now then .givenUp none
      else .stays := by
  rw [ProvisionAnswers.outcome, if_neg (by simp [hready]), hreport, ProvisionAnswers.overdue,
    hreport]
  rcases hstate with hstate | hstate
  · simp [hstate]
  · simp [hstate]

/-- **The time limit for building and configuring.** The scan of `update_provision_status` puts a VM
whose age in whole seconds is `a` on the delete list exactly when `a` exceeds the limit, if and only
if `a` does not exceed the limit, or what is left of `a` after whole days does. -/
theorem timed_out_iff (cfg : Config) (answers : ℕ → ProvisionAnswers) (s s₁ : State)
    (scratch : ProvisionScratch) (i : ℕ) (v : VmRef) (report : ServerReport)
    (hnodup : s.starting.Nodup) (hget : s.starting[i]? = some v)
    (hready : (s.vms v).cloudReady = false) (hreport : (answers i).report = some report)
    (hstate : cloudState (some report) = .configuring ∨ cloudState (some report) = .building)
    (hage : report.created ≤ (answers i).now)
    (hscan : (provisionScan cfg answers s.starting).exec cfg s = .ok scratch s₁) :
    ((∃ record, (v, record) ∈ scratch.toDelete) ↔
        cfg.maxInaccessibleTime < wholeSeconds report.created (answers i).now) ↔
      wholeSeconds report.created (answers i).now ≤ cfg.maxInaccessibleTime ∨
        cfg.maxInaccessibleTime <
          wholeSeconds report.created (answers i).now % secondsPerDay := by
  obtain ⟨rfl, -, -⟩ := (ends_provisionScan hnodup).of_ok hscan
  have houtcome : (answers i).outcome cfg (s.vms v) =
      if cfg.maxInaccessibleTime < timedeltaSeconds report.created (answers i).now then
        .givenUp none
      else .stays := outcome_of_building hready hreport hstate
  have hlisted : (∃ record, (v, record) ∈
      (provisionScratch cfg answers s.vms s.starting).toDelete) ↔
        cfg.maxInaccessibleTime < timedeltaSeconds report.created (answers i).now := by
    constructor
    · rintro ⟨record, hmem⟩
      obtain ⟨j, hget', hgivenUp⟩ := mem_toDelete.1 hmem
      have hi : i < s.starting.length := (List.getElem?_eq_some_iff.1 hget).1
      obtain rfl : i = j := (List.getElem?_inj hi hnodup).1 (hget.trans hget'.symm)
      rw [houtcome] at hgivenUp
      split at hgivenUp
      · rename_i hlate
        exact hlate
      · cases hgivenUp
    · intro hlate
      refine ⟨none, mem_toDelete.2 ⟨i, hget, ?_⟩⟩
      rw [houtcome, if_pos hlate]
  rw [hlisted]
  exact lt_timedeltaSeconds_iff hage

/-- A VM that starts, and a report of its server. -/
def oneBuilding : State :=
  { State.initial JobScheduler.threeNodes with
    starting := [0]
    nextVm := 1
    vms := fun _ ↦ VM.init "id" "wn1" 4 (some (.id "3")) 0 none (some "image") "default" }

/-- The server is still being built; the instants are in microseconds. -/
def stillBuilding (now : Time) : ProvisionAnswers where
  report := some ⟨"BUILD", 0, "building", some "spawning", none, "image", none, none, false⟩
  now := now
  addNode := fun _ ↦ true
  checkNode := fun _ ↦ none
  wnQuery := (true, [])
  wnInTorque := .notLocated

/-- After 901 seconds the VM is given up, as it should be. -/
theorem timed_out_iff_oneBuilding :
    ((∃ record, (0, record) ∈ (⟨[(0, none)], []⟩ : ProvisionScratch).toDelete) ↔
        900 < wholeSeconds 0 901000000) ↔
      wholeSeconds 0 901000000 ≤ 900 ∨ 900 < wholeSeconds 0 901000000 % secondsPerDay :=
  timed_out_iff {} (fun _ ↦ stillBuilding 901000000) oneBuilding _ ⟨[(0, none)], []⟩ 0 0 _
    (by decide) rfl rfl rfl (.inr (by decide)) (by decide) rfl

/-- A VM that is a day old is not. -/
theorem old_vm_kept :
    ¬∀ (cfg : Config) (answers : ℕ → ProvisionAnswers) (s s₁ : State) (scratch : ProvisionScratch)
      (i : ℕ) (v : VmRef) (report : ServerReport), 0 ≤ cfg.maxInaccessibleTime →
      s.starting.Nodup → s.starting[i]? = some v → (s.vms v).cloudReady = false →
      (answers i).report = some report →
      cloudState (some report) = .configuring ∨ cloudState (some report) = .building →
      report.created ≤ (answers i).now →
      (provisionScan cfg answers s.starting).exec cfg s = .ok scratch s₁ →
      ((∃ record, (v, record) ∈ scratch.toDelete) ↔
        cfg.maxInaccessibleTime < wholeSeconds report.created (answers i).now) := by
  intro h
  have hlisted := (h {} (fun _ ↦ stillBuilding 86400000000) oneBuilding _ ⟨[], []⟩ 0 0 _
    (by decide) (by decide) rfl rfl rfl (.inr (by decide)) (by decide) rfl).2 (by decide)
  obtain ⟨record, hmem⟩ := hlisted
  exact absurd hmem List.not_mem_nil

end DynamicTorque
