import DynamicTorque.LifeCycle.Checks
import DynamicTorque.LifeCycle.Ready
import Mathlib.Data.List.Induction

/-!
# What `update_provision_status` decides

The first loop of `update_provision_status` only looks. What it decides about a VM depends on the
VM as it was before the call and on the answers during its visit, not on the other VMs:
`provisionScratch` replays the decisions without executing anything, and `ends_provisionScan` says
that the loop comes to the same.
-/

open Python Atomic Program

namespace DynamicTorque

/-! ### One visit -/

/-- Whether a VM that the cloud reports is still not ready after `max_inaccessible_time`. -/
def ProvisionAnswers.overdue (cfg : Config) (answers : ProvisionAnswers) : Bool :=
  match answers.report with
  | none => false
  | some report => timedeltaSeconds report.created answers.now > cfg.maxInaccessibleTime

/-- What becomes of a starting VM in its visit, if nothing raises. -/
def ProvisionAnswers.outcome (cfg : Config) (answers : ProvisionAnswers) (vm : VM) : Outcome :=
  if vm.cloudReady then
    match answers.wnInTorque with
    | .record wn =>
      if wn.state = "free" ∨ wn.state = "job-exclusive" then .ready
      else if longerThan vm.stateTime cfg.maxInaccessibleTime then .givenUp (some wn)
      else .stays
    | .error | .notLocated => .stays
  else
    match cloudState answers.report with
    | .ready => answers.torqueOutcome
    | .configuring | .building => if answers.overdue cfg then .givenUp none else .stays
    | .destroyed | .error => .givenUp none

/-- What a VM would be asked for again with, if both are known. -/
def VM.request (vm : VM) : Option FlavorRef × Option String :=
  (vm.flavor, vm.availabilityZone)

/-- A VM that is given up is asked for again. -/
def VM.Requestable (vm : VM) : Prop :=
  vm.flavor.isSome ∧ vm.availabilityZone.isSome

/-- A VM that is given up after its visit is asked for again: its flavour and zone were known, or
have been read from the cloud. -/
def ProvisionAnswers.AsksAgain (answers : ProvisionAnswers) (vm : VM) : Prop :=
  (vm.cloudReady = false ∧
    (cloudState answers.report = .ready ∨ cloudState answers.report = .configuring)) ∨
  vm.Requestable

/-- A VM after its visit, if nothing raises. -/
def VM.visited (cfg : Config) (answers : ProvisionAnswers) (vm : VM) : VM :=
  if vm.cloudReady then vm
  else
    match cloudState answers.report with
    | .ready => { vm.checked cfg answers.report with cloudReady := true }
    | .configuring => { vm.checked cfg answers.report with postProvisionCommandExecuted := true }
    | .building | .destroyed | .error => vm.checked cfg answers.report

/-- Besides the two flags, a visit leaves what the check does. -/
theorem VM.visited_attribute {β : Type} (g : VM → β) {cfg : Config}
    (hready : ∀ vm b, g { vm with cloudReady := b } = g vm)
    (hexecuted : ∀ vm b, g { vm with postProvisionCommandExecuted := b } = g vm)
    (answers : ProvisionAnswers) (vm : VM) :
    g (vm.visited cfg answers) =
      if vm.cloudReady then g vm else g (vm.checked cfg answers.report) := by
  rw [VM.visited]
  split
  · rfl
  · split
    · exact hready _ _
    · exact hexecuted _ _
    · rfl
    · rfl
    · rfl

/-! ### Attributes that a visit keeps -/

section Keep

variable {β : Type} {cfg : Config} {s : State} {v : VmRef} {g : VM → β}

/-- The steps that keep an attribute of every VM. -/
def Act.KeepsAttribute (g : VM → β) : Act → Prop
  | .vm _ | .resources | .emit _ => True
  | .setVm _ f => ∀ vm, g (f vm) = g vm
  | _ => False

/-- A program that keeps an attribute of every VM. -/
abbrev KeepsAttribute {α : Type} (g : VM → β) (p : Proc α) : Prop :=
  p.Within (Act.KeepsAttribute g) (fun _ ↦ True) fun _ ↦ True

theorem keeps_attribute (cfg : Config) (v : VmRef) (x : β) :
    Keeps (exec cfg) (Act.KeepsAttribute g) (fun s ↦ g (s.vms v) = x) fun _ ↦ True := by
  intro a ha s hs
  cases a with
  | vm w => exact hs
  | resources => exact hs
  | emit e => exact hs
  | setVm w f =>
    show g ((s.setVm w f).vms v) = x
    have hkeep : ∀ vm, g (f vm) = g vm := ha
    by_cases hw : v = w
    · subst hw
      simpa [State.setVm, hkeep] using hs
    · simpa [State.setVm, hw] using hs
  | _ => exact ha.elim

/-- The attribute after the program. -/
theorem KeepsAttribute.ends {α : Type} {p : Proc α} (h : KeepsAttribute g p) :
    Ends (p.exec cfg) s (fun _ s' ↦ g (s'.vms v) = g (s.vms v)) fun _ _ ↦ True :=
  (ends_run_of_within (keeps_attribute cfg v (g (s.vms v))) h rfl).mono (fun _ _ h ↦ h.2)
    fun _ _ _ ↦ trivial

theorem keepsAttribute_postProvision
    (hg : ∀ vm b, g { vm with postProvisionCommandExecuted := b } = g vm) :
    KeepsAttribute g (postProvision cfg v) :=
  within_postProvision (fun _ ↦ trivial) trivial (fun _ _ ↦ trivial) trivial (fun _ ↦ hg _ _)
    fun _ _ ↦ trivial

end Keep

section Visit

variable {cfg : Config} {s : State} {v : VmRef}

/-- `vm_check` sets the start time to the one that the cloud reports. -/
theorem ends_vmCheck_startTime (report : ServerReport) :
    Ends ((vmCheck cfg v (some report)).exec cfg) s
      (fun _ s' ↦ (s'.vms v).startTime = report.created) fun _ _ ↦ True := by
  refine (ends_vmCheck (some report)).mono (fun _ s' h ↦ ?_) fun _ _ _ ↦ trivial
  rw [h.2.2, State.setVm_vms_self, VM.checked]
  split <;> rfl

theorem ends_addToTorque_visited (answers : ProvisionAnswers) (scratch : ProvisionScratch) :
    Ends ((addToTorque cfg answers v scratch).exec cfg) s
      (fun _ s' ↦ s'.vms v = { s.vms v with cloudReady := true })
      fun _ s' ↦ s'.vms v = { s.vms v with cloudReady := true } := by
  rw [addToTorque, ends_setVm]
  have hrest := scanning_addToTorque_rest cfg (.looking fun _ ↦ False) answers v scratch
  refine (ends_of_scanning hrest _).mono (fun _ s' h ↦ ?_) fun _ s' h ↦ ?_
  · rw [h.2.untouched v id, State.setVm_vms_self]
  · rw [h.2.untouched v id, State.setVm_vms_self]

theorem ends_postProvision_visited :
    Ends ((postProvision cfg v).exec cfg) s
      (fun _ s' ↦ s'.vms v = { s.vms v with postProvisionCommandExecuted := true })
      fun _ _ ↦ True := by
  rw [postProvision, ends_vm]
  split
  · rename_i hexecuted
    show s.vms v = _
    rw [← hexecuted]
  · refine ends_lift_bind (fun _ _ ↦ ?_) fun _ _ ↦ trivial
    rw [ends_emit, Proc.exec, run_bind, ends_bind]
    have hfirewall : Scanning (.looking fun _ ↦ False)
        (Program.when ((s.vms v).cloudResourceName = "default") (openFirewall cfg v))
        fun _ ↦ True := within_when fun _ ↦ scanning_openFirewall v
    refine (ends_of_scanning hfirewall _).mono (fun _ s₁ h₁ ↦ ?_) fun _ _ _ ↦ trivial
    show (s₁.setVm v _).vms v = _
    rw [State.setVm_vms_self, h₁.2.untouched v id]
    rfl

theorem ends_giveUpIfOverdue_same (now : Time) (scratch : ProvisionScratch) :
    Ends ((giveUpIfOverdue cfg now v scratch).exec cfg) s (fun _ s' ↦ s' = s) fun _ _ ↦ False := by
  rw [giveUpIfOverdue, ends_vm]
  split <;> exact rfl

/-- **What one visit leaves of its VM.** -/
theorem ends_provisionVisit_visited (answers : ProvisionAnswers) (scratch : ProvisionScratch) :
    Ends ((provisionVisit cfg answers v scratch).exec cfg) s
      (fun _ s' ↦ s'.vms v = (s.vms v).visited cfg answers) fun _ _ ↦ True := by
  rw [provisionVisit, ends_vm, VM.visited]
  cases hready : (s.vms v).cloudReady with
  | true =>
    rw [if_pos rfl, if_pos rfl, pollTorque]
    cases answers.wnInTorque with
    | record wn =>
      dsimp only
      split
      · exact rfl
      · rw [ends_vm]
        split <;> exact rfl
    | error => exact rfl
    | notLocated => exact rfl
  | false =>
    rw [if_neg Bool.false_ne_true, if_neg Bool.false_ne_true, pollCloud, Proc.exec, run_bind,
      ends_bind]
    refine (ends_vmCheck answers.report).mono ?_ fun _ _ _ ↦ trivial
    rintro state s₁ ⟨-, rfl, rfl⟩
    have hchecked : (s.setVm v (VM.checked cfg answers.report)).vms v =
        (s.vms v).checked cfg answers.report := State.setVm_vms_self ..
    cases cloudState answers.report with
    | ready =>
      refine (ends_addToTorque_visited answers scratch).mono (fun _ s₂ h₂ ↦ ?_)
        fun _ _ _ ↦ trivial
      rw [h₂, hchecked]
    | configuring =>
      show Ends ((postProvision cfg v >>= _).exec cfg) _ _ _
      rw [Proc.exec, run_bind, ends_bind]
      refine ends_postProvision_visited.mono (fun _ s₂ h₂ ↦ ?_) fun _ _ h ↦ h
      refine (ends_giveUpIfOverdue_same answers.now scratch).mono ?_ fun _ _ h ↦ h.elim
      rintro - _ rfl
      rw [h₂, hchecked]
    | building =>
      refine (ends_giveUpIfOverdue_same answers.now scratch).mono ?_ fun _ _ h ↦ h.elim
      rintro - _ rfl
      exact hchecked
    | destroyed => exact hchecked
    | error => exact hchecked

/-- The decision about a VM that the cloud still knows. -/
theorem ends_giveUpIfOverdue {answers : ProvisionAnswers} {report : ServerReport}
    (hreport : answers.report = some report) (hstart : (s.vms v).startTime = report.created)
    (scratch : ProvisionScratch) :
    Ends ((giveUpIfOverdue cfg answers.now v scratch).exec cfg) s
      (fun scratch' s' ↦ scratch' = Outcome.add v scratch
        (if answers.overdue cfg then .givenUp none else .stays) ∧ s' = s) fun _ _ ↦ False := by
  rw [giveUpIfOverdue, ends_vm, hstart, ProvisionAnswers.overdue, hreport]
  split
  · rename_i hoverdue
    simp [hoverdue, Outcome.add]
  · rename_i hoverdue
    simp [hoverdue, Outcome.add]

/-- **One visit.** The outcome depends on the VM and on the answers only. A VM that is polled in
Torque is left alone. -/
theorem ends_provisionVisit (answers : ProvisionAnswers) (scratch : ProvisionScratch) :
    Ends ((provisionVisit cfg answers v scratch).exec cfg) s
      (fun scratch' s' ↦ scratch' = (answers.outcome cfg (s.vms v)).add v scratch ∧
        Scanned (.looking (· = v)) s s' ∧ ((s.vms v).cloudReady = true → s' = s))
      fun e s' ↦ NotFromRemove e ∧ Scanned (.looking (· = v)) s s' ∧
        (s.vms v).cloudReady = false := by
  rw [provisionVisit, ends_vm, ProvisionAnswers.outcome]
  cases hready : (s.vms v).cloudReady with
  | true =>
    -- Nothing but reads.
    rw [if_pos rfl, if_pos rfl, pollTorque]
    cases answers.wnInTorque with
    | record wn =>
      dsimp only
      split
      · exact ⟨rfl, .refl s, fun _ ↦ rfl⟩
      · rw [ends_vm]
        split
        · exact ⟨rfl, .refl s, fun _ ↦ rfl⟩
        · exact ⟨rfl, .refl s, fun _ ↦ rfl⟩
    | error => exact ⟨rfl, .refl s, fun _ ↦ rfl⟩
    | notLocated => exact ⟨rfl, .refl s, fun _ ↦ rfl⟩
  | false =>
    have hnotReady : ∀ {s'}, false = true → s' = s := fun hfalse ↦ absurd hfalse Bool.false_ne_true
    rw [if_neg Bool.false_ne_true, if_neg Bool.false_ne_true, pollCloud, Proc.exec, run_bind,
      ends_bind]
    have hcheck : Scanning (.looking (· = v)) (vmCheck cfg v answers.report)
        fun state ↦ state = cloudState answers.report := scanning_vmCheck rfl _
    have hscan : Ends ((vmCheck cfg v answers.report).exec cfg) s
        (fun state s' ↦ state = cloudState answers.report ∧ Scanned (.looking (· = v)) s s')
        fun e s' ↦ NotFromRemove e ∧ Scanned (.looking (· = v)) s s' := ends_of_scanning hcheck s
    cases hreport : answers.report with
    | none =>
      rw [hreport] at hscan
      refine hscan.mono ?_ fun _ _ h ↦ ⟨h.1, h.2, rfl⟩
      rintro state s₁ ⟨rfl, h₁⟩
      exact ⟨rfl, h₁, hnotReady⟩
    | some report =>
      rw [hreport] at hscan
      refine (hscan.and (ends_vmCheck_startTime report)).mono ?_ fun _ _ h ↦ ⟨h.1.1, h.1.2, rfl⟩
      rintro state s₁ ⟨⟨rfl, h₁⟩, hstart⟩
      cases hstate : cloudState (some report) with
      | ready =>
        have hadd : Scanning (.looking (· = v)) (addToTorque cfg answers v scratch)
            fun scratch' ↦ scratch' = answers.torqueOutcome.add v scratch :=
          scanning_addToTorque rfl answers scratch
        refine (ends_of_scanning hadd s₁).mono ?_ ?_
        · rintro scratch' s₂ ⟨rfl, h₂⟩
          exact ⟨rfl, h₁.trans h₂, hnotReady⟩
        · exact fun _ _ h ↦ ⟨h.1, h₁.trans h.2, rfl⟩
      | configuring =>
        dsimp only
        rw [run_bind, ends_bind]
        have hscan' : Scanning (.looking (· = v)) (postProvision cfg v) fun _ ↦ True :=
          scanning_postProvision rfl
        have hpost : Ends ((postProvision cfg v).exec cfg) s₁
            (fun _ s' ↦ True ∧ Scanned (.looking (· = v)) s₁ s')
            fun e s' ↦ NotFromRemove e ∧ Scanned (.looking (· = v)) s₁ s' :=
          ends_of_scanning hscan' s₁
        have hkeep : Ends ((postProvision cfg v).exec cfg) s₁
            (fun _ s' ↦ (s'.vms v).startTime = (s₁.vms v).startTime) fun _ _ ↦ True :=
          (keepsAttribute_postProvision fun _ _ ↦ rfl).ends
        refine (hpost.and hkeep).mono ?_ fun _ _ h ↦ ⟨h.1.1, h₁.trans h.1.2, rfl⟩
        rintro - s₂ ⟨⟨-, h₂⟩, hstart₂⟩
        refine (ends_giveUpIfOverdue hreport (hstart₂.trans hstart) scratch).mono ?_
          fun _ _ h ↦ h.elim
        rintro scratch' s₃ ⟨rfl, rfl⟩
        exact ⟨rfl, h₁.trans h₂, hnotReady⟩
      | building =>
        refine (ends_giveUpIfOverdue hreport hstart scratch).mono ?_ fun _ _ h ↦ h.elim
        rintro scratch' s₃ ⟨rfl, rfl⟩
        exact ⟨rfl, h₁, hnotReady⟩
      | destroyed => exact ⟨rfl, h₁, hnotReady⟩
      | error => exact ⟨rfl, h₁, hnotReady⟩

/-- A VM that is asked for again after its visit is one that `AsksAgain` predicts. -/
theorem asksAgain_of_visited {answers : ProvisionAnswers} {vm : VM}
    (h : (vm.visited cfg answers).Requestable) : answers.AsksAgain vm := by
  rw [VM.visited] at h
  cases hready : vm.cloudReady with
  | true =>
    rw [if_pos hready] at h
    exact .inr h
  | false =>
    rw [if_neg (by simp [hready])] at h
    -- flavour and zone are those after the check
    have hchecked : (vm.checked cfg answers.report).Requestable := by
      split at h <;> exact h
    rw [VM.checked.eq_def] at hchecked
    split at hchecked
    · exact .inr hchecked
    · rename_i report hreport
      split at hchecked
      · rename_i hup
        exact .inl ⟨hready, hreport ▸ hup⟩
      · exact .inr hchecked

end Visit

/-! ### The loop -/

def Outcome.ready? (v : VmRef) : Outcome → Option VmRef
  | .ready => some v
  | .givenUp _ | .stays => none

def Outcome.givenUp? (v : VmRef) : Outcome → Option (VmRef × Option WorkerNode)
  | .givenUp record => some (v, record)
  | .ready | .stays => none

/-- The decisions of the first loop of `update_provision_status` over the VMs `vs`. -/
def provisionScratch (cfg : Config) (answers : ℕ → ProvisionAnswers) (vms : VmRef → VM)
    (vs : List VmRef) : ProvisionScratch where
  toDelete := vs.zipIdx.filterMap fun vi ↦
    ((answers vi.2).outcome cfg (vms vi.1)).givenUp? vi.1
  readyToUse := vs.zipIdx.filterMap fun vi ↦
    ((answers vi.2).outcome cfg (vms vi.1)).ready? vi.1

section Loop

variable {cfg : Config} {answers : ℕ → ProvisionAnswers} {vms : VmRef → VM} {vs : List VmRef}
  {v : VmRef}

theorem provisionScratch_append_singleton (vs : List VmRef) (v : VmRef) :
    provisionScratch cfg answers vms (vs ++ [v]) =
      ((answers vs.length).outcome cfg (vms v)).add v (provisionScratch cfg answers vms vs) := by
  simp only [provisionScratch, List.zipIdx_append, List.filterMap_append, Nat.zero_add,
    List.zipIdx_singleton]
  cases h : (answers vs.length).outcome cfg (vms v) <;>
    simp [h, Outcome.add, Outcome.ready?, Outcome.givenUp?]

theorem mem_readyToUse : v ∈ (provisionScratch cfg answers vms vs).readyToUse ↔
    ∃ i, vs[i]? = some v ∧ (answers i).outcome cfg (vms v) = .ready := by
  simp only [provisionScratch, List.mem_filterMap, Prod.exists, List.mk_mem_zipIdx_iff_getElem?]
  constructor
  · rintro ⟨w, i, hget, h⟩
    cases houtcome : (answers i).outcome cfg (vms w) with
    | ready =>
      rw [houtcome] at h
      obtain rfl := Option.some.inj h
      exact ⟨i, hget, houtcome⟩
    | givenUp record => rw [houtcome] at h; cases h
    | stays => rw [houtcome] at h; cases h
  · rintro ⟨i, hget, houtcome⟩
    exact ⟨v, i, hget, by rw [houtcome]; rfl⟩

theorem mem_toDelete {record : Option WorkerNode} :
    (v, record) ∈ (provisionScratch cfg answers vms vs).toDelete ↔
      ∃ i, vs[i]? = some v ∧ (answers i).outcome cfg (vms v) = .givenUp record := by
  simp only [provisionScratch, List.mem_filterMap, Prod.exists, List.mk_mem_zipIdx_iff_getElem?]
  constructor
  · rintro ⟨w, i, hget, h⟩
    cases houtcome : (answers i).outcome cfg (vms w) with
    | givenUp record' =>
      rw [houtcome] at h
      obtain ⟨rfl, rfl⟩ := Prod.mk.inj (Option.some.inj h)
      exact ⟨i, hget, houtcome⟩
    | ready => rw [houtcome] at h; cases h
    | stays => rw [houtcome] at h; cases h
  · rintro ⟨i, hget, houtcome⟩
    exact ⟨v, i, hget, by rw [houtcome]; rfl⟩

/-- An outcome puts its VM in one place at most. -/
theorem Outcome.subperm_add {scratch : ProvisionScratch} {done : List VmRef} (outcome : Outcome)
    (h : (scratch.readyToUse ++ scratch.toDelete.map Prod.fst).Subperm done) :
    ((outcome.add v scratch).readyToUse ++
      (outcome.add v scratch).toDelete.map Prod.fst).Subperm (done ++ [v]) := by
  have hadd : ([v] ++ (scratch.readyToUse ++ scratch.toDelete.map Prod.fst)).Subperm
      (done ++ [v]) :=
    ((List.subperm_append_left [v]).2 h).trans List.perm_append_comm.subperm
  cases outcome with
  | ready =>
    refine List.Subperm.trans (List.Perm.subperm ?_) hadd
    rw [Outcome.add, List.append_assoc]
    exact List.perm_append_comm_assoc _ _ _
  | givenUp record =>
    refine List.Subperm.trans (List.Perm.subperm ?_) hadd
    rw [Outcome.add, List.map_append, ← List.append_assoc]
    exact List.perm_append_comm
  | stays => exact h.trans (List.sublist_append_left _ _).subperm

/-- No VM is put in two places. -/
theorem provisionScratch_subperm :
    ((provisionScratch cfg answers vms vs).readyToUse ++
      (provisionScratch cfg answers vms vs).toDelete.map Prod.fst).Subperm vs := by
  induction vs using List.reverseRecOn with
  | nil => exact .refl _
  | append_singleton vs v ih =>
    rw [provisionScratch_append_singleton]
    exact Outcome.subperm_add _ ih

/-- The VMs that will not be asked for again if they are given up. -/
def Unrequestable (answers : ℕ → ProvisionAnswers) (vs : List VmRef) (s s' : State) : Prop :=
  ∀ (i : ℕ) v, vs[i]? = some v → ¬(answers i).AsksAgain (s.vms v) → ¬(s'.vms v).Requestable

/-- What the first loop leaves of each VM. -/
theorem ends_provisionScan_visited {s : State} (hnodup : s.starting.Nodup) :
    Ends (Proc.exec (forEach (fun i v scratch ↦ provisionVisit cfg (answers i) v scratch) 0
      s.starting ⟨[], []⟩) cfg) s
      (fun _ s' ↦ ∀ (i : ℕ) v, s.starting[i]? = some v →
        s'.vms v = (s.vms v).visited cfg (answers i)) fun _ _ ↦ True := by
  refine (ends_forEach (I := fun done _ s' ↦
    (∀ (i : ℕ) v, done[i]? = some v → s'.vms v = (s.vms v).visited cfg (answers i)) ∧
      ∀ v, v ∉ done → s'.vms v = s.vms v) ?_ ⟨by simp, fun _ _ ↦ rfl⟩).mono
    (fun _ _ h ↦ h.1) fun _ _ h ↦ h
  rintro done v rest scratch s₁ hdone ⟨hvisited, hsame⟩
  have hfresh : v ∉ done := notMem_of_nodup hdone hnodup
  refine ((ends_provisionVisit (answers done.length) _).and
    (ends_provisionVisit_visited (answers done.length) _)).mono ?_ fun _ _ _ ↦ trivial
  rintro scratch' s₂ ⟨⟨-, h₂, -⟩, hvisit⟩
  refine ⟨fun i w hget ↦ ?_, fun w hw ↦ ?_⟩
  · rcases getElem?_concat_eq_some hget with hold | ⟨rfl, rfl⟩
    · have hother : w ≠ v := fun h ↦ hfresh (h ▸ List.mem_of_getElem? hold)
      rw [h₂.untouched w hother]
      exact hvisited i w hold
    · rw [hvisit, hsame w hfresh]
  · rw [List.mem_append, not_or] at hw
    exact (h₂.untouched w fun h ↦ hw.2 (List.mem_singleton.2 h)).trans (hsame w hw.1)

/-- **The first loop.** It comes to the decisions that the replay predicts, and leaves the VMs
alone that it has polled in Torque. -/
theorem ends_provisionScan {s : State} (hnodup : s.starting.Nodup) :
    Ends (Proc.exec (forEach (fun i v scratch ↦ provisionVisit cfg (answers i) v scratch) 0
      s.starting ⟨[], []⟩) cfg) s
      (fun scratch s' ↦ scratch = provisionScratch cfg answers s.vms s.starting ∧
        Scanned (.looking fun v ↦ v ∈ s.starting ∧ (s.vms v).cloudReady = false) s s' ∧
        Unrequestable answers s.starting s s')
      fun e s' ↦ NotFromRemove e ∧
        Scanned (.looking fun v ↦ v ∈ s.starting ∧ (s.vms v).cloudReady = false) s s' := by
  let scope := Scope.looking fun v ↦ v ∈ s.starting ∧ (s.vms v).cloudReady = false
  have hloop : Ends (Proc.exec (forEach (fun i v scratch ↦
      provisionVisit cfg (answers i) v scratch) 0 s.starting ⟨[], []⟩) cfg) s
      (fun scratch s' ↦ scratch = provisionScratch cfg answers s.vms s.starting ∧
        Scanned scope s s' ∧ ∀ v, v ∉ s.starting → s'.vms v = s.vms v)
      fun e s' ↦ NotFromRemove e ∧ Scanned scope s s' := by
    refine ends_forEach (I := fun done scratch s' ↦
      scratch = provisionScratch cfg answers s.vms done ∧ Scanned scope s s' ∧
        ∀ v, v ∉ done → s'.vms v = s.vms v) ?_ ⟨rfl, .refl s, fun _ _ ↦ rfl⟩
    rintro done v rest scratch s₁ hdone ⟨rfl, h₁, hsame⟩
    have hmem : v ∈ s.starting := hdone ▸ by simp
    have hfresh : v ∉ done := notMem_of_nodup hdone hnodup
    have hvm : s₁.vms v = s.vms v := hsame v hfresh
    -- The visit touches its own VM only, and not even that one once it is ready in the cloud.
    have hwiden : ∀ {s₂}, Scanned (.looking (· = v)) s₁ s₂ →
        ((s.vms v).cloudReady = true → s₂ = s₁) → Scanned scope s s₂ := by
      intro s₂ h₂ hready
      cases hcloud : (s.vms v).cloudReady with
      | true => exact hready hcloud ▸ h₁
      | false => exact h₁.trans (h₂.mono (fun h ↦ h) fun w hw ↦ hw ▸ ⟨hmem, hcloud⟩)
    refine (ends_provisionVisit (answers done.length) _).mono ?_ ?_
    · rintro scratch' s₂ ⟨rfl, h₂, hready⟩
      rw [hvm] at hready
      refine ⟨by rw [provisionScratch_append_singleton, hvm], hwiden h₂ hready, fun w hw ↦ ?_⟩
      rw [List.mem_append, not_or] at hw
      exact (h₂.untouched w fun h ↦ hw.2 (List.mem_singleton.2 h)).trans (hsame w hw.1)
    · rintro e s₂ ⟨he, h₂, hcloud⟩
      rw [hvm] at hcloud
      exact ⟨he, hwiden h₂ fun h ↦ absurd (hcloud.symm.trans h) Bool.false_ne_true⟩
  refine (hloop.and (ends_provisionScan_visited hnodup)).mono (fun scratch s' h ↦ ?_)
    fun _ _ h ↦ h.1
  refine ⟨h.1.1, h.1.2.1, fun i v hget hasks hrequestable ↦ hasks ?_⟩
  rw [h.2 i v hget] at hrequestable
  exact asksAgain_of_visited hrequestable

end Loop

/-! ### Giving VMs up -/

/-- The frame of the second loop, after it has given up the VMs `done`. -/
structure GivenUp (destroys : Destroys) (done : List (VmRef × Option WorkerNode)) (s s' : State) :
    Prop where
  subperm : (done.map Prod.fst).Subperm s.starting
  existing : s'.existing = s.existing
  starting : s'.starting = s.starting.diff (done.map Prod.fst)
  deleting : s'.deleting = s.deleting ++ done.map Prod.fst
  waiting : s.waiting <+: s'.waiting
  resources : s'.resources = s.resources
  nextVm : s'.nextVm = s.nextVm
  provisioning : s'.provisioning = s.provisioning
  sleepMode : s'.sleepMode = s.sleepMode
  vm : ∀ w, SameVm (s.vms w) (s'.vms w)
  untouched : ∀ w, w ∉ done.map Prod.fst → s'.vms w = s.vms w
  trace : Emits (Event.Allowed destroys) s s'

section GiveUp

variable {cfg : Config} {destroys : Destroys} {done : List (VmRef × Option WorkerNode)}
  {s s₁ s' : State} {v : VmRef} {record : Option WorkerNode}

namespace GivenUp

theorem refl (s : State) : GivenUp destroys [] s s where
  subperm := List.nil_subperm
  existing := rfl
  starting := rfl
  deleting := by simp
  waiting := List.prefix_refl _
  resources := rfl
  nextVm := rfl
  provisioning := rfl
  sleepMode := rfl
  vm := fun _ ↦ .refl _
  untouched := fun _ _ ↦ rfl
  trace := .refl s

theorem trans {done' : List (VmRef × Option WorkerNode)} (h : GivenUp destroys done s s₁)
    (h' : GivenUp destroys done' s₁ s') : GivenUp destroys (done ++ done') s s' where
  subperm := by
    rw [List.map_append]
    exact subperm_append h.subperm (h.starting ▸ h'.subperm)
  existing := h'.existing.trans h.existing
  starting := by rw [h'.starting, h.starting, List.map_append, List.diff_append]
  deleting := by rw [h'.deleting, h.deleting, List.map_append, List.append_assoc]
  waiting := h.waiting.trans h'.waiting
  resources := h'.resources.trans h.resources
  nextVm := h'.nextVm.trans h.nextVm
  provisioning := h'.provisioning.trans h.provisioning
  sleepMode := h'.sleepMode.trans h.sleepMode
  vm := fun w ↦ (h.vm w).trans (h'.vm w)
  untouched := fun w hw ↦ by
    rw [List.map_append, List.mem_append, not_or] at hw
    exact (h'.untouched w hw.2).trans (h.untouched w hw.1)
  trace := h.trace.trans h'.trace

/-- A VM is moved after it was destroyed. -/
theorem moved (hmem : v ∈ s.starting) (h : GivenUp destroys [] s s₁)
    (h' : Scanned ⟨destroys, (· = v)⟩ s₁ s') :
    GivenUp destroys [(v, record)] s
      { s' with starting := s'.starting.erase v, deleting := s'.deleting ++ [v] } where
  subperm := List.singleton_subperm_iff.2 hmem
  existing := h'.existing.trans h.existing
  starting := by rw [h'.starting, h.starting]; simp
  deleting := by rw [h'.deleting, h.deleting]; simp
  waiting := h.waiting.trans (h'.waiting ▸ List.prefix_refl _)
  resources := h'.resources.trans h.resources
  nextVm := h'.nextVm.trans h.nextVm
  provisioning := h'.provisioning.trans h.provisioning
  sleepMode := h'.sleepMode.trans h.sleepMode
  vm := fun w ↦ (h.vm w).trans (h'.vm w)
  untouched := fun w hw ↦
    (h'.untouched w fun hv ↦ hw (List.mem_singleton.2 hv)).trans (h.untouched w nofun)
  trace := h.trace.trans ⟨h'.trace.trace, h'.trace.events⟩

theorem moves {lost : VmRef → Prop} (h : GivenUp destroys done s s') : Moves lost s s' := by
  have hsub := h.subperm
  refine .of_perm ?_ h.nextVm.ge
  rw [State.tracked, State.tracked, h.existing, h.starting, h.deleting]
  generalize done.map Prod.fst = vs at hsub ⊢
  have hmove : (s.existing ++ s.starting.diff vs ++ (s.deleting ++ vs)).Perm
      (s.existing ++ (vs ++ s.starting.diff vs) ++ s.deleting) := by
    simp only [List.append_assoc]
    refine List.Perm.append_left _ ?_
    rw [← List.append_assoc]
    exact List.perm_append_comm
  exact hmove.trans (((append_diff_perm hsub).append_left _).append_right _)

end GivenUp

/-- **One VM that is given up.** An unknown resource raises before it is moved. -/
theorem ends_giveUp {call : DestroyCall} (hmem : v ∈ s.starting)
    (hdestroy : destroys v record (s.vms v).forceOff call.answer) :
    Ends ((giveUp call v record).exec cfg) s
      (fun _ s' ↦ GivenUp destroys [(v, record)] s s' ∧
        .vmDestroy v record (s.vms v).forceOff call.answer ∈ s.since s' ∧
        (¬(s.vms v).Requestable → s'.waiting = s.waiting))
      fun e s' ↦ NotFromRemove e ∧ GivenUp destroys [] s s' := by
  -- asking again changes the waiting list only
  have hask : Ends ((askAgain (s.vms v)).exec cfg) s
      (fun _ s₁ ↦ GivenUp destroys [] s s₁ ∧ s₁.vms v = s.vms v ∧
        (¬(s.vms v).Requestable → s₁.waiting = s.waiting)) fun _ _ ↦ False := by
    rw [askAgain]
    split
    · rename_i hflavor hzone
      refine ⟨{ (GivenUp.refl s : GivenUp destroys [] s s) with
        waiting := List.prefix_append _ _
        trace := .of_eq rfl }, rfl, fun hnot ↦ ?_⟩
      exact absurd ⟨by rw [hflavor]; rfl, by rw [hzone]; rfl⟩ hnot
    · exact ⟨.refl s, rfl, fun _ ↦ rfl⟩
  rw [giveUp, ends_vm, Proc.exec, run_bind, ends_bind]
  refine hask.mono ?_ fun _ _ h ↦ h.elim
  rintro - s₁ ⟨h₁, hvm, hquiet⟩
  rw [run_bind, ends_bind]
  refine (ends_vmDestroy (hvm ▸ hdestroy) call.now).mono ?_ ?_
  · rintro - s₂ ⟨h₂, hevent⟩
    have hmem₂ : v ∈ s₂.starting := by rwa [h₂.starting, h₁.starting]
    refine ends_block.2 ((ends_startingToDeleting hmem₂).2 ⟨GivenUp.moved hmem h₁ h₂, ?_, ?_⟩)
    · show _ ∈ s.since s₂
      rw [h₁.trace.since_trans h₂.trace, ← hvm]
      exact List.mem_append_right _ hevent
    · exact fun hnot ↦ h₂.waiting.trans (hquiet hnot)
  · rintro e s₂ ⟨he, rfl⟩
    exact ⟨notFromRemove_of_get he, h₁⟩

/-- **The second loop.** The VMs are given up one after another, as they were before it, and
destroyed with the records at hand. -/
theorem ends_giveUpAll (destroys : Destroys) {calls : ℕ → DestroyCall}
    {toDelete : List (VmRef × Option WorkerNode)}
    (hsub : (toDelete.map Prod.fst).Subperm s.starting) (hnodup : (toDelete.map Prod.fst).Nodup)
    (hdestroy : ∀ i v record, toDelete[i]? = some (v, record) →
      destroys v record (s.vms v).forceOff (calls i).answer) :
    Ends (Proc.exec (forEach (fun i vr _ ↦ giveUp (calls i) vr.1 vr.2) 0 toDelete ()) cfg) s
      (fun _ s' ↦ GivenUp destroys toDelete s s' ∧
        (∀ i v record, toDelete[i]? = some (v, record) →
          .vmDestroy v record (s.vms v).forceOff (calls i).answer ∈ s.since s') ∧
        ((∀ v ∈ toDelete.map Prod.fst, ¬(s.vms v).Requestable) → s'.waiting = s.waiting))
      fun e s' ↦ NotFromRemove e ∧ ∃ done, done <+: toDelete ∧ GivenUp destroys done s s' := by
  refine ends_forEach (I := fun done _ s' ↦ GivenUp destroys done s s' ∧
    (∀ i v record, done[i]? = some (v, record) →
      .vmDestroy v record (s.vms v).forceOff (calls i).answer ∈ s.since s') ∧
    ((∀ v ∈ done.map Prod.fst, ¬(s.vms v).Requestable) → s'.waiting = s.waiting)) ?_
      ⟨.refl s, by simp, fun _ ↦ rfl⟩
  rintro done ⟨v, record⟩ rest - s₁ hdone ⟨h₁, hevents, hquiet⟩
  have hget : toDelete[done.length]? = some (v, record) := by simp [← hdone]
  have hsplit := map_fst_split hdone
  -- the VMs given up before are other ones
  have hfresh : v ∉ done.map Prod.fst := notMem_of_nodup hsplit hnodup
  have hmem : v ∈ s₁.starting := by
    rw [h₁.starting]
    exact mem_diff_of_subperm (hsplit ▸ hsub)
  have hvm : s₁.vms v = s.vms v := h₁.untouched v hfresh
  refine (ends_giveUp hmem (hvm ▸ hdestroy done.length v record hget)).mono ?_ ?_
  · rintro - s₂ ⟨h₂, hevent, hquiet₂⟩
    refine ⟨h₁.trans h₂, fun i w record' hget' ↦ ?_, fun hall ↦ ?_⟩
    · rw [h₁.trace.since_trans h₂.trace]
      rcases getElem?_concat_eq_some hget' with hold | ⟨rfl, hlast⟩
      · exact List.mem_append_left _ (hevents i w record' hold)
      · obtain ⟨rfl, rfl⟩ := Prod.mk.inj hlast
        exact List.mem_append_right _ (hvm ▸ hevent)
    · rw [List.map_append, List.forall_mem_append] at hall
      rw [hvm] at hquiet₂
      exact (hquiet₂ (hall.2 v List.mem_cons_self)).trans (hquiet hall.1)
  · rintro e s₂ ⟨he, h₂⟩
    have htrans := h₁.trans h₂
    rw [List.append_nil] at htrans
    exact ⟨he, done, hdone ▸ List.prefix_append _ _, htrans⟩

end GiveUp

/-! ### The operation -/

section Update

variable {cfg : Config} {s : State} {answers : UpdateAnswers}

/-- What `update_provision_status` decides in a state. -/
def State.provisionScratch (cfg : Config) (s : State) (answers : UpdateAnswers) :
    ProvisionScratch :=
  DynamicTorque.provisionScratch cfg answers.visit s.vms s.starting

/-- The scan of `update_provision_status` in a state, up to the VMs it touches. -/
abbrev Provisioned (s s' : State) : Prop :=
  Scanned (.looking fun v ↦ v ∈ s.starting ∧ (s.vms v).cloudReady = false) s s'

/-- The VMs that `update_provision_status` gives up in a state and does not ask for again. -/
def State.AsksNothing (cfg : Config) (s : State) (answers : UpdateAnswers) : Prop :=
  ∀ (i : ℕ) v record, s.starting[i]? = some v →
    (answers.visit i).outcome cfg (s.vms v) = .givenUp record →
      ¬(answers.visit i).AsksAgain (s.vms v)

/-- A given-up VM whose record was at hand is still as it was before the call. -/
theorem outcome_givenUp_some {answers : ProvisionAnswers} {vm : VM} {wn : WorkerNode}
    (h : answers.outcome cfg vm = .givenUp (some wn)) :
    vm.cloudReady = true ∧ answers.wnInTorque = .record wn ∧ wn.state ≠ "free" ∧
      wn.state ≠ "job-exclusive" ∧ longerThan vm.stateTime cfg.maxInaccessibleTime = true := by
  rw [ProvisionAnswers.outcome] at h
  split at h
  · rename_i hready
    split at h
    · rename_i wn' hwn
      split_ifs at h with hfree hlong
      obtain rfl := Option.some.inj (Outcome.givenUp.inj h)
      exact ⟨hready, hwn, fun hf ↦ hfree (.inl hf), fun hj ↦ hfree (.inr hj), hlong⟩
    · cases h
    · cases h
  · split at h
    · rw [ProvisionAnswers.torqueOutcome] at h
      split_ifs at h
      cases h
    · split_ifs at h
      cases h
    · split_ifs at h
      cases h
    · cases h
    · cases h

/-- **`update_provision_status`, up to its last part.** It raises in the scan, while it commits the
ready VMs, or while it gives up VMs; otherwise it comes to its last part with all of that done. A
VM that is destroyed with a record at hand is destroyed as it was before the call. -/
theorem ends_updateProvisionStatus (destroys : Destroys) {Q : Unit → State → Prop}
    {E : PyError → State → Prop} (hnodup : s.starting.Nodup)
    (hdestroy : ∀ i v record, (s.provisionScratch cfg answers).toDelete[i]? = some (v, record) →
      ∀ forceOff, (record.isSome → forceOff = (s.vms v).forceOff) →
        destroys v record forceOff (answers.destroy i).answer)
    (hscan : ∀ e s₁, NotFromRemove e → Provisioned s s₁ → E e s₁)
    (hcommit : ∀ e s₁ s₂ done v, NotFromRemove e → Provisioned s s₁ →
      done ++ [v] <+: (s.provisionScratch cfg answers).readyToUse → Readied cfg done s₁ s₂ →
      v ∈ s₂.starting → ¬Searchable cfg s.resources (s.vms v).cloudResourceName →
      E e { s₂ with starting := s₂.starting.erase v })
    (hgiveUp : ∀ e s₁ s₂ s₃ done, NotFromRemove e → Provisioned s s₁ →
      Readied cfg (s.provisionScratch cfg answers).readyToUse s₁ s₂ →
      done <+: (s.provisionScratch cfg answers).toDelete → GivenUp destroys done s₂ s₃ → E e s₃)
    (hfinish : ∀ s₁ s₂ s₃, Provisioned s s₁ →
      Readied cfg (s.provisionScratch cfg answers).readyToUse s₁ s₂ →
      GivenUp destroys (s.provisionScratch cfg answers).toDelete s₂ s₃ →
      (∀ (i : ℕ) v wn, (s.provisionScratch cfg answers).toDelete[i]? = some (v, some wn) →
        .vmDestroy v (some wn) (s.vms v).forceOff (answers.destroy i).answer ∈ s.since s₃) →
      (s.AsksNothing cfg answers → s₃.waiting = s.waiting) →
      Ends (Proc.exec (do
        Proc.locked .updateAvailableCores
        Program.when ((s.provisionScratch cfg answers).readyToUse.length > 0) Proc.dumpNodes
        finishProvisioning cfg answers.launch) cfg) s₃ Q E) :
    Ends ((updateProvisionStatus cfg answers).exec cfg) s Q E := by
  have hsub : ((s.provisionScratch cfg answers).readyToUse ++
      (s.provisionScratch cfg answers).toDelete.map Prod.fst).Subperm s.starting :=
    provisionScratch_subperm
  have hready : (s.provisionScratch cfg answers).readyToUse.Subperm s.starting :=
    (List.sublist_append_left _ _).subperm.trans hsub
  obtain ⟨-, hnodup', hdisjoint⟩ := nodup_of_subperm hsub hnodup
  rw [updateProvisionStatus, ends_list, Proc.exec, run_bind, ends_bind]
  refine (ends_provisionScan hnodup).mono ?_ fun e s₁ h ↦ hscan e s₁ h.1 h.2
  rintro scratch s₁ ⟨rfl, h₁, hunrequestable⟩
  have hready₁ : (s.provisionScratch cfg answers).readyToUse.Subperm s₁.starting := by
    rwa [h₁.starting]
  refine ends_locked.2 ((ends_commitReady hready₁).mono (fun _ s₂ h₂ ↦ ?_) ?_)
  · rw [Proc.exec, run_bind, ends_bind]
    have hrest : ((s.provisionScratch cfg answers).toDelete.map Prod.fst).Subperm
        s₂.starting := by
      rw [h₂.starting, h₁.starting]
      exact subperm_diff hsub
    -- a VM that is given up with its record was looked up in Torque, so no check has touched it
    have hforce : ∀ (i : ℕ) v wn,
        (s.provisionScratch cfg answers).toDelete[i]? = some (v, some wn) →
          (s₂.vms v).forceOff = (s.vms v).forceOff := by
      intro i v wn hget
      obtain ⟨j, -, houtcome⟩ := mem_toDelete.1 (List.mem_of_getElem? hget)
      have hcloud := (outcome_givenUp_some houtcome).1
      have hfresh : v ∉ (s.provisionScratch cfg answers).readyToUse := fun h ↦
        hdisjoint h (List.mem_map_of_mem (List.mem_of_getElem? hget))
      rw [h₂.untouched v hfresh, h₁.untouched v fun h ↦ absurd (hcloud.symm.trans h.2) (by decide)]
    refine (ends_giveUpAll destroys hrest hnodup' ?_).mono ?_ ?_
    · intro i v record hget
      refine hdestroy i v record hget _ fun hrecord ↦ ?_
      obtain ⟨wn, rfl⟩ := Option.isSome_iff_exists.1 hrecord
      exact hforce i v wn hget
    · rintro - s₃ ⟨h₃, hevents, hquiet⟩
      refine hfinish s₁ s₂ s₃ h₁ h₂ h₃ (fun i v wn hget ↦ ?_) fun hnothing ↦ ?_
      · have hearlier : Emits (Event.Allowed fun _ _ _ _ ↦ False) s s₂ :=
          h₁.trace.trans (.of_eq h₂.trace)
        rw [hearlier.since_trans h₃.trace, ← hforce i v wn hget]
        exact List.mem_append_right _ (hevents i v (some wn) hget)
      · refine (hquiet fun v hv ↦ ?_).trans (h₂.waiting.trans h₁.waiting)
        obtain ⟨⟨w, record⟩, hmem, rfl⟩ := List.mem_map.1 hv
        obtain ⟨i, hget, houtcome⟩ := mem_toDelete.1 hmem
        rw [h₂.untouched w fun h ↦ hdisjoint h hv]
        exact hunrequestable i w hget (hnothing i w record hget houtcome)
    · rintro e s₃ ⟨he, done, hpre, h₃⟩
      exact hgiveUp e s₁ s₂ s₃ done he h₁ h₂ hpre h₃
  · rintro e s' ⟨he, done, v, s₂, hpre, h₂, hmem, hsearch, rfl⟩
    refine hcommit e s₁ s₂ done v he h₁ hpre h₂ hmem fun h ↦ hsearch ?_
    rwa [h₁.resources, (h₁.vm v).resource]

end Update

end DynamicTorque
