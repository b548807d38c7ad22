import DynamicTorque.LifeCycle.Steps

/-!
# What a check leaves of a VM

`vm_check` assigns to the VM it checks, as far as it gets: the status, the number of cores if it is
not known yet, and, for a server that is active and has an address, the zone, the image, the address
and the flavour. `VM.checked` is the VM after a check that returns, `CheckBroken` the VM after one
that raises; `ends_vmCheck` says that there is nothing else to a check.
-/

open Python Atomic Program

namespace DynamicTorque

/-- The server is active and has an address. -/
def SeenUp (answer : Option ServerReport) : Prop :=
  cloudState answer = .ready ∨ cloudState answer = .configuring

instance (answer : Option ServerReport) : Decidable (SeenUp answer) := by
  unfold SeenUp
  infer_instance

/-- The status and the number of cores are recorded. -/
def VM.looked (report : ServerReport) (vm : VM) : VM :=
  { vm with
    state := some report.status
    startTime := report.created
    vcpuNumber := if vm.vcpuNumber = 0 then (report.sizeFlavor.map VMFlavor.vcpus).getD 0
      else vm.vcpuNumber }

/-- A VM after a check, if that returns. -/
def VM.checked (cfg : Config) (answer : Option ServerReport) (vm : VM) : VM :=
  match answer with
  | none => vm
  | some report =>
    if SeenUp (some report) then
      { vm.looked report with
        availabilityZone := some cfg.cloudAvailabilityZone
        imageId := some report.imageId
        ip := report.address
        flavor := report.flavor.map .object }
    else vm.looked report

/-- A status check returns: the resource of the VM is configured, and the flavours that are looked
up are found. -/
structure Checkable (crs : CloudResources) (vm : VM) (answer : Option ServerReport) : Prop where
  resource : vm.cloudResourceName ∈ crs.names
  size : ∀ report, answer = some report → vm.vcpuNumber = 0 → report.sizeFlavor.isSome = true
  flavor : ∀ report, answer = some report →
    cloudState answer = .ready ∨ cloudState answer = .configuring → report.flavor.isSome = true

/-- Where a status check raises, and what it has assigned by then. -/
inductive CheckBroken (cfg : Config) (crs : CloudResources) (vm : VM) :
    Option ServerReport → VM → Prop
  | resource {answer : Option ServerReport} (hresource : vm.cloudResourceName ∉ crs.names) :
    CheckBroken cfg crs vm answer vm
  | size {report : ServerReport} (hzero : vm.vcpuNumber = 0) (hsize : report.sizeFlavor = none) :
    CheckBroken cfg crs vm (some report)
      { vm with state := some report.status, startTime := report.created }
  | flavor {report : ServerReport} (hresource : vm.cloudResourceName ∈ crs.names)
    (hsize : vm.vcpuNumber = 0 → report.sizeFlavor.isSome = true)
    (hup : SeenUp (some report)) (hflavor : report.flavor = none) :
    CheckBroken cfg crs vm (some report)
      { vm.looked report with
        availabilityZone := some cfg.cloudAvailabilityZone
        imageId := some report.imageId
        ip := report.address }

/-- What a check does not assign to, whether it returns or raises. -/
def VM.steady (vm : VM) : Bool × Bool × String :=
  (vm.cloudReady, vm.postProvisionCommandExecuted, vm.cloudResourceName)

section Checked

variable {cfg : Config}

theorem not_seenUp_none : ¬SeenUp none := by
  simp [SeenUp, cloudState]

/-- The flavour is looked up if the server is seen up. -/
theorem VM.flavor_checked (answer : Option ServerReport) (vm : VM) :
    (vm.checked cfg answer).flavor =
      if SeenUp answer then (answer.bind ServerReport.flavor).map .object else vm.flavor := by
  cases answer with
  | none => rw [if_neg not_seenUp_none, VM.checked]
  | some report =>
    show (if SeenUp (some report) then _ else _ : VM).flavor = _
    split <;> rfl

/-- The zone is set if the server is seen up. -/
theorem VM.zone_checked (answer : Option ServerReport) (vm : VM) :
    (vm.checked cfg answer).availabilityZone =
      if SeenUp answer then some cfg.cloudAvailabilityZone else vm.availabilityZone := by
  cases answer with
  | none => rw [if_neg not_seenUp_none, VM.checked]
  | some report =>
    show (if SeenUp (some report) then _ else _ : VM).availabilityZone = _
    split <;> rfl

/-- The address is read if the server is seen up. -/
theorem VM.ip_checked {answer : Option ServerReport} (hup : SeenUp answer) (vm : VM) :
    (vm.checked cfg answer).ip = answer.bind ServerReport.address := by
  cases answer with
  | none => exact absurd hup not_seenUp_none
  | some report =>
    show (if SeenUp (some report) then _ else _ : VM).ip = _
    rw [if_pos hup]
    rfl

theorem address_of_seenUp {answer : Option ServerReport} (hup : SeenUp answer) :
    (answer.bind ServerReport.address).isSome = true := by
  cases answer with
  | none => exact absurd hup not_seenUp_none
  | some report =>
    show report.address.isSome = true
    cases haddress : report.address with
    | none =>
      rw [SeenUp, cloudState, haddress] at hup
      split_ifs at hup <;> simp at hup
    | some ip => rfl

theorem VM.of_steady {vm : VM} {ready executed : Bool} {resource : String}
    (h : vm.steady = (ready, executed, resource)) : vm.cloudReady = ready ∧
      vm.postProvisionCommandExecuted = executed ∧ vm.cloudResourceName = resource := by
  obtain ⟨hready, hrest⟩ := Prod.mk.inj h
  exact ⟨hready, Prod.mk.inj hrest⟩

theorem VM.steady_checked (answer : Option ServerReport) (vm : VM) :
    (vm.checked cfg answer).steady = vm.steady := by
  cases answer with
  | none => rfl
  | some report =>
    show (if SeenUp (some report) then _ else _ : VM).steady = _
    split <;> rfl

theorem CheckBroken.steady {crs : CloudResources} {vm vm' : VM} {answer : Option ServerReport}
    (h : CheckBroken cfg crs vm answer vm') : vm'.steady = vm.steady := by
  cases h <;> rfl

theorem CheckBroken.not_checkable {crs : CloudResources} {vm vm' : VM}
    {answer : Option ServerReport} (h : CheckBroken cfg crs vm answer vm') :
    ¬Checkable crs vm answer := by
  intro hcheckable
  cases h with
  | resource hresource => exact hresource hcheckable.resource
  | size hzero hsize =>
    have hsome := hcheckable.size _ rfl hzero
    rw [hsize] at hsome
    exact Bool.false_ne_true hsome
  | flavor _ _ hup hflavor =>
    have hsome := hcheckable.flavor _ rfl hup
    rw [hflavor] at hsome
    exact Bool.false_ne_true hsome

theorem sameVm_checked (answer : Option ServerReport) (vm : VM) :
    SameVm vm (vm.checked cfg answer) := by
  cases answer with
  | none => exact .refl vm
  | some report =>
    show SameVm vm (if SeenUp (some report) then _ else _)
    split <;> exact ⟨rfl, rfl, rfl, rfl⟩

end Checked

section Check

variable {cfg : Config} {s : State} {v : VmRef}

theorem State.setVm_setVm (s : State) (v : VmRef) (f g : VM → VM) :
    (s.setVm v f).setVm v g = s.setVm v fun vm ↦ g (f vm) := by
  simp [State.setVm]

/-- The new VM depends on the old one. -/
theorem State.setVm_congr {s : State} {v : VmRef} {f g : VM → VM} (h : f (s.vms v) = g (s.vms v)) :
    s.setVm v f = s.setVm v g := by
  simp [State.setVm, h]

theorem State.setVm_self (s : State) (v : VmRef) : (s.setVm v fun vm ↦ vm) = s := by
  simp [State.setVm]

@[simp] theorem State.setVm_vms_self (s : State) (v : VmRef) (f : VM → VM) :
    (s.setVm v f).vms v = f (s.vms v) := by
  simp [State.setVm]

/-- The number of cores is looked up if it is 0. -/
theorem ends_setVcpuNumber (report : ServerReport) :
    Ends ((setVcpuNumber v report.sizeFlavor).exec cfg) (s.setVm v fun vm ↦
        { vm with state := some report.status, startTime := report.created })
      (fun _ s' ↦ ((s.vms v).vcpuNumber = 0 → report.sizeFlavor.isSome = true) ∧
        s' = s.setVm v (VM.looked report))
      fun _ s' ↦ ((s.vms v).vcpuNumber = 0 ∧ report.sizeFlavor = none) ∧
        s' = s.setVm v fun vm ↦
          { vm with state := some report.status, startTime := report.created } := by
  rw [setVcpuNumber, ends_vm]
  split
  · rename_i h
    have hzero : (s.vms v).vcpuNumber = 0 := by rwa [State.setVm_vms_self] at h
    cases hflavor : report.sizeFlavor with
    | none => exact ⟨⟨hzero, rfl⟩, rfl⟩
    | some flavor =>
      refine ⟨fun _ ↦ rfl, ?_⟩
      show (s.setVm v _).setVm v _ = _
      rw [State.setVm_setVm]
      simp [State.setVm, VM.looked, hzero, hflavor]
  · rename_i h
    have hne : (s.vms v).vcpuNumber ≠ 0 := by rwa [State.setVm_vms_self] at h
    refine ⟨fun hzero ↦ absurd hzero hne, ?_⟩
    show s.setVm v _ = _
    simp [State.setVm, VM.looked, hne]

/-- An active server. -/
theorem ends_checkActive (report : ServerReport) (ip : String) :
    Ends ((checkActive cfg v report ip).exec cfg) s
      (fun state s' ↦ report.flavor.isSome = true ∧
        state = (if report.serverUp then .ready else .configuring) ∧
        s' = s.setVm v fun vm ↦
          { vm with
            availabilityZone := some cfg.cloudAvailabilityZone
            imageId := some report.imageId
            ip := some ip
            flavor := report.flavor.map .object })
      fun _ s' ↦ report.flavor = none ∧ s' = s.setVm v fun vm ↦
        { vm with
          availabilityZone := some cfg.cloudAvailabilityZone
          imageId := some report.imageId
          ip := some ip } := by
  rw [checkActive, ends_setVm]
  cases report.flavor with
  | none => exact ⟨rfl, rfl⟩
  | some flavor =>
    refine ⟨rfl, rfl, ?_⟩
    show (s.setVm v _).setVm v _ = _
    rw [State.setVm_setVm]
    rfl

/-- **`vm_check`.** It assigns to the VM and does nothing else, even if it raises. -/
theorem ends_vmCheck (answer : Option ServerReport) :
    Ends ((vmCheck cfg v answer).exec cfg) s
      (fun state s' ↦ Checkable s.resources (s.vms v) answer ∧ state = cloudState answer ∧
        s' = s.setVm v (VM.checked cfg answer))
      fun _ s' ↦ ∃ vm, CheckBroken cfg s.resources (s.vms v) answer vm ∧
        s' = s.setVm v fun _ ↦ vm := by
  have hraised : ∀ {f : VM → VM} {s'}, s' = s.setVm v f →
      CheckBroken cfg s.resources (s.vms v) answer (f (s.vms v)) →
        ∃ vm, CheckBroken cfg s.resources (s.vms v) answer vm ∧ s' = s.setVm v fun _ ↦ vm := by
    rintro f _ rfl hbroken
    exact ⟨_, hbroken, State.setVm_congr rfl⟩
  rw [vmCheck.eq_def, ends_vm, openConnection]
  refine ends_lift_bind (fun res hres ↦ ?_) fun e he ↦ ?_
  rotate_left
  · refine hraised (State.setVm_self s v).symm (.resource fun hknown ↦ ?_)
    rw [CloudResources.get, if_pos hknown] at he
    cases he
  have hresource := (CloudResources.get_eq_ok_iff.1 hres).1
  cases answer with
  | none =>
    refine ⟨⟨hresource, ?_, ?_⟩, rfl, (State.setVm_self s v).symm⟩
    · exact fun _ h ↦ absurd h (Option.some_ne_none _).symm
    · exact fun _ h ↦ absurd h (Option.some_ne_none _).symm
  | some report =>
    rw [ends_setVm, Proc.exec, run_bind, ends_bind]
    refine (ends_setVcpuNumber report).mono (fun _ s₁ h₁ ↦ ?_) fun _ _ h ↦
      hraised h.2 (.size h.1.1 h.1.2)
    obtain ⟨hsize, rfl⟩ := h₁
    have hcheckable : (SeenUp (some report) → report.flavor.isSome = true) →
        Checkable s.resources (s.vms v) (some report) := by
      refine fun hflavor ↦ ⟨hresource, ?_, ?_⟩
      · rintro _ ⟨⟩
        exact hsize
      · rintro _ ⟨⟩
        exact hflavor
    -- no more is recorded of a server that is not seen up
    have hlooked : ∀ {state}, cloudState (some report) = state → ¬SeenUp (some report) →
        Checkable s.resources (s.vms v) (some report) ∧ state = cloudState (some report) ∧
          s.setVm v (VM.looked report) = s.setVm v (VM.checked cfg (some report)) := by
      intro state hstate hdown
      refine ⟨hcheckable fun hup ↦ absurd hup hdown, hstate.symm, ?_⟩
      simp [State.setVm, VM.checked, hdown]
    have hstate := cloudState.eq_2 report
    split
    · rename_i herror
      rw [if_pos herror] at hstate
      exact hlooked hstate (by simp [SeenUp, hstate])
    · rename_i herror
      rw [if_neg herror] at hstate
      split
      · rename_i hbuilding
        rw [if_pos hbuilding] at hstate
        exact hlooked hstate (by simp [SeenUp, hstate])
      · rename_i hactive
        rw [if_neg hactive] at hstate
        cases haddress : report.address with
        | none =>
          rw [haddress] at hstate
          exact hlooked hstate (by simp [SeenUp, hstate])
        | some ip =>
          rw [haddress] at hstate
          have hup : SeenUp (some report) := by
            rw [SeenUp, hstate]
            dsimp only
            split
            · exact .inl rfl
            · exact .inr rfl
          refine (ends_checkActive report ip).mono (fun state s₂ h₂ ↦ ?_) fun _ s₂ h₂ ↦ ?_
          · obtain ⟨hflavor, rfl, rfl⟩ := h₂
            refine ⟨hcheckable fun _ ↦ hflavor, hstate.symm, ?_⟩
            rw [State.setVm_setVm]
            simp [State.setVm, VM.checked, hup, haddress]
          · obtain ⟨hflavor, hs₂⟩ := h₂
            rw [State.setVm_setVm, ← haddress] at hs₂
            exact hraised hs₂ (.flavor hresource hsize hup hflavor)

/-- A check that is known to return. -/
theorem ends_vmCheck_returns {answer : Option ServerReport}
    (h : Checkable s.resources (s.vms v) answer) :
    Ends ((vmCheck cfg v answer).exec cfg) s (fun _ _ ↦ True) fun _ _ ↦ False := by
  refine (ends_vmCheck answer).mono (fun _ _ _ ↦ trivial) ?_
  rintro - _ ⟨_, hbroken, -⟩
  exact hbroken.not_checkable h

end Check

end DynamicTorque
