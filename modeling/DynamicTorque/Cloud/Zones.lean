import DynamicTorque.LifeCycle.Provisioning
import DynamicTorque.Scheduler.Packing

/-!
# Availability zones

Three functions write the zone of a VM object. The constructor takes a zone and stores none;
`vm_list` reads the zone of an active server; and `vm_check` sets the configured default zone on a
server that it finds active, whatever zone the server is in.

* `zone_afterCheck`: one check sets the default zone, or leaves the zone alone.
* `keepsZone_iff`: through a sequence of checks a VM keeps a zone exactly if it has it at first and
  it is the default zone or no check gets as far as setting the zone.
* `zone_kept_iff`: so a started VM never has the zone that was asked for, and a listed one keeps
  the zone of its server under this condition.
-/

open Python Atomic Program

namespace DynamicTorque

/-! ### One check -/

/-- The server is active, as `vm_list` and `vm_check` test it. -/
def ServerReport.Active (report : ServerReport) : Prop :=
  report.status = "ACTIVE" ∧ report.vmState = "active" ∧ report.taskState = none

/-- A check of a VM in this state gets as far as setting its zone: the tenant and the number of
cores are known, and the server is active and has an address. -/
def SetsZone (s : State) (v : VmRef) (answer : Option ServerReport) : Prop :=
  (s.vms v).cloudResourceName ∈ s.resources.names ∧
    ∃ report, answer = some report ∧ report.Active ∧ report.address.isSome ∧
      ((s.vms v).vcpuNumber = 0 → report.sizeFlavor.isSome)

/-- The state after a check. -/
def afterCheck (cfg : Config) (v : VmRef) (s : State) (answer : Option ServerReport) : State :=
  stateAfter ((vmCheck cfg v answer).exec cfg) s

section

variable {cfg : Config} {s : State} {v : VmRef} {answer : Option ServerReport}

theorem seenUp_iff {report : ServerReport} :
    SeenUp (some report) ↔ report.Active ∧ report.address.isSome = true := by
  constructor
  · intro hup
    refine ⟨?_, address_of_seenUp hup⟩
    rw [SeenUp, cloudState] at hup
    by_cases herror : report.status = "ERROR" ∨ report.vmState = "error"
    · simp [if_pos herror] at hup
    · rw [if_neg herror] at hup
      by_contra hactive
      have hbuilding : report.status ≠ "ACTIVE" ∨ report.vmState ≠ "active" ∨
          report.taskState.isSome = true := by
        simpa [ServerReport.Active, or_iff_not_imp_left, Option.isSome_iff_ne_none] using hactive
      simp [if_pos hbuilding] at hup
  · rintro ⟨⟨hstatus, hvm, htask⟩, haddress⟩
    obtain ⟨ip, haddress⟩ := Option.isSome_iff_exists.1 haddress
    rw [SeenUp, cloudState, hstatus, hvm, htask, haddress]
    cases report.serverUp <;> simp

/-- A check that returns sets the zone of a server that is seen up. -/
theorem Checkable.setsZone_iff (h : Checkable s.resources (s.vms v) answer) :
    SetsZone s v answer ↔ SeenUp answer := by
  constructor
  · rintro ⟨-, report, rfl, hactive, haddress, -⟩
    exact seenUp_iff.2 ⟨hactive, haddress⟩
  · intro hup
    cases answer with
    | none => exact absurd hup not_seenUp_none
    | some report =>
      obtain ⟨hactive, haddress⟩ := seenUp_iff.1 hup
      exact ⟨h.resource, report, rfl, hactive, haddress, h.size report rfl⟩

/-- What a check does to the zone of its VM. -/
def ZoneChecked (cfg : Config) (v : VmRef) (answer : Option ServerReport) (s s' : State) : Prop :=
  (SetsZone s v answer → (s'.vms v).availabilityZone = some cfg.cloudAvailabilityZone) ∧
    (¬SetsZone s v answer → (s'.vms v).availabilityZone = (s.vms v).availabilityZone)

theorem ZoneChecked.of_kept {s' : State} (hnot : ¬SetsZone s v answer)
    (h : (s'.vms v).availabilityZone = (s.vms v).availabilityZone) :
    ZoneChecked cfg v answer s s' :=
  ⟨fun hsets ↦ absurd hsets hnot, fun _ ↦ h⟩

/-- **One check** sets the default zone or keeps the zone. -/
theorem ends_vmCheck_zone : Ends ((vmCheck cfg v answer).exec cfg) s
    (fun _ ↦ ZoneChecked cfg v answer s) fun _ ↦ ZoneChecked cfg v answer s := by
  refine (ends_vmCheck answer).mono ?_ ?_
  · rintro - _ ⟨hcheckable, -, rfl⟩
    rw [ZoneChecked, State.setVm_vms_self, VM.zone_checked, hcheckable.setsZone_iff]
    exact ⟨fun hup ↦ if_pos hup, fun hdown ↦ if_neg hdown⟩
  · rintro - _ ⟨vm, hbroken, rfl⟩
    cases hbroken with
    | resource hresource =>
      exact .of_kept (fun hsets ↦ hresource hsets.1) (by rw [State.setVm_vms_self])
    | size hzero hsize =>
      refine .of_kept ?_ (by rw [State.setVm_vms_self])
      rintro ⟨-, _, ⟨⟩, -, -, hsome⟩
      simpa [hsize] using hsome hzero
    | @flavor report hresource hsize hup _ =>
      -- the zone is assigned before the flavour is looked up
      obtain ⟨hactive, haddress⟩ := seenUp_iff.1 hup
      have hsets : SetsZone s v (some report) :=
        ⟨hresource, report, rfl, hactive, haddress, hsize⟩
      exact ⟨fun _ ↦ by rw [State.setVm_vms_self], fun hnot ↦ absurd hsets hnot⟩

theorem zone_afterCheck : ZoneChecked cfg v answer s (afterCheck cfg v s answer) :=
  stateAfter_of_ends ends_vmCheck_zone

end

/-! ### A sequence of checks -/

/-- The state after checks one after another. -/
def afterChecks (cfg : Config) (v : VmRef) (answers : List (Option ServerReport)) (s : State) :
    State :=
  answers.foldl (afterCheck cfg v) s

/-- The VM has the zone at first and after each check. -/
def KeepsZone (cfg : Config) (v : VmRef) (zone : String) (answers : List (Option ServerReport))
    (s : State) : Prop :=
  ∀ before, before <+: answers →
    ((afterChecks cfg v before s).vms v).availabilityZone = some zone

/-- No check gets as far as setting the zone. -/
def NeverSetsZone (cfg : Config) (v : VmRef) (answers : List (Option ServerReport)) (s : State) :
    Prop :=
  ∀ before answer, before ++ [answer] <+: answers →
    ¬SetsZone (afterChecks cfg v before s) v answer

section

variable {cfg : Config} {s : State} {v : VmRef} {zone : String}
  {answers : List (Option ServerReport)}

theorem afterChecks_concat (answer : Option ServerReport) :
    afterChecks cfg v (answers ++ [answer]) s =
      afterCheck cfg v (afterChecks cfg v answers s) answer :=
  List.foldl_append ..

/-- **The zone through a sequence of checks.** -/
theorem keepsZone_iff : KeepsZone cfg v zone answers s ↔
    (s.vms v).availabilityZone = some zone ∧
      (zone = cfg.cloudAvailabilityZone ∨ NeverSetsZone cfg v answers s) := by
  constructor
  · intro h
    refine ⟨h [] List.nil_prefix, or_iff_not_imp_left.2 fun hne before answer hbefore hsets ↦ ?_⟩
    have hzone := h _ hbefore
    rw [afterChecks_concat, zone_afterCheck.1 hsets] at hzone
    exact hne (Option.some.inj hzone).symm
  · rintro ⟨hzone, hcase⟩ before hbefore
    induction before using List.reverseRecOn with
    | nil => exact hzone
    | append_singleton before answer ih =>
      have hkept := ih ((List.prefix_append before [answer]).trans hbefore)
      rw [afterChecks_concat]
      by_cases hsets : SetsZone (afterChecks cfg v before s) v answer
      · -- the zone is set, so it was the default one
        rcases hcase with hdefault | hnever
        · rw [zone_afterCheck.1 hsets, hdefault]
        · exact absurd hsets (hnever before answer hbefore)
      · exact (zone_afterCheck.2 hsets).trans hkept

/-! ### Where a VM comes from -/

/-- The constructor drops the zone that a VM was asked for. -/
theorem zone_of_vmStart {flavor : FlavorRef} {asked : Option String} {resource : String}
    {answer : Option StartedServer} {s' : State}
    (h : (vmStart cfg flavor asked resource answer).exec cfg s = .ok (some v) s') :
    (s'.vms v).availabilityZone = none := by
  have hstart : Ends ((vmStart cfg flavor asked resource answer).exec cfg) s
      (fun r s' ↦ ∀ v ∈ r, (s'.vms v).availabilityZone = none) fun _ _ ↦ True := by
    cases answer with
    | none =>
      rw [vmStart, openConnection]
      refine ends_lift_bind (fun res _ ↦ ?_) fun _ _ ↦ trivial
      exact fun v hv ↦ absurd hv (Option.not_mem_none v)
    | some server =>
      rw [vmStart, openConnection]
      refine ends_lift_bind (fun res _ ↦ ?_) fun _ _ ↦ trivial
      rintro v hv
      obtain rfl := Option.some.inj hv
      simp [State.allocate, VM.init]
  exact hstart.of_ok h v rfl

/-- The state of the server decides whether its zone is read. -/
def ListedServer.Active (server : ListedServer) : Prop :=
  server.status = "ACTIVE" ∧ server.vmState = "active" ∧ server.taskState = none

theorem zone_toVm_iff {server : ListedServer} (hzone : server.zone = some zone)
    (resource : String) :
    (server.toVm resource).availabilityZone = some zone ↔ server.Active := by
  show (if server.status = "ACTIVE" ∧ server.vmState = "active" ∧ server.taskState = none then
    server.zone else none) = some zone ↔ server.Active
  rw [hzone]
  split
  · rename_i hactive
    exact iff_of_true rfl hactive
  · rename_i hactive
    exact iff_of_false (fun h ↦ nomatch h) hactive

end

/-- **When a VM keeps its zone.** A VM that was started has none; a VM that was listed keeps the
zone of its server if that was active when it was listed, and is in the default zone or not found
active again. -/
theorem zone_kept_iff (cfg : Config) :
    (∀ flavor asked resource answer s v s',
      (vmStart cfg flavor asked resource answer).exec cfg s = .ok (some v) s' →
        ∀ zone answers, ¬KeepsZone cfg v zone answers s') ∧
    (∀ (server : ListedServer) resource zone s v answers, server.zone = some zone →
      s.vms v = server.toVm resource →
        (KeepsZone cfg v zone answers s ↔ server.Active ∧
          (zone = cfg.cloudAvailabilityZone ∨ NeverSetsZone cfg v answers s))) := by
  refine ⟨fun flavor asked resource answer s v s' hstart zone answers hkeeps ↦ ?_,
    fun server resource zone s v answers hzone hvm ↦ ?_⟩
  · have hnone := zone_of_vmStart hstart
    rw [(keepsZone_iff.1 hkeeps).1] at hnone
    exact nomatch hnone
  · rw [keepsZone_iff, hvm, zone_toVm_iff hzone]

/-- An active server. -/
def activeServer (zone : String) : ListedServer where
  id := "id"
  name := "pbsdynwn--default-1"
  status := "ACTIVE"
  created := 0
  vmState := "active"
  taskState := none
  address := some "10.0.0.1"
  zone := some zone
  imageId := "image"
  flavor := ⟨"f1", "m1.medium", 2⟩

/-- The same server, as a check finds it. -/
def activeReport : ServerReport where
  status := "ACTIVE"
  created := 0
  vmState := "active"
  taskState := none
  address := some "10.0.0.1"
  imageId := "image"
  sizeFlavor := some ⟨"f1", "m1.medium", 2⟩
  flavor := some ⟨"f1", "m1.medium", 2⟩
  serverUp := true

/-- The resource center after the server was listed. -/
def afterListing (zone : String) : State :=
  { State.initial JobScheduler.threeNodes with
    existing := [0]
    nextVm := 1
    vms := fun _ ↦ (activeServer zone).toVm "default" }

/-- A VM that was asked for in another zone, and a server listed in the default zone. -/
theorem zone_kept_iff_noblepark :
    (∃ s' : State,
      (vmStart {} (.id "f1") (some "monash") "default" (some ⟨"id", "1", 2, 0⟩)).exec {}
        (State.initial JobScheduler.threeNodes) = .ok (some 0) s' ∧
        ¬KeepsZone {} 0 "monash" [some activeReport] s') ∧
    KeepsZone {} 0 "noblepark" [some activeReport] (afterListing "noblepark") :=
  ⟨⟨_, rfl, (zone_kept_iff {}).1 (.id "f1") (some "monash") "default" (some ⟨"id", "1", 2, 0⟩)
      (State.initial JobScheduler.threeNodes) 0 _ rfl "monash" [some activeReport]⟩,
    ((zone_kept_iff {}).2 (activeServer "noblepark") "default" "noblepark" _ 0 _ rfl rfl).2
      ⟨⟨rfl, rfl, rfl⟩, .inl rfl⟩⟩

/-- A server in another zone: one check puts its VM in the default zone. -/
theorem zone_lost :
    ¬∀ (cfg : Config) (server : ListedServer) resource zone s v answers,
      server.zone = some zone → server.Active → s.vms v = server.toVm resource →
        KeepsZone cfg v zone answers s := by
  intro h
  have hkeeps := h {} (activeServer "monash") "default" "monash" (afterListing "monash") 0
    [some activeReport] rfl ⟨rfl, rfl, rfl⟩ rfl
  have hzone := hkeeps [some activeReport] List.prefix_rfl
  have hdefault : ((afterChecks {} 0 [some activeReport] (afterListing "monash")).vms
      0).availabilityZone = some "noblepark" := by decide +kernel
  rw [hdefault] at hzone
  exact absurd hzone (by decide)

end DynamicTorque
