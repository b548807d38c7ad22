import DynamicTorque.LifeCycle.CleanupCases
import DynamicTorque.LifeCycle.FailedStarts

/-!
# The provisioning hook

`update_provision_status` runs `post_vm_provision_action` for a VM, and opens the firewall for a VM
of the default resource, in the first visit in which `vm_check` answers that cloud-init is running.
A flag of the VM says that this has been done. Nothing is run in the other visits, and a server may
be found ready without having been found in that state.

* `ends_provisionVisit_hook`: what one visit adds to the trace before the VM is ready.
* `hook_runs_once_iff`: the VM has been prepared once when it becomes ready if and only if an
  earlier visit has found cloud-init running and could build the command line, the firewall could be
  opened, and the address is still the same.
-/

open Python Atomic Program

namespace DynamicTorque

/-! ### Opening the firewall -/

/-- The rules that let an address through to the resources that have a volume, other than the
default one. -/
def nfsRules (crs : CloudResources) (ip : String) (names : List String) : List Event :=
  (names.filter fun res ↦ res ≠ "default" ∧ (crs.object res).hasVolume = true).map fun res ↦
    .addSecurityGroupRule res ip

/-- The firewall is to be opened for a VM of this resource, and there is no security group to make
the name of the rule from. -/
def Blocked (cfg : Config) (crs : CloudResources) (resource : String) : Prop :=
  resource = "default" ∧ OtherVolume crs crs.names ∧ cfg.cloudSecurityGroups = []

/-- The command line of the hook can be built for a VM with this address. -/
def HookBuilt (cfg : Config) (vm : VM) (address : Option String) : Prop :=
  Returns (Command.postVmProvisionAction.invocation cfg.commands { vm with ip := address })

instance (cfg : Config) (vm : VM) (address : Option String) :
    Decidable (HookBuilt cfg vm address) :=
  inferInstanceAs (Decidable (Returns _))

section Firewall

variable {cfg : Config} {crs : CloudResources} {s : State} {v : VmRef} {ip : String}
  {names : List String}

theorem otherVolume_concat {res : String} : OtherVolume crs (names ++ [res]) ↔
    OtherVolume crs names ∨ res ≠ "default" ∧ (crs.object res).hasVolume = true := by
  simp [OtherVolume, or_and_right, exists_or]

theorem nfsRules_concat (res : String) :
    nfsRules crs ip (names ++ [res]) = nfsRules crs ip names ++
      if res ≠ "default" ∧ (crs.object res).hasVolume = true then [.addSecurityGroupRule res ip]
      else [] := by
  rw [nfsRules, List.filter_append, List.map_append]
  split
  · rename_i hvolume
    rw [List.filter_singleton]
    simp [hvolume, nfsRules]
  · rename_i hnone
    rw [List.filter_singleton]
    simp [hnone, nfsRules]

theorem nfsRules_eq_nil (h : ¬OtherVolume crs names) : nfsRules crs ip names = [] := by
  rw [nfsRules, List.map_eq_nil_iff, List.filter_eq_nil_iff]
  exact fun res hres hvolume ↦ h ⟨res, hres, by simpa using hvolume⟩

/-- Each rule is there once. -/
theorem count_nfsRules (hnodup : names.Nodup) (res other : String) :
    (nfsRules crs ip names).count (.addSecurityGroupRule res other) =
      if other = ip ∧ res ∈ names ∧ res ≠ "default" ∧ (crs.object res).hasVolume = true then 1
      else 0 := by
  have hinjective : Function.Injective fun res ↦ Event.addSecurityGroupRule res ip :=
    fun _ _ h ↦ (Event.addSecurityGroupRule.inj h).1
  have hrules : (nfsRules crs ip names).Nodup := (hnodup.filter _).map hinjective
  rw [hrules.count]
  refine if_congr ?_ rfl rfl
  simp only [nfsRules, List.mem_map, List.mem_filter, decide_eq_true_eq]
  constructor
  · rintro ⟨res', ⟨hmem, hvolume⟩, hrule⟩
    obtain ⟨rfl, rfl⟩ := Event.addSecurityGroupRule.inj hrule
    exact ⟨rfl, hmem, hvolume⟩
  · rintro ⟨rfl, hmem, hvolume⟩
    exact ⟨res, ⟨hmem, hvolume⟩, rfl⟩

/-- **The firewall.** All rules are added, or none because their name cannot be made. -/
theorem ends_openFirewall (hip : (s.vms v).ip = some ip) :
    Ends ((openFirewall cfg v).exec cfg) s
      (fun _ s' ↦ s' = { s with trace := s.trace ++ nfsRules s.resources ip s.resources.names } ∧
        (OtherVolume s.resources s.resources.names → cfg.cloudSecurityGroups ≠ []))
      fun _ s' ↦ s' = s ∧ OtherVolume s.resources s.resources.names ∧
        cfg.cloudSecurityGroups = [] := by
  have hstart : s = { s with trace := s.trace ++ nfsRules s.resources ip [] } := by
    simp [nfsRules]
  rw [openFirewall, ends_resources]
  refine ends_forEach (I := fun done _ s' ↦
    s' = { s with trace := s.trace ++ nfsRules s.resources ip done } ∧
      (OtherVolume s.resources done → cfg.cloudSecurityGroups ≠ [])) ?_
    ⟨hstart, by simp [OtherVolume]⟩
  rintro done res rest - _ hdone ⟨rfl, hgroups⟩
  split
  · rename_i hvolume
    cases hnames : cfg.cloudSecurityGroups with
    | nil =>
      have hnone : ¬OtherVolume s.resources done := fun h ↦ hgroups h hnames
      refine ⟨by rw [nfsRules_eq_nil hnone, List.append_nil], ⟨res, ?_, hvolume⟩, rfl⟩
      rw [← hdone]
      exact List.mem_append_right _ List.mem_cons_self
    | cons group groups =>
      dsimp only
      rw [ends_vm]
      simp only [hip]
      refine ⟨?_, fun _ ↦ List.cons_ne_nil _ _⟩
      rw [nfsRules_concat, if_pos hvolume, ← List.append_assoc]
      rfl
  · rename_i hnone
    refine ⟨?_, fun h ↦ hgroups ((otherVolume_concat.1 h).resolve_right hnone)⟩
    rw [nfsRules_concat, if_neg hnone, List.append_nil]

end Firewall

/-! ### One visit -/

/-- What is run to prepare a VM of this resource with this address. -/
def preparation (crs : CloudResources) (v : VmRef) (resource : String) (address : Option String) :
    List Event :=
  .command .postVmProvisionAction v ::
    if resource = "default" then address.toList.flatMap fun ip ↦ nfsRules crs ip crs.names else []

/-- What `vm_check` answers when the VM is visited, if it is called and returns. -/
def checkAnswer (cfg : Config) (answers : ProvisionAnswers) (v : VmRef) (s : State) :
    Option CloudState :=
  if (s.vms v).cloudReady then none
  else
    match (vmCheck cfg v answers.report).exec cfg s with
    | .ok state _ => some state
    | .error _ _ => none

/-- The address that the cloud reports. -/
def ProvisionAnswers.address (answers : ProvisionAnswers) : Option String :=
  answers.report.bind ServerReport.address

/-- What a visit of a VM that is not ready in the cloud leaves: the VM is ready; or nothing was run;
or the VM was prepared; or its command line could not be built, or its firewall not be opened. -/
inductive HookVisited (cfg : Config) (answers : ProvisionAnswers) (v : VmRef) (s s' : State) : Prop
  | ready (hcheck : checkAnswer cfg answers v s = some .ready)
    (hready : (s'.vms v).cloudReady = true) (hip : (s'.vms v).ip = answers.address)
  | quiet (hready : checkAnswer cfg answers v s ≠ some .ready)
    (hdone : checkAnswer cfg answers v s = some .configuring →
      (s.vms v).postProvisionCommandExecuted = true)
    (htrace : s'.trace = s.trace) (hsteady : (s'.vms v).steady = (s.vms v).steady)
  | prepared (hcheck : checkAnswer cfg answers v s = some .configuring)
    (hfirst : (s.vms v).postProvisionCommandExecuted = false)
    (hbuilt : HookBuilt cfg (s.vms v) answers.address)
    (hopen : ¬Blocked cfg s.resources (s.vms v).cloudResourceName)
    (htrace : s'.trace = s.trace ++
      preparation s.resources v (s.vms v).cloudResourceName answers.address)
    (hsteady : (s'.vms v).steady = (false, true, (s.vms v).cloudResourceName))
  | unbuilt (hcheck : checkAnswer cfg answers v s = some .configuring)
    (hfirst : (s.vms v).postProvisionCommandExecuted = false)
    (hunbuilt : ¬HookBuilt cfg (s.vms v) answers.address)
    (htrace : s'.trace = s.trace) (hsteady : (s'.vms v).steady = (s.vms v).steady)
  | blocked (hcheck : checkAnswer cfg answers v s = some .configuring)
    (hfirst : (s.vms v).postProvisionCommandExecuted = false)
    (hblocked : Blocked cfg s.resources (s.vms v).cloudResourceName)
    (htrace : s'.trace = s.trace ++ [.command .postVmProvisionAction v])
    (hsteady : (s'.vms v).steady = (s.vms v).steady)

section Visit

variable {cfg : Config} {answers : ProvisionAnswers} {s s₁ : State} {v : VmRef}
  {scratch : ProvisionScratch}

/-- Nothing has been done if the command line cannot be built. -/
theorem ends_postProvision_unbuilt
    (hunbuilt : ¬Returns (Command.postVmProvisionAction.invocation cfg.commands (s.vms v)))
    (hfirst : (s.vms v).postProvisionCommandExecuted = false) :
    Ends ((postProvision cfg v).exec cfg) s (fun _ _ ↦ False) fun _ s' ↦ s' = s := by
  rw [postProvision, ends_vm, if_neg (by simp [hfirst])]
  exact ends_lift_bind (fun started h ↦ absurd ⟨started, h⟩ hunbuilt) fun _ _ ↦ rfl

/-- **The first time that cloud-init is found running**, if the command line can be built. -/
theorem ends_postProvision_first {address : Option String} (hip : (s.vms v).ip = address)
    (haddress : address.isSome = true) (hfirst : (s.vms v).postProvisionCommandExecuted = false)
    (hbuilt : Returns (Command.postVmProvisionAction.invocation cfg.commands (s.vms v))) :
    Ends ((postProvision cfg v).exec cfg) s
      (fun _ s' ↦ ¬Blocked cfg s.resources (s.vms v).cloudResourceName ∧
        s'.trace = s.trace ++ preparation s.resources v (s.vms v).cloudResourceName address ∧
        (s'.vms v).steady = ((s.vms v).cloudReady, true, (s.vms v).cloudResourceName))
      fun _ s' ↦ Blocked cfg s.resources (s.vms v).cloudResourceName ∧
        s'.trace = s.trace ++ [.command .postVmProvisionAction v] ∧ s'.vms = s.vms := by
  obtain ⟨ip, rfl⟩ := Option.isSome_iff_exists.1 haddress
  obtain ⟨started, hstarted⟩ := hbuilt
  rw [postProvision, ends_vm, if_neg (by simp [hfirst]), hstarted]
  show Ends (Proc.exec (Proc.emit (.command .postVmProvisionAction v) >>= _) cfg) s _ _
  rw [ends_emit, Proc.exec, run_bind, ends_bind, Program.when]
  split
  · rename_i hdefault
    have hip' : ((s.emit (.command .postVmProvisionAction v)).vms v).ip = some ip := hip
    refine (ends_openFirewall hip').mono (fun _ s₁ h₁ ↦ ?_) fun _ s₁ h₁ ↦ ?_
    · obtain ⟨rfl, hgroups⟩ := h₁
      refine ⟨fun h ↦ hgroups h.2.1 h.2.2, ?_, ?_⟩
      · show (s.trace ++ [_]) ++ _ = _
        rw [preparation, if_pos hdefault, Option.toList_some, List.flatMap_singleton,
          List.append_assoc]
        rfl
      · show ((State.setVm _ v _).vms v).steady = _
        rw [State.setVm_vms_self]
        rfl
    · obtain ⟨rfl, hvolume, hnone⟩ := h₁
      exact ⟨⟨hdefault, hvolume, hnone⟩, rfl, rfl⟩
  · rename_i hother
    refine ⟨fun h ↦ hother h.1, ?_, ?_⟩
    · simp [preparation, hother, State.emit, State.setVm]
    · show ((State.setVm _ v _).vms v).steady = _
      rw [State.setVm_vms_self]
      rfl

/-- Later on, nothing is run. -/
theorem ends_postProvision_again (hdone : (s.vms v).postProvisionCommandExecuted = true) :
    Ends ((postProvision cfg v).exec cfg) s (fun _ s' ↦ s' = s) fun _ _ ↦ False := by
  rw [postProvision, ends_vm, if_pos hdone]
  exact rfl

/-- **One visit of a VM that is not ready in the cloud.** -/
theorem ends_provisionVisit_hook (hready : (s.vms v).cloudReady = false) :
    Ends ((provisionVisit cfg answers v scratch).exec cfg) s
      (fun _ ↦ HookVisited cfg answers v s) fun _ ↦ HookVisited cfg answers v s := by
  rw [provisionVisit, ends_vm, if_neg (by simp [hready]), pollCloud, Proc.exec, run_bind, ends_bind]
  refine ((ends_vmCheck answers.report).and ends_self).mono ?_ ?_
  · rintro state s₁ ⟨⟨-, rfl, hs₁⟩, hx⟩
    have hcheck : checkAnswer cfg answers v s = some (cloudState answers.report) := by
      rw [checkAnswer, if_neg (by simp [hready]), hx]
    have htrace : s₁.trace = s.trace := by rw [hs₁]; rfl
    have hresources : s₁.resources = s.resources := by rw [hs₁]; rfl
    have hvm : s₁.vms v = (s.vms v).checked cfg answers.report := by
      rw [hs₁, State.setVm_vms_self]
    have hsteady : (s₁.vms v).steady = (s.vms v).steady := by
      rw [hvm, VM.steady_checked]
    obtain ⟨hcloud, hexecuted, hresource⟩ := VM.of_steady hsteady
    have hquiet : cloudState answers.report ≠ .ready →
        (cloudState answers.report = .configuring →
          (s.vms v).postProvisionCommandExecuted = true) → HookVisited cfg answers v s s₁ := by
      intro hnot hdone
      refine .quiet (fun h ↦ hnot ?_) (fun h ↦ hdone ?_) htrace hsteady
      · exact Option.some.inj (hcheck.symm.trans h)
      · exact Option.some.inj (hcheck.symm.trans h)
    have hoverdue : HookVisited cfg answers v s s₁ →
        Ends ((giveUpIfOverdue cfg answers.now v scratch).exec cfg) s₁
          (fun _ ↦ HookVisited cfg answers v s) fun _ ↦ HookVisited cfg answers v s := by
      intro h
      refine (ends_giveUpIfOverdue_same answers.now scratch).mono ?_ fun _ _ h ↦ h.elim
      rintro - _ rfl
      exact h
    cases hstate : cloudState answers.report with
    | ready =>
      rw [hstate] at hcheck
      have hadded : ∀ {s'}, s'.vms v = { s₁.vms v with cloudReady := true } →
          HookVisited cfg answers v s s' := by
        intro s' h
        refine .ready hcheck (by rw [h]) ?_
        rw [h, hvm]
        exact VM.ip_checked (.inl hstate) _
      exact (ends_addToTorque_visited answers scratch).mono (fun _ _ ↦ hadded) fun _ _ ↦ hadded
    | configuring =>
      rw [hstate] at hcheck
      show Ends (Proc.exec (postProvision cfg v >>= _) cfg) s₁ _ _
      rw [Proc.exec, run_bind, ends_bind]
      cases hfirst : (s.vms v).postProvisionCommandExecuted with
      | true =>
        refine (ends_postProvision_again (hexecuted.trans hfirst)).mono ?_ fun _ _ h ↦ h.elim
        rintro - _ rfl
        exact hoverdue (hquiet (by simp [hstate]) fun _ ↦ hfirst)
      | false =>
        have hip : (s₁.vms v).ip = answers.address := by
          rw [hvm]
          exact VM.ip_checked (.inr hstate) _
        have haddress : answers.address.isSome = true := address_of_seenUp (.inr hstate)
        have hsame : Command.postVmProvisionAction.invocation cfg.commands (s₁.vms v) =
            Command.postVmProvisionAction.invocation cfg.commands
              { s.vms v with ip := answers.address } := by
          have hchecked : SameVm (s.vms v) ((s.vms v).checked cfg answers.report) :=
            sameVm_checked _ _
          rw [← hvm] at hchecked
          simp only [Command.invocation, hchecked.hostname, hchecked.name, hip]
        rcases Classical.em (HookBuilt cfg (s.vms v) answers.address) with hbuilt | hunbuilt
        swap
        · rw [HookBuilt, ← hsame] at hunbuilt
          refine (ends_postProvision_unbuilt hunbuilt (hexecuted.trans hfirst)).mono
            (fun _ _ h ↦ h.elim) ?_
          rintro e _ rfl
          rw [hsame] at hunbuilt
          exact .unbuilt hcheck hfirst hunbuilt htrace hsteady
        refine (ends_postProvision_first hip haddress (hexecuted.trans hfirst)
          (by rwa [hsame])).mono ?_ ?_
        · rintro - s₂ ⟨hopen, htrace₂, hsteady₂⟩
          rw [hresources, hresource] at hopen htrace₂
          rw [hcloud, hready, hresource] at hsteady₂
          refine (ends_giveUpIfOverdue_same answers.now scratch).mono ?_ fun _ _ h ↦ h.elim
          rintro - _ rfl
          exact .prepared hcheck hfirst hbuilt hopen (htrace ▸ htrace₂) hsteady₂
        · rintro e s₂ ⟨hblocked, htrace₂, hvms⟩
          rw [hresources, hresource] at hblocked
          exact .blocked hcheck hfirst hblocked (htrace ▸ htrace₂) (by rw [hvms, hsteady])
    | building => exact hoverdue (hquiet (by simp [hstate]) (by simp [hstate]))
    | destroyed => exact hquiet (by simp [hstate]) (by simp [hstate])
    | error => exact hquiet (by simp [hstate]) (by simp [hstate])
  · rintro e s₁ ⟨⟨vm, hbroken, rfl⟩, hx⟩
    have hcheck : checkAnswer cfg answers v s = none := by
      rw [checkAnswer, if_neg (by simp [hready]), hx]
    refine .quiet (by simp [hcheck]) (by simp [hcheck]) rfl ?_
    rw [State.setVm_vms_self, hbroken.steady]

end Visit

/-! ### What a preparation consists of -/

section Preparation

variable {crs : CloudResources} {v : VmRef} {resource : String} {address : Option String}

theorem count_preparation_hook :
    (preparation crs v resource address).count (.command .postVmProvisionAction v) = 1 := by
  have hrules : ∀ e ∈ (if resource = "default" then
      address.toList.flatMap fun ip ↦ nfsRules crs ip crs.names else []),
      e ≠ .command .postVmProvisionAction v := by
    intro e he
    split at he
    · obtain ⟨ip, -, hrule⟩ := List.mem_flatMap.1 he
      obtain ⟨res, -, rfl⟩ := List.mem_map.1 hrule
      simp
    · exact absurd he List.not_mem_nil
  rw [preparation, List.count_cons_self, List.count_eq_zero_of_not_mem fun h ↦ hrules _ h rfl]

theorem count_preparation_rule (res ip : String) :
    (preparation crs v resource address).count (.addSecurityGroupRule res ip) =
      if resource = "default" ∧ address = some ip ∧ res ∈ crs.names ∧ res ≠ "default" ∧
        (crs.object res).hasVolume = true then 1 else 0 := by
  rw [preparation, List.count_cons_of_ne (by simp)]
  by_cases hdefault : resource = "default"
  · rw [if_pos hdefault]
    cases address with
    | none => simp
    | some given =>
      rw [Option.toList_some, List.flatMap_singleton, count_nfsRules crs.nodup]
      refine if_congr ?_ rfl rfl
      rw [Option.some_inj, eq_comm, and_iff_right hdefault]
  · simp [hdefault]

end Preparation

/-! ### All visits of a VM -/

/-- An answer of `vm_check`, and the address that the cloud reports with it. -/
structure Check where
  state : CloudState
  address : Option String

/-- The answer of `vm_check` in a visit, if there is one. -/
def checkOf (cfg : Config) (answers : ProvisionAnswers) (v : VmRef) (s : State) : Option Check :=
  (checkAnswer cfg answers v s).map fun state ↦ ⟨state, answers.address⟩

/-- The state after a visit, whether it returns or raises. -/
def afterVisit (cfg : Config) (answers : ProvisionAnswers) (v : VmRef) (scratch : ProvisionScratch)
    (s : State) : State :=
  stateAfter ((provisionVisit cfg answers v scratch).exec cfg) s

/-- Nothing changes that the preparation of a VM depends on. -/
structure LeavesVm (v : VmRef) (s s' : State) : Prop where
  vm : s'.vms v = s.vms v
  names : s'.resources.names = s.resources.names
  volume : ∀ res, (s'.resources.object res).hasVolume = (s.resources.object res).hasVolume

/-- A state that is reached from `s₀` with visits of `v`, which may raise, and anything in between
that leaves the VM alone. The lists hold what `vm_check` has answered and what the visits have
run. -/
inductive Visits (cfg : Config) (v : VmRef) (s₀ : State) :
    List Check → List Event → State → Prop
  | start : Visits cfg v s₀ [] [] s₀
  | visit {checks : List Check} {events : List Event} {s : State}
    (h : Visits cfg v s₀ checks events s) (answers : ProvisionAnswers)
    (scratch : ProvisionScratch) :
    Visits cfg v s₀ (checks ++ (checkOf cfg answers v s).toList)
      (events ++ s.since (afterVisit cfg answers v scratch s)) (afterVisit cfg answers v scratch s)
  | other {checks : List Check} {events : List Event} {s s' : State}
    (h : Visits cfg v s₀ checks events s) (hleaves : LeavesVm v s s') :
    Visits cfg v s₀ checks events s'

/-- The first time that cloud-init was found running and the command line could be built. -/
def firstConfiguring (cfg : Config) (vm : VM) (checks : List Check) : Option Check :=
  checks.find? fun check ↦ check.state = .configuring ∧ HookBuilt cfg vm check.address

/-- What has been run while the VM `vm` was not ready: its preparation with the address of the first
time, once; or only the command, if the firewall cannot be opened. -/
structure HookRun (cfg : Config) (crs : CloudResources) (v : VmRef) (vm : VM) (resource : String)
    (checks : List Check) (events : List Event) (executed : Bool) : Prop where
  opened : ¬Blocked cfg crs resource → executed = (firstConfiguring cfg vm checks).isSome ∧
    events = (firstConfiguring cfg vm checks).elim [] fun check ↦
      preparation crs v resource check.address
  blocked : Blocked cfg crs resource → executed = false ∧
    ∀ e ∈ events, e = .command .postVmProvisionAction v

/-- The invariant of the visits. -/
structure Watched (cfg : Config) (crs : CloudResources) (v : VmRef) (vm : VM) (resource : String)
    (checks : List Check) (events : List Event) (s : State) : Prop where
  name : (s.vms v).name = vm.name
  hostname : (s.vms v).hostname = vm.hostname
  sameResource : (s.vms v).cloudResourceName = resource
  names : s.resources.names = crs.names
  volume : ∀ res, (s.resources.object res).hasVolume = (crs.object res).hasVolume
  run : (s.vms v).cloudReady = false →
    HookRun cfg crs v vm resource checks events (s.vms v).postProvisionCommandExecuted

section Visits

variable {cfg : Config} {answers : ProvisionAnswers} {crs : CloudResources} {resource : String}
  {checks : List Check} {events : List Event} {s₀ s s' : State} {v : VmRef} {vm : VM}
  {scratch : ProvisionScratch}

theorem State.since_eq {added : List Event} (h : s'.trace = s.trace ++ added) :
    s.since s' = added := by
  rw [State.since, h, List.drop_left]

theorem firstConfiguring_concat (check : Check) :
    firstConfiguring cfg vm (checks ++ [check]) = (firstConfiguring cfg vm checks).or
      (if check.state = .configuring ∧ HookBuilt cfg vm check.address then some check
        else none) := by
  rw [firstConfiguring, List.find?_append, List.find?_singleton]
  simp only [firstConfiguring, decide_eq_true_eq]

/-- The name and the host name of a VM are those it was started with. -/
theorem Watched.hookBuilt_iff (h : Watched cfg crs v vm resource checks events s)
    (address : Option String) :
    HookBuilt cfg (s.vms v) address ↔ HookBuilt cfg vm address := by
  simp only [HookBuilt, Command.invocation, h.name, h.hostname]

/-- The preparation depends on the names of the resources and on which of them have a volume. -/
theorem Watched.blocked_iff (h : Watched cfg crs v vm resource checks events s) :
    Blocked cfg s.resources resource ↔ Blocked cfg crs resource := by
  simp only [Blocked, OtherVolume, h.names, h.volume]

theorem Watched.preparation_eq (h : Watched cfg crs v vm resource checks events s)
    (address : Option String) :
    preparation s.resources v resource address = preparation crs v resource address := by
  simp only [preparation, nfsRules, h.names, h.volume]

/-- **One visit.** -/
theorem Watched.visit (h : Watched cfg crs v vm resource checks events s)
    (hready : (s.vms v).cloudReady = false) (hvisit : HookVisited cfg answers v s s')
    (hready' : (s'.vms v).cloudReady = false) :
    HookRun cfg crs v vm resource (checks ++ (checkOf cfg answers v s).toList)
      (events ++ s.since s') (s'.vms v).postProvisionCommandExecuted := by
  have hrun := h.run hready
  cases hvisit with
  | ready hcheck hready₁ hip => exact absurd (hready'.symm.trans hready₁) Bool.false_ne_true
  | quiet hnot hdone htrace hsteady =>
    have hexecuted : (s'.vms v).postProvisionCommandExecuted =
        (s.vms v).postProvisionCommandExecuted := (VM.of_steady hsteady).2.1
    rw [State.since_eq (htrace.trans (List.append_nil _).symm), List.append_nil, hexecuted]
    refine ⟨fun hopen ↦ ?_, hrun.blocked⟩
    -- cloud-init has been found running before, if it is now
    have hsame : firstConfiguring cfg vm (checks ++ (checkOf cfg answers v s).toList) =
        firstConfiguring cfg vm checks := by
      rw [checkOf]
      cases hcheck : checkAnswer cfg answers v s with
      | none => simp
      | some state =>
        show firstConfiguring cfg vm (checks ++ [⟨state, answers.address⟩]) = _
        rw [firstConfiguring_concat]
        by_cases hstate : state = .configuring
        · have hsome := (hrun.opened hopen).1.symm.trans (hdone (hstate ▸ hcheck))
          obtain ⟨first, hfirst⟩ := Option.isSome_iff_exists.1 hsome
          rw [hfirst, Option.some_or]
        · rw [if_neg fun h ↦ hstate h.1, Option.or_none]
    rw [hsame]
    exact hrun.opened hopen
  | prepared hcheck hfirst hbuilt hopen htrace hsteady =>
    rw [h.sameResource, h.blocked_iff] at hopen
    rw [h.hookBuilt_iff] at hbuilt
    have hexecuted : (s'.vms v).postProvisionCommandExecuted = true :=
      (VM.of_steady hsteady).2.1
    obtain ⟨hnone, hevents⟩ := hrun.opened hopen
    rw [hfirst] at hnone
    have hfirst₁ : firstConfiguring cfg vm checks = none := by simpa using hnone.symm
    rw [hfirst₁] at hevents
    refine ⟨fun _ ↦ ?_, fun hblocked ↦ absurd hblocked hopen⟩
    rw [checkOf, hcheck, State.since_eq htrace, hevents, hexecuted, h.sameResource,
      h.preparation_eq]
    show true = (firstConfiguring cfg vm (checks ++ [⟨.configuring, answers.address⟩])).isSome ∧
      _ = (firstConfiguring cfg vm (checks ++ [⟨.configuring, answers.address⟩])).elim [] _
    rw [firstConfiguring_concat, hfirst₁, if_pos ⟨rfl, hbuilt⟩]
    exact ⟨rfl, rfl⟩
  | unbuilt hcheck hfirst hunbuilt htrace hsteady =>
    rw [h.hookBuilt_iff] at hunbuilt
    have hexecuted : (s'.vms v).postProvisionCommandExecuted =
        (s.vms v).postProvisionCommandExecuted := (VM.of_steady hsteady).2.1
    rw [State.since_eq (htrace.trans (List.append_nil _).symm), List.append_nil, hexecuted]
    have hsame : firstConfiguring cfg vm (checks ++ (checkOf cfg answers v s).toList) =
        firstConfiguring cfg vm checks := by
      rw [checkOf, hcheck]
      show firstConfiguring cfg vm (checks ++ [⟨.configuring, answers.address⟩]) = _
      rw [firstConfiguring_concat, if_neg fun h ↦ hunbuilt h.2, Option.or_none]
    exact ⟨fun hopen ↦ hsame ▸ hrun.opened hopen, hrun.blocked⟩
  | blocked hcheck hfirst hblocked htrace hsteady =>
    rw [h.sameResource, h.blocked_iff] at hblocked
    have hexecuted : (s'.vms v).postProvisionCommandExecuted =
        (s.vms v).postProvisionCommandExecuted := (VM.of_steady hsteady).2.1
    refine ⟨fun hopen ↦ absurd hblocked hopen, fun _ ↦ ⟨hexecuted.trans hfirst, ?_⟩⟩
    rw [State.since_eq htrace, List.forall_mem_append]
    exact ⟨(hrun.blocked hblocked).2, by simp⟩

/-- A VM that is ready in the cloud is left alone. -/
theorem afterVisit_of_ready (hready : (s.vms v).cloudReady = true) :
    afterVisit cfg answers v scratch s = s := by
  refine stateAfter_of_ends ((ends_provisionVisit answers scratch).mono (fun _ _ h ↦ h.2.2 hready)
    fun _ _ h ↦ ?_)
  exact absurd (h.2.2.symm.trans hready) Bool.false_ne_true

theorem scanned_afterVisit :
    Scanned (.looking (· = v)) s (afterVisit cfg answers v scratch s) :=
  stateAfter_of_ends ((ends_provisionVisit answers scratch).mono (fun _ _ h ↦ h.2.1)
    fun _ _ h ↦ h.2.1)

/-- What a visit adds to the trace of a VM that is not ready in the cloud. -/
theorem hookVisited_afterVisit (hready : (s.vms v).cloudReady = false) :
    HookVisited cfg answers v s (afterVisit cfg answers v scratch s) :=
  stateAfter_of_ends (ends_provisionVisit_hook hready)

/-- **Every run.** -/
theorem watched_of_visits (hresource : (s₀.vms v).cloudResourceName = resource)
    (hexecuted : (s₀.vms v).postProvisionCommandExecuted = false)
    (h : Visits cfg v s₀ checks events s) :
    Watched cfg s₀.resources v (s₀.vms v) resource checks events s := by
  induction h with
  | start =>
    refine ⟨rfl, rfl, hresource, rfl, fun _ ↦ rfl, fun _ ↦ ⟨fun _ ↦ ⟨hexecuted, rfl⟩, fun _ ↦ ?_⟩⟩
    exact ⟨hexecuted, fun _ he ↦ absurd he List.not_mem_nil⟩
  | @visit checks events s h answers scratch ih =>
    cases hready : (s.vms v).cloudReady with
    | true =>
      rw [afterVisit_of_ready hready, State.since_eq (List.append_nil _).symm, checkOf, checkAnswer,
        if_pos hready, List.append_nil]
      simpa using ih
    | false =>
      have hscanned : Scanned (.looking (· = v)) s (afterVisit cfg answers v scratch s) :=
        scanned_afterVisit
      refine ⟨?_, ?_, ?_, ?_, fun res ↦ ?_, ih.visit hready (hookVisited_afterVisit hready)⟩
      · rw [(hscanned.vm v).name, ih.name]
      · rw [(hscanned.vm v).hostname, ih.hostname]
      · rw [(hscanned.vm v).resource, ih.sameResource]
      · rw [hscanned.resources, ih.names]
      · rw [hscanned.resources, ih.volume]
  | @other checks events s s' h hleaves ih =>
    refine ⟨?_, ?_, ?_, ?_, fun res ↦ ?_, fun hready ↦ ?_⟩
    · rw [hleaves.vm, ih.name]
    · rw [hleaves.vm, ih.hostname]
    · rw [hleaves.vm, ih.sameResource]
    · rw [hleaves.names, ih.names]
    · rw [hleaves.volume, ih.volume]
    · rw [hleaves.vm] at hready ⊢
      exact ih.run hready

/-- **The first loop of a call** visits a starting VM, and leaves it alone in the visits of
others. -/
theorem ends_provisionScan_visits {answers : ℕ → ProvisionAnswers} (vs : List VmRef)
    (h : Visits cfg v s₀ checks events s) :
    Ends ((provisionScan cfg answers vs).exec cfg) s
      (fun _ s' ↦ ∃ checks' events', Visits cfg v s₀ (checks ++ checks') (events ++ events') s')
      fun _ s' ↦ ∃ checks' events',
        Visits cfg v s₀ (checks ++ checks') (events ++ events') s' := by
  refine ends_forEach (I := fun _ _ s' ↦ ∃ checks' events',
    Visits cfg v s₀ (checks ++ checks') (events ++ events') s') ?_
      ⟨[], [], by rwa [List.append_nil, List.append_nil]⟩
  rintro done w rest scratch s₁ - ⟨checks', events', h₁⟩
  by_cases hw : w = v
  · subst hw
    have hvisit := Visits.visit h₁ (answers done.length) scratch
    rw [List.append_assoc, List.append_assoc] at hvisit
    have hthen : ∀ s₂, s₂ = afterVisit cfg (answers done.length) w scratch s₁ →
        ∃ checks' events', Visits cfg w s₀ (checks ++ checks') (events ++ events') s₂ := by
      rintro _ rfl
      exact ⟨_, _, hvisit⟩
    exact ends_stateAfter.mono (fun _ ↦ hthen) fun _ ↦ hthen
  · have hother : ∀ s₂, Scanned (.looking (· = w)) s₁ s₂ →
        ∃ checks' events', Visits cfg v s₀ (checks ++ checks') (events ++ events') s₂ := by
      intro s₂ h₂
      refine ⟨checks', events', .other h₁ ⟨h₂.untouched v (Ne.symm hw), ?_, fun res ↦ ?_⟩⟩
      · rw [h₂.resources]
      · rw [h₂.resources]
    exact (ends_provisionVisit (answers done.length) scratch).mono (fun _ s₂ h₂ ↦ hother s₂ h₂.2.1)
      fun _ s₂ h₂ ↦ hother s₂ h₂.2.1

end Visits

/-! ### Preparing a VM once -/

/-- The VM has been prepared once: the command was run for it, and each rule that it needs was added
for its address. -/
structure PreparedOnce (crs : CloudResources) (v : VmRef) (vm : VM) (events : List Event) :
    Prop where
  hook : events.count (.command .postVmProvisionAction v) = 1
  rules : vm.cloudResourceName = "default" → ∃ ip, vm.ip = some ip ∧
    ∀ res ∈ crs.names, res ≠ "default" → (crs.object res).hasVolume = true →
      events.count (.addSecurityGroupRule res ip) = 1

theorem checkAnswer_eq_some {cfg : Config} {answers : ProvisionAnswers} {v : VmRef} {s : State}
    {state : CloudState} (h : checkAnswer cfg answers v s = some state) :
    state = cloudState answers.report := by
  rw [checkAnswer] at h
  split at h
  · exact absurd h.symm (Option.some_ne_none state)
  · split at h
    · rename_i hx
      obtain rfl := Option.some.inj h
      exact ((ends_vmCheck answers.report).of_ok hx).2.1
    · exact absurd h.symm (Option.some_ne_none state)

/-- A VM becomes ready in a visit in which `vm_check` answers that it is. -/
theorem ready_of_afterVisit {cfg : Config} {answers : ProvisionAnswers} {v : VmRef} {s : State}
    {scratch : ProvisionScratch} (hbefore : (s.vms v).cloudReady = false)
    (hready : ((afterVisit cfg answers v scratch s).vms v).cloudReady = true) :
    answers.address.isSome = true ∧
      ((afterVisit cfg answers v scratch s).vms v).ip = answers.address := by
  have hnot : ∀ {executed resource}, ((afterVisit cfg answers v scratch s).vms v).steady ≠
      (false, executed, resource) := fun hsteady ↦
    absurd (hready.symm.trans (VM.of_steady hsteady).1) Bool.noConfusion
  have hsteady : (s.vms v).steady = (false, (s.vms v).postProvisionCommandExecuted,
      (s.vms v).cloudResourceName) := by
    rw [VM.steady, hbefore]
  have hsame : ((afterVisit cfg answers v scratch s).vms v).steady ≠ (s.vms v).steady := fun h ↦
    hnot (h.trans hsteady)
  have hvisited : HookVisited cfg answers v s (afterVisit cfg answers v scratch s) :=
    hookVisited_afterVisit hbefore
  cases hvisited with
  | ready hcheck _ hip => exact ⟨address_of_seenUp (.inl (checkAnswer_eq_some hcheck).symm), hip⟩
  | quiet _ _ _ hsteady => exact absurd hsteady hsame
  | prepared _ _ _ _ _ hsteady => exact absurd hsteady hnot
  | unbuilt _ _ _ _ hsteady => exact absurd hsteady hsame
  | blocked _ _ _ _ hsteady => exact absurd hsteady hsame

/-- **The provisioning hook.** A VM that this process has started and that becomes ready has been
prepared once before if and only if `vm_check` has answered before that cloud-init is running, at a
time when the command line could be built, and, for a VM of the default resource and if another one
has a volume, there is a security group and the address was the same at the first such answer as it
is now. -/
theorem hook_runs_once_iff (cfg : Config) (v : VmRef) (s₀ s : State) (request : ProvisionVM)
    (server : StartedServer) (checks : List Check) (events : List Event)
    (answers : ProvisionAnswers) (scratch : ProvisionScratch)
    (hstarted : s₀.vms v = startedVm cfg s₀.resources request server)
    (hvisits : Visits cfg v s₀ checks events s) (hbefore : (s.vms v).cloudReady = false)
    (hready : ((afterVisit cfg answers v scratch s).vms v).cloudReady = true) :
    PreparedOnce s₀.resources v ((afterVisit cfg answers v scratch s).vms v) events ↔
      ∃ check, firstConfiguring cfg (s₀.vms v) checks = some check ∧
        (request.resourceName = "default" → OtherVolume s₀.resources s₀.resources.names →
          cfg.cloudSecurityGroups ≠ [] ∧ check.address = answers.address) := by
  have hwatched : Watched cfg s₀.resources v (s₀.vms v) request.resourceName checks events s :=
    watched_of_visits (by rw [hstarted]; rfl) (by rw [hstarted]; rfl) hvisits
  have hrun := hwatched.run hbefore
  obtain ⟨haddress, hip⟩ := ready_of_afterVisit hbefore hready
  have hresource : ((afterVisit cfg answers v scratch s).vms v).cloudResourceName =
      request.resourceName := by
    have hscanned : Scanned (.looking (· = v)) s (afterVisit cfg answers v scratch s) :=
      scanned_afterVisit
    rw [(hscanned.vm v).resource, hwatched.sameResource]
  constructor
  · intro h
    have hopen : ¬Blocked cfg s₀.resources request.resourceName := by
      rintro hblocked
      obtain ⟨hdefault, ⟨res, hres, hother, hvolume⟩, -⟩ := id hblocked
      obtain ⟨ip, -, hrules⟩ := h.rules (hresource.trans hdefault)
      have hcount := hrules res hres hother hvolume
      rw [List.count_eq_zero_of_not_mem fun hmem ↦ by
        simpa using (hrun.blocked hblocked).2 _ hmem] at hcount
      omega
    obtain ⟨-, hevents⟩ := hrun.opened hopen
    cases hfirst : firstConfiguring cfg (s₀.vms v) checks with
    | none =>
      have hhook := h.hook
      rw [hevents, hfirst] at hhook
      exact absurd hhook (by simp)
    | some check =>
      rw [hfirst] at hevents
      refine ⟨check, rfl, fun hdefault hvolume ↦ ⟨fun hnone ↦ hopen ⟨hdefault, hvolume, hnone⟩, ?_⟩⟩
      obtain ⟨res, hres, hother, hhas⟩ := hvolume
      obtain ⟨ip, hnow, hrules⟩ := h.rules (hresource.trans hdefault)
      have hcount := hrules res hres hother hhas
      rw [hevents, Option.elim_some, count_preparation_rule] at hcount
      split at hcount
      · rename_i hrule
        rw [hrule.2.1, ← hip, hnow]
      · omega
  · rintro ⟨check, hfirst, hsame⟩
    have hopen : ¬Blocked cfg s₀.resources request.resourceName := fun hblocked ↦
      (hsame hblocked.1 hblocked.2.1).1 hblocked.2.2
    obtain ⟨-, hevents⟩ := hrun.opened hopen
    rw [hfirst, Option.elim_some] at hevents
    obtain ⟨ip, hsome⟩ := Option.isSome_iff_exists.1 haddress
    refine ⟨hevents ▸ count_preparation_hook, fun hdefault ↦ ⟨ip, hip.trans hsome, ?_⟩⟩
    intro res hres hother hvolume
    have hdefault' := hresource.symm.trans hdefault
    have hthen := (hsame hdefault' ⟨res, hres, hother, hvolume⟩).2
    rw [hevents, count_preparation_rule]
    exact if_pos ⟨hdefault', hthen.trans hsome, hres, hother, hvolume⟩

/-- A visit that finds cloud-init running. -/
def foundConfiguring : ProvisionAnswers :=
  { stillBuilding 0 with report := some stillConfiguring }

/-- A visit that finds the server ready. -/
def foundReady : ProvisionAnswers :=
  { stillBuilding 0 with report := some { stillConfiguring with serverUp := true } }

/-- The state after the first visit has found cloud-init running. -/
def afterConfiguring : State :=
  afterVisit {} foundConfiguring 0 ⟨[], []⟩ oneRequested

theorem hook_runs_once_iff_foundConfiguring :
    PreparedOnce oneRequested.resources 0
      ((afterVisit {} foundReady 0 ⟨[], []⟩ afterConfiguring).vms 0)
      ([] ++ oneRequested.since afterConfiguring) := by
  refine (hook_runs_once_iff {} 0 oneRequested afterConfiguring oneRequest ⟨"id", "1", 4, 0⟩ _ _
    foundReady ⟨[], []⟩ rfl (.visit .start foundConfiguring ⟨[], []⟩) rfl rfl).2
      ⟨⟨.configuring, some "10.0.0.1"⟩, rfl, fun _ hvolume ↦ ?_⟩
  obtain ⟨res, hres, hother, -⟩ := hvolume
  exact absurd (List.mem_singleton.1 hres) hother

/-- A VM whose server is ready when it is first looked at is not prepared at all. -/
theorem hook_skipped :
    ¬∀ (cfg : Config) (v : VmRef) (s₀ s : State) (request : ProvisionVM) (server : StartedServer)
      (checks : List Check) (events : List Event) (answers : ProvisionAnswers)
      (scratch : ProvisionScratch), s₀.vms v = startedVm cfg s₀.resources request server →
      Visits cfg v s₀ checks events s → (s.vms v).cloudReady = false →
      ((afterVisit cfg answers v scratch s).vms v).cloudReady = true →
        PreparedOnce s₀.resources v ((afterVisit cfg answers v scratch s).vms v) events := by
  intro h
  have hprepared := h {} 0 oneRequested oneRequested oneRequest ⟨"id", "1", 4, 0⟩ [] [] foundReady
    ⟨[], []⟩ rfl .start rfl rfl
  exact absurd hprepared.hook (by decide)

end DynamicTorque
