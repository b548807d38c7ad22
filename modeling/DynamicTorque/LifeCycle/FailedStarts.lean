import DynamicTorque.LifeCycle.Timeouts
import DynamicTorque.LifeCycle.CleanupDecisions

/-!
# Asking again after a failed start

`update_provision_status` asks for each VM again that it gives up, with what the VM object knows
about the request it was started for. The constructor drops the zone and makes the VM dynamic; a
check that sees the server up puts in the default zone and the flavour that the cloud reports.

* `ends_provisionAndGiveUp`: a call asks for the VMs that it gives up as the scan leaves them.
* `retryable_startedVm_iff`: what the first visit of a VM has to see, so that it is asked for again.
* `failed_starts_retried_iff`: every failed start is retried if and only if each request that failed
  was not static, and its VM knows its flavour and zone after its visit.
-/

open Python Atomic Program

namespace DynamicTorque

/-! ### The program up to the launch -/

/-- The first two loops of `update_provision_status`. -/
def provisionAndGiveUp (cfg : Config) (answers : UpdateAnswers) : Proc ProvisionScratch := do
  let starting ← Proc.list .starting
  let scratch ← provisionScan cfg answers.visit starting
  Proc.locked (.commitReady scratch.readyToUse)
  Program.forEach (fun i vr _ ↦ giveUp (answers.destroy i) vr.1 vr.2) 0 scratch.toDelete ()
  return scratch

theorem updateProvisionStatus_eq (cfg : Config) (answers : UpdateAnswers) :
    updateProvisionStatus cfg answers = (do
      let scratch ← provisionAndGiveUp cfg answers
      Proc.locked .updateAvailableCores
      Program.when (scratch.readyToUse.length > 0) Proc.dumpNodes
      finishProvisioning cfg answers.launch) := by
  simp only [updateProvisionStatus, provisionAndGiveUp, provisionScan, bind_assoc, pure_bind]

/-! ### What is asked for -/

/-- The id of a flavour, however it is referred to. -/
def FlavorRef.flavorId : FlavorRef → String
  | .id flavorId => flavorId
  | .object flavor => flavor.id

/-- The request with which a VM is asked for again, if its flavour and zone are known. -/
def VM.again (vm : VM) : Option ProvisionVM :=
  match vm.flavor, vm.availabilityZone with
  | some flavor, some zone => some ⟨flavor, some zone, vm.cloudResourceName, !vm.dynamic⟩
  | _, _ => none

/-- Two requests for the same: the same flavour, zone and resource, and both static or neither. -/
structure SameRequest (request asked : ProvisionVM) : Prop where
  flavor : asked.flavor.flavorId = request.flavor.flavorId
  zone : asked.zone = request.zone
  resource : asked.resourceName = request.resourceName
  static : asked.static = request.static

/-- From `s` to `s'` one request is added for each VM that is moved to the deleting list, the same
as the request it was started for. -/
def Retried (request : VmRef → ProvisionVM) (s s' : State) : Prop :=
  ∃ moved added, s'.deleting = s.deleting ++ moved ∧ s'.waiting = s.waiting ++ added ∧
    List.Forall₂ (fun v entry ↦ SameRequest (request v) entry.request) moved added

section Again

variable {α β : Type}

/-- Every element has its partner among the values of `f` if and only if `f` has the right value at
each element. -/
theorem forall₂_filterMap_iff {R : α → β → Prop} {f : α → Option β} {xs : List α} :
    List.Forall₂ R xs (xs.filterMap f) ↔ ∀ x ∈ xs, ∃ y, f x = some y ∧ R x y := by
  induction xs with
  | nil => simp
  | cons x xs ih =>
    cases hx : f x with
    | none =>
      refine iff_of_false (fun h ↦ ?_) fun h ↦ ?_
      · -- a value is missing
        have hlength := h.length_eq
        have hle : (xs.filterMap f).length ≤ xs.length := List.length_filterMap_le f xs
        rw [List.filterMap_cons_none hx, List.length_cons] at hlength
        omega
      · obtain ⟨y, hy, -⟩ := h x List.mem_cons_self
        exact Option.some_ne_none y (hy.symm.trans hx)
    | some y =>
      rw [List.filterMap_cons_some hx, List.forall₂_cons, ih, List.forall_mem_cons, hx]
      simp

end Again

section GiveUp

variable {cfg : Config} {s : State} {v : VmRef}

theorem ends_askAgain (vm : VM) :
    Ends ((askAgain vm).exec cfg) s
      (fun _ s' ↦ s' = { s with waiting := s'.waiting, nextRequest := s'.nextRequest } ∧
        ∃ added, s'.waiting = s.waiting ++ added ∧
          added.map WaitingRequest.request = vm.again.toList) fun _ _ ↦ False := by
  have hnothing : vm.again = none →
      s = { s with waiting := s.waiting, nextRequest := s.nextRequest } ∧
        ∃ added, s.waiting = s.waiting ++ added ∧
          added.map WaitingRequest.request = vm.again.toList := fun hnone ↦
    ⟨rfl, [], (List.append_nil _).symm, by rw [hnone]; rfl⟩
  rw [askAgain]
  cases hflavor : vm.flavor with
  | none => exact hnothing (by simp [VM.again, hflavor])
  | some flavor =>
    cases hzone : vm.availabilityZone with
    | none => exact hnothing (by simp [VM.again, hflavor, hzone])
    | some zone => exact ⟨rfl, _, rfl, by simp [VM.again, hflavor, hzone]⟩

/-- **One VM that is given up**, with what is asked for. -/
theorem ends_giveUp_again {call : DestroyCall} {record : Option WorkerNode}
    (hmem : v ∈ s.starting) (hknown : (s.vms v).cloudResourceName ∈ s.resources.names) :
    Ends ((giveUp call v record).exec cfg) s
      (fun _ s' ↦ ∃ added, s'.waiting = s.waiting ++ added ∧
        added.map WaitingRequest.request = (s.vms v).again.toList) fun _ _ ↦ False := by
  rw [giveUp, ends_vm, Proc.exec, run_bind, ends_bind]
  refine (ends_askAgain (s.vms v)).mono ?_ fun _ _ h ↦ h
  rintro - s₁ ⟨h₁, hadded⟩
  have hknown₁ : (s₁.vms v).cloudResourceName ∈ s₁.resources.names := by rwa [h₁]
  have hscan : Scanning .any (vmDestroy v record call.answer call.now) fun _ ↦ True :=
    scanning_vmDestroy trivial (fun _ ↦ trivial) _
  rw [run_bind, ends_bind]
  refine ((ends_of_scanning hscan s₁).and (ends_vmDestroy_returns hknown₁)).mono ?_
    fun _ _ h ↦ h.2
  rintro - s₂ ⟨⟨-, h₂⟩, -⟩
  have hmem₂ : v ∈ s₂.starting := by rwa [h₂.starting, h₁]
  refine ends_block.2 ((ends_startingToDeleting hmem₂).2 ?_)
  show ∃ added, s₂.waiting = s.waiting ++ added ∧ _
  rwa [h₂.waiting]

/-- **All VMs that are given up**, with what is asked for. -/
theorem ends_giveUpAll_again {calls : ℕ → DestroyCall}
    {toDelete : List (VmRef × Option WorkerNode)}
    (hsub : (toDelete.map Prod.fst).Subperm s.starting) (hnodup : (toDelete.map Prod.fst).Nodup)
    (hknown : ∀ v ∈ toDelete.map Prod.fst, (s.vms v).cloudResourceName ∈ s.resources.names) :
    Ends (Proc.exec (forEach (fun i vr _ ↦ giveUp (calls i) vr.1 vr.2) 0 toDelete ()) cfg) s
      (fun _ s' ↦ s'.deleting = s.deleting ++ toDelete.map Prod.fst ∧
        ∃ added, s'.waiting = s.waiting ++ added ∧ added.map WaitingRequest.request =
          (toDelete.map Prod.fst).filterMap fun v ↦ (s.vms v).again) fun _ _ ↦ False := by
  let destroys : Destroys := fun _ _ _ _ ↦ True
  refine (ends_forEach (I := fun done _ s' ↦ GivenUp destroys done s s' ∧
    ∃ added, s'.waiting = s.waiting ++ added ∧ added.map WaitingRequest.request =
      (done.map Prod.fst).filterMap fun v ↦ (s.vms v).again) ?_
        ⟨.refl s, [], (List.append_nil _).symm, rfl⟩).mono
    (fun _ _ h ↦ ⟨h.1.deleting, h.2⟩) fun _ _ h ↦ h
  rintro done ⟨v, record⟩ rest - s₁ hdone ⟨h₁, added, hadded, hmap⟩
  have hv : v ∈ toDelete.map Prod.fst := by simp [← hdone]
  have hsplit := map_fst_split hdone
  have hfresh : v ∉ done.map Prod.fst := notMem_of_nodup hsplit hnodup
  have hmem : v ∈ s₁.starting := by
    rw [h₁.starting]
    exact mem_diff_of_subperm (hsplit ▸ hsub)
  have hvm : s₁.vms v = s.vms v := h₁.untouched v hfresh
  have hknown₁ : (s₁.vms v).cloudResourceName ∈ s₁.resources.names := by
    rw [hvm, h₁.resources]
    exact hknown v hv
  have hone : Ends ((giveUp (calls done.length) v record).exec cfg) s₁
      (fun _ s' ↦ GivenUp destroys [(v, record)] s₁ s' ∧ _) _ := ends_giveUp hmem trivial
  refine (hone.and (ends_giveUp_again hmem hknown₁)).mono ?_ fun _ _ h ↦ h.2
  rintro - s₂ ⟨⟨h₂, -⟩, added₂, hadded₂, hmap₂⟩
  refine ⟨h₁.trans h₂, added ++ added₂, by rw [hadded₂, hadded, List.append_assoc], ?_⟩
  rw [List.map_append, hmap, hmap₂, hvm, List.map_append, List.filterMap_append]
  cases hagain : (s.vms v).again with
  | none => simp [hagain]
  | some request => simp [hagain]

end GiveUp

/-! ### The call -/

section Call

variable {cfg : Config} {answers : UpdateAnswers} {s : State}

/-- **`update_provision_status`, up to the launch.** For each VM that is given up it asks for what
the VM is after its visit. If it raises, it has neither moved a VM nor asked for one. -/
theorem ends_provisionAndGiveUp (hnodup : s.starting.Nodup)
    (hknown : ∀ v ∈ s.starting, (s.vms v).cloudResourceName ∈ s.resources.names) :
    Ends ((provisionAndGiveUp cfg answers).exec cfg) s
      (fun _ s' ↦ s'.deleting =
          s.deleting ++ (s.provisionScratch cfg answers).toDelete.map Prod.fst ∧
        ∃ (added : List WaitingRequest) (vms : VmRef → VM), s'.waiting = s.waiting ++ added ∧
          added.map WaitingRequest.request =
            ((s.provisionScratch cfg answers).toDelete.map Prod.fst).filterMap
              (fun v ↦ (vms v).again) ∧
          ∀ (i : ℕ) v, s.starting[i]? = some v → vms v = (s.vms v).visited cfg (answers.visit i))
      fun _ s' ↦ s'.deleting = s.deleting ∧ s'.waiting = s.waiting := by
  have hsub : ((s.provisionScratch cfg answers).readyToUse ++
      (s.provisionScratch cfg answers).toDelete.map Prod.fst).Subperm s.starting :=
    provisionScratch_subperm
  have hready : (s.provisionScratch cfg answers).readyToUse.Subperm s.starting :=
    (List.sublist_append_left _ _).subperm.trans hsub
  have hgivenUp : ((s.provisionScratch cfg answers).toDelete.map Prod.fst).Subperm s.starting :=
    (List.sublist_append_right _ _).subperm.trans hsub
  obtain ⟨-, hnodup', hdisjoint⟩ := nodup_of_subperm hsub hnodup
  rw [provisionAndGiveUp, ends_list, Proc.exec, run_bind, ends_bind]
  refine ((ends_provisionScan hnodup).and (ends_provisionScan_visited hnodup)).mono ?_
    fun _ s₁ h₁ ↦ ⟨h₁.1.2.deleting, h₁.1.2.waiting⟩
  rintro scratch s₁ ⟨⟨rfl, h₁, -⟩, hvisited⟩
  have hready₁ : (s.provisionScratch cfg answers).readyToUse.Subperm s₁.starting := by
    rwa [h₁.starting]
  refine ends_locked.2 ((ends_commitReady hready₁).mono (fun _ s₂ h₂ ↦ ?_) ?_)
  · have hrest : ((s.provisionScratch cfg answers).toDelete.map Prod.fst).Subperm
        s₂.starting := by
      rw [h₂.starting, h₁.starting]
      exact subperm_diff hsub
    -- a VM that is given up is not among the ready ones
    have hvms : ∀ v ∈ (s.provisionScratch cfg answers).toDelete.map Prod.fst,
        s₂.vms v = s₁.vms v := fun v hv ↦ h₂.untouched v fun h ↦ hdisjoint h hv
    have hknown₂ : ∀ v ∈ (s.provisionScratch cfg answers).toDelete.map Prod.fst,
        (s₂.vms v).cloudResourceName ∈ s₂.resources.names := by
      intro v hv
      rw [hvms v hv, h₂.names, h₁.resources, (h₁.vm v).resource]
      exact hknown v (hgivenUp.subset hv)
    rw [Proc.exec, run_bind, ends_bind]
    refine (ends_giveUpAll_again hrest hnodup' hknown₂).mono ?_ fun _ _ h ↦ h.elim
    rintro - s₃ ⟨hdeleting, added, hadded, hmap⟩
    refine ⟨by rw [hdeleting, h₂.deleting, h₁.deleting], added, s₁.vms, ?_, ?_, hvisited⟩
    · rw [hadded, h₂.waiting, h₁.waiting]
    · rw [hmap]
      exact List.filterMap_congr fun v hv ↦ congrArg VM.again (hvms v hv)
  · rintro e s' ⟨-, done, v, s₂, -, h₂, -, -, rfl⟩
    exact ⟨h₂.deleting.trans h₁.deleting, h₂.waiting.trans h₁.waiting⟩

end Call

/-! ### Which failed starts are retried -/

/-- What is known of a starting VM and the request it was started for: the VM is dynamic, even if
the request is static, and belongs to the resource that was asked for. -/
structure StartedFor (crs : CloudResources) (request : ProvisionVM) (vm : VM) : Prop where
  resource : vm.cloudResourceName = request.resourceName
  known : request.resourceName ∈ crs.names
  dynamic : vm.dynamic = true

/-- The visit sees the server up, and so reads its flavour and sets its zone. -/
def ProvisionAnswers.SeesUp (answers : ProvisionAnswers) (vm : VM) : Prop :=
  vm.cloudReady = false ∧ SeenUp answers.report

instance (answers : ProvisionAnswers) (vm : VM) : Decidable (answers.SeesUp vm) := by
  unfold ProvisionAnswers.SeesUp
  infer_instance

/-- The flavour that the VM knows after its visit. -/
def ProvisionAnswers.flavorSeen (answers : ProvisionAnswers) (vm : VM) : Option FlavorRef :=
  if answers.SeesUp vm then (answers.report.bind ServerReport.flavor).map .object else vm.flavor

/-- The zone that the VM knows after its visit. -/
def ProvisionAnswers.zoneSeen (cfg : Config) (answers : ProvisionAnswers) (vm : VM) :
    Option String :=
  if answers.SeesUp vm then some cfg.cloudAvailabilityZone else vm.availabilityZone

/-- A VM that is given up in this visit is asked for again as it was asked for. -/
structure Retryable (cfg : Config) (answers : ProvisionAnswers) (request : ProvisionVM) (vm : VM) :
    Prop where
  dynamic : request.static = false
  zone : ∃ zone, request.zone = some zone ∧ answers.zoneSeen cfg vm = some zone
  flavor : ∃ flavor, flavor.flavorId = request.flavor.flavorId ∧ answers.flavorSeen vm = some flavor

section Retry

variable {cfg : Config} {answers : ProvisionAnswers} {crs : CloudResources} {request : ProvisionVM}
  {vm vm' : VM}

/-- A start for a request. -/
theorem startedFor_startedVm (hknown : request.resourceName ∈ crs.names) (server : StartedServer) :
    StartedFor crs request (startedVm cfg crs request server) :=
  ⟨rfl, hknown, rfl⟩

/-- No scan changes what is known. -/
theorem StartedFor.sameVm (h : StartedFor crs request vm) (hsame : SameVm vm vm') :
    StartedFor crs request vm' :=
  ⟨hsame.resource.trans h.resource, h.known, hsame.dynamic.trans h.dynamic⟩

theorem flavor_visited : (vm.visited cfg answers).flavor = answers.flavorSeen vm := by
  rw [VM.visited_attribute VM.flavor (fun _ _ ↦ rfl) fun _ _ ↦ rfl, VM.flavor_checked,
    ProvisionAnswers.flavorSeen]
  cases hready : vm.cloudReady <;> simp [ProvisionAnswers.SeesUp, hready]

theorem zone_visited : (vm.visited cfg answers).availabilityZone = answers.zoneSeen cfg vm := by
  rw [VM.visited_attribute VM.availabilityZone (fun _ _ ↦ rfl) fun _ _ ↦ rfl, VM.zone_checked,
    ProvisionAnswers.zoneSeen]
  cases hready : vm.cloudReady <;> simp [ProvisionAnswers.SeesUp, hready]

theorem sameVm_visited : SameVm vm (vm.visited cfg answers) := by
  have hchecked : SameVm vm (vm.checked cfg answers.report) := sameVm_checked answers.report vm
  rw [VM.visited]
  split
  · exact .refl vm
  · split
    · exact ⟨hchecked.resource, hchecked.name, hchecked.hostname, hchecked.dynamic⟩
    · exact ⟨hchecked.resource, hchecked.name, hchecked.hostname, hchecked.dynamic⟩
    · exact hchecked
    · exact hchecked
    · exact hchecked

/-- **One VM.** -/
theorem again_visited_iff (h : StartedFor crs request vm) :
    (∃ asked, (vm.visited cfg answers).again = some asked ∧ SameRequest request asked) ↔
      Retryable cfg answers request vm := by
  have hafter : StartedFor crs request (vm.visited cfg answers) := h.sameVm sameVm_visited
  rw [VM.again, flavor_visited, zone_visited, hafter.resource, hafter.dynamic]
  constructor
  · rintro ⟨asked, hagain, hsame⟩
    cases hflavor : answers.flavorSeen vm with
    | none => simp [hflavor] at hagain
    | some flavor =>
      cases hzone : answers.zoneSeen cfg vm with
      | none => simp [hflavor, hzone] at hagain
      | some zone =>
        rw [hflavor, hzone] at hagain
        obtain rfl := Option.some.inj hagain
        exact ⟨hsame.static.symm, ⟨zone, hsame.zone.symm, hzone⟩, flavor, hsame.flavor, hflavor⟩
  · intro hretry
    obtain ⟨zone, hzone, hseen⟩ := hretry.zone
    obtain ⟨flavor, hflavor, hflavorSeen⟩ := hretry.flavor
    rw [hflavorSeen, hseen]
    exact ⟨_, rfl, hflavor, hzone.symm, rfl, hretry.dynamic.symm⟩

/-- **The first visit.** The constructor has kept neither the zone nor the static flag, so the
server has to be seen up at once, and the request has to be for what is put in then. -/
theorem retryable_startedVm_iff {server : StartedServer} :
    Retryable cfg answers request (startedVm cfg crs request server) ↔
      request.static = false ∧ request.zone = some cfg.cloudAvailabilityZone ∧
        ∃ report flavor, answers.report = some report ∧ SeenUp (some report) ∧
          report.flavor = some flavor ∧ flavor.id = request.flavor.flavorId := by
  have hzone : (startedVm cfg crs request server).availabilityZone = none := rfl
  have hsees : answers.SeesUp (startedVm cfg crs request server) ↔ SeenUp answers.report :=
    and_iff_right rfl
  constructor
  · intro h
    obtain ⟨zone, hrequest, hseen⟩ := h.zone
    obtain ⟨flavor, hflavor, hflavorSeen⟩ := h.flavor
    rw [ProvisionAnswers.zoneSeen] at hseen
    split at hseen
    · rename_i hup
      rw [ProvisionAnswers.flavorSeen, if_pos hup] at hflavorSeen
      refine ⟨h.dynamic, hrequest.trans hseen.symm, ?_⟩
      rw [hsees] at hup
      cases hreport : answers.report with
      | none =>
        rw [hreport] at hup
        exact absurd hup not_seenUp_none
      | some report =>
        rw [hreport] at hup hflavorSeen
        obtain ⟨object, hobject, rfl⟩ := Option.map_eq_some_iff.1 hflavorSeen
        exact ⟨report, object, rfl, hup, hobject, hflavor⟩
    · exact absurd (hzone.symm.trans hseen).symm (Option.some_ne_none zone)
  · rintro ⟨hstatic, hrequest, report, flavor, hreport, hup, hflavor, hid⟩
    have hup' : answers.SeesUp (startedVm cfg crs request server) := by rwa [hsees, hreport]
    refine ⟨hstatic, ⟨_, hrequest, ?_⟩, .object flavor, hid, ?_⟩
    · rw [ProvisionAnswers.zoneSeen, if_pos hup']
    · rw [ProvisionAnswers.flavorSeen, if_pos hup', hreport]
      simp [hflavor]

end Retry

/-- **Failed starts.** A call that raises before the launch has given up no VM. Otherwise each VM
that is given up has been asked for again, by one request that is the same as the one it was started
for, if and only if none of these requests was static, and each VM knows after its visit the flavour
and the zone that were asked for. -/
theorem failed_starts_retried_iff (cfg : Config) (answers : UpdateAnswers) (s : State)
    (request : VmRef → ProvisionVM) (hnodup : s.starting.Nodup)
    (hstarted : ∀ v ∈ s.starting, StartedFor s.resources (request v) (s.vms v)) :
    Ends ((provisionAndGiveUp cfg answers).exec cfg) s
      (fun _ s' ↦ Retried request s s' ↔
        ∀ (i : ℕ) v record, s.starting[i]? = some v →
          (answers.visit i).outcome cfg (s.vms v) = .givenUp record →
            Retryable cfg (answers.visit i) (request v) (s.vms v))
      fun _ s' ↦ Retried request s s' := by
  have hknown : ∀ v ∈ s.starting, (s.vms v).cloudResourceName ∈ s.resources.names := fun v hv ↦
    (hstarted v hv).resource ▸ (hstarted v hv).known
  refine (ends_provisionAndGiveUp hnodup hknown).mono ?_ fun _ s' h ↦ ?_
  · rintro scratch s' ⟨hdeleting, added, vms, hadded, hmap, hvisited⟩
    -- the lists that `Retried` asks for are these
    have hretried : Retried request s s' ↔
        ∀ v ∈ (s.provisionScratch cfg answers).toDelete.map Prod.fst,
          ∃ asked, (vms v).again = some asked ∧ SameRequest (request v) asked := by
      rw [← forall₂_filterMap_iff (R := fun v asked ↦ SameRequest (request v) asked), ← hmap,
        List.forall₂_map_right_iff]
      constructor
      · rintro ⟨moved, added', hmoved, hadded', hsame⟩
        obtain rfl := List.append_cancel_left (hdeleting.symm.trans hmoved)
        obtain rfl := List.append_cancel_left (hadded.symm.trans hadded')
        exact hsame
      · exact fun hsame ↦ ⟨_, added, hdeleting, hadded, hsame⟩
    rw [hretried]
    constructor
    · intro h i v record hget houtcome
      have hmem := mem_toDelete.2 ⟨i, hget, houtcome⟩
      obtain ⟨asked, hagain, hsame⟩ := h v (List.mem_map_of_mem hmem)
      rw [hvisited i v hget] at hagain
      exact (again_visited_iff (hstarted v (List.mem_of_getElem? hget))).1 ⟨asked, hagain, hsame⟩
    · intro h v hv
      obtain ⟨⟨w, record⟩, hmem, rfl⟩ := List.mem_map.1 hv
      obtain ⟨i, hget, houtcome⟩ := mem_toDelete.1 hmem
      rw [hvisited i w hget]
      exact (again_visited_iff (hstarted w (List.mem_of_getElem? hget))).2
        (h i w record hget houtcome)
  · exact ⟨[], [], by simp [h.1], by simp [h.2], .nil⟩

/-- A request in the default zone. -/
def oneRequest : ProvisionVM := ⟨.id "3", some "noblepark", "default", false⟩

/-- A VM that was started for it. -/
def oneRequested : State :=
  { State.initial JobScheduler.threeNodes with
    starting := [0]
    nextVm := 1
    vms := fun _ ↦ startedVm {} JobScheduler.threeNodes oneRequest ⟨"id", "1", 4, 0⟩ }

/-- A poll after 901 seconds. -/
def polledOnce (report : ServerReport) : UpdateAnswers where
  visit := fun _ ↦ { stillBuilding 901000000 with report := some report }
  destroy := fun _ ↦ ⟨.deleted, 0⟩
  launch := fun _ ↦ none

/-- The server is up, and cloud-init is still running. -/
def stillConfiguring : ServerReport where
  status := "ACTIVE"
  created := 0
  vmState := "active"
  taskState := none
  address := some "10.0.0.1"
  imageId := "image"
  sizeFlavor := some ⟨"3", "m1.large", 4⟩
  flavor := some ⟨"3", "m1.large", 4⟩
  serverUp := false

/-- A VM that is given up after its server was seen up is asked for again. -/
theorem failed_starts_retried_iff_oneRequested :
    ∃ scratch s', (provisionAndGiveUp {} (polledOnce stillConfiguring)).exec {} oneRequested =
      .ok scratch s' ∧ Retried (fun _ ↦ oneRequest) oneRequested s' :=
  ⟨_, _, rfl, ((failed_starts_retried_iff {} (polledOnce stillConfiguring) oneRequested
    (fun _ ↦ oneRequest) (by decide) fun _ _ ↦ startedFor_startedVm (by decide) _).of_ok rfl).2
      fun _ _ _ _ _ ↦ retryable_startedVm_iff.2
        ⟨rfl, rfl, stillConfiguring, _, rfl, .inr (by decide), rfl, rfl⟩⟩

/-- The server is in an error state. -/
def inError : ServerReport :=
  { stillConfiguring with status := "ERROR" }

/-- A VM that is given up in its first visit because its server is in an error state is not asked
for again: its zone is not known. -/
theorem failed_start_forgotten :
    ¬∀ (cfg : Config) (answers : UpdateAnswers) (s : State) (request : VmRef → ProvisionVM),
      s.starting.Nodup → (∀ v ∈ s.starting, StartedFor s.resources (request v) (s.vms v)) →
        Ends ((provisionAndGiveUp cfg answers).exec cfg) s (fun _ ↦ Retried request s)
          fun _ ↦ Retried request s := by
  intro h
  have hretried := (h {} (polledOnce inError) oneRequested (fun _ ↦ oneRequest) (by decide)
    fun _ _ ↦ startedFor_startedVm (by decide) _).of_ok rfl
  obtain ⟨moved, added, hmoved, hadded, hsame⟩ := hretried
  have hone : moved = [0] := hmoved.symm
  have hnone : added = [] := hadded.symm
  rw [hone, hnone] at hsame
  exact absurd hsame.length_eq (by decide)

end DynamicTorque
