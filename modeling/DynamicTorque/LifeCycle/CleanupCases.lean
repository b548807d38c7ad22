import DynamicTorque.LifeCycle.CleanupDecisions

/-!
# The cases of `check_cleanup`

What becomes of each VM that is being deleted, up to the launch at the end: it is forgotten, it
exists again, or it stays. A static VM that is forgotten is replaced if its zone has a location.

* `ends_dropDeleted_replaced`: each static VM that is dropped is asked for again, once.
* `cleanup_cases_iff`: the case analysis holds unless a node cannot be taken out of Torque, or a VM
  that is forgotten cannot be tidied up after. The command line of the removal or of one of the
  actions cannot be built, or the firewall not be closed: the name of the security group is made
  from the first one that is configured, and there may be none.
-/

open Python Atomic Program

namespace DynamicTorque

/-! ### The program up to the launch -/

/-- `check_cleanup` up to the launch. The answer says whether it comes to it. -/
def cleanUp (cfg : Config) (answers : CleanupCalls) : Proc Bool := do
  let deleting₀ ← Proc.list .deleting
  if deleting₀.length = 0 then pure false
  else do
    let deleting ← Proc.list .deleting
    let scratch ← Program.forEach
      (fun i v scratch ↦ cleanupVisit cfg (answers.visit i) v scratch) 0 deleting ⟨[], []⟩
    Proc.locked (.commitCleanup scratch.deleted scratch.executing)
    Proc.locked .updateAvailableCores
    Program.when (scratch.deleted.length > 0 ∨ scratch.executing.length > 0) Proc.dumpNodes
    pure true

theorem checkCleanup_eq (cfg : Config) (answers : CleanupCalls) :
    checkCleanup cfg answers = (do
      let goesOn ← cleanUp cfg answers
      if goesOn then launchIfWaiting cfg answers.launch else pure ()) := by
  rw [checkCleanup, cleanUp, bind_assoc]
  refine congrArg _ (funext fun (deleting₀ : List VmRef) ↦ ?_)
  split
  · rfl
  · simp only [bind_assoc, pure_bind, if_true]

/-! ### Closing the firewall -/

/-- Some resource other than the default one has a volume. -/
def OtherVolume (crs : CloudResources) (names : List String) : Prop :=
  ∃ res ∈ names, res ≠ "default" ∧ (crs.object res).hasVolume = true

/-- The firewall of a VM can be closed: where there is a rule to remove, there is a security group
to remove it from. -/
def Closable (cfg : Config) (crs : CloudResources) (vm : VM) : Prop :=
  vm.cloudResourceName = "default" → vm.ip ≠ none → OtherVolume crs crs.names →
    cfg.cloudSecurityGroups ≠ []

/-- Nothing raises when a VM that is gone is tidied up after. -/
structure Tidyable (cfg : Config) (crs : CloudResources) (vm : VM) : Prop where
  actions : ActionsBuilt cfg vm
  firewall : Closable cfg crs vm

section Firewall

open Locked

variable {cfg : Config} {s : State} {vm : VM}

theorem ends_closeFirewall_returns {names : List String}
    (h : vm.ip ≠ none → OtherVolume s.resources names → cfg.cloudSecurityGroups ≠ []) :
    Ends (closeFirewall cfg vm names) s (fun _ s' ↦ s' = { s with trace := s'.trace })
      fun _ _ ↦ False := by
  induction names generalizing s with
  | nil => exact rfl
  | cons res names ih =>
    rw [closeFirewall, ends_bind, ends_get, ends_bind]
    have hrule : res ≠ "default" ∧ (s.resources.object res).hasVolume = true →
        Ends (removeRule cfg vm res) s (fun _ s' ↦ s' = { s with trace := s'.trace })
          fun _ _ ↦ False := by
      intro hvolume
      rw [removeRule]
      split
      · exact rfl
      · rename_i ip hip hnone
        exact absurd hnone (h (by simp [hip]) ⟨res, List.mem_cons_self, hvolume⟩)
      · exact rfl
    have hstep : Ends (Locked.when (res ≠ "default" ∧ (s.resources.object res).hasVolume = true)
        (removeRule cfg vm res)) s (fun _ s' ↦ s' = { s with trace := s'.trace })
          fun _ _ ↦ False := by
      rw [Locked.when]
      split
      · rename_i hvolume
        exact hrule hvolume
      · exact rfl
    refine hstep.mono (fun _ s₁ h₁ ↦ ?_) fun _ _ h ↦ h
    have hrest : vm.ip ≠ none → OtherVolume s₁.resources names → cfg.cloudSecurityGroups ≠ [] := by
      rw [h₁]
      intro hip hvolume
      obtain ⟨other, hmem, hother⟩ := hvolume
      exact h hip ⟨other, List.mem_cons_of_mem _ hmem, hother⟩
    refine (ih hrest).mono (fun _ s' h' ↦ ?_) fun _ _ h ↦ h
    rw [h', h₁]

theorem ends_closeFirewall_raises {names : List String} (hip : vm.ip ≠ none)
    (hvolume : OtherVolume s.resources names) (hnone : cfg.cloudSecurityGroups = []) :
    Ends (closeFirewall cfg vm names) s (fun _ _ ↦ False) fun _ _ ↦ True := by
  induction names generalizing s with
  | nil =>
    obtain ⟨_, hmem, -⟩ := hvolume
    exact absurd hmem List.not_mem_nil
  | cons res names ih =>
    rw [closeFirewall, ends_bind, ends_get, ends_bind, Locked.when]
    split
    · rw [removeRule]
      split
      · rename_i hnoip
        exact absurd hnoip hip
      · trivial
      · rename_i hgroups
        exact absurd (hnone.symm.trans hgroups) (List.cons_ne_nil _ _).symm
    · rename_i hskip
      obtain ⟨other, hmem, hother⟩ := hvolume
      rcases List.mem_cons.1 hmem with rfl | hmem
      · exact absurd hother hskip
      · exact ih ⟨other, hmem, hother⟩

end Firewall

/-! ### Replacing static VMs -/

instance (cfg : Config) (vm : VM) : Decidable (AsksForAnother cfg vm) :=
  decidable_of_iff
    (vm.dynamic = false ∧ (cfg.locationOfZone vm.availabilityZone).getD "" ≠ "") <| by
      rw [AsksForAnother]
      cases cfg.locationOfZone vm.availabilityZone <;> simp

/-- A request that replaces a VM: static, and with its flavour, zone and resource. -/
structure Replaces (vm : VM) (request : ProvisionVM) : Prop where
  flavor : vm.flavor = some request.flavor
  zone : request.zone = vm.availabilityZone
  resource : request.resourceName = vm.cloudResourceName
  static : request.static = true

/-- The static VMs of `vs` whose zone has a location. -/
def askers (cfg : Config) (vms : VmRef → VM) (vs : List VmRef) : List VmRef :=
  vs.filter fun v ↦ AsksForAnother cfg (vms v)

/-- For each static VM of `vs` whose zone has a location, one more VM of its resource is outstanding
and one request waits. -/
structure Replaced (cfg : Config) (vs : List VmRef) (s s' : State) : Prop where
  outstanding : ∀ resource, s'.outstanding resource = s.outstanding resource +
    (askers cfg s.vms vs).countP fun v ↦ (s.vms v).cloudResourceName = resource
  waiting : ∃ added, s'.waiting = s.waiting ++ added ∧
    List.Forall₂ (fun v entry ↦ Replaces (s.vms v) entry.request) (askers cfg s.vms vs) added
  static : ∀ resource, (s.resources.object resource).staticVmsToStart.isSome = true →
    (s'.resources.object resource).staticVmsToStart.isSome = true
  volume : ∀ resource, (s'.resources.object resource).hasVolume =
    (s.resources.object resource).hasVolume

/-- What makes the clean-up of a VM that is gone possible. -/
structure Droppable (crs : CloudResources) (vm : VM) : Prop where
  known : vm.cloudResourceName ∈ crs.names
  requests : (crs.object vm.cloudResourceName).staticVmsToStart.isSome = true
  flavor : vm.Replaceable

section Replace

open Locked

variable {cfg : Config} {s s₁ s' : State} {v : VmRef} {vs vs' : List VmRef}

theorem Replaced.of_resources (h : askers cfg s.vms vs = []) (hwaiting : s'.waiting = s.waiting)
    (hresources : s'.resources = s.resources) : Replaced cfg vs s s' where
  outstanding := fun resource ↦ by
    rw [h, State.outstanding, hresources, List.countP_nil, State.outstanding]
    exact (Int.add_zero _).symm
  waiting := ⟨[], by rw [hwaiting, List.append_nil], by rw [h]; exact .nil⟩
  static := fun _ hsome ↦ by rwa [hresources]
  volume := fun _ ↦ by rw [hresources]

theorem Replaced.trans (h : Replaced cfg vs s s₁) (hvms : s₁.vms = s.vms)
    (h' : Replaced cfg vs' s₁ s') : Replaced cfg (vs ++ vs') s s' where
  outstanding := fun resource ↦ by
    rw [h'.outstanding, h.outstanding, hvms, askers, askers, askers, List.filter_append,
      List.countP_append, Nat.cast_add, Int.add_assoc]
  waiting := by
    obtain ⟨added, hadded, hreplaces⟩ := h.waiting
    obtain ⟨added', hadded', hreplaces'⟩ := h'.waiting
    rw [hvms] at hreplaces'
    refine ⟨added ++ added', by rw [hadded', hadded, List.append_assoc], ?_⟩
    rw [askers, List.filter_append]
    exact List.rel_append hreplaces hreplaces'
  static := fun resource hsome ↦ h'.static resource (h.static resource hsome)
  volume := fun resource ↦ (h'.volume resource).trans (h.volume resource)

/-- The VM is asked for again. -/
theorem replaced_asking {location : String} {reqs : StaticVMs} {flavor : FlavorRef}
    (hasks : AsksForAnother cfg (s.vms v)) (hflavor : (s.vms v).flavor = some flavor)
    (hreqs : s.resources.staticVmsToStart (s.vms v).cloudResourceName "add_static_req" = .ok reqs) :
    Replaced cfg [v] s ((s.asking (s.vms v).cloudResourceName location reqs).waitFor
      [(⟨flavor, (s.vms v).availabilityZone, (s.vms v).cloudResourceName, !(s.vms v).dynamic⟩,
        1)]) := by
  have haskers : askers cfg s.vms [v] = [v] := by simp [askers, hasks]
  refine ⟨fun resource ↦ ?_, ⟨_, rfl, ?_⟩, fun resource hsome ↦ ?_, fun resource ↦ ?_⟩
  · have hasking := outstanding_asking location hreqs resource
    have hsame : ((s.asking (s.vms v).cloudResourceName location reqs).waitFor
        [(⟨flavor, (s.vms v).availabilityZone, (s.vms v).cloudResourceName,
          !(s.vms v).dynamic⟩, 1)]).outstanding resource =
        (s.asking (s.vms v).cloudResourceName location reqs).outstanding resource := rfl
    rw [hsame, hasking, haskers, List.countP_singleton]
    by_cases hresource : resource = (s.vms v).cloudResourceName
    · simp [hresource]
    · simp [hresource, Ne.symm hresource]
  · rw [haskers]
    exact .cons ⟨hflavor, rfl, rfl, by simp [hasks.1]⟩ .nil
  · by_cases hresource : resource = (s.vms v).cloudResourceName
    · subst hresource
      simp [State.waitFor, State.asking]
    · simpa [State.waitFor, State.asking, s.resources.object_modify_of_ne hresource] using hsome
  · by_cases hresource : resource = (s.vms v).cloudResourceName
    · subst hresource
      simp [State.waitFor, State.asking]
    · simp [State.waitFor, State.asking, s.resources.object_modify_of_ne hresource]

theorem ends_replaceStatic_replaced (hstatic : (s.vms v).dynamic = false)
    (h : Droppable s.resources (s.vms v)) :
    Ends (replaceStatic cfg (s.vms v)) s (fun _ ↦ Replaced cfg [v] s) fun _ _ ↦ False := by
  have hquiet : ¬AsksForAnother cfg (s.vms v) → Replaced cfg [v] s s := fun hnot ↦
    .of_resources (by simp [askers, hnot]) rfl rfl
  rw [replaceStatic]
  split
  · rename_i hloc
    refine hquiet ?_
    rintro ⟨-, loc, hsome, -⟩
    exact Option.some_ne_none _ (hsome.symm.trans hloc)
  · rename_i loc hloc
    split
    · rename_i hempty
      refine hquiet ?_
      rintro ⟨-, loc', hsome, hne⟩
      exact hne ((Option.some.inj (hsome.symm.trans hloc)).trans hempty)
    · rename_i hne
      obtain ⟨reqs, hsome⟩ := Option.isSome_iff_exists.1 h.requests
      have hreqs : s.resources.staticVmsToStart (s.vms v).cloudResourceName "add_static_req" =
          .ok reqs := staticVmsToStart_eq_ok_iff.2 ⟨h.known, hsome⟩
      obtain ⟨flavor, hflavor, htruthy⟩ := h.flavor
      rw [ends_bind, ends_get, hreqs, Atomic.lift_ok, ends_bind]
      show Ends _ (s.asking (s.vms v).cloudResourceName loc reqs) _ _
      rw [hflavor]
      simp only [htruthy, if_true]
      exact replaced_asking ⟨hstatic, loc, hloc, hne⟩ hflavor hreqs

/-- Only the VMs themselves, the waiting list and the resources count. -/
theorem Replaced.of_same (hvms : ∀ v ∈ vs, s₁.vms v = s.vms v) (hwaiting : s₁.waiting = s.waiting)
    (hresources : s₁.resources = s.resources) (h : Replaced cfg vs s₁ s') :
    Replaced cfg vs s s' := by
  have haskers : askers cfg s₁.vms vs = askers cfg s.vms vs :=
    List.filter_congr fun v hv ↦ by rw [hvms v hv]
  have hsame : ∀ v ∈ askers cfg s.vms vs, s₁.vms v = s.vms v := fun v hv ↦
    hvms v (List.mem_of_mem_filter hv)
  refine ⟨fun resource ↦ ?_, ?_, fun resource hsome ↦ ?_, fun resource ↦ ?_⟩
  · have hcount : (askers cfg s.vms vs).countP
        (fun v ↦ (s₁.vms v).cloudResourceName = resource) =
          (askers cfg s.vms vs).countP fun v ↦ (s.vms v).cloudResourceName = resource :=
      List.countP_congr fun v hv ↦ by rw [hsame v hv]
    rw [h.outstanding, haskers, hcount, State.outstanding, hresources]
    rfl
  · obtain ⟨added, hadded, hreplaces⟩ := h.waiting
    refine ⟨added, hwaiting ▸ hadded, ?_⟩
    rw [haskers] at hreplaces
    refine ((List.forall₂_and_left _ _).2 ⟨hsame, hreplaces⟩).imp ?_
    rintro v entry ⟨hv, hreplace⟩
    rwa [hv] at hreplace
  · exact h.static resource (by rwa [hresources])
  · rw [h.volume, hresources]

/-- **One VM that is gone.** -/
theorem ends_dropVm_replaced (hmem : v ∈ s.deleting) (h : Droppable s.resources (s.vms v))
    (htidy : Tidyable cfg s.resources (s.vms v)) :
    Ends (dropVm cfg v) s (fun _ ↦ Replaced cfg [v] s) fun _ _ ↦ False := by
  have hfirewall : Ends (Locked.when ((s.vms v).cloudResourceName = "default")
      (closeFirewall cfg (s.vms v) s.resources.names)) (s.dropped v)
        (fun _ s' ↦ s' = { s.dropped v with trace := s'.trace }) fun _ _ ↦ False := by
    rw [Locked.when]
    split
    · rename_i hdefault
      exact ends_closeFirewall_returns (htidy.firewall hdefault)
    · exact rfl
  rw [ends_dropVm_iff hmem htidy.actions, ends_bind]
  refine hfirewall.mono (fun _ s₁ h₁ ↦ ?_) fun _ _ h ↦ h
  have hvms : s₁.vms = s.vms := by rw [h₁]; rfl
  have hwaiting : s₁.waiting = s.waiting := by rw [h₁]; rfl
  have hresources : s₁.resources = s.resources := by rw [h₁]; rfl
  rw [Locked.when]
  split
  · rename_i hstatic
    have hstatic : (s₁.vms v).dynamic = false := by simpa [hvms] using hstatic
    have hdroppable : Droppable s₁.resources (s₁.vms v) := by rwa [hresources, hvms]
    rw [← hvms]
    exact (ends_replaceStatic_replaced hstatic hdroppable).mono
      (fun _ s' h' ↦ h'.of_same (fun _ _ ↦ congrFun hvms _) hwaiting hresources) fun _ _ h ↦ h
  · rename_i hdynamic
    refine .of_resources ?_ hwaiting hresources
    rw [askers, List.filter_eq_nil_iff]
    intro w hw
    obtain rfl := List.mem_singleton.1 hw
    simp only [decide_eq_true_eq]
    exact fun hasks ↦ hdynamic (by simp [hasks.1])

theorem ends_dropVm_raises (hmem : v ∈ s.deleting)
    (hraises : ¬Tidyable cfg s.resources (s.vms v)) :
    Ends (dropVm cfg v) s (fun _ _ ↦ False) fun _ _ ↦ True := by
  rcases Classical.em (ActionsBuilt cfg (s.vms v)) with hbuilt | hunbuilt
  swap
  · exact (ends_dropVm_unbuilt hmem hunbuilt).mono (fun _ _ h ↦ h) fun _ _ _ ↦ trivial
  have hopen : ¬Closable cfg s.resources (s.vms v) := fun hclose ↦ hraises ⟨hbuilt, hclose⟩
  simp only [Closable, Classical.not_imp, not_not] at hopen
  obtain ⟨hdefault, hip, hvolume, hnone⟩ := hopen
  rw [ends_dropVm_iff hmem hbuilt, ends_bind, Locked.when, if_pos hdefault]
  exact (ends_closeFirewall_raises (s := s.dropped v) hip hvolume hnone).mono
    (fun _ _ h ↦ h.elim) fun _ _ _ ↦ trivial

/-- Dropping VMs changes nothing that the next ones need. -/
theorem Replaced.droppable (h : Replaced cfg vs s s₁) (hnames : s₁.resources.names =
    s.resources.names) {vm : VM} (hdrop : Droppable s.resources vm) :
    Droppable s₁.resources vm :=
  ⟨hnames ▸ hdrop.known, h.static _ hdrop.requests, hdrop.flavor⟩

theorem Replaced.tidyable_iff (h : Replaced cfg vs s s₁) (hnames : s₁.resources.names =
    s.resources.names) {vm : VM} :
    Tidyable cfg s₁.resources vm ↔ Tidyable cfg s.resources vm := by
  have hclosable : Closable cfg s₁.resources vm ↔ Closable cfg s.resources vm := by
    simp only [Closable, OtherVolume, hnames, h.volume]
  exact ⟨fun ht ↦ ⟨ht.actions, hclosable.1 ht.firewall⟩,
    fun ht ↦ ⟨ht.actions, hclosable.2 ht.firewall⟩⟩

/-- **All VMs that are gone.** -/
theorem ends_dropDeleted_replaced : ∀ {vs : List VmRef} {s : State}, vs.Subperm s.deleting →
    (∀ v ∈ vs, Droppable s.resources (s.vms v)) → (∀ v ∈ vs, Tidyable cfg s.resources (s.vms v)) →
    Ends (dropDeleted cfg vs) s (fun _ s' ↦ Dropped cfg vs s s' ∧ Replaced cfg vs s s')
      fun _ _ ↦ False := by
  intro vs
  induction vs with
  | nil => exact fun {s} _ _ _ ↦ ⟨.refl s, .of_resources rfl rfl rfl⟩
  | cons v vs ih =>
    intro s hsub hdrop htidy
    have hmem : v ∈ s.deleting := hsub.subset List.mem_cons_self
    rw [List.forall_mem_cons] at hdrop htidy
    rw [dropDeleted, ends_bind]
    refine ((ends_dropVm hmem).and (ends_dropVm_replaced hmem hdrop.1 htidy.1)).mono
      (fun _ s₁ h₁ ↦ ?_) fun _ _ h ↦ h.2
    obtain ⟨h₁, hreplaced⟩ := h₁
    have hrest : vs.Subperm s₁.deleting := by
      rw [h₁.deleting]
      simpa using hsub.erase v
    refine (ih hrest ?_ ?_).mono (fun _ s' h ↦ ?_) fun _ _ h ↦ h
    · rw [h₁.vms]
      exact fun w hw ↦ hreplaced.droppable h₁.names (hdrop.2 w hw)
    · rw [h₁.vms]
      exact fun w hw ↦ (hreplaced.tidyable_iff h₁.names).2 (htidy.2 w hw)
    · exact ⟨h₁.trans h.1, hreplaced.trans h₁.vms h.2⟩

/-- One VM that cannot be tidied up after is enough for the block to raise. -/
theorem ends_dropDeleted_raises : ∀ {vs : List VmRef} {s : State}, vs.Subperm s.deleting →
    (∀ v ∈ vs, Droppable s.resources (s.vms v)) →
    (∃ v ∈ vs, ¬Tidyable cfg s.resources (s.vms v)) →
    Ends (dropDeleted cfg vs) s (fun _ _ ↦ False) fun _ _ ↦ True := by
  intro vs
  induction vs with
  | nil =>
    rintro s - - ⟨_, hmem, -⟩
    exact absurd hmem List.not_mem_nil
  | cons v vs ih =>
    intro s hsub hdrop hraises
    have hmem : v ∈ s.deleting := hsub.subset List.mem_cons_self
    rw [List.forall_mem_cons] at hdrop
    rw [dropDeleted, ends_bind]
    rcases Classical.em (Tidyable cfg s.resources (s.vms v)) with htidy | hnot
    · refine ((ends_dropVm hmem).and (ends_dropVm_replaced hmem hdrop.1 htidy)).mono
        (fun _ s₁ h₁ ↦ ?_) fun _ _ _ ↦ trivial
      obtain ⟨h₁, hreplaced⟩ := h₁
      have hrest : vs.Subperm s₁.deleting := by
        rw [h₁.deleting]
        simpa using hsub.erase v
      refine ih hrest ?_ ?_
      · rw [h₁.vms]
        exact fun w hw ↦ hreplaced.droppable h₁.names (hdrop.2 w hw)
      · obtain ⟨w, hw, hwraises⟩ := hraises
        rcases List.mem_cons.1 hw with rfl | hw
        · exact absurd htidy hwraises
        · refine ⟨w, hw, ?_⟩
          rw [h₁.vms, hreplaced.tidyable_iff h₁.names]
          exact hwraises
    · exact (ends_dropVm_raises hmem hnot).mono (fun _ _ h ↦ h.elim) fun _ _ h ↦ h

end Replace

/-! ### The cases -/

/-- Neither the cloud nor Torque knows the VM. -/
def CleanupAnswers.Unknown (answers : CleanupAnswers) : Prop :=
  answers.report = none ∧ answers.wnInTorque = .notLocated

/-- The cloud knows the VM, its node has jobs, and it was not forced off. -/
def CleanupAnswers.Busy (answers : CleanupAnswers) (vm : VM) : Prop :=
  answers.report ≠ none ∧ (∃ wn, answers.wnInTorque = .record wn ∧ wn.jobs.isSome = true) ∧
    vm.forceOff = false

/-- The cloud knows the VM, and Torque shows it absent or without jobs. -/
def CleanupAnswers.Idle (answers : CleanupAnswers) : Prop :=
  answers.report ≠ none ∧ (answers.wnInTorque = .notLocated ∨
    ∃ wn, answers.wnInTorque = .record wn ∧ wn.jobs = none)

/-- The VMs that are forgotten. -/
def State.forgotten (s : State) (answers : CleanupCalls) : List VmRef :=
  decided .gone answers.visit s.vms s.deleting

/-- The case analysis of `check_cleanup`, between its start and its launch. -/
structure CleanupCases (cfg : Config) (answers : CleanupCalls) (s s' : State) : Prop where
  forgotten : ∀ (i : ℕ) v, s.deleting[i]? = some v →
    ((v ∉ s'.existing ∧ v ∉ s'.deleting) ↔ (answers.visit i).Unknown)
  resumed : ∀ (i : ℕ) v, s.deleting[i]? = some v →
    (v ∈ s'.existing ↔ (answers.visit i).Busy (s.vms v))
  stays : ∀ (i : ℕ) v, s.deleting[i]? = some v →
    (v ∈ s'.deleting ↔ ¬(answers.visit i).Unknown ∧ ¬(answers.visit i).Busy (s.vms v))
  starting : s'.starting = s.starting
  destroyed : ∀ (i : ℕ) v, s.deleting[i]? = some v → s.DestroyCalled s' v →
    (answers.visit i).Idle
  outstanding : ∀ resource, s'.outstanding resource = s.outstanding resource +
    (askers cfg s.vms (s.forgotten answers)).countP fun v ↦ (s.vms v).cloudResourceName = resource
  waiting : ∃ added, s'.waiting = s.waiting ++ added ∧
    List.Forall₂ (fun v entry ↦ Replaces (s.vms v) entry.request)
      (askers cfg s.vms (s.forgotten answers)) added

section Cases

variable {cfg : Config} {answers : CleanupCalls} {visit : CleanupAnswers} {s s₁ s₂ s₃ s' : State}
  {i : ℕ} {v : VmRef} {vm : VM} {scratch : CleanupScratch}

theorem fate_eq_gone_iff (hname : vm.hostname ≠ "") : visit.fate vm = .gone ↔ visit.Unknown := by
  rw [CleanupAnswers.fate, if_neg hname, CleanupAnswers.Unknown]
  cases visit.wnInTorque with
  | error => simp
  | notLocated => cases visit.report <;> simp
  | record wn =>
    dsimp only
    split <;> simp

theorem fate_eq_executing_iff (hname : vm.hostname ≠ "") :
    visit.fate vm = .executing ↔ visit.Busy vm := by
  rw [CleanupAnswers.fate, if_neg hname, CleanupAnswers.Busy]
  cases visit.wnInTorque with
  | error => simp
  | notLocated => cases visit.report <;> simp
  | record wn => cases visit.report <;> simp

theorem idle_of_destroys (h : visit.destroys cfg vm = true) : visit.Idle := by
  rw [CleanupAnswers.destroys] at h
  split at h
  · exact absurd h Bool.false_ne_true
  · cases hnode : visit.wnInTorque with
    | error =>
      rw [hnode] at h
      exact absurd h Bool.false_ne_true
    | notLocated =>
      rw [hnode] at h
      obtain ⟨hreport, -⟩ := Bool.and_eq_true_iff.1 h
      exact ⟨Option.isSome_iff_ne_none.1 hreport, .inl hnode⟩
    | record wn =>
      rw [hnode] at h
      obtain ⟨hreport, hjobs⟩ := Bool.and_eq_true_iff.1 h
      exact ⟨Option.isSome_iff_ne_none.1 hreport, .inr ⟨wn, hnode,
        Option.isNone_iff_eq_none.1 hjobs⟩⟩

/-- In a list without duplicates a VM is decided about once. -/
theorem mem_decided_iff {fate : Fate} {visits : ℕ → CleanupAnswers} {vms : VmRef → VM}
    {vs : List VmRef} (hnodup : vs.Nodup) (hv : vs[i]? = some v) :
    v ∈ decided fate visits vms vs ↔ (visits i).fate (vms v) = fate := by
  rw [mem_decided]
  constructor
  · rintro ⟨j, hj, hfate⟩
    have hi : i < vs.length := (List.getElem?_eq_some_iff.1 hv).1
    obtain rfl : i = j := (List.getElem?_inj hi hnodup).1 (hv.trans hj.symm)
    exact hfate
  · exact fun hfate ↦ ⟨i, hv, hfate⟩

/-- The free nodes are counted and the nodes dumped: nothing of this concerns the cases. -/
theorem ends_cleanUp_tail {c : Prop} [Decidable c] :
    Ends (Proc.exec (do
      Proc.locked .updateAvailableCores
      Program.when c Proc.dumpNodes
      pure true) cfg) s
      (fun _ s' ↦ s' = { s.updateAvailableCores with trace := s'.trace } ∧
        Emits (Event.DestroysOnly fun _ _ _ _ ↦ False) s s') fun _ _ ↦ False := by
  have hcores : Emits (Event.DestroysOnly fun _ _ _ _ ↦ False) s s.updateAvailableCores :=
    .of_eq rfl
  rw [ends_locked]
  show Ends _ s.updateAvailableCores _ _
  rw [Program.when]
  split
  · exact ⟨rfl, hcores.trans (.emit _ trivial)⟩
  · exact ⟨rfl, hcores⟩

/-- **From the lists to the cases.** -/
theorem cleanupCases_of_parts (hnodup : s.deleting.Nodup)
    (hdisjoint : s.existing.Disjoint s.deleting)
    (hnames : ∀ v ∈ s.deleting, (s.vms v).hostname ≠ "")
    (h₁ : CleanupDecided cfg answers s.deleting s scratch s₁)
    (h₂ : Dropped cfg scratch.deleted s₁ s₂) (hreplaced : Replaced cfg (s.forgotten answers) s s₂)
    (h₃ : Resumed scratch.executing s₂ s₃)
    (hs' : s' = { s₃.updateAvailableCores with trace := s'.trace })
    (htail : Emits (Event.DestroysOnly fun _ _ _ _ ↦ False) s₃ s') :
    CleanupCases cfg answers s s' := by
  have hgone : ∀ {i : ℕ} {v}, s.deleting[i]? = some v →
      (v ∈ scratch.deleted ↔ (answers.visit i).Unknown) := fun {i v} hv ↦ by
    rw [h₁.scratch, cleanupScratch, mem_decided_iff hnodup hv]
    exact fate_eq_gone_iff (hnames v (List.mem_of_getElem? hv))
  have hbusy : ∀ {i : ℕ} {v}, s.deleting[i]? = some v →
      (v ∈ scratch.executing ↔ (answers.visit i).Busy (s.vms v)) := fun {i v} hv ↦ by
    rw [h₁.scratch, cleanupScratch, mem_decided_iff hnodup hv]
    exact fate_eq_executing_iff (hnames v (List.mem_of_getElem? hv))
  have hexisting : s'.existing = s.existing ++ scratch.executing := by
    rw [hs']
    show s₃.existing = _
    rw [h₃.existing, h₂.existing, h₁.scanned.existing]
  have hdeleting : s'.deleting = (s.deleting.diff scratch.deleted).diff scratch.executing := by
    rw [hs']
    show s₃.deleting = _
    rw [h₃.deleting, h₂.deleting, h₁.scanned.deleting]
  have hresumed : ∀ {i : ℕ} {v}, s.deleting[i]? = some v →
      (v ∈ s'.existing ↔ (answers.visit i).Busy (s.vms v)) := fun {i v} hv ↦ by
    have hnot : v ∉ s.existing := fun h ↦ hdisjoint h (List.mem_of_getElem? hv)
    rw [hexisting, List.mem_append, or_iff_right hnot, hbusy hv]
  have hstays : ∀ {i : ℕ} {v}, s.deleting[i]? = some v →
      (v ∈ s'.deleting ↔ ¬(answers.visit i).Unknown ∧ ¬(answers.visit i).Busy (s.vms v)) :=
    fun {i v} hv ↦ by
      rw [hdeleting, hnodup.diff.mem_sdiff_iff, hnodup.mem_sdiff_iff, hgone hv, hbusy hv, and_assoc]
      exact and_iff_right (List.mem_of_getElem? hv)
  have hnever : ∀ {s s' : State}, Emits (Event.Allowed fun _ _ _ _ ↦ False) s s' →
      Emits (Event.DestroysOnly fun _ _ _ _ ↦ False) s s' := fun h ↦
    h.mono fun _ he ↦ he.destroysOnly id
  have hrest : Emits (Event.DestroysOnly fun _ _ _ _ ↦ False) s₁ s' :=
    ((hnever h₂.trace).trans (hnever h₃.trace)).trans htail
  exact
    { forgotten := fun i v hv ↦ by
        have hexcludes : (answers.visit i).Unknown → ¬(answers.visit i).Busy (s.vms v) :=
          fun hunknown hbusy ↦ hbusy.1 hunknown.1
        rw [hresumed hv, hstays hv]
        tauto
      resumed := fun i v hv ↦ hresumed hv
      stays := fun i v hv ↦ hstays hv
      starting := by
        rw [hs']
        show s₃.starting = _
        rw [h₃.starting, h₂.starting, h₁.scanned.starting]
      destroyed := fun i v hv hcalled ↦ by
        rw [State.destroyCalled_iff h₁.scanned.trace hrest,
          or_iff_left (hrest.not_destroyCalled fun _ _ _ h ↦ h)] at hcalled
        exact idle_of_destroys ((h₁.called hv).1 hcalled)
      outstanding := fun resource ↦ by
        rw [← hreplaced.outstanding, hs']
        show ((s₃.resources.object resource).staticVmsToStart.map _).getD 0 = _
        rw [h₃.resources]
        rfl
      waiting := by
        rw [hs']
        show ∃ added, s₃.waiting = _ ∧ _
        rw [h₃.waiting]
        exact hreplaced.waiting }

open Locked in
/-- Where the visits return, the clean-up comes to the block that commits it. -/
theorem ends_cleanUp_of_block {Q : Bool → State → Prop} {E : PyError → State → Prop}
    (hnodup : s.deleting.Nodup) (hne : s.deleting ≠ [])
    (hvisits : ∀ (i : ℕ) v, s.deleting[i]? = some v →
      Visitable cfg s.resources (s.vms v) (answers.visit i))
    (h : ∀ scratch s₁, CleanupScanned answers s.deleting s scratch s₁ →
      CleanupDecided cfg answers s.deleting s scratch s₁ →
      Ends (dropDeleted cfg scratch.deleted) s₁ (fun _ s₂ ↦
        Ends (resumeExecuting scratch.executing) s₂ (fun _ s₃ ↦ Ends (Proc.exec (do
          Proc.locked .updateAvailableCores
          Program.when (scratch.deleted.length > 0 ∨ scratch.executing.length > 0) Proc.dumpNodes
          pure true) cfg) s₃ Q E) E) E) :
    Ends ((cleanUp cfg answers).exec cfg) s Q E := by
  have hlength : ¬(s.list .deleting).length = 0 := fun hzero ↦ hne (List.length_eq_zero_iff.1 hzero)
  rw [cleanUp, ends_list, if_neg hlength, ends_list, Proc.exec, run_bind, ends_bind]
  refine (ends_cleanupScan.and (ends_cleanupScan_decides hnodup)).mono ?_ ?_
  · rintro scratch s₁ ⟨hscanned, hdecided⟩
    refine ends_locked.2 (ends_bind.2 ((h scratch s₁ hscanned hdecided).mono ?_ fun _ _ h ↦ h))
    exact fun _ _ h ↦ h
  · rintro e s₁ ⟨-, done, v, rest, hdone, hbroken, -⟩
    exact absurd (hvisits done.length v (by simp [← hdone])) hbroken

/-- One node that cannot be taken out of Torque is enough for the clean-up to raise. -/
theorem ends_cleanUp_unbuilt (hnodup : s.deleting.Nodup) (hv : s.deleting[i]? = some v)
    (hcheck : Checkable s.resources (s.vms v) (answers.visit i).report)
    (hremoves : (answers.visit i).Removes (s.vms v))
    (hunbuilt : ¬RemovalBuilt cfg s.resources (s.vms v)) :
    Ends ((cleanUp cfg answers).exec cfg) s (fun _ _ ↦ False) fun _ _ ↦ True := by
  have hi : i < s.deleting.length := (List.getElem?_eq_some_iff.1 hv).1
  have hlength : ¬(s.list .deleting).length = 0 := by
    show ¬s.deleting.length = 0
    omega
  rw [cleanUp, ends_list, if_neg hlength, ends_list, Proc.exec, run_bind, ends_bind]
  -- the scan does not get past the VM
  have hscan : Ends (Proc.exec (forEach (fun i v scratch ↦
      cleanupVisit cfg (answers.visit i) v scratch) 0 s.deleting ⟨[], []⟩) cfg) s
      (fun scratch s₁ ↦ CleanupDecided cfg answers s.deleting s scratch s₁ ∧
        s.deleting.length ≤ i) fun _ _ ↦ True := by
    refine ends_forEach (I := fun done scratch s₁ ↦
      CleanupDecided cfg answers done s scratch s₁ ∧ done.length ≤ i) ?_ ⟨.start, Nat.zero_le _⟩
    rintro done w rest scratch s₁ hdone ⟨h₁, hle⟩
    have hfresh : w ∉ done := notMem_of_nodup hdone hnodup
    rcases hle.eq_or_lt with rfl | hlt
    · obtain rfl : w = v := by simpa [← hdone] using hv
      have hvm : s₁.vms w = s.vms w := h₁.untouched hfresh
      have hcheck₁ : Checkable s₁.resources (s₁.vms w) (answers.visit done.length).report := by
        rwa [h₁.scanned.resources, hvm]
      refine (ends_cleanupVisit_removal hcheck₁ scratch).mono (fun _ s₂ h₂ ↦ ?_)
        fun _ _ _ ↦ trivial
      rw [hvm, h₁.scanned.resources] at h₂
      exact absurd (h₂ hremoves) hunbuilt
    · refine (ends_cleanupVisit_decides scratch).mono (fun _ s₂ h₂ ↦ ⟨h₁.visit hfresh h₂, ?_⟩)
        fun _ _ _ ↦ trivial
      rw [List.length_append, List.length_singleton]
      omega
  exact hscan.mono (fun _ _ h ↦ absurd h.2 (by omega)) fun _ _ h ↦ h

/-- Where nothing is being deleted, nothing is to be done. -/
theorem cleanupCases_of_nil (hempty : s.deleting = []) : CleanupCases cfg answers s s := by
  have hnone : askers cfg s.vms (s.forgotten answers) = [] := by
    simp [askers, State.forgotten, decided, hempty]
  have hnothing : Replaced cfg (s.forgotten answers) s s := .of_resources hnone rfl rfl
  exact
    { forgotten := fun i v hv ↦ by simp [hempty] at hv
      resumed := fun i v hv ↦ by simp [hempty] at hv
      stays := fun i v hv ↦ by simp [hempty] at hv
      starting := rfl
      destroyed := fun i v hv ↦ by simp [hempty] at hv
      outstanding := hnothing.outstanding
      waiting := hnothing.waiting }

/-- What the block finds: the VMs that are forgotten are as they were, and can be dropped. -/
theorem CleanupScanned.droppable {scratch : CleanupScratch}
    (hscanned : CleanupScanned answers s.deleting s scratch s₁) (hnodup : s.deleting.Nodup)
    (hflavors : ∀ v ∈ s.deleting, (s.vms v).Replaceable)
    (hstatic : ∀ res ∈ s.resources.names,
      (s.resources.object res).staticVmsToStart.isSome = true)
    (hchecks : ∀ (i : ℕ) v, s.deleting[i]? = some v →
      Checkable s.resources (s.vms v) (answers.visit i).report) :
    scratch.deleted.Subperm s₁.deleting ∧ (∀ v ∈ scratch.deleted, s₁.vms v = s.vms v) ∧
      ∀ v ∈ scratch.deleted, Droppable s₁.resources (s₁.vms v) := by
  have hsame : ∀ v ∈ scratch.deleted, s₁.vms v = s.vms v := fun v hv ↦
    (hscanned.gone hnodup v hv).2
  refine ⟨?_, hsame, fun v hv ↦ ?_⟩
  · rw [hscanned.scanned.deleting]
    exact (List.sublist_append_left _ _).subperm.trans hscanned.subperm
  · obtain ⟨i, hget, -⟩ := (hscanned.gone hnodup v hv).1
    rw [hsame v hv, hscanned.scanned.resources]
    exact ⟨(hchecks i v hget).resource, hstatic _ (hchecks i v hget).resource,
      hflavors v (List.mem_of_getElem? hget)⟩

/-- The VMs that are forgotten are those that the cloud does not know. -/
theorem CleanupDecided.mem_deleted {scratch : CleanupScratch} {v : VmRef}
    (hdecided : CleanupDecided cfg answers s.deleting s scratch s₁)
    (hnames : ∀ v ∈ s.deleting, (s.vms v).hostname ≠ "") :
    v ∈ scratch.deleted ↔ ∃ i : ℕ, s.deleting[i]? = some v ∧ (answers.visit i).Unknown := by
  rw [hdecided.scratch, cleanupScratch, mem_decided]
  refine exists_congr fun i ↦ and_congr_right fun hget ↦ ?_
  exact fate_eq_gone_iff (hnames v (List.mem_of_getElem? hget))

/-- **The case analysis.** It holds if and only if every node that is taken out of Torque can be
taken out, and every VM that is forgotten can be tidied up after. -/
theorem cleanup_cases_iff (answers : CleanupCalls) (hnodup : s.deleting.Nodup)
    (hnames : ∀ v ∈ s.deleting, (s.vms v).hostname ≠ "")
    (hflavors : ∀ v ∈ s.deleting, (s.vms v).Replaceable)
    (hdisjoint : s.existing.Disjoint s.deleting)
    (hstatic : ∀ res ∈ s.resources.names,
      (s.resources.object res).staticVmsToStart.isSome = true)
    (hchecks : ∀ (i : ℕ) v, s.deleting[i]? = some v →
      Checkable s.resources (s.vms v) (answers.visit i).report) :
    Ends ((cleanUp cfg answers).exec cfg) s (fun _ ↦ CleanupCases cfg answers s)
        (fun _ _ ↦ False) ↔
      ∀ (i : ℕ) v, s.deleting[i]? = some v →
        ((answers.visit i).Removes (s.vms v) → RemovalBuilt cfg s.resources (s.vms v)) ∧
          ((answers.visit i).Unknown → Tidyable cfg s.resources (s.vms v)) := by
  by_cases hempty : s.deleting = []
  · refine iff_of_true ?_ fun i v hv ↦ by simp [hempty] at hv
    rw [cleanUp, ends_list, if_pos (by simp [State.list, hempty])]
    exact cleanupCases_of_nil hempty
  constructor
  · intro hends
    have hreturns : ¬Ends ((cleanUp cfg answers).exec cfg) s (fun _ _ ↦ False) fun _ _ ↦ True :=
      fun hraises ↦ ((hends.and hraises).mono (fun _ _ h ↦ h.2) fun _ _ h ↦ h.1).elim
    have hremoval : ∀ (i : ℕ) v, s.deleting[i]? = some v → (answers.visit i).Removes (s.vms v) →
        RemovalBuilt cfg s.resources (s.vms v) := fun i v hget hremoves ↦
      by_contra fun hunbuilt ↦
        hreturns (ends_cleanUp_unbuilt hnodup hget (hchecks i v hget) hremoves hunbuilt)
    refine fun i v hget ↦ ⟨hremoval i v hget, fun hvisit ↦ by_contra fun hnot ↦ hreturns ?_⟩
    · refine ends_cleanUp_of_block hnodup hempty (fun j w hw ↦ ⟨hchecks j w hw, hremoval j w hw⟩)
        fun scratch s₁ hscanned hdecided ↦ ?_
      obtain ⟨hsub, hsame, hdrop⟩ := hscanned.droppable hnodup hflavors hstatic hchecks
      have hmem : v ∈ scratch.deleted := (hdecided.mem_deleted hnames).2 ⟨i, hget, hvisit⟩
      refine (ends_dropDeleted_raises hsub hdrop ⟨v, hmem, ?_⟩).mono (fun _ _ h ↦ h.elim)
        fun _ _ h ↦ h
      rwa [hsame v hmem, hscanned.scanned.resources]
  · intro hreturns
    refine ends_cleanUp_of_block hnodup hempty
      (fun i v hv ↦ ⟨hchecks i v hv, (hreturns i v hv).1⟩) fun scratch s₁ hscanned hdecided ↦ ?_
    obtain ⟨hsub, hsame, hdrop⟩ := hscanned.droppable hnodup hflavors hstatic hchecks
    have htidyable : ∀ v ∈ scratch.deleted, Tidyable cfg s₁.resources (s₁.vms v) := by
      intro v hv
      obtain ⟨i, hget, hvisit⟩ := (hdecided.mem_deleted hnames).1 hv
      rw [hsame v hv, hscanned.scanned.resources]
      exact (hreturns i v hget).2 hvisit
    refine (ends_dropDeleted_replaced hsub hdrop htidyable).mono ?_ fun _ _ h ↦ h
    rintro - s₂ ⟨h₂, hreplaced⟩
    have hall : (scratch.deleted ++ scratch.executing).Subperm s₁.deleting := by
      rw [hscanned.scanned.deleting]
      exact hscanned.subperm
    have hexecuting : scratch.executing.Subperm s₂.deleting := h₂.deleting ▸ subperm_diff hall
    refine (ends_resumeExecuting hexecuting).mono (fun _ s₃ h₃ ↦ ?_) fun _ _ h ↦ h
    have hforgotten : Replaced cfg (s.forgotten answers) s s₂ := by
      have hscratch : scratch.deleted = s.forgotten answers := by rw [hdecided.scratch]; rfl
      rw [← hscratch]
      exact hreplaced.of_same hsame hscanned.scanned.waiting hscanned.scanned.resources
    refine ends_cleanUp_tail.mono (fun _ s' h' ↦ ?_) fun _ _ h ↦ h
    exact cleanupCases_of_parts hnodup hdisjoint hnames hdecided h₂ hforgotten h₃ h'.1 h'.2

end Cases

/-- The default resource, and another one that has a volume. -/
def volumeElsewhere : CloudResources where
  names := ["default", "storage"]
  nodup := by decide
  object := fun name ↦
    { JobScheduler.threeNodes.object "default" with hasVolume := name == "storage" }

/-- Two VMs of the default resource are being deleted. -/
def twoDeleted : State :=
  { State.initial volumeElsewhere with
    deleting := [0, 1]
    nextVm := 2
    vms := fun v ↦
      { VM.init "id" (if v = 0 then "wn1" else "wn2") 4 (some (.id "3")) 0 none (some "image")
          "default" with
        ip := some "10.0.0.1" } }

/-- Neither the cloud nor Torque knows any VM. -/
def allUnknown : CleanupCalls where
  visit := fun _ ↦ ⟨none, .notLocated, 0, ⟨.notFound, 0⟩⟩
  launch := fun _ ↦ none

/-- Torque still knows the second VM. -/
def unknownAndKnown : CleanupCalls where
  visit := fun i ↦
    ⟨none, if i = 0 then .notLocated else .record ⟨"wn2", "down", none⟩, 0, ⟨.notFound, 0⟩⟩
  launch := fun _ ↦ none

/-- The check of a VM that the cloud does not know. -/
theorem checkable_twoDeleted (v : VmRef) :
    Checkable twoDeleted.resources (twoDeleted.vms v) none :=
  ⟨show "default" ∈ twoDeleted.resources.names by decide, by simp, by simp⟩

/-- A security group, and a command that is run for each VM that is gone. -/
def groupAndHook : Config where
  cloudSecurityGroups := ["nfs"]
  commands := { postVmDestroyCommand := Format.pieces "/sbin/gone {0} {1}" }

theorem tidyable_groupAndHook (v : VmRef) (hv : v ∈ twoDeleted.deleting) :
    Tidyable groupAndHook twoDeleted.resources (twoDeleted.vms v) where
  actions := by
    have hall : ∀ v ∈ twoDeleted.deleting,
        Returns (Command.postVmDestroyAction.invocation groupAndHook.commands (twoDeleted.vms v)) ∧
          Returns (Command.postRemoveNodeAction.invocation groupAndHook.commands
            (twoDeleted.vms v)) := by
      decide +kernel
    exact hall v hv
  firewall := fun _ _ _ ↦ List.cons_ne_nil _ _

theorem removalBuilt_groupAndHook : ∀ v ∈ twoDeleted.deleting,
    RemovalBuilt groupAndHook twoDeleted.resources (twoDeleted.vms v) := by
  have hnone : ∀ v, (twoDeleted.resources.object
      (twoDeleted.vms v).cloudResourceName).accountString = none := fun _ ↦ rfl
  have hremove : ∀ v ∈ twoDeleted.deleting,
      Returns (Command.removeNode.invocation groupAndHook.commands (twoDeleted.vms v)) := by
    decide +kernel
  exact fun v hv ↦ ⟨fun hsome ↦ absurd hsome (by simp [hnone]), hremove v hv⟩

/-- With a security group the first VM is forgotten, and the node of the second is removed; without
one the clean-up raises. -/
theorem cleanup_cases_iff_twoDeleted :
    Ends ((cleanUp groupAndHook unknownAndKnown).exec groupAndHook) twoDeleted
        (fun _ ↦ CleanupCases groupAndHook unknownAndKnown twoDeleted) (fun _ _ ↦ False) ∧
      ¬Ends ((cleanUp {} allUnknown).exec {}) twoDeleted
        (fun _ ↦ CleanupCases {} allUnknown twoDeleted) (fun _ _ ↦ False) := by
  constructor
  · refine (cleanup_cases_iff unknownAndKnown (by decide) (by decide)
      (fun _ _ ↦ ⟨.id "3", rfl, by decide⟩) (List.disjoint_nil_left _) (by decide)
      fun i v _ ↦ checkable_twoDeleted v).2 fun i v hget ↦ ?_
    have hmem : v ∈ twoDeleted.deleting := List.mem_of_getElem? hget
    exact ⟨fun _ ↦ removalBuilt_groupAndHook v hmem, fun _ ↦ tidyable_groupAndHook v hmem⟩
  · intro h
    have htidy := ((cleanup_cases_iff allUnknown (by decide) (by decide)
      (fun _ _ ↦ ⟨.id "3", rfl, by decide⟩) (List.disjoint_nil_left _) (by decide)
      fun i v _ ↦ checkable_twoDeleted v).1 h 0 0 rfl).2 ⟨rfl, rfl⟩
    exact htidy.firewall rfl (Option.some_ne_none _) ⟨"storage", by decide, by decide, rfl⟩ rfl

/-- Without a security group the first VM is dropped, and the second one stays. -/
theorem unknown_vm_stays :
    ¬∀ (cfg : Config) (answers : CleanupCalls) (s : State), s.deleting.Nodup →
      (∀ v ∈ s.deleting, (s.vms v).hostname ≠ "") → (∀ v ∈ s.deleting, (s.vms v).Replaceable) →
      s.existing.Disjoint s.deleting →
      (∀ res ∈ s.resources.names, (s.resources.object res).staticVmsToStart.isSome = true) →
      (∀ (i : ℕ) v, s.deleting[i]? = some v →
        Checkable s.resources (s.vms v) (answers.visit i).report) →
      CleanupCases cfg answers s (stateAfter ((cleanUp cfg answers).exec cfg) s) := by
  intro h
  have hcases := h {} allUnknown twoDeleted (by decide) (by decide)
    (fun _ _ ↦ ⟨.id "3", rfl, by decide⟩) (List.disjoint_nil_left _) (by decide)
    fun i v _ ↦ checkable_twoDeleted v
  have hstays : 1 ∈ (stateAfter ((cleanUp {} allUnknown).exec {}) twoDeleted).deleting := by
    decide +kernel
  exact ((hcases.forgotten 1 1 rfl).2 ⟨rfl, rfl⟩).2 hstays

end DynamicTorque
