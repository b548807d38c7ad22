import DynamicTorque.Configuration.FlavorNames
import DynamicTorque.Configuration.StaticCounter
import DynamicTorque.LifeCycle.Orphans
import DynamicTorque.LifeCycle.SleepMode
import DynamicTorque.LifeCycle.Trimming

/-!
# Static VMs at start-up

After the VMs of the cloud have been compared with the nodes of Torque, the start-up goes over the
resources. Existing VMs are to be marked static where static VMs are outstanding; the attribute that
it reads for the base flavour, `worker_node_flavor`, does not exist.

* `ends_loadResource_exact`: an iteration ends for a resource that can be reconciled, and raises for
  one that cannot.
* `StaticPhase.reconcilable_iff`: the iterations do not concern each other.
* `static_phase_iff`: so the static VMs are reconciled if and only if no resource has both VMs and
  outstanding requests, or needs a flavour that it does not have, or more busy VMs than its limit.
-/

open Python Atomic Program

namespace DynamicTorque

/-! ### The static requests -/

/-- The static requests of a resource. -/
def State.staticReqs (s : State) (resource : String) : StaticVMs :=
  (s.resources.object resource).staticVmsToStart.getD []

/-- Every resource has static requests, at mapped locations. -/
def StaticConfigured (cfg : Config) (crs : CloudResources) : Prop :=
  ∀ resource ∈ crs.names, ∃ reqs, (crs.object resource).staticVmsToStart = some reqs ∧
    ∀ req ∈ reqs, req.location ∈ cfg.locationProperties

/-- The part of `_load_existing_worker_nodes` that is about static VMs and over-use. -/
def staticPhase (cfg : Config) (answers : StartUpAnswers) (crs : CloudResources) : Proc Unit :=
  Program.forEach (fun _ resource _ ↦ loadResource cfg answers resource) 0 crs.names ()

/-- The static VMs that some requests ask for, with their zones. -/
def StaticVMs.wanted (props : LocationProperties) (reqs : StaticVMs) :
    List (Bool × Option String) :=
  reqs.flatMap fun req ↦ List.replicate req.numOfVm.toNat (true, props.lookup req.location)

section Requests

variable {cfg : Config} {crs : CloudResources} {s : State} {resource : String}

theorem StaticConfigured.reqs (h : StaticConfigured cfg crs) (hresource : resource ∈ crs.names)
    (method : String) : crs.staticVmsToStart resource method =
      .ok ((crs.object resource).staticVmsToStart.getD []) := by
  obtain ⟨reqs, hreqs, -⟩ := h resource hresource
  rw [CloudResources.staticVmsToStart, CloudResources.get, if_pos hresource]
  refine bind_eq_ok.2 ⟨_, rfl, ?_⟩
  rw [hreqs]
  rfl

theorem StaticConfigured.mapped (h : StaticConfigured cfg crs) (hresource : resource ∈ crs.names) :
    ∀ req ∈ (crs.object resource).staticVmsToStart.getD [],
      req.location ∈ cfg.locationProperties := by
  obtain ⟨reqs, hreqs, hmapped⟩ := h resource hresource
  rw [hreqs]
  exact hmapped

/-- Nothing is wanted where nothing is needed. -/
theorem wanted_of_not_needMore {props : LocationProperties} {reqs : StaticVMs}
    (h : reqs.needMore = false) : reqs.wanted props = [] := by
  rw [StaticVMs.needMore, List.any_eq_false] at h
  rw [StaticVMs.wanted, List.flatMap_eq_nil_iff]
  intro req hreq
  have hle : req.numOfVm ≤ 0 := by simpa using h req hreq
  rw [Int.toNat_of_nonpos hle, List.replicate_zero]

/-- The entries that requests leave in the waiting list. -/
theorem map_waitFor (s : State) {α : Type} (f : ProvisionVM → α)
    (requests : List (ProvisionVM × ℕ)) :
    ∃ added, (s.waitFor requests).waiting = s.waiting ++ added ∧
      added.map (fun w ↦ f w.request) =
        requests.flatMap fun r ↦ List.replicate r.2 (f r.1) := by
  refine ⟨_, rfl, ?_⟩
  generalize s.nextRequest = k
  induction requests generalizing k with
  | nil => rfl
  | cons r requests ih =>
    rw [List.zipIdx_cons, List.flatMap_cons, List.map_append, ih, List.flatMap_cons,
      List.map_replicate]

/-- The request for the static VMs of a resource succeeds if the resource has a flavour. -/
theorem ends_requestStatic_exact (hconfigured : StaticConfigured cfg s.resources)
    (hresource : resource ∈ s.resources.names) : Ends ((requestStatic cfg resource).exec cfg) s
      (fun _ s' ↦ (s.resources.object resource).flavorObjects ≠ [] ∧ ∃ requests,
        s' = s.waitFor requests ∧ ∃ flavor : VMFlavor, requests = (s.staticReqs resource).map
          fun req ↦ (⟨.id flavor.id, cfg.locationProperties.lookup req.location, resource, true⟩,
            req.numOfVm.toNat))
      fun _ _ ↦ (s.resources.object resource).flavorObjects = [] := by
  rw [requestStatic, ends_resources, CloudResources.get, if_pos hresource]
  refine Program.ends_lift_bind (fun res hres ↦ ?_) fun e he ↦ by cases he
  obtain rfl := Except.ok.inj hres
  cases hflavors : (s.resources.object resource).flavorObjects with
  | nil =>
    refine Program.ends_lift_bind (fun flavor hflavor ↦ ?_) fun _ _ ↦ rfl
    rw [CloudResource.firstFlavor, hflavors] at hflavor
    cases hflavor
  | cons flavor flavors =>
    rw [CloudResource.firstFlavor, hflavors, hconfigured.reqs hresource]
    show Ends (Proc.exec (Program.lift (StaticVMs.getProvisionList _ _ _ _) >>= _) cfg) s _ _
    rw [getProvisionList_of_mapped (hconfigured.mapped hresource)]
    exact ⟨List.cons_ne_nil _ _, _, rfl, flavor, rfl⟩

end Requests

/-! ### What can be reconciled -/

/-- What the start-up can do with a resource, by the state before: static VMs that are outstanding
have to be requested, and dynamic VMs beyond the limit have to be idle. -/
structure State.Reconcilable (s : State) (resource : String) : Prop where
  static : (s.staticReqs resource).needMore = true →
    s.existingOf resource = [] ∧ (s.resources.object resource).flavorObjects ≠ []
  dynamic : s.busyDynamicOf resource ≤ (s.resources.object resource).numberOfDynamicWorkerNodes

/-- The frame of the iterations for the resources `done`. -/
structure StaticPhase (cfg : Config) (done : List String) (s s' : State) : Prop where
  cluster : s'.cluster = s.cluster
  vm : ∀ v, SameVm (s.vms v) (s'.vms v)
  static : SameStatic s.resources s'.resources
  flavors : ∀ name, (s'.resources.object name).flavorObjects =
    (s.resources.object name).flavorObjects
  limit : ∀ name, (s'.resources.object name).numberOfDynamicWorkerNodes =
    (s.resources.object name).numberOfDynamicWorkerNodes
  existing : ∀ name, name ∉ done → s'.existingOf name = s.existingOf name
  waiting : ∃ added, s'.waiting = s.waiting ++ added ∧
    added.map (fun w ↦ (w.request.resourceName, w.request.static, w.request.zone)) =
      done.flatMap fun name ↦
        ((s.staticReqs name).wanted cfg.locationProperties).map (Prod.mk name)

section Phase

variable {cfg : Config} {answers : StartUpAnswers} {done done' : List String} {s s₁ s' : State}
  {resource name : String}

theorem SameStatic.staticReqs (h : SameStatic s.resources s'.resources) (name : String) :
    s'.staticReqs name = s.staticReqs name := by
  rw [State.staticReqs, State.staticReqs, h.static]

namespace StaticPhase

theorem refl (s : State) : StaticPhase cfg [] s s where
  cluster := rfl
  vm := fun _ ↦ .refl _
  static := ⟨rfl, fun _ ↦ rfl⟩
  flavors := fun _ ↦ rfl
  limit := fun _ ↦ rfl
  existing := fun _ _ ↦ rfl
  waiting := ⟨[], (List.append_nil _).symm, rfl⟩

theorem trans (h : StaticPhase cfg done s s₁) (h' : StaticPhase cfg done' s₁ s') :
    StaticPhase cfg (done ++ done') s s' where
  cluster := h'.cluster.trans h.cluster
  vm := fun v ↦ (h.vm v).trans (h'.vm v)
  static := ⟨h'.static.names.trans h.static.names, fun name ↦
    (h'.static.static name).trans (h.static.static name)⟩
  flavors := fun name ↦ (h'.flavors name).trans (h.flavors name)
  limit := fun name ↦ (h'.limit name).trans (h.limit name)
  existing := fun name hname ↦ by
    rw [List.mem_append, not_or] at hname
    exact (h'.existing name hname.2).trans (h.existing name hname.1)
  waiting := by
    obtain ⟨added, hwaiting, hadded⟩ := h.waiting
    obtain ⟨added', hwaiting', hadded'⟩ := h'.waiting
    refine ⟨added ++ added', by rw [hwaiting', hwaiting, List.append_assoc], ?_⟩
    rw [List.map_append, List.flatMap_append, hadded, hadded']
    simp only [h.static.staticReqs]

/-- The iterations for other resources leave open what can be done with a resource. -/
theorem reconcilable_iff (h : StaticPhase cfg done s s') (hname : name ∉ done) :
    s'.Reconcilable name ↔ s.Reconcilable name := by
  have hbusy : s'.busyDynamicOf name = s.busyDynamicOf name := by
    rw [State.busyDynamicOf, State.busyDynamicOf, h.existing name hname]
    refine List.countP_congr fun v _ ↦ ?_
    rw [State.hasJobs, State.hasJobs, (h.vm v).dynamic, (h.vm v).hostname, h.cluster]
  constructor
  · intro hs'
    refine ⟨fun hmore ↦ ?_, ?_⟩
    · rw [← h.existing name hname, ← h.flavors name]
      exact hs'.static (by rwa [h.static.staticReqs])
    · rw [← hbusy, ← h.limit name]
      exact hs'.dynamic
  · intro hs
    refine ⟨fun hmore ↦ ?_, ?_⟩
    · rw [h.existing name hname, h.flavors name]
      exact hs.static (by rwa [h.static.staticReqs] at hmore)
    · rw [hbusy, h.limit name]
      exact hs.dynamic

end StaticPhase

/-! ### One resource -/

theorem SameStatic.configured {crs crs' : CloudResources} (h : SameStatic crs crs')
    (hconfigured : StaticConfigured cfg crs) : StaticConfigured cfg crs' := by
  intro resource hresource
  rw [h.static]
  exact hconfigured resource (h.names ▸ hresource)

/-- Where there are static requests, `need_more` answers. -/
theorem ends_needMore {α : Type} {f : Bool → Proc α} {Q : α → State → Prop}
    {E : PyError → State → Prop} (hconfigured : StaticConfigured cfg s.resources)
    (hresource : resource ∈ s.resources.names) :
    Ends ((needMoreStatic resource >>= f).exec cfg) s Q E ↔
      Ends ((f (s.staticReqs resource).needMore).exec cfg) s Q E := by
  show Ends (Proc.exec ((Program.lift (s.resources.staticVmsToStart resource "need_more") >>=
    fun reqs ↦ pure reqs.needMore) >>= f) cfg) s Q E ↔ _
  rw [hconfigured.reqs hresource]
  exact Iff.rfl

/-- The VMs of other resources are not concerned. -/
theorem Discarded.existingOf {destroys : Destroys} {gone : List VmRef}
    (h : Discarded destroys gone s s₁) (hgone : ∀ v ∈ gone, v ∈ s.existingOf resource)
    (hname : name ≠ resource) : s₁.existingOf name = s.existingOf name := by
  have hother : ∀ v ∈ gone, ¬decide ((s.vms v).cloudResourceName = name) = true := by
    intro v hv
    have hresource := of_decide_eq_true (List.mem_filter.1 (hgone v hv)).2
    exact fun h ↦ hname ((of_decide_eq_true h).symm.trans hresource)
  have hsame : s₁.existingOf name =
      s₁.existing.filter fun v ↦ (s.vms v).cloudResourceName = name := by
    rw [State.existingOf]
    exact congrArg (List.filter · s₁.existing) (funext fun v ↦ by rw [(h.vm v).resource])
  rw [hsame, h.existing, filter_diff_of_forall_not hother]
  rfl

/-- Only the number of free nodes is assigned to. -/
theorem object_setAvailable (s : State) (resource : String) (n : ℤ) (name : String) :
    ∃ m, (s.setAvailable resource n).resources.object name =
      { s.resources.object name with availableNumberOfNodes := m } := by
  rcases eq_or_ne name resource with rfl | hne
  · exact ⟨n, by simp [State.setAvailable]⟩
  · exact ⟨(s.resources.object name).availableNumberOfNodes, by
      rw [State.setAvailable, CloudResources.object_modify_of_ne _ hne]⟩

/-- The end of an iteration. -/
theorem staticPhase_of_discarded {gone : List VmRef} (h : Discarded idleDestroy gone s s₁)
    (hgone : ∀ v ∈ gone, v ∈ s.existingOf resource) (hcluster : s₁.cluster = s.cluster) (n : ℤ)
    {requests : List (ProvisionVM × ℕ)}
    (hrequests : (requests.flatMap fun r ↦
      List.replicate r.2 (r.1.resourceName, r.1.static, r.1.zone)) =
        ((s.staticReqs resource).wanted cfg.locationProperties).map (Prod.mk resource)) :
    StaticPhase cfg [resource] s ((s₁.setAvailable resource n).waitFor requests) where
  cluster := hcluster
  vm := h.vm
  static := h.resources ▸ sameStatic_setAvailable s₁ resource n
  flavors := fun name ↦ by
    obtain ⟨m, hobject⟩ := object_setAvailable s₁ resource n name
    show ((s₁.setAvailable resource n).resources.object name).flavorObjects = _
    rw [hobject, h.resources]
  limit := fun name ↦ by
    obtain ⟨m, hobject⟩ := object_setAvailable s₁ resource n name
    show ((s₁.setAvailable resource n).resources.object name).numberOfDynamicWorkerNodes = _
    rw [hobject, h.resources]
  existing := fun name hname ↦ h.existingOf hgone fun heq ↦ hname (List.mem_singleton.2 heq)
  waiting := by
    obtain ⟨added, hwaiting, hadded⟩ := map_waitFor (s₁.setAvailable resource n)
      (fun request ↦ (request.resourceName, request.static, request.zone)) requests
    refine ⟨added, by rw [hwaiting, ← h.waiting]; rfl, ?_⟩
    rw [hadded, hrequests, List.flatMap_singleton]

/-- **The request for the static VMs** that a resource still needs. -/
theorem ends_requestMissing_exact (hconfigured : StaticConfigured cfg s.resources)
    (hresource : resource ∈ s.resources.names) : Ends (Proc.exec (do
      let needed ← needMoreStatic resource
      Program.when needed (requestStatic cfg resource)) cfg) s
      (fun _ s' ↦ ((s.staticReqs resource).needMore = true →
          (s.resources.object resource).flavorObjects ≠ []) ∧
        ∃ requests, s' = s.waitFor requests ∧ (requests.flatMap fun r ↦
          List.replicate r.2 (r.1.resourceName, r.1.static, r.1.zone)) =
            ((s.staticReqs resource).wanted cfg.locationProperties).map (Prod.mk resource))
      fun _ _ ↦ (s.staticReqs resource).needMore = true ∧
        (s.resources.object resource).flavorObjects = [] := by
  rw [ends_needMore hconfigured hresource, Program.when]
  split
  · rename_i hneeded
    refine (ends_requestStatic_exact hconfigured hresource).mono ?_ fun _ _ hnone ↦
      ⟨hneeded, hnone⟩
    rintro - _ ⟨hnonempty, requests, rfl, flavor, hrequests⟩
    refine ⟨fun _ ↦ hnonempty, requests, rfl, ?_⟩
    rw [hrequests, List.flatMap_map, StaticVMs.wanted, List.map_flatMap]
    simp only [List.map_replicate]
  · rename_i hnot
    refine ⟨fun hneeded ↦ absurd hneeded hnot, [], (waitFor_nil s).symm, ?_⟩
    rw [wanted_of_not_needMore (Bool.not_eq_true _ ▸ hnot)]
    rfl

/-- **One resource.** Its static VMs and its limit are dealt with, or an exception is raised. -/
theorem ends_loadResource_exact (hconfigured : StaticConfigured cfg s.resources)
    (hresource : resource ∈ s.resources.names) :
    Ends ((loadResource cfg answers resource).exec cfg) s
      (fun _ s' ↦ s.Reconcilable resource ∧ StaticPhase cfg [resource] s s')
      fun _ _ ↦ ¬s.Reconcilable resource := by
  suffices h : Ends ((loadResource cfg answers resource).exec cfg) s
      (fun _ s' ↦ s.Reconcilable resource ∧
        (s'.cluster = s.cluster → StaticPhase cfg [resource] s s'))
      fun _ _ ↦ ¬s.Reconcilable resource from
    ((leavesNodes_loadResource answers).ends.and h).mono
      (fun _ _ h ↦ ⟨h.2.1, h.2.2 h.1.cluster⟩) fun _ _ h ↦ h.2
  rw [loadResource, ends_list, Proc.exec, run_bind, ends_bind]
  refine (ends_ofResource _).mono ?_ fun _ _ h ↦ h.elim
  rintro _ _ ⟨rfl, rfl⟩
  rename_i s
  show Ends (Proc.exec (needMoreStatic resource >>= _) cfg) s _ _
  rw [ends_needMore hconfigured hresource, Proc.exec, run_bind, ends_bind]
  -- a VM that is to be marked raises
  refine (ends_markAll _ _).mono ?_ fun e s' h hrec ↦ h.2.2.2 (hrec.static h.2.2.1).1
  rintro - _ ⟨rfl, hmark⟩
  rename_i s
  rw [run_bind, ends_bind]
  refine (ends_countDynamic _).mono ?_ fun _ _ h ↦ h.elim
  rintro num _ ⟨rfl, rfl⟩
  rename_i s
  show Ends (Proc.exec (Proc.resources >>= _) cfg) s _ _
  rw [ends_resources, CloudResources.get, if_pos hresource]
  show Ends (Proc.exec (trimOverused _ _ 0 (s.dynamicOf resource)
    (s.existingOf resource).reverse >>= _) cfg) s _ _
  rw [Proc.exec, run_bind, ends_bind]
  refine (ends_trimExisting hresource).mono ?_ fun e s' h hrec ↦ not_le.2 h.2 hrec.dynamic
  rintro left s₁ ⟨hbusy, -, gone, h₁, -, hgone⟩
  show Ends (Proc.exec (needMoreStatic resource >>= _) cfg) (s₁.setAvailable resource
    ((s.resources.object resource).numberOfDynamicWorkerNodes - left)) _ _
  generalize (s.resources.object resource).numberOfDynamicWorkerNodes - left = n
  have hstatic : SameStatic s.resources (s₁.setAvailable resource n).resources :=
    h₁.resources ▸ sameStatic_setAvailable s₁ resource n
  have hflavors : ((s₁.setAvailable resource n).resources.object resource).flavorObjects =
      (s.resources.object resource).flavorObjects := by
    obtain ⟨m, hobject⟩ := object_setAvailable s₁ resource n resource
    rw [hobject, h₁.resources]
  have hreqs := hstatic.staticReqs resource
  refine (ends_requestMissing_exact (hstatic.configured hconfigured)
    (hstatic.names ▸ hresource)).mono ?_ ?_
  · rintro - _ ⟨hneeds, requests, rfl, hrequests⟩
    rw [hreqs, hflavors] at hneeds
    rw [hreqs] at hrequests
    refine ⟨⟨fun hneeded ↦ ⟨hmark hneeded, hneeds hneeded⟩, hbusy⟩, fun hcluster ↦ ?_⟩
    exact staticPhase_of_discarded h₁ (fun v hv ↦ (hgone v hv).1) hcluster n hrequests
  · rintro e s' ⟨hneeded, hnone⟩ hrec
    rw [hreqs] at hneeded
    exact (hrec.static hneeded).2 (hflavors ▸ hnone)

/-! ### All resources -/

/-- **The resources** that come up can all be reconciled, or an exception is raised. -/
theorem ends_staticPhase (answers : StartUpAnswers)
    (hconfigured : StaticConfigured cfg s.resources) :
    Ends ((staticPhase cfg answers s.resources).exec cfg) s
      (fun _ s' ↦ (∀ resource ∈ s.resources.names, s.Reconcilable resource) ∧
        StaticPhase cfg s.resources.names s s')
      fun _ _ ↦ ¬∀ resource ∈ s.resources.names, s.Reconcilable resource := by
  refine ends_forEach (I := fun done _ s' ↦ (∀ resource ∈ done, s.Reconcilable resource) ∧
    StaticPhase cfg done s s') ?_ ⟨fun _ h ↦ absurd h List.not_mem_nil, .refl s⟩
  rintro done resource rest - s₁ hdone ⟨hreconcilable, h₁⟩
  have hresource : resource ∈ s.resources.names := by simp [← hdone]
  have hfresh : resource ∉ done := notMem_of_nodup hdone s.resources.nodup
  have hsame := h₁.reconcilable_iff hfresh
  refine (ends_loadResource_exact (h₁.static.configured hconfigured)
    (h₁.static.names ▸ hresource)).mono ?_ ?_
  · rintro - s₂ ⟨hrec, h₂⟩
    refine ⟨?_, h₁.trans h₂⟩
    rw [List.forall_mem_append, List.forall_mem_singleton]
    exact ⟨hreconcilable, hsame.1 hrec⟩
  · exact fun e s₂ hnot hall ↦ hnot (hsame.2 (hall resource hresource))

end Phase

/-! ### Reconciliation -/

/-- The flavour of the VM has the first of the names that are configured for a resource. -/
def VM.HasBaseFlavor (vm : VM) (res : CloudResource) : Prop :=
  ∃ flavor : VMFlavor, vm.flavor = some (.object flavor) ∧
    res.workerNodeFlavors.names.head? = some flavor.name

/-- The existing VMs of a resource that have been marked static from `s` to `s'`. -/
def State.markedOf (s s' : State) (resource : String) : ℕ :=
  (s.existingOf resource).countP fun v ↦ (s.vms v).dynamic && !(s'.vms v).dynamic

/-- What the static phase is for. For each resource the VMs that it has marked and those that are
still outstanding are the configured ones, the marked VMs have the base flavour and are in a
requested zone, and the outstanding ones are requested, each in the zone of its location. -/
structure StaticReconciled (cfg : Config) (s s' : State) : Prop where
  counted : ∀ resource ∈ s.resources.names,
    s.markedOf s' resource + s'.outstanding resource = s.outstanding resource
  marked : ∀ resource ∈ s.resources.names, ∀ v ∈ s.existingOf resource,
    (s.vms v).dynamic = true → (s'.vms v).dynamic = false →
      (s.vms v).HasBaseFlavor (s.resources.object resource) ∧
        ∃ req ∈ s.staticReqs resource,
          req.InZone cfg.locationProperties (s.vms v).availabilityZone
  requested : ∃ added, s'.waiting = s.waiting ++ added ∧
    (∀ w ∈ added, w.request.resourceName ∈ s.resources.names) ∧
    ∀ resource ∈ s.resources.names,
      (added.filter fun w ↦ w.request.resourceName = resource).map
        (fun w ↦ (w.request.static, w.request.zone)) =
          (s'.staticReqs resource).wanted cfg.locationProperties

section Reconciled

variable {cfg : Config} {s s' : State}

theorem StaticPhase.reconciled (h : StaticPhase cfg s.resources.names s s') :
    StaticReconciled cfg s s' where
  counted := fun resource _ ↦ by
    have hnone : s.markedOf s' resource = 0 := by
      rw [State.markedOf, List.countP_eq_zero]
      intro v _
      rw [(h.vm v).dynamic]
      simp
    rw [hnone, h.static.outstanding]
    simp
  marked := fun _ _ v _ hdynamic hmarked ↦ by
    rw [(h.vm v).dynamic, hdynamic] at hmarked
    cases hmarked
  requested := by
    obtain ⟨added, hwaiting, hadded⟩ := h.waiting
    refine ⟨added, hwaiting, fun w hw ↦ ?_, fun resource hresource ↦ ?_⟩
    · have hmem : (w.request.resourceName, w.request.static, w.request.zone) ∈
          added.map fun w ↦ (w.request.resourceName, w.request.static, w.request.zone) :=
        List.mem_map_of_mem hw
      rw [hadded] at hmem
      obtain ⟨name, hname, hw⟩ := List.mem_flatMap.1 hmem
      obtain ⟨want, -, heq⟩ := List.mem_map.1 hw
      obtain ⟨rfl, -⟩ := Prod.mk.inj heq
      exact hname
    · rw [h.static.staticReqs, ← filter_flatMap_tagged (fun name ↦
        (s.staticReqs name).wanted cfg.locationProperties) s.resources.nodup hresource, ← hadded,
        List.filter_map, List.map_map]
      rfl

end Reconciled

/-- **Static VMs at start-up.** The static phase completes and reconciles the static VMs of every
resource if and only if no resource has both VMs and outstanding requests, or outstanding requests
and no flavour, or more busy dynamic VMs than its limit. -/
theorem static_phase_iff (cfg : Config) (answers : StartUpAnswers) (s : State)
    (hconfigured : StaticConfigured cfg s.resources) :
    Ends ((staticPhase cfg answers s.resources).exec cfg) s
        (fun _ s' ↦ StaticReconciled cfg s s') (fun _ _ ↦ False) ↔
      ∀ resource ∈ s.resources.names, s.Reconcilable resource := by
  have hends := ends_staticPhase answers hconfigured
  constructor
  · intro h
    by_contra hnot
    exact ((h.and hends).mono (fun _ _ h ↦ hnot h.2.1) fun _ _ h ↦ h.1).elim
  · intro hall
    exact hends.mono (fun _ _ h ↦ h.2.reconciled) fun _ _ h ↦ h hall

theorem staticConfigured_oneStatic : StaticConfigured oneLocation oneStatic := by
  refine fun resource _ ↦ ⟨_, rfl, fun req hreq ↦ ?_⟩
  obtain rfl := List.mem_singleton.1 hreq
  decide

/-- Without any VM, the static worker is requested. -/
theorem static_phase_oneStatic :
    Ends ((staticPhase oneLocation noWorkers oneStatic).exec oneLocation) (State.initial oneStatic)
      (fun _ s' ↦ StaticReconciled oneLocation (State.initial oneStatic) s')
      fun _ _ ↦ False :=
  (static_phase_iff oneLocation noWorkers (State.initial oneStatic)
    staticConfigured_oneStatic).2 fun _ _ ↦
      { static := fun _ ↦ ⟨rfl, List.cons_ne_nil _ _⟩
        dynamic := show (0 : ℤ) ≤ 3 by omega }

/-- An idle worker of the base flavour, in the zone of the location, has survived. -/
def oneSurvivor : State :=
  { State.initial oneStatic with
    existing := [0]
    nextVm := 1
    cluster := { (State.initial oneStatic).cluster with workerNodes := [⟨"wn1", "free", none⟩] }
    vms := fun _ ↦
      { VM.init "1" "wn1" 4 (some (.object ⟨"3", "m1.large", 4⟩)) 0 none (some "image")
          "default" with
        ip := some "10.0.0.1"
        availabilityZone := some "noblepark" } }

/-- It is not marked: the attribute is missing. -/
theorem survivor_not_marked :
    ¬∀ (cfg : Config) (answers : StartUpAnswers) (s : State),
      (cfg.locationOfZone (some cfg.cloudAvailabilityZone)).isSome →
      StaticConfigured cfg s.resources →
      Ends ((staticPhase cfg answers s.resources).exec cfg) s
        (fun _ s' ↦ StaticReconciled cfg s s') (fun _ _ ↦ False) := by
  intro h
  have hends := h oneLocation noWorkers oneSurvivor (by decide) staticConfigured_oneStatic
  have hraised : raised ((staticPhase oneLocation noWorkers oneStatic).exec oneLocation)
      oneSurvivor = some (.attributeError "worker_node_flavor") := by
    decide +kernel
  exact of_raised hends hraised

end DynamicTorque
