import DynamicTorque.Language.Placement
import DynamicTorque.Model.JobScheduler

/-!
# What packing does to the allocations

`add_new_requirement_to_list` is a packing step in the sense of `Packing.Placement`: the bins
are the allocations of one resource, the items the elements of a requirement. The loop scans
the sorted allocations once, so each allocation receives at most one element, and only
allocations of the requirement's location receive any (`placement_of_addNewRequirementToList`).
Conservation of cores is then the library's `Placement.contents_perm`.

`Converted` describes the requests that `convert_req_list_to_flavor` makes of the allocations,
one for one and in order.
-/

open Python Packing

namespace DynamicTorque.JobScheduler

/-- An allocation after it received the cores of one more requirement element. -/
def addCores (res : ResAllocation) (v : ℤ) : ResAllocation :=
  { res with vcpuList := res.vcpuList ++ [v] }

/-- What the packer checks before it puts `v` cores in an allocation. -/
def Accepts (vcpus : Except PyError ℤ) (location : Option String) (res : ResAllocation)
    (v : ℤ) : Prop :=
  res.locationProperty = location ∧ ∃ capacity, vcpus = .ok capacity ∧
    res.getTotalNumCores + v ≤ capacity

@[simp] theorem getTotalNumCores_addCores (res : ResAllocation) (v : ℤ) :
    (addCores res v).getTotalNumCores = res.getTotalNumCores + v := by
  simp [addCores, ResAllocation.getTotalNumCores]

@[simp] theorem getTotalNumCores_singleton (v : ℤ) (location : Option String) :
    (⟨[v], location⟩ : ResAllocation).getTotalNumCores = v := by
  simp [ResAllocation.getTotalNumCores]

/-! ### The packing loop -/

section PlaceLoop

variable {vcpus : Except PyError ℤ} {requirement : List ℤ} {location : Option String}

/-- What a returning scan did with its first allocation: passed over it, for its location or
because the next element does not fit, or put the next element there. -/
theorem placeLoop_cons_cases {res : ResAllocation} {rest bins' : List ResAllocation}
    {idx idx' : ℕ}
    (h : placeLoop vcpus requirement location idx (res :: rest) = .ok (idx', bins')) :
    (∃ rest', placeLoop vcpus requirement location idx rest = .ok (idx', rest') ∧
      bins' = res :: rest') ∨
    (∃ v rest', requirement[idx]? = some v ∧ Accepts vcpus location res v ∧
      placeLoop vcpus requirement location (idx + 1) rest = .ok (idx', rest') ∧
      bins' = addCores res v :: rest') := by
  rw [placeLoop] at h
  split at h
  · obtain ⟨⟨i, rest'⟩, hrest, h⟩ := bind_eq_ok.1 h
    obtain ⟨rfl, rfl⟩ := Prod.mk.inj (Except.ok.inj h)
    exact .inl ⟨rest', hrest, rfl⟩
  · rename_i hloc
    split at h
    · cases h
    · rename_i v hv
      obtain ⟨capacity, hcap, h⟩ := bind_eq_ok.1 h
      split at h
      · rename_i hfit
        obtain ⟨⟨i, rest'⟩, hrest, h⟩ := bind_eq_ok.1 h
        obtain ⟨rfl, rfl⟩ := Prod.mk.inj (Except.ok.inj h)
        exact .inr ⟨v, rest', hv, ⟨not_not.1 hloc, capacity, hcap, hfit⟩, hrest, rfl⟩
      · obtain ⟨⟨i, rest'⟩, hrest, h⟩ := bind_eq_ok.1 h
        obtain ⟨rfl, rfl⟩ := Prod.mk.inj (Except.ok.inj h)
        exact .inl ⟨rest', hrest, rfl⟩

/-- The slots of a scan that starts at element `idx` and stops at `idx'`. -/
theorem exists_slots_of_placeLoop : ∀ {bins : List ResAllocation} {idx idx' : ℕ}
    {bins' : List ResAllocation},
    placeLoop vcpus requirement location idx bins = .ok (idx', bins') →
    ∃ slots : List (ResAllocation × Option ℤ), slots.map Prod.fst = bins ∧
      (∀ b v, (b, some v) ∈ slots → Accepts vcpus location b v) ∧
      slots.filterMap Prod.snd ++ requirement.drop idx' = requirement.drop idx ∧
      bins' = slots.map (fill addCores) := by
  intro bins
  induction bins with
  | nil =>
    intro idx idx' bins' h
    obtain ⟨rfl, rfl⟩ := Prod.mk.inj (Except.ok.inj h)
    exact ⟨[], by simp⟩
  | cons res rest ih =>
    intro idx idx' bins' h
    -- the allocation is passed over, or it takes the next element
    rcases placeLoop_cons_cases h with ⟨rest', hrest, rfl⟩ | ⟨v, rest', hv, hacc, hrest, rfl⟩
    · obtain ⟨slots, rfl, haccepts, hitems, rfl⟩ := ih hrest
      exact ⟨(res, none) :: slots, rfl, by simpa using haccepts, by simpa using hitems, rfl⟩
    · obtain ⟨slots, rfl, haccepts, hitems, rfl⟩ := ih hrest
      refine ⟨(res, some v) :: slots, rfl, ?_, ?_, rfl⟩
      · intro b w hmem
        rcases List.mem_cons.1 hmem with heq | hmem
        · obtain ⟨rfl, rfl⟩ : b = res ∧ w = v := by simpa using heq
          exact hacc
        · exact haccepts b w hmem
      · obtain ⟨hlt, rfl⟩ := List.getElem?_eq_some_iff.1 hv
        rw [List.drop_eq_getElem_cons hlt, ← hitems]
        rfl

end PlaceLoop

/-- The allocations of a resource, none if it has no entry. -/
def allocations (reqList : ReqList) (account : String) : List ResAllocation :=
  (reqList.lookup account).getD []

@[simp] theorem allocations_insert_self (reqList : ReqList) (account : String)
    (nodes : List ResAllocation) : allocations (reqList.insert account nodes) account = nodes := by
  simp [allocations]

theorem allocations_insert_of_ne (reqList : ReqList) {account other : String}
    (h : other ≠ account) (nodes : List ResAllocation) :
    allocations (reqList.insert account nodes) other = allocations reqList other := by
  simp [allocations, AList.lookup_insert_ne h]

/-- `add_new_requirement_to_list` replaces the entry of its resource and no other. -/
theorem exists_eq_insert_of_addNewRequirementToList {reqList reqList' : ReqList}
    {requirement : List ℤ} {location : Option String} {account : String} {crs : CloudResources}
    (h : addNewRequirementToList reqList requirement location account crs = .ok reqList') :
    ∃ nodes, reqList' = reqList.insert account nodes := by
  rw [addNewRequirementToList] at h
  split at h
  · exact ⟨_, (Except.ok.inj h).symm⟩
  · obtain ⟨⟨idx, placed⟩, -, h⟩ := bind_eq_ok.1 h
    exact ⟨_, (Except.ok.inj h).symm⟩

/-- **Packing is a placement.** Each allocation, old or new, receives at most one element of
the requirement, every element is received once, and only allocations of the location with
room for it receive any. -/
theorem placement_of_addNewRequirementToList {reqList reqList' : ReqList}
    {requirement : List ℤ} {location : Option String} {account : String} {crs : CloudResources}
    (h : addNewRequirementToList reqList requirement location account crs = .ok reqList') :
    Placement addCores (fun v ↦ ⟨[v], location⟩) (Accepts (nodeVcpus crs account) location)
      (allocations reqList account) requirement (allocations reqList' account) := by
  rw [addNewRequirementToList] at h
  split at h
  · rename_i hnone
    obtain rfl := Except.ok.inj h
    exact ⟨[], requirement, by simp [allocations, hnone], by simp, by simp,
      by simp [freshAllocations]⟩
  · rename_i nodes hsome
    obtain ⟨⟨idx, placed⟩, hloop, h⟩ := bind_eq_ok.1 h
    obtain rfl := Except.ok.inj h
    obtain ⟨slots, hbins, haccepts, hitems, rfl⟩ := exists_slots_of_placeLoop hloop
    refine ⟨slots, requirement.drop idx, ?_, haccepts, by simpa using hitems,
      by simp [freshAllocations]⟩
    rw [hbins, allocations, hsome]
    exact sortByKeyReverse_perm _ _

/-! ### From allocations to requests -/

/-- A request made for an allocation of a resource. -/
def IsRequestFor (cfg : Config) (crs : CloudResources) (node : String × ResAllocation)
    (request : ProvisionVM) : Prop :=
  request.resourceName = node.1 ∧ request.static = false ∧
    (∃ flavorId, bestFlavorFromNode crs node.1 node.2 = .ok flavorId ∧
      request.flavor = .id flavorId) ∧
    ∃ draw zone, cfg.convertLocationPropertyToAvailabilityZone node.2.locationProperty draw =
      .ok zone ∧ request.zone = some zone

/-- All allocations, each with its resource, in dictionary order. -/
def allNodes (entries : List (Sigma fun _ : String ↦ List ResAllocation)) :
    List (String × ResAllocation) :=
  entries.flatMap fun e ↦ e.2.map (Prod.mk e.1)

theorem forall₂_of_convertNodes {cfg : Config} {crs : CloudResources} {draws : ℕ → ℕ}
    {resource : String} : ∀ {nodes : List ResAllocation} {i : ℕ} {requests : List ProvisionVM},
    convertNodes cfg crs draws resource i nodes = .ok requests →
    List.Forall₂ (IsRequestFor cfg crs) (nodes.map (Prod.mk resource)) requests := by
  intro nodes
  induction nodes with
  | nil =>
    intro i requests h
    obtain rfl := Except.ok.inj h
    exact .nil
  | cons node nodes ih =>
    intro i requests h
    rw [convertNodes] at h
    obtain ⟨flavorId, hflavor, h⟩ := bind_eq_ok.1 h
    obtain ⟨zone, hzone, h⟩ := bind_eq_ok.1 h
    obtain ⟨tail, htail, h⟩ := bind_eq_ok.1 h
    obtain rfl := Except.ok.inj h
    exact .cons ⟨rfl, rfl, ⟨flavorId, hflavor, rfl⟩, draws i, zone, hzone, rfl⟩ (ih htail)

theorem forall₂_of_convertEntries {cfg : Config} {crs : CloudResources}
    {draws : String → ℕ → ℕ} : ∀ {entries requests},
    convertEntries cfg crs draws entries = .ok requests →
    List.Forall₂ (IsRequestFor cfg crs) (allNodes entries) requests := by
  intro entries
  induction entries with
  | nil =>
    intro requests h
    obtain rfl := Except.ok.inj h
    exact .nil
  | cons e entries ih =>
    intro requests h
    rw [convertEntries] at h
    obtain ⟨here, hhere, h⟩ := bind_eq_ok.1 h
    obtain ⟨tail, htail, h⟩ := bind_eq_ok.1 h
    obtain rfl := Except.ok.inj h
    exact List.rel_append (forall₂_of_convertNodes hhere) (ih htail)

/-- Whatever `calculate_new_instances` returns was made of the allocations its loop left. -/
theorem exists_scheduleJobs_of_calculateNewInstances {cfg : Config} {draws : Draws}
    {jobs : List Job} {numberOfWn : ℤ} {crs crs' : CloudResources} {requests : List ProvisionVM}
    (h : calculateNewInstances cfg draws jobs numberOfWn crs = .ok (requests, crs')) :
    ∃ reqList, scheduleJobs cfg numberOfWn draws.job 0 jobs ∅ crs = .ok (reqList, crs') ∧
      List.Forall₂ (IsRequestFor cfg crs') (allNodes reqList.entries) requests := by
  rw [calculateNewInstances] at h
  obtain ⟨⟨reqList, crs''⟩, hjobs, h⟩ := bind_eq_ok.1 h
  dsimp only at h
  split at h
  · obtain ⟨requests', hconvert, h⟩ := bind_eq_ok.1 h
    obtain ⟨rfl, rfl⟩ := Prod.mk.inj (Except.ok.inj h)
    exact ⟨reqList, hjobs, forall₂_of_convertEntries hconvert⟩
  · rename_i hempty
    obtain ⟨rfl, rfl⟩ := Prod.mk.inj (Except.ok.inj h)
    have hnil : reqList.entries = [] := List.length_eq_zero_iff.1 (by omega)
    exact ⟨reqList, hjobs, by rw [hnil]; exact .nil⟩

/-! ### The packing theorem -/

/-- **No requirement is lost or duplicated.** Whenever `add_new_requirement_to_list` returns,
the cores held by the resource's allocations are the old ones and the requirement's elements;
they were put there by filling slots, so two elements never share an allocation, an allocation
keeps its location, and only the requirement's location receives any; other resources are
untouched. And whenever `calculate_new_instances` returns, its requests correspond one to one,
in order, to the allocations. -/
theorem packing_conserves :
    (∀ (reqList reqList' : ReqList) (requirement : List ℤ) (location : Option String)
        (account : String) (crs : CloudResources),
      addNewRequirementToList reqList requirement location account crs = .ok reqList' →
      ((allocations reqList' account).flatMap ResAllocation.vcpuList).Perm
          ((allocations reqList account).flatMap ResAllocation.vcpuList ++ requirement) ∧
        (∃ (slots : List (ResAllocation × Option ℤ)) (rest : List ℤ),
          (slots.map Prod.fst).Perm (allocations reqList account) ∧
          (∀ b v, (b, some v) ∈ slots → b.locationProperty = location) ∧
          slots.filterMap Prod.snd ++ rest = requirement ∧
          allocations reqList' account =
            slots.map (fill addCores) ++ rest.map fun v ↦ ⟨[v], location⟩) ∧
        ∀ other, other ≠ account → reqList'.lookup other = reqList.lookup other) ∧
    ∀ (cfg : Config) (draws : Draws) (jobs : List Job) (numberOfWn : ℤ)
        (crs crs' : CloudResources) (requests : List ProvisionVM),
      calculateNewInstances cfg draws jobs numberOfWn crs = .ok (requests, crs') →
      ∃ reqList, scheduleJobs cfg numberOfWn draws.job 0 jobs ∅ crs = .ok (reqList, crs') ∧
        List.Forall₂ (IsRequestFor cfg crs') (allNodes reqList.entries) requests := by
  refine ⟨fun reqList reqList' requirement location account crs h ↦ ⟨?_, ?_, ?_⟩,
    fun _ _ _ _ _ _ _ ↦ exists_scheduleJobs_of_calculateNewInstances⟩
  · have hperm := (placement_of_addNewRequirementToList h).contents_perm ResAllocation.vcpuList
      (fun v ↦ [v]) (fun _ _ ↦ .refl _) (fun _ ↦ rfl)
    simpa [List.flatMap_singleton'] using hperm
  · obtain ⟨slots, rest, hbins, haccepts, hitems, hnew⟩ := placement_of_addNewRequirementToList h
    exact ⟨slots, rest, hbins, fun b v hmem ↦ (haccepts b v hmem).1, hitems, hnew⟩
  · obtain ⟨nodes, rfl⟩ := exists_eq_insert_of_addNewRequirementToList h
    exact fun other hne ↦ AList.lookup_insert_ne hne

/-- Three nodes of four cores, in a table with the default resource only. -/
def threeNodes : CloudResources where
  names := ["default"]
  nodup := by decide
  object := fun _ ↦
    { imageUuid := "image", userDataFile := "userdata.sh",
      workerNodeFlavors := .list ["m1.large"], numberOfDynamicWorkerNodes := 3,
      flavorObjects := [⟨"3", "m1.large", 4⟩], staticVmsToStart := some [],
      availableNumberOfNodes := 3, accountString := none, hasVolume := false,
      reservationType := "account" }

/-- A job of the default queue that wants `ncpus` cores on one node. -/
def singleNodeJob (ncpus : String) : Job :=
  { jobId := "1.server", queue := some "default", neednodes := some (some "1"),
    ncpus := some (some ncpus), jobPriority := some 0 }

/-- The draws of a run that draws nothing. -/
def noDraws : Draws := ⟨fun _ ↦ 0, fun _ _ ↦ 0⟩

theorem packing_conserves_threeNodes :
    (([⟨[3, 1], none⟩] : List ResAllocation).flatMap ResAllocation.vcpuList).Perm
        (([⟨[3], none⟩] : List ResAllocation).flatMap ResAllocation.vcpuList ++ [1]) ∧
      ∃ reqList crs', scheduleJobs {} 0 noDraws.job 0 [singleNodeJob "3"] ∅ threeNodes =
          .ok (reqList, crs') ∧
        List.Forall₂ (IsRequestFor {} crs') (allNodes reqList.entries)
          [⟨.id "3", some "noblepark", "default", false⟩] := by
  constructor
  · exact (packing_conserves.1 (AList.singleton "default" [⟨[3], none⟩])
      (AList.singleton "default" [⟨[3, 1], none⟩]) [1] none "default" threeNodes rfl).1
  · obtain ⟨reqList, h⟩ := packing_conserves.2 {} noDraws [singleNodeJob "3"] 0 threeNodes _
      [⟨.id "3", some "noblepark", "default", false⟩] rfl
    exact ⟨reqList, _, h⟩

end DynamicTorque.JobScheduler
