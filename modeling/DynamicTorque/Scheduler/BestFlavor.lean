import DynamicTorque.Scheduler.Capacity

/-!
# Flavours for allocations

`best_flavor_from_node` takes the smallest flavour that offers the cores of an allocation, and falls
back to the smallest of all when none does. It never has to: the packing loop keeps every allocation
within the largest flavour of its resource (`FitsBudget`), so a flavour is found for each allocation
that a run leaves (`best_flavor_of_run`).
-/

open Python

namespace DynamicTorque.JobScheduler

/-- The search for a flavour in `best_flavor_from_node`. -/
def searchFlavor (crs : CloudResources) (resource : String) (alloc : ResAllocation) :
    Option VMFlavor :=
  (sortByKey VMFlavor.vcpus (crs.object resource).flavorObjects).find? fun f ↦
    f.vcpus ≥ alloc.getTotalNumCores

/-- The flavour is a smallest one of those that offer the cores of the allocation. -/
structure IsBestFlavor (flavors : List VMFlavor) (alloc : ResAllocation) (f : VMFlavor) : Prop where
  mem : f ∈ flavors
  enough : alloc.getTotalNumCores ≤ f.vcpus
  smallest : ∀ g ∈ flavors, alloc.getTotalNumCores ≤ g.vcpus → f.vcpus ≤ g.vcpus

section BestFlavor

variable {crs crs' : CloudResources} {resource : String} {alloc : ResAllocation} {f : VMFlavor}

theorem IsBestFlavor.of_perm {flavors flavors' : List VMFlavor} (h : IsBestFlavor flavors alloc f)
    (hperm : flavors.Perm flavors') : IsBestFlavor flavors' alloc f where
  mem := hperm.mem_iff.1 h.mem
  enough := h.enough
  smallest := fun g hg ↦ h.smallest g (hperm.mem_iff.2 hg)

/-- What the search finds. -/
theorem isBestFlavor_of_searchFlavor (h : searchFlavor crs resource alloc = some f) :
    IsBestFlavor (crs.object resource).flavorObjects alloc f := by
  obtain ⟨hmem, henough, hsmallest⟩ := find?_sortByKey VMFlavor.vcpus _ h
  exact ⟨hmem, henough, hsmallest⟩

/-- The search is successful for an allocation within the largest flavour. -/
theorem exists_searchFlavor (hne : (crs.object resource).flavorObjects ≠ [])
    (hfits : alloc.getTotalNumCores ≤ (crs.object resource).largestVcpus) :
    ∃ f, searchFlavor crs resource alloc = some f := by
  obtain ⟨⟨largest, hmem, hlargest⟩, -⟩ := CloudResource.isGreatest_largestVcpus hne
  refine Option.isSome_iff_exists.1 (List.find?_isSome.2 ⟨largest, ?_, ?_⟩)
  · exact (sortByKey_perm _ _).mem_iff.2 hmem
  · exact decide_eq_true (hlargest ▸ hfits)

/-- **`best_flavor_from_node`** returns what the search finds, if it finds something. -/
theorem bestFlavorFromNode_eq {flavorId : String}
    (hsearch : searchFlavor crs resource alloc = some f)
    (h : bestFlavorFromNode crs resource alloc = .ok flavorId) : flavorId = f.id := by
  rw [bestFlavorFromNode] at h
  obtain ⟨res, hres, h⟩ := bind_eq_ok.1 h
  obtain ⟨-, rfl⟩ := CloudResources.get_eq_ok_iff.1 hres
  rw [searchFlavor, ResAllocation.getTotalNumCores] at hsearch
  simp only [hsearch] at h
  exact (Except.ok.inj h).symm

/-- It raises for a resource without flavours. -/
theorem flavorObjects_ne_nil_of_bestFlavorFromNode {flavorId : String}
    (h : bestFlavorFromNode crs resource alloc = .ok flavorId) :
    (crs.object resource).flavorObjects ≠ [] := by
  intro hnil
  rw [bestFlavorFromNode] at h
  obtain ⟨res, hres, h⟩ := bind_eq_ok.1 h
  obtain ⟨-, rfl⟩ := CloudResources.get_eq_ok_iff.1 hres
  simp [hnil, sortByKey] at h

end BestFlavor

/-- An allocation of a resource, listed under the resource. -/
theorem mem_allNodes {reqList : ReqList} {node : String × ResAllocation}
    (h : node ∈ allNodes reqList.entries) :
    ∃ nodes, reqList.lookup node.1 = some nodes ∧ node.2 ∈ nodes := by
  obtain ⟨⟨resource, nodes⟩, hentry, hnode⟩ := List.mem_flatMap.1 h
  obtain ⟨alloc, halloc, rfl⟩ := List.mem_map.1 hnode
  exact ⟨nodes, AList.mem_lookup_iff.2 hentry, halloc⟩

/-- The request names a best flavour of the resource for the allocation, the one that the search
finds. -/
def AsksForBestFlavor (crs crs' : CloudResources) (node : String × ResAllocation)
    (request : ProvisionVM) : Prop :=
  request.resourceName = node.1 ∧ ∃ f, searchFlavor crs' node.1 node.2 = some f ∧
    request.flavor = .id f.id ∧ IsBestFlavor (crs.object node.1).flavorObjects node.2 f

/-- A request made for an allocation that fits the largest flavour. -/
theorem asksForBestFlavor_of_isRequestFor {cfg : Config} {crs crs' : CloudResources}
    {node : String × ResAllocation} {request : ProvisionVM} (htable : SameTable crs crs')
    (hfits : node.2.getTotalNumCores ≤ (crs'.object node.1).largestVcpus)
    (h : IsRequestFor cfg crs' node request) : AsksForBestFlavor crs crs' node request := by
  obtain ⟨hresource, -, ⟨flavorId, hbest, hflavor⟩, -⟩ := h
  have hne := flavorObjects_ne_nil_of_bestFlavorFromNode hbest
  obtain ⟨f, hsearch⟩ := exists_searchFlavor hne hfits
  refine ⟨hresource, f, hsearch, ?_, ?_⟩
  · rw [hflavor, bestFlavorFromNode_eq hsearch hbest]
  · exact (isBestFlavor_of_searchFlavor hsearch).of_perm (htable.flavors node.1)

/-- **The scheduler picks a big enough and smallest flavour.** Whenever `calculate_new_instances`
returns, its requests correspond in order to the allocations that its loop left, and each names a
flavour of the resource that offers the cores of the allocation, such that no smaller one does. It
is the one that the search finds, so the fallback is not taken. -/
theorem best_flavor_of_run (cfg : Config) (draws : Draws) (jobs : List Job) (numberOfWn : ℤ)
    (crs crs' : CloudResources) (requests : List ProvisionVM)
    (h : calculateNewInstances cfg draws jobs numberOfWn crs = .ok (requests, crs')) :
    ∃ reqList, scheduleJobs cfg numberOfWn draws.job 0 jobs ∅ crs = .ok (reqList, crs') ∧
      List.Forall₂ (AsksForBestFlavor crs crs') (allNodes reqList.entries) requests := by
  obtain ⟨reqList, hrun, hrequests⟩ := exists_scheduleJobs_of_calculateNewInstances h
  obtain ⟨htable, hfits⟩ := fitsBudget_of_scheduleJobs hrun
  have hnodes : ∀ node ∈ allNodes reqList.entries,
      node.2.getTotalNumCores ≤ (crs'.object node.1).largestVcpus := by
    intro node hnode
    obtain ⟨nodes, hlookup, halloc⟩ := mem_allNodes hnode
    exact (hfits node.1 nodes hlookup).2 node.2 halloc
  refine ⟨reqList, hrun, ?_⟩
  clear h
  generalize allNodes reqList.entries = nodes at hrequests hnodes ⊢
  induction hrequests with
  | nil => exact .nil
  | cons hhead _ ih =>
    have hhere := asksForBestFlavor_of_isRequestFor htable (hnodes _ List.mem_cons_self) hhead
    exact .cons hhere (ih fun node hnode ↦ hnodes node (List.mem_cons_of_mem _ hnode))

/-- Three nodes again, with three flavours to choose from. -/
def threeFlavors : CloudResources :=
  { threeNodes with
    object := fun name ↦
      { threeNodes.object name with
        flavorObjects := [⟨"4", "m1.xlarge", 8⟩, ⟨"2", "m1.small", 1⟩, ⟨"3", "m1.large", 4⟩] } }

/-- The first two jobs share a node of the largest flavour; the one in the middle is enough for the
third. -/
theorem best_flavor_of_run_threeFlavors :
    ∃ reqList crs', scheduleJobs {} 0 noDraws.job 0
          [singleNodeJob "6", singleNodeJob "2", singleNodeJob "2"] ∅ threeFlavors =
        .ok (reqList, crs') ∧
      List.Forall₂ (AsksForBestFlavor threeFlavors crs') (allNodes reqList.entries)
        [⟨.id "4", some "noblepark", "default", false⟩,
          ⟨.id "3", some "noblepark", "default", false⟩] := by
  obtain ⟨reqList, h⟩ := best_flavor_of_run {} noDraws
    [singleNodeJob "6", singleNodeJob "2", singleNodeJob "2"] 0 threeFlavors _
    [⟨.id "4", some "noblepark", "default", false⟩,
      ⟨.id "3", some "noblepark", "default", false⟩] rfl
  exact ⟨reqList, _, h⟩

end DynamicTorque.JobScheduler
