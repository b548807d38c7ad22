import DynamicTorque.Scheduler.Packing
import Mathlib.Order.Bounds.Basic

/-!
# The core budget of the scheduler

Admission is a core budget: `have_enough_cores` accepts a requirement when the cores already
packed for a resource and the requirement's own together stay within
`available_number_of_nodes` times the cores of the resource's largest flavour, and when its
first element fits that flavour. `FitsBudget` is the loop invariant this maintains, and
`fitsBudget_of_scheduleJobs` carries it along the loop over the jobs.

The budget does not count nodes. A requirement opens a new allocation whenever no allocation
has room for it, so four jobs of three cores take four nodes out of a budget of three nodes of
four cores (`node_quota_exceeded`). What the budget does bound is the number of nodes of jobs
that all ask for some number of cores on each node: `count_requests_le_budget_div`.
-/

open Python Packing

namespace DynamicTorque

namespace CloudResource

/-- The cores of the largest flavour, 0 if there is none. -/
def largestVcpus (res : CloudResource) : ℤ :=
  ((res.flavorObjects.map VMFlavor.vcpus).max?).getD 0

theorem largestVcpus_eq {res : CloudResource} {f : VMFlavor} (hmem : f ∈ res.flavorObjects)
    (hmax : ∀ g ∈ res.flavorObjects, g.vcpus ≤ f.vcpus) : res.largestVcpus = f.vcpus := by
  have h : (res.flavorObjects.map VMFlavor.vcpus).max? = some f.vcpus :=
    List.max?_eq_some_iff.2 ⟨List.mem_map_of_mem hmem, by simpa using hmax⟩
  rw [largestVcpus, h, Option.getD_some]

theorem isGreatest_largestVcpus {res : CloudResource} (h : res.flavorObjects ≠ []) :
    IsGreatest {n | ∃ f ∈ res.flavorObjects, f.vcpus = n} res.largestVcpus := by
  obtain ⟨n, hn⟩ := Option.isSome_iff_exists.1
    (List.isSome_max?_of_ne_nil (l := res.flavorObjects.map VMFlavor.vcpus) (by simpa using h))
  obtain ⟨hmem, hmax⟩ := List.max?_eq_some_iff.1 hn
  rw [largestVcpus, hn, Option.getD_some]
  exact ⟨by simpa using hmem, fun m ⟨f, hf, hfm⟩ ↦ hmax m (hfm ▸ List.mem_map_of_mem hf)⟩

/-- After sorting, the first flavour is a largest one. -/
theorem vcpus_of_firstFlavor_sortFlavors {res : CloudResource} {f : VMFlavor}
    (h : res.sortFlavors.firstFlavor = .ok f) : f.vcpus = res.largestVcpus := by
  rw [firstFlavor] at h
  split at h
  · rename_i g rest hsorted
    obtain rfl := Except.ok.inj h
    refine (largestVcpus_eq ?_ (le_head_sortByKeyReverse VMFlavor.vcpus _ hsorted)).symm
    have hmem : g ∈ res.sortFlavors.flavorObjects := by simp [hsorted]
    exact (sortByKeyReverse_perm _ _).mem_iff.1 hmem
  · cases h

end CloudResource

namespace JobScheduler

/-! ### The table during a run

A run changes the order of flavours only. -/

/-- The same resources, up to the order of their flavours. -/
structure SameTable (crs crs' : CloudResources) : Prop where
  names : crs'.names = crs.names
  available : ∀ r, (crs'.object r).availableNumberOfNodes = (crs.object r).availableNumberOfNodes
  flavors : ∀ r, (crs'.object r).flavorObjects.Perm (crs.object r).flavorObjects
  largest : ∀ r, (crs'.object r).largestVcpus = (crs.object r).largestVcpus

theorem SameTable.refl (crs : CloudResources) : SameTable crs crs :=
  ⟨rfl, fun _ ↦ rfl, fun _ ↦ .refl _, fun _ ↦ rfl⟩

theorem SameTable.trans {crs₁ crs₂ crs₃ : CloudResources} (h₁ : SameTable crs₁ crs₂)
    (h₂ : SameTable crs₂ crs₃) : SameTable crs₁ crs₃ :=
  ⟨h₂.names.trans h₁.names, fun r ↦ (h₂.available r).trans (h₁.available r),
    fun r ↦ (h₂.flavors r).trans (h₁.flavors r), fun r ↦ (h₂.largest r).trans (h₁.largest r)⟩

theorem largestVcpus_sortFlavors (res : CloudResource) :
    res.sortFlavors.largestVcpus = res.largestVcpus := by
  by_cases h : res.flavorObjects = []
  · simp [CloudResource.largestVcpus, CloudResource.sortFlavors, h, sortByKeyReverse]
  · have hperm : res.sortFlavors.flavorObjects.Perm res.flavorObjects :=
      sortByKeyReverse_perm _ _
    obtain ⟨⟨f, hf, hfn⟩, hmax⟩ := CloudResource.isGreatest_largestVcpus h
    rw [← hfn]
    exact CloudResource.largestVcpus_eq (hperm.mem_iff.2 hf) fun g hg ↦
      hfn ▸ hmax ⟨g, hperm.mem_iff.1 hg, rfl⟩

theorem sameTable_sortFlavors (crs : CloudResources) (account : String) :
    SameTable crs (crs.modify account fun _ ↦ (crs.object account).sortFlavors) where
  names := rfl
  available := fun r ↦ by
    by_cases h : r = account
    · subst h
      simp [CloudResource.sortFlavors]
    · rw [crs.object_modify_of_ne h]
  flavors := fun r ↦ by
    by_cases h : r = account
    · subst h
      rw [crs.object_modify_self]
      exact sortByKeyReverse_perm _ _
    · rw [crs.object_modify_of_ne h]
  largest := fun r ↦ by
    by_cases h : r = account
    · subst h
      rw [crs.object_modify_self, largestVcpus_sortFlavors]
    · rw [crs.object_modify_of_ne h]

/-- The core budget of a resource. -/
def budget (crs : CloudResources) (r : String) : ℤ :=
  (crs.object r).availableNumberOfNodes * (crs.object r).largestVcpus

/-! ### Admission -/

theorem totalCores_eq (reqList : ReqList) (account : String) :
    totalCores reqList account =
      ((allocations reqList account).map ResAllocation.getTotalNumCores).sum := rfl

/-- **What admission checks**, and the table it leaves: the resource exists, its flavours are
now sorted, and a positive answer means that the requirement is within the budget and its
first element within the largest flavour. -/
theorem haveEnoughCores_spec {reqList : ReqList} {account : String} {requirement : List ℤ}
    {crs crs' : CloudResources} {answer : Bool}
    (h : haveEnoughCores reqList account requirement crs = .ok (answer, crs')) :
    account ∈ crs.names ∧ SameTable crs crs' ∧
      nodeVcpus crs' account = .ok (crs.object account).largestVcpus ∧
      (answer = true → totalCores reqList account + requirement.sum ≤ budget crs account ∧
        ∀ v ∈ requirement.head?, v ≤ (crs.object account).largestVcpus) := by
  rw [haveEnoughCores] at h
  obtain ⟨res, hres, h⟩ := bind_eq_ok.1 h
  obtain ⟨hname, rfl⟩ := CloudResources.get_eq_ok_iff.1 hres
  obtain ⟨⟨cores, res'⟩, havail, h⟩ := bind_eq_ok.1 h
  obtain ⟨largest, hfirst, havail⟩ := bind_eq_ok.1 havail
  obtain ⟨rfl, rfl⟩ := Prod.mk.inj (Except.ok.inj havail)
  have hvcpus := CloudResource.vcpus_of_firstFlavor_sortFlavors hfirst
  have htable := sameTable_sortFlavors crs account
  have hnode : nodeVcpus (crs.modify account fun _ ↦ (crs.object account).sortFlavors) account =
      .ok (crs.object account).largestVcpus := by
    simp only [nodeVcpus, CloudResources.get, CloudResources.names_modify, hname, if_true,
      CloudResources.object_modify_self]
    exact bind_eq_ok.2 ⟨_, rfl, bind_eq_ok.2 ⟨largest, hfirst, congrArg _ hvcpus⟩⟩
  dsimp only at h
  split at h
  · obtain ⟨rfl, rfl⟩ := Prod.mk.inj (Except.ok.inj h)
    exact ⟨hname, htable, hnode, fun hfalse ↦ absurd hfalse Bool.false_ne_true⟩
  · rename_i hbudget
    obtain ⟨largest', hfirst', h⟩ := bind_eq_ok.1 h
    obtain rfl : largest = largest' := Except.ok.inj (hfirst.symm.trans hfirst')
    cases requirement with
    | nil => cases h
    | cons v vs =>
      obtain ⟨rfl, rfl⟩ := Prod.mk.inj (Except.ok.inj h)
      refine ⟨hname, htable, hnode, fun hanswer ↦ ⟨?_, ?_⟩⟩
      · rw [budget, ← hvcpus]
        exact not_lt.1 hbudget
      · intro w hw
        obtain rfl : v = w := by simpa using hw
        rw [← hvcpus]
        exact of_decide_eq_true hanswer

/-! ### Requirements are uniform -/

/-- A requirement asks for the same number of cores on each node. -/
def Uniform (requirement : List ℤ) : Prop :=
  ∃ n v, requirement = List.replicate n v

theorem Uniform.eq_head {requirement : List ℤ} (h : Uniform requirement) {v : ℤ}
    (hv : v ∈ requirement) : v ∈ requirement.head? := by
  obtain ⟨n, w, rfl⟩ := h
  obtain ⟨hn, rfl⟩ := List.mem_replicate.1 hv
  cases n with
  | zero => exact absurd rfl hn
  | succ n => simp [List.replicate_succ]

theorem uniform_of_getVcpuRequirement {cfg : Config} {job : Job} {draw : ℕ}
    {requirement : List ℤ} {location : Option String} {account : String}
    (h : getVcpuRequirement cfg job draw = .ok (some requirement, location, account)) :
    Uniform requirement := by
  rw [getVcpuRequirement] at h
  obtain ⟨account', -, h⟩ := bind_eq_ok.1 h
  split at h
  · obtain ⟨numNodes, -, h⟩ := bind_eq_ok.1 h
    obtain ⟨numCores, -, h⟩ := bind_eq_ok.1 h
    obtain ⟨loc, -, h⟩ := bind_eq_ok.1 h
    exact ⟨_, _, (Option.some.inj (Prod.mk.inj (Except.ok.inj h)).1).symm⟩
  · obtain ⟨numCores, -, h⟩ := bind_eq_ok.1 h
    obtain ⟨loc, -, h⟩ := bind_eq_ok.1 h
    exact ⟨1, _, (Option.some.inj (Prod.mk.inj (Except.ok.inj h)).1).symm⟩
  · obtain ⟨loc, -, h⟩ := bind_eq_ok.1 h
    exact ⟨1, 1, (Option.some.inj (Prod.mk.inj (Except.ok.inj h)).1).symm⟩
  · exact nomatch (Prod.mk.inj (Except.ok.inj h)).1

/-! ### The invariant of the loop -/

/-- The capacity invariant of the allocations: the cores of each resource stay within its
budget, and each allocation fits one node of the largest flavour. -/
def FitsBudget (crs : CloudResources) (reqList : ReqList) : Prop :=
  ∀ r nodes, reqList.lookup r = some nodes →
    (nodes.map ResAllocation.getTotalNumCores).sum ≤ budget crs r ∧
      ∀ res ∈ nodes, res.getTotalNumCores ≤ (crs.object r).largestVcpus

theorem FitsBudget.of_sameTable {crs crs' : CloudResources} {reqList : ReqList}
    (h : FitsBudget crs reqList) (htable : SameTable crs crs') : FitsBudget crs' reqList := by
  intro r nodes hnodes
  rw [budget, htable.available, htable.largest]
  exact h r nodes hnodes

/-- **The step lemma**: packing an accepted uniform requirement keeps the invariant. -/
theorem fitsBudget_of_addNewRequirementToList {reqList reqList' : ReqList} {account : String}
    {requirement : List ℤ} {location : Option String} {crs crs' : CloudResources}
    (hinv : FitsBudget crs reqList) (huniform : Uniform requirement)
    (henough : haveEnoughCores reqList account requirement crs = .ok (true, crs'))
    (hadd : addNewRequirementToList reqList requirement location account crs' = .ok reqList') :
    FitsBudget crs' reqList' := by
  obtain ⟨-, htable, hnode, hfits⟩ := haveEnoughCores_spec henough
  obtain ⟨hsum, hhead⟩ := hfits rfl
  have hinv' := hinv.of_sameTable htable
  have hplace := placement_of_addNewRequirementToList hadd
  obtain ⟨nodes, rfl⟩ := exists_eq_insert_of_addNewRequirementToList hadd
  rw [allocations_insert_self] at hplace
  intro r nodes' hnodes'
  by_cases hr : r = account
  · subst hr
    obtain rfl : nodes = nodes' := by simpa using hnodes'
    rw [budget, htable.available, htable.largest]
    constructor
    · -- the total grows by the requirement's cores, which admission counted
      rw [hplace.sum_load getTotalNumCores_addCores (fun _ ↦ getTotalNumCores_singleton _ _)]
      simpa [totalCores_eq, budget, allocations] using hsum
    · refine hplace.forall_mem ?_ ?_ ?_
      · intro res hres
        rw [allocations] at hres
        rcases hold : reqList.lookup r with _ | old
        · simp [hold] at hres
        · exact htable.largest r ▸ (hinv' r old hold).2 res (by simpa [hold] using hres)
      · rintro res v ⟨-, capacity, hcap, hle⟩ - -
        obtain rfl := Except.ok.inj (hcap.symm.trans hnode)
        simpa using hle
      · intro v hv
        simpa using hhead v (huniform.eq_head hv)
  · exact hinv' r nodes' (by rwa [AList.lookup_insert_ne hr] at hnodes')

/-- What charging a requirement does: the flavours of the resources asked are sorted, and then
either nothing is packed, or `r` admits the requirement and it is packed there. -/
def Charges (reqList reqList' : ReqList) (crs crs' : CloudResources) (requirement : List ℤ)
    (location : Option String) : Prop :=
  SameTable crs crs' ∧ (reqList' = reqList ∨ ∃ r crs₁, SameTable crs crs₁ ∧
    haveEnoughCores reqList r requirement crs₁ = .ok (true, crs') ∧
    addNewRequirementToList reqList requirement location r crs' = .ok reqList')

theorem charges_of_chargeDefault {reqList reqList' : ReqList} {crs crs' : CloudResources}
    {requirement : List ℤ} {location : Option String} {account : String}
    (h : chargeDefault reqList crs requirement location account = .ok (reqList', crs')) :
    Charges reqList reqList' crs crs' requirement location := by
  rw [chargeDefault] at h
  obtain ⟨⟨enough, crs₁⟩, henough, h⟩ := bind_eq_ok.1 h
  have htable := (haveEnoughCores_spec henough).2.1
  dsimp only at h
  split at h
  · rename_i hyes
    obtain ⟨rfl, -⟩ : enough = true ∧ _ := hyes
    obtain ⟨added, hadd, h⟩ := bind_eq_ok.1 h
    obtain ⟨rfl, rfl⟩ := Prod.mk.inj (Except.ok.inj h)
    exact ⟨htable, .inr ⟨"default", crs, .refl _, henough, hadd⟩⟩
  · obtain ⟨rfl, rfl⟩ := Prod.mk.inj (Except.ok.inj h)
    exact ⟨htable, .inl rfl⟩

theorem charges_of_chargeJob {reqList reqList' : ReqList} {crs crs' : CloudResources}
    {requirement : List ℤ} {location : Option String} {account : String}
    (h : chargeJob reqList crs requirement location account = .ok (reqList', crs')) :
    Charges reqList reqList' crs crs' requirement location := by
  rw [chargeJob] at h
  dsimp only at h
  generalize (if account ∈ crs.names then account else "default") = r at h
  split at h
  · exact charges_of_chargeDefault h
  · obtain ⟨⟨enough, crs₁⟩, henough, h⟩ := bind_eq_ok.1 h
    have htable := (haveEnoughCores_spec henough).2.1
    dsimp only at h
    split at h
    · rename_i hyes
      obtain rfl : enough = true := hyes
      obtain ⟨added, hadd, h⟩ := bind_eq_ok.1 h
      obtain ⟨rfl, rfl⟩ := Prod.mk.inj (Except.ok.inj h)
      exact ⟨htable, .inr ⟨r, crs, .refl _, henough, hadd⟩⟩
    · obtain ⟨htable', hsame | ⟨r', crs₂, htable₂, henough', hadd⟩⟩ := charges_of_chargeDefault h
      · exact ⟨htable.trans htable', .inl hsame⟩
      · exact ⟨htable.trans htable', .inr ⟨r', crs₂, htable.trans htable₂, henough', hadd⟩⟩

/-- One iteration: nothing happens, or one requirement read from the job is charged. -/
theorem scheduleJob_cases {cfg : Config} {numberOfWn : ℤ} {draw : ℕ} {job : Job}
    {reqList reqList' : ReqList} {crs crs' : CloudResources}
    (h : scheduleJob cfg numberOfWn draw job reqList crs = .ok (reqList', crs')) :
    (reqList' = reqList ∧ crs' = crs) ∨ ∃ requirement location account,
      getVcpuRequirement cfg job draw = .ok (some requirement, location, account) ∧
      Charges reqList reqList' crs crs' requirement location := by
  rw [scheduleJob] at h
  split at h
  · cases h
  · split at h
    · obtain ⟨rfl, rfl⟩ := Prod.mk.inj (Except.ok.inj h)
      exact .inl ⟨rfl, rfl⟩
    · obtain ⟨⟨requirement, location, account⟩, hreq, h⟩ := bind_eq_ok.1 h
      dsimp only at h
      split at h
      · obtain ⟨rfl, rfl⟩ := Prod.mk.inj (Except.ok.inj h)
        exact .inl ⟨rfl, rfl⟩
      · obtain ⟨rfl, rfl⟩ := Prod.mk.inj (Except.ok.inj h)
        exact .inl ⟨rfl, rfl⟩
      · exact .inr ⟨_, _, _, hreq, charges_of_chargeJob h⟩

/-- **The run rule** of the scheduling loop: what holds of the empty dictionary and is kept by
packing one admitted requirement holds after any number of iterations. The table is the
original one up to the order of flavours throughout. -/
theorem scheduleJobs_induction {cfg : Config} {numberOfWn : ℤ} {draws : ℕ → ℕ}
    {crs₀ : CloudResources} {jobs₀ : List Job} (I : CloudResources → ReqList → Prop)
    (htable : ∀ {crs crs' reqList}, SameTable crs crs' → I crs reqList → I crs' reqList)
    (hstep : ∀ {job draw reqList reqList' crs crs' requirement location account r},
      job ∈ jobs₀ → SameTable crs₀ crs → I crs reqList →
      getVcpuRequirement cfg job draw = .ok (some requirement, location, account) →
      haveEnoughCores reqList r requirement crs = .ok (true, crs') →
      addNewRequirementToList reqList requirement location r crs' = .ok reqList' →
      I crs' reqList') :
    ∀ {jobs : List Job} {i : ℕ} {reqList reqList' : ReqList} {crs crs' : CloudResources},
      jobs ⊆ jobs₀ → SameTable crs₀ crs → I crs reqList →
      scheduleJobs cfg numberOfWn draws i jobs reqList crs = .ok (reqList', crs') →
      SameTable crs₀ crs' ∧ I crs' reqList' := by
  intro jobs
  induction jobs with
  | nil =>
    intro i reqList reqList' crs crs' _ hsame hinv h
    obtain ⟨rfl, rfl⟩ := Prod.mk.inj (Except.ok.inj h)
    exact ⟨hsame, hinv⟩
  | cons job jobs ih =>
    intro i reqList reqList' crs crs' hsub hsame hinv h
    rw [scheduleJobs] at h
    obtain ⟨⟨reqList₁, crs₁⟩, hjob, hrest⟩ := bind_eq_ok.1 h
    have htail : jobs ⊆ jobs₀ := fun j hj ↦ hsub (List.mem_cons_of_mem _ hj)
    -- the job is left alone, finds no room, or is admitted and packed
    rcases scheduleJob_cases hjob with ⟨rfl, rfl⟩ | ⟨_, _, _, hreq, htable₁, hcase⟩
    · exact ih htail hsame hinv hrest
    · refine ih htail (hsame.trans htable₁) ?_ hrest
      rcases hcase with rfl | ⟨r, crs₂, htable₂, henough, hadd⟩
      · exact htable htable₁ hinv
      · exact hstep (hsub List.mem_cons_self) (hsame.trans htable₂) (htable htable₂ hinv) hreq
          henough hadd

/-- The capacity invariant holds after any number of iterations. -/
theorem fitsBudget_of_scheduleJobs {cfg : Config} {numberOfWn : ℤ} {draws : ℕ → ℕ}
    {jobs : List Job} {crs crs' : CloudResources} {reqList : ReqList}
    (h : scheduleJobs cfg numberOfWn draws 0 jobs ∅ crs = .ok (reqList, crs')) :
    SameTable crs crs' ∧ FitsBudget crs' reqList := by
  refine scheduleJobs_induction FitsBudget (fun htable hinv ↦ hinv.of_sameTable htable) ?_
    (List.Subset.refl jobs) (.refl _) ?_ h
  · intro job draw reqList reqList' crs crs' requirement location account r _ _ hinv hreq
      henough hadd
    exact fitsBudget_of_addNewRequirementToList hinv (uniform_of_getVcpuRequirement hreq)
      henough hadd
  · intro r nodes hnodes
    simp at hnodes

/-- The flavours of `threeNodes` have four cores. -/
theorem isGreatest_threeNodes :
    IsGreatest {n | ∃ f ∈ (threeNodes.object "default").flavorObjects, f.vcpus = n} 4 := by
  refine ⟨⟨⟨"3", "m1.large", 4⟩, by decide, rfl⟩, ?_⟩
  rintro n ⟨f, hf, rfl⟩
  obtain rfl : f = ⟨"3", "m1.large", 4⟩ := by simpa [threeNodes] using hf
  exact le_rfl

/-- **The core-capacity invariant.** After any number `k` of iterations of the scheduling loop
that did not raise, the cores of all allocations of a resource are at most its available nodes
times the cores of its largest flavour, and no allocation exceeds that flavour. -/
theorem scheduler_capacity (cfg : Config) (numberOfWn : ℤ) (draws : ℕ → ℕ) (jobs : List Job)
    (k : ℕ) (crs crs' : CloudResources) (reqList : ReqList)
    (h : scheduleJobs cfg numberOfWn draws 0 (jobs.take k) ∅ crs = .ok (reqList, crs'))
    (r : String) (nodes : List ResAllocation) (hr : reqList.lookup r = some nodes) (largest : ℤ)
    (hlargest : IsGreatest {n | ∃ f ∈ (crs.object r).flavorObjects, f.vcpus = n} largest) :
    (nodes.map ResAllocation.getTotalNumCores).sum ≤
        (crs.object r).availableNumberOfNodes * largest ∧
      ∀ res ∈ nodes, res.getTotalNumCores ≤ largest := by
  obtain ⟨htable, hfits⟩ := fitsBudget_of_scheduleJobs h
  have hnonempty : (crs.object r).flavorObjects ≠ [] := by
    obtain ⟨f, hf, -⟩ := hlargest.1
    exact List.ne_nil_of_mem hf
  obtain rfl := (CloudResource.isGreatest_largestVcpus hnonempty).unique hlargest
  have h := hfits r nodes hr
  rwa [budget, htable.available, htable.largest] at h

theorem scheduler_capacity_threeNodes :
    (([⟨[3, 1], none⟩, ⟨[3], none⟩] : List ResAllocation).map
        ResAllocation.getTotalNumCores).sum ≤ 3 * 4 ∧
      ∀ res ∈ ([⟨[3, 1], none⟩, ⟨[3], none⟩] : List ResAllocation), res.getTotalNumCores ≤ 4 :=
  scheduler_capacity {} 0 noDraws.job [singleNodeJob "3", singleNodeJob "1", singleNodeJob "3"] 3
    threeNodes _ (AList.singleton "default" [⟨[3, 1], none⟩, ⟨[3], none⟩]) rfl "default" _ rfl 4
    isGreatest_threeNodes

/-! ### From cores to nodes -/

/-- Every node that one of the jobs asks for is to have at least `c` cores. -/
def AsksAtLeast (cfg : Config) (jobs : List Job) (c : ℤ) : Prop :=
  ∀ job ∈ jobs, ∀ draw requirement location account,
    getVcpuRequirement cfg job draw = .ok (some requirement, location, account) →
      ∀ v ∈ requirement, c ≤ v

/-- Each allocation has at least the cores of the smallest element that was ever packed. -/
theorem le_getTotalNumCores_of_scheduleJobs {cfg : Config} {numberOfWn : ℤ} {draws : ℕ → ℕ}
    {jobs : List Job} {crs crs' : CloudResources} {reqList : ReqList} {c : ℤ} (hc : 0 ≤ c)
    (hjobs : AsksAtLeast cfg jobs c)
    (h : scheduleJobs cfg numberOfWn draws 0 jobs ∅ crs = .ok (reqList, crs')) (r : String) :
    ∀ res ∈ allocations reqList r, c ≤ res.getTotalNumCores := by
  have hrun := scheduleJobs_induction
    (I := fun _ reqList ↦ ∀ r, ∀ res ∈ allocations reqList r, c ≤ res.getTotalNumCores)
    (fun _ hinv ↦ hinv) ?_ (List.Subset.refl jobs) (.refl _) ?_ h
  · exact hrun.2 r
  · intro job draw reqList reqList' crs crs' requirement location account r hmem _ hinv hreq _
      hadd r'
    by_cases hr : r' = r
    · subst hr
      have hle := hjobs job hmem draw requirement location account hreq
      refine (placement_of_addNewRequirementToList hadd).forall_mem (hinv r') ?_ ?_
      · intro res v _ hv hres
        rw [getTotalNumCores_addCores]
        have := hle v hv
        omega
      · intro v hv
        simpa using hle v hv
    · obtain ⟨nodes, rfl⟩ := exists_eq_insert_of_addNewRequirementToList hadd
      rw [allocations_insert_of_ne reqList hr]
      exact hinv r'
  · intro r res hres
    simp [allocations] at hres

/-- In dictionary order, a resource occurs once for each of its allocations. -/
theorem count_fst_allNodes (r : String) :
    ∀ {entries : List (Sigma fun _ : String ↦ List ResAllocation)}, entries.NodupKeys →
      ((allNodes entries).map Prod.fst).count r = ((entries.dlookup r).getD []).length := by
  intro entries
  induction entries with
  | nil => simp [allNodes]
  | cons e entries ih =>
    obtain ⟨r', nodes⟩ := e
    intro hnodup
    obtain ⟨hnotmem, hnodup⟩ := List.nodupKeys_cons.1 hnodup
    have hhead : ((nodes.map (Prod.mk r')).map Prod.fst).count r =
        if r' = r then nodes.length else 0 := by
      simp [Function.comp_def, List.count_replicate]
    rw [allNodes, List.flatMap_cons, List.map_append, List.count_append, hhead]
    by_cases hr : r' = r
    · subst hr
      have hnone : entries.dlookup r' = none := List.dlookup_eq_none.2 hnotmem
      have hrest := ih hnodup
      rw [hnone] at hrest
      simpa [allNodes] using hrest
    · rw [if_neg hr, Nat.zero_add, List.dlookup_cons_ne _ _ (Ne.symm hr)]
      exact ih hnodup

/-- The requests for a resource are as many as its allocations. -/
theorem count_resourceName_of_forall₂ {cfg : Config} {crs : CloudResources} {reqList : ReqList}
    {requests : List ProvisionVM}
    (h : List.Forall₂ (IsRequestFor cfg crs) (allNodes reqList.entries) requests) (r : String) :
    (requests.map ProvisionVM.resourceName).count r = (allocations reqList r).length := by
  have hnames : (allNodes reqList.entries).map Prod.fst =
      requests.map ProvisionVM.resourceName := by
    refine List.forall₂_eq_eq_eq ▸ ?_
    rw [List.forall₂_map_left_iff, List.forall₂_map_right_iff]
    exact h.imp fun _ _ hrequest ↦ hrequest.1.symm
  rw [← hnames, count_fst_allNodes r reqList.nodupKeys]
  rfl

/-- **The budget in nodes.** When every node that the jobs ask for is to have at least `c`
cores, the requests for a resource, taken `c` times, stay within its available nodes times the
cores of its largest flavour. In particular they stay within its available nodes when the jobs
ask for whole nodes. -/
theorem count_requests_le_budget_div (cfg : Config) (draws : Draws) (jobs : List Job)
    (numberOfWn : ℤ) (crs crs' : CloudResources) (requests : List ProvisionVM)
    (h : calculateNewInstances cfg draws jobs numberOfWn crs = .ok (requests, crs'))
    (c : ℤ) (hc : 0 ≤ c) (hjobs : AsksAtLeast cfg jobs c) (r : String) (largest : ℤ)
    (hlargest : IsGreatest {n | ∃ f ∈ (crs.object r).flavorObjects, f.vcpus = n} largest)
    (hcores : 0 < largest) (havailable : 0 ≤ (crs.object r).availableNumberOfNodes) :
    (requests.map ProvisionVM.resourceName).count r * c ≤
        (crs.object r).availableNumberOfNodes * largest ∧
      (c = largest → (requests.map ProvisionVM.resourceName).count r ≤
        (crs.object r).availableNumberOfNodes) := by
  obtain ⟨reqList, hrun, hrequests⟩ := exists_scheduleJobs_of_calculateNewInstances h
  obtain ⟨htable, hfits⟩ := fitsBudget_of_scheduleJobs hrun
  have hnonempty : (crs.object r).flavorObjects ≠ [] := by
    obtain ⟨f, hf, -⟩ := hlargest.1
    exact List.ne_nil_of_mem hf
  obtain rfl := (CloudResource.isGreatest_largestVcpus hnonempty).unique hlargest
  rw [count_resourceName_of_forall₂ hrequests r]
  -- each allocation has at least `c` cores, and all of them fit the budget
  have hsum : ((allocations reqList r).map ResAllocation.getTotalNumCores).sum ≤
      (crs.object r).availableNumberOfNodes * (crs.object r).largestVcpus := by
    rcases hnodes : reqList.lookup r with _ | nodes
    · simpa [allocations, hnodes] using Int.mul_nonneg havailable hcores.le
    · have hle := (hfits r nodes hnodes).1
      rw [budget, htable.available, htable.largest] at hle
      simpa [allocations, hnodes] using hle
  have hcount : ((allocations reqList r).length : ℤ) * c ≤
      (crs.object r).availableNumberOfNodes * (crs.object r).largestVcpus :=
    (length_mul_le_sum_load (le_getTotalNumCores_of_scheduleJobs hc hjobs hrun r)).trans hsum
  exact ⟨hcount, fun heq ↦ Int.le_of_mul_le_mul_right (heq ▸ hcount) hcores⟩

example :
    (([⟨.id "3", some "noblepark", "default", false⟩] : List ProvisionVM).map
        ProvisionVM.resourceName).count "default" * (3 : ℤ) ≤ 3 * 4 :=
  (count_requests_le_budget_div {} noDraws [singleNodeJob "3"] 0 threeNodes _
    [⟨.id "3", some "noblepark", "default", false⟩] rfl 3 (by decide)
    (by
      intro job hjob draw requirement location account h v hv
      obtain rfl : job = singleNodeJob "3" := by simpa using hjob
      have hread : getVcpuRequirement {} (singleNodeJob "3") draw =
          .ok (some [3], none, "default") := rfl
      obtain ⟨rfl, -, -⟩ : [3] = requirement ∧ none = location ∧ "default" = account := by
        simpa using hread.symm.trans h
      obtain rfl : v = 3 := by simpa using hv
      exact le_rfl)
    "default" 4 isGreatest_threeNodes (by decide) (by decide)).1

/-- Four jobs of three cores take four nodes out of three: the budget of twelve cores admits
them all, and no two of them fit one node. -/
theorem node_quota_exceeded :
    ∃ requests crs', calculateNewInstances {} noDraws
        (List.replicate 4 (singleNodeJob "3")) 0 threeNodes = .ok (requests, crs') ∧
      (threeNodes.object "default").availableNumberOfNodes <
        (requests.map ProvisionVM.resourceName).count "default" :=
  ⟨_, _, rfl, by decide⟩

end JobScheduler

end DynamicTorque
