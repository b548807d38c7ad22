import DynamicTorque.Scheduler.WorkConservation

/-!
# The node quota of the scheduler

`number_of_dynamic_worker_nodes` is a number of nodes, and `have_enough_cores` makes cores of it. An
iteration of `calculate_new_instances` that admits a requirement opens one allocation for each
element for which no open allocation of the location has room, and nothing compares their number
with the nodes that are available.

* `length_allocations_of_scheduleJob`: how many allocations an iteration opens, in terms of the
  state before it.
* `node_quota_iff`: the requests for a resource are at most its available nodes if and only if every
  iteration that is charged to it opens no more than are left.
-/

open Python

namespace DynamicTorque.JobScheduler

/-- The resource that a requirement is packed into, if it is admitted. -/
def chargedTo (reqList : ReqList) (crs : CloudResources) (requirement : List ℤ)
    (location : Option String) (account : String) : Option String :=
  if ownResource crs account ≠ "default" ∧
      Admits reqList crs (ownResource crs account) requirement then
    some (ownResource crs account)
  else if Admits reqList crs "default" requirement ∧ some (ownResource crs account) ≠ location then
    some "default"
  else none

/-- The elements of a requirement for which no open allocation of the location has room. -/
def nodesOpened (reqList : ReqList) (crs : CloudResources) (r : String) (requirement : List ℤ)
    (location : Option String) : ℕ :=
  requirement.length -
    roomFor (crs.object r).largestVcpus location (requirement.headD 0) (allocations reqList r)

/-- The job, if it is charged to `r`, opens no more allocations than `r` has nodes left. -/
def WithinQuota (cfg : Config) (numberOfWn : ℤ) (crs : CloudResources) (r : String)
    (reqList : ReqList) (job : Job × ℕ) : Prop :=
  ∀ requirement location account,
    asked cfg numberOfWn job = some (requirement, location, account) →
    chargedTo reqList crs requirement location account = some r →
      ((allocations reqList r).length + nodesOpened reqList crs r requirement location : ℕ) ≤
        (crs.object r).availableNumberOfNodes

/-- Every iteration stays within the nodes of `r`, from the state that the ones before it leave. -/
def StaysWithinQuota (cfg : Config) (numberOfWn : ℤ) (draws : ℕ → ℕ) (jobs : List Job)
    (crs : CloudResources) (r : String) : Prop :=
  ∀ before job after, jobs = before ++ job :: after → ∀ reqList crs',
    scheduleJobs cfg numberOfWn draws 0 before ∅ crs = .ok (reqList, crs') →
      WithinQuota cfg numberOfWn crs' r reqList (job, draws before.length)

/-! ### The allocations that a packing opens -/

section Packing

variable {cfg : Config} {numberOfWn capacity v : ℤ} {location : Option String} {n : ℕ}
  {reqList reqList' : ReqList} {crs crs' : CloudResources} {requirement : List ℤ}
  {account r : String} {job : Job × ℕ}

/-- A scan that returns has placed one element in each allocation with room. -/
theorem length_of_placeLoop {bins bins' : List ResAllocation} {idx idx' : ℕ}
    (h : placeLoop (.ok capacity) (List.replicate n v) location idx bins = .ok (idx', bins')) :
    bins'.length = bins.length ∧ idx' = idx + roomFor capacity location v bins := by
  induction bins generalizing idx bins' with
  | nil =>
    obtain ⟨rfl, rfl⟩ := Prod.mk.inj (Except.ok.inj h)
    exact ⟨rfl, rfl⟩
  | cons res rest ih =>
    have hpassed : ¬HasRoom capacity location v res →
        roomFor capacity location v (res :: rest) = roomFor capacity location v rest := fun hno ↦
      List.countP_cons_of_neg (by simpa using hno)
    rw [placeLoop] at h
    split at h
    · rename_i hloc
      obtain ⟨⟨i, rest'⟩, hrest, h⟩ := bind_eq_ok.1 h
      obtain ⟨rfl, rfl⟩ := Prod.mk.inj (Except.ok.inj h)
      obtain ⟨hlength, hidx⟩ := ih hrest
      exact ⟨congrArg (· + 1) hlength, by rw [hpassed fun hroom ↦ hloc hroom.1, hidx]⟩
    · rename_i hloc
      split at h
      · cases h
      · rename_i w hw
        obtain rfl : w = v := List.eq_of_mem_replicate (List.mem_of_getElem? hw)
        obtain ⟨capacity', hcapacity, h⟩ := bind_eq_ok.1 h
        obtain rfl := Except.ok.inj hcapacity
        split at h
        · rename_i hfit
          obtain ⟨⟨i, rest'⟩, hrest, h⟩ := bind_eq_ok.1 h
          obtain ⟨rfl, rfl⟩ := Prod.mk.inj (Except.ok.inj h)
          obtain ⟨hlength, hidx⟩ := ih hrest
          have hroom : roomFor capacity location w (res :: rest) =
              roomFor capacity location w rest + 1 :=
            List.countP_cons_of_pos (by simpa [HasRoom, hfit] using hloc)
          exact ⟨congrArg (· + 1) hlength, by omega⟩
        · rename_i hfit
          obtain ⟨⟨i, rest'⟩, hrest, h⟩ := bind_eq_ok.1 h
          obtain ⟨rfl, rfl⟩ := Prod.mk.inj (Except.ok.inj h)
          obtain ⟨hlength, hidx⟩ := ih hrest
          exact ⟨congrArg (· + 1) hlength, by rw [hpassed fun hroom ↦ hfit hroom.2, hidx]⟩

/-- **One packing** opens an allocation for each element without room. -/
theorem length_allocations_of_addNewRequirementToList
    (hcapacity : nodeVcpus crs account = .ok capacity)
    (h : addNewRequirementToList reqList (List.replicate n v) location account crs = .ok reqList') :
    (allocations reqList' account).length = (allocations reqList account).length +
      (n - roomFor capacity location v (allocations reqList account)) := by
  rw [addNewRequirementToList] at h
  cases hlookup : reqList.lookup account with
  | none =>
    rw [hlookup] at h
    obtain rfl := Except.ok.inj h
    simp [allocations, hlookup, roomFor, freshAllocations]
  | some nodes =>
    rw [hlookup] at h
    obtain ⟨⟨idx, placed⟩, hloop, h⟩ := bind_eq_ok.1 h
    obtain rfl := Except.ok.inj h
    rw [hcapacity] at hloop
    obtain ⟨hlength, hidx⟩ := length_of_placeLoop hloop
    have hperm := sortByKeyReverse_perm ResAllocation.getTotalNumCores nodes
    have hroom : roomFor capacity location v
        (sortByKeyReverse ResAllocation.getTotalNumCores nodes) =
          roomFor capacity location v nodes := hperm.countP_eq _
    rw [hperm.length_eq] at hlength
    rw [hroom, Nat.zero_add] at hidx
    have hold : allocations reqList account = nodes := by simp [allocations, hlookup]
    rw [hold, allocations_insert_self, List.length_append, freshAllocations, List.length_map,
      List.length_drop, List.length_replicate, hlength, hidx]

/-- What an admitted requirement opens, in the table that admission leaves. -/
theorem length_allocations_of_admitted (hflavors : HasFlavors crs account) (hn : 0 < n)
    (h : addNewRequirementToList reqList (List.replicate n v) location account
      (crs.modify account fun _ ↦ (crs.object account).sortFlavors) = .ok reqList') (r : String) :
    (allocations reqList' r).length = (allocations reqList r).length +
      if some account = some r then
        nodesOpened reqList crs r (List.replicate n v) location else 0 := by
  have hne : List.replicate n v ≠ [] := by simpa using hn.ne'
  have hadmission : haveEnoughCores reqList account (List.replicate n v) crs = .ok _ :=
    haveEnoughCores_eq hflavors hne
  have hnode := (haveEnoughCores_spec hadmission).2.2.1
  obtain ⟨m, rfl⟩ := Nat.exists_eq_add_of_lt hn
  by_cases hr : account = r
  · subst hr
    rw [if_pos rfl, length_allocations_of_addNewRequirementToList hnode h]
    simp [nodesOpened, List.replicate_succ]
  · obtain ⟨nodes, rfl⟩ := exists_eq_insert_of_addNewRequirementToList h
    rw [if_neg fun heq ↦ hr (Option.some.inj heq), add_zero,
      allocations_insert_of_ne reqList (Ne.symm hr)]

end Packing

/-! ### One iteration -/

section Step

variable {cfg : Config} {numberOfWn v : ℤ} {location : Option String} {n : ℕ}
  {reqList reqList' : ReqList} {crs crs' : CloudResources} {account own : String} {job : Job × ℕ}

/-- The allocations after a charge to the default resource. -/
theorem length_allocations_of_chargeDefault (hn : 0 < n)
    (h : chargeDefault reqList crs (List.replicate n v) location own = .ok (reqList', crs'))
    (r : String) : (allocations reqList' r).length = (allocations reqList r).length +
      if (if Admits reqList crs "default" (List.replicate n v) ∧ some own ≠ location then
          some "default" else none) = some r then
        nodesOpened reqList crs r (List.replicate n v) location else 0 := by
  have hne : List.replicate n v ≠ [] := by simpa using hn.ne'
  rw [chargeDefault] at h
  obtain ⟨⟨enough, crs₁⟩, henough, h⟩ := bind_eq_ok.1 h
  have hflavors : HasFlavors crs "default" := (haveEnoughCores_returns_iff hne).1 ⟨_, henough⟩
  rw [haveEnoughCores_eq hflavors hne] at henough
  obtain ⟨rfl, rfl⟩ := Prod.mk.inj (Except.ok.inj henough)
  dsimp only at h
  simp only [decide_eq_true_eq] at h
  split at h
  · rename_i hyes
    obtain ⟨added, hadd, h⟩ := bind_eq_ok.1 h
    obtain ⟨rfl, rfl⟩ := Prod.mk.inj (Except.ok.inj h)
    rw [if_pos hyes]
    exact length_allocations_of_admitted hflavors hn hadd r
  · rename_i hno
    obtain ⟨rfl, rfl⟩ := Prod.mk.inj (Except.ok.inj h)
    rw [if_neg hno, if_neg (Option.some_ne_none r).symm, add_zero]

/-- The order of the flavours of another resource does not matter to the default one. -/
theorem nodesOpened_congr (htable : SameTable crs crs') (r : String) (requirement : List ℤ) :
    nodesOpened reqList crs' r requirement location =
      nodesOpened reqList crs r requirement location := by
  rw [nodesOpened, nodesOpened, htable.largest]

/-- **One charge.** -/
theorem length_allocations_of_chargeJob (hn : 0 < n)
    (h : chargeJob reqList crs (List.replicate n v) location account = .ok (reqList', crs'))
    (r : String) : (allocations reqList' r).length = (allocations reqList r).length +
      if chargedTo reqList crs (List.replicate n v) location account = some r then
        nodesOpened reqList crs r (List.replicate n v) location else 0 := by
  have hne : List.replicate n v ≠ [] := by simpa using hn.ne'
  have hown : (if account ∈ crs.names then account else "default") = ownResource crs account := rfl
  rw [chargeJob] at h
  simp only [hown] at h
  rw [chargedTo]
  generalize ownResource crs account = own at h ⊢
  split at h
  · rename_i hdefault
    have hnot : ¬(own ≠ "default" ∧ Admits reqList crs own (List.replicate n v)) := fun hboth ↦
      hboth.1 hdefault
    simp only [if_neg hnot]
    exact length_allocations_of_chargeDefault hn h r
  · rename_i hother
    obtain ⟨⟨enough, crs₁⟩, henough, h⟩ := bind_eq_ok.1 h
    have hflavors : HasFlavors crs own := (haveEnoughCores_returns_iff hne).1 ⟨_, henough⟩
    have htable := (haveEnoughCores_spec henough).2.1
    rw [haveEnoughCores_eq hflavors hne] at henough
    obtain ⟨rfl, rfl⟩ := Prod.mk.inj (Except.ok.inj henough)
    dsimp only at h
    simp only [decide_eq_true_eq] at h
    split at h
    · rename_i hyes
      obtain ⟨added, hadd, h⟩ := bind_eq_ok.1 h
      obtain ⟨rfl, rfl⟩ := Prod.mk.inj (Except.ok.inj h)
      have hboth : own ≠ "default" ∧ Admits reqList crs own (List.replicate n v) := ⟨hother, hyes⟩
      simp only [if_pos hboth]
      exact length_allocations_of_admitted hflavors hn hadd r
    · rename_i hno
      have hnot : ¬(own ≠ "default" ∧ Admits reqList crs own (List.replicate n v)) := fun hboth ↦
        hno hboth.2
      rw [length_allocations_of_chargeDefault hn h r, nodesOpened_congr htable]
      simp only [if_neg hnot, admits_congr htable]

/-- **One iteration**: the allocations of a resource grow by what a job that is charged to it
opens. -/
theorem length_allocations_of_scheduleJob (job : Job × ℕ)
    (h : scheduleJob cfg numberOfWn job.2 job.1 reqList crs = .ok (reqList', crs')) (r : String) :
    SameTable crs crs' ∧ (allocations reqList' r).length = (allocations reqList r).length +
      match asked cfg numberOfWn job with
      | some (requirement, location, account) =>
        if chargedTo reqList crs requirement location account = some r then
          nodesOpened reqList crs r requirement location else 0
      | none => 0 := by
  refine ⟨(judged_of_scheduleJob h).1, ?_⟩
  rw [scheduleJob] at h
  split at h
  · cases h
  · rename_i p hpriority
    split at h
    · rename_i hskip
      obtain ⟨rfl, rfl⟩ := Prod.mk.inj (Except.ok.inj h)
      rw [asked, if_pos ⟨by rw [hpriority, hskip.1], hskip.2⟩, add_zero]
    · rename_i hkeep
      have hkept : ¬(job.1.jobPriority = some (-1) ∧ numberOfWn > 0) := by
        rw [hpriority, Option.some.injEq]
        exact hkeep
      obtain ⟨⟨requirement, location, account⟩, hread, h⟩ := bind_eq_ok.1 h
      rw [asked, if_neg hkept, hread]
      dsimp only at h
      split at h
      · obtain ⟨rfl, rfl⟩ := Prod.mk.inj (Except.ok.inj h)
        rfl
      · obtain ⟨rfl, rfl⟩ := Prod.mk.inj (Except.ok.inj h)
        rfl
      · rename_i v vs
        -- every requirement that is read consists of equal elements
        obtain ⟨n, w, hn, huniform⟩ :=
          (uniform_of_getVcpuRequirement hread).exists_replicate (List.cons_ne_nil v vs)
        dsimp only
        rw [huniform] at h ⊢
        exact length_allocations_of_chargeJob hn h r

/-- The iteration is within the quota exactly if it leaves no more allocations than there are
nodes, where there were no more before. -/
theorem withinQuota_iff
    (h : scheduleJob cfg numberOfWn job.2 job.1 reqList crs = .ok (reqList', crs')) (r : String)
    (hbefore : (allocations reqList r).length ≤ (crs.object r).availableNumberOfNodes) :
    WithinQuota cfg numberOfWn crs r reqList job ↔
      (allocations reqList' r).length ≤ (crs.object r).availableNumberOfNodes := by
  have hlength := (length_allocations_of_scheduleJob job h r).2
  rw [hlength, WithinQuota]
  cases hasked : asked cfg numberOfWn job with
  | none => simpa using hbefore
  | some read =>
    obtain ⟨requirement, location, account⟩ := read
    dsimp only
    split
    · rename_i hcharged
      constructor
      · exact fun hquota ↦ hquota _ _ _ rfl hcharged
      · rintro hle _ _ _ hsome -
        obtain ⟨rfl, rfl, rfl⟩ : requirement = _ ∧ location = _ ∧ account = _ := by
          simpa using hsome
        exact hle
    · rename_i hother
      refine iff_of_true (fun _ _ _ hsome hcharged ↦ ?_) (by simpa using hbefore)
      obtain ⟨rfl, rfl, rfl⟩ : requirement = _ ∧ location = _ ∧ account = _ := by
        simpa using hsome
      exact absurd hcharged hother

end Step

/-! ### The loop -/

section Run

variable {cfg : Config} {numberOfWn : ℤ} {draws : ℕ → ℕ} {crs : CloudResources}

/-- **The loop.** The allocations only grow in number, so the quota is kept at the end exactly if
every iteration keeps it. -/
theorem length_allocations_le_iff (r : String)
    (havailable : 0 ≤ (crs.object r).availableNumberOfNodes) :
    ∀ (jobs : List Job) (reqList : ReqList) (crs' : CloudResources),
      scheduleJobs cfg numberOfWn draws 0 jobs ∅ crs = .ok (reqList, crs') →
      SameTable crs crs' ∧
        ((allocations reqList r).length ≤ (crs.object r).availableNumberOfNodes ↔
          StaysWithinQuota cfg numberOfWn draws jobs crs r) := by
  intro jobs
  induction jobs using List.reverseRecOn with
  | nil =>
    intro reqList crs' h
    obtain ⟨rfl, rfl⟩ := Prod.mk.inj (Except.ok.inj h)
    exact ⟨.refl _, iff_of_true havailable fun _ _ _ hsplit ↦ by simp at hsplit⟩
  | append_singleton before job ih =>
    intro reqList crs' h
    rw [scheduleJobs_append, Nat.zero_add] at h
    obtain ⟨⟨reqList₁, crs₁⟩, hbefore, h⟩ := bind_eq_ok.1 h
    obtain ⟨⟨reqList₂, crs₂⟩, hjob, h⟩ := bind_eq_ok.1 h
    obtain ⟨rfl, rfl⟩ := Prod.mk.inj (Except.ok.inj h)
    obtain ⟨htable, hiff⟩ := ih reqList₁ crs₁ hbefore
    have hstep := length_allocations_of_scheduleJob (job, draws before.length) hjob r
    refine ⟨htable.trans hstep.1, ?_⟩
    have hgrows : (allocations reqList₁ r).length ≤ (allocations reqList₂ r).length := by
      rw [hstep.2]
      exact Nat.le_add_right _ _
    have hlast : (allocations reqList₁ r).length ≤ (crs.object r).availableNumberOfNodes →
        (WithinQuota cfg numberOfWn crs₁ r reqList₁ (job, draws before.length) ↔
          (allocations reqList₂ r).length ≤ (crs.object r).availableNumberOfNodes) := by
      intro hle
      rw [← htable.available] at hle ⊢
      exact withinQuota_iff hjob r hle
    constructor
    · intro hle before' job' after hsplit reqList' crs'' hbefore'
      have hle₁ : (allocations reqList₁ r).length ≤ (crs.object r).availableNumberOfNodes :=
        (Int.ofNat_le.2 hgrows).trans hle
      rcases List.eq_nil_or_concat after with rfl | ⟨after, last, rfl⟩
      · obtain ⟨rfl, hjob'⟩ := List.append_inj' hsplit rfl
        obtain rfl := (List.cons.inj hjob').1
        obtain ⟨rfl, rfl⟩ := Prod.mk.inj (Except.ok.inj (hbefore.symm.trans hbefore'))
        exact (hlast hle₁).2 hle
      · have hsplit' : before ++ [job] = (before' ++ job' :: after) ++ [last] := by
          simpa using hsplit
        obtain ⟨rfl, -⟩ := List.append_inj' hsplit' rfl
        exact hiff.1 hle₁ before' job' after rfl reqList' crs'' hbefore'
    · intro hquota
      have hle₁ : (allocations reqList₁ r).length ≤ (crs.object r).availableNumberOfNodes :=
        hiff.2 fun before' job' after hsplit ↦
          hquota before' job' (after ++ [job]) (by rw [hsplit]; simp)
      exact (hlast hle₁).1 (hquota before job [] rfl reqList₁ crs₁ hbefore)

end Run

/-- **The node quota.** If `calculate_new_instances` returns, the requests for a resource are at
most its available nodes if and only if no iteration that is charged to it opens more nodes than are
left. -/
theorem node_quota_iff (cfg : Config) (draws : Draws) (jobs : List Job) (numberOfWn : ℤ)
    (crs crs' : CloudResources) (requests : List ProvisionVM)
    (h : calculateNewInstances cfg draws jobs numberOfWn crs = .ok (requests, crs')) (r : String)
    (havailable : 0 ≤ (crs.object r).availableNumberOfNodes) :
    (requests.map ProvisionVM.resourceName).count r ≤ (crs.object r).availableNumberOfNodes ↔
      StaysWithinQuota cfg numberOfWn draws.job jobs crs r := by
  obtain ⟨reqList, hrun, hrequests⟩ := exists_scheduleJobs_of_calculateNewInstances h
  rw [count_resourceName_of_forall₂ hrequests r]
  exact (length_allocations_le_iff r havailable jobs reqList crs' hrun).2

/-- Three jobs of three cores are within a quota of three nodes, and a fourth one is not. -/
theorem node_quota_iff_threeNodes :
    StaysWithinQuota {} 0 noDraws.job (List.replicate 3 (singleNodeJob "3")) threeNodes "default" ∧
      ¬StaysWithinQuota {} 0 noDraws.job (List.replicate 4 (singleNodeJob "3")) threeNodes
        "default" := by
  constructor
  · exact (node_quota_iff {} noDraws (List.replicate 3 (singleNodeJob "3")) 0 threeNodes _ _ rfl
      "default" (by decide)).1 (by decide)
  · exact fun hquota ↦ absurd ((node_quota_iff {} noDraws (List.replicate 4 (singleNodeJob "3")) 0
      threeNodes _ _ rfl "default" (by decide)).2 hquota) (by decide)

end DynamicTorque.JobScheduler
