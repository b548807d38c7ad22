import DynamicTorque.Scheduler.Capacity
import Mathlib.Data.List.Induction

/-!
# Running off the requirement

The packing loop indexes the requirement at every allocation of the right location, also after the
last element has been placed, and then raises `IndexError`. For a uniform requirement this happens
exactly if more allocations of the location have room than the requirement has elements
(`addNewRequirementToList_returns_iff`). `StepReturns` collects what else an iteration of
`calculate_new_instances` may raise, and the run returns if and only if every iteration does
(`returns_iff_no_overrun`).
-/

open Python

namespace DynamicTorque.JobScheduler

/-! ### The packing loop -/

/-- The allocation is of the location and has room for `v` cores. -/
def HasRoom (capacity : ℤ) (location : Option String) (v : ℤ) (res : ResAllocation) : Prop :=
  res.locationProperty = location ∧ res.getTotalNumCores + v ≤ capacity

instance (capacity : ℤ) (location : Option String) (v : ℤ) (res : ResAllocation) :
    Decidable (HasRoom capacity location v res) :=
  inferInstanceAs (Decidable (_ ∧ _))

/-- The number of allocations of the location that have room for `v` cores. -/
def roomFor (capacity : ℤ) (location : Option String) (v : ℤ) (nodes : List ResAllocation) : ℕ :=
  nodes.countP fun res ↦ HasRoom capacity location v res

section PlaceLoop

variable {capacity v : ℤ} {location : Option String} {n : ℕ}

/-- Once every element has been placed, an allocation of the location is one too many. -/
theorem placeLoop_placed_returns_iff {bins : List ResAllocation} :
    Returns (placeLoop (.ok capacity) (List.replicate n v) location n bins) ↔
      ∀ res ∈ bins, res.locationProperty ≠ location := by
  induction bins with
  | nil => simp [placeLoop]
  | cons res rest ih =>
    rw [placeLoop]
    split
    · rename_i hloc
      refine (returns_bind_of_forall fun _ ↦ returns_ok _).trans ?_
      rw [ih]
      simp [hloc]
    · rename_i hloc
      have hnone : (List.replicate n v)[n]? = none := by simp
      rw [hnone]
      simp [not_not.1 hloc]

/-- **The packing loop** returns if no more allocations have room than elements are left. The
allocations are sorted, so those with room come last. -/
theorem placeLoop_returns_iff {bins : List ResAllocation}
    (hsorted : bins.Pairwise fun a b ↦ b.getTotalNumCores ≤ a.getTotalNumCores) {idx : ℕ}
    (hidx : idx < n) :
    Returns (placeLoop (.ok capacity) (List.replicate n v) location idx bins) ↔
      idx + roomFor capacity location v bins ≤ n := by
  induction bins generalizing idx with
  | nil =>
    have hle : idx + roomFor capacity location v [] ≤ n := by simpa [roomFor] using hidx.le
    exact iff_of_true (returns_ok _) hle
  | cons res rest ih =>
    obtain ⟨hres, hrest⟩ := List.pairwise_cons.1 hsorted
    rw [placeLoop]
    split
    · rename_i hloc
      have hroom : roomFor capacity location v (res :: rest) = roomFor capacity location v rest :=
        List.countP_cons_of_neg (by simp [HasRoom, hloc])
      refine (returns_bind_of_forall fun _ ↦ returns_ok _).trans ?_
      rw [ih hrest hidx, hroom]
    · rename_i hloc
      have hsome : (List.replicate n v)[idx]? = some v := by simp [hidx]
      simp only [hsome]
      show Returns (if _ then _ else _) ↔ _
      split
      · rename_i hfit
        have hroom : roomFor capacity location v (res :: rest) =
            roomFor capacity location v rest + 1 :=
          List.countP_cons_of_pos (by simpa [HasRoom, hfit] using hloc)
        refine (returns_bind_of_forall fun _ ↦ returns_ok _).trans ?_
        rw [hroom]
        by_cases hlast : idx + 1 = n
        · -- the last element: there must be no other allocation of the location
          rw [hlast, placeLoop_placed_returns_iff]
          have hnone : roomFor capacity location v rest = 0 ↔
              ∀ other ∈ rest, other.locationProperty ≠ location := by
            rw [roomFor, List.countP_eq_zero]
            refine forall₂_congr fun other hother ↦ ?_
            have hle := hres other hother
            rw [decide_eq_true_iff, HasRoom, not_and]
            exact ⟨fun h heq ↦ h heq (by omega), fun h heq ↦ absurd heq h⟩
          rw [← hnone]
          omega
        · rw [ih hrest (by omega)]
          omega
      · rename_i hfit
        have hroom : roomFor capacity location v (res :: rest) = roomFor capacity location v rest :=
          List.countP_cons_of_neg (by simp [HasRoom, hfit])
        refine (returns_bind_of_forall fun _ ↦ returns_ok _).trans ?_
        rw [ih hrest hidx, hroom]

end PlaceLoop

/-- **`add_new_requirement_to_list`**, for a uniform requirement, returns if no more allocations of
the location have room than the requirement has elements. -/
theorem addNewRequirementToList_returns_iff {reqList : ReqList} {n : ℕ} {v capacity : ℤ}
    {location : Option String} {account : String} {crs : CloudResources} (hn : 0 < n)
    (hcapacity : nodeVcpus crs account = .ok capacity) :
    Returns (addNewRequirementToList reqList (List.replicate n v) location account crs) ↔
      roomFor capacity location v (allocations reqList account) ≤ n := by
  rw [addNewRequirementToList, allocations]
  cases reqList.lookup account with
  | none => exact iff_of_true (returns_ok _) (by simp [roomFor])
  | some nodes =>
    have hsorted : (sortByKeyReverse ResAllocation.getTotalNumCores nodes).Pairwise
        fun a b ↦ b.getTotalNumCores ≤ a.getTotalNumCores :=
      pairwise_sortByKeyReverse _ _
    have hcount : roomFor capacity location v
        (sortByKeyReverse ResAllocation.getTotalNumCores nodes) =
          roomFor capacity location v nodes :=
      (sortByKeyReverse_perm _ _).countP_eq _
    rw [hcapacity]
    refine (returns_bind_of_forall fun _ ↦ returns_ok _).trans ?_
    rw [placeLoop_returns_iff hsorted hn, hcount, Nat.zero_add, Option.getD_some]

/-! ### One iteration -/

/-- The resource exists and has flavours. -/
def HasFlavors (crs : CloudResources) (r : String) : Prop :=
  r ∈ crs.names ∧ (crs.object r).flavorObjects ≠ []

/-- The requirement fits the core budget of the resource, and its first element the largest
flavour. -/
def Admits (reqList : ReqList) (crs : CloudResources) (r : String) (requirement : List ℤ) : Prop :=
  totalCores reqList r + requirement.sum ≤ budget crs r ∧
    ∀ v ∈ requirement.head?, v ≤ (crs.object r).largestVcpus

instance (reqList : ReqList) (crs : CloudResources) (r : String) (requirement : List ℤ) :
    Decidable (Admits reqList crs r requirement) :=
  inferInstanceAs (Decidable (_ ∧ _))

/-- No more allocations of the location have room for an element than there are elements. -/
def NoOverrun (reqList : ReqList) (crs : CloudResources) (r : String) (requirement : List ℤ)
    (location : Option String) : Prop :=
  ∀ v ∈ requirement.head?,
    roomFor (crs.object r).largestVcpus location v (allocations reqList r) ≤ requirement.length

/-- When a charge to the default resource returns. -/
def DefaultReturns (reqList : ReqList) (crs : CloudResources) (requirement : List ℤ)
    (location : Option String) (account : String) : Prop :=
  HasFlavors crs "default" ∧ (Admits reqList crs "default" requirement ∧ some account ≠ location →
    NoOverrun reqList crs "default" requirement location)

/-- When a charge to the account returns. -/
def ChargeReturns (reqList : ReqList) (crs : CloudResources) (requirement : List ℤ)
    (location : Option String) (account : String) : Prop :=
  let account := if account ∈ crs.names then account else "default"
  if account = "default" then DefaultReturns reqList crs requirement location account
  else HasFlavors crs account ∧
    if Admits reqList crs account requirement then
      NoOverrun reqList crs account requirement location
    else DefaultReturns reqList crs requirement location account

/-- When an iteration returns: the job has a priority, and is either skipped or read, and then
charged. -/
def StepReturns (cfg : Config) (numberOfWn : ℤ) (draw : ℕ) (job : Job) (reqList : ReqList)
    (crs : CloudResources) : Prop :=
  ∃ p, job.jobPriority = some p ∧ (p = -1 ∧ numberOfWn > 0 ∨
    ∃ requirement location account,
      getVcpuRequirement cfg job draw = .ok (requirement, location, account) ∧
      ∀ v vs, requirement = some (v :: vs) → ChargeReturns reqList crs (v :: vs) location account)

section Step

variable {cfg : Config} {numberOfWn : ℤ} {draw n : ℕ} {job : Job} {reqList : ReqList}
  {crs crs' : CloudResources} {r account : String} {requirement : List ℤ}
  {location : Option String} {v : ℤ}

/-- The first flavour after sorting is a largest one. -/
theorem HasFlavors.firstFlavor (h : HasFlavors crs r) :
    ∃ largest, (crs.object r).sortFlavors.firstFlavor = .ok largest ∧
      largest.vcpus = (crs.object r).largestVcpus := by
  cases hsorted : (crs.object r).sortFlavors.flavorObjects with
  | nil =>
    have hperm := sortByKeyReverse_perm VMFlavor.vcpus (crs.object r).flavorObjects
    have hnil : (crs.object r).flavorObjects = [] := by
      refine List.Perm.nil_eq ?_ |>.symm
      rw [← show sortByKeyReverse VMFlavor.vcpus (crs.object r).flavorObjects = [] from hsorted]
      exact hperm
    exact absurd hnil h.2
  | cons largest rest =>
    have hfirst : (crs.object r).sortFlavors.firstFlavor = .ok largest := by
      rw [CloudResource.firstFlavor, hsorted]
    exact ⟨largest, hfirst, CloudResource.vcpus_of_firstFlavor_sortFlavors hfirst⟩

/-- **`have_enough_cores`** on a resource with flavours. -/
theorem haveEnoughCores_eq (h : HasFlavors crs r) (hne : requirement ≠ []) :
    haveEnoughCores reqList r requirement crs = .ok (decide (Admits reqList crs r requirement),
      crs.modify r fun _ ↦ (crs.object r).sortFlavors) := by
  obtain ⟨largest, hfirst, hvcpus⟩ := h.firstFlavor
  have hget : crs.get r = .ok (crs.object r) := if_pos h.1
  have havailable : (crs.object r).availableCores =
      .ok (budget crs r, (crs.object r).sortFlavors) := by
    rw [CloudResource.availableCores, hfirst, budget, ← hvcpus]
    rfl
  obtain ⟨v, vs, rfl⟩ := List.exists_cons_of_ne_nil hne
  rw [haveEnoughCores, hget]
  show (CloudResource.availableCores _ >>= _) = _
  rw [havailable]
  show (if _ then _ else _) = _
  split
  · rename_i hover
    have hnot : ¬Admits reqList crs r (v :: vs) := fun hadmits ↦ not_le.2 hover hadmits.1
    rw [decide_eq_false hnot]
    rfl
  · rename_i hfits
    rw [hfirst]
    have hiff : Admits reqList crs r (v :: vs) ↔ v ≤ largest.vcpus := by
      rw [hvcpus]
      exact ⟨fun hadmits ↦ hadmits.2 v rfl, fun hv ↦ ⟨not_lt.1 hfits, by simpa using hv⟩⟩
    simp only [hiff]
    rfl

theorem haveEnoughCores_returns_iff (hne : requirement ≠ []) :
    Returns (haveEnoughCores reqList r requirement crs) ↔ HasFlavors crs r := by
  refine ⟨fun ⟨⟨answer, crs'⟩, h⟩ ↦ ?_, fun h ↦ ⟨_, haveEnoughCores_eq h hne⟩⟩
  obtain ⟨hname, -, hnode, -⟩ := haveEnoughCores_spec h
  rw [haveEnoughCores] at h
  obtain ⟨res, hres, h⟩ := bind_eq_ok.1 h
  obtain ⟨-, rfl⟩ := CloudResources.get_eq_ok_iff.1 hres
  obtain ⟨⟨cores, res'⟩, havail, -⟩ := bind_eq_ok.1 h
  obtain ⟨largest, hfirst, -⟩ := bind_eq_ok.1 havail
  refine ⟨hname, fun hnil ↦ ?_⟩
  simp [CloudResource.firstFlavor, CloudResource.sortFlavors, hnil, sortByKeyReverse] at hfirst

/-- A packing after admission. -/
theorem addNewRequirementToList_admitted_returns_iff (h : HasFlavors crs r) (hn : 0 < n) :
    Returns (addNewRequirementToList reqList (List.replicate n v) location r
        (crs.modify r fun _ ↦ (crs.object r).sortFlavors)) ↔
      NoOverrun reqList crs r (List.replicate n v) location := by
  have hne : List.replicate n v ≠ [] := by simpa using hn.ne'
  have hadmission : haveEnoughCores reqList r (List.replicate n v) crs = .ok _ :=
    haveEnoughCores_eq h hne
  have hnode := (haveEnoughCores_spec hadmission).2.2.1
  rw [addNewRequirementToList_returns_iff hn hnode, NoOverrun, List.length_replicate]
  obtain ⟨m, rfl⟩ := Nat.exists_eq_add_of_lt hn
  simp [List.replicate_succ]

theorem chargeDefault_returns_iff (hn : 0 < n) :
    Returns (chargeDefault reqList crs (List.replicate n v) location account) ↔
      DefaultReturns reqList crs (List.replicate n v) location account := by
  have hne : List.replicate n v ≠ [] := by simpa using hn.ne'
  by_cases hflavors : HasFlavors crs "default"
  · rw [chargeDefault, haveEnoughCores_eq hflavors hne, DefaultReturns]
    show Returns (if _ then _ else _) ↔ _
    split
    · rename_i hyes
      rw [decide_eq_true_iff] at hyes
      refine (returns_bind_of_forall fun _ ↦ returns_ok _).trans ?_
      rw [addNewRequirementToList_admitted_returns_iff hflavors hn]
      exact ⟨fun h ↦ ⟨hflavors, fun _ ↦ h⟩, fun h ↦ h.2 hyes⟩
    · rename_i hno
      rw [decide_eq_true_iff] at hno
      exact iff_of_true (returns_ok _) ⟨hflavors, fun h ↦ absurd h hno⟩
  · have hnot : ¬Returns (haveEnoughCores reqList "default" (List.replicate n v) crs) := by
      rwa [haveEnoughCores_returns_iff hne]
    refine iff_of_false (fun h ↦ ?_) fun h ↦ hflavors h.1
    obtain ⟨a, ha, -⟩ := returns_bind.1 h
    exact hnot ⟨a, ha⟩

/-- The order of the flavours of another resource does not matter to the default one. -/
theorem defaultReturns_modify {f : CloudResource → CloudResource} (h : r ≠ "default") :
    DefaultReturns reqList (crs.modify r f) requirement location account ↔
      DefaultReturns reqList crs requirement location account := by
  have hobject : (crs.modify r f).object "default" = crs.object "default" :=
    crs.object_modify_of_ne (Ne.symm h) f
  rw [DefaultReturns, DefaultReturns, HasFlavors, HasFlavors, Admits, Admits, NoOverrun, NoOverrun,
    budget, budget, hobject, CloudResources.names_modify]

theorem chargeJob_returns_iff (hn : 0 < n) :
    Returns (chargeJob reqList crs (List.replicate n v) location account) ↔
      ChargeReturns reqList crs (List.replicate n v) location account := by
  have hne : List.replicate n v ≠ [] := by simpa using hn.ne'
  rw [chargeJob, ChargeReturns]
  dsimp only
  generalize (if account ∈ crs.names then account else "default") = r
  split
  · exact chargeDefault_returns_iff hn
  · rename_i hr
    by_cases hflavors : HasFlavors crs r
    · rw [haveEnoughCores_eq hflavors hne]
      show Returns (if _ then _ else _) ↔ _
      simp only [hflavors, true_and, decide_eq_true_iff]
      split
      · refine (returns_bind_of_forall fun _ ↦ returns_ok _).trans ?_
        exact addNewRequirementToList_admitted_returns_iff hflavors hn
      · rw [chargeDefault_returns_iff hn, defaultReturns_modify hr]
    · have hnot : ¬Returns (haveEnoughCores reqList r (List.replicate n v) crs) := by
        rwa [haveEnoughCores_returns_iff hne]
      refine iff_of_false (fun h ↦ ?_) fun h ↦ hflavors h.1
      obtain ⟨a, ha, -⟩ := returns_bind.1 h
      exact hnot ⟨a, ha⟩

theorem Uniform.exists_replicate (h : Uniform requirement) (hne : requirement ≠ []) :
    ∃ n v, 0 < n ∧ requirement = List.replicate n v := by
  obtain ⟨n, v, rfl⟩ := h
  exact ⟨n, v, Nat.pos_of_ne_zero (by simpa using hne), rfl⟩

/-- **One iteration.** -/
theorem scheduleJob_returns_iff :
    Returns (scheduleJob cfg numberOfWn draw job reqList crs) ↔
      StepReturns cfg numberOfWn draw job reqList crs := by
  rw [scheduleJob, StepReturns]
  cases job.jobPriority with
  | none => simp
  | some p =>
    dsimp only
    split
    · rename_i hskip
      exact iff_of_true (returns_ok _) ⟨p, rfl, .inl hskip⟩
    · rename_i hkeep
      constructor
      · intro h
        obtain ⟨⟨requirement, location, account⟩, hread, h⟩ := returns_bind.1 h
        refine ⟨p, rfl, .inr ⟨requirement, location, account, hread, ?_⟩⟩
        rintro v vs rfl
        -- every requirement that is read consists of equal elements
        obtain ⟨n, w, hn, huniform⟩ :=
          (uniform_of_getVcpuRequirement hread).exists_replicate (List.cons_ne_nil v vs)
        dsimp only at h
        rw [huniform] at h ⊢
        exact (chargeJob_returns_iff hn).1 h
      · rintro ⟨q, hq, hskip | ⟨requirement, location, account, hread, hcharge⟩⟩
        · obtain rfl := Option.some.inj hq
          exact absurd hskip hkeep
        · refine returns_bind.2 ⟨_, hread, ?_⟩
          dsimp only
          rcases requirement with _ | _ | ⟨v, vs⟩
          · exact returns_ok _
          · exact returns_ok _
          · have hvs := hcharge v vs rfl
            obtain ⟨n, w, hn, huniform⟩ :=
              (uniform_of_getVcpuRequirement hread).exists_replicate (List.cons_ne_nil v vs)
            dsimp only
            rw [huniform] at hvs ⊢
            exact (chargeJob_returns_iff hn).2 hvs

end Step

/-! ### Runs -/

section Run

variable {cfg : Config} {numberOfWn : ℤ} {draws : ℕ → ℕ} {reqList : ReqList}
  {crs crs' : CloudResources}

theorem scheduleJobs_append (before after : List Job) (i : ℕ) :
    scheduleJobs cfg numberOfWn draws i (before ++ after) reqList crs =
      (scheduleJobs cfg numberOfWn draws i before reqList crs >>= fun next ↦
        scheduleJobs cfg numberOfWn draws (i + before.length) after next.1 next.2) := by
  induction before generalizing i reqList crs with
  | nil => rfl
  | cons job before ih =>
    have hlength : i + (job :: before).length = i + 1 + before.length := by
      rw [List.length_cons]
      omega
    rw [List.cons_append, scheduleJobs, scheduleJobs, bind_assoc, hlength]
    exact congrArg _ (funext fun next ↦ ih (i + 1))

/-- Every iteration of the loop returns, from the state that the ones before it leave. -/
def StepsReturn (cfg : Config) (numberOfWn : ℤ) (draws : ℕ → ℕ) (jobs : List Job)
    (crs : CloudResources) : Prop :=
  ∀ before job after, jobs = before ++ job :: after → ∀ reqList crs',
    scheduleJobs cfg numberOfWn draws 0 before ∅ crs = .ok (reqList, crs') →
      StepReturns cfg numberOfWn (draws before.length) job reqList crs'

theorem scheduleJobs_concat_returns_iff (before : List Job) (job : Job) :
    Returns (scheduleJobs cfg numberOfWn draws 0 (before ++ [job]) ∅ crs) ↔
      ∃ reqList crs', scheduleJobs cfg numberOfWn draws 0 before ∅ crs = .ok (reqList, crs') ∧
        StepReturns cfg numberOfWn (draws before.length) job reqList crs' := by
  rw [scheduleJobs_append, returns_bind, Nat.zero_add]
  have hlast : ∀ (reqList : ReqList) crs', Returns (scheduleJobs cfg numberOfWn draws before.length
      [job] reqList crs') ↔
        StepReturns cfg numberOfWn (draws before.length) job reqList crs' := by
    intro reqList crs'
    exact (returns_bind_of_forall fun _ ↦ returns_ok _).trans scheduleJob_returns_iff
  constructor
  · rintro ⟨⟨reqList, crs'⟩, hbefore, h⟩
    exact ⟨reqList, crs', hbefore, (hlast reqList crs').1 h⟩
  · rintro ⟨reqList, crs', hbefore, h⟩
    exact ⟨(reqList, crs'), hbefore, (hlast reqList crs').2 h⟩

/-- **The loop** returns if every iteration does. -/
theorem scheduleJobs_returns_iff (jobs : List Job) :
    Returns (scheduleJobs cfg numberOfWn draws 0 jobs ∅ crs) ↔
      StepsReturn cfg numberOfWn draws jobs crs := by
  induction jobs using List.reverseRecOn with
  | nil => exact iff_of_true (returns_ok _) fun _ _ _ h ↦ by simp at h
  | append_singleton before job ih =>
    rw [scheduleJobs_concat_returns_iff]
    constructor
    · rintro ⟨reqList, crs', hbefore, hlast⟩ before' job' after hsplit reqList' crs'' hbefore'
      rcases List.eq_nil_or_concat after with rfl | ⟨after, last, rfl⟩
      · obtain ⟨rfl, hjob⟩ := List.append_inj' hsplit rfl
        obtain rfl := (List.cons.inj hjob).1
        obtain ⟨rfl, rfl⟩ := Prod.mk.inj (Except.ok.inj (hbefore.symm.trans hbefore'))
        exact hlast
      · have hsplit' : before ++ [job] = (before' ++ job' :: after) ++ [last] := by
          simpa using hsplit
        obtain ⟨rfl, -⟩ := List.append_inj' hsplit' rfl
        exact ih.1 ⟨_, hbefore⟩ before' job' after rfl reqList' crs'' hbefore'
    · intro hsteps
      have hbefore : Returns (scheduleJobs cfg numberOfWn draws 0 before ∅ crs) :=
        ih.2 fun before' job' after hsplit ↦
          hsteps before' job' (after ++ [job]) (by rw [hsplit]; simp)
      obtain ⟨⟨reqList, crs'⟩, hbefore⟩ := hbefore
      exact ⟨reqList, crs', hbefore, hsteps before job [] rfl reqList crs' hbefore⟩

/-! ### From allocations to requests -/

/-- What the conversion needs: the resource has flavours, and where locations are drawn, the
allocation has one. -/
def Convertible (cfg : Config) (crs : CloudResources) (reqList : ReqList) : Prop :=
  ∀ r, ∀ res ∈ allocations reqList r, HasFlavors crs r ∧
    (cfg.defaultLocation = 1 → ∃ l ∈ cfg.locationProperties, res.locationProperty = some l)

theorem HasFlavors.of_sameTable {r : String} (h : HasFlavors crs r) (htable : SameTable crs crs') :
    HasFlavors crs' r :=
  ⟨htable.names ▸ h.1, fun hnil ↦ h.2 (by simpa [hnil] using (htable.flavors r).symm)⟩

/-- A location that was drawn is one of the keys. -/
theorem location_of_getVcpuRequirement {job : Job} {draw : ℕ} {requirement : List ℤ}
    {location : Option String} {account : String} (hdefault : cfg.defaultLocation = 1)
    (h : getVcpuRequirement cfg job draw = .ok (some requirement, location, account)) :
    ∃ l ∈ cfg.locationProperties, location = some l := by
  have hdrawn : ∀ location, cfg.getDefaultNodeLocation draw = .ok location →
      ∃ l ∈ cfg.locationProperties, location = some l := by
    intro location h
    rw [Config.getDefaultNodeLocation, if_pos hdefault] at h
    obtain ⟨l, hchoice, h⟩ := bind_eq_ok.1 h
    obtain rfl := Except.ok.inj h
    refine ⟨l, ?_, rfl⟩
    rw [Config.choice] at hchoice
    split at hchoice
    · rename_i k hk
      obtain rfl := Except.ok.inj hchoice
      exact List.mem_of_getElem? hk
    · cases hchoice
  rw [getVcpuRequirement] at h
  obtain ⟨account', -, h⟩ := bind_eq_ok.1 h
  split at h
  · obtain ⟨numNodes, -, h⟩ := bind_eq_ok.1 h
    obtain ⟨numCores, -, h⟩ := bind_eq_ok.1 h
    obtain ⟨loc, hloc, h⟩ := bind_eq_ok.1 h
    exact (Prod.mk.inj (Prod.mk.inj (Except.ok.inj h)).2).1 ▸ hdrawn loc hloc
  · obtain ⟨numCores, -, h⟩ := bind_eq_ok.1 h
    obtain ⟨loc, hloc, h⟩ := bind_eq_ok.1 h
    exact (Prod.mk.inj (Prod.mk.inj (Except.ok.inj h)).2).1 ▸ hdrawn loc hloc
  · obtain ⟨loc, hloc, h⟩ := bind_eq_ok.1 h
    exact (Prod.mk.inj (Prod.mk.inj (Except.ok.inj h)).2).1 ▸ hdrawn loc hloc
  · have hnone : none = some requirement := (Prod.mk.inj (Except.ok.inj h)).1
    exact absurd hnone.symm (Option.some_ne_none requirement)

theorem convertible_of_scheduleJobs {jobs : List Job}
    (h : scheduleJobs cfg numberOfWn draws 0 jobs ∅ crs = .ok (reqList, crs')) :
    Convertible cfg crs' reqList := by
  have hrun := scheduleJobs_induction (Convertible cfg) ?_ ?_ (List.Subset.refl jobs) (.refl _) ?_ h
  · exact hrun.2
  · exact fun htable hinv r res hres ↦
      ⟨(hinv r res hres).1.of_sameTable htable, (hinv r res hres).2⟩
  · intro job draw reqList reqList' crs crs' requirement location account r _ _ hinv hread henough
      hadd r'
    have htable : SameTable crs crs' := (haveEnoughCores_spec henough).2.1
    have hold : ∀ r, ∀ res ∈ allocations reqList r, HasFlavors crs' r ∧
        (cfg.defaultLocation = 1 → ∃ l ∈ cfg.locationProperties, res.locationProperty = some l) :=
      fun r res hres ↦ ⟨(hinv r res hres).1.of_sameTable htable, (hinv r res hres).2⟩
    by_cases hr : r' = r
    · subst hr
      refine (placement_of_addNewRequirementToList hadd).forall_mem (hold r') ?_ ?_
      · exact fun res v _ _ hres ↦ hres
      · intro v hv
        have hflavors : HasFlavors crs r' :=
          (haveEnoughCores_returns_iff (List.ne_nil_of_mem hv)).1 ⟨_, henough⟩
        exact ⟨hflavors.of_sameTable htable, fun hdefault ↦
          location_of_getVcpuRequirement hdefault hread⟩
    · obtain ⟨nodes, rfl⟩ := exists_eq_insert_of_addNewRequirementToList hadd
      rw [allocations_insert_of_ne reqList hr]
      exact hold r'
  · intro r res hres
    simp [allocations] at hres

theorem bestFlavorFromNode_returns {r : String} {res : ResAllocation} (h : HasFlavors crs r) :
    Returns (bestFlavorFromNode crs r res) := by
  refine returns_bind.2 ⟨crs.object r, if_pos h.1, ?_⟩
  dsimp only
  split
  · exact returns_ok _
  · split
    · exact returns_ok _
    · rename_i hnil
      have hperm := sortByKey_perm VMFlavor.vcpus (crs.object r).flavorObjects
      rw [hnil] at hperm
      exact absurd hperm.nil_eq.symm h.2

/-- The location of an allocation can be converted. -/
theorem convertLocation_returns {location : Option String} {draw : ℕ}
    (h : cfg.defaultLocation = 1 → ∃ l ∈ cfg.locationProperties, location = some l) :
    Returns (cfg.convertLocationPropertyToAvailabilityZone location draw) := by
  rw [Config.convertLocationPropertyToAvailabilityZone]
  split
  · exact returns_ok _
  · rename_i hunmapped
    split
    · rename_i hdefault
      obtain ⟨l, hl, rfl⟩ := h hdefault
      obtain ⟨zone, hzone⟩ := Option.isSome_iff_exists.1 (AList.lookup_isSome.2 hl)
      exact absurd hunmapped (by simp [hzone])
    · exact returns_ok _

theorem convertNodes_returns {zones : ℕ → ℕ} {r : String} {nodes : List ResAllocation} (i : ℕ)
    (h : ∀ res ∈ nodes, HasFlavors crs r ∧
      (cfg.defaultLocation = 1 → ∃ l ∈ cfg.locationProperties, res.locationProperty = some l)) :
    Returns (convertNodes cfg crs zones r i nodes) := by
  induction nodes generalizing i with
  | nil => exact returns_ok _
  | cons res nodes ih =>
    obtain ⟨hflavors, hlocation⟩ := h res List.mem_cons_self
    obtain ⟨flavorId, hflavor⟩ : Returns (bestFlavorFromNode crs r res) :=
      bestFlavorFromNode_returns hflavors
    obtain ⟨zone, hzone⟩ : Returns (cfg.convertLocationPropertyToAvailabilityZone
        res.locationProperty (zones i)) := convertLocation_returns hlocation
    obtain ⟨tail, htail⟩ := ih (i + 1) fun res hres ↦ h res (List.mem_cons_of_mem _ hres)
    refine returns_bind.2 ⟨_, hflavor, returns_bind.2 ⟨_, hzone, returns_bind.2 ⟨_, htail, ?_⟩⟩⟩
    exact returns_ok _

theorem convertReqListToFlavor_returns {zones : String → ℕ → ℕ} (h : Convertible cfg crs reqList) :
    Returns (convertReqListToFlavor cfg crs zones reqList) := by
  have hentries : ∀ entries : List (Sigma fun _ : String ↦ List ResAllocation),
      entries ⊆ reqList.entries → Returns (convertEntries cfg crs zones entries) := by
    intro entries
    induction entries with
    | nil => exact fun _ ↦ returns_ok _
    | cons entry entries ih =>
      intro hsub
      obtain ⟨r, nodes⟩ := entry
      have hlookup : reqList.lookup r = some nodes :=
        AList.mem_lookup_iff.2 (hsub List.mem_cons_self)
      have hnodes : ∀ res ∈ nodes, res ∈ allocations reqList r := by
        simp [allocations, hlookup]
      obtain ⟨here, hhere⟩ : Returns (convertNodes cfg crs (zones r) r 0 nodes) :=
        convertNodes_returns 0 fun res hres ↦ h r res (hnodes res hres)
      obtain ⟨tail, htail⟩ := ih fun e he ↦ hsub (List.mem_cons_of_mem _ he)
      exact returns_bind.2 ⟨_, hhere, returns_bind.2 ⟨_, htail, returns_ok _⟩⟩
  exact hentries _ (List.Subset.refl _)

/-- **`calculate_new_instances`** returns if its loop does. -/
theorem calculateNewInstances_returns_iff {draws : Draws} {jobs : List Job} :
    Returns (calculateNewInstances cfg draws jobs numberOfWn crs) ↔
      StepsReturn cfg numberOfWn draws.job jobs crs := by
  rw [← scheduleJobs_returns_iff, calculateNewInstances]
  constructor
  · intro h
    obtain ⟨out, hout, -⟩ := returns_bind.1 h
    exact ⟨out, hout⟩
  · rintro ⟨⟨reqList, crs'⟩, hrun⟩
    refine returns_bind.2 ⟨_, hrun, ?_⟩
    dsimp only
    split
    · obtain ⟨requests, hrequests⟩ : Returns (convertReqListToFlavor cfg crs' draws.zone reqList) :=
        convertReqListToFlavor_returns (convertible_of_scheduleJobs hrun)
      exact returns_bind.2 ⟨_, hrequests, returns_ok _⟩
    · exact returns_ok _

/-! ### Reading a job -/

/-- The resource strings of the job are plain digits, or absent. -/
def PlainDigits (job : Job) : Prop :=
  (∀ text ∈ job.neednodes, ∃ s ∈ text, isdigit s = true) ∧
    (∀ text ∈ job.ncpus, ∃ s ∈ text, isdigit s = true) ∧
    ∀ text ∈ job.nodes, ∃ s ∈ text, isdigit s = true

instance (job : Job) : Decidable (PlainDigits job) :=
  inferInstanceAs (Decidable (_ ∧ _))

/-- A job with plain digits is read, if it has an account and a location can be drawn. -/
theorem getVcpuRequirement_returns {job : Job} {draw : ℕ} (hdigits : PlainDigits job)
    (haccount : Returns (accountString job))
    (hlocation : Returns (cfg.getDefaultNodeLocation draw)) :
    Returns (getVcpuRequirement cfg job draw) := by
  obtain ⟨account, haccount⟩ := haccount
  obtain ⟨location, hlocation⟩ := hlocation
  have hcount : ∀ s, isdigit s = true → Returns (countOrOne (some s)) := by
    intro s h
    rw [countOrOne, if_pos (Unicode.isdigit_of_isdigit h)]
    exact ⟨_, Unicode.int_of_isdigit h⟩
  refine returns_bind.2 ⟨_, haccount, ?_⟩
  split
  · rename_i hneednodes hncpus
    obtain ⟨s, rfl, hs⟩ := hdigits.1 _ hneednodes
    obtain ⟨t, rfl, ht⟩ := hdigits.2.1 _ hncpus
    obtain ⟨numNodes, hnumNodes⟩ := hcount s hs
    obtain ⟨numCores, hnumCores⟩ := hcount t ht
    exact returns_bind.2 ⟨_, hnumNodes, returns_bind.2 ⟨_, hnumCores,
      returns_bind.2 ⟨_, hlocation, returns_ok _⟩⟩⟩
  · rename_i nodes hnodes _
    obtain ⟨s, rfl, hs⟩ := hdigits.2.2 _ hnodes
    refine returns_bind.2 ⟨_, Unicode.int_of_isdigit hs, ?_⟩
    exact returns_bind.2 ⟨_, hlocation, returns_ok _⟩
  · exact returns_bind.2 ⟨_, hlocation, returns_ok _⟩
  · exact returns_ok _

end Run

/-- **When packing runs off the requirement.** `add_new_requirement_to_list`, on an accepted uniform
requirement, returns if and only if no more allocations of the location have room for an element
than there are elements. `calculate_new_instances` returns if and only if every iteration does: the
job has a priority, and is skipped or can be read, the resources that it is charged to have
flavours, and the packing does not run off the requirement. A job with plain digits can be read. -/
theorem returns_iff_no_overrun (cfg : Config) (draws : Draws) (jobs : List Job) (numberOfWn : ℤ)
    (crs crs' : CloudResources) (reqList : ReqList) (account : String) (requirement : List ℤ)
    (location : Option String) (job : Job) (draw : ℕ) :
    (Uniform requirement → requirement ≠ [] →
      haveEnoughCores reqList account requirement crs = .ok (true, crs') →
      (Returns (addNewRequirementToList reqList requirement location account crs') ↔
        NoOverrun reqList crs account requirement location)) ∧
    (Returns (calculateNewInstances cfg draws jobs numberOfWn crs) ↔
      StepsReturn cfg numberOfWn draws.job jobs crs) ∧
    (PlainDigits job → Returns (accountString job) → Returns (cfg.getDefaultNodeLocation draw) →
      Returns (getVcpuRequirement cfg job draw)) := by
  refine ⟨?_, calculateNewInstances_returns_iff, getVcpuRequirement_returns⟩
  intro huniform hne henough
  have hflavors : HasFlavors crs account := (haveEnoughCores_returns_iff hne).1 ⟨_, henough⟩
  obtain ⟨n, v, hn, rfl⟩ := huniform.exists_replicate hne
  rw [haveEnoughCores_eq hflavors hne] at henough
  obtain ⟨-, rfl⟩ := Prod.mk.inj (Except.ok.inj henough)
  exact addNewRequirementToList_admitted_returns_iff hflavors hn

/-- A job that asks for two nodes. -/
def twoNodeJob (ncpus : String) : Job :=
  { singleNodeJob ncpus with neednodes := some (some "2") }

/-- Two nodes of two cores, and then one core. -/
def twoThenOne : List Job :=
  [twoNodeJob "2", singleNodeJob "1"]

/-- Two nodes of two cores have been packed. -/
def twoOpen : ReqList :=
  AList.singleton "default" [⟨[2], none⟩, ⟨[2], none⟩]

/-- Two nodes of one core go into the two open allocations; one node of one core is too few. -/
theorem returns_iff_no_overrun_threeNodes :
    NoOverrun twoOpen threeNodes "default" [1, 1] none ∧
      ¬NoOverrun twoOpen threeNodes "default" [1] none ∧
      StepsReturn {} 0 noDraws.job [twoNodeJob "2", twoNodeJob "1"] threeNodes ∧
      ¬StepsReturn {} 0 noDraws.job twoThenOne threeNodes ∧
      Returns (getVcpuRequirement {} (singleNodeJob "3") 0) := by
  have hboth := fun requirement jobs crs' ↦ returns_iff_no_overrun {} noDraws jobs 0 threeNodes crs'
    twoOpen "default" requirement none (singleNodeJob "3") 0
  refine ⟨?_, ?_, ?_, ?_, ?_⟩
  · exact ((hboth [1, 1] [] _).1 ⟨2, 1, rfl⟩ (by decide) rfl).1 ⟨_, rfl⟩
  · exact fun hno ↦ absurd (((hboth [1] [] _).1 ⟨1, 1, rfl⟩ (by decide) rfl).2 hno)
      (by rintro ⟨_, h⟩; cases h)
  · exact (hboth [] [twoNodeJob "2", twoNodeJob "1"] threeNodes).2.1.1 ⟨_, rfl⟩
  · exact fun hsteps ↦ absurd ((hboth [] twoThenOne threeNodes).2.1.2 hsteps)
      (by rintro ⟨_, h⟩; cases h)
  · exact (hboth [] [] threeNodes).2.2 (by decide) ⟨_, rfl⟩ ⟨_, rfl⟩

/-- The first job leaves two allocations with room for the one core of the second. -/
theorem packing_overruns : (∀ job ∈ twoThenOne, PlainDigits job) ∧
    calculateNewInstances {} noDraws twoThenOne 0 threeNodes = .error .indexError :=
  ⟨by decide, rfl⟩

end DynamicTorque.JobScheduler
