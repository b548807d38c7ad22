import DynamicTorque.Scheduler.Packing

/-!
# Tenants do not see each other

A job is charged to its account if the table of resources has one of that name, and to the default
resource otherwise, or where the account's own cores do not suffice. So what a resource other than
the default one allocates depends on its own jobs alone: the run over all idle jobs and the run over
the jobs of one account leave the same allocations for it (`isolated_of_run`).

The proof relates the two runs. A job of another account leaves everything that the resource's own
jobs look at as it was (`SameFor`), and a job of the account changes it in the same way in both.
-/

open Python

namespace DynamicTorque.JobScheduler

/-! ### What admission and packing depend on -/

section Depends

variable {reqList reqList' reqList₁ reqList₁' : ReqList} {crs crs' crs₁ crs₁' : CloudResources}
  {r account : String} {requirement : List ℤ} {location : Option String}

/-- Admission, given the cores packed so far and the object of the resource. -/
def admission (total : ℤ) (requirement : List ℤ) (res : CloudResource) :
    Except PyError (Bool × CloudResource) := do
  let (budget, res') ← res.availableCores
  if total + requirement.sum > budget then pure (false, res')
  else
    let largest ← res'.firstFlavor
    match requirement with
    | [] => .error .indexError
    | v :: _ => pure (decide (v ≤ largest.vcpus), res')

/-- `have_enough_cores` looks at one resource, and changes nothing else. -/
theorem haveEnoughCores_eq_ok_iff {answer : Bool} :
    haveEnoughCores reqList account requirement crs = .ok (answer, crs') ↔
      account ∈ crs.names ∧ ∃ res,
        admission (totalCores reqList account) requirement (crs.object account) =
          .ok (answer, res) ∧ crs' = crs.modify account fun _ ↦ res := by
  by_cases hname : account ∈ crs.names
  · have hget : crs.get account = .ok (crs.object account) := if_pos hname
    rw [haveEnoughCores, hget, admission]
    cases havailable : (crs.object account).availableCores with
    | error e => simp [bind, Except.bind, havailable]
    | ok available =>
      obtain ⟨budget, res⟩ := available
      simp only [bind, Except.bind, havailable, hname, true_and]
      split
      · simp [and_assoc, eq_comm]
      · cases res.firstFlavor with
        | error e => simp
        | ok largest => cases requirement <;> simp [and_assoc, eq_comm]
  · have hget : crs.get account = .error (.keyError account) := if_neg hname
    simp [haveEnoughCores, hget, hname, bind, Except.bind]

/-- Packing gives the same allocations to the resource wherever they and its object are the same. -/
theorem lookup_addNewRequirementToList (hlookup : reqList'.lookup r = reqList.lookup r)
    (hvcpus : nodeVcpus crs' r = nodeVcpus crs r)
    (h : addNewRequirementToList reqList requirement location r crs = .ok reqList₁)
    (h' : addNewRequirementToList reqList' requirement location r crs' = .ok reqList₁') :
    reqList₁'.lookup r = reqList₁.lookup r := by
  rw [addNewRequirementToList] at h h'
  rw [hlookup, hvcpus] at h'
  cases hnodes : reqList.lookup r with
  | none =>
    rw [hnodes] at h h'
    obtain rfl := Except.ok.inj h
    obtain rfl := Except.ok.inj h'
    simp
  | some nodes =>
    rw [hnodes] at h h'
    obtain ⟨⟨idx, placed⟩, hloop, h⟩ := bind_eq_ok.1 h
    obtain ⟨⟨idx', placed'⟩, hloop', h'⟩ := bind_eq_ok.1 h'
    obtain ⟨rfl, rfl⟩ := Prod.mk.inj (Except.ok.inj (hloop.symm.trans hloop'))
    obtain rfl := Except.ok.inj h
    obtain rfl := Except.ok.inj h'
    simp

end Depends

/-! ### Two states that agree on a resource -/

/-- The states agree on the names of the resources, and on the resource `r`. -/
structure SameFor (r : String) (reqList : ReqList) (crs : CloudResources) (reqList' : ReqList)
    (crs' : CloudResources) : Prop where
  names : crs'.names = crs.names
  object : crs'.object r = crs.object r
  lookup : reqList'.lookup r = reqList.lookup r

section SameFor

variable {reqList reqList' reqList₁ reqList₁' : ReqList} {crs crs' crs₁ crs₁' : CloudResources}
  {r account : String} {requirement : List ℤ} {location : Option String}

theorem SameFor.refl (r : String) (reqList : ReqList) (crs : CloudResources) :
    SameFor r reqList crs reqList crs :=
  ⟨rfl, rfl, rfl⟩

theorem SameFor.symm (h : SameFor r reqList crs reqList' crs') :
    SameFor r reqList' crs' reqList crs :=
  ⟨h.names.symm, h.object.symm, h.lookup.symm⟩

theorem SameFor.trans (h : SameFor r reqList crs reqList' crs')
    (h' : SameFor r reqList' crs' reqList₁ crs₁) : SameFor r reqList crs reqList₁ crs₁ :=
  ⟨h'.names.trans h.names, h'.object.trans h.object, h'.lookup.trans h.lookup⟩

/-- Admission to another resource. -/
theorem sameFor_of_haveEnoughCores {answer : Bool} (hr : r ≠ account)
    (h : haveEnoughCores reqList account requirement crs = .ok (answer, crs')) :
    SameFor r reqList crs reqList crs' := by
  obtain ⟨-, res, -, rfl⟩ := haveEnoughCores_eq_ok_iff.1 h
  exact ⟨rfl, crs.object_modify_of_ne hr _, rfl⟩

/-- Packing for another resource. -/
theorem sameFor_of_addNewRequirementToList (hr : r ≠ account)
    (h : addNewRequirementToList reqList requirement location account crs = .ok reqList') :
    SameFor r reqList crs reqList' crs := by
  obtain ⟨nodes, rfl⟩ := exists_eq_insert_of_addNewRequirementToList h
  exact ⟨rfl, rfl, AList.lookup_insert_ne hr⟩

/-- A charge to the default resource leaves every other one as it was. -/
theorem sameFor_of_chargeDefault (hr : r ≠ "default")
    (h : chargeDefault reqList crs requirement location account = .ok (reqList', crs')) :
    SameFor r reqList crs reqList' crs' := by
  rw [chargeDefault] at h
  obtain ⟨⟨enough, crs₁⟩, henough, h⟩ := bind_eq_ok.1 h
  have hadmitted : SameFor r reqList crs reqList crs₁ := sameFor_of_haveEnoughCores hr henough
  dsimp only at h
  split at h
  · obtain ⟨added, hadd, h⟩ := bind_eq_ok.1 h
    obtain ⟨rfl, rfl⟩ := Prod.mk.inj (Except.ok.inj h)
    exact hadmitted.trans (sameFor_of_addNewRequirementToList hr hadd)
  · obtain ⟨rfl, rfl⟩ := Prod.mk.inj (Except.ok.inj h)
    exact hadmitted

/-- **A job of another account** leaves the resource as it was. -/
theorem sameFor_of_chargeJob (hr : r ≠ "default") (haccount : account ≠ r)
    (h : chargeJob reqList crs requirement location account = .ok (reqList', crs')) :
    SameFor r reqList crs reqList' crs' := by
  rw [chargeJob] at h
  dsimp only at h
  have hne : r ≠ if account ∈ crs.names then account else "default" := by
    split
    · exact haccount.symm
    · exact hr
  generalize (if account ∈ crs.names then account else "default") = charged at h hne
  split at h
  · exact sameFor_of_chargeDefault hr h
  · obtain ⟨⟨enough, crs₁⟩, henough, h⟩ := bind_eq_ok.1 h
    have hadmitted : SameFor r reqList crs reqList crs₁ := sameFor_of_haveEnoughCores hne henough
    dsimp only at h
    split at h
    · obtain ⟨added, hadd, h⟩ := bind_eq_ok.1 h
      obtain ⟨rfl, rfl⟩ := Prod.mk.inj (Except.ok.inj h)
      exact hadmitted.trans (sameFor_of_addNewRequirementToList hne hadd)
    · exact hadmitted.trans (sameFor_of_chargeDefault hr h)

/-- Admission to the resource itself has the same answer in both states. -/
theorem SameFor.haveEnoughCores {answer answer' : Bool}
    (hsame : SameFor r reqList crs reqList' crs')
    (h : haveEnoughCores reqList r requirement crs = .ok (answer, crs₁))
    (h' : haveEnoughCores reqList' r requirement crs' = .ok (answer', crs₁')) :
    answer' = answer ∧ SameFor r reqList crs₁ reqList' crs₁' := by
  obtain ⟨-, res, hadmission, rfl⟩ := haveEnoughCores_eq_ok_iff.1 h
  obtain ⟨-, res', hadmission', rfl⟩ := haveEnoughCores_eq_ok_iff.1 h'
  have htotal : totalCores reqList' r = totalCores reqList r := by
    rw [totalCores, totalCores, hsame.lookup]
  rw [htotal, hsame.object] at hadmission'
  obtain ⟨rfl, rfl⟩ := Prod.mk.inj (Except.ok.inj (hadmission.symm.trans hadmission'))
  exact ⟨rfl, hsame.names, by simp, hsame.lookup⟩

/-- The capacity of a node of the resource is the same in both states. -/
theorem SameFor.nodeVcpus (hsame : SameFor r reqList crs reqList' crs') :
    nodeVcpus crs' r = nodeVcpus crs r := by
  rw [JobScheduler.nodeVcpus, JobScheduler.nodeVcpus, CloudResources.get, CloudResources.get,
    hsame.names, hsame.object]

/-- **A job of the account** changes the resource in the same way in both states. -/
theorem SameFor.chargeJob (hr : r ≠ "default") (hsame : SameFor r reqList crs reqList' crs')
    (h : chargeJob reqList crs requirement location r = .ok (reqList₁, crs₁))
    (h' : chargeJob reqList' crs' requirement location r = .ok (reqList₁', crs₁')) :
    SameFor r reqList₁ crs₁ reqList₁' crs₁' := by
  by_cases hname : r ∈ crs.names
  · have hname' : r ∈ crs'.names := hsame.names ▸ hname
    rw [JobScheduler.chargeJob, if_pos hname] at h
    rw [JobScheduler.chargeJob, if_pos hname'] at h'
    dsimp only at h h'
    rw [if_neg hr] at h h'
    obtain ⟨⟨enough, crs₂⟩, henough, h⟩ := bind_eq_ok.1 h
    obtain ⟨⟨enough', crs₂'⟩, henough', h'⟩ := bind_eq_ok.1 h'
    obtain ⟨rfl, hadmitted⟩ := hsame.haveEnoughCores henough henough'
    dsimp only at h h'
    cases enough' with
    | true =>
      obtain ⟨added, hadd, h⟩ := bind_eq_ok.1 h
      obtain ⟨added', hadd', h'⟩ := bind_eq_ok.1 h'
      obtain ⟨rfl, rfl⟩ := Prod.mk.inj (Except.ok.inj h)
      obtain ⟨rfl, rfl⟩ := Prod.mk.inj (Except.ok.inj h')
      exact ⟨hadmitted.names, hadmitted.object,
        lookup_addNewRequirementToList hadmitted.lookup hadmitted.nodeVcpus hadd hadd'⟩
    -- refused in both runs: what goes to the default resource does not touch `r`
    | false =>
      exact ((sameFor_of_chargeDefault hr h).symm.trans hadmitted).trans
        (sameFor_of_chargeDefault hr h')
  · -- without a resource of its own the account is charged to the default one
    have hname' : r ∉ crs'.names := hsame.names ▸ hname
    rw [JobScheduler.chargeJob, if_neg hname] at h
    rw [JobScheduler.chargeJob, if_neg hname'] at h'
    dsimp only at h h'
    rw [if_pos rfl] at h h'
    exact ((sameFor_of_chargeDefault hr h).symm.trans hsame).trans (sameFor_of_chargeDefault hr h')

end SameFor

/-! ### The loop over the jobs -/

/-- The job is charged to the account: `Account_Name` if present, else the queue. -/
def ChargedTo (r : String) (job : Job) : Prop :=
  accountString job = .ok r

instance (r : String) (job : Job) : Decidable (ChargedTo r job) :=
  inferInstanceAs (Decidable (accountString job = .ok r))

section Jobs

variable {cfg : Config} {numberOfWn : ℤ} {draw : ℕ} {job : Job} {r : String}
  {reqList reqList' reqList₁ reqList₁' : ReqList} {crs crs' crs₁ crs₁' : CloudResources}

/-- The account that is read with the requirement. -/
theorem accountString_of_getVcpuRequirement {requirement : Option (List ℤ)}
    {location : Option String} {account : String}
    (h : getVcpuRequirement cfg job draw = .ok (requirement, location, account)) :
    accountString job = .ok account := by
  rw [getVcpuRequirement] at h
  obtain ⟨account', haccount, h⟩ := bind_eq_ok.1 h
  rw [haccount]
  split at h
  · obtain ⟨numNodes, -, h⟩ := bind_eq_ok.1 h
    obtain ⟨numCores, -, h⟩ := bind_eq_ok.1 h
    obtain ⟨loc, -, h⟩ := bind_eq_ok.1 h
    exact congrArg _ (Prod.mk.inj (Prod.mk.inj (Except.ok.inj h)).2).2
  · obtain ⟨numCores, -, h⟩ := bind_eq_ok.1 h
    obtain ⟨loc, -, h⟩ := bind_eq_ok.1 h
    exact congrArg _ (Prod.mk.inj (Prod.mk.inj (Except.ok.inj h)).2).2
  · obtain ⟨loc, -, h⟩ := bind_eq_ok.1 h
    exact congrArg _ (Prod.mk.inj (Prod.mk.inj (Except.ok.inj h)).2).2
  · exact congrArg _ (Prod.mk.inj (Prod.mk.inj (Except.ok.inj h)).2).2

/-- One iteration: the job is passed over, whatever the state, or its requirement is charged to
its account. -/
theorem scheduleJob_charges (cfg : Config) (numberOfWn : ℤ) (draw : ℕ) (job : Job) :
    (∀ reqList crs, ∀ out, scheduleJob cfg numberOfWn draw job reqList crs = .ok out →
      out = (reqList, crs)) ∨
    ∃ requirement location account, accountString job = .ok account ∧ ∀ reqList crs,
      scheduleJob cfg numberOfWn draw job reqList crs =
        chargeJob reqList crs requirement location account := by
  cases hpriority : job.jobPriority with
  | none => exact .inl fun _ _ _ h ↦ by simp [scheduleJob, hpriority] at h
  | some p =>
    by_cases hskip : p = -1 ∧ numberOfWn > 0
    · exact .inl fun _ _ _ h ↦ by simpa [scheduleJob, hpriority, hskip, eq_comm] using h
    · cases hread : getVcpuRequirement cfg job draw with
      | error e =>
        exact .inl fun _ _ _ h ↦ by
          simp [scheduleJob, hpriority, hskip, hread, bind, Except.bind] at h
      | ok read =>
        obtain ⟨requirement, location, account⟩ := read
        rcases requirement with _ | _ | ⟨v, vs⟩
        · exact .inl fun _ _ _ h ↦ by
            simpa [scheduleJob, hpriority, hskip, hread, bind, Except.bind, eq_comm] using h
        · exact .inl fun _ _ _ h ↦ by
            simpa [scheduleJob, hpriority, hskip, hread, bind, Except.bind, eq_comm] using h
        · refine .inr ⟨v :: vs, location, account, accountString_of_getVcpuRequirement hread, ?_⟩
          intro reqList crs
          simp [scheduleJob, hpriority, hskip, hread, bind, Except.bind]

/-- A job that is not charged to the account. -/
theorem sameFor_of_scheduleJob (hr : r ≠ "default") (hjob : ¬ChargedTo r job)
    (h : scheduleJob cfg numberOfWn draw job reqList crs = .ok (reqList', crs')) :
    SameFor r reqList crs reqList' crs' := by
  rcases scheduleJob_charges cfg numberOfWn draw job with hskip | ⟨_, _, account, haccount, hcharge⟩
  · obtain ⟨rfl, rfl⟩ := Prod.mk.inj (hskip _ _ _ h)
    exact .refl _ _ _
  · refine sameFor_of_chargeJob hr (fun heq ↦ hjob ?_) (hcharge _ _ ▸ h)
    exact heq ▸ haccount

/-- A job that is charged to the account, in both runs. -/
theorem SameFor.scheduleJob (hr : r ≠ "default") (hjob : ChargedTo r job)
    (hsame : SameFor r reqList crs reqList' crs')
    (h : scheduleJob cfg numberOfWn draw job reqList crs = .ok (reqList₁, crs₁))
    (h' : scheduleJob cfg numberOfWn draw job reqList' crs' = .ok (reqList₁', crs₁')) :
    SameFor r reqList₁ crs₁ reqList₁' crs₁' := by
  rcases scheduleJob_charges cfg numberOfWn draw job with hskip | ⟨_, _, account, haccount, hcharge⟩
  · obtain ⟨rfl, rfl⟩ := Prod.mk.inj (hskip _ _ _ h)
    obtain ⟨rfl, rfl⟩ := Prod.mk.inj (hskip _ _ _ h')
    exact hsame
  · obtain rfl : account = r := Except.ok.inj (haccount.symm.trans hjob)
    exact hsame.chargeJob hr (hcharge _ _ ▸ h) (hcharge _ _ ▸ h')

/-- The draws of jobs that each come with their own. -/
def drawsOf (jobs : List (Job × ℕ)) (i : ℕ) : ℕ :=
  (jobs[i]?.map Prod.snd).getD 0

/-- The loop over jobs that each come with a draw. -/
def scheduleDrawn (cfg : Config) (numberOfWn : ℤ) (jobs : List (Job × ℕ)) (reqList : ReqList)
    (crs : CloudResources) : Except PyError (ReqList × CloudResources) :=
  scheduleJobs cfg numberOfWn (drawsOf jobs) 0 (jobs.map Prod.fst) reqList crs

@[simp] theorem scheduleDrawn_nil : scheduleDrawn cfg numberOfWn [] reqList crs =
    .ok (reqList, crs) := rfl

theorem scheduleJobs_congr {draws draws' : ℕ → ℕ} {i i' : ℕ} (jobs : List Job)
    (h : ∀ k, draws (i + k) = draws' (i' + k)) :
    scheduleJobs cfg numberOfWn draws i jobs reqList crs =
      scheduleJobs cfg numberOfWn draws' i' jobs reqList crs := by
  induction jobs generalizing i i' reqList crs with
  | nil => rfl
  | cons job jobs ih =>
    have hhead : draws i = draws' i' := h 0
    have htail : ∀ k, draws (i + 1 + k) = draws' (i' + 1 + k) := fun k ↦ by
      have hk := h (1 + k)
      rwa [← Nat.add_assoc, ← Nat.add_assoc] at hk
    rw [scheduleJobs, scheduleJobs, hhead]
    simp only [ih htail]

/-- One iteration, then the rest. -/
theorem scheduleDrawn_cons (jobs : List (Job × ℕ)) :
    scheduleDrawn cfg numberOfWn ((job, draw) :: jobs) reqList crs =
      (scheduleJob cfg numberOfWn draw job reqList crs >>= fun next ↦
        scheduleDrawn cfg numberOfWn jobs next.1 next.2) := by
  have hshift : ∀ k, drawsOf ((job, draw) :: jobs) (0 + 1 + k) = drawsOf jobs (0 + k) := by
    intro k
    rw [drawsOf, drawsOf, show 0 + 1 + k = k + 1 by omega, Nat.zero_add, List.getElem?_cons_succ]
  rw [scheduleDrawn, List.map_cons, scheduleJobs]
  refine congrArg _ (funext fun next ↦ ?_)
  exact scheduleJobs_congr _ hshift

/-- **The two runs** agree on the resource if they have begun so. -/
theorem SameFor.scheduleDrawn (hr : r ≠ "default") (jobs : List (Job × ℕ))
    (hsame : SameFor r reqList crs reqList' crs')
    (h : scheduleDrawn cfg numberOfWn jobs reqList crs = .ok (reqList₁, crs₁))
    (h' : scheduleDrawn cfg numberOfWn (jobs.filter fun job ↦ ChargedTo r job.1) reqList' crs' =
      .ok (reqList₁', crs₁')) : SameFor r reqList₁ crs₁ reqList₁' crs₁' := by
  induction jobs generalizing reqList reqList' crs crs' with
  | nil =>
    obtain ⟨rfl, rfl⟩ := Prod.mk.inj (Except.ok.inj h)
    obtain ⟨rfl, rfl⟩ := Prod.mk.inj (Except.ok.inj h')
    exact hsame
  | cons head jobs ih =>
    obtain ⟨job, draw⟩ := head
    rw [scheduleDrawn_cons] at h
    obtain ⟨⟨reqList₂, crs₂⟩, hjob, hrest⟩ := bind_eq_ok.1 h
    by_cases hcharged : ChargedTo r job
    · rw [List.filter_cons_of_pos (by simpa using hcharged), scheduleDrawn_cons] at h'
      obtain ⟨⟨reqList₂', crs₂'⟩, hjob', hrest'⟩ := bind_eq_ok.1 h'
      exact ih (hsame.scheduleJob hr hcharged hjob hjob') hrest hrest'
    · rw [List.filter_cons_of_neg (by simpa using hcharged)] at h'
      exact ih ((sameFor_of_scheduleJob hr hcharged hjob).symm.trans hsame) hrest h'

end Jobs

/-- **Tenant isolation.** If the loop finishes both on all idle jobs and on those charged to a
resource other than the default one, the two runs leave the same allocations for it. Each job comes
with the draw for its location. -/
theorem isolated_of_run (cfg : Config) (numberOfWn : ℤ) (r : String) (hr : r ≠ "default")
    (jobs : List (Job × ℕ)) (crs crs₁ crs₂ : CloudResources) (reqList₁ reqList₂ : ReqList)
    (hall : scheduleDrawn cfg numberOfWn jobs ∅ crs = .ok (reqList₁, crs₁))
    (hown : scheduleDrawn cfg numberOfWn (jobs.filter fun job ↦ ChargedTo r job.1) ∅ crs =
      .ok (reqList₂, crs₂)) : reqList₂.lookup r = reqList₁.lookup r :=
  ((SameFor.refl r ∅ crs).scheduleDrawn hr jobs hall hown).lookup

/-- The default resource and another one, with three nodes each. -/
def twoTenants : CloudResources where
  names := ["default", "bio"]
  nodup := by decide
  object := threeNodes.object

/-- A job of the other resource that wants two cores. -/
def bioJob : Job :=
  { singleNodeJob "2" with accountName := some "bio" }

theorem isolated_of_run_twoTenants :
    (AList.singleton "bio" [⟨[2], none⟩] : ReqList).lookup "bio" =
      ((AList.singleton "default" [⟨[3], none⟩] : ReqList).insert "bio" [⟨[2], none⟩]).lookup
        "bio" :=
  isolated_of_run {} 0 "bio" (by decide) [(singleNodeJob "3", 0), (bioJob, 0)] twoTenants _ _ _ _
    rfl rfl

end DynamicTorque.JobScheduler
