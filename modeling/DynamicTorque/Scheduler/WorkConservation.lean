import DynamicTorque.Scheduler.Isolation
import DynamicTorque.Scheduler.Overrun

/-!
# No room is left unused

The loop over the idle jobs charges a job to its account, or to the default resource, and turns it
down where neither has room. Since the cores that are packed only grow, what is turned down would
still be turned down when the loop has ended: the requests that a poll makes leave no room for a job
that they leave out (`work_conserving`). So a default resource with enough cores for all jobs serves
all of them (`all_served`).

The comparison of the account with the location is the one exception, since it turns a job down
whose account has the name of its location.
-/

open Python

namespace DynamicTorque.JobScheduler

/-- What the loop makes of a job. -/
inductive Verdict
  | passedOver
  | charged (r : String)
  | turnedDown
  deriving DecidableEq, Repr

/-- The requirement that a job is charged for, with its location and its account; none if it is
passed over. -/
def asked (cfg : Config) (numberOfWn : ℤ) (job : Job × ℕ) :
    Option (List ℤ × Option String × String) :=
  if job.1.jobPriority = some (-1) ∧ numberOfWn > 0 then none
  else
    match getVcpuRequirement cfg job.1 job.2 with
    | .ok (some (v :: vs), location, account) => some (v :: vs, location, account)
    | _ => none

/-- The resource that a job of the account is charged to first. -/
def ownResource (crs : CloudResources) (account : String) : String :=
  if account ∈ crs.names then account else "default"

/-- A verdict that is right for these allocations: a job is charged to the default resource, or
turned down, only where there is no room. -/
inductive Judged (cfg : Config) (numberOfWn : ℤ) (crs : CloudResources) (reqList : ReqList)
    (job : Job × ℕ) : Verdict → Prop
  | passedOver (h : asked cfg numberOfWn job = none) : Judged cfg numberOfWn crs reqList job
      .passedOver
  | charged {requirement : List ℤ} {location : Option String} {account r : String}
      (h : asked cfg numberOfWn job = some (requirement, location, account))
      (hr : r = ownResource crs account ∨
        r = "default" ∧ ¬Admits reqList crs (ownResource crs account) requirement) :
      Judged cfg numberOfWn crs reqList job (.charged r)
  | turnedDown {requirement : List ℤ} {location : Option String} {account : String}
      (h : asked cfg numberOfWn job = some (requirement, location, account))
      (hown : ownResource crs account ≠ "default" →
        ¬Admits reqList crs (ownResource crs account) requirement)
      (hdefault : ¬Admits reqList crs "default" requirement ∨
        some (ownResource crs account) = location) :
      Judged cfg numberOfWn crs reqList job .turnedDown

/-- The cores that a job asks for. -/
def coresAsked (cfg : Config) (numberOfWn : ℤ) (job : Job × ℕ) : ℤ :=
  match asked cfg numberOfWn job with
  | some (requirement, _, _) => requirement.sum
  | none => 0

/-- The cores that a job adds to a resource. -/
def coresAdded (cfg : Config) (numberOfWn : ℤ) (r : String) (judged : (Job × ℕ) × Verdict) : ℤ :=
  if judged.2 = .charged r then coresAsked cfg numberOfWn judged.1 else 0

/-! ### Room only gets scarcer -/

section Room

variable {cfg : Config} {numberOfWn : ℤ} {reqList reqList' : ReqList} {crs crs' : CloudResources}
  {requirement : List ℤ} {location : Option String} {account r : String} {job : Job × ℕ}

theorem Admits.of_le (h : Admits reqList' crs r requirement)
    (hle : totalCores reqList r ≤ totalCores reqList' r) : Admits reqList crs r requirement :=
  ⟨(Int.add_le_add_right hle _).trans h.1, h.2⟩

theorem admits_congr (htable : SameTable crs crs') :
    Admits reqList crs' r requirement ↔ Admits reqList crs r requirement := by
  rw [Admits, Admits, budget, budget, htable.available, htable.largest]

theorem ownResource_congr (htable : SameTable crs crs') :
    ownResource crs' account = ownResource crs account := by
  rw [ownResource, ownResource, htable.names]

/-- A verdict stays right while the packed cores grow. -/
theorem Judged.mono {verdict : Verdict} (h : Judged cfg numberOfWn crs reqList job verdict)
    (hle : ∀ r, totalCores reqList r ≤ totalCores reqList' r) :
    Judged cfg numberOfWn crs reqList' job verdict := by
  cases h with
  | passedOver h => exact .passedOver h
  | charged h hr => exact .charged h (hr.imp_right (And.imp_right (mt fun h ↦ h.of_le (hle _))))
  | turnedDown h hown hdefault =>
    exact .turnedDown h (fun hne ↦ mt (fun h ↦ h.of_le (hle _)) (hown hne))
      (hdefault.imp_left (mt fun h ↦ h.of_le (hle _)))

theorem Judged.congr {verdict : Verdict} (h : Judged cfg numberOfWn crs' reqList job verdict)
    (htable : SameTable crs crs') : Judged cfg numberOfWn crs reqList job verdict := by
  cases h with
  | passedOver h => exact .passedOver h
  | charged h hr =>
    rw [ownResource_congr htable, admits_congr htable] at hr
    exact .charged h hr
  | turnedDown h hown hdefault =>
    rw [ownResource_congr htable, admits_congr htable] at hown
    rw [ownResource_congr htable, admits_congr htable] at hdefault
    exact .turnedDown h hown hdefault

/-- Packing adds the cores of the requirement to its resource. -/
theorem totalCores_of_addNewRequirementToList
    (h : addNewRequirementToList reqList requirement location account crs = .ok reqList')
    (r : String) : totalCores reqList' r =
      totalCores reqList r + if r = account then requirement.sum else 0 := by
  have hplace := placement_of_addNewRequirementToList h
  by_cases hr : r = account
  · subst hr
    have hsum := hplace.sum_load getTotalNumCores_addCores fun _ ↦ getTotalNumCores_singleton _ _
    simpa [totalCores_eq] using hsum
  · obtain ⟨nodes, rfl⟩ := exists_eq_insert_of_addNewRequirementToList h
    rw [totalCores_eq, totalCores_eq, allocations_insert_of_ne reqList hr, if_neg hr, add_zero]

end Room

/-! ### One job -/

section Step

variable {cfg : Config} {numberOfWn : ℤ} {reqList reqList' : ReqList} {crs crs' : CloudResources}
  {requirement : List ℤ} {location : Option String} {account r : String} {job : Job × ℕ}

/-- A charge to the default resource. -/
theorem chargeDefault_cases (hne : requirement ≠ [])
    (h : chargeDefault reqList crs requirement location account = .ok (reqList', crs')) :
    SameTable crs crs' ∧
      (Admits reqList crs "default" requirement ∧
          addNewRequirementToList reqList requirement location "default" crs' = .ok reqList' ∨
        reqList' = reqList ∧
          (¬Admits reqList crs "default" requirement ∨ some account = location)) := by
  rw [chargeDefault] at h
  obtain ⟨⟨enough, crs₁⟩, henough, h⟩ := bind_eq_ok.1 h
  have hflavors : HasFlavors crs "default" := (haveEnoughCores_returns_iff hne).1 ⟨_, henough⟩
  have htable := (haveEnoughCores_spec henough).2.1
  rw [haveEnoughCores_eq hflavors hne] at henough
  obtain ⟨rfl, rfl⟩ := Prod.mk.inj (Except.ok.inj henough)
  dsimp only at h
  split at h
  · rename_i hyes
    obtain ⟨added, hadd, h⟩ := bind_eq_ok.1 h
    obtain ⟨rfl, rfl⟩ := Prod.mk.inj (Except.ok.inj h)
    exact ⟨htable, .inl ⟨of_decide_eq_true hyes.1, hadd⟩⟩
  · rename_i hno
    obtain ⟨rfl, rfl⟩ := Prod.mk.inj (Except.ok.inj h)
    refine ⟨htable, .inr ⟨rfl, ?_⟩⟩
    by_contra hboth
    obtain ⟨hadmits, hlocation⟩ := not_or.1 hboth
    exact hno ⟨decide_eq_true (not_not.1 hadmits), hlocation⟩

/-- A charge: the requirement is packed into the account's own resource, or into the default one
if there is no room for it there, or it is turned down. -/
theorem chargeJob_cases (hne : requirement ≠ [])
    (h : chargeJob reqList crs requirement location account = .ok (reqList', crs')) :
    SameTable crs crs' ∧
      ((∃ r crs₁, (r = ownResource crs account ∨
            r = "default" ∧ ¬Admits reqList crs (ownResource crs account) requirement) ∧
          addNewRequirementToList reqList requirement location r crs₁ = .ok reqList') ∨
        reqList' = reqList ∧
          (ownResource crs account ≠ "default" →
            ¬Admits reqList crs (ownResource crs account) requirement) ∧
          (¬Admits reqList crs "default" requirement ∨
            some (ownResource crs account) = location)) := by
  have hown : (if account ∈ crs.names then account else "default") = ownResource crs account := rfl
  rw [chargeJob] at h
  simp only [hown] at h
  generalize ownResource crs account = own at h ⊢
  split at h
  · rename_i hdefault
    subst hdefault
    obtain ⟨htable, ⟨-, hadd⟩ | ⟨rfl, hfull⟩⟩ := chargeDefault_cases hne h
    · exact ⟨htable, .inl ⟨_, _, .inl rfl, hadd⟩⟩
    · exact ⟨htable, .inr ⟨rfl, fun hne ↦ absurd rfl hne, hfull⟩⟩
  · rename_i hother
    obtain ⟨⟨enough, crs₁⟩, henough, h⟩ := bind_eq_ok.1 h
    have hflavors : HasFlavors crs own := (haveEnoughCores_returns_iff hne).1 ⟨_, henough⟩
    have htable := (haveEnoughCores_spec henough).2.1
    rw [haveEnoughCores_eq hflavors hne] at henough
    obtain ⟨rfl, rfl⟩ := Prod.mk.inj (Except.ok.inj henough)
    dsimp only at h
    split at h
    · obtain ⟨added, hadd, h⟩ := bind_eq_ok.1 h
      obtain ⟨rfl, rfl⟩ := Prod.mk.inj (Except.ok.inj h)
      exact ⟨htable, .inl ⟨_, _, .inl rfl, hadd⟩⟩
    · rename_i hno
      have hfull : ¬Admits reqList crs own requirement := of_decide_eq_false (by simpa using hno)
      obtain ⟨htable', ⟨-, hadd⟩ | ⟨rfl, hturned⟩⟩ := chargeDefault_cases hne h
      · exact ⟨htable.trans htable', .inl ⟨_, _, .inr ⟨rfl, hfull⟩, hadd⟩⟩
      · rw [admits_congr htable] at hturned
        exact ⟨htable.trans htable', .inr ⟨rfl, fun _ ↦ hfull, hturned⟩⟩

/-- **One job**: there is a verdict that is right for the allocations that it is given on, and the
cores that are packed are the ones that it adds. -/
theorem judged_of_scheduleJob
    (h : scheduleJob cfg numberOfWn job.2 job.1 reqList crs = .ok (reqList', crs')) :
    SameTable crs crs' ∧ ∃ verdict, Judged cfg numberOfWn crs reqList job verdict ∧
      ∀ r, totalCores reqList' r =
        totalCores reqList r + coresAdded cfg numberOfWn r (job, verdict) := by
  have hsame (hnone : asked cfg numberOfWn job = none) (heq : reqList' = reqList) :
      ∃ verdict, Judged cfg numberOfWn crs reqList job verdict ∧ ∀ r, totalCores reqList' r =
        totalCores reqList r + coresAdded cfg numberOfWn r (job, verdict) := by
    refine ⟨.passedOver, .passedOver hnone, fun r ↦ ?_⟩
    rw [heq, coresAdded, if_neg (by simp), add_zero]
  rw [scheduleJob] at h
  split at h
  · cases h
  · rename_i p hpriority
    split at h
    · rename_i hskip
      obtain ⟨rfl, rfl⟩ := Prod.mk.inj (Except.ok.inj h)
      refine ⟨.refl _, hsame ?_ rfl⟩
      rw [asked, if_pos ⟨by rw [hpriority, hskip.1], hskip.2⟩]
    · rename_i hkeep
      have hkept : ¬(job.1.jobPriority = some (-1) ∧ numberOfWn > 0) := by
        rw [hpriority, Option.some.injEq]
        exact hkeep
      obtain ⟨⟨requirement, location, account⟩, hread, h⟩ := bind_eq_ok.1 h
      dsimp only at h
      split at h
      · obtain ⟨rfl, rfl⟩ := Prod.mk.inj (Except.ok.inj h)
        exact ⟨.refl _, hsame (by rw [asked, if_neg hkept, hread]) rfl⟩
      · obtain ⟨rfl, rfl⟩ := Prod.mk.inj (Except.ok.inj h)
        exact ⟨.refl _, hsame (by rw [asked, if_neg hkept, hread]) rfl⟩
      · rename_i v vs
        have hasked : asked cfg numberOfWn job = some (v :: vs, location, account) := by
          rw [asked, if_neg hkept, hread]
        obtain ⟨htable, ⟨r, crs₁, hr, hadd⟩ | ⟨rfl, hown, hdefault⟩⟩ :=
          chargeJob_cases (List.cons_ne_nil v vs) h
        · refine ⟨htable, .charged r, .charged hasked hr, fun r' ↦ ?_⟩
          rw [totalCores_of_addNewRequirementToList hadd r', coresAdded, coresAsked, hasked]
          simp [eq_comm]
        · refine ⟨htable, .turnedDown, .turnedDown hasked hown hdefault, fun r ↦ ?_⟩
          rw [coresAdded, if_neg (by simp), add_zero]

/-- Jobs that ask for no negative number of cores on a node ask for none. -/
theorem coresAsked_nonneg {jobs : List (Job × ℕ)}
    (hjobs : AsksAtLeast cfg (jobs.map Prod.fst) 0) (hjob : job ∈ jobs) :
    0 ≤ coresAsked cfg numberOfWn job := by
  rw [coresAsked, asked]
  split
  · rename_i requirement location account hasked
    split at hasked
    · cases hasked
    · split at hasked
      · rename_i v vs location' account' hread
        obtain ⟨rfl, -⟩ := Prod.mk.inj (Option.some.inj hasked)
        refine List.sum_nonneg fun x hx ↦ ?_
        exact hjobs job.1 (List.mem_map_of_mem hjob) _ _ _ _ hread x hx
      · cases hasked
  · exact le_rfl

end Step

/-! ### All jobs -/

section Run

variable {cfg : Config} {numberOfWn : ℤ} {crs : CloudResources}

/-- The cores that jobs with these verdicts add to a resource. -/
def totalAdded (cfg : Config) (numberOfWn : ℤ) (r : String) (jobs : List (Job × ℕ))
    (verdicts : List Verdict) : ℤ :=
  ((jobs.zip verdicts).map (coresAdded cfg numberOfWn r)).sum

/-- What all jobs ask for. -/
def totalAsked (cfg : Config) (numberOfWn : ℤ) (jobs : List (Job × ℕ)) : ℤ :=
  (jobs.map (coresAsked cfg numberOfWn)).sum

theorem coresAdded_le {jobs : List (Job × ℕ)} (hjobs : AsksAtLeast cfg (jobs.map Prod.fst) 0)
    {job : Job × ℕ} (hjob : job ∈ jobs) (verdict : Verdict) (r : String) :
    0 ≤ coresAdded cfg numberOfWn r (job, verdict) ∧
      coresAdded cfg numberOfWn r (job, verdict) ≤ coresAsked cfg numberOfWn job := by
  have hnonneg : 0 ≤ coresAsked cfg numberOfWn job := coresAsked_nonneg hjobs hjob
  rw [coresAdded]
  dsimp only
  split <;> omega

theorem totalAdded_nonneg {jobs : List (Job × ℕ)}
    (hjobs : AsksAtLeast cfg (jobs.map Prod.fst) 0) (verdicts : List Verdict) (r : String) :
    0 ≤ totalAdded cfg numberOfWn r jobs verdicts := by
  refine List.sum_nonneg fun n hn ↦ ?_
  obtain ⟨⟨job, verdict⟩, hmem, rfl⟩ := List.mem_map.1 hn
  exact (coresAdded_le hjobs (List.of_mem_zip hmem).1 verdict r).1

/-- What a job that is turned down asks for is missing from what is added. -/
theorem totalAdded_add_le {jobs : List (Job × ℕ)} {verdicts : List Verdict}
    (hjobs : AsksAtLeast cfg (jobs.map Prod.fst) 0) (hlength : jobs.length = verdicts.length)
    {job : Job × ℕ} (hmem : (job, Verdict.turnedDown) ∈ jobs.zip verdicts) (r : String) :
    totalAdded cfg numberOfWn r jobs verdicts + coresAsked cfg numberOfWn job ≤
      totalAsked cfg numberOfWn jobs := by
  have hasked : totalAsked cfg numberOfWn jobs =
      ((jobs.zip verdicts).map fun judged ↦ coresAsked cfg numberOfWn judged.1).sum := by
    have hfst : (jobs.zip verdicts).map Prod.fst = jobs := List.map_fst_zip (Nat.le_of_eq hlength)
    conv_lhs => rw [totalAsked, ← hfst, List.map_map]
    rfl
  have hsplit : totalAsked cfg numberOfWn jobs - totalAdded cfg numberOfWn r jobs verdicts =
      ((jobs.zip verdicts).map fun judged ↦ coresAsked cfg numberOfWn judged.1 -
        coresAdded cfg numberOfWn r judged).sum := by
    rw [hasked, totalAdded]
    generalize jobs.zip verdicts = judged
    induction judged with
    | nil => rfl
    | cons head judged ih =>
      simp only [List.map_cons, List.sum_cons]
      omega
  have hsingle : coresAsked cfg numberOfWn job ≤
      ((jobs.zip verdicts).map fun judged ↦ coresAsked cfg numberOfWn judged.1 -
        coresAdded cfg numberOfWn r judged).sum := by
    refine List.single_le_sum ?_ _ (List.mem_map.2 ⟨_, hmem, ?_⟩)
    · intro n hn
      obtain ⟨⟨other, verdict⟩, hother, rfl⟩ := List.mem_map.1 hn
      have hle : coresAdded cfg numberOfWn r (other, verdict) ≤ coresAsked cfg numberOfWn other :=
        (coresAdded_le hjobs (List.of_mem_zip hother).1 verdict r).2
      dsimp only
      omega
    · simp [coresAdded]
  omega

/-- From any allocations: a verdict on each job, right for the allocations at the end. -/
theorem judged_of_scheduleDrawn {jobs : List (Job × ℕ)}
    (hjobs : AsksAtLeast cfg (jobs.map Prod.fst) 0) {reqList reqList' : ReqList}
    {crs' : CloudResources}
    (h : scheduleDrawn cfg numberOfWn jobs reqList crs = .ok (reqList', crs')) :
    ∃ verdicts, List.Forall₂ (Judged cfg numberOfWn crs reqList') jobs verdicts ∧
      ∀ r, totalCores reqList' r =
        totalCores reqList r + totalAdded cfg numberOfWn r jobs verdicts := by
  induction jobs generalizing reqList crs with
  | nil =>
    obtain ⟨rfl, rfl⟩ := Prod.mk.inj (Except.ok.inj h)
    exact ⟨[], .nil, fun r ↦ by simp [totalAdded]⟩
  | cons job jobs ih =>
    rw [scheduleDrawn_cons] at h
    obtain ⟨⟨reqList₁, crs₁⟩, hjob, hrest⟩ := bind_eq_ok.1 h
    have htail : AsksAtLeast cfg (jobs.map Prod.fst) 0 := fun j hj ↦ hjobs j (.tail _ hj)
    obtain ⟨htable, verdict, hjudged, hadded⟩ := judged_of_scheduleJob hjob
    obtain ⟨verdicts, hall, htotal⟩ := ih htail hrest
    have htotal' : ∀ r, totalCores reqList' r =
        totalCores reqList r + totalAdded cfg numberOfWn r (job :: jobs) (verdict :: verdicts) := by
      intro r
      rw [htotal, hadded, totalAdded, totalAdded, List.zip_cons_cons, List.map_cons, List.sum_cons]
      omega
    have hle : ∀ r, totalCores reqList r ≤ totalCores reqList' r := by
      intro r
      have hnonneg : 0 ≤ totalAdded cfg numberOfWn r (job :: jobs) (verdict :: verdicts) :=
        totalAdded_nonneg hjobs (verdict :: verdicts) r
      have hsum := htotal' r
      omega
    exact ⟨verdict :: verdicts, .cons (hjudged.mono hle) (hall.imp fun _ _ h ↦ h.congr htable),
      htotal'⟩

/-- **No room is left unused.** Whenever the loop returns, there is a verdict on each idle job such
that the cores packed for a resource are those of the jobs charged to it, and the verdicts are right
for the allocations at the end: a job is charged to the default resource in place of its own, or
turned down, only where there still is no room for it, or where its account has the name of its
location. -/
theorem work_conserving (cfg : Config) (numberOfWn : ℤ) (jobs : List (Job × ℕ))
    (crs crs' : CloudResources) (reqList : ReqList)
    (hjobs : AsksAtLeast cfg (jobs.map Prod.fst) 0)
    (h : scheduleDrawn cfg numberOfWn jobs ∅ crs = .ok (reqList, crs')) :
    ∃ verdicts, List.Forall₂ (Judged cfg numberOfWn crs reqList) jobs verdicts ∧
      ∀ r, totalCores reqList r = totalAdded cfg numberOfWn r jobs verdicts := by
  obtain ⟨verdicts, hall, htotal⟩ := judged_of_scheduleDrawn hjobs h
  refine ⟨verdicts, hall, fun r ↦ ?_⟩
  have hempty : totalCores ∅ r = 0 := rfl
  rw [htotal, hempty, zero_add]

/-- Jobs with plain digits ask for no negative number of cores. -/
theorem asksAtLeast_of_plainDigits {jobs : List Job} (h : ∀ job ∈ jobs, PlainDigits job) :
    AsksAtLeast cfg jobs 0 := by
  have hint : ∀ {s : String} {n : ℤ}, isdigit s = true → Unicode.int s = .ok n → 0 ≤ n := by
    intro s n hs hn
    obtain ⟨k, rfl⟩ := Unicode.nat_of_int (Unicode.isdigit_of_isdigit hs) hn
    exact Int.natCast_nonneg k
  intro job hjob draw requirement location account hread v hv
  obtain ⟨-, hncpus, hnodes⟩ := h job hjob
  rw [getVcpuRequirement] at hread
  obtain ⟨account', -, hread⟩ := bind_eq_ok.1 hread
  split at hread
  · rename_i hsome
    obtain ⟨numNodes, -, hread⟩ := bind_eq_ok.1 hread
    obtain ⟨numCores, hcores, hread⟩ := bind_eq_ok.1 hread
    obtain ⟨loc, -, hread⟩ := bind_eq_ok.1 hread
    obtain rfl := Option.some.inj (Prod.mk.inj (Except.ok.inj hread)).1
    obtain rfl := List.eq_of_mem_replicate hv
    obtain ⟨s, rfl, hs⟩ := hncpus _ hsome
    rw [countOrOne, if_pos (Unicode.isdigit_of_isdigit hs)] at hcores
    exact hint hs hcores
  · rename_i nodes hsome _
    obtain ⟨numCores, hcores, hread⟩ := bind_eq_ok.1 hread
    obtain ⟨loc, -, hread⟩ := bind_eq_ok.1 hread
    obtain rfl := Option.some.inj (Prod.mk.inj (Except.ok.inj hread)).1
    obtain rfl := List.mem_singleton.1 hv
    obtain ⟨s, rfl, hs⟩ := hnodes _ hsome
    exact hint hs hcores
  · obtain ⟨loc, -, hread⟩ := bind_eq_ok.1 hread
    obtain rfl := Option.some.inj (Prod.mk.inj (Except.ok.inj hread)).1
    obtain rfl := List.mem_singleton.1 hv
    omega
  · cases (Prod.mk.inj (Except.ok.inj hread)).1

/-- Two jobs that share an allocation, one that needs another, and one that no flavour has the
cores for. -/
def threeAndNine : List (Job × ℕ) :=
  [(singleNodeJob "3", 0), (singleNodeJob "1", 0), (singleNodeJob "3", 0), (singleNodeJob "9", 0)]

theorem work_conserving_threeNodes :
    ∃ verdicts, List.Forall₂ (Judged {} 0 threeNodes
        (AList.singleton "default" [⟨[3, 1], none⟩, ⟨[3], none⟩])) threeAndNine verdicts ∧
      ∀ r, totalCores (AList.singleton "default" [⟨[3, 1], none⟩, ⟨[3], none⟩]) r =
        totalAdded {} 0 r threeAndNine verdicts :=
  work_conserving {} 0 threeAndNine threeNodes _ _
    (asksAtLeast_of_plainDigits (by decide)) rfl

/-- **Enough for all.** If the default resource has the cores that all jobs ask for together, and
its largest flavour those that each asks for on a node, then no job is turned down, unless its
account has the name of its location. -/
theorem all_served (cfg : Config) (numberOfWn : ℤ) (jobs : List (Job × ℕ))
    (crs crs' : CloudResources) (reqList : ReqList)
    (hjobs : AsksAtLeast cfg (jobs.map Prod.fst) 0)
    (hbudget : totalAsked cfg numberOfWn jobs ≤ budget crs "default")
    (hlargest : ∀ job ∈ jobs, ∀ read ∈ asked cfg numberOfWn job,
      (∀ v ∈ read.1, v ≤ (crs.object "default").largestVcpus) ∧
        some (ownResource crs read.2.2) ≠ read.2.1)
    (h : scheduleDrawn cfg numberOfWn jobs ∅ crs = .ok (reqList, crs')) :
    ∃ verdicts, List.Forall₂ (Judged cfg numberOfWn crs reqList) jobs verdicts ∧
      .turnedDown ∉ verdicts ∧
      ∀ r, totalCores reqList r = totalAdded cfg numberOfWn r jobs verdicts := by
  have hempty : ∀ r, totalCores ∅ r = 0 := fun _ ↦ rfl
  obtain ⟨verdicts, hall, htotal⟩ := judged_of_scheduleDrawn hjobs h
  simp only [hempty, zero_add] at htotal
  refine ⟨verdicts, hall, fun hturned ↦ ?_, htotal⟩
  have hsnd : (jobs.zip verdicts).map Prod.snd = verdicts :=
    List.map_snd_zip (Nat.le_of_eq hall.length_eq.symm)
  rw [← hsnd] at hturned
  obtain ⟨⟨job, _⟩, hzip, rfl⟩ := List.mem_map.1 hturned
  cases List.forall₂_zip hall hzip with
  | turnedDown hasked hown hdefault =>
    obtain ⟨hsmall, hlocation⟩ := hlargest job (List.of_mem_zip hzip).1 _ hasked
    have hfull := hdefault.resolve_right hlocation
    have hle : totalAdded cfg numberOfWn "default" jobs verdicts +
        coresAsked cfg numberOfWn job ≤ totalAsked cfg numberOfWn jobs :=
      totalAdded_add_le hjobs hall.length_eq hzip "default"
    rw [← htotal, coresAsked, hasked] at hle
    exact hfull ⟨hle.trans hbudget, fun v hv ↦ hsmall v (List.mem_of_mem_head? hv)⟩

theorem all_served_threeNodes :
    ∃ verdicts, List.Forall₂ (Judged {} 0 threeNodes
        (AList.singleton "default" [⟨[3, 1], none⟩, ⟨[3], none⟩])) (threeAndNine.take 3) verdicts ∧
      .turnedDown ∉ verdicts ∧
      ∀ r, totalCores (AList.singleton "default" [⟨[3, 1], none⟩, ⟨[3], none⟩]) r =
        totalAdded {} 0 r (threeAndNine.take 3) verdicts :=
  all_served {} 0 (threeAndNine.take 3) threeNodes _ _ (asksAtLeast_of_plainDigits (by decide))
    (by decide) (by decide) rfl

end Run

end DynamicTorque.JobScheduler
