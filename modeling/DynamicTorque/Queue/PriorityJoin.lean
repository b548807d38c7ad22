import DynamicTorque.Queue.Priorities

/-!
# The loop that joins jobs and priorities

The `for` loop of `prioritise_jobs` walks the idle jobs and keeps an index into the list of
priorities, which an inner `while` moves on. It is modelled here statement by statement, with the
index; `mergePriorities` is the same join on the part of the list from the index on.

* `mergeFrom_eq`: the loop never leaves the list, ends, and computes `mergePriorities`.
* `mergePriorities_of_pairwise_lt`: for numbers that ascend strictly, that join gives each job what
  is listed for its number.
* `mergeFrom_joined`: together, the loop is a join.
-/

open Python Atomic

namespace DynamicTorque

/-! ### The loop as it is written -/

/-- Computations that may raise, or run out of fuel. -/
abbrev Fueled (α : Type) := ExceptT PyError Option α

/-- `job_priorities[idx]`. -/
def entryAt (priorities : List JobPriority) (idx : ℕ) : Fueled JobPriority :=
  match priorities[idx]? with
  | some p => pure p
  | none => throw .indexError

/-- The inner `while`, for at most `fuel` evaluations of its condition. -/
def advance (priorities : List JobPriority) (number : ℤ) : ℕ → ℕ → Fueled ℕ
  | 0, _ => ExceptT.mk none
  | fuel + 1, idx => do
    let p ← entryAt priorities idx
    if number > p.jobId ∧ idx < priorities.length - 1 then
      advance priorities number fuel (idx + 1)
    else return idx

/-- The body of the `for` loop. The next index is `none` after a `break`. -/
def mergeJob (priorities : List JobPriority) (fuel : ℕ) (job : Job) (idx : ℕ) :
    Fueled (Job × Option ℕ) := do
  let number ← ExceptT.mk (some job.number)
  -- the log line reads the entry as well
  let _ ← entryAt priorities idx
  let idx ← advance priorities number fuel idx
  let p ← entryAt priorities idx
  if number = p.jobId then
    let job := { job with jobPriority := some p.priority }
    if idx + 1 ≥ priorities.length then return (job, none) else return (job, some (idx + 1))
  else if number > p.jobId ∧ idx = priorities.length - 1 then return (job, none)
  else if idx ≥ priorities.length then return (job, none)
  else return (job, some idx)

/-- The `for` loop from an index on: the jobs after it and how it ended, `none` if out of fuel. -/
def mergeFrom (priorities : List JobPriority) (fuel : ℕ) :
    List Job → ℕ → Option (List Job × Except PyError Unit)
  | [], _ => some ([], .ok ())
  | job :: jobs, idx =>
    match (mergeJob priorities fuel job idx).run with
    | none => none
    | some (.error e) => some (job :: jobs, .error e)
    | some (.ok (job, none)) => some (job :: jobs, .ok ())
    | some (.ok (job, some idx)) =>
      match mergeFrom priorities fuel jobs idx with
      | none => none
      | some (jobs, r) => some (job :: jobs, r)

/-! ### The index and the part of the list from it on -/

section

variable {priorities : List JobPriority} {p : JobPriority} {rest : List JobPriority}
  {number : ℤ} {fuel idx : ℕ}

theorem entryAt_of_drop (h : priorities.drop idx = p :: rest) :
    entryAt priorities idx = pure p := by
  have hget : priorities[idx]? = some p := by
    rw [← List.head?_drop, h, List.head?_cons]
  rw [entryAt, hget]

theorem drop_succ_of_drop (h : priorities.drop idx = p :: rest) :
    priorities.drop (idx + 1) = rest := by
  rw [← List.tail_drop, h, List.tail_cons]

theorem length_of_drop (h : priorities.drop idx = p :: rest) :
    priorities.length = idx + rest.length + 1 := by
  have hlength := congrArg List.length h
  rw [List.length_drop, List.length_cons] at hlength
  omega

/-- The inner loop ends at an index of the list, and skips what `skipBefore` skips. -/
theorem advance_eq (number : ℤ) (hidx : idx < priorities.length)
    (hfuel : priorities.length - idx ≤ fuel) :
    ∃ idx' p rest, advance priorities number fuel idx = pure idx' ∧
      priorities.drop idx' = p :: rest ∧
      skipBefore number (priorities.drop idx) = p :: rest := by
  induction fuel generalizing idx with
  | zero => omega
  | succ fuel ih =>
    rcases hdrop : priorities.drop idx with - | ⟨p, rest⟩
    · exact absurd (List.drop_eq_nil_iff.1 hdrop) (by omega)
    · have hlength := length_of_drop hdrop
      rw [advance, entryAt_of_drop hdrop, pure_bind]
      rcases rest with - | ⟨q, rest⟩
      · -- the last entry is never skipped
        have hlast : ¬(number > p.jobId ∧ idx < priorities.length - 1) := by
          simp only [List.length_nil] at hlength
          omega
        rw [if_neg hlast]
        exact ⟨idx, p, [], rfl, hdrop, rfl⟩
      · have hinside : idx < priorities.length - 1 := by
          simp only [List.length_cons] at hlength
          omega
        rw [skipBefore]
        by_cases hgt : number > p.jobId
        · rw [if_pos ⟨hgt, hinside⟩, if_pos hgt, ← drop_succ_of_drop hdrop]
          exact ih (by omega) (by omega)
        · rw [if_neg fun h ↦ hgt h.1, if_neg hgt]
          exact ⟨idx, p, q :: rest, rfl, hdrop, rfl⟩

/-- The body of the `for` loop, in terms of the part of the list from the index on. -/
theorem mergeJob_eq {job : Job} (hnumber : job.number = .ok number)
    (hidx : idx < priorities.length) (hfuel : priorities.length ≤ fuel) :
    ∃ idx' p rest, priorities.drop idx' = p :: rest ∧
      skipBefore number (priorities.drop idx) = p :: rest ∧
      mergeJob priorities fuel job idx = pure
        (if number = p.jobId then
          ({ job with jobPriority := some p.priority }, if rest = [] then none else some (idx' + 1))
        else (job, if number > p.jobId ∧ rest = [] then none else some idx')) := by
  obtain ⟨first, others, hfirst⟩ : ∃ first others, priorities.drop idx = first :: others :=
    List.exists_cons_of_length_pos (by rw [List.length_drop]; omega)
  obtain ⟨idx', p, rest, hadvance, hdrop, hskip⟩ :=
    advance_eq number hidx (show priorities.length - idx ≤ fuel by omega)
  refine ⟨idx', p, rest, hdrop, hskip, ?_⟩
  have hlength := length_of_drop hdrop
  have hend : idx' + 1 ≥ priorities.length ↔ rest = [] := by
    rw [← List.length_eq_zero_iff]
    omega
  have hlast : idx' = priorities.length - 1 ↔ rest = [] := by
    rw [← List.length_eq_zero_iff]
    omega
  have hinside : ¬idx' ≥ priorities.length := by omega
  have hread : (ExceptT.mk (some job.number) : Fueled ℤ) = pure number := by
    rw [hnumber]
    rfl
  rw [mergeJob, hread, pure_bind, entryAt_of_drop hfirst, pure_bind, hadvance, pure_bind,
    entryAt_of_drop hdrop, pure_bind]
  simp only [hend, hlast, hinside, if_false]
  split_ifs <;> rfl

theorem mergeFrom_of_break {job job' : Job} (jobs : List Job)
    (h : mergeJob priorities fuel job idx = pure (job', none)) :
    mergeFrom priorities fuel (job :: jobs) idx = some (job' :: jobs, .ok ()) := by
  rw [mergeFrom, h]
  rfl

theorem mergeFrom_of_continue {job job' : Job} {jobs merged : List Job} {idx' : ℕ}
    {r : Except PyError Unit} (h : mergeJob priorities fuel job idx = pure (job', some idx'))
    (hrest : mergeFrom priorities fuel jobs idx' = some (merged, r)) :
    mergeFrom priorities fuel (job :: jobs) idx = some (job' :: merged, r) := by
  have hrun : (mergeJob priorities fuel job idx).run = some (.ok (job', some idx')) := by
    rw [h]
    rfl
  simp only [mergeFrom, hrun, hrest]

/-- **The loop of the source is the join on what is left of the list.** It ends, and it does not
leave the list: the only exception is that of an id without a number. -/
theorem mergeFrom_eq (hfuel : priorities.length ≤ fuel) (jobs : List Job)
    (hidx : idx < priorities.length) :
    mergeFrom priorities fuel jobs idx = some (mergePriorities jobs (priorities.drop idx)) := by
  induction jobs generalizing idx with
  | nil => rfl
  | cons job jobs ih =>
    rcases hnumber : job.number with e | number
    · rw [mergeFrom, mergePriorities, mergeJob, hnumber]
      rfl
    · obtain ⟨idx', p, rest, hdrop, hskip, hjob⟩ := mergeJob_eq hnumber hidx hfuel
      have hlength := length_of_drop hdrop
      simp only [mergePriorities, hnumber, hskip]
      split_ifs at hjob ⊢ with hmatch hnil hlast
      · exact mergeFrom_of_break jobs hjob
      · -- the entry is used up
        have hrest := List.length_pos_iff.2 hnil
        have hinside : idx' + 1 < priorities.length := by omega
        have hnext := ih hinside
        rw [drop_succ_of_drop hdrop] at hnext
        exact mergeFrom_of_continue hjob hnext
      · exact mergeFrom_of_break jobs hjob
      · have hinside : idx' < priorities.length := by omega
        have hnext := ih hinside
        rw [hdrop] at hnext
        exact mergeFrom_of_continue hjob hnext

end

/-! ### The join of ascending lists -/

/-- The priority that is listed for a number. -/
def listedPriority (priorities : List JobPriority) (number : ℤ) : Option ℤ :=
  (priorities.find? fun p ↦ p.jobId = number).map JobPriority.priority

/-- A job with what is listed for its number. -/
def Job.withPriority (priorities : List JobPriority) (job : Job) : Job :=
  match job.number with
  | .error _ => job
  | .ok number =>
    match listedPriority priorities number with
    | none => job
    | some priority => { job with jobPriority := some priority }

section

variable {priorities before left rest : List JobPriority} {p : JobPriority} {number : ℤ}
  {numbers : List ℤ} {jobs : List Job} {job : Job}

/-- Under strictly ascending numbers, what is listed for a number is all that is. -/
theorem listedPriority_eq_some (h : priorities.Pairwise fun p q ↦ p.jobId < q.jobId)
    (number priority : ℤ) :
    listedPriority priorities number = some priority ↔ ⟨number, priority⟩ ∈ priorities := by
  induction priorities with
  | nil => simp [listedPriority]
  | cons p priorities ih =>
    obtain ⟨hp, htail⟩ := List.pairwise_cons.1 h
    rw [List.mem_cons, ← ih htail]
    rcases eq_or_ne p.jobId number with rfl | hne
    · have hothers : listedPriority priorities p.jobId = none := by
        rw [listedPriority, Option.map_eq_none_iff, List.find?_eq_none]
        intro q hq
        have hlt := hp q hq
        simp only [decide_eq_true_eq]
        omega
      rw [hothers, listedPriority, List.find?_cons_of_pos (by simp)]
      rcases p with ⟨id, own⟩
      simp [eq_comm]
    · rw [listedPriority, List.find?_cons_of_neg (by simpa using hne), ← listedPriority]
      refine ⟨.inr, fun hmem ↦ hmem.resolve_left ?_⟩
      rintro rfl
      exact hne rfl

theorem listedPriority_append (h : ∀ p ∈ before, p.jobId ≠ number) (left : List JobPriority) :
    listedPriority (before ++ left) number = listedPriority left number := by
  have hnone : before.find? (fun p ↦ p.jobId = number) = none :=
    List.find?_eq_none.2 fun p hp ↦ by simpa using h p hp
  rw [listedPriority, List.find?_append, hnone, Option.none_or, listedPriority]

theorem listedPriority_of_forall (h : ∀ p ∈ priorities, p.jobId ≠ number) :
    listedPriority priorities number = none := by
  rw [← List.append_nil priorities, listedPriority_append h]
  rfl

theorem withPriority_congr (h : ∀ number, job.number = .ok number →
    listedPriority priorities number = listedPriority left number) :
    job.withPriority priorities = job.withPriority left := by
  rw [Job.withPriority, Job.withPriority]
  rcases hnumber : job.number with e | number
  · rfl
  · simp only [h number hnumber]

theorem withPriority_of_none (h : ∀ number, job.number = .ok number →
    listedPriority priorities number = none) : job.withPriority priorities = job := by
  have hempty : job.withPriority priorities = job.withPriority [] := withPriority_congr h
  rw [hempty, Job.withPriority]
  rcases job.number with e | number <;> rfl

theorem withPriority_of_match (hnumber : job.number = .ok number) (h : number = p.jobId) :
    job.withPriority (p :: rest) = { job with jobPriority := some p.priority } := by
  simp only [Job.withPriority, hnumber, listedPriority]
  rw [List.find?_cons_of_pos (by simpa using h.symm)]
  rfl

theorem withPriority_of_ne (hnumber : job.number = .ok number)
    (h : ∀ p ∈ priorities, p.jobId ≠ number) : job.withPriority priorities = job := by
  refine withPriority_of_none fun n hn ↦ ?_
  obtain rfl := Except.ok.inj (hnumber.symm.trans hn)
  exact listedPriority_of_forall h

/-- What `skipBefore` skips is smaller than the number, and it stops at an entry that is not, or at
the last one. -/
theorem skipBefore_eq_cons (number : ℤ) (hleft : left ≠ []) :
    ∃ before p rest, left = before ++ p :: rest ∧ skipBefore number left = p :: rest ∧
      (∀ q ∈ before, q.jobId < number) ∧ (number ≤ p.jobId ∨ rest = []) := by
  fun_induction skipBefore number left with
  | case1 => exact absurd rfl hleft
  | case2 p => exact ⟨[], p, [], rfl, rfl, List.forall_mem_nil _, .inr rfl⟩
  | case3 p q rest hgt ih =>
    obtain ⟨before, p', rest', heq, hskip, hbefore, hstop⟩ := ih (List.cons_ne_nil _ _)
    exact ⟨p :: before, p', rest', congrArg _ heq, hskip, List.forall_mem_cons.2 ⟨hgt, hbefore⟩,
      hstop⟩
  | case4 p q rest hle =>
    exact ⟨[], p, q :: rest, rfl, rfl, List.forall_mem_nil _, .inl (not_lt.1 hle)⟩

theorem Numbered.lt_of_mem (hjobs : Numbered numbers jobs) (h : ∀ m ∈ numbers, number < m)
    (hjob : job ∈ jobs) {n : ℤ} (hn : job.number = .ok n) : number < n := by
  have hmem : Except.ok n ∈ numbers.map (.ok : ℤ → Except PyError ℤ) := by
    rw [← hjobs.map_number, ← hn]
    exact List.mem_map_of_mem hjob
  obtain ⟨m, hm, heq⟩ := List.mem_map.1 hmem
  exact Except.ok.inj heq ▸ h m hm

theorem Numbered.of_mem (hjobs : Numbered numbers jobs) (hjob : job ∈ jobs) :
    ∃ number, job.number = .ok number ∧ job.jobPriority = none := by
  induction hjobs with
  | nil => exact absurd hjob List.not_mem_nil
  | cons hfirst _ ih =>
    rcases List.mem_cons.1 hjob with rfl | hjob
    · exact ⟨_, hfirst⟩
    · exact ih hjob

/-- Entries up to a number are of no use to the jobs after it. -/
theorem map_withPriority_append (hjobs : Numbered numbers jobs) (h : ∀ m ∈ numbers, number < m)
    (hbefore : ∀ q ∈ before, q.jobId ≤ number) (left : List JobPriority) :
    jobs.map (Job.withPriority (before ++ left)) = jobs.map (Job.withPriority left) := by
  refine List.map_congr_left fun job hjob ↦ withPriority_congr fun n hn ↦
    listedPriority_append (fun q hq ↦ ?_) left
  have hlt := hjobs.lt_of_mem h hjob hn
  have hle := hbefore q hq
  omega

theorem map_withPriority_nil (jobs : List Job) : jobs.map (Job.withPriority []) = jobs :=
  List.map_id'' (fun _ ↦ withPriority_of_none fun _ _ ↦ rfl) jobs

/-- **For numbers that ascend strictly, the join gives each job what is listed for its number.** -/
theorem mergePriorities_of_pairwise_lt (hjobs : Numbered numbers jobs)
    (hnumbers : numbers.Pairwise (· < ·)) (hne : left ≠ [])
    (hleft : left.Pairwise fun p q ↦ p.jobId < q.jobId) :
    mergePriorities jobs left = (jobs.map (Job.withPriority left), .ok ()) := by
  induction hjobs generalizing left with
  | nil => rfl
  | @cons number job numbers jobs hjob hjobs ih =>
    obtain ⟨hlater, hnumbers⟩ := List.pairwise_cons.1 hnumbers
    obtain ⟨before, p, rest, rfl, hskip, hbefore, hstop⟩ :=
      skipBefore_eq_cons number hne
    obtain ⟨-, hstill, -⟩ := List.pairwise_append.1 hleft
    obtain ⟨hp, hrest⟩ := List.pairwise_cons.1 hstill
    have hhead : job.withPriority (before ++ p :: rest) = job.withPriority (p :: rest) := by
      refine withPriority_congr fun n hn ↦ listedPriority_append (fun q hq ↦ ?_) _
      obtain rfl := Except.ok.inj (hjob.1.symm.trans hn)
      exact (hbefore q hq).ne
    -- once the entry `p` is no larger than the number, the jobs that follow need only the rest
    have htail : p.jobId ≤ number → jobs.map (Job.withPriority (before ++ p :: rest)) =
        jobs.map (Job.withPriority rest) := by
      intro hle
      rw [List.append_cons]
      refine map_withPriority_append hjobs hlater (fun q hq ↦ ?_) rest
      rcases List.mem_append.1 hq with hq | hq
      · exact (hbefore q hq).le
      · exact List.mem_singleton.1 hq ▸ hle
    simp only [mergePriorities, hjob.1, hskip]
    rw [List.map_cons, hhead]
    split_ifs with hmatch hnil hlast
    · subst hnil
      rw [htail hmatch.ge, map_withPriority_nil, withPriority_of_match hjob.1 hmatch]
    · rw [ih hnumbers hnil hrest, htail hmatch.ge, withPriority_of_match hjob.1 hmatch]
    · obtain ⟨hgt, rfl⟩ := hlast
      rw [htail hgt.le, map_withPriority_nil, withPriority_of_ne hjob.1]
      exact List.forall_mem_singleton.2 (Ne.symm hmatch)
    · -- the entry is larger than the number, and so are those after it
      have hlt : number < p.jobId := by
        rcases hstop with hle | hnil
        · omega
        · have hnot : ¬number > p.jobId := fun hgt ↦ hlast ⟨hgt, hnil⟩
          omega
      rw [ih hnumbers (List.cons_ne_nil _ _) hstill, withPriority_of_ne hjob.1,
        map_withPriority_append hjobs hlater fun q hq ↦ (hbefore q hq).le]
      refine List.forall_mem_cons.2 ⟨hlt.ne', fun q hq ↦ ?_⟩
      have hq := hp q hq
      omega

end

/-- The job has got the priorities that are listed for its number, and nothing else. -/
def Joined (priorities : List JobPriority) (job job' : Job) : Prop :=
  ∃ number, job.number = .ok number ∧
    job' = { job with jobPriority := job'.jobPriority } ∧
    ∀ priority, job'.jobPriority = some priority ↔ ⟨number, priority⟩ ∈ priorities

theorem joined_withPriority {priorities : List JobPriority} {job : Job} {number : ℤ}
    (hpriorities : priorities.Pairwise fun p q ↦ p.jobId < q.jobId)
    (hnumber : job.number = .ok number) (hnone : job.jobPriority = none) :
    Joined priorities job (job.withPriority priorities) := by
  refine ⟨number, hnumber, ?_, fun priority ↦ ?_⟩
  · simp only [Job.withPriority, hnumber]
    rcases listedPriority priorities number with - | own <;> rfl
  · rw [← listedPriority_eq_some hpriorities]
    simp only [Job.withPriority, hnumber]
    rcases listedPriority priorities number with - | own
    · simp [hnone]
    · rfl

/-- **The loop is a join.** Over jobs and entries whose numbers ascend strictly it ends without
leaving the list, and it gives each job the priority that is listed for its number. -/
theorem mergeFrom_joined {priorities : List JobPriority} {numbers : List ℤ} {jobs : List Job}
    (hne : priorities ≠ []) (hpriorities : priorities.Pairwise fun p q ↦ p.jobId < q.jobId)
    (hjobs : Numbered numbers jobs) (hnumbers : numbers.Pairwise (· < ·)) :
    ∃ merged, (∀ fuel ≥ priorities.length,
        mergeFrom priorities fuel jobs 0 = some (merged, .ok ())) ∧
      List.Forall₂ (Joined priorities) jobs merged := by
  refine ⟨jobs.map (Job.withPriority priorities), fun fuel hfuel ↦ ?_, ?_⟩
  · rw [mergeFrom_eq hfuel jobs (List.length_pos_iff.2 hne), List.drop_zero,
      mergePriorities_of_pairwise_lt hjobs hnumbers hne hpriorities]
  · rw [List.forall₂_map_right_iff, List.forall₂_same]
    intro job hjob
    obtain ⟨number, hnumber, hnone⟩ := hjobs.of_mem hjob
    exact joined_withPriority hpriorities hnumber hnone

/-- Three idle jobs. -/
def threeIdleJobs : List Job :=
  [{ jobId := "3.server" }, { jobId := "5[].server" }, { jobId := "8.server" }]

/-- Entries for one of them, and for jobs that are gone. -/
def threeEntries : List JobPriority :=
  [⟨1, 10⟩, ⟨5, 70⟩, ⟨6, 20⟩]

theorem numbered_threeIdleJobs : Numbered [3, 5, 8] threeIdleJobs :=
  .cons ⟨by decide +kernel, rfl⟩
    (.cons ⟨by decide +kernel, rfl⟩ (.cons ⟨by decide +kernel, rfl⟩ .nil))

theorem mergeFrom_joined_three :
    ∃ merged, (∀ fuel ≥ threeEntries.length,
        mergeFrom threeEntries fuel threeIdleJobs 0 = some (merged, .ok ())) ∧
      List.Forall₂ (Joined threeEntries) threeIdleJobs merged :=
  mergeFrom_joined (by decide) (by decide) numbered_threeIdleJobs (by decide)

end DynamicTorque
