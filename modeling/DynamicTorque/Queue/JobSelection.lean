import DynamicTorque.Model.LocalCommands
import Mathlib.Data.List.Induction

/-!
# The jobs that qstat reports

`_qstat_to_job_list` filters, counts and truncates in one loop, and sorts the idle jobs after it.

* `foldlM_collectJob`: the loop variables after any list of records.
* `readJobs_eq`: the two lists and the total.
* `job_selection`: the total counts every queued record, the idle jobs are the first of them in
  stable order of their numbers, and no record is used twice.
-/

open Python

namespace DynamicTorque

/-! ### Records -/

/-- A record in state `Q` in a monitored queue. -/
def RawJob.Queued (cfg : Config) (job : RawJob) : Prop :=
  job.jobState = some "Q" ∧
    (cfg.torqueQueueToMonitor = [] ∨ ∃ queue ∈ job.queue, queue ∈ cfg.torqueQueueToMonitor)

instance (cfg : Config) (job : RawJob) : Decidable (job.Queued cfg) :=
  inferInstanceAs (Decidable (_ ∧ (_ ∨ ∃ queue ∈ job.queue, queue ∈ cfg.torqueQueueToMonitor)))

/-- A record with a state, a queue and an id with a number. -/
structure RawJob.Numbered (number : RawJob → ℤ) (job : RawJob) : Prop where
  jobState : job.jobState.isSome
  queue : job.queue.isSome
  jobId : job.jobId.isSome
  number : (job.toJob none).number = .ok (number job)

/-- The records that go on the list of idle jobs: all that are queued, or the first ones. -/
def selectIdle (cfg : Config) (rawJobs : List RawJob) : List RawJob :=
  if cfg.maxNumberOfJobs < 1 then rawJobs.filter fun job ↦ job.Queued cfg
  else (rawJobs.filter fun job ↦ job.Queued cfg).take cfg.maxNumberOfJobs.toNat

/-- The records in state `R`. -/
def selectRunning (rawJobs : List RawJob) : List RawJob :=
  rawJobs.filter fun job ↦ job.jobState = some "R"

/-! ### The loop -/

section Loop

variable {cfg : Config} {rawJobs : List RawJob} {job : RawJob} {number : RawJob → ℤ}

/-- The loop variables after some records. -/
def jobLists (cfg : Config) (rawJobs : List RawJob) : JobLists where
  totalNumberOfIdleJobs := (rawJobs.filter fun job ↦ job.Queued cfg).length
  numOfJobs := (selectIdle cfg rawJobs).length
  idleJobs := selectIdle cfg rawJobs
  runningJobs := selectRunning rawJobs

/-- The limit test: there is room while the records selected are not all that may be. -/
theorem selectIdle_concat (h : job.Queued cfg) : selectIdle cfg (rawJobs ++ [job]) =
    selectIdle cfg rawJobs ++
      if cfg.maxNumberOfJobs < 1 ∨ (cfg.maxNumberOfJobs > 0 ∧
        ((selectIdle cfg rawJobs).length : ℤ) < cfg.maxNumberOfJobs) then [job] else [] := by
  have hqueued : (rawJobs ++ [job]).filter (fun job ↦ job.Queued cfg) =
      (rawJobs.filter fun job ↦ job.Queued cfg) ++ [job] := by
    rw [List.filter_append]
    simp [h]
  rw [selectIdle, selectIdle, hqueued]
  by_cases hall : cfg.maxNumberOfJobs < 1
  · simp only [if_pos hall, if_pos (Or.inl hall)]
  · simp only [if_neg hall]
    generalize rawJobs.filter (fun job ↦ decide (job.Queued cfg)) = queued
    obtain ⟨m, hm⟩ : ∃ m : ℕ, cfg.maxNumberOfJobs = m := ⟨cfg.maxNumberOfJobs.toNat, by omega⟩
    rw [hm] at hall ⊢
    rw [Int.toNat_natCast, List.take_append, List.length_take]
    by_cases hroom : queued.length < m
    · have hone : [job].length ≤ m - queued.length := by
        rw [List.length_singleton]
        omega
      rw [if_pos (.inr ⟨by omega, by omega⟩), List.take_of_length_le hone]
    · have hfull : m - queued.length = 0 := by omega
      rw [if_neg (by omega), hfull, List.take_zero]

theorem filter_queued_concat_of_not (h : ¬job.Queued cfg) :
    (rawJobs ++ [job]).filter (fun job ↦ job.Queued cfg) =
      rawJobs.filter fun job ↦ job.Queued cfg := by
  rw [List.filter_append]
  simp [h]

theorem selectIdle_concat_of_not (h : ¬job.Queued cfg) :
    selectIdle cfg (rawJobs ++ [job]) = selectIdle cfg rawJobs := by
  rw [selectIdle, selectIdle, filter_queued_concat_of_not h]

theorem selectRunning_concat : selectRunning (rawJobs ++ [job]) =
    selectRunning rawJobs ++ if job.jobState = some "R" then [job] else [] := by
  rw [selectRunning, List.filter_append, ← selectRunning]
  by_cases h : job.jobState = some "R"
  · simp [h]
  · simp [h]

/-- A queued record is not running. -/
theorem not_running_of_queued (h : job.Queued cfg) : ¬job.jobState = some "R" := by
  rw [h.1]
  decide

/-- The test for the queue, where the key is there. -/
theorem monitored_eq (hstate : job.jobState = some "Q") (hqueue : job.queue.isSome) :
    job.monitored cfg = .ok (decide (job.Queued cfg)) := by
  obtain ⟨queue, hqueue⟩ := Option.isSome_iff_exists.1 hqueue
  rw [RawJob.monitored]
  by_cases hempty : cfg.torqueQueueToMonitor = []
  · rw [if_pos (by rw [hempty]; rfl)]
    exact congrArg Except.ok (decide_eq_true ⟨hstate, .inl hempty⟩).symm
  · rw [if_neg (by rwa [List.length_eq_zero_iff]), hqueue]
    refine congrArg Except.ok ?_
    rw [Bool.eq_iff_iff, List.contains_iff_mem, decide_eq_true_iff]
    constructor
    · intro hmem
      exact ⟨hstate, .inr ⟨queue, hqueue, hmem⟩⟩
    · intro hqueued
      obtain ⟨found, hfound, hmem⟩ := hqueued.2.resolve_left hempty
      exact Option.some.inj (hqueue.symm.trans hfound) ▸ hmem

/-- **The loop body.** -/
theorem collectJob_eq (hstate : job.jobState.isSome) (hqueue : job.queue.isSome)
    (lists : JobLists) :
    collectJob cfg lists job = .ok
      (if job.Queued cfg then
        if cfg.maxNumberOfJobs < 1 ∨
            (cfg.maxNumberOfJobs > 0 ∧ lists.numOfJobs < cfg.maxNumberOfJobs) then
          { lists with
            totalNumberOfIdleJobs := lists.totalNumberOfIdleJobs + 1
            idleJobs := lists.idleJobs ++ [job]
            numOfJobs := lists.numOfJobs + 1 }
        else { lists with totalNumberOfIdleJobs := lists.totalNumberOfIdleJobs + 1 }
      else if job.jobState = some "R" then
        { lists with runningJobs := lists.runningJobs ++ [job] }
      else lists) := by
  obtain ⟨jobState, hstate⟩ := Option.isSome_iff_exists.1 hstate
  simp only [collectJob, hstate]
  by_cases hq : jobState = "Q"
  · subst hq
    rw [if_pos rfl, monitored_eq hstate hqueue]
    by_cases hqueued : job.Queued cfg
    · show (if decide (job.Queued cfg) = true then _ else _) = _
      rw [if_pos (decide_eq_true hqueued), if_pos hqueued]
      split
      · rfl
      · rfl
    · show (if decide (job.Queued cfg) = true then _ else _) = _
      rw [if_neg (by simpa using hqueued), if_neg hqueued, if_neg (by decide), if_neg (by decide)]
      rfl
  · have hqueued : ¬job.Queued cfg := fun hqueued ↦
      hq (Option.some.inj (hstate.symm.trans hqueued.1))
    rw [if_neg hq, if_neg hqueued]
    by_cases hr : jobState = "R"
    · subst hr
      rfl
    · have hstate : ¬some jobState = some "R" := fun hr' ↦ hr (Option.some.inj hr')
      show (if jobState = "R" then _ else _) = _
      rw [if_neg hr, if_neg hstate]
      rfl

theorem collectJob_jobLists (hstate : job.jobState.isSome) (hqueue : job.queue.isSome) :
    collectJob cfg (jobLists cfg rawJobs) job = .ok (jobLists cfg (rawJobs ++ [job])) := by
  rw [collectJob_eq hstate hqueue]
  refine congrArg Except.ok ?_
  by_cases hqueued : job.Queued cfg
  · have htotal : (((rawJobs ++ [job]).filter fun job ↦ job.Queued cfg).length : ℤ) =
        (rawJobs.filter fun job ↦ job.Queued cfg).length + 1 := by
      rw [List.filter_append]
      simp [hqueued]
    have hrunning : selectRunning (rawJobs ++ [job]) = selectRunning rawJobs := by
      rw [selectRunning_concat, if_neg (not_running_of_queued hqueued), List.append_nil]
    by_cases hroom : cfg.maxNumberOfJobs < 1 ∨ (cfg.maxNumberOfJobs > 0 ∧
        (jobLists cfg rawJobs).numOfJobs < cfg.maxNumberOfJobs)
    · have hidle : selectIdle cfg (rawJobs ++ [job]) = selectIdle cfg rawJobs ++ [job] :=
        (selectIdle_concat hqueued).trans (congrArg _ (if_pos hroom))
      rw [if_pos hqueued, if_pos hroom]
      simp only [jobLists, hidle, htotal, hrunning, List.length_append]
      rfl
    · have hidle : selectIdle cfg (rawJobs ++ [job]) = selectIdle cfg rawJobs :=
        (selectIdle_concat hqueued).trans
          ((congrArg _ (if_neg hroom)).trans (List.append_nil _))
      rw [if_pos hqueued, if_neg hroom]
      simp only [jobLists, hidle, htotal, hrunning]
  · rw [if_neg hqueued]
    simp only [jobLists, selectIdle_concat_of_not hqueued, filter_queued_concat_of_not hqueued,
      selectRunning_concat]
    split
    · rfl
    · simp

/-- **The loop variables after any records.** -/
theorem foldlM_collectJob (h : ∀ job ∈ rawJobs, job.Numbered number) :
    rawJobs.foldlM (collectJob cfg) {} = .ok (jobLists cfg rawJobs) := by
  induction rawJobs using List.reverseRecOn with
  | nil =>
    refine congrArg Except.ok ?_
    simp [jobLists, selectIdle, selectRunning]
  | append_singleton rawJobs job ih =>
    rw [List.forall_mem_append] at h
    have hjob := h.2 job (List.mem_singleton_self _)
    rw [List.foldlM_append, ih h.1]
    refine bind_eq_ok.2 ⟨_, rfl, ?_⟩
    rw [List.foldlM_cons, collectJob_jobLists hjob.jobState hjob.queue]
    rfl

end Loop

/-! ### The lists -/

section Lists

variable {cfg : Config} {rawJobs : List RawJob} {job : RawJob} {number : RawJob → ℤ}

theorem selectIdle_sublist :
    (selectIdle cfg rawJobs).Sublist (rawJobs.filter fun job ↦ job.Queued cfg) := by
  rw [selectIdle]
  split
  · exact List.Sublist.refl _
  · exact List.take_sublist _ _

theorem keyed_eq (h : job.Numbered number) :
    job.keyed = .ok (number job, job.toJob (some (-1))) := by
  obtain ⟨jobId, hjobId⟩ := Option.isSome_iff_exists.1 h.jobId
  simp only [RawJob.keyed, hjobId]
  exact bind_eq_ok.2 ⟨number job, h.number, rfl⟩

/-- **The result**, before the exception handler. -/
theorem readJobs_eq (h : ∀ job ∈ rawJobs, job.Numbered number) :
    readJobs cfg (.root rawJobs) =
      .ok ((rawJobs.filter fun job ↦ job.Queued cfg).length,
        (sortByKey number (selectIdle cfg rawJobs)).map fun job ↦ job.toJob (some (-1)),
        (selectRunning rawJobs).map fun job ↦ job.toJob none) := by
  have hkeyed : (selectIdle cfg rawJobs).mapM RawJob.keyed =
      .ok ((selectIdle cfg rawJobs).map fun job ↦ (number job, job.toJob (some (-1)))) := by
    rw [mapM_eq_ok, List.forall₂_map_right_iff, List.forall₂_same]
    exact fun job hjob ↦
      keyed_eq (h job (List.mem_of_mem_filter (selectIdle_sublist.mem hjob)))
  have hsort : sortByKey Prod.fst
      ((selectIdle cfg rawJobs).map fun job ↦ (number job, job.toJob (some (-1)))) =
      (sortByKey number (selectIdle cfg rawJobs)).map fun job ↦
        (number job, job.toJob (some (-1))) :=
    (List.map_insertionSort (fun a b ↦ number a ≤ number b) (fun a b : ℤ × Job ↦ a.1 ≤ b.1)
      _ _ fun _ _ _ _ ↦ Iff.rfl).symm
  refine bind_eq_ok.2 ⟨rawJobs, rfl, bind_eq_ok.2 ⟨_, foldlM_collectJob h, ?_⟩⟩
  refine bind_eq_ok.2 ⟨_, hkeyed, ?_⟩
  rw [hsort, List.map_map]
  rfl

/-- The two lists use different records. -/
theorem subperm_of_perm {idle : List RawJob} (h : idle.Perm (selectIdle cfg rawJobs)) :
    (idle ++ selectRunning rawJobs).Subperm rawJobs := by
  have hidle : idle.Subperm (rawJobs.filter fun job ↦ !decide (job.jobState = some "R")) := by
    refine h.subperm.trans (selectIdle_sublist.trans ?_).subperm
    refine List.monotone_filter_right rawJobs fun job hjob ↦ ?_
    simpa using not_running_of_queued (of_decide_eq_true hjob)
  have hboth := (List.subperm_append_left (selectRunning rawJobs)).2 hidle
  exact (List.perm_append_comm.subperm.trans hboth).trans
    (List.filter_append_perm (fun job : RawJob ↦ decide (job.jobState = some "R")) rawJobs).subperm

end Lists

/-- **The jobs that qstat reports.** If every record has a state, a queue and a number, the total is
the number of records that are queued in a monitored queue; the idle jobs are the first of these,
as many as the limit allows, in stable order of their numbers; the running jobs are the records in
state `R` in order; and every record is used at most once. -/
theorem job_selection (cfg : Config) (rawJobs : List RawJob) (number : RawJob → ℤ)
    (h : ∀ job ∈ rawJobs, job.Numbered number) :
    ∃ idle, qstatToJobList cfg (.root rawJobs) =
        (((rawJobs.filter fun job ↦ job.Queued cfg).length : ℤ),
          idle.map fun job ↦ job.toJob (some (-1)),
          (selectRunning rawJobs).map fun job ↦ job.toJob none) ∧
      idle.Perm (selectIdle cfg rawJobs) ∧
      idle.Pairwise (fun a b ↦ number a ≤ number b) ∧
      (∀ k, idle.filter (fun job ↦ number job = k) =
        (selectIdle cfg rawJobs).filter fun job ↦ number job = k) ∧
      (∀ job ∈ idle, job ∉ selectRunning rawJobs) ∧
      (idle ++ selectRunning rawJobs).Subperm rawJobs := by
  have hperm := sortByKey_perm number (selectIdle cfg rawJobs)
  refine ⟨sortByKey number (selectIdle cfg rawJobs), ?_, hperm, pairwise_sortByKey _ _,
    filter_sortByKey _ _, fun job hidle hrunning ↦ ?_, subperm_of_perm hperm⟩
  · rw [qstatToJobList, readJobs_eq h]
  · have hqueued := List.mem_filter.1 (selectIdle_sublist.mem (hperm.mem_iff.1 hidle))
    exact not_running_of_queued (of_decide_eq_true hqueued.2)
      (of_decide_eq_true (List.mem_filter.1 hrunning).2)

/-- Three queued jobs and a running one. -/
def fourJobs : List RawJob :=
  [{ jobId := "9.server", jobState := "Q", queue := "batch" },
    { jobId := "8.server", jobState := "R", queue := "batch" },
    { jobId := "7.server", jobState := "Q", queue := "batch" },
    { jobId := "5.server", jobState := "Q", queue := "long" }]

/-- Their numbers. -/
def fourNumbers (job : RawJob) : ℤ :=
  digitsValue ((job.jobId.getD "").toList.take 1)

/-- With a limit of two, the first two of the three queued jobs are listed, the second one first. -/
theorem job_selection_four :
    ∃ idle : List RawJob,
      qstatToJobList { torqueQueueToMonitor := ["batch", "long"], maxNumberOfJobs := 2 }
          (.root fourJobs) = (3, idle.map fun job ↦ job.toJob (some (-1)),
            [{ jobId := "8.server", jobState := "R", queue := "batch" }]) ∧
      idle.Perm [{ jobId := "9.server", jobState := "Q", queue := "batch" },
        { jobId := "7.server", jobState := "Q", queue := "batch" }] ∧
      idle.Pairwise (fun a b ↦ fourNumbers a ≤ fourNumbers b) := by
  have hnumbered : ∀ job ∈ fourJobs, job.Numbered fourNumbers := by
    simp only [fourJobs, List.forall_mem_cons]
    refine ⟨⟨rfl, rfl, rfl, ?_⟩, ⟨rfl, rfl, rfl, ?_⟩, ⟨rfl, rfl, rfl, ?_⟩, ⟨rfl, rfl, rfl, ?_⟩,
      fun _ h ↦ absurd h List.not_mem_nil⟩ <;> decide +kernel
  obtain ⟨idle, hlists, hperm, hsorted, -⟩ := job_selection
    { torqueQueueToMonitor := ["batch", "long"], maxNumberOfJobs := 2 } fourJobs fourNumbers
    hnumbered
  exact ⟨idle, hlists, hperm, hsorted⟩

end DynamicTorque
