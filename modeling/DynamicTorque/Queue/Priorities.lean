import Mathlib.Data.List.Count
import DynamicTorque.LifeCycle.Steps
import DynamicTorque.Queue.JobIds
import DynamicTorque.Scheduler.Packing

/-!
# Priorities of idle jobs

`prioritise_jobs` joins two sorted lists: the idle jobs that `_qstat_to_job_list` returns, by
number, and the priorities that `_get_job_priorities` returns, by number as well. A job that finds
no entry of its own keeps no `job_priority`: the default that the parser sets goes under the name
`Priority`. The sort that follows reads `job_priority` of every job.

* `mergePriorities_of_sublist`, `sublist_of_mergePriorities`: the join gives every job a priority
  exactly if the numbers of the jobs are a sublist of those of the entries.
* `prioritised_iff`: so the queue is prioritised exactly if every number is listed at least as
  often as it occurs among the idle jobs.
-/

open Python Atomic

namespace DynamicTorque

/-! ### The idle jobs that qstat reports -/

/-- The jobs have these numbers and no priority yet. -/
def Numbered (numbers : List ℤ) (jobs : List Job) : Prop :=
  List.Forall₂ (fun n job ↦ job.number = .ok n ∧ job.jobPriority = none) numbers jobs

theorem Numbered.map_number {numbers : List ℤ} {jobs : List Job} (h : Numbered numbers jobs) :
    jobs.map Job.number = numbers.map .ok := by
  induction h with
  | nil => rfl
  | cons hjob _ ih => exact congrArg₂ _ hjob.1 ih

theorem RawJob.keyed_eq_ok {rawJob : RawJob} {e : ℤ × Job} (h : rawJob.keyed = .ok e) :
    e.2.number = .ok e.1 ∧ e.2.jobPriority = none := by
  rw [RawJob.keyed] at h
  split at h
  · cases h
  · obtain ⟨n, hn, he⟩ := bind_eq_ok.1 h
    obtain rfl := Except.ok.inj he
    exact ⟨hn, rfl⟩

/-- `_qstat_to_job_list` returns idle jobs by number. -/
theorem exists_numbered_of_qstatToJobList (cfg : Config) (qstatOutput : XmlText RawJob) :
    ∃ numbers, Numbered numbers (qstatToJobList cfg qstatOutput).2.1 ∧
      numbers.Pairwise (· ≤ ·) := by
  rw [qstatToJobList]
  split
  · rename_i result hresult
    obtain ⟨rawJobs, -, hrest⟩ := bind_eq_ok.1 hresult
    obtain ⟨lists, -, hrest⟩ := bind_eq_ok.1 hrest
    obtain ⟨keyed, hkeyed, hsorted⟩ := bind_eq_ok.1 hrest
    obtain rfl := Except.ok.inj hsorted
    have hall : ∀ e ∈ keyed, e.2.number = .ok e.1 ∧ e.2.jobPriority = none := fun e he ↦ by
      obtain ⟨_, -, hjob⟩ := exists_of_mem_mapM hkeyed he
      exact RawJob.keyed_eq_ok hjob
    refine ⟨(sortByKey Prod.fst keyed).map Prod.fst, ?_,
      List.pairwise_map.2 (pairwise_sortByKey Prod.fst keyed)⟩
    show List.Forall₂ _ _ ((sortByKey Prod.fst keyed).map Prod.snd)
    rw [List.forall₂_map_left_iff, List.forall₂_map_right_iff, List.forall₂_same]
    exact fun e he ↦ hall e ((sortByKey_perm Prod.fst keyed).mem_iff.1 he)
  · exact ⟨[], .nil, .nil⟩

/-- `_get_job_priorities` returns entries by number. -/
theorem pairwise_of_getJobPriorities {diagnoseOutput : XmlText DiagnosedJob}
    {priorities : List JobPriority} (h : getJobPriorities diagnoseOutput = .ok priorities) :
    priorities.Pairwise fun p q ↦ p.jobId ≤ q.jobId := by
  cases diagnoseOutput with
  | empty =>
    obtain rfl := Except.ok.inj h
    exact .nil
  | malformed => cases h
  | root children =>
    obtain ⟨read, -, rfl⟩ := getJobPriorities_root.1 h
    exact pairwise_sortByKey JobPriority.jobId read

/-! ### The join -/

section

variable {n : ℤ} {numbers : List ℤ} {jobs merged : List Job} {left : List JobPriority}

theorem skipBefore_sublist (n : ℤ) (left : List JobPriority) :
    (skipBefore n left).Sublist left := by
  fun_induction skipBefore n left with
  | case1 => exact List.Sublist.refl _
  | case2 p => exact List.Sublist.refl _
  | case3 p q rest _ ih => exact ih.cons p
  | case4 => exact List.Sublist.refl _

/-- What is skipped are smaller numbers, so an entry that there is is found. -/
theorem skipBefore_of_sublist (hleft : left.Pairwise fun p q ↦ p.jobId ≤ q.jobId)
    (h : (n :: numbers).Sublist (left.map JobPriority.jobId)) :
    ∃ p rest, skipBefore n left = p :: rest ∧ n = p.jobId ∧
      numbers.Sublist (rest.map JobPriority.jobId) := by
  fun_induction skipBefore n left with
  | case1 => exact absurd h (by simp)
  | case2 p =>
    obtain ⟨rfl, rfl⟩ : n = p.jobId ∧ numbers = [] := by simpa using List.sublist_singleton.1 h
    exact ⟨p, [], rfl, rfl, List.Sublist.refl _⟩
  | case3 p q rest hgt ih =>
    refine ih (List.pairwise_cons.1 hleft).2 ?_
    rcases List.sublist_cons_iff.1 h with hrest | ⟨_, heq, -⟩
    · exact hrest
    · exact absurd (List.cons.inj heq).1 (by omega)
  | case4 p q rest hle =>
    have hmem : n ∈ (p :: q :: rest).map JobPriority.jobId := h.subset (List.mem_cons_self ..)
    obtain ⟨e, he, rfl⟩ := List.mem_map.1 hmem
    have hp : p.jobId ≤ e.jobId := by
      rcases List.mem_cons.1 he with rfl | he
      · exact le_rfl
      · exact (List.pairwise_cons.1 hleft).1 e he
    have heq : e.jobId = p.jobId := by omega
    refine ⟨p, q :: rest, rfl, heq, ?_⟩
    rw [heq] at h
    exact List.cons_sublist_cons.1 h

/-- The job has got the priority of an entry with its number. -/
def Matched (left : List JobPriority) (job job' : Job) : Prop :=
  ∃ p ∈ left, job.number = .ok p.jobId ∧ job' = { job with jobPriority := some p.priority }

theorem Matched.mono {left left' : List JobPriority} {job job' : Job} (h : Matched left job job')
    (hsub : left ⊆ left') : Matched left' job job' := by
  obtain ⟨p, hp, hjob⟩ := h
  exact ⟨p, hsub hp, hjob⟩

/-- If every job has an entry of its own, every job gets a priority. -/
theorem mergePriorities_of_sublist (hjobs : Numbered numbers jobs)
    (hleft : left.Pairwise fun p q ↦ p.jobId ≤ q.jobId)
    (h : numbers.Sublist (left.map JobPriority.jobId)) :
    ∃ merged, mergePriorities jobs left = (merged, .ok ()) ∧
      List.Forall₂ (Matched left) jobs merged := by
  induction hjobs generalizing left with
  | nil => exact ⟨[], rfl, .nil⟩
  | @cons n job numbers jobs hjob hjobs ih =>
    obtain ⟨p, rest, hskip, rfl, hrest⟩ := skipBefore_of_sublist hleft h
    have hsub : (p :: rest).Sublist left := hskip ▸ skipBefore_sublist p.jobId left
    have hmatched : Matched left job { job with jobPriority := some p.priority } :=
      ⟨p, hsub.subset (List.mem_cons_self ..), hjob.1, rfl⟩
    have hpairwise := (List.pairwise_cons.1 (hleft.sublist hsub)).2
    obtain ⟨merged, hmerged, hall⟩ := ih hpairwise hrest
    have hall : List.Forall₂ (Matched left) jobs merged :=
      hall.imp fun _ _ hm ↦ hm.mono fun _ he ↦ hsub.subset (.tail _ he)
    simp only [mergePriorities, hjob.1, hskip, if_pos]
    split
    · -- the entries are used up, and so are the jobs
      rename_i hnil
      obtain rfl : numbers = [] := by simpa [hnil] using hrest
      cases hjobs
      exact ⟨_, rfl, .cons hmatched .nil⟩
    · rw [hmerged]
      exact ⟨_, rfl, .cons hmatched hall⟩

/-- If every job got a priority, every job had an entry of its own. -/
theorem sublist_of_mergePriorities (hjobs : Numbered numbers jobs)
    (hall : ∀ job ∈ (mergePriorities jobs left).1, job.jobPriority.isSome = true) :
    numbers.Sublist (left.map JobPriority.jobId) := by
  induction hjobs generalizing left with
  | nil => exact List.nil_sublist _
  | @cons n job numbers jobs hjob hjobs ih =>
    -- the job takes an entry of its own number, or it has no priority in the end
    have hsub := skipBefore_sublist n left
    have hnone : ¬job.jobPriority.isSome = true := by simp [hjob.2]
    simp only [mergePriorities, hjob.1] at hall
    cases hskip : skipBefore n left with
    | nil =>
      simp only [hskip] at hall
      exact absurd (hall job (List.mem_cons_self ..)) hnone
    | cons p rest =>
      rw [hskip] at hsub
      simp only [hskip] at hall
      split at hall
      · rename_i heq
        refine List.Sublist.trans ?_ (hsub.map JobPriority.jobId)
        rw [heq, List.map_cons]
        refine List.Sublist.cons_cons _ ?_
        split at hall
        · -- no entries are left, so no jobs are either: they have no priority
          cases hjobs with
          | nil => exact List.nil_sublist _
          | @cons _ next _ _ hnext _ =>
            have hsome := hall next (.tail _ (List.mem_cons_self ..))
            simp [hnext.2] at hsome
        · exact ih fun job' hjob' ↦ hall job' (.tail _ hjob')
      · split at hall
        · exact absurd (hall job (List.mem_cons_self ..)) hnone
        · exact absurd (hall job (List.mem_cons_self ..)) hnone

end

/-! ### The sort -/

/-- The priority that is listed for a number: that of an entry, or -1 where there is none. -/
def ListedFor (priorities : List JobPriority) (n priority : ℤ) : Prop :=
  (∃ p ∈ priorities, p.jobId = n ∧ p.priority = priority) ∨
    ((∀ p ∈ priorities, p.jobId ≠ n) ∧ priority = -1)

/-- The job has got the priority that is listed for its number. -/
def GotPriority (priorities : List JobPriority) (job job' : Job) : Prop :=
  ∃ n priority, job.number = .ok n ∧ ListedFor priorities n priority ∧
    job' = { job with jobPriority := some priority }

/-- The order of the queue: descending priority, then by number. -/
def QueuedBefore (a b : Job) : Prop :=
  ∃ p q, a.jobPriority = some p ∧ b.jobPriority = some q ∧
    (q < p ∨ q = p ∧ ∃ m n, a.number = .ok m ∧ b.number = .ok n ∧ m ≤ n)

/-- Every job of `old` has got its priority, and `new` is what this gives, in order. -/
def Prioritised (priorities : List JobPriority) (old new : List Job) : Prop :=
  (∃ merged, List.Forall₂ (GotPriority priorities) old merged ∧ new.Perm merged) ∧
    new.Pairwise QueuedBefore

section

variable {jobs merged : List Job} {left : List JobPriority} {numbers : List ℤ}

theorem Matched.gotPriority {job job' : Job} (h : Matched left job job') :
    GotPriority left job job' := by
  obtain ⟨p, hp, hnumber, hjob⟩ := h
  exact ⟨p.jobId, p.priority, hnumber, .inl ⟨p, hp, rfl, rfl⟩, hjob⟩

/-- A job that got a priority has one, and keeps its number. -/
theorem isSome_of_gotPriority (h : List.Forall₂ (GotPriority left) jobs merged) :
    ∀ job ∈ merged, job.jobPriority.isSome = true := by
  induction h with
  | nil => exact List.forall_mem_nil _
  | cons hjob _ ih =>
    obtain ⟨n, priority, -, -, rfl⟩ := hjob
    exact List.forall_mem_cons.2 ⟨rfl, ih⟩

theorem map_number_of_gotPriority (h : List.Forall₂ (GotPriority left) jobs merged) :
    merged.map Job.number = jobs.map Job.number := by
  induction h with
  | nil => rfl
  | cons hjob _ ih =>
    obtain ⟨n, priority, -, -, rfl⟩ := hjob
    rw [List.map_cons, List.map_cons, ih]
    rfl

/-- Sorting what has priorities, by number so far, orders the queue. -/
theorem prioritised_sortByKeyReverse (hjobs : Numbered numbers jobs)
    (hnumbers : numbers.Pairwise (· ≤ ·))
    (h : List.Forall₂ (GotPriority left) jobs merged) :
    Prioritised left jobs (sortByKeyReverse (fun job ↦ job.jobPriority.getD 0) merged) := by
  have hperm := sortByKeyReverse_perm (fun job : Job ↦ job.jobPriority.getD 0) merged
  have hmap : merged.map Job.number = numbers.map .ok :=
    (map_number_of_gotPriority h).trans hjobs.map_number
  have hbyNumber : merged.Pairwise fun a b ↦
      ∃ m n, a.number = .ok m ∧ b.number = .ok n ∧ m ≤ n := by
    have hpairs : (merged.map Job.number).Pairwise fun a b ↦
        ∃ m n, a = .ok m ∧ b = .ok n ∧ m ≤ n := by
      rw [hmap]
      exact List.pairwise_map.2 (hnumbers.imp fun {m n} hle ↦ ⟨m, n, rfl, rfl, hle⟩)
    exact List.pairwise_map.1 hpairs
  refine ⟨⟨merged, h, hperm⟩, ?_⟩
  refine (pairwise_sortByKeyReverse_of_pairwise (fun job : Job ↦ job.jobPriority.getD 0) merged
    hbyNumber).imp_of_mem fun {a b} ha hb horder ↦ ?_
  obtain ⟨p, hp⟩ := Option.isSome_iff_exists.1 (isSome_of_gotPriority h a (hperm.mem_iff.1 ha))
  obtain ⟨q, hq⟩ := Option.isSome_iff_exists.1 (isSome_of_gotPriority h b (hperm.mem_iff.1 hb))
  simp only [hp, hq, Option.getD_some] at horder
  exact ⟨p, q, hp, hq, horder⟩

end

/-! ### The whole operation -/

section

variable {cfg : Config} {priorities : List JobPriority} {s : State} {numbers : List ℤ}

theorem mergePriorities_nil {jobs : List Job} (h : Numbered numbers jobs) :
    mergePriorities jobs [] = (jobs, .ok ()) := by
  cases h with
  | nil => rfl
  | cons hjob _ => simp [mergePriorities, hjob.1, skipBefore]

theorem ends_setCluster {α : Type} {g : Cluster → Cluster} {f : Unit → Proc α} {t : State}
    {Q : α → State → Prop} {E : PyError → State → Prop} :
    Ends ((Proc.setCluster g >>= f).exec cfg) t Q E ↔
      Ends ((f ()).exec cfg) { t with cluster := g t.cluster } Q E := Iff.rfl

/-- The last statement, from the state `t` that the join leaves. -/
theorem ends_sortIdleJobs {Q : List Job → Prop} (t : State) :
    Ends ((do
      let c ← Proc.cluster
      let sorted ← Program.lift (sortByPriority c.idleJobs)
      Proc.setCluster fun c ↦ { c with idleJobs := sorted } : Proc Unit).exec cfg) t
      (fun _ s' ↦ Q s'.cluster.idleJobs) (fun _ _ ↦ False) ↔
      ∃ sorted, sortByPriority t.cluster.idleJobs = .ok sorted ∧ Q sorted := by
  rw [ends_cluster]
  cases hsort : sortByPriority t.cluster.idleJobs with
  | ok sorted =>
    show Q sorted ↔ _
    simp
  | error e =>
    show False ↔ _
    simp

/-- `prioritise_jobs` returns if the join and the sort do. -/
theorem ends_prioritiseJobs (h : Numbered numbers s.cluster.idleJobs) {Q : List Job → Prop} :
    Ends ((prioritiseJobs (true, priorities)).exec cfg) s
      (fun _ s' ↦ Q s'.cluster.idleJobs) (fun _ _ ↦ False) ↔
      ∃ merged sorted, mergePriorities s.cluster.idleJobs priorities = (merged, .ok ()) ∧
        sortByPriority merged = .ok sorted ∧ Q sorted := by
  rw [prioritiseJobs, ends_setCluster]
  cases priorities with
  | nil =>
    -- without entries there is no join
    refine (ends_sortIdleJobs _).trans ?_
    simp [mergePriorities_nil h]
  | cons p priorities =>
    let joined := mergePriorities s.cluster.idleJobs (p :: priorities)
    show Ends (((do
        Program.lift joined.2
        let c ← Proc.cluster
        let sorted ← Program.lift (sortByPriority c.idleJobs)
        Proc.setCluster fun c ↦ { c with idleJobs := sorted }) : Proc Unit).exec cfg)
      { s with cluster := { s.cluster with mauiServerUp := true, idleJobs := joined.1 } } _ _ ↔
        ∃ merged sorted, joined = (merged, .ok ()) ∧ _
    rcases joined with ⟨merged, e | u⟩
    · show False ↔ _
      simp
    · refine (ends_sortIdleJobs _).trans ?_
      simp

/-! ### When the queue is prioritised -/

theorem sortByPriority_eq_ok {jobs sorted : List Job} :
    sortByPriority jobs = .ok sorted ↔
      (∀ job ∈ jobs, job.jobPriority.isSome = true) ∧
        sortByKeyReverse (fun job ↦ job.jobPriority.getD 0) jobs = sorted := by
  rw [sortByPriority]
  split
  · rename_i hall
    exact ⟨fun h ↦ ⟨List.all_eq_true.1 hall, Except.ok.inj h⟩, fun h ↦ congrArg _ h.2⟩
  · rename_i hall
    rw [List.all_eq_true] at hall
    simp [hall]

/-- **The queue is prioritised exactly if Maui lists each number at least as often as it occurs
among the idle jobs.** Otherwise an exception is raised. -/
theorem prioritised_iff (cfg : Config) (qstatOutput : XmlText RawJob)
    (diagnoseOutput : XmlText DiagnosedJob) (priorities : List JobPriority) (s : State)
    (hidle : s.cluster.idleJobs = (qstatToJobList cfg qstatOutput).2.1)
    (hpriorities : getJobPriorities diagnoseOutput = .ok priorities) :
    Ends ((prioritiseJobs (true, priorities)).exec cfg) s
      (fun _ s' ↦ Prioritised priorities s.cluster.idleJobs s'.cluster.idleJobs)
      (fun _ _ ↦ False) ↔
      ∀ n, (s.cluster.idleJobs.map Job.number).count (.ok n) ≤
        (priorities.map JobPriority.jobId).count n := by
  obtain ⟨numbers, hnumbered, hsorted⟩ := exists_numbered_of_qstatToJobList cfg qstatOutput
  rw [← hidle] at hnumbered
  have hpairwise : priorities.Pairwise fun p q ↦ p.jobId ≤ q.jobId :=
    pairwise_of_getJobPriorities hpriorities
  -- both lists are in order, so counting the numbers is the same as embedding one list in the other
  have hcount : (∀ n, (s.cluster.idleJobs.map Job.number).count (.ok n) ≤
      (priorities.map JobPriority.jobId).count n) ↔
      numbers.Sublist (priorities.map JobPriority.jobId) := by
    have hok : ∀ n, (numbers.map (.ok : ℤ → Except PyError ℤ)).count (.ok n) = numbers.count n :=
      List.count_map_of_injective numbers _ fun _ _ ↦ Except.ok.inj
    rw [hnumbered.map_number]
    simp only [hok]
    constructor
    · exact fun hle ↦ List.sublist_of_subperm_of_pairwise
        (List.subperm_ext_iff.2 fun n _ ↦ hle n) hsorted (List.pairwise_map.2 hpairwise)
    · exact fun hsub n ↦ hsub.count_le n
  rw [ends_prioritiseJobs hnumbered, hcount]
  constructor
  · rintro ⟨merged, sorted, hmerge, hsort, -⟩
    refine sublist_of_mergePriorities hnumbered ?_
    rw [hmerge]
    exact (sortByPriority_eq_ok.1 hsort).1
  · intro hsub
    obtain ⟨merged, hmerge, hall⟩ := mergePriorities_of_sublist hnumbered hpairwise hsub
    have hgot : List.Forall₂ (GotPriority priorities) s.cluster.idleJobs merged :=
      hall.imp fun _ _ ↦ Matched.gotPriority
    exact ⟨merged, _, hmerge, sortByPriority_eq_ok.2 ⟨isSome_of_gotPriority hgot, rfl⟩,
      prioritised_sortByKeyReverse hnumbered hsorted hgot⟩

end

/-- The output of `qstat` for one queued job. -/
def oneQueued : XmlText RawJob :=
  .root [{ jobId := some "1.server", jobState := some "Q", queue := some "batch" }]

/-- The resource center after that query. -/
def afterOneQueued : State :=
  { State.initial JobScheduler.threeNodes with
    cluster :=
      { (State.initial JobScheduler.threeNodes).cluster with
        idleJobs := (qstatToJobList {} oneQueued).2.1 } }

/-- One idle job, which Maui lists with priority 7. -/
theorem prioritised_iff_oneQueued :
    Ends ((prioritiseJobs (true, [⟨1, 7⟩])).exec {}) afterOneQueued
      (fun _ s' ↦ Prioritised [⟨1, 7⟩] afterOneQueued.cluster.idleJobs s'.cluster.idleJobs)
      (fun _ _ ↦ False) := by
  have hread : getJobPriorities (.root [⟨some (some "1.server"), some (some "7")⟩]) =
      .ok [⟨1, 7⟩] := by decide +kernel
  have hnumbers : afterOneQueued.cluster.idleJobs.map Job.number = [.ok 1] := by decide +kernel
  refine (prioritised_iff {} oneQueued _ [⟨1, 7⟩] afterOneQueued rfl hread).2 fun n ↦ ?_
  rw [hnumbers]
  rcases eq_or_ne n 1 with rfl | hne
  · decide
  · rw [List.count_eq_zero_of_not_mem (by simpa using hne)]
    exact Nat.zero_le _

/-- One idle job that Maui does not list: no priority is set, and the sort raises. -/
theorem unlisted_job_raises :
    ¬∀ (cfg : Config) (qstatOutput : XmlText RawJob) (diagnoseOutput : XmlText DiagnosedJob)
      (priorities : List JobPriority) (s : State),
      s.cluster.idleJobs = (qstatToJobList cfg qstatOutput).2.1 →
      getJobPriorities diagnoseOutput = .ok priorities →
      Ends ((prioritiseJobs (true, priorities)).exec cfg) s
        (fun _ s' ↦ Prioritised priorities s.cluster.idleJobs s'.cluster.idleJobs)
        (fun _ _ ↦ False) := by
  intro h
  obtain ⟨numbers, hnumbered, -⟩ := exists_numbered_of_qstatToJobList {} oneQueued
  have hidle : (qstatToJobList {} oneQueued).2.1 =
      [{ jobId := "1.server", queue := some "batch", priority := some (-1) }] := by decide +kernel
  have hends := h {} oneQueued .empty [] afterOneQueued rfl rfl
  obtain ⟨merged, sorted, hmerge, hsort, -⟩ := (ends_prioritiseJobs hnumbered).1 hends
  obtain rfl := (Prod.mk.inj ((mergePriorities_nil hnumbered).symm.trans hmerge)).1
  have hsome := (sortByPriority_eq_ok.1 hsort).1
  rw [hidle] at hsome
  exact absurd (hsome _ (List.mem_singleton_self _)) (by decide)

end DynamicTorque
