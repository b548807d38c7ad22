import DynamicTorque.Model.LocalCommands

/-!
# Job ids

The number of a job is read from its id in two ways. `_qstat_to_job_list` and `prioritise_jobs`
drop what follows the first dot and what follows the first bracket of that; `_get_job_priorities`
only drops what follows the first dot.

* `intBeforeDot_eq_iff`: the two readings agree unless there is a bracket before the dot, and there
  the second one raises.
* `getJobPriorities_reads_ids_iff`: the whole list of priorities is read, under the numbers that
  the jobs have on the other side, unless some id has such a bracket.
-/

open Python

namespace DynamicTorque

/-- What precedes the first dot of an id. -/
def beforeDot (jobId : String) : List Char :=
  jobId.toList.takeWhile (· ≠ '.')

/-! ### One id -/

section

variable {job : Job} {n : ℤ}

theorem number_of_notMem (h : '[' ∉ beforeDot job.jobId) :
    job.number = intBeforeDot (some job.jobId) := by
  have hself : (beforeDot job.jobId).takeWhile (· ≠ '[') = beforeDot job.jobId :=
    List.takeWhile_eq_self_iff.2 fun c hc ↦ decide_eq_true fun hbracket ↦ h (hbracket ▸ hc)
  rw [Job.number, intBeforeDot]
  exact congrArg (fun cs ↦ Unicode.int (String.ofList cs)) hself

/-- A bracket is not part of a number. -/
theorem notMem_of_intBeforeDot {jobId : String} (h : intBeforeDot (some jobId) = .ok n) :
    '[' ∉ beforeDot jobId := by
  intro hmem
  have hchars : '[' ∈ (String.ofList (beforeDot jobId)).toList := by
    rw [String.toList_ofList]
    exact hmem
  have hint : Unicode.int (String.ofList (beforeDot jobId)) = .ok n := by
    rw [intBeforeDot] at h
    exact h
  rcases Unicode.isSome_decimal_of_int_eq_ok hint hchars (by decide) with hdigit | hminus | hplus
  · exact absurd hdigit (by decide)
  · exact absurd hminus (by decide)
  · exact absurd hplus (by decide)

/-- **The two readings of an id.** -/
theorem intBeforeDot_eq_iff (h : job.number = .ok n) :
    intBeforeDot (some job.jobId) = .ok n ↔ '[' ∉ beforeDot job.jobId :=
  ⟨notMem_of_intBeforeDot, fun hmem ↦ number_of_notMem hmem ▸ h⟩

theorem returns_intBeforeDot_iff (h : job.number = .ok n) :
    Returns (intBeforeDot (some job.jobId)) ↔ '[' ∉ beforeDot job.jobId :=
  ⟨fun ⟨_, hk⟩ ↦ notMem_of_intBeforeDot hk, fun hmem ↦ ⟨n, (intBeforeDot_eq_iff h).2 hmem⟩⟩

end

/-! ### The forms that qstat prints -/

section

variable {digits : String}

theorem notMem_of_isdigit (h : isdigit digits = true) {c : Char} (hc : c.isDigit = false) :
    c ∉ digits.toList := fun hmem ↦ by
  have hdigit := List.all_eq_true.1 (Bool.and_eq_true _ _ ▸ h).2 c hmem
  rw [hc] at hdigit
  exact nomatch hdigit

/-- The id of a job. -/
theorem beforeDot_plain (h : isdigit digits = true) (server : String) :
    beforeDot (digits ++ "." ++ server) = digits.toList := by
  have hdot : ∀ c ∈ digits.toList, decide (c ≠ '.') = true := fun c hc ↦
    decide_eq_true fun heq ↦ notMem_of_isdigit h (c := '.') (by decide) (heq ▸ hc)
  rw [beforeDot, String.toList_append, String.toList_append, List.append_assoc,
    List.takeWhile_append_of_pos hdot]
  simp

/-- The id of a job of an array. -/
theorem beforeDot_array {k : String} (h : isdigit digits = true) (hk : '.' ∉ k.toList)
    (server : String) :
    beforeDot (digits ++ "[" ++ k ++ "]." ++ server) =
      digits.toList ++ '[' :: (k.toList ++ [']']) := by
  have hdot : ∀ c ∈ digits.toList ++ '[' :: (k.toList ++ [']']), decide (c ≠ '.') = true := by
    intro c hc
    refine decide_eq_true fun heq ↦ ?_
    subst heq
    simp [notMem_of_isdigit h (c := '.') (by decide), hk] at hc
  have hsplit : (digits ++ "[" ++ k ++ "]." ++ server).toList =
      (digits.toList ++ '[' :: (k.toList ++ [']'])) ++ '.' :: server.toList := by
    simp
  rw [beforeDot, hsplit, List.takeWhile_append_of_pos hdot]
  simp

theorem number_plain (h : isdigit digits = true) (server : String) :
    ({ jobId := digits ++ "." ++ server } : Job).number = .ok (digitsValue digits.toList) := by
  have hread : intBeforeDot (some (digits ++ "." ++ server)) =
      .ok (digitsValue digits.toList) := by
    rw [intBeforeDot, ← beforeDot, beforeDot_plain h, String.ofList_toList,
      Unicode.int_of_isdigit h]
  have hmem : '[' ∉ beforeDot ({ jobId := digits ++ "." ++ server } : Job).jobId := by
    rw [beforeDot_plain h]
    exact notMem_of_isdigit h (by decide)
  exact (number_of_notMem hmem).trans hread

theorem number_array {k : String} (h : isdigit digits = true) (hk : '.' ∉ k.toList)
    (server : String) :
    ({ jobId := digits ++ "[" ++ k ++ "]." ++ server } : Job).number =
      .ok (digitsValue digits.toList) := by
  have hbracket : ∀ c ∈ digits.toList, decide (c ≠ '[') = true := fun c hc ↦
    decide_eq_true fun heq ↦ notMem_of_isdigit h (c := '[') (by decide) (heq ▸ hc)
  rw [Job.number, ← beforeDot, beforeDot_array h hk, List.takeWhile_append_of_pos hbracket]
  simp [Unicode.int_of_isdigit h]

end

/-! ### The list of priorities -/

/-- What `diagnose` prints about a job. -/
def diagnosed (job : Job) (priority : String) : DiagnosedJob :=
  ⟨some (some job.jobId), some (some priority)⟩

section

variable {jobs : List (Job × String)}

theorem toJobPriority_eq_ok_iff {job : Job} {priority : String} {p : JobPriority} :
    (diagnosed job priority).toJobPriority = .ok p ↔
      intBeforeDot (some job.jobId) = .ok p.jobId ∧
        Unicode.int priority = .ok p.priority := by
  simp only [DiagnosedJob.toJobPriority, diagnosed, findText, Unicode.intOfText, bind_eq_ok,
    pure_eq_ok, Except.ok.injEq, exists_eq_left']
  constructor
  · rintro ⟨jobId, hjobId, prio, hprio, rfl⟩
    exact ⟨hjobId, hprio⟩
  · rintro ⟨hjobId, hprio⟩
    exact ⟨p.jobId, hjobId, p.priority, hprio, rfl⟩

theorem getJobPriorities_root {children : List DiagnosedJob} {ps : List JobPriority} :
    getJobPriorities (.root children) = .ok ps ↔
      ∃ read, children.mapM DiagnosedJob.toJobPriority = .ok read ∧
        sortByKey JobPriority.jobId read = ps := by
  simp only [getJobPriorities, XmlText.fromstring, bind_eq_ok, pure_eq_ok, Except.ok.injEq,
    exists_eq_left']

/-- The list is read if every entry is, and then has the numbers of the entries. -/
theorem getJobPriorities_eq_ok {ps : List JobPriority}
    (h : getJobPriorities (.root (jobs.map fun e ↦ diagnosed e.1 e.2)) = .ok ps) :
    (ps.map fun p ↦ (.ok p.jobId : Except PyError ℤ)).Perm
      (jobs.map fun e ↦ intBeforeDot (some e.1.jobId)) := by
  obtain ⟨read, hread, rfl⟩ := getJobPriorities_root.1 h
  refine ((sortByKey_perm JobPriority.jobId read).map _).trans (List.Perm.of_eq ?_)
  have hall := List.forall₂_map_left_iff.1 (mapM_eq_ok.1 hread)
  clear hread h
  induction hall with
  | nil => rfl
  | cons hjob _ ih => exact congrArg₂ _ (toJobPriority_eq_ok_iff.1 hjob).1.symm ih

/-- **The list of priorities is read under the numbers of the jobs**, if no id has a bracket before
the dot. -/
theorem getJobPriorities_reads_ids_iff (hnumber : ∀ e ∈ jobs, Returns e.1.number)
    (hpriority : ∀ e ∈ jobs, Returns (Unicode.int e.2)) :
    (∃ ps, getJobPriorities (.root (jobs.map fun e ↦ diagnosed e.1 e.2)) = .ok ps ∧
      (ps.map fun p ↦ (.ok p.jobId : Except PyError ℤ)).Perm (jobs.map fun e ↦ e.1.number)) ↔
      ∀ e ∈ jobs, '[' ∉ beforeDot e.1.jobId := by
  constructor
  · rintro ⟨ps, hps, -⟩ e he
    obtain ⟨read, hread, -⟩ := getJobPriorities_root.1 hps
    obtain ⟨p, hp⟩ := returns_mapM.1 ⟨read, hread⟩ _ (List.mem_map_of_mem he)
    exact notMem_of_intBeforeDot (toJobPriority_eq_ok_iff.1 hp).1
  · intro hmem
    have hread :
        Returns ((jobs.map fun e ↦ diagnosed e.1 e.2).mapM DiagnosedJob.toJobPriority) := by
      refine returns_mapM.2 fun _ hd ↦ ?_
      obtain ⟨e, he, rfl⟩ := List.mem_map.1 hd
      obtain ⟨n, hn⟩ := hnumber e he
      obtain ⟨p, hp⟩ := hpriority e he
      exact ⟨⟨n, p⟩, toJobPriority_eq_ok_iff.2 ⟨(intBeforeDot_eq_iff hn).2 (hmem e he), hp⟩⟩
    obtain ⟨read, hread⟩ := hread
    have hps := getJobPriorities_root.2 ⟨read, hread, rfl⟩
    refine ⟨_, hps, (getJobPriorities_eq_ok hps).trans (List.Perm.of_eq ?_)⟩
    exact List.map_congr_left fun e he ↦ (number_of_notMem (hmem e he)).symm

end

/-! ### Where the readings agree -/

/-- **The two parsers agree on an id exactly if it has no bracket before the dot**: on the id of a
job always, on the id of a job of an array never. -/
theorem same_id_iff (job : Job) (n : ℤ) (jobs : List (Job × String))
    (digits k server : String) :
    (job.number = .ok n →
      (intBeforeDot (some job.jobId) = .ok n ↔ '[' ∉ beforeDot job.jobId) ∧
        (Returns (intBeforeDot (some job.jobId)) ↔ '[' ∉ beforeDot job.jobId)) ∧
    ((∀ e ∈ jobs, Returns e.1.number) → (∀ e ∈ jobs, Returns (Unicode.int e.2)) →
      ((∃ ps, getJobPriorities (.root (jobs.map fun e ↦ diagnosed e.1 e.2)) = .ok ps ∧
        (ps.map fun p ↦ (.ok p.jobId : Except PyError ℤ)).Perm (jobs.map fun e ↦ e.1.number)) ↔
        ∀ e ∈ jobs, '[' ∉ beforeDot e.1.jobId)) ∧
    (isdigit digits = true →
      ({ jobId := digits ++ "." ++ server } : Job).number = .ok (digitsValue digits.toList) ∧
        intBeforeDot (some (digits ++ "." ++ server)) = .ok (digitsValue digits.toList)) ∧
    (isdigit digits = true → '.' ∉ k.toList →
      ({ jobId := digits ++ "[" ++ k ++ "]." ++ server } : Job).number =
        .ok (digitsValue digits.toList) ∧
          ¬Returns (intBeforeDot (some (digits ++ "[" ++ k ++ "]." ++ server)))) := by
  refine ⟨fun hn ↦ ⟨intBeforeDot_eq_iff hn, returns_intBeforeDot_iff hn⟩,
    fun hnumber hpriority ↦ getJobPriorities_reads_ids_iff hnumber hpriority,
    fun h ↦ ⟨number_plain h server, ?_⟩, fun h hk ↦ ⟨number_array h hk server, ?_⟩⟩
  · have hagree := intBeforeDot_eq_iff (number_plain h server)
    refine hagree.2 ?_
    rw [beforeDot_plain h]
    exact notMem_of_isdigit h (by decide)
  · have hraises := returns_intBeforeDot_iff (number_array h hk server)
    refine fun hreturns ↦ hraises.1 hreturns ?_
    rw [beforeDot_array h hk]
    simp

/-- The ids `12.server` and `12[3].server`. -/
theorem same_id_iff_twelve :
    (intBeforeDot (some "12.server") = .ok 12 ↔ '[' ∉ beforeDot "12.server") ∧
      (({ jobId := "12" ++ "[" ++ "3" ++ "]." ++ "server" } : Job).number = .ok 12 ∧
        ¬Returns (intBeforeDot (some ("12" ++ "[" ++ "3" ++ "]." ++ "server")))) := by
  have hboth := same_id_iff { jobId := "12.server" } 12 [] "12" "3" "server"
  exact ⟨(hboth.1 (by decide +kernel)).1, hboth.2.2.2 (by decide +kernel) (by decide +kernel)⟩

/-- The id of a job of an array has a number that the list of priorities is not read under. -/
theorem array_id_raises :
    ¬∀ (job : Job) (n : ℤ), job.number = .ok n → intBeforeDot (some job.jobId) = .ok n := fun h ↦
  absurd (h { jobId := "12[3].server" } 12 (by decide +kernel)) (by decide +kernel)

end DynamicTorque
