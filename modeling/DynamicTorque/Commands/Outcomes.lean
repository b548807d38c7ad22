import DynamicTorque.Commands.Arguments

/-!
# The answers of the queries

Each query runs its program inside a `try`, but what is made of the output is partly read outside
it. `queries_return` says exactly when a query raises, over everything that the program may print.
-/

open Python

namespace DynamicTorque

variable {cfg : Config} {cmds : Commands}

/-! ### Priorities -/

/-- A text is looked up and read; a child without text cannot be read. -/
theorem returns_findText_bind {α : Type} {text : Option (Option String)}
    {f : Option String → Except PyError α} (h : ¬Returns (f none)) :
    Returns (findText text >>= f) ↔ ∃ t, text = some (some t) ∧ Returns (f (some t)) := by
  rw [returns_bind]
  constructor
  · rintro ⟨t, ht, hf⟩
    cases text with
    | none => exact absurd ⟨t, ht⟩ (not_returns_error _)
    | some text =>
      obtain rfl : text = t := Except.ok.inj ht
      cases text with
      | none => exact absurd hf h
      | some t => exact ⟨t, rfl, hf⟩
  · rintro ⟨t, rfl, hf⟩
    exact ⟨some t, rfl, hf⟩

/-- A job whose number and priority can be read. -/
theorem returns_toJobPriority_iff {job : DiagnosedJob} :
    Returns job.toJobPriority ↔
      (∃ jobId, job.jobId = some (some jobId) ∧ Returns (intBeforeDot (some jobId))) ∧
        ∃ priority, job.priority = some (some priority) ∧ Returns (Unicode.int priority) := by
  have hjobId : Returns (findText job.jobId >>= intBeforeDot) ↔ _ :=
    returns_findText_bind (not_returns_error _)
  have hpriority : Returns (findText job.priority >>= Unicode.intOfText) ↔ _ :=
    returns_findText_bind (not_returns_error _)
  rw [← hjobId]
  have hrest : ∀ jobId : ℤ, Returns (do
      let priority ← findText job.priority >>= Unicode.intOfText
      pure (JobPriority.mk jobId priority)) ↔
        Returns (findText job.priority >>= Unicode.intOfText) :=
    fun jobId ↦ returns_bind_of_forall fun _ ↦ returns_ok _
  rw [DiagnosedJob.toJobPriority, returns_bind]
  constructor
  · rintro ⟨jobId, hok, h⟩
    exact ⟨⟨jobId, hok⟩, hpriority.1 ((hrest jobId).1 h)⟩
  · rintro ⟨⟨jobId, hok⟩, h⟩
    exact ⟨jobId, hok, (hrest jobId).2 (hpriority.2 h)⟩

/-- The priorities are read if the output is empty, or every job in it can be read. -/
theorem returns_getJobPriorities_iff {out : XmlText DiagnosedJob} :
    Returns (getJobPriorities out) ↔
      out = .empty ∨ ∃ jobs, out = .root jobs ∧ ∀ job ∈ jobs, Returns job.toJobPriority := by
  cases out with
  | empty => simp [getJobPriorities]
  | malformed =>
    have hraises : getJobPriorities .malformed = .error (.exception "ParseError") := rfl
    simp [hraises]
  | root jobs =>
    have hreads : Returns (getJobPriorities (.root jobs)) ↔
        Returns (jobs.mapM DiagnosedJob.toJobPriority) :=
      returns_bind_of_forall fun _ ↦ returns_ok _
    simp [hreads, returns_mapM]

/-! ### Nodes -/

/-- Every node in front of the one with the name, and that one, has a name. -/
def Named (hostname : String) (nodes : List (Dict (Option String))) : Prop :=
  ∀ front node back, nodes = front ++ node :: back →
    (∀ other ∈ front, other.lookup "name" ≠ some (some hostname)) →
    (node.lookup "name").isSome

/-- The first node has a name, and the others matter only if it is not the one. -/
theorem named_cons {hostname : String} {node : Dict (Option String)}
    {nodes : List (Dict (Option String))} :
    Named hostname (node :: nodes) ↔ (node.lookup "name").isSome ∧
      (node.lookup "name" ≠ some (some hostname) → Named hostname nodes) := by
  constructor
  · intro h
    refine ⟨h [] node nodes rfl (by simp), fun hne front other back hnodes hfront ↦ ?_⟩
    exact h (node :: front) other back (by simp [hnodes]) (List.forall_mem_cons.2 ⟨hne, hfront⟩)
  · rintro ⟨hsome, hrest⟩ front other back hnodes hfront
    cases front with
    | nil =>
      obtain ⟨rfl, -⟩ := List.cons.inj hnodes
      exact hsome
    | cons first front =>
      obtain ⟨rfl, hrestNodes⟩ := List.cons.inj hnodes
      obtain ⟨hne, hfront⟩ := List.forall_mem_cons.1 hfront
      exact hrest hne front other back hrestNodes hfront

/-- The search raises at the first node without a name. -/
theorem returns_findNode_iff {hostname : String} {nodes : List (Dict (Option String))} :
    Returns (findNode hostname nodes) ↔ Named hostname nodes := by
  induction nodes with
  | nil => simp [findNode, Named]
  | cons node nodes ih =>
    rw [findNode, returns_bind, named_cons, ← ih]
    cases hname : node.lookup "name" with
    | none => simp [Dict.get, hname]
    | some name =>
      by_cases heq : name = some hostname
      · simp [Dict.get, hname, heq]
      · simp [Dict.get, hname, heq]

/-- What the search finds has the name. -/
theorem lookup_of_findNode {hostname : String} {nodes : List (Dict (Option String))}
    {node : Dict (Option String)} (h : findNode hostname nodes = .ok (some node)) :
    node ∈ nodes ∧ node.lookup "name" = some (some hostname) := by
  induction nodes with
  | nil => cases h
  | cons first nodes ih =>
    obtain ⟨name, hname, hrest⟩ := bind_eq_ok.1 h
    have hlookup : first.lookup "name" = some name := by
      rw [Dict.get] at hname
      split at hname
      · rename_i hsome
        rw [hsome, Except.ok.inj hname]
      · cases hname
    by_cases heq : name = some hostname
    · rw [if_pos heq] at hrest
      obtain rfl : first = node := Option.some.inj (Except.ok.inj hrest)
      exact ⟨List.mem_cons_self .., heq ▸ hlookup⟩
    · rw [if_neg heq] at hrest
      exact (ih hrest).imp_left (List.mem_cons_of_mem _)

/-- What `get_wn_in_torque` tells about a node: nothing if Torque says that it does not know it, its
record, under its name, if it is listed, and `None` otherwise. -/
theorem getWnInTorque_eq_some {run : List String → Ran (XmlText (List XmlChild))} {vm : VM}
    {node : Dict (Option String)} (h : getWnInTorque cmds run vm = .ok (some node)) :
    ∃ words out err returncode, run words = .completed out err returncode ∧
      (node = ∅ ∧ returncode ≠ 0 ∧ strIn "cannot locate specified node" err ∨
        node.lookup "name" = some (some vm.hostname) ∧ returncode = 0 ∧
          node ∈ pbsnodesToNodeList out) := by
  obtain ⟨words, -, hrest⟩ := bind_eq_ok.1 h
  cases hrun : run words with
  | raised =>
    rw [hrun] at hrest
    cases hrest
  | completed out err returncode =>
    refine ⟨words, out, err, returncode, hrun, ?_⟩
    simp only [hrun] at hrest
    by_cases hcode : returncode = 0
    · rw [if_neg (not_not.2 hcode)] at hrest
      obtain ⟨hmem, hname⟩ := lookup_of_findNode hrest
      exact .inr ⟨hname, hcode, hmem⟩
    · rw [if_pos hcode] at hrest
      have hmessage := Except.ok.inj hrest
      split at hmessage
      · exact .inl ⟨(Option.some.inj hmessage).symm, hcode, ‹_›⟩
      · cases hmessage

/-! ### The queries -/

/-- **When a query raises.** Apart from a command line that cannot be built, nothing that
`pbsnodes`, `qstat` or `checknode` does makes a query raise, except a listing with a node without a
name in front of the node that is looked for. `diagnose` makes it raise with any output that is not
XML, and with any job whose number or priority is missing or is not a number. -/
theorem queries_return (cfg : Config) (cmds : Commands) (vm : VM) (nodeName : String) :
    (∀ run, Returns (wnQuery cmds run) ↔ Returns (loggedWords cmds.pbsnodesCommand ["-x", ""])) ∧
    (∀ run, Returns (jobQuery cfg cmds run) ↔ Returns (shlexSplit cmds.qstatCommand.toList)) ∧
    (∀ run, Returns (checkNode cmds run nodeName) ↔
      Returns (commandWords cmds.checkNodeCommand [nodeName])) ∧
    (∀ run, Returns (getWnInTorque cmds run vm) ↔
      ∃ words, loggedWords cmds.pbsnodesCommand ["-x", vm.hostname] = .ok words ∧
        ∀ out err, run words = .completed out err 0 →
          Named vm.hostname (pbsnodesToNodeList out)) ∧
    ∀ run, Returns (queryJobPriorities cmds run) ↔
      ∃ words, shlexSplit cmds.diagnosePCommand.toList = .ok words ∧
        ∀ out err, run words = .completed out err 0 → out = .empty ∨
          ∃ jobs, out = .root jobs ∧ ∀ job ∈ jobs,
            (∃ jobId, job.jobId = some (some jobId) ∧ Returns (intBeforeDot (some jobId))) ∧
              ∃ priority, job.priority = some (some priority) ∧ Returns (Unicode.int priority) := by
  refine ⟨fun run ↦ ?_, fun run ↦ ?_, fun run ↦ ?_, fun run ↦ ?_, fun run ↦ ?_⟩
  · refine returns_bind_of_forall fun words ↦ ?_
    cases run words <;> exact returns_ok _
  · refine (returns_bind_of_forall fun words ↦ ?_).trans returns_inTry_iff
    rcases run words with _ | ⟨out, err, returncode⟩
    · exact returns_ok _
    · dsimp only
      split
      · exact returns_ok _
      · cases out <;> exact returns_ok _
  · refine (returns_bind_of_forall fun words ↦ ?_).trans returns_inTry_iff
    rcases run words with _ | ⟨out, err, returncode⟩
    · exact returns_ok _
    · dsimp only
      split
      · exact returns_ok _
      · split <;> exact returns_ok _
  · rw [getWnInTorque, returns_bind]
    refine exists_congr fun words ↦ and_congr_right fun _ ↦ ?_
    rcases run words with _ | ⟨out, err, returncode⟩
    · simp
    · by_cases hcode : returncode = 0
      · simp [hcode, returns_findNode_iff]
      · simp [hcode]
  · have htry : ∀ words, inTry (shlexSplit cmds.diagnosePCommand.toList) = .ok words ↔
        shlexSplit cmds.diagnosePCommand.toList = .ok words := by
      intro words
      cases shlexSplit cmds.diagnosePCommand.toList <;> simp [inTry]
    rw [queryJobPriorities, returns_bind]
    refine exists_congr fun words ↦ and_congr (htry words) ?_
    rcases run words with _ | ⟨out, err, returncode⟩
    · simp
    · by_cases hcode : returncode = 0
      · have hreads : Returns (do
            let jobPriorities ← getJobPriorities out
            (.ok (true, jobPriorities) : Except PyError (Bool × List JobPriority))) ↔
              Returns (getJobPriorities out) :=
          returns_bind_of_forall fun _ ↦ returns_ok _
        simp [hcode, hreads, returns_getJobPriorities_iff, returns_toJobPriority_iff]
      · simp [hcode]

end DynamicTorque
