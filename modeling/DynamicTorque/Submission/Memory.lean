import DynamicTorque.Submission.Directives

/-!
# Memory per core

The submit filter refuses a job that asks for more than 4000000 kB of memory for each core. Three
things come between this rule and what it does. A number of nodes makes it raise, since it asks for
the name of the user through a module that is not imported. The number of cores is cut to its first
two digits. And the memory is divided by the number of cores without the remainder.

* `leads_run_ncpus`, `leads_run_nodes`: what comes of a script with one directive for cores and one
  for memory.
* `policyHolds_iff`: the rule is kept exactly for a script with `ncpus` in which the cut and the
  division make no difference.
-/

open Python Atomic Regex

namespace DynamicTorque.QsubFilter

/-! ### Scripts -/

/-- The directive that asks for cores. -/
inductive CpuDirective
  | ncpus (n : Decimal)
  | nodes (n : Decimal)

/-- The number of cores that the directive asks for. -/
def CpuDirective.cores : CpuDirective → ℕ
  | ncpus n => n.value
  | nodes n => n.value

/-- The directive as it is written. -/
def CpuDirective.text : CpuDirective → String
  | ncpus n => "#PBS -l ncpus=" ++ String.ofList n.digits
  | nodes n => "#PBS -l nodes=1:ppn=" ++ String.ofList n.digits

/-- The directive that asks for memory. -/
def memText (n : Decimal) : String := "#PBS -l mem=" ++ String.ofList n.digits ++ "kb"

/-- The lines of a script: there is no account directive, and the directives for resources are one
for cores and one for memory, in this order or the other. -/
structure IsScript (cpu : CpuDirective) (mem : Decimal) (lines : List String) : Prop where
  noAccount : ∀ line ∈ lines, ¬isAccount line
  resources : ∃ cpuEnd memEnd, Ending cpuEnd ∧ Ending memEnd ∧
    (lines.filter isResource =
        [cpu.text ++ String.ofList cpuEnd, memText mem ++ String.ofList memEnd] ∨
      lines.filter isResource =
        [memText mem ++ String.ofList memEnd, cpu.text ++ String.ofList cpuEnd])

/-- The filter ends, and returns -1 exactly if more memory is asked for than the cores may have. -/
def PolicyHolds (env : Environment) (lines argv : List String) (cores memory : ℕ) : Prop :=
  ∃ out code, main env lines (some argv) = (out, .ok code) ∧
    (code = -1 ↔ memory > 4000000 * cores)

/-! ### The loop over the lines -/

section

variable {lines : List String} {line : String} {request : Request}

/-- The characters of the three directives, with what follows them. -/
theorem toList_ncpus (n : Decimal) (tail : List Char) :
    ((CpuDirective.ncpus n).text ++ String.ofList tail).toList = ncpusChars (n.digits ++ tail) := by
  show ("#PBS -l ncpus=" ++ String.ofList n.digits ++ String.ofList tail).toList = _
  rw [String.toList_append, String.toList_append, String.toList_ofList, String.toList_ofList,
    String.toList_ofList, List.append_assoc]
  rfl

theorem toList_nodes (n : Decimal) (tail : List Char) :
    ((CpuDirective.nodes n).text ++ String.ofList tail).toList = nodesChars (n.digits ++ tail) := by
  show ("#PBS -l nodes=1:ppn=" ++ String.ofList n.digits ++ String.ofList tail).toList = _
  rw [String.toList_append, String.toList_append, String.toList_ofList, String.toList_ofList,
    String.toList_ofList, List.append_assoc]
  rfl

theorem toList_mem (n : Decimal) (tail : List Char) :
    (memText n ++ String.ofList tail).toList = memChars (n.digits ++ 'k' :: 'b' :: tail) := by
  rw [memText, String.toList_append, String.toList_append, String.toList_append,
    String.toList_ofList, String.toList_ofList, String.toList_ofList, String.toList_ofList,
    List.append_assoc, List.append_assoc]
  rfl

/-- The loop comes to the first directive for a resource with the variables it began with. -/
theorem leads_foldlM_of_filter {rest : List String} (haccount : ∀ line ∈ lines, ¬isAccount line)
    (hfilter : lines.filter isResource = line :: rest) :
    ∃ after : List String, (∀ line ∈ after, ¬isAccount line) ∧ after.filter isResource = rest ∧
      ∀ (request : Request) {r : Except Exit Request},
        Leads (readLine request line >>= fun request ↦ after.foldlM readLine request) r →
          Leads (lines.foldlM readLine request) r := by
  obtain ⟨before, after, rfl, hbefore, -, hafter⟩ := List.filter_eq_cons_iff.1 hfilter
  refine ⟨after, fun line hline ↦ haccount line (List.mem_append_right _ (.tail _ hline)), hafter,
    fun request r h ↦ ?_⟩
  rw [List.foldlM_append]
  refine (leads_foldlM_of_other
    (fun line hline ↦ haccount line (List.mem_append_left _ hline)) hbefore).bind ?_
  rw [List.foldlM_cons]
  exact h

/-- Two directives among other lines are read one after the other. -/
theorem leads_foldlM_pair {line' : String} {ofLine : Request} {r : Except Exit Request}
    (haccount : ∀ line ∈ lines, ¬isAccount line)
    (hfilter : lines.filter isResource = [line, line'])
    (hline : Leads (readLine request line) (.ok ofLine))
    (hline' : Leads (readLine ofLine line') r) : Leads (lines.foldlM readLine request) r := by
  obtain ⟨rest, hrestAccount, hrestFilter, hlines⟩ := leads_foldlM_of_filter haccount hfilter
  obtain ⟨after, hafterAccount, hafterFilter, hrest⟩ :=
    leads_foldlM_of_filter hrestAccount hrestFilter
  refine hlines request (hline.bind (hrest ofLine ?_))
  rcases r with e | ofLines
  · exact hline'.bind_error _
  · rw [List.filter_eq_nil_iff] at hafterFilter
    exact hline'.bind (leads_foldlM_of_other hafterAccount hafterFilter)

/-- A directive that lets nothing pass ends the loop. -/
theorem leads_foldlM_error {rest : List String} {e : Exit}
    (haccount : ∀ line ∈ lines, ¬isAccount line)
    (hfilter : lines.filter isResource = line :: rest)
    (hline : Leads (readLine request line) (.error e)) :
    Leads (lines.foldlM readLine request) (.error e) := by
  obtain ⟨after, -, -, hlines⟩ := leads_foldlM_of_filter haccount hfilter
  exact hlines request (hline.bind_error _)

end

/-! ### The whole filter -/

section

variable {env : Environment} {lines argv : List String} {mem : Decimal}

/-- A script with `ncpus` is read completely, ... -/
theorem leads_foldlM_ncpus {n : Decimal} (h : IsScript (.ncpus n) mem lines) :
    Leads (lines.foldlM readLine {})
      (.ok { nodeCount := 1, ppnCount := leadingTwo n.value, memory := mem.value }) := by
  obtain ⟨haccount, cpuEnd, memEnd, hcpu, hmem, hfilter⟩ := h
  rcases hfilter with hfilter | hfilter
  · exact leads_foldlM_pair haccount hfilter (leads_readLine_ncpus n hcpu (toList_ncpus n cpuEnd))
      (leads_readLine_mem mem hmem (toList_mem mem memEnd))
  · exact leads_foldlM_pair haccount hfilter (leads_readLine_mem mem hmem (toList_mem mem memEnd))
      (leads_readLine_ncpus n hcpu (toList_ncpus n cpuEnd))

/-- ... and one with `nodes` raises. -/
theorem leads_foldlM_nodes {n : Decimal} (h : IsScript (.nodes n) mem lines) :
    Leads (lines.foldlM readLine {}) (.error (.raised pwdNotDefined)) := by
  obtain ⟨haccount, cpuEnd, memEnd, hcpu, hmem, hfilter⟩ := h
  rcases hfilter with hfilter | hfilter
  · exact leads_foldlM_error haccount hfilter (leads_readLine_nodes (toList_nodes n cpuEnd))
  · exact leads_foldlM_pair haccount hfilter (leads_readLine_mem mem hmem (toList_mem mem memEnd))
      (leads_readLine_nodes (toList_nodes n cpuEnd))

/-- Without `-A` the arguments leave the account as it was. -/
theorem leads_argvAccount (hargv : "-A" ∉ argv) (accountString : Option String) :
    Leads (argvAccount argv accountString) (.ok accountString) := by
  induction argv with
  | nil => exact leads_pure accountString
  | cons arg argv ih =>
    have hne : arg ≠ "-A" := fun h ↦ hargv (h ▸ List.mem_cons_self ..)
    show Leads (if arg = "-A" then _ else argvAccount argv accountString) (.ok accountString)
    rw [if_neg hne]
    exact ih fun h ↦ hargv (.tail _ h)

/-- `ncpus`: the memory is divided by the first two digits of the number. -/
theorem leads_run_ncpus (env : Environment) {n : Decimal} (h : IsScript (.ncpus n) mem lines)
    (hargv : "-A" ∉ argv) :
    Leads (run env lines (some argv))
      (.ok (if mem.value / leadingTwo n.value > 4000000 then -1 else 0)) := by
  refine (leads_foldlM_ncpus h).bind ?_
  have hmemory : (mem.value : ℤ) > 0 := Int.natCast_pos.2 mem.value_pos
  have hdiv : (mem.value : ℤ) / (1 * (leadingTwo n.value : ℤ)) > 4000000 ↔
      mem.value / leadingTwo n.value > 4000000 := by
    rw [one_mul, ← Int.natCast_div]
    omega
  show Leads (if (1 : ℤ) > 0 ∧ (mem.value : ℤ) > 0 ∧
    (mem.value : ℤ) / (1 * (leadingTwo n.value : ℤ)) > 4000000 then _ else _) _
  rcases Nat.lt_or_ge 4000000 (mem.value / leadingTwo n.value) with hlarge | hsmall
  · rw [if_pos ⟨Int.one_pos, hmemory, hdiv.2 hlarge⟩, if_pos hlarge]
    exact (leads_writeErr _).bind (leads_pure _)
  · rw [if_neg fun h ↦ absurd (hdiv.1 h.2.2) hsmall.not_gt, if_neg hsmall.not_gt]
    exact (leads_argvAccount hargv none).bind (leads_pure 0)

/-- `nodes`: an exception. -/
theorem leads_run_nodes (env : Environment) (argv : List String) {n : Decimal}
    (h : IsScript (.nodes n) mem lines) :
    Leads (run env lines (some argv)) (.error (.raised pwdNotDefined)) :=
  (leads_foldlM_nodes h).bind_error _

/-- The exit code of the filter. -/
theorem main_of_leads_ok {code : ℤ} (h : Leads (run env lines (some argv)) (.ok code)) :
    ∃ out, main env lines (some argv) = (out, .ok code) := by
  have hrun := h {}
  rw [Ends] at hrun
  rw [main]
  rcases hresult : run env lines (some argv) {} with ⟨code', out⟩ | ⟨e, out⟩
  · rw [hresult] at hrun
    obtain rfl := Except.ok.inj hrun
    exact ⟨out, rfl⟩
  · rw [hresult] at hrun
    cases hrun

/-- An exception that the filter does not catch. -/
theorem main_of_leads_raised {e : PyError}
    (h : Leads (run env lines (some argv)) (.error (.raised e))) :
    ∃ out, main env lines (some argv) = (out, .error e) := by
  have hrun := h {}
  rw [Ends] at hrun
  rw [main]
  rcases hresult : run env lines (some argv) {} with ⟨code', out⟩ | ⟨e', out⟩
  · rw [hresult] at hrun
    cases hrun
  · rw [hresult] at hrun
    obtain rfl := Except.error.inj hrun
    exact ⟨out, rfl⟩

end

/-! ### When the policy holds -/

/-- The cut of the number of cores and the division make no difference: with up to 99 cores, the
memory is not between 4000000 kB and 4000001 kB for each core; with more, the memory is not within
the limit while it is 4000001 kB or more for each of the cores that the first two digits are. -/
def Exact (cores memory : ℕ) : Prop :=
  if cores < 100 then ¬(4000000 * cores < memory ∧ memory < 4000001 * cores)
  else ¬(4000001 * leadingTwo cores ≤ memory ∧ memory ≤ 4000000 * cores)

/-- A number with two digits or one is read as it is. -/
theorem leadingTwo_of_lt {n : ℕ} (h : n < 100) : leadingTwo n = n := by
  rw [leadingTwo, if_pos h]

/-- A number with three digits or more is ten times its first two or more. -/
theorem le_of_leadingTwo {n : ℕ} (h : 100 ≤ n) : 10 ≤ leadingTwo n ∧ 10 * leadingTwo n ≤ n := by
  induction n using Nat.strong_induction_on with
  | h n ih =>
    rw [leadingTwo, if_neg (by omega)]
    rcases Nat.lt_or_ge (n / 10) 100 with hlt | hge
    · rw [leadingTwo_of_lt hlt]
      omega
    · have hdigits := ih (n / 10) (by omega) hge
      omega

/-- What the filter computes against what it is to compute. -/
theorem exact_iff {cores memory : ℕ} (hcores : 0 < cores) :
    (memory / leadingTwo cores > 4000000 ↔ memory > 4000000 * cores) ↔ Exact cores memory := by
  rw [Exact]
  rcases Nat.lt_or_ge cores 100 with hlt | hge
  · have hdiv : memory / cores > 4000000 ↔ 4000001 * cores ≤ memory :=
      Nat.le_div_iff_mul_le hcores
    rw [leadingTwo_of_lt hlt, hdiv, if_pos hlt]
    omega
  · obtain ⟨hten, hle⟩ := le_of_leadingTwo hge
    have hdiv : memory / leadingTwo cores > 4000000 ↔ 4000001 * leadingTwo cores ≤ memory :=
      Nat.le_div_iff_mul_le (by omega)
    rw [hdiv, if_neg (by omega)]
    omega

/-- **The policy holds exactly for a script with `ncpus` whose numbers are not affected by the cut
and the division.** -/
theorem policyHolds_iff (env : Environment) (lines argv : List String) (cpu : CpuDirective)
    (mem : Decimal) (hscript : IsScript cpu mem lines) (hargv : "-A" ∉ argv) :
    PolicyHolds env lines argv cpu.cores mem.value ↔
      ∃ n, cpu = .ncpus n ∧ Exact n.value mem.value := by
  rcases cpu with n | n
  · obtain ⟨out, hmain⟩ := main_of_leads_ok (leads_run_ncpus env hscript hargv)
    have hcode : (if mem.value / leadingTwo n.value > 4000000 then (-1 : ℤ) else 0) = -1 ↔
        mem.value / leadingTwo n.value > 4000000 := by
      split_ifs with hlarge <;> simp [hlarge]
    have hpolicy : PolicyHolds env lines argv n.value mem.value ↔ Exact n.value mem.value := by
      rw [← exact_iff n.value_pos, ← hcode]
      refine ⟨fun ⟨out', code, hmain', h⟩ ↦ ?_, fun h ↦ ⟨out, _, hmain, h⟩⟩
      obtain ⟨-, hcode'⟩ := Prod.mk.inj (hmain.symm.trans hmain')
      rw [Except.ok.inj hcode']
      exact h
    exact hpolicy.trans ⟨fun h ↦ ⟨n, rfl, h⟩, fun ⟨n', hn, h⟩ ↦ CpuDirective.ncpus.inj hn ▸ h⟩
  · obtain ⟨out, hmain⟩ := main_of_leads_raised (leads_run_nodes env argv hscript)
    constructor
    · rintro ⟨out', code, hmain', -⟩
      cases (Prod.mk.inj (hmain.symm.trans hmain')).2
    · rintro ⟨n', hn, -⟩
      cases hn

/-- A user, who is in no account. -/
def oneUser : Environment := ⟨"alice", some ""⟩

/-- 16000000 kB for four cores. -/
def fourCores : List String :=
  ["#!/bin/sh\n", "#PBS -l mem=16000000kb\n", "#PBS -N job\n", "#PBS -l ncpus=4\n", "hostname"]

theorem policyHolds_fourCores : PolicyHolds oneUser fourCores [] 4 16000000 := by
  have hscript : IsScript (.ncpus ⟨['4'], by decide, by decide⟩)
      ⟨['1', '6', '0', '0', '0', '0', '0', '0'], by decide, by decide⟩ fourCores :=
    ⟨by decide +kernel, ['\n'], ['\n'], List.forall_mem_singleton.2 rfl,
      List.forall_mem_singleton.2 rfl, .inr (by decide +kernel)⟩
  refine (policyHolds_iff oneUser fourCores [] _ _ hscript (by decide)).2 ⟨_, rfl, ?_⟩
  show Exact 4 16000000
  rw [Exact, if_pos (by decide)]
  omega

/-- A number of nodes raises. A hundred cores are taken for ten, so that they get too little. And a
job with two cores gets one kB too much. -/
theorem policy_broken :
    ¬PolicyHolds oneUser ["#PBS -l nodes=1:ppn=8\n", "#PBS -l mem=16kb\n"] [] 8 16 ∧
      ¬PolicyHolds oneUser ["#PBS -l ncpus=100\n", "#PBS -l mem=40000010kb\n"] [] 100 40000010 ∧
      ¬PolicyHolds oneUser ["#PBS -l ncpus=2\n", "#PBS -l mem=8000001kb\n"] [] 2 8000001 := by
  have hnodes : (main oneUser ["#PBS -l nodes=1:ppn=8\n", "#PBS -l mem=16kb\n"] (some [])).2 =
      .error pwdNotDefined := by decide +kernel
  have hhundred : (main oneUser ["#PBS -l ncpus=100\n", "#PBS -l mem=40000010kb\n"]
      (some [])).2 = .ok (-1) := by decide +kernel
  have htwo : (main oneUser ["#PBS -l ncpus=2\n", "#PBS -l mem=8000001kb\n"]
      (some [])).2 = .ok 0 := by decide +kernel
  refine ⟨?_, ?_, ?_⟩
  · rintro ⟨out, code, hmain, -⟩
    rw [hmain] at hnodes
    cases hnodes
  · rintro ⟨out, code, hmain, h⟩
    rw [hmain] at hhundred
    exact absurd (h.1 (Except.ok.inj hhundred)) (by decide)
  · rintro ⟨out, code, hmain, h⟩
    rw [hmain] at htwo
    have hcode := h.2 (by decide)
    rw [Except.ok.inj htwo] at hcode
    exact absurd hcode (by decide)

end DynamicTorque.QsubFilter
