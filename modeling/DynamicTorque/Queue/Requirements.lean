import DynamicTorque.Model.LocalCommands

/-!
# Reading the request of a job

`_get_vcpu_requirement` reads up to three texts of a job. `neednodes` and `ncpus` are tested for
digits before they are converted; `nodes`, which is read where one of the two is missing, is not.
The test lets digits through that are not decimal, and raises where the element has no text.

* `returns_countOrOne_iff`: when a text that is tested is read.
* `returns_getDefaultNodeLocation_iff`: a location may be missing too.
* `requirement_read_iff`: when a requirement is read, as equal natural numbers or as none.
-/

open Python

namespace DynamicTorque

open JobScheduler

/-! ### The parts -/

section Parts

variable {cfg : Config} {job : Job} {draw : ℕ}

/-- A text that is tested for digits, and is converted if it has only digits: they are decimal. -/
def CountText (text : Option String) : Prop :=
  ∃ s ∈ text, Unicode.isdigit s = true → ∀ c ∈ s.toList, (Unicode.decimal c).isSome

/-- **A text that is tested** is read exactly if its digits are decimal. -/
theorem returns_countOrOne_iff {text : Option String} :
    Returns (countOrOne text) ↔ CountText text := by
  rw [CountText]
  rcases text with _ | s
  · simp [countOrOne]
  · rw [countOrOne]
    split
    · rename_i h
      rw [Unicode.returns_int_iff h]
      exact ⟨fun hdecimal ↦ ⟨s, rfl, fun _ ↦ hdecimal⟩, fun ⟨_, ht, hdecimal⟩ ↦
        Option.some.inj ht ▸ hdecimal (Option.some.inj ht ▸ h)⟩
    · rename_i h
      exact ⟨fun _ ↦ ⟨s, rfl, fun hdigits ↦ absurd hdigits h⟩, fun _ ↦ returns_ok _⟩

/-- A superscript is a digit, and is not read. -/
example : ¬Returns (countOrOne (some "²")) := by decide

/-- What is read is natural. -/
theorem nat_of_countOrOne {text : Option String} {n : ℤ} (h : countOrOne text = .ok n) :
    ∃ k : ℕ, n = k := by
  rcases text with _ | s
  · cases h
  · rw [countOrOne] at h
    split at h
    · exact Unicode.nat_of_int ‹_› h
    · exact ⟨1, (Except.ok.inj h).symm⟩

/-- A text that is converted without a test, and gives a natural number. -/
def CoresText (text : Option String) : Prop :=
  ∃ n : ℕ, Unicode.intOfText text = .ok n

theorem returns_accountString_iff :
    Returns (accountString job) ↔ job.accountName.isSome ∨ job.queue.isSome := by
  rw [accountString]
  rcases job.accountName with _ | account
  · rcases job.queue with _ | queue
    · simp
    · simp
  · simp

/-- A draw from no keys raises. -/
theorem returns_choice_iff {keys : List String} :
    Returns (Config.choice keys draw) ↔ keys ≠ [] := by
  rw [Config.choice]
  rcases keys with _ | ⟨key, keys⟩
  · simp
  · have hlt : draw % (key :: keys).length < (key :: keys).length :=
      Nat.mod_lt _ (Nat.succ_pos _)
    rw [List.getElem?_eq_getElem hlt]
    simp

theorem returns_getDefaultNodeLocation_iff :
    Returns (cfg.getDefaultNodeLocation draw) ↔
      (cfg.defaultLocation = 1 → cfg.locationProperties.keys ≠ []) := by
  rw [Config.getDefaultNodeLocation]
  by_cases h : cfg.defaultLocation = 1
  · rw [if_pos h]
    refine (returns_bind_of_forall fun _ ↦ returns_ok _).trans (returns_choice_iff.trans ?_)
    exact ⟨fun hkeys _ ↦ hkeys, fun hkeys ↦ hkeys h⟩
  · rw [if_neg h]
    exact ⟨fun _ h' ↦ absurd h' h, fun _ ↦ returns_ok _⟩

end Parts

/-! ### The branches -/

/-- The request of a job is read, as no requirement or as equal natural numbers. -/
def RequirementRead (cfg : Config) (job : Job) (draw : ℕ) : Prop :=
  ∃ requirement location account,
    getVcpuRequirement cfg job draw = .ok (requirement, location, account) ∧
      ∀ reqs ∈ requirement, ∃ k n : ℕ, reqs = List.replicate k (n : ℤ)

section Branches

variable {cfg : Config} {job : Job} {draw : ℕ} {neednodes ncpus nodes : Option String}

/-- A branch that ends with a location and the account. -/
theorem read_bind_iff {x : Except PyError (Option (List ℤ))} :
    (∃ requirement location account,
      (do
        let account ← accountString job
        let requirement ← x
        let location ← cfg.getDefaultNodeLocation draw
        pure (requirement, location, account)) = .ok (requirement, location, account) ∧
      ∀ reqs ∈ requirement, ∃ k n : ℕ, reqs = List.replicate k (n : ℤ)) ↔
    Returns (accountString job) ∧ Returns (cfg.getDefaultNodeLocation draw) ∧
      ∃ requirement, x = .ok requirement ∧
        ∀ reqs ∈ requirement, ∃ k n : ℕ, reqs = List.replicate k (n : ℤ) := by
  constructor
  · rintro ⟨requirement, location, account, hread, huniform⟩
    obtain ⟨account', haccount, hread⟩ := bind_eq_ok.1 hread
    obtain ⟨requirement', hx, hread⟩ := bind_eq_ok.1 hread
    obtain ⟨location', hlocation, hread⟩ := bind_eq_ok.1 hread
    obtain ⟨rfl, -⟩ := Prod.mk.inj (Except.ok.inj hread)
    exact ⟨⟨_, haccount⟩, ⟨_, hlocation⟩, _, hx, huniform⟩
  · rintro ⟨⟨account, haccount⟩, ⟨location, hlocation⟩, requirement, hx, huniform⟩
    exact ⟨requirement, location, account, bind_eq_ok.2 ⟨_, haccount, bind_eq_ok.2
      ⟨_, hx, bind_eq_ok.2 ⟨_, hlocation, rfl⟩⟩⟩, huniform⟩

/-- Both `neednodes` and `ncpus`. -/
theorem read_iff_of_both (hneednodes : job.neednodes = some neednodes)
    (hncpus : job.ncpus = some ncpus) : RequirementRead cfg job draw ↔
      Returns (accountString job) ∧ Returns (cfg.getDefaultNodeLocation draw) ∧
        CountText neednodes ∧ CountText ncpus := by
  have hbranch : getVcpuRequirement cfg job draw = (do
      let account ← accountString job
      let requirement ← (do
        let numNodes ← countOrOne neednodes
        let numCores ← countOrOne ncpus
        pure (some (List.replicate numNodes.toNat numCores)))
      let location ← cfg.getDefaultNodeLocation draw
      pure (requirement, location, account)) := by
    simp only [getVcpuRequirement, hneednodes, hncpus, bind_assoc, pure_bind]
  rw [RequirementRead, hbranch, read_bind_iff, ← returns_countOrOne_iff, ← returns_countOrOne_iff]
  refine and_congr_right fun _ ↦ and_congr_right fun _ ↦ ?_
  constructor
  · rintro ⟨requirement, hread, -⟩
    obtain ⟨numNodes, hnumNodes, hread⟩ := bind_eq_ok.1 hread
    obtain ⟨numCores, hnumCores, -⟩ := bind_eq_ok.1 hread
    exact ⟨⟨_, hnumNodes⟩, _, hnumCores⟩
  · rintro ⟨⟨numNodes, hnumNodes⟩, numCores, hnumCores⟩
    obtain ⟨n, rfl⟩ := nat_of_countOrOne hnumCores
    refine ⟨_, bind_eq_ok.2 ⟨_, hnumNodes, bind_eq_ok.2 ⟨_, hnumCores, rfl⟩⟩, fun reqs hreqs ↦ ?_⟩
    exact ⟨numNodes.toNat, n, (Option.some.inj hreqs).symm⟩

/-- `nodes` where one of the two is missing. -/
theorem read_iff_of_nodes (hmissing : job.neednodes = none ∨ job.ncpus = none)
    (hnodes : job.nodes = some nodes) : RequirementRead cfg job draw ↔
      Returns (accountString job) ∧ Returns (cfg.getDefaultNodeLocation draw) ∧
        CoresText nodes := by
  have hbranch : getVcpuRequirement cfg job draw = (do
      let account ← accountString job
      let requirement ← (do
        let numCores ← Unicode.intOfText nodes
        pure (some [numCores]))
      let location ← cfg.getDefaultNodeLocation draw
      pure (requirement, location, account)) := by
    rw [getVcpuRequirement]
    rcases hmissing with hnone | hnone
    · simp only [hnone, hnodes, bind_assoc, pure_bind]
    · cases job.neednodes with
      | none => simp only [hnone, hnodes, bind_assoc, pure_bind]
      | some _ => simp only [hnone, hnodes, bind_assoc, pure_bind]
  rw [RequirementRead, hbranch, read_bind_iff]
  refine and_congr_right fun _ ↦ and_congr_right fun _ ↦ ?_
  constructor
  · rintro ⟨requirement, hread, huniform⟩
    obtain ⟨numCores, hint, hread⟩ := bind_eq_ok.1 hread
    obtain rfl := Except.ok.inj hread
    obtain ⟨k, n, hreplicate⟩ := huniform _ rfl
    -- a list of one element is its element once
    have hmem : numCores ∈ List.replicate k (n : ℤ) := hreplicate ▸ List.mem_singleton_self _
    exact ⟨n, (List.mem_replicate.1 hmem).2 ▸ hint⟩
  · rintro ⟨n, hint⟩
    refine ⟨some [(n : ℤ)], bind_eq_ok.2 ⟨_, hint, rfl⟩, fun reqs hreqs ↦ ⟨1, n, ?_⟩⟩
    exact (Option.some.inj hreqs).symm

/-- None of the three. -/
theorem read_iff_of_none (hneednodes : job.neednodes = none) (hncpus : job.ncpus = none)
    (hnodes : job.nodes = none) : RequirementRead cfg job draw ↔
      Returns (accountString job) ∧ Returns (cfg.getDefaultNodeLocation draw) := by
  have hbranch : getVcpuRequirement cfg job draw = (do
      let account ← accountString job
      let requirement ← (.ok (some [1]) : Except PyError _)
      let location ← cfg.getDefaultNodeLocation draw
      pure (requirement, location, account)) := by
    simp only [getVcpuRequirement, hneednodes, hncpus, hnodes]
    rfl
  rw [RequirementRead, hbranch, read_bind_iff]
  refine and_congr_right fun _ ↦ and_iff_left ⟨_, rfl, fun reqs hreqs ↦ ⟨1, 1, ?_⟩⟩
  exact (Option.some.inj hreqs).symm

/-- One of `neednodes` and `ncpus`, and nothing else. -/
theorem read_iff_of_one (hone : job.neednodes.isSome ↔ job.ncpus = none)
    (hnodes : job.nodes = none) :
    RequirementRead cfg job draw ↔ Returns (accountString job) := by
  have hbranch : getVcpuRequirement cfg job draw = (do
      let account ← accountString job
      pure (none, none, account)) := by
    rw [getVcpuRequirement]
    cases hneednodes : job.neednodes with
    | none =>
      cases hncpus : job.ncpus with
      | none => simp [hneednodes, hncpus] at hone
      | some ncpus => simp only [hnodes]
    | some neednodes => simp only [hone.1 (by rw [hneednodes]; rfl), hnodes]
  rw [RequirementRead, hbranch]
  constructor
  · rintro ⟨requirement, location, account, hread, -⟩
    obtain ⟨account', haccount, -⟩ := bind_eq_ok.1 hread
    exact ⟨account', haccount⟩
  · rintro ⟨account, haccount⟩
    exact ⟨none, none, account, bind_eq_ok.2 ⟨_, haccount, rfl⟩, fun _ h ↦
      absurd h (Option.some_ne_none _).symm⟩

end Branches

/-! ### The condition -/

/-- A job whose request is read. -/
structure Job.Readable (cfg : Config) (job : Job) : Prop where
  account : job.accountName.isSome ∨ job.queue.isSome
  /-- Where both are there, they are tested. -/
  counts : ∀ neednodes ∈ job.neednodes, ∀ ncpus ∈ job.ncpus, CountText neednodes ∧ CountText ncpus
  nodes : ¬(job.neednodes.isSome ∧ job.ncpus.isSome) → ∀ nodes ∈ job.nodes, CoresText nodes
  /-- A location can be drawn, or the job is left alone. -/
  location : (cfg.defaultLocation = 1 → cfg.locationProperties.keys ≠ []) ∨
    job.nodes = none ∧ (job.neednodes.isSome ↔ job.ncpus = none)

section Readable

variable {cfg : Config} {job : Job} {draw : ℕ} {neednodes ncpus nodes : Option String}

/-- Where one of the two is missing, neither is tested. -/
theorem counts_of_missing (hmissing : job.neednodes = none ∨ job.ncpus = none) :
    ∀ neednodes ∈ job.neednodes, ∀ ncpus ∈ job.ncpus, CountText neednodes ∧ CountText ncpus := by
  intro neednodes hneednodes ncpus hncpus
  rcases hmissing with hnone | hnone
  · exact absurd (hneednodes.symm.trans hnone) (Option.some_ne_none _)
  · exact absurd (hncpus.symm.trans hnone) (Option.some_ne_none _)

/-- Where both are there. -/
theorem readable_iff_of_both (hneednodes : job.neednodes = some neednodes)
    (hncpus : job.ncpus = some ncpus) : job.Readable cfg ↔
      Returns (accountString job) ∧ Returns (cfg.getDefaultNodeLocation draw) ∧
        CountText neednodes ∧ CountText ncpus := by
  rw [returns_accountString_iff, returns_getDefaultNodeLocation_iff]
  constructor
  · intro h
    refine ⟨h.account, h.location.resolve_right fun hone ↦ ?_,
      h.counts neednodes hneednodes ncpus hncpus⟩
    simp [hneednodes, hncpus] at hone
  · rintro ⟨haccount, hlocation, hcounted⟩
    refine ⟨haccount, fun neednodes' hneednodes' ncpus' hncpus' ↦ ?_, fun hmissing ↦ ?_,
      .inl hlocation⟩
    · rw [hneednodes] at hneednodes'
      rw [hncpus] at hncpus'
      exact Option.some.inj hneednodes' ▸ Option.some.inj hncpus' ▸ hcounted
    · exact absurd ⟨by rw [hneednodes]; rfl, by rw [hncpus]; rfl⟩ hmissing

/-- Where none of the three is there. -/
theorem readable_iff_of_none (hneednodes : job.neednodes = none) (hncpus : job.ncpus = none)
    (hnodes : job.nodes = none) : job.Readable cfg ↔
      Returns (accountString job) ∧ Returns (cfg.getDefaultNodeLocation draw) := by
  rw [returns_accountString_iff, returns_getDefaultNodeLocation_iff]
  constructor
  · intro h
    refine ⟨h.account, h.location.resolve_right fun hone ↦ ?_⟩
    simp [hneednodes, hncpus] at hone
  · rintro ⟨haccount, hlocation⟩
    refine ⟨haccount, counts_of_missing (.inl hneednodes), fun _ nodes hsome ↦ ?_, .inl hlocation⟩
    exact absurd (hsome.symm.trans hnodes) (Option.some_ne_none _)

/-- Where `nodes` is read. -/
theorem readable_iff_of_nodes (hmissing : job.neednodes = none ∨ job.ncpus = none)
    (hnodes : job.nodes = some nodes) : job.Readable cfg ↔
      Returns (accountString job) ∧ Returns (cfg.getDefaultNodeLocation draw) ∧
        CoresText nodes := by
  rw [returns_accountString_iff, returns_getDefaultNodeLocation_iff]
  constructor
  · intro h
    refine ⟨h.account, h.location.resolve_right fun hleft ↦ ?_, h.nodes ?_ nodes hnodes⟩
    · exact Option.some_ne_none _ (hnodes.symm.trans hleft.1)
    · rintro ⟨hneednodes, hncpus⟩
      rcases hmissing with hnone | hnone
      · simp [hnone] at hneednodes
      · simp [hnone] at hncpus
  · rintro ⟨haccount, hlocation, hnatural⟩
    refine ⟨haccount, counts_of_missing hmissing, fun _ nodes' hnodes' ↦ ?_, .inl hlocation⟩
    exact Option.some.inj (hnodes.symm.trans hnodes') ▸ hnatural

/-- Where the job is left alone. -/
theorem readable_iff_of_one (hone : job.neednodes.isSome ↔ job.ncpus = none)
    (hnodes : job.nodes = none) : job.Readable cfg ↔ Returns (accountString job) := by
  rw [returns_accountString_iff]
  have hmissing : job.neednodes = none ∨ job.ncpus = none := by
    rcases hneednodes : job.neednodes with _ | neednodes
    · exact .inl rfl
    · exact .inr (hone.1 (by rw [hneednodes]; rfl))
  refine ⟨fun h ↦ h.account, fun haccount ↦ ⟨haccount, counts_of_missing hmissing,
    fun _ nodes hsome ↦ ?_, .inr ⟨hnodes, hone⟩⟩⟩
  exact absurd (hsome.symm.trans hnodes) (Option.some_ne_none _)

/-- **The request of a job is read**, as no requirement or as equal natural numbers, exactly if the
job has an account or a queue, `neednodes` and `ncpus` pass their test where both are there, `nodes`
is a natural number where it is read, and there is a location to draw where one is. -/
theorem requirement_read_iff (cfg : Config) (job : Job) (draw : ℕ) :
    RequirementRead cfg job draw ↔ job.Readable cfg := by
  cases hneednodes : job.neednodes with
  | none =>
    cases hnodes : job.nodes with
    | some nodes =>
      exact (read_iff_of_nodes (.inl hneednodes) hnodes).trans
        (readable_iff_of_nodes (.inl hneednodes) hnodes).symm
    | none =>
      cases hncpus : job.ncpus with
      | none =>
        exact (read_iff_of_none hneednodes hncpus hnodes).trans
          (readable_iff_of_none hneednodes hncpus hnodes).symm
      | some ncpus =>
        have hone : job.neednodes.isSome ↔ job.ncpus = none := by simp [hneednodes, hncpus]
        exact (read_iff_of_one hone hnodes).trans (readable_iff_of_one hone hnodes).symm
  | some neednodes =>
    cases hncpus : job.ncpus with
    | some ncpus =>
      exact (read_iff_of_both hneednodes hncpus).trans
        (readable_iff_of_both hneednodes hncpus).symm
    | none =>
      cases hnodes : job.nodes with
      | some nodes =>
        exact (read_iff_of_nodes (.inr hncpus) hnodes).trans
          (readable_iff_of_nodes (.inr hncpus) hnodes).symm
      | none =>
        have hone : job.neednodes.isSome ↔ job.ncpus = none := by simp [hneednodes, hncpus]
        exact (read_iff_of_one hone hnodes).trans (readable_iff_of_one hone hnodes).symm

/-- A job that asks for one node with four cores, as `qstat` prints it. -/
def fourCores : RawJob :=
  { jobId := "7.server", jobState := "Q", queue := "batch", nodes := some "1:ppn=4" }

/-- It is delivered, and raises. -/
theorem node_syntax_raises :
    ¬∀ (cfg : Config) (rawJobs : List RawJob) (draw : ℕ),
      ∀ job ∈ (qstatToJobList cfg (.root rawJobs)).2.1, RequirementRead cfg job draw := by
  intro h
  have hdelivered : (qstatToJobList {} (.root [fourCores])).2.1 =
      [fourCores.toJob (some (-1))] := by decide +kernel
  obtain ⟨_, _, _, hread, -⟩ := h {} [fourCores] 0 (fourCores.toJob (some (-1)))
    (hdelivered ▸ List.mem_singleton_self _)
  have hraises : getVcpuRequirement {} (fourCores.toJob (some (-1))) 0 =
      .error (.valueError "1:ppn=4") := by decide +kernel
  exact absurd (hraises.symm.trans hread) (by simp)

end Readable

end DynamicTorque
