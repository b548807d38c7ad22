import DynamicTorque.Configuration.StaticSyntax

/-!
# The sections of the cloud-resources file

The local variables `static_worker_nodes` and `account_string` of the parser are assigned only where
a section has the option, and live across the passes of its loop. So a section without one of them
takes the value of an earlier section, and the first complete section raises.

* `assign_eq`: a section that has both options leaves nothing to the pass before.
* `lookup_of_parse`: the object of a section is built in its own pass, and kept.
* `parse_donor`: a section before it lends its texts to a section without the options.
* `independent_iff`: so the objects are independent of the other sections exactly if every complete
  section has both options.
-/

open Python

namespace DynamicTorque

/-! ### One pass -/

/-- A section with the mandatory options. -/
def Section.Complete (resource : Section) : Prop :=
  resource.cloudUsername.isSome ∧ resource.cloudPassword.isSome ∧ resource.cloudTenantName.isSome

section Pass

variable {cfg : Config} {settings : ImageSettings} {resource : Section} {locals : ParserLocals}
  {u p t : String} {args : ResourceArguments}

theorem exists_credentials (h : resource.Complete) :
    ∃ u p t, resource.credentials = some (u, p, t) := by
  obtain ⟨u, hu⟩ := Option.isSome_iff_exists.1 h.1
  obtain ⟨p, hp⟩ := Option.isSome_iff_exists.1 h.2.1
  obtain ⟨t, ht⟩ := Option.isSome_iff_exists.1 h.2.2
  refine ⟨u, p, t, ?_⟩
  rw [Section.credentials, hu, hp, ht]
  rfl

theorem complete_of_credentials (h : resource.credentials = some (u, p, t)) :
    resource.Complete := by
  rw [Section.credentials, Option.bind_eq_bind, Option.bind_eq_some_iff] at h
  obtain ⟨_, hu, hrest⟩ := h
  obtain ⟨_, hp, hrest⟩ := Option.bind_eq_some_iff.1 hrest
  obtain ⟨_, ht, -⟩ := Option.bind_eq_some_iff.1 hrest
  exact ⟨Option.isSome_of_eq_some hu, Option.isSome_of_eq_some hp, Option.isSome_of_eq_some ht⟩

/-- The static text never raises. -/
theorem returns_staticVmList : Returns (resource.staticVmList cfg) := by
  rw [Section.staticVmList]
  split
  · rename_i text _
    by_cases h : ∃ location, cfg.staticLocation = some location ∧ location ≠ ""
    · obtain ⟨location, hlocation, hne⟩ := h
      exact ⟨_, parseStaticWorkerNodes_eq hlocation hne text⟩
    · exact ⟨_, parseStaticWorkerNodes_of_not h text⟩
  · exact returns_ok _

theorem boundLocal_eq_ok {α : Type} {name : String} {value : Option α} {a : α} :
    boundLocal name value = .ok a ↔ value = some a := by
  cases value with
  | none => simp [boundLocal]
  | some b => simp [boundLocal]

/-- **The call of `CloudResource`** returns if the number is readable and both variables have a
value, which the object keeps. -/
theorem arguments_eq_ok (h : resource.arguments cfg settings locals u p t = .ok args) :
    Returns resource.number ∧
      (resource.assign locals).staticWorkerNodes = some args.staticWorkerNodes ∧
      (resource.assign locals).accountString = args.accountString := by
  obtain ⟨n, hn, h⟩ := bind_eq_ok.1 h
  obtain ⟨vms, -, h⟩ := bind_eq_ok.1 h
  obtain ⟨text, htext, h⟩ := bind_eq_ok.1 h
  obtain ⟨account, haccount, h⟩ := bind_eq_ok.1 h
  obtain rfl := (Except.ok.inj h).symm
  exact ⟨⟨n, hn⟩, boundLocal_eq_ok.1 htext, boundLocal_eq_ok.1 haccount⟩

theorem returns_arguments (hnumber : Returns resource.number)
    (htext : (resource.assign locals).staticWorkerNodes.isSome)
    (haccount : (resource.assign locals).accountString.isSome) :
    Returns (resource.arguments cfg settings locals u p t) := by
  obtain ⟨n, hn⟩ := hnumber
  obtain ⟨vms, hvms⟩ : Returns (resource.staticVmList cfg) := returns_staticVmList
  obtain ⟨text, htext⟩ := Option.isSome_iff_exists.1 htext
  obtain ⟨account, haccount⟩ := Option.isSome_iff_exists.1 haccount
  exact returns_bind.2 ⟨n, hn, returns_bind.2 ⟨vms, hvms, returns_bind.2
    ⟨text, boundLocal_eq_ok.2 htext, returns_bind.2
      ⟨account, boundLocal_eq_ok.2 haccount, returns_ok _⟩⟩⟩⟩

/-- A section that has both options leaves nothing to the pass before. -/
theorem assign_eq (haccount : resource.accountString.isSome)
    (htext : resource.staticWorkerNodes.isSome) (locals' : ParserLocals) :
    resource.assign locals = resource.assign locals' := by
  obtain ⟨account, haccount⟩ := Option.isSome_iff_exists.1 haccount
  obtain ⟨text, htext⟩ := Option.isSome_iff_exists.1 htext
  rw [Section.assign, Section.assign, haccount, htext]
  rfl

/-- The pass before matters through the assigned variables only. -/
theorem arguments_congr {locals' : ParserLocals}
    (h : resource.assign locals = resource.assign locals') :
    resource.arguments cfg settings locals u p t =
      resource.arguments cfg settings locals' u p t := by
  rw [Section.arguments, Section.arguments, h]

/-- **A pass over a complete section.** -/
theorem parseSection_of_complete (hcredentials : resource.credentials = some (u, p, t))
    (resources : Dict ResourceArguments) :
    parseSection cfg settings (locals, resources) resource =
      (resource.arguments cfg settings locals u p t).map fun args ↦
        (resource.assign locals, resources.insert resource.name args) := by
  rw [parseSection, hcredentials]
  show resource.arguments cfg settings locals u p t >>= _ = _
  cases resource.arguments cfg settings locals u p t with
  | error e => rfl
  | ok args => rfl

end Pass

/-! ### The loop -/

section Loop

variable {cfg : Config} {settings : ImageSettings} {resource : Section} {sections : List Section}
  {state state' : ParserLocals × Dict ResourceArguments} {name : String}

/-- A pass sets the object of its own section only. -/
theorem lookup_parseSection (hname : name ≠ resource.name)
    (h : parseSection cfg settings state resource = .ok state') :
    state'.2.lookup name = state.2.lookup name := by
  rw [parseSection] at h
  split at h
  · rw [Except.ok.inj h]
  · obtain ⟨args, -, hargs⟩ := bind_eq_ok.1 h
    rw [← Except.ok.inj hargs]
    exact AList.lookup_insert_ne hname

theorem lookup_foldlM (hname : name ∉ sections.map Section.name)
    (h : sections.foldlM (parseSection cfg settings) state = .ok state') :
    state'.2.lookup name = state.2.lookup name := by
  induction sections generalizing state with
  | nil => rw [Except.ok.inj h]
  | cons resource sections ih =>
    rw [List.foldlM_cons] at h
    obtain ⟨mid, hmid, hrest⟩ := bind_eq_ok.1 h
    rw [List.map_cons, List.mem_cons, not_or] at hname
    rw [ih hname.2 hrest, lookup_parseSection hname.1 hmid]

/-- **The object of a complete section** is built in its pass, and kept. -/
theorem lookup_of_parse {file : ResourcesFile} {resources : Dict ResourceArguments} {u p t : String}
    (h : parseCloudResourcesConfigFile cfg settings file = .ok resources)
    (hmem : resource ∈ file.sections) (hcredentials : resource.credentials = some (u, p, t)) :
    ∃ locals args, resource.arguments cfg settings locals u p t = .ok args ∧
      resources.lookup resource.name = some args := by
  obtain ⟨last, hloop, hlast⟩ := bind_eq_ok.1 h
  obtain rfl := Except.ok.inj hlast
  obtain ⟨before, after, hsections⟩ := List.append_of_mem hmem
  have hnodup := file.nodup
  rw [hsections, List.map_append, List.map_cons, List.nodup_append'] at hnodup
  rw [hsections, List.foldlM_append] at hloop
  obtain ⟨⟨locals, built⟩, -, hrest⟩ := bind_eq_ok.1 hloop
  rw [List.foldlM_cons] at hrest
  obtain ⟨mid, hpass, hafter⟩ := bind_eq_ok.1 hrest
  rw [lookup_foldlM (List.nodup_cons.1 hnodup.2.1).1 hafter]
  rw [parseSection_of_complete hcredentials] at hpass
  cases hargs : resource.arguments cfg settings locals u p t with
  | error e =>
    rw [hargs] at hpass
    exact absurd hpass (by simp [Except.map])
  | ok args =>
    rw [hargs] at hpass
    obtain rfl := Except.ok.inj hpass
    exact ⟨locals, args, hargs, AList.lookup_insert _⟩

/-- The loop returns if every complete section has a readable number and both options. -/
theorem returns_foldlM (h : ∀ resource ∈ sections, resource.Complete → Returns resource.number ∧
      resource.accountString.isSome ∧ resource.staticWorkerNodes.isSome) :
    Returns (sections.foldlM (parseSection cfg settings) state) := by
  induction sections generalizing state with
  | nil => exact returns_ok _
  | cons resource sections ih =>
    rw [List.forall_mem_cons] at h
    rw [List.foldlM_cons, returns_bind]
    cases hcredentials : resource.credentials with
    | none =>
      refine ⟨state, ?_, ih h.2⟩
      rw [parseSection, hcredentials]
    | some credentials =>
      obtain ⟨u, p, t⟩ := credentials
      obtain ⟨hnumber, haccount, htext⟩ := h.1 (complete_of_credentials hcredentials)
      obtain ⟨args, hargs⟩ : Returns (resource.arguments cfg settings state.1 u p t) :=
        returns_arguments hnumber (by rw [Section.assign, Option.isSome_or, htext]; rfl)
          (by rw [Section.assign, Option.isSome_or, haccount]; rfl)
      refine ⟨(resource.assign state.1, state.2.insert resource.name args), ?_, ih h.2⟩
      rw [← Prod.mk.eta (p := state), parseSection_of_complete hcredentials, hargs]
      rfl

end Loop

/-! ### A donor -/

/-- A complete section whose two texts are `text`. -/
def donor (name text : String) : Section where
  name := name
  cloudUsername := some ""
  cloudPassword := some ""
  cloudTenantName := some ""
  staticWorkerNodes := some text
  accountString := some text

/-- A file with a donor before a section. -/
def donorFile (resource : Section) (text : String) : ResourcesFile where
  sections := [donor (resource.name ++ "2") text, resource]
  nodup := by simp [donor]

section Donor

variable {resource : Section}

/-- **A section takes from the one before it** what it does not have itself. -/
theorem parse_donor (cfg : Config) (settings : ImageSettings) (hcomplete : resource.Complete)
    (hnumber : Returns resource.number) (text : String) :
    ∃ resources args, parseCloudResourcesConfigFile cfg settings (donorFile resource text) =
        .ok resources ∧ resources.lookup resource.name = some args ∧
      args.staticWorkerNodes = resource.staticWorkerNodes.getD text ∧
      args.accountString = some (resource.accountString.getD text) := by
  obtain ⟨u, p, t, hcredentials⟩ := exists_credentials hcomplete
  obtain ⟨first, hfirst⟩ : Returns ((donor (resource.name ++ "2") text).arguments cfg settings {}
      "" "" "") := returns_arguments (returns_ok 1) rfl rfl
  obtain ⟨args, hargs⟩ : Returns (resource.arguments cfg settings ⟨some text, some text⟩ u p t) :=
    returns_arguments hnumber (by rw [Section.assign, Option.isSome_or, Bool.or_comm]; rfl)
      (by rw [Section.assign, Option.isSome_or, Bool.or_comm]; rfl)
  have hdonor : parseSection cfg settings ({}, ∅) (donor (resource.name ++ "2") text) =
      .ok (⟨some text, some text⟩, AList.insert (resource.name ++ "2") first ∅) := by
    rw [parseSection_of_complete rfl, hfirst]
    rfl
  obtain ⟨-, htext, haccount⟩ := arguments_eq_ok hargs
  simp only [Section.assign, Option.or_some] at htext haccount
  refine ⟨AList.insert resource.name args (AList.insert (resource.name ++ "2") first ∅), args, ?_,
    AList.lookup_insert _, (Option.some.inj htext).symm, haccount.symm⟩
  have hloop : (donorFile resource text).sections.foldlM (parseSection cfg settings) ({}, ∅) =
      .ok (resource.assign ⟨some text, some text⟩,
        AList.insert resource.name args (AList.insert (resource.name ++ "2") first ∅)) := by
    rw [donorFile, List.foldlM_cons, hdonor]
    refine bind_eq_ok.2 ⟨_, rfl, ?_⟩
    rw [List.foldlM_cons, parseSection_of_complete hcredentials, hargs]
    rfl
  exact bind_eq_ok.2 ⟨_, hloop, rfl⟩

end Donor

/-! ### Independence -/

/-- A file is parsed if the numbers in it are, and the object of a complete section is the same in
every file with the section. -/
structure Independent (cfg : Config) (settings : ImageSettings) (file : ResourcesFile) : Prop where
  returns : (∀ resource ∈ file.sections, resource.Complete → Returns resource.number) →
    Returns (parseCloudResourcesConfigFile cfg settings file)
  same : ∀ resource ∈ file.sections, resource.Complete → ∃ args, ∀ other : ResourcesFile,
    resource ∈ other.sections → ∀ resources,
      parseCloudResourcesConfigFile cfg settings other = .ok resources →
      resources.lookup resource.name = some args

section Independence

variable {cfg : Config} {settings : ImageSettings} {resource : Section}

/-- An option that is not the section's own is that of a donor. -/
theorem isSome_of_same (hcomplete : resource.Complete) (hnumber : Returns resource.number)
    (h : ∃ args, ∀ other : ResourcesFile, resource ∈ other.sections → ∀ resources,
      parseCloudResourcesConfigFile cfg settings other = .ok resources →
      resources.lookup resource.name = some args) :
    resource.accountString.isSome ∧ resource.staticWorkerNodes.isSome := by
  obtain ⟨args, hargs⟩ := h
  have hdonor : ∀ text, args.staticWorkerNodes = resource.staticWorkerNodes.getD text ∧
      args.accountString = some (resource.accountString.getD text) := fun text ↦ by
    obtain ⟨resources, found, hparse, hlookup, hfound⟩ :=
      parse_donor cfg settings hcomplete hnumber text
    have hsame := hargs (donorFile resource text) (by simp [donorFile]) resources hparse
    obtain rfl := Option.some.inj (hlookup.symm.trans hsame)
    exact hfound
  constructor
  · by_contra hnone
    rw [Option.not_isSome_iff_eq_none] at hnone
    have hone := (hdonor "1").2
    rw [(hdonor "0").2, hnone] at hone
    exact absurd hone (by decide)
  · by_contra hnone
    rw [Option.not_isSome_iff_eq_none] at hnone
    have hone := (hdonor "1").1
    rw [(hdonor "0").1, hnone] at hone
    exact absurd hone (by decide)

/-- The object of a section that has both options. -/
theorem same_of_isSome (hcomplete : resource.Complete)
    (hoptions : Returns resource.number →
      resource.accountString.isSome ∧ resource.staticWorkerNodes.isSome) :
    ∃ args, ∀ other : ResourcesFile, resource ∈ other.sections → ∀ resources,
      parseCloudResourcesConfigFile cfg settings other = .ok resources →
      resources.lookup resource.name = some args := by
  obtain ⟨u, p, t, hcredentials⟩ := exists_credentials hcomplete
  by_cases hargs : Returns (resource.arguments cfg settings {} u p t)
  · obtain ⟨args, hargs⟩ := hargs
    obtain ⟨haccount, htext⟩ := hoptions (arguments_eq_ok hargs).1
    refine ⟨args, fun other hmem resources hparse ↦ ?_⟩
    obtain ⟨locals, built, hbuilt, hlookup⟩ := lookup_of_parse hparse hmem hcredentials
    rw [arguments_congr (assign_eq haccount htext {}), hargs] at hbuilt
    rw [hlookup, Except.ok.inj hbuilt]
  · -- no file with the section is parsed
    refine ⟨⟨u, p, t, "", "", .text "", "", 0, none, none, false, ""⟩,
      fun other hmem resources hparse ↦ absurd ?_ hargs⟩
    obtain ⟨locals, built, hbuilt, -⟩ := lookup_of_parse hparse hmem hcredentials
    obtain ⟨haccount, htext⟩ := hoptions (arguments_eq_ok hbuilt).1
    exact ⟨built, arguments_congr (assign_eq haccount htext {}) ▸ hbuilt⟩

/-- **Sections are independent** exactly if every complete section whose number is readable has an
account string and static worker nodes of its own. -/
theorem independent_iff (cfg : Config) (settings : ImageSettings) (file : ResourcesFile) :
    Independent cfg settings file ↔ ∀ resource ∈ file.sections, resource.Complete →
      Returns resource.number →
        resource.accountString.isSome ∧ resource.staticWorkerNodes.isSome := by
  constructor
  · intro h resource hmem hcomplete hnumber
    exact isSome_of_same hcomplete hnumber (h.same resource hmem hcomplete)
  · intro h
    refine ⟨fun hnumbers ↦ ?_, fun resource hmem hcomplete ↦
      same_of_isSome hcomplete (h resource hmem hcomplete)⟩
    have hloop : Returns (file.sections.foldlM (parseSection cfg settings) ({}, ∅)) :=
      returns_foldlM fun resource hmem hcomplete ↦
        have hnumber := hnumbers resource hmem hcomplete
        ⟨hnumber, h resource hmem hcomplete hnumber⟩
    obtain ⟨state, hstate⟩ := hloop
    exact returns_bind.2 ⟨state, hstate, returns_ok _⟩

/-- Two sections, the second one without an account string. -/
def tenants (account : String) : ResourcesFile where
  sections := [donor "tenant1" account,
    { name := "tenant2", cloudUsername := some "", cloudPassword := some "",
      cloudTenantName := some "", staticWorkerNodes := some "0" }]
  nodup := by simp [donor]

/-- The second tenant gets the account of the first. -/
theorem account_of_the_neighbour :
    ¬∀ (cfg : Config) (settings : ImageSettings) (file : ResourcesFile),
      Independent cfg settings file := by
  intro h
  obtain ⟨args, hargs⟩ := (h {} {} (tenants "physics")).same _ (.tail _ (.head _)) ⟨rfl, rfl, rfl⟩
  have hphysics := hargs (tenants "physics") (.tail _ (.head _)) _ rfl
  have hbiology := hargs (tenants "biology") (.tail _ (.head _)) _ rfl
  exact absurd (hphysics.trans hbiology.symm) (by decide)

end Independence

end DynamicTorque
