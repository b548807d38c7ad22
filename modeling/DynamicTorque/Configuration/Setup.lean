import DynamicTorque.Configuration.Sections
import DynamicTorque.Model.Setup

/-!
# Which configurations are accepted

`setup_returns_iff`: `setup` returns exactly if every option that it reads can be used, there are
flavours, and the cloud-resources file, if one is named, is accepted, too. The tables of the options
stand in the order in which they are read.

* `returns_globalSettings` and its like: a section of the main file.
* `returns_sectionOf`, `returns_parse`: the cloud-resources file. The first section with the
  mandatory options must have an account string and static worker nodes.
* `mem_setupFrom`: the names of the resources.
-/

open Python

namespace DynamicTorque

/-! ### Options -/

/-- What an option is read as. -/
inductive OptionKind
  | text
  | number
  /-- A truth value. What cannot be read as one is reported. -/
  | truth
  deriving DecidableEq, Repr

/-- An option, with its section and what it is read as. -/
structure KnownOption where
  kind : OptionKind
  sect : String
  name : String
  deriving DecidableEq, Repr

/-- What `get` gives for an option can be used. -/
def OptionKind.Accepts : OptionKind → Except PyError String → Prop
  | .text, value => Returns value
  | .number, value => Returns (value >>= int)
  | .truth, value => ∀ e, value = .error e → ∃ text, e = .valueError text

/-- The file does not have the option, or its text can be used. -/
def KnownOption.Accepted (options : Options) (o : KnownOption) : Prop :=
  ∀ value ∈ options o.sect o.name, o.kind.Accepts value

/-- The options of a section. -/
def optionsOf (sect : String) (names : List (OptionKind × String)) : List KnownOption :=
  names.map fun o ↦ ⟨o.1, sect, o.2⟩

/-- The options of the section `global`, as they are read. -/
def globalOptions : List KnownOption :=
  optionsOf "global"
    [(.number, "pool_min_num"), (.number, "pool_max_num"), (.number, "max_idle_time"),
      (.number, "max_down_time"), (.number, "max_inaccessible_time"),
      (.number, "job_poller_interval"), (.number, "cloud_poller_interval"),
      (.text, "persistent_file_location"), (.text, "post_add_node_command"),
      (.text, "post_remove_node_command"), (.text, "post_vm_provision_command"),
      (.text, "post_vm_destroy_command"), (.text, "qstat_command"), (.text, "pbsnodes_command"),
      (.text, "add_node_command"), (.text, "check_node_command"), (.text, "remove_node_command"),
      (.text, "set_node_command"), (.text, "diagnose_p_command"), (.text, "setres_command"),
      (.text, "releaseres_command")]

/-- The options of the section `cloud`, up to the flavours. -/
def cloudOptions : List KnownOption :=
  optionsOf "cloud"
    [(.text, "cloud_username"), (.text, "cloud_password"), (.text, "cloud_tenant_name"),
      (.text, "cloud_auth_url"), (.text, "cloud_key_name"), (.text, "cloud_security_groups"),
      (.text, "cloud_private_key_location"), (.text, "cloud_availability_zone"),
      (.text, "cloud_vm_init_file"), (.text, "cloud_vm_userdata_file"), (.text, "cloud_image_uuid"),
      (.text, "cloud_vm_prefix"), (.text, "worker_node_flavors"),
      (.text, "cloud_vm_init_finish_file"), (.number, "number_of_dynamic_worker_nodes"),
      (.text, "cloud_shell_user")]

/-- The options of the section `torque`, without the default location. -/
def torqueOptions : List KnownOption :=
  optionsOf "torque"
    [(.text, "torque_queue_to_monitor"), (.text, "node_property"),
      (.text, "node_location_property"), (.number, "max_number_of_jobs")]

/-- The options that are read after these. -/
def lateOptions : List KnownOption :=
  [⟨.text, "cloud", "static_worker_nodes"⟩, ⟨.number, "torque", "default_location"⟩]

/-- The options of the section `logging`. -/
def loggingOptions : List KnownOption :=
  optionsOf "logging"
    [(.text, "log_level"), (.text, "log_location"), (.truth, "log_stdout"),
      (.number, "log_max_size"), (.text, "log_format")]

section Reading

variable {options : Options} {sect option default : String} {n : ℤ} {α β : Type}

theorem returns_map {f : α → β} {x : Except PyError α} : Returns (f <$> x) ↔ Returns x := by
  cases x with
  | error e => exact iff_of_false (not_returns_error e) (not_returns_error e)
  | ok a => exact iff_of_true ⟨_, rfl⟩ ⟨_, rfl⟩

theorem returns_text : Returns (options.text sect option default) ↔
    KnownOption.Accepted options ⟨.text, sect, option⟩ := by
  rw [Options.text, KnownOption.Accepted]
  cases options sect option with
  | none => simp
  | some value => simp [OptionKind.Accepts]

theorem returns_text? : Returns (options.text? sect option) ↔
    KnownOption.Accepted options ⟨.text, sect, option⟩ := by
  rw [Options.text?, KnownOption.Accepted]
  cases options sect option with
  | none => simp
  | some value => simp [OptionKind.Accepts, returns_map]

/-- What `text?` gives is what the option has. -/
theorem text?_eq_ok {text : Option String} :
    options.text? sect option = .ok text ↔ options sect option = text.map .ok := by
  rw [Options.text?]
  cases options sect option with
  | none => cases text <;> simp
  | some value =>
    cases value with
    | error e =>
      show Except.error e = .ok text ↔ _
      cases text <;> simp
    | ok value =>
      show Except.ok (some value) = .ok text ↔ _
      cases text <;> simp

theorem returns_number : Returns (options.number sect option n) ↔
    KnownOption.Accepted options ⟨.number, sect, option⟩ := by
  rw [Options.number, KnownOption.Accepted]
  cases options sect option with
  | none => simp
  | some value => simp [OptionKind.Accepts]

theorem returns_number? : Returns (options.number? sect option) ↔
    KnownOption.Accepted options ⟨.number, sect, option⟩ := by
  rw [Options.number?, KnownOption.Accepted]
  cases options sect option with
  | none => simp
  | some value =>
    show Returns (some <$> (value >>= int)) ↔ _
    rw [returns_map]
    simp [OptionKind.Accepts]

theorem returns_list : Returns (options.list sect option) ↔
    KnownOption.Accepted options ⟨.text, sect, option⟩ :=
  (returns_bind_of_forall fun _ ↦ returns_ok _).trans returns_text

/-- One option, and those that are read after it. -/
theorem returns_bind_cons {p : KnownOption → Prop} {o : KnownOption} {os : List KnownOption}
    {x : Except PyError α} {f : α → Except PyError β} (hx : Returns x ↔ p o)
    (hf : ∀ a, Returns (f a) ↔ ∀ o ∈ os, p o) :
    Returns (x >>= f) ↔ ∀ o' ∈ o :: os, p o' := by
  rw [returns_bind, List.forall_mem_cons, ← hx]
  simp only [hf, exists_and_right]
  rfl

/-- Nothing is read any more. -/
theorem returns_end {p : KnownOption → Prop} (a : α) :
    Returns (pure a : Except PyError α) ↔ ∀ o ∈ [], p o :=
  iff_of_true (returns_ok a) fun _ h ↦ absurd h List.not_mem_nil

theorem returns_globalSettings : Returns (GlobalSettings.read options) ↔
    ∀ o ∈ globalOptions, o.Accepted options := by
  rw [GlobalSettings.read, globalOptions]
  iterate 2 refine returns_bind_cons returns_number? fun _ ↦ ?_
  iterate 5 refine returns_bind_cons returns_number fun _ ↦ ?_
  iterate 14 refine returns_bind_cons returns_text fun _ ↦ ?_
  exact returns_end _

theorem returns_cloudSettings : Returns (CloudSettings.read options) ↔
    ∀ o ∈ cloudOptions, o.Accepted options := by
  rw [CloudSettings.read, cloudOptions]
  iterate 5 refine returns_bind_cons returns_text fun _ ↦ ?_
  refine returns_bind_cons returns_list fun _ ↦ ?_
  iterate 6 refine returns_bind_cons returns_text fun _ ↦ ?_
  refine returns_bind_cons returns_list fun _ ↦ ?_
  refine returns_bind_cons returns_text fun _ ↦ ?_
  refine returns_bind_cons returns_number fun _ ↦ ?_
  refine returns_bind_cons returns_text fun _ ↦ ?_
  exact returns_end _

theorem returns_torqueSettings : Returns (TorqueSettings.read options) ↔
    ∀ o ∈ torqueOptions, o.Accepted options := by
  rw [TorqueSettings.read, torqueOptions]
  refine returns_bind_cons returns_list fun _ ↦ ?_
  refine returns_bind_cons returns_text fun _ ↦ ?_
  refine returns_bind_cons returns_list fun _ ↦ ?_
  refine returns_bind_cons returns_number fun _ ↦ ?_
  exact returns_end _

/-- A handler that has a value of its own. -/
theorem returns_catchValueError {x : Except PyError α} (a : α) :
    Returns (Options.catchValueError x (.ok a)) ↔
      ∀ e, x = .error e → ∃ text, e = .valueError text := by
  cases x with
  | error e =>
    cases e with
    | valueError text => simp [Options.catchValueError]
    | _ => simp [Options.catchValueError]
  | ok b => simp [Options.catchValueError]

/-- A handler that raises. -/
theorem returns_catchValueError_error {x : Except PyError α} (e : PyError) :
    Returns (Options.catchValueError x (.error e)) ↔ Returns x := by
  cases x with
  | error e' =>
    cases e' with
    | valueError text => simp [Options.catchValueError]
    | _ => simp [Options.catchValueError]
  | ok b => simp [Options.catchValueError]

theorem returns_truth : Returns (Options.catchValueError (options.text? sect option) (.ok none)) ↔
    KnownOption.Accepted options ⟨.truth, sect, option⟩ := by
  rw [returns_catchValueError, Options.text?, KnownOption.Accepted]
  cases options sect option with
  | none => simp
  | some value =>
    cases value with
    | error e => simp [OptionKind.Accepts]
    | ok text => simp [OptionKind.Accepts]

theorem returns_loggingSettings {expanduser : String → String} :
    Returns (LoggingSettings.read expanduser options) ↔
      ∀ o ∈ loggingOptions, o.Accepted options := by
  rw [LoggingSettings.read, loggingOptions]
  refine returns_bind_cons returns_text fun _ ↦ ?_
  refine returns_bind_cons returns_text? fun _ ↦ ?_
  refine returns_bind_cons returns_truth fun _ ↦ ?_
  refine returns_bind_cons ((returns_catchValueError_error _).trans returns_number?) fun _ ↦ ?_
  refine returns_bind_cons returns_text fun _ ↦ ?_
  exact returns_end _

end Reading

/-! ### The cloud-resources file -/

/-- The options that a section must have. -/
def mandatoryOptions : List String :=
  ["cloud_username", "cloud_password", "cloud_tenant_name"]

/-- The other options of a section. -/
def optionalOptions (name : String) : List KnownOption :=
  optionsOf name
    [(.text, "cloud_image_uuid"), (.text, "cloud_vm_userdata_file"), (.text, "worker_node_flavor"),
      (.text, "number_of_dynamic_worker_nodes"), (.text, "static_worker_nodes"),
      (.text, "account_string"), (.truth, "has_volume"), (.text, "reservation_type")]

/-- The options of a section can be used, as far as they are read: the first mandatory one that is
missing ends it. -/
def AcceptedFrom (options : Options) (name : String) : List String → Prop
  | [] => ∀ o ∈ optionalOptions name, o.Accepted options
  | option :: rest => KnownOption.Accepted options ⟨.text, name, option⟩ ∧
      ((options name option).isSome → AcceptedFrom options name rest)

section Sections

variable {options : Options} {name option : String} {resource : Section} {cfg : Config}
  {settings : ImageSettings} {α : Type}

/-- A mandatory option. -/
theorem returns_mandatory {rest : List String} {early : α} {f : Option String → Except PyError α}
    (hf : ∀ text, Returns (f (some text)) ↔ AcceptedFrom options name rest) :
    Returns (do
      let value ← options.text? name option
      if value = none then pure early else f value) ↔
      AcceptedFrom options name (option :: rest) := by
  rw [AcceptedFrom, ← returns_text?, Options.text?]
  cases options name option with
  | none =>
    show Returns (.ok early) ↔ _
    simp
  | some value =>
    cases value with
    | error e => exact iff_of_false (not_returns_error e) fun h ↦ not_returns_error e h.1
    | ok text =>
      show Returns (f (some text)) ↔ _
      rw [hf]
      exact ⟨fun h ↦ ⟨returns_ok _, fun _ ↦ h⟩, fun h ↦ h.2 rfl⟩

theorem returns_sectionOf : Returns (sectionOf options name) ↔
    AcceptedFrom options name mandatoryOptions := by
  rw [sectionOf, mandatoryOptions]
  iterate 3 refine returns_mandatory fun _ ↦ ?_
  rw [AcceptedFrom, optionalOptions]
  iterate 6 refine returns_bind_cons returns_text? fun _ ↦ ?_
  refine returns_bind_cons returns_truth fun _ ↦ ?_
  refine returns_bind_cons returns_text? fun _ ↦ ?_
  exact returns_end _

/-- A section that has the mandatory options. -/
def CompleteSection (options : Options) (name : String) : Prop :=
  ∀ option ∈ mandatoryOptions, (options name option).isSome

instance (options : Options) : DecidablePred (CompleteSection options) := fun _ ↦
  List.decidableBAll _ _

/-- What `text?` gives is there if the option is. -/
theorem isSome_of_text? {sect option : String} {text : Option String}
    (h : options.text? sect option = .ok text) :
    text.isSome = (options sect option).isSome := by
  rw [text?_eq_ok.1 h, Option.isSome_map]

/-- A section is complete exactly if it has the mandatory options. -/
theorem complete_sectionOf (h : sectionOf options name = .ok resource) :
    resource.Complete ↔ CompleteSection options name := by
  rw [CompleteSection, mandatoryOptions, List.forall_mem_cons, List.forall_mem_cons,
    List.forall_mem_singleton, Section.Complete]
  rw [sectionOf] at h
  obtain ⟨username, husername, h⟩ := bind_eq_ok.1 h
  rw [← isSome_of_text? husername]
  split at h
  · rename_i hmissing
    rw [← Except.ok.inj h, hmissing]
    simp
  obtain ⟨password, hpassword, h⟩ := bind_eq_ok.1 h
  rw [← isSome_of_text? hpassword]
  split at h
  · rename_i hmissing
    rw [← Except.ok.inj h, hmissing]
    simp
  obtain ⟨tenantName, htenantName, h⟩ := bind_eq_ok.1 h
  rw [← isSome_of_text? htenantName]
  split at h
  · rename_i hmissing
    rw [← Except.ok.inj h, hmissing]
  iterate 8 obtain ⟨_, -, h⟩ := bind_eq_ok.1 h
  rw [← Except.ok.inj h]

/-- What is read of a complete section. -/
theorem texts_of_complete (h : sectionOf options name = .ok resource)
    (hcomplete : resource.Complete) :
    options.text? name "number_of_dynamic_worker_nodes" =
        .ok resource.numberOfDynamicWorkerNodes ∧
      options.text? name "static_worker_nodes" = .ok resource.staticWorkerNodes ∧
        options.text? name "account_string" = .ok resource.accountString := by
  rw [sectionOf] at h
  obtain ⟨_, -, h⟩ := bind_eq_ok.1 h
  split at h
  · rw [← Except.ok.inj h] at hcomplete
    exact absurd hcomplete.1 Bool.false_ne_true
  obtain ⟨_, -, h⟩ := bind_eq_ok.1 h
  split at h
  · rw [← Except.ok.inj h] at hcomplete
    exact absurd hcomplete.2.1 Bool.false_ne_true
  obtain ⟨_, -, h⟩ := bind_eq_ok.1 h
  split at h
  · rw [← Except.ok.inj h] at hcomplete
    exact absurd hcomplete.2.2 Bool.false_ne_true
  iterate 3 obtain ⟨_, -, h⟩ := bind_eq_ok.1 h
  obtain ⟨number, hnumber, h⟩ := bind_eq_ok.1 h
  obtain ⟨static, hstatic, h⟩ := bind_eq_ok.1 h
  obtain ⟨account, haccount, h⟩ := bind_eq_ok.1 h
  iterate 2 obtain ⟨_, -, h⟩ := bind_eq_ok.1 h
  rw [← Except.ok.inj h]
  exact ⟨hnumber, hstatic, haccount⟩

/-- The number of a section. -/
theorem returns_sectionNumber (h : options.text? name "number_of_dynamic_worker_nodes" =
      .ok resource.numberOfDynamicWorkerNodes) :
    Returns resource.number ↔
      KnownOption.Accepted options ⟨.number, name, "number_of_dynamic_worker_nodes"⟩ := by
  rw [Section.number, KnownOption.Accepted, text?_eq_ok.1 h]
  cases resource.numberOfDynamicWorkerNodes with
  | none => simp
  | some text =>
    show Returns (int text) ↔ ∀ value ∈ some (.ok text), Returns (value >>= int)
    simp only [Option.mem_def, Option.some.injEq, forall_eq']
    rfl

/-! #### Parsing -/

/-- Both options that a section may take from the one before it have a value. -/
def ParserLocals.Bound (locals : ParserLocals) : Prop :=
  locals.staticWorkerNodes.isSome ∧ locals.accountString.isSome

/-- The first section with the mandatory options has both options, too, unless they have a value
already. -/
def FirstBound (locals : ParserLocals) (sections : List Section) : Prop :=
  ∀ resource ∈ sections.find? fun resource ↦ resource.credentials.isSome,
    (resource.assign locals).Bound

theorem not_complete_of_credentials {resource : Section} (h : resource.credentials = none) :
    ¬resource.Complete := fun hcomplete ↦ by
  obtain ⟨u, p, t, hsome⟩ := exists_credentials hcomplete
  rw [h] at hsome
  cases hsome

theorem bound_assign {locals : ParserLocals} (h : locals.Bound) (resource : Section) :
    (resource.assign locals).Bound := by
  rw [ParserLocals.Bound, Section.assign, Option.isSome_or, Option.isSome_or, h.1, h.2]
  simp

theorem returns_arguments_iff {resource : Section} {locals : ParserLocals} {u p t : String} :
    Returns (resource.arguments cfg settings locals u p t) ↔
      Returns resource.number ∧ (resource.assign locals).Bound := by
  constructor
  · rintro ⟨args, hargs⟩
    obtain ⟨hnumber, htext, haccount⟩ := arguments_eq_ok hargs
    refine ⟨hnumber, by rw [htext]; rfl, ?_⟩
    obtain ⟨n, -, hrest⟩ := bind_eq_ok.1 hargs
    obtain ⟨vms, -, hrest⟩ := bind_eq_ok.1 hrest
    obtain ⟨text, -, hrest⟩ := bind_eq_ok.1 hrest
    obtain ⟨account, hbound, -⟩ := bind_eq_ok.1 hrest
    rw [boundLocal_eq_ok.1 hbound]
    rfl
  · rintro ⟨hnumber, htext, haccount⟩
    exact returns_arguments hnumber htext haccount

/-- **The loop** returns exactly if the numbers can be read and the first section with the mandatory
options binds both variables. -/
theorem returns_parseSections {sections : List Section} {locals : ParserLocals}
    {resources : Dict ResourceArguments} :
    Returns (sections.foldlM (parseSection cfg settings) (locals, resources)) ↔
      (∀ resource ∈ sections, resource.Complete → Returns resource.number) ∧
        FirstBound locals sections := by
  induction sections generalizing locals resources with
  | nil =>
    refine iff_of_true (returns_ok _) ⟨fun _ h ↦ absurd h List.not_mem_nil, ?_⟩
    rintro resource ⟨⟩
  | cons resource sections ih =>
    rw [List.foldlM_cons, List.forall_mem_cons, FirstBound, List.find?_cons]
    cases hcredentials : resource.credentials with
    | none =>
      have hpass : parseSection cfg settings (locals, resources) resource =
          .ok (locals, resources) := by rw [parseSection, hcredentials]
      rw [hpass]
      show Returns (sections.foldlM (parseSection cfg settings) (locals, resources)) ↔ _
      rw [ih]
      simp [not_complete_of_credentials hcredentials, FirstBound]
    | some credentials =>
      obtain ⟨u, p, t⟩ := credentials
      have hcomplete := complete_of_credentials hcredentials
      rw [parseSection_of_complete hcredentials, returns_bind]
      constructor
      · rintro ⟨state, hstate, hrest⟩
        have hreturns : Returns (resource.arguments cfg settings locals u p t) := by
          cases hargs : resource.arguments cfg settings locals u p t with
          | error e =>
            rw [hargs] at hstate
            cases hstate
          | ok args => exact returns_ok args
        obtain ⟨args, hargs⟩ := hreturns
        rw [hargs] at hstate
        obtain rfl := Except.ok.inj hstate
        obtain ⟨hnumber, hbound⟩ := returns_arguments_iff.1 ⟨args, hargs⟩
        refine ⟨⟨fun _ ↦ hnumber, (ih.1 hrest).1⟩, ?_⟩
        rintro _ ⟨⟩
        exact hbound
      · rintro ⟨⟨hnumber, hnumbers⟩, hfirst⟩
        have hbound : (resource.assign locals).Bound := hfirst resource rfl
        obtain ⟨args, hargs⟩ : Returns (resource.arguments cfg settings locals u p t) :=
          returns_arguments_iff.2 ⟨hnumber hcomplete, hbound⟩
        refine ⟨_, by rw [hargs]; rfl, ih.2 ⟨hnumbers, fun other _ ↦ bound_assign hbound other⟩⟩

/-- **`parse_cloud_resources_config_file`** returns exactly if the numbers can be read and the first
section with the mandatory options has an account string and static worker nodes. -/
theorem returns_parse {file : ResourcesFile} :
    Returns (parseCloudResourcesConfigFile cfg settings file) ↔
      (∀ resource ∈ file.sections, resource.Complete → Returns resource.number) ∧
        FirstBound {} file.sections :=
  (returns_bind_of_forall fun _ ↦ returns_ok _).trans returns_parseSections

/-- Each element has a result. -/
theorem exists_result_of_mapM {α β : Type} {f : α → Except PyError β} {xs : List α} {ys : List β}
    (h : xs.mapM f = .ok ys) {x : α} (hx : x ∈ xs) : ∃ y ∈ ys, f x = .ok y := by
  have hall := mapM_eq_ok.1 h
  clear h
  induction hall with
  | nil => exact absurd hx List.not_mem_nil
  | cons hxy _ ih =>
    rcases List.mem_cons.1 hx with rfl | hx
    · exact ⟨_, List.mem_cons_self, hxy⟩
    · obtain ⟨y, hy, hxy⟩ := ih hx
      exact ⟨y, .tail _ hy, hxy⟩

/-- The numbers of the complete sections. -/
theorem returns_numbers {names : List String} {sections : List Section}
    (h : names.mapM (sectionOf options) = .ok sections) :
    (∀ resource ∈ sections, resource.Complete → Returns resource.number) ↔
      ∀ name ∈ names, CompleteSection options name →
        KnownOption.Accepted options ⟨.number, name, "number_of_dynamic_worker_nodes"⟩ := by
  constructor
  · intro hnumbers name hname hcomplete
    obtain ⟨resource, hresource, hsection⟩ := exists_result_of_mapM h hname
    have hcomplete' := (complete_sectionOf hsection).2 hcomplete
    exact (returns_sectionNumber (texts_of_complete hsection hcomplete').1).1
      (hnumbers resource hresource hcomplete')
  · intro haccepted resource hresource hcomplete
    obtain ⟨name, hname, hsection⟩ := exists_of_mem_mapM h hresource
    exact (returns_sectionNumber (texts_of_complete hsection hcomplete).1).2
      (haccepted name hname ((complete_sectionOf hsection).1 hcomplete))

/-- The first complete section. -/
theorem firstBound_iff {names : List String} {sections : List Section}
    (h : names.mapM (sectionOf options) = .ok sections) :
    FirstBound {} sections ↔ ∀ name ∈ names.find? (CompleteSection options ·),
      (options name "account_string").isSome ∧ (options name "static_worker_nodes").isSome := by
  have hall := mapM_eq_ok.1 h
  clear h
  induction hall with
  | nil =>
    refine iff_of_true ?_ ?_
    all_goals rintro _ ⟨⟩
  | @cons name resource names sections hsection _ ih =>
    have hcomplete := complete_sectionOf hsection
    rw [FirstBound, List.find?_cons, List.find?_cons]
    cases hcredentials : resource.credentials with
    | none =>
      have hnot : ¬CompleteSection options name := fun h ↦
        not_complete_of_credentials hcredentials (hcomplete.2 h)
      rw [decide_eq_false hnot]
      exact ih
    | some credentials =>
      obtain ⟨u, p, t⟩ := credentials
      have hsome := complete_of_credentials hcredentials
      obtain ⟨-, hstatic, haccount⟩ := texts_of_complete hsection hsome
      rw [decide_eq_true (hcomplete.1 hsome)]
      simp [ParserLocals.Bound, Section.assign, isSome_of_text? hstatic, isSome_of_text? haccount,
        and_comm]

end Sections

/-! ### The whole configuration -/

/-- A cloud-resources file that is accepted: the sections can be read, the complete ones have whole
numbers, and the first complete one has an account string and static worker nodes. -/
structure ResourcesAccepted (options : Options) (parser : ConfigParser) : Prop where
  known : ∀ name ∈ parser.sections, AcceptedFrom options name mandatoryOptions
  numbers : ∀ name ∈ parser.sections, CompleteSection options name →
    KnownOption.Accepted options ⟨.number, name, "number_of_dynamic_worker_nodes"⟩
  first : ∀ name ∈ parser.sections.find? (CompleteSection options ·),
    (options name "account_string").isSome ∧ (options name "static_worker_nodes").isSome

/-- A configuration that is accepted: every option can be used, there are flavours, and the
cloud-resources file, if one is named, is accepted. -/
structure Accepted (env : Environment) (options : Options) : Prop where
  known : ∀ o ∈ globalOptions ++ cloudOptions ++ torqueOptions ++ lateOptions ++ loggingOptions,
    o.Accepted options
  flavors : ∃ text, options "cloud" "worker_node_flavors" = some (.ok text) ∧ text ≠ ""
  location : KnownOption.Accepted options ⟨.text, "cloud", "cloud_resources_config"⟩
  resources : ∀ location, options "cloud" "cloud_resources_config" = some (.ok location) →
    ∃ parser, env.read (env.expanduser location) = .ok parser ∧
      ResourcesAccepted (parser.get (env.percent parser)) parser

section Setup

variable {env : Environment} {options : Options} {cloud : CloudSettings} {torque : TorqueSettings}
  {location : String}

theorem returns_resourcesFile {parser : ConfigParser} : Returns (resourcesFile options parser) ↔
    ∀ name ∈ parser.sections, AcceptedFrom options name mandatoryOptions := by
  rw [← forall₂_congr fun name _ ↦ returns_sectionOf, ← returns_mapM, resourcesFile]
  split
  · rename_i sections hsections
    exact iff_of_true (returns_ok _) ⟨sections, hsections⟩
  · rename_i e he
    refine iff_of_false (not_returns_error e) ?_
    rintro ⟨sections, hsections⟩
    rw [he] at hsections
    cases hsections

theorem sections_of_resourcesFile {parser : ConfigParser} {file : ResourcesFile}
    (h : resourcesFile options parser = .ok file) :
    parser.sections.mapM (sectionOf options) = .ok file.sections := by
  rw [resourcesFile] at h
  split at h
  · rename_i sections hsections
    rw [hsections, ← Except.ok.inj h]
  · cases h

/-- The sections of a file are read and parsed. -/
theorem returns_parsed {parser : ConfigParser} {cfg : Config} {settings : ImageSettings} :
    Returns (do
      let file ← resourcesFile options parser
      parseCloudResourcesConfigFile cfg settings file) ↔ ResourcesAccepted options parser := by
  constructor
  · intro h
    obtain ⟨file, hfile, hparse⟩ := returns_bind.1 h
    have hsections := sections_of_resourcesFile hfile
    obtain ⟨hnumbers, hfirst⟩ := returns_parse.1 hparse
    exact
      { known := returns_resourcesFile.1 ⟨file, hfile⟩
        numbers := (returns_numbers hsections).1 hnumbers
        first := (firstBound_iff hsections).1 hfirst }
  · intro h
    obtain ⟨file, hfile⟩ := returns_resourcesFile.2 h.known
    have hsections := sections_of_resourcesFile hfile
    exact returns_bind.2 ⟨file, hfile, returns_parse.2
      ⟨(returns_numbers hsections).2 h.numbers, (firstBound_iff hsections).2 h.first⟩⟩

theorem returns_cloudResources : Returns (env.cloudResources cloud torque location) ↔
    ∃ parser, env.read (env.expanduser location) = .ok parser ∧
      ResourcesAccepted (parser.get (env.percent parser)) parser := by
  rw [Environment.cloudResources]
  split
  · rename_i e he
    refine iff_of_false (not_returns_error _) ?_
    rintro ⟨parser, hparser, -⟩
    rw [he] at hparser
    cases hparser
  · rename_i parser hparser
    rw [returns_parsed]
    constructor
    · exact fun h ↦ ⟨parser, hparser, h⟩
    · rintro ⟨parser', hparser', h⟩
      obtain rfl := Except.ok.inj (hparser.symm.trans hparser')
      exact h

theorem returns_readResources {default : ResourceArguments} :
    Returns (readResources env options cloud torque default) ↔
      KnownOption.Accepted options ⟨.text, "cloud", "cloud_resources_config"⟩ ∧
        ∀ location, options "cloud" "cloud_resources_config" = some (.ok location) →
          ∃ parser, env.read (env.expanduser location) = .ok parser ∧
            ResourcesAccepted (parser.get (env.percent parser)) parser := by
  rw [readResources, ← returns_text?, Options.text?]
  cases options "cloud" "cloud_resources_config" with
  | none =>
    refine iff_of_true (returns_ok _) ⟨returns_ok _, ?_⟩
    rintro location ⟨⟩
  | some value =>
    cases value with
    | error e => exact iff_of_false (not_returns_error e) fun h ↦ not_returns_error e h.1
    | ok location =>
      show Returns (env.cloudResources cloud torque location >>= _) ↔ _
      refine (returns_bind_of_forall fun _ ↦ returns_ok _).trans ?_
      rw [returns_cloudResources]
      constructor
      · intro h
        refine ⟨returns_ok _, ?_⟩
        rintro _ ⟨⟩
        exact h
      · exact fun h ↦ h.2 location rfl

theorem returns_readStatic {cfg : Config} : Returns (readStatic options cfg) ↔
    KnownOption.Accepted options ⟨.text, "cloud", "static_worker_nodes"⟩ := by
  rw [readStatic, ← returns_text?]
  refine returns_bind_of_forall fun static ↦ ?_
  cases static with
  | none => exact returns_ok _
  | some text =>
    let resource : Section := { name := "", staticWorkerNodes := some text }
    have hparse : Returns (resource.staticVmList cfg) := returns_staticVmList
    exact (returns_bind_of_forall fun _ ↦ returns_ok _).2 hparse

/-- A list of an option has elements exactly if the option has a text. -/
theorem list_ne_nil_iff {sect option : String} {items : List String}
    (h : options.list sect option = .ok items) :
    items ≠ [] ↔ ∃ text, options sect option = some (.ok text) ∧ text ≠ "" := by
  rw [Options.list, Options.text] at h
  cases hvalue : options sect option with
  | none =>
    rw [hvalue] at h
    have hitems : [] = items := Except.ok.inj h
    simp [← hitems]
  | some value =>
    rw [hvalue] at h
    cases value with
    | error e => cases h
    | ok text =>
      have hitems : (if text = "" then [] else split ',' text) = items := Except.ok.inj h
      rw [← hitems]
      split
      · rename_i hempty
        simp [hempty]
      · rename_i hne
        simp [split_ne_nil, hne]

theorem flavors_of_read (h : CloudSettings.read options = .ok cloud) :
    options.list "cloud" "worker_node_flavors" = .ok cloud.workerNodeFlavors := by
  rw [CloudSettings.read] at h
  iterate 12 obtain ⟨_, -, h⟩ := bind_eq_ok.1 h
  obtain ⟨flavors, hflavors, h⟩ := bind_eq_ok.1 h
  iterate 3 obtain ⟨_, -, h⟩ := bind_eq_ok.1 h
  rw [hflavors, ← Except.ok.inj h]

/-- **The options** of the main file give settings exactly if they are accepted. -/
theorem returns_setupFrom : Returns (setupFrom env options) ↔ Accepted env options := by
  constructor
  · intro h
    obtain ⟨globals, hglobals, h⟩ := returns_bind.1 h
    obtain ⟨cloud, hcloud, h⟩ := returns_bind.1 h
    obtain ⟨torque, htorque, h⟩ := returns_bind.1 h
    obtain ⟨static, hstatic, h⟩ := returns_bind.1 h
    obtain ⟨defaultLocation, hdefault, h⟩ := returns_bind.1 h
    split at h
    · exact absurd h (not_returns_error _)
    · rename_i hflavors
      obtain ⟨resources, hresources, h⟩ := returns_bind.1 h
      have hlogging := (returns_bind_of_forall fun _ ↦ returns_ok _).1 h
      obtain ⟨hlocation, hfile⟩ := returns_readResources.1 ⟨resources, hresources⟩
      have hlate : ∀ o ∈ lateOptions, o.Accepted options := by
        rw [lateOptions, List.forall_mem_cons, List.forall_mem_singleton]
        exact ⟨returns_readStatic.1 ⟨static, hstatic⟩, returns_number.1 ⟨_, hdefault⟩⟩
      refine ⟨?_, (list_ne_nil_iff (flavors_of_read hcloud)).1 hflavors, hlocation, hfile⟩
      rw [List.forall_mem_append, List.forall_mem_append, List.forall_mem_append,
        List.forall_mem_append]
      exact ⟨⟨⟨⟨returns_globalSettings.1 ⟨globals, hglobals⟩,
        returns_cloudSettings.1 ⟨cloud, hcloud⟩⟩, returns_torqueSettings.1 ⟨torque, htorque⟩⟩,
          hlate⟩, returns_loggingSettings.1 hlogging⟩
  · rintro ⟨hknown, hflavors, hlocation, hfile⟩
    rw [List.forall_mem_append, List.forall_mem_append, List.forall_mem_append,
      List.forall_mem_append] at hknown
    obtain ⟨⟨⟨⟨hglobal, hcloud⟩, htorque⟩, hlate⟩, hlogging⟩ := hknown
    rw [lateOptions, List.forall_mem_cons, List.forall_mem_singleton] at hlate
    obtain ⟨globals, hglobals⟩ := returns_globalSettings.2 hglobal
    obtain ⟨cloud, hcloud⟩ := returns_cloudSettings.2 hcloud
    obtain ⟨torque, htorque⟩ := returns_torqueSettings.2 htorque
    obtain ⟨static, hstatic⟩ : Returns (readStatic options (placement cloud torque)) :=
      returns_readStatic.2 hlate.1
    obtain ⟨defaultLocation, hdefault⟩ := returns_number.2 hlate.2
    refine returns_bind.2 ⟨globals, hglobals, returns_bind.2 ⟨cloud, hcloud, returns_bind.2
      ⟨torque, htorque, returns_bind.2 ⟨static, hstatic, returns_bind.2
        ⟨defaultLocation, hdefault, ?_⟩⟩⟩⟩⟩
    rw [if_neg ((list_ne_nil_iff (flavors_of_read hcloud)).2 hflavors)]
    obtain ⟨resources, hresources⟩ := returns_readResources.2 ⟨hlocation, hfile⟩
    exact returns_bind.2 ⟨resources, hresources,
      (returns_bind_of_forall fun _ ↦ returns_ok _).2 (returns_loggingSettings.2 hlogging)⟩

end Setup

/-! ### The table of resources -/

section Complete

variable {options : Options} {name : String} {resource : Section}

/-- A pass over a complete section adds its name. -/
theorem mem_parseSection {cfg : Config} {settings : ImageSettings}
    {state state' : ParserLocals × Dict ResourceArguments}
    (h : parseSection cfg settings state resource = .ok state') :
    name ∈ state'.2 ↔ name ∈ state.2 ∨ resource.Complete ∧ resource.name = name := by
  rw [parseSection] at h
  split at h
  · rename_i hcredentials
    rw [← Except.ok.inj h]
    simp [not_complete_of_credentials hcredentials]
  · rename_i hcredentials
    obtain ⟨args, -, hargs⟩ := bind_eq_ok.1 h
    have hcomplete := complete_of_credentials hcredentials
    rw [← Except.ok.inj hargs, AList.mem_insert]
    simp [hcomplete, or_comm, eq_comm]

/-- **The table of the file** has its complete sections. -/
theorem mem_parse_iff {cfg : Config} {settings : ImageSettings} {file : ResourcesFile}
    {resources : Dict ResourceArguments}
    (h : parseCloudResourcesConfigFile cfg settings file = .ok resources) :
    name ∈ resources ↔ ∃ resource ∈ file.sections, resource.Complete ∧ resource.name = name := by
  obtain ⟨last, hloop, hlast⟩ := bind_eq_ok.1 h
  obtain rfl := Except.ok.inj hlast
  have hall : ∀ (sections : List Section) (state : ParserLocals × Dict ResourceArguments),
      sections.foldlM (parseSection cfg settings) state = .ok last →
        (name ∈ last.2 ↔ name ∈ state.2 ∨
          ∃ resource ∈ sections, resource.Complete ∧ resource.name = name) := by
    intro sections
    induction sections with
    | nil =>
      intro state hstate
      rw [← Except.ok.inj hstate]
      simp
    | cons resource sections ih =>
      intro state hstate
      obtain ⟨mid, hpass, hrest⟩ := bind_eq_ok.1 hstate
      rw [ih mid hrest, mem_parseSection hpass, List.exists_mem_cons_iff, or_assoc]
  rw [hall _ _ hloop]
  simp

/-- The complete sections that are read. -/
theorem complete_iff {parser : ConfigParser} {file : ResourcesFile}
    (h : resourcesFile options parser = .ok file) :
    (∃ resource ∈ file.sections, resource.Complete ∧ resource.name = name) ↔
      name ∈ parser.sections ∧ CompleteSection options name := by
  have hsections := sections_of_resourcesFile h
  constructor
  · rintro ⟨resource, hmem, hcomplete, rfl⟩
    obtain ⟨name, hname, hsection⟩ := exists_of_mem_mapM hsections hmem
    obtain rfl := name_sectionOf hsection
    exact ⟨hname, (complete_sectionOf hsection).1 hcomplete⟩
  · rintro ⟨hmem, hoptions⟩
    obtain ⟨resource, hresource, hsection⟩ := exists_result_of_mapM hsections hmem
    exact ⟨resource, hresource, (complete_sectionOf hsection).2 hoptions, name_sectionOf hsection⟩

end Complete

/-- A complete section of the cloud-resources file. -/
def Tenant (env : Environment) (options : Options) (name : String) : Prop :=
  ∃ location parser, options "cloud" "cloud_resources_config" = some (.ok location) ∧
    env.read (env.expanduser location) = .ok parser ∧ name ∈ parser.sections ∧
      ∀ option ∈ mandatoryOptions, (parser.get? name option).isSome

section Table

variable {env : Environment} {options : Options} {cloud : CloudSettings} {torque : TorqueSettings}
  {location name : String}

theorem mem_cloudResources {others : Dict ResourceArguments}
    (h : env.cloudResources cloud torque location = .ok others) :
    name ∈ others ↔ ∃ parser, env.read (env.expanduser location) = .ok parser ∧
      name ∈ parser.sections ∧ ∀ option ∈ mandatoryOptions, (parser.get? name option).isSome := by
  rw [Environment.cloudResources] at h
  split at h
  · cases h
  · rename_i parser hparser
    obtain ⟨file, hfile, hparse⟩ := bind_eq_ok.1 h
    rw [mem_parse_iff hparse, complete_iff hfile]
    simp only [CompleteSection, ConfigParser.get, Option.isSome_map]
    constructor
    · exact fun h ↦ ⟨parser, hparser, h⟩
    · rintro ⟨parser', hparser', h⟩
      obtain rfl := Except.ok.inj (hparser.symm.trans hparser')
      exact h

theorem mem_readResources {default : ResourceArguments} {resources : Dict ResourceArguments}
    (h : readResources env options cloud torque default = .ok resources) :
    name ∈ resources ↔ name = "default" ∨ Tenant env options name := by
  have hdefault : name ∈ (AList.singleton "default" default : Dict ResourceArguments) ↔
      name = "default" := by
    rw [AList.mem_keys, AList.keys_singleton, List.mem_singleton]
  rw [readResources, Options.text?] at h
  rw [Tenant]
  cases hvalue : options "cloud" "cloud_resources_config" with
  | none =>
    rw [hvalue] at h
    rw [← Except.ok.inj h, hdefault]
    simp
  | some value =>
    rw [hvalue] at h
    cases value with
    | error e => cases h
    | ok location =>
      obtain ⟨found, hfound, h⟩ := bind_eq_ok.1 h
      obtain rfl := Except.ok.inj hfound
      obtain ⟨others, hothers, hunion⟩ := bind_eq_ok.1 h
      rw [← Except.ok.inj hunion, AList.mem_union, hdefault, mem_cloudResources hothers, or_comm]
      simp

theorem mem_setupFrom {s : Settings} (h : setupFrom env options = .ok s) :
    name ∈ s.resources.names ↔ name = "default" ∨ Tenant env options name := by
  rw [setupFrom] at h
  iterate 5 obtain ⟨_, -, h⟩ := bind_eq_ok.1 h
  split at h
  · cases h
  · obtain ⟨resources, hresources, h⟩ := bind_eq_ok.1 h
    obtain ⟨_, -, h⟩ := bind_eq_ok.1 h
    rw [← Except.ok.inj h, ← mem_readResources hresources]
    exact AList.mem_keys.symm

end Table

/-- **`setup`** returns exactly if there is a main file that can be read and is accepted. The table
that it returns has a default. -/
theorem setup_returns_iff (env : Environment) (path : Option String) :
    (Returns (setup env path) ↔ ∃ file parser, env.configFile path = .ok file ∧
      env.read file = .ok parser ∧ Accepted env (parser.get (env.percent parser))) ∧
    ∀ s, setup env path = .ok s → "default" ∈ s.resources.names := by
  constructor
  · rw [setup, returns_bind]
    simp only [returns_bind, returns_setupFrom]
    exact exists_congr fun file ↦ exists_and_left.symm
  · intro s h
    obtain ⟨file, -, h⟩ := bind_eq_ok.1 h
    obtain ⟨parser, -, h⟩ := bind_eq_ok.1 h
    exact (mem_setupFrom h).2 (.inl rfl)

end DynamicTorque
