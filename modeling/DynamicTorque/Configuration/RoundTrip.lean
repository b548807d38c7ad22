import DynamicTorque.Configuration.Setup

/-!
# Printing the configuration

The main file that says what given settings are, as sections of options. What has no text is left
out, and so is the format of the log where it is the default: a text that refers to other options
cannot stand in the file.

`setup_print`: `setup` of the printed file gives the settings back.
-/

open Python

namespace DynamicTorque

/-! ### Numbers -/

theorem isDigits_toDigits (k : ℕ) : isDigits (Nat.toDigits 10 k) = true := by
  have hne : Nat.toDigits 10 k ≠ [] := Nat.toDigits_ne_nil
  rw [isDigits, Bool.and_eq_true, List.all_eq_true]
  exact ⟨by simp [hne], fun c hc ↦
    Nat.isDigit_of_mem_toDigits (by decide) (by decide) hc⟩

theorem digitsValue_toDigits (k : ℕ) : digitsValue (Nat.toDigits 10 k) = k := by
  rw [digitsValue, ← Nat.ofDigitChars_eq_foldl, Nat.ofDigitChars_ten_toDigits]

/-- A number is printed with digits, behind a sign if it is negative. -/
theorem toList_toString (n : ℤ) : (toString n).toList = if 0 ≤ n then Nat.toDigits 10 n.toNat
    else '-' :: Nat.toDigits 10 (-n).toNat := by
  rw [Int.toString_eq_repr, Int.repr_eq_if]
  split
  · exact Nat.toList_repr
  · rw [String.toList_append, Nat.toList_repr]
    rfl

/-- The characters of a printed number. -/
theorem isDigit_or_of_mem_toString {n : ℤ} {c : Char} (hc : c ∈ (toString n).toList) :
    c.isDigit = true ∨ c = '-' := by
  have hdigit : ∀ {k : ℕ}, c ∈ Nat.toDigits 10 k → c.isDigit = true := fun hmem ↦
    Nat.isDigit_of_mem_toDigits (by decide) (by decide) hmem
  rw [toList_toString] at hc
  split at hc
  · exact .inl (hdigit hc)
  · exact (List.mem_cons.1 hc).symm.imp hdigit id

theorem isSpace_of_mem_toString {n : ℤ} {c : Char} (hc : c ∈ (toString n).toList) :
    isSpace c = false := by
  rcases isDigit_or_of_mem_toString hc with hdigit | rfl
  · exact isSpace_of_isDigit hdigit
  · decide

/-- **A number is read back.** -/
theorem int_toString (n : ℤ) : int (toString n) = .ok n := by
  have htext := toList_toString n
  split at htext
  · rename_i hn
    have hdigits : isdigit (toString n) = true := by
      rw [isdigit, htext]
      exact isDigits_toDigits _
    rw [int_of_isdigit hdigits, htext, digitsValue_toDigits, Int.toNat_of_nonneg hn]
  · rename_i hn
    rw [int, strip_eq_self fun c hc ↦ isSpace_of_mem_toString hc, htext]
    show (if isDigits (Nat.toDigits 10 (-n).toNat) = true then _ else _) = _
    rw [if_pos (isDigits_toDigits _), digitsValue_toDigits, Int.toNat_of_nonneg (by omega),
      neg_neg]

/-! ### Values -/

/-- A text that can be printed, and that refers to no other option. -/
def PlainText (text : String) : Prop :=
  ConfigParser.PlainValue text ∧ strIn "%(" text = false

instance (text : String) : Decidable (PlainText text) :=
  inferInstanceAs (Decidable (_ ∧ _))

/-- What is neither a blank nor has a meaning of its own. -/
theorem plainText_of_forall {text : String}
    (h : ∀ c ∈ text.toList, isSpace c = false ∧ c ≠ ';' ∧ c ≠ '"' ∧ c ≠ '%') :
    PlainText text := by
  refine ⟨⟨strip_eq_self fun c hc ↦ (h c hc).1, fun hmem ↦ ?_, ?_, fun hquotes ↦ ?_⟩, ?_⟩
  · exact Bool.false_ne_true ((h _ hmem).1.symm.trans (by decide))
  · have hnone : text.toList.findIdx? (· = ';') = none := by
      rw [List.findIdx?_eq_none_iff]
      exact fun c hc ↦ decide_eq_false (h c hc).2.1
    rw [cutComment, hnone]
  · exact (h '"' (by rw [hquotes]; exact List.mem_cons_self)).2.2.1 rfl
  · rw [strIn, Bool.eq_false_iff]
    intro hinfix
    have hpercent : '%' ∈ text.toList :=
      (isInfixOf_iff.1 hinfix).subset (by decide)
    exact (h _ hpercent).2.2.2 rfl

theorem plainText_toString (n : ℤ) : PlainText (toString n) := by
  refine plainText_of_forall fun c hc ↦ ⟨isSpace_of_mem_toString hc, ?_⟩
  rcases isDigit_or_of_mem_toString hc with hdigit | rfl
  · refine ⟨?_, ?_, ?_⟩
    all_goals
      rintro rfl
      exact absurd hdigit (by decide)
  · decide

/-- What an option is set to. -/
inductive OptionValue
  | number (n : ℤ)
  | text (value : String)

namespace OptionValue

def print : OptionValue → String
  | .number n => toString n
  | .text value => value

/-- A number can always be printed. -/
def Plain : OptionValue → Prop
  | .number _ => True
  | .text value => PlainText value

instance : DecidablePred Plain
  | .number _ => inferInstanceAs (Decidable True)
  | .text value => inferInstanceAs (Decidable (PlainText value))

theorem Plain.print {value : OptionValue} (h : value.Plain) : PlainText value.print := by
  cases value with
  | number n => exact plainText_toString n
  | text value => exact h

end OptionValue

/-- An option, and what it is set to if it is set. -/
abbrev OptionEntry := String × Option OptionValue

/-- The options give what an entry says. -/
def OptionEntry.Read (options : Options) (sect : String) (e : OptionEntry) : Prop :=
  options sect e.1 = e.2.map fun value ↦ .ok value.print

/-- Names that can be printed as a list that is separated by commas. The empty text stands for no
name at all. -/
def Separable (items : List String) : Prop :=
  (∀ item ∈ items, ',' ∉ item.toList) ∧ items ≠ [""]

instance : DecidablePred Separable := fun _ ↦ inferInstanceAs (Decidable (_ ∧ _))

section Values

variable {options : Options} {sect option default text : String} {n k : ℤ} {α β : Type}

/-- One entry, and those that are read after it. -/
theorem bind_read {e : OptionEntry} {es : List OptionEntry} {x : Except PyError α}
    {f : α → Except PyError β} {a : α} {b : β} (h : ∀ e' ∈ e :: es, e'.Read options sect)
    (hx : e.Read options sect → x = .ok a)
    (hf : (∀ e' ∈ es, e'.Read options sect) → f a = .ok b) : x >>= f = .ok b := by
  rw [List.forall_mem_cons] at h
  exact bind_eq_ok.2 ⟨a, hx h.1, hf h.2⟩

theorem text_read (h : OptionEntry.Read options sect (option, some (.text text))) :
    options.text sect option default = .ok text := by
  rw [Options.text, show options sect option = some (.ok text) from h]
  rfl

theorem text?_read {text : Option String}
    (h : OptionEntry.Read options sect (option, text.map .text)) :
    options.text? sect option = .ok text := by
  rw [text?_eq_ok, show options sect option = _ from h, Option.map_map]
  rfl

theorem number_read (h : OptionEntry.Read options sect (option, some (.number n))) :
    options.number sect option k = .ok n := by
  rw [Options.number, show options sect option = some (.ok (toString n)) from h]
  exact int_toString n

theorem number?_read {n : Option ℤ} (h : OptionEntry.Read options sect (option, n.map .number)) :
    options.number? sect option = .ok n := by
  cases n with
  | none => rw [Options.number?, show options sect option = none from h]
  | some n =>
    rw [Options.number?, show options sect option = some (.ok (toString n)) from h]
    show some <$> int (toString n) = _
    rw [int_toString]
    rfl

theorem list_read {items : List String} (hitems : Separable items)
    (h : OptionEntry.Read options sect (option, some (.text (join ',' items)))) :
    options.list sect option = .ok items := by
  rw [Options.list, text_read h]
  show Except.ok (if join ',' items = "" then [] else split ',' (join ',' items)) = .ok items
  rcases eq_or_ne items [] with rfl | hne
  · rfl
  · have hsplit := split_join hitems.1 hne
    rw [if_neg, hsplit]
    intro hempty
    rw [hempty] at hsplit
    exact hitems.2 hsplit.symm

end Values

/-! ### The sections -/

/-- The format of the log that needs not be set. -/
def defaultLogFormat : String :=
  "%(asctime)s - %(levelname)s - %(threadName)s - %(message)s"

def GlobalSettings.entries (s : GlobalSettings) : List OptionEntry :=
  [("pool_min_num", s.poolMinNum.map .number), ("pool_max_num", s.poolMaxNum.map .number),
    ("max_idle_time", some (.number s.maxIdleTime)),
    ("max_down_time", some (.number s.maxDownTime)),
    ("max_inaccessible_time", some (.number s.maxInaccessibleTime)),
    ("job_poller_interval", some (.number s.jobPollerInterval)),
    ("cloud_poller_interval", some (.number s.cloudPollerInterval)),
    ("persistent_file_location", some (.text s.persistentFileLocation)),
    ("post_add_node_command", some (.text s.postAddNodeCommand)),
    ("post_remove_node_command", some (.text s.postRemoveNodeCommand)),
    ("post_vm_provision_command", some (.text s.postVmProvisionCommand)),
    ("post_vm_destroy_command", some (.text s.postVmDestroyCommand)),
    ("qstat_command", some (.text s.qstatCommand)),
    ("pbsnodes_command", some (.text s.pbsnodesCommand)),
    ("add_node_command", some (.text s.addNodeCommand)),
    ("check_node_command", some (.text s.checkNodeCommand)),
    ("remove_node_command", some (.text s.removeNodeCommand)),
    ("set_node_command", some (.text s.setNodeCommand)),
    ("diagnose_p_command", some (.text s.diagnosePCommand)),
    ("setres_command", some (.text s.setresCommand)),
    ("releaseres_command", some (.text s.releaseresCommand))]

def CloudSettings.entries (s : CloudSettings) : List OptionEntry :=
  [("cloud_username", some (.text s.cloudUsername)),
    ("cloud_password", some (.text s.cloudPassword)),
    ("cloud_tenant_name", some (.text s.cloudTenantName)),
    ("cloud_auth_url", some (.text s.cloudAuthUrl)),
    ("cloud_key_name", some (.text s.cloudKeyName)),
    ("cloud_security_groups", some (.text (join ',' s.cloudSecurityGroups))),
    ("cloud_private_key_location", some (.text s.cloudPrivateKeyLocation)),
    ("cloud_availability_zone", some (.text s.cloudAvailabilityZone)),
    ("cloud_vm_init_file", some (.text s.cloudVmInitFile)),
    ("cloud_vm_userdata_file", some (.text s.cloudVmUserdataFile)),
    ("cloud_image_uuid", some (.text s.cloudImageUuid)),
    ("cloud_vm_prefix", some (.text s.cloudVmPrefix)),
    ("worker_node_flavors", some (.text (join ',' s.workerNodeFlavors))),
    ("cloud_vm_init_finish_file", some (.text s.cloudVmInitFinishFile)),
    ("number_of_dynamic_worker_nodes", some (.number s.numberOfDynamicWorkerNodes)),
    ("cloud_shell_user", some (.text s.cloudShellUser))]

/-- The text of a mapping. -/
def locationText (e : (_ : String) × String) : String :=
  e.1 ++ String.singleton ':' ++ e.2

/-- The mapping that was added last stands first in the dictionary. -/
def TorqueSettings.entries (s : TorqueSettings) : List OptionEntry :=
  [("torque_queue_to_monitor", some (.text (join ',' s.torqueQueueToMonitor))),
    ("node_property", some (.text s.nodeProperty)),
    ("node_location_property",
      some (.text (join ',' (s.locationProperties.entries.reverse.map locationText)))),
    ("max_number_of_jobs", some (.number s.maxNumberOfJobs))]

def LoggingSettings.entries (s : LoggingSettings) : List OptionEntry :=
  [("log_level", some (.text s.logLevel)), ("log_location", s.logLocation.map .text),
    ("log_stdout", some (.text (if s.logStdout then "true" else "false"))),
    ("log_max_size", s.logMaxSize.map .number),
    ("log_format", if s.logFormat = defaultLogFormat then none else some (.text s.logFormat))]

section Reading

variable {options : Options} {sect option : String}

theorem read_globals {s : GlobalSettings} (h : ∀ e ∈ s.entries, e.Read options "global") :
    GlobalSettings.read options = .ok s := by
  rw [GlobalSettings.read]
  rw [GlobalSettings.entries] at h
  iterate 2 refine bind_read h number?_read fun h ↦ ?_
  iterate 5 refine bind_read h number_read fun h ↦ ?_
  iterate 14 refine bind_read h text_read fun h ↦ ?_
  rfl

theorem read_cloud {s : CloudSettings} (hgroups : Separable s.cloudSecurityGroups)
    (hflavors : Separable s.workerNodeFlavors) (h : ∀ e ∈ s.entries, e.Read options "cloud") :
    CloudSettings.read options = .ok s := by
  rw [CloudSettings.read]
  rw [CloudSettings.entries] at h
  iterate 5 refine bind_read h text_read fun h ↦ ?_
  refine bind_read h (list_read hgroups) fun h ↦ ?_
  iterate 6 refine bind_read h text_read fun h ↦ ?_
  refine bind_read h (list_read hflavors) fun h ↦ ?_
  refine bind_read h text_read fun h ↦ ?_
  refine bind_read h number_read fun h ↦ ?_
  refine bind_read h text_read fun h ↦ ?_
  rfl

/-- The mappings of locations have no separator. -/
def LocationsSeparable (props : LocationProperties) : Prop :=
  ∀ e ∈ props.entries, (',' ∉ e.1.toList ∧ ':' ∉ e.1.toList) ∧ ',' ∉ e.2.toList ∧ ':' ∉ e.2.toList

instance : DecidablePred LocationsSeparable := fun _ ↦ List.decidableBAll _ _

theorem addLocation_text {e : (_ : String) × String} (h : ':' ∉ e.1.toList ∧ ':' ∉ e.2.toList)
    (props : LocationProperties) :
    addLocation props (locationText e) = props.insert e.1 e.2 := by
  rw [addLocation, locationText, split_append h.1, split_of_notMem h.2]

/-- **The mappings** are read back in their order. -/
theorem foldl_addLocation {props : LocationProperties} (h : LocationsSeparable props) :
    (props.entries.reverse.map locationText).foldl addLocation ∅ = props := by
  have hentries : ∀ l : List ((_ : String) × String), l.NodupKeys →
      (∀ e ∈ l, ':' ∉ e.1.toList ∧ ':' ∉ e.2.toList) →
        (l.foldr (fun e props ↦ addLocation props (locationText e)) ∅).entries = l := by
    intro l hnodup hcolon
    induction l with
    | nil => rfl
    | cons e l ih =>
      rw [List.forall_mem_cons] at hcolon
      have hrest := ih (List.nodupKeys_cons.1 hnodup).2 hcolon.2
      have hnew : e.1 ∉ l.foldr (fun e props ↦ addLocation props (locationText e))
          (∅ : LocationProperties) := by
        rw [AList.mem_keys, AList.keys, hrest]
        exact (List.nodupKeys_cons.1 hnodup).1
      rw [List.foldr_cons, addLocation_text hcolon.1, AList.entries_insert_of_notMem hnew, hrest]
  rw [List.foldl_map, List.foldl_reverse]
  exact AList.ext (hentries _ props.nodupKeys fun e he ↦ ⟨(h e he).1.2, (h e he).2.2⟩)

theorem separable_locations {props : LocationProperties} (h : LocationsSeparable props) :
    Separable (props.entries.reverse.map locationText) := by
  refine ⟨?_, fun hone ↦ ?_⟩
  · intro item hitem
    obtain ⟨e, he, rfl⟩ := List.mem_map.1 hitem
    obtain ⟨⟨hlocation, -⟩, hzone, -⟩ := h e (List.mem_reverse.1 he)
    simp [locationText, hlocation, hzone]
  · have hempty : "" ∈ props.entries.reverse.map locationText := by
      rw [hone]
      exact List.mem_cons_self
    obtain ⟨e, -, htext⟩ := List.mem_map.1 hempty
    have hcolon : ':' ∈ (locationText e).toList := by simp [locationText]
    rw [htext] at hcolon
    exact absurd hcolon (by decide)

theorem read_torque {s : TorqueSettings} (hqueues : Separable s.torqueQueueToMonitor)
    (hlocations : LocationsSeparable s.locationProperties)
    (h : ∀ e ∈ s.entries, e.Read options "torque") : TorqueSettings.read options = .ok s := by
  rw [TorqueSettings.read]
  rw [TorqueSettings.entries] at h
  refine bind_read h (list_read hqueues) fun h ↦ ?_
  refine bind_read h text_read fun h ↦ ?_
  refine bind_read h (list_read (separable_locations hlocations)) fun h ↦ ?_
  refine bind_read h number_read fun h ↦ ?_
  rw [foldl_addLocation hlocations]
  rfl

theorem truth_read {b : Bool}
    (h : OptionEntry.Read options sect (option, some (.text (if b then "true" else "false")))) :
    Options.catchValueError (options.text? sect option) (.ok none) =
      .ok (some (if b then "true" else "false")) := by
  rw [Options.text?, show options sect option = some (.ok _) from h]
  rfl

theorem getboolean_truth (b : Bool) : getboolean (if b then "true" else "false") = some b := by
  cases b with
  | false => decide
  | true => decide

theorem size_read {n : Option ℤ} {handler : Except PyError (Option ℤ)}
    (h : OptionEntry.Read options sect (option, n.map .number)) :
    Options.catchValueError (options.number? sect option) handler = .ok n := by
  rw [number?_read h]
  rfl

theorem format_read {text default : String}
    (h : OptionEntry.Read options sect
      (option, if text = default then none else some (.text text))) :
    options.text sect option default = .ok text := by
  split at h
  · rename_i hdefault
    rw [Options.text, show options sect option = none from h, hdefault]
    rfl
  · exact text_read h

theorem read_logging {s : LoggingSettings} {expanduser : String → String}
    (hlocation : s.logLocation.map expanduser = s.logLocation)
    (h : ∀ e ∈ s.entries, e.Read options "logging") :
    LoggingSettings.read expanduser options = .ok s := by
  rw [LoggingSettings.read]
  rw [LoggingSettings.entries] at h
  refine bind_read h text_read fun h ↦ ?_
  refine bind_read h text?_read fun h ↦ ?_
  refine bind_read h truth_read fun h ↦ ?_
  refine bind_read h size_read fun h ↦ ?_
  refine bind_read h format_read fun h ↦ ?_
  rw [hlocation, Option.bind_some, getboolean_truth]
  rfl

end Reading

/-! ### The main file -/

/-- The entries of the main file that sets `s`. The location is the one of the cloud-resources
file. -/
def Settings.sections (s : Settings) (location : Option String) :
    List (String × List OptionEntry) :=
  [("global", s.globals.entries),
    ("cloud", s.cloud.entries ++
      [("static_worker_nodes",
          if s.staticWorkerNodes = "" ∧ s.staticVmList = some [] then none
          else some (.text s.staticWorkerNodes)),
        ("cloud_resources_config", location.map .text)]),
    ("torque", s.torque.entries ++ [("default_location", some (.number s.defaultLocation))]),
    ("logging", s.logging.entries)]

/-- The names of the sections and of their options. -/
def optionNames : List (String × List String) :=
  [("global", globalOptions.map KnownOption.name),
    ("cloud", cloudOptions.map KnownOption.name ++
      ["static_worker_nodes", "cloud_resources_config"]),
    ("torque", torqueOptions.map KnownOption.name ++ ["default_location"]),
    ("logging", loggingOptions.map KnownOption.name)]

theorem names_sections (s : Settings) (location : Option String) :
    (s.sections location).map (fun sect ↦ (sect.1, sect.2.map Prod.fst)) = optionNames := rfl

theorem plain_optionNames : (optionNames.map Prod.fst).Nodup ∧ ∀ sect ∈ optionNames,
    ConfigParser.PlainName sect.1 ∧ sect.2.Nodup ∧
      ∀ option ∈ sect.2, ConfigParser.PlainOption option := by
  decide +kernel

/-- The options of a section that are set. -/
def printed (entries : List OptionEntry) : List (String × String) :=
  entries.filterMap fun e ↦ e.2.map fun value ↦ (e.1, value.print)

/-- The values that are set can be printed. -/
def PlainSections (sections : List (String × List OptionEntry)) : Prop :=
  ∀ sect ∈ sections, ∀ e ∈ sect.2, ∀ value ∈ e.2, OptionValue.Plain value

instance : DecidablePred PlainSections := fun sections ↦
  inferInstanceAs (Decidable (∀ sect ∈ sections, ∀ e ∈ sect.2, ∀ value ∈ e.2, value.Plain))

section Printing

variable {entries : List OptionEntry} {e : OptionEntry} {s : Settings} {location : Option String}

theorem mem_printed {o : String × String} :
    o ∈ printed entries ↔ ∃ e ∈ entries, ∃ value ∈ e.2, (e.1, value.print) = o := by
  simp [printed, Option.map_eq_some_iff]

theorem names_printed_sublist (entries : List OptionEntry) :
    ((printed entries).map Prod.fst).Sublist (entries.map Prod.fst) := by
  induction entries with
  | nil => exact .slnil
  | cons e entries ih =>
    rw [printed, List.filterMap_cons]
    rcases e with ⟨name, - | value⟩
    · exact ih.cons _
    · exact ih.cons_cons _

/-- In a list without repeated names every pair is found. -/
theorem lookup_of_mem {α : Type} {l : List (String × α)} {name : String} {a : α}
    (hnodup : (l.map Prod.fst).Nodup) (h : (name, a) ∈ l) : l.lookup name = some a := by
  induction l with
  | nil => exact absurd h List.not_mem_nil
  | cons first l ih =>
    rw [List.map_cons, List.nodup_cons] at hnodup
    obtain ⟨name', a'⟩ := first
    rw [List.lookup_cons]
    rcases List.mem_cons.1 h with heq | hrest
    · obtain ⟨rfl, rfl⟩ := Prod.mk.inj heq
      rw [beq_self_eq_true]
    · have hmem : name ∈ l.map Prod.fst := List.mem_map.2 ⟨_, hrest, rfl⟩
      have hne : name ≠ name' := fun heq ↦ hnodup.1 (heq ▸ hmem)
      rw [beq_false_of_ne hne]
      exact ih hnodup.2 hrest

/-- What is set is found under its name, and nothing else is. -/
theorem lookup_printed (hnodup : (entries.map Prod.fst).Nodup) (he : e ∈ entries) :
    (printed entries).lookup e.1 = e.2.map OptionValue.print := by
  cases hvalue : e.2 with
  | none =>
    rw [Option.map_none, List.lookup_eq_none_iff]
    intro o ho
    obtain ⟨e', he', value, hvalue', rfl⟩ := mem_printed.1 ho
    rw [bne_iff_ne]
    intro heq
    -- the entry of this name is the one that is not set
    rw [List.inj_on_of_nodup_map hnodup he he' heq, hvalue'] at hvalue
    cases hvalue
  | some value =>
    have hmem : (e.1, value.print) ∈ printed entries :=
      mem_printed.2 ⟨e, he, value, hvalue, rfl⟩
    exact lookup_of_mem (hnodup.sublist (names_printed_sublist entries)) hmem

/-- The names of a section. -/
theorem plain_of_mem {sect : String × List OptionEntry} (h : sect ∈ s.sections location) :
    ConfigParser.PlainName sect.1 ∧ (sect.2.map Prod.fst).Nodup ∧
      ∀ e ∈ sect.2, ConfigParser.PlainOption e.1 := by
  have hmem : (sect.1, sect.2.map Prod.fst) ∈ optionNames := by
    rw [← names_sections s location]
    exact List.mem_map_of_mem h
  obtain ⟨hname, hnodup, hoption⟩ := plain_optionNames.2 _ hmem
  exact ⟨hname, hnodup, List.forall_mem_map.1 hoption⟩

end Printing

/-- The main file. -/
def Settings.document (s : Settings) (location : Option String)
    (h : PlainSections (s.sections location)) : ConfigParser.Document where
  sections := (s.sections location).map fun sect ↦ (sect.1, printed sect.2)
  nodup := by
    rw [List.map_map]
    exact plain_optionNames.1
  plainName := List.forall_mem_map.2 fun _ hsect ↦ (plain_of_mem hsect).1
  nodup_options := List.forall_mem_map.2 fun sect hsect ↦
    (plain_of_mem hsect).2.1.sublist (names_printed_sublist sect.2)
  plainOption := List.forall_mem_map.2 fun _ hsect o ho ↦ by
    obtain ⟨e, he, value, -, rfl⟩ := mem_printed.1 ho
    exact (plain_of_mem hsect).2.2 e he
  plainValue := List.forall_mem_map.2 fun sect hsect o ho ↦ by
    obtain ⟨e, he, value, hvalue, rfl⟩ := mem_printed.1 ho
    exact (h sect hsect e he value hvalue).print.1

/-- An option that can be printed is in lower case. -/
theorem lower_of_plainOption {option : String} (h : ConfigParser.PlainOption option) :
    String.ofList (lower option) = option := by
  have hlower : lower option = option.toList :=
    (List.map_congr_left fun c hc ↦ (ConfigParser.optionChar_spec (h.2 c hc)).2.2.1).trans
      (List.map_id _)
  rw [hlower, String.ofList_toList]

/-- **The main file** is read as its entries. -/
theorem read_document {s : Settings} {location : Option String}
    (h : PlainSections (s.sections location)) :
    ∃ parser, ConfigParser.read (s.document location h).print = .ok parser ∧
      ∀ percent, ∀ sect ∈ s.sections location, ∀ e ∈ sect.2,
        e.Read (parser.get percent) sect.1 := by
  obtain ⟨parser, hread, -, hget⟩ := ConfigParser.read_print (s.document location h)
  refine ⟨parser, hread, fun percent sect hsect e he ↦ ?_⟩
  obtain ⟨-, hnodup, hoption⟩ := plain_of_mem hsect
  have hsection : ((s.sections location).map fun sect ↦ (sect.1, printed sect.2)).lookup sect.1 =
      some (printed sect.2) :=
    lookup_of_mem (s.document location h).nodup (List.mem_map_of_mem hsect)
  rw [OptionEntry.Read, ConfigParser.get, hget, Settings.document, hsection]
  show Option.map _ (List.lookup _ (printed sect.2)) = _
  rw [lower_of_plainOption (hoption e he), lookup_printed hnodup he, Option.map_map]
  cases hvalue : e.2 with
  | none => rfl
  | some value =>
    have hplain : strIn "%(" value.print = false := (h sect hsect e he value hvalue).print.2
    show some (ConfigParser.interpolate (percent sect.1) 10 value.print) = _
    rw [ConfigParser.interpolate, if_neg (by rw [hplain]; decide)]
    rfl

/-- Settings that can be printed, where the cloud-resources file is at `location`: their texts have
no character with a meaning of its own, and what is derived from others is what it must be. -/
structure Settings.Printable (s : Settings) (env : Environment) (location : Option String) :
    Prop where
  plain : PlainSections (s.sections location)
  groups : Separable s.cloud.cloudSecurityGroups
  flavors : Separable s.cloud.workerNodeFlavors ∧ s.cloud.workerNodeFlavors ≠ []
  queues : Separable s.torque.torqueQueueToMonitor
  locations : LocationsSeparable s.torque.locationProperties
  logLocation : s.logging.logLocation.map env.expanduser = s.logging.logLocation
  static : s.staticWorkerNodes = "" ∧ s.staticVmList = some [] ∨
    parseStaticWorkerNodes (placement s.cloud s.torque) s.staticWorkerNodes = .ok s.staticVmList
  resources : ∃ others, s.cloudResources = others ∪ AList.singleton "default"
      (defaultResource s.cloud s.staticWorkerNodes s.staticVmList) ∧
    match location with
    | none => others = ∅
    | some location => env.cloudResources s.cloud s.torque location = .ok others

section RoundTrip

variable {env : Environment} {options : Options} {s : Settings} {location : Option String}

theorem readStatic_read (h : s.Printable env location)
    (hread : OptionEntry.Read options "cloud" ("static_worker_nodes",
      if s.staticWorkerNodes = "" ∧ s.staticVmList = some [] then none
      else some (.text s.staticWorkerNodes))) :
    readStatic options (placement s.cloud s.torque) =
      .ok (s.staticWorkerNodes, s.staticVmList) := by
  rw [readStatic]
  split at hread
  · rename_i habsent
    have hnone : options.text? "cloud" "static_worker_nodes" = .ok none := text?_read hread
    rw [hnone, habsent.1, habsent.2]
    rfl
  · rename_i hpresent
    have hsome : options.text? "cloud" "static_worker_nodes" = .ok (some s.staticWorkerNodes) :=
      text?_read hread
    rw [hsome]
    show (do
      let staticVmList ← parseStaticWorkerNodes (placement s.cloud s.torque) s.staticWorkerNodes
      return (s.staticWorkerNodes, staticVmList)) = _
    rw [h.static.resolve_left hpresent]
    rfl

theorem readResources_read (h : s.Printable env location)
    (hread : OptionEntry.Read options "cloud" ("cloud_resources_config", location.map .text)) :
    readResources env options s.cloud s.torque
      (defaultResource s.cloud s.staticWorkerNodes s.staticVmList) = .ok s.cloudResources := by
  obtain ⟨others, hresources, hothers⟩ := h.resources
  rw [readResources, text?_read hread, hresources]
  cases location with
  | none =>
    rw [show others = ∅ from hothers]
    rfl
  | some location =>
    show (do
      let others ← env.cloudResources s.cloud s.torque location
      return others ∪ AList.singleton "default" _) = _
    rw [show env.cloudResources s.cloud s.torque location = .ok others from hothers]
    rfl

theorem setupFrom_read (h : s.Printable env location)
    (hread : ∀ sect ∈ s.sections location, ∀ e ∈ sect.2, e.Read options sect.1) :
    setupFrom env options = .ok s := by
  rw [Settings.sections, List.forall_mem_cons, List.forall_mem_cons, List.forall_mem_cons,
    List.forall_mem_singleton] at hread
  obtain ⟨hglobal, hcloud, htorque, hlogging⟩ := hread
  rw [List.forall_mem_append, List.forall_mem_cons, List.forall_mem_singleton] at hcloud
  obtain ⟨hcloud, hstatic, hlocation⟩ := hcloud
  rw [List.forall_mem_append, List.forall_mem_singleton] at htorque
  obtain ⟨htorque, hdefault⟩ := htorque
  refine bind_eq_ok.2 ⟨s.globals, read_globals hglobal, ?_⟩
  refine bind_eq_ok.2 ⟨s.cloud, read_cloud h.groups h.flavors.1 hcloud, ?_⟩
  refine bind_eq_ok.2 ⟨s.torque, read_torque h.queues h.locations htorque, ?_⟩
  refine bind_eq_ok.2 ⟨_, readStatic_read h hstatic, ?_⟩
  refine bind_eq_ok.2 ⟨s.defaultLocation, number_read hdefault, ?_⟩
  rw [if_neg h.flavors.2]
  refine bind_eq_ok.2 ⟨s.cloudResources, readResources_read h hlocation, ?_⟩
  exact bind_eq_ok.2 ⟨s.logging, read_logging h.logLocation hlogging, rfl⟩

end RoundTrip

/-- **What is printed is set up again**: all settings, with the table of resources. -/
theorem setup_print (env : Environment) (path location : Option String) (file : String)
    (s : Settings) (h : s.Printable env location) (hfile : env.configFile path = .ok file)
    (hcontents : env.contents file = some (s.document location h.plain).print) :
    setup env path = .ok s := by
  obtain ⟨parser, hparser, hread⟩ := read_document h.plain
  refine bind_eq_ok.2 ⟨file, hfile, bind_eq_ok.2 ⟨parser, ?_, ?_⟩⟩
  · rw [Environment.read, hcontents]
    exact hparser
  · exact setupFrom_read h (hread _)

/-- Settings with one room, and otherwise the defaults of the commands. -/
def roomSettings : Settings where
  globals :=
    { poolMinNum := none
      poolMaxNum := none
      maxIdleTime := 600
      maxDownTime := 480
      maxInaccessibleTime := 900
      jobPollerInterval := 10
      cloudPollerInterval := 20
      persistentFileLocation := "/var/lib/dynamictorque/nodes"
      postAddNodeCommand := ""
      postRemoveNodeCommand := ""
      postVmProvisionCommand := ""
      postVmDestroyCommand := ""
      qstatCommand := "/usr/bin/qstat -x -t"
      pbsnodesCommand := "/usr/bin/pbsnodes \x7b0\x7d \x7b1\x7d"
      addNodeCommand := "/usr/bin/qmgr -c \"create node \x7b0\x7d\""
      checkNodeCommand := "/usr/bin/checknode \x7b0\x7d"
      removeNodeCommand := "/usr/bin/qmgr -c \"delete node \x7b0\x7d\""
      setNodeCommand := "/usr/bin/qmgr -c \"set node \x7b0\x7d \x7b1\x7d \x7b2\x7d \x7b3\x7d\""
      diagnosePCommand := "/usr/bin/diagnose -p"
      setresCommand := "/usr/bin/setres -a \x7b0\x7d \x7b1\x7d"
      releaseresCommand := "" }
  cloud :=
    { cloudUsername := "user"
      cloudPassword := "secret"
      cloudTenantName := "tenant"
      cloudAuthUrl := "https://keystone:5000/v2.0/"
      cloudKeyName := "nectarkey"
      cloudSecurityGroups := ["ssh", "nfs"]
      cloudPrivateKeyLocation := ""
      cloudAvailabilityZone := "noblepark"
      cloudVmInitFile := ""
      cloudVmUserdataFile := ""
      cloudImageUuid := "bf84de68-247e-443f-80ee-8db7edd38334"
      cloudVmPrefix := "pbsdynwn"
      workerNodeFlavors := ["m1.small", "m1.large"]
      cloudVmInitFinishFile := "/var/run/cloud-init/done"
      numberOfDynamicWorkerNodes := 2
      cloudShellUser := "root" }
  torque :=
    { torqueQueueToMonitor := ["batch"]
      nodeProperty := ""
      locationProperties := AList.singleton "room" "noblepark"
      maxNumberOfJobs := -1 }
  staticWorkerNodes := "1"
  staticVmList := some [⟨"room", 1⟩]
  defaultLocation := 0
  cloudResources := AList.singleton "default"
    { username := "user"
      password := "secret"
      tenantName := "tenant"
      imageUuid := "bf84de68-247e-443f-80ee-8db7edd38334"
      userDataFile := ""
      workerNodeFlavors := .list ["m1.small", "m1.large"]
      staticWorkerNodes := "1"
      numberOfDynamicWorkerNodes := 2
      staticVmList := some [⟨"room", 1⟩] }
  logging :=
    { logLevel := "INFO"
      logLocation := none
      logStdout := false
      logMaxSize := none
      logFormat := defaultLogFormat }

theorem plain_roomSettings : PlainSections (roomSettings.sections none) := by
  decide +kernel

/-- The printed settings as the only file. -/
def roomFile : Environment where
  homedir := "/root"
  pathExists := fun _ ↦ false
  contents := fun _ ↦ some (roomSettings.document none plain_roomSettings).print
  expanduser := id
  percent := fun _ _ text ↦ .ok text

theorem printable_roomSettings : roomSettings.Printable roomFile none where
  plain := plain_roomSettings
  groups := by decide
  flavors := by decide
  queues := by decide
  locations := by decide
  logLocation := rfl
  static := .inr (by decide)
  resources := ⟨∅, rfl, rfl⟩

theorem setup_print_room : setup roomFile (some "dynamic_torque.conf") = .ok roomSettings :=
  setup_print roomFile (some "dynamic_torque.conf") none "dynamic_torque.conf" roomSettings
    printable_roomSettings (by decide) rfl

end DynamicTorque
