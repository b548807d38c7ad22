import DynamicTorque.Model.ConfigFile

/-!
# The names of the flavours

`_init_cloud_resources` tests `flavor.name in worker_node_flavors`. For the default resource that is
an element of a list; for a resource from the cloud-resources file, whose names are one string, it
is a part of that string.

* `flavorObjects_initCloudResources`: the objects of a resource are the flavours that pass the test,
  sorted by their cores.
* `exact_flavors_iff`: they are the flavours with a configured name exactly if no flavour of the
  cloud is named by a proper part of a string.
-/

open Python

namespace DynamicTorque

/-! ### The loops -/

section Loops

variable {flavors : List VMFlavor} {res : CloudResource} {crs : CloudResources}

/-- **The inner loop** appends what passes the test. The test does not change on the way. -/
theorem appendFlavors_eq (flavors : List VMFlavor) (res : CloudResource) :
    res.appendFlavors flavors =
      { res with flavorObjects := res.flavorObjects ++
          flavors.filter fun flavor ↦ res.workerNodeFlavors.contains flavor.name } := by
  induction flavors generalizing res with
  | nil =>
    rw [List.filter_nil, List.append_nil]
    rfl
  | cons flavor flavors ih =>
    rw [CloudResource.appendFlavors, List.foldl_cons, ← CloudResource.appendFlavors, ih]
    by_cases h : res.workerNodeFlavors.contains flavor.name = true
    · rw [if_pos h]
      simp [h]
    · rw [if_neg h]
      simp [h]

/-- The object of a resource is changed in its own pass only. -/
theorem object_foldl_modify {names : List String} (hnodup : names.Nodup) (crs : CloudResources)
    (f : CloudResource → CloudResource) (resource : String) :
    (names.foldl (fun crs name ↦ crs.modify name f) crs).object resource =
      if resource ∈ names then f (crs.object resource) else crs.object resource := by
  induction names generalizing crs with
  | nil => rw [if_neg List.not_mem_nil, List.foldl_nil]
  | cons name names ih =>
    obtain ⟨hname, hnames⟩ := List.nodup_cons.1 hnodup
    rw [List.foldl_cons, ih hnames]
    rcases eq_or_ne resource name with rfl | hne
    · rw [if_neg hname, if_pos List.mem_cons_self, CloudResources.object_modify_self]
    · rw [CloudResources.object_modify_of_ne crs hne]
      simp [hne]

/-- **The flavours of a resource** whose object is new. -/
theorem flavorObjects_initCloudResources {args : ResourceArguments} {resource : String}
    (hmem : resource ∈ crs.names) (hnew : crs.object resource = .init args) :
    ((crs.initCloudResources flavors).object resource).flavorObjects =
      (sortByKey VMFlavor.vcpus flavors).filter fun flavor ↦
        args.workerNodeFlavors.contains flavor.name := by
  rw [CloudResources.initCloudResources, object_foldl_modify crs.nodup, if_pos hmem,
    appendFlavors_eq, hnew]
  exact List.nil_append _

end Loops

/-! ### Exact names -/

/-- The configured names. -/
def FlavorNames.names : FlavorNames → List String
  | .list names => names
  | .text name => [name]

/-- The names that the test admits beyond the configured ones. -/
def FlavorNames.Admits (flavorNames : FlavorNames) (name : String) : Prop :=
  ∃ text, flavorNames = .text text ∧ strIn name text = true ∧ name ≠ text

theorem contains_iff {flavorNames : FlavorNames} {name : String} :
    flavorNames.contains name = true ↔ name ∈ flavorNames.names ∨ flavorNames.Admits name := by
  cases flavorNames with
  | list names =>
    rw [FlavorNames.contains, FlavorNames.names, List.contains_iff_mem]
    refine ⟨Or.inl, fun h ↦ h.resolve_right ?_⟩
    rintro ⟨text, htext, -⟩
    exact FlavorNames.noConfusion htext
  | text text =>
    rw [FlavorNames.contains, FlavorNames.names, List.mem_singleton]
    constructor
    · intro h
      rcases eq_or_ne name text with heq | hne
      · exact .inl heq
      · exact .inr ⟨text, rfl, h, hne⟩
    · intro h
      rcases h with rfl | ⟨other, hother, hpart, -⟩
      · exact strIn_self name
      · exact FlavorNames.text.inj hother ▸ hpart

/-- The objects of a resource are the flavours with its names, by ascending cores. -/
structure ExactFlavors (flavors : List VMFlavor) (flavorNames : FlavorNames)
    (flavorObjects : List VMFlavor) : Prop where
  perm : flavorObjects.Perm (flavors.filter fun flavor ↦ flavor.name ∈ flavorNames.names)
  ascending : flavorObjects.Pairwise fun a b ↦ a.vcpus ≤ b.vcpus

/-- **Flavours are matched by exact name** exactly if no flavour of the cloud is named by a proper
part of the string that a resource is configured with. -/
theorem exact_flavors_iff (flavors : List VMFlavor) (crs : CloudResources)
    (hnew : ∀ resource ∈ crs.names, ∃ args, crs.object resource = .init args) :
    (∀ resource ∈ crs.names, ExactFlavors flavors (crs.object resource).workerNodeFlavors
      ((crs.initCloudResources flavors).object resource).flavorObjects) ↔
    ∀ resource ∈ crs.names, ∀ text, (crs.object resource).workerNodeFlavors = .text text →
      ∀ flavor ∈ flavors, strIn flavor.name text = true → flavor.name = text := by
  refine forall₂_congr fun resource hmem ↦ ?_
  obtain ⟨args, hargs⟩ := hnew resource hmem
  rw [flavorObjects_initCloudResources hmem hargs, hargs]
  show ExactFlavors flavors args.workerNodeFlavors _ ↔
    ∀ text, args.workerNodeFlavors = .text text → _
  have hperm := (sortByKey_perm VMFlavor.vcpus flavors).filter fun flavor ↦
    args.workerNodeFlavors.contains flavor.name
  constructor
  · intro h text htext flavor hflavor hpart
    by_contra hne
    -- the flavour is an object, and so has a configured name
    have hobject := hperm.mem_iff.2 (List.mem_filter.2
      ⟨hflavor, contains_iff.2 (.inr ⟨text, htext, hpart, hne⟩)⟩)
    have hname := of_decide_eq_true (List.mem_filter.1 (h.perm.mem_iff.1 hobject)).2
    rw [htext, FlavorNames.names, List.mem_singleton] at hname
    exact hne hname
  · intro h
    have hsame : flavors.filter (fun flavor ↦ args.workerNodeFlavors.contains flavor.name) =
        flavors.filter fun flavor ↦ flavor.name ∈ args.workerNodeFlavors.names := by
      refine List.filter_congr fun flavor hflavor ↦ ?_
      rw [Bool.eq_iff_iff, contains_iff, decide_eq_true_iff, or_iff_left]
      rintro ⟨text, htext, hpart, hne⟩
      exact hne (h text htext flavor hflavor hpart)
    exact ⟨hsame ▸ hperm, (pairwise_sortByKey VMFlavor.vcpus flavors).filter _⟩

/-- Two flavours, one of which is named by a part of the other's name. -/
def twoFlavors : List VMFlavor :=
  [⟨"1", "m1.small", 1⟩, ⟨"2", "m1.small.large", 8⟩]

/-- A resource of the cloud-resources file. -/
def tenant (flavorName : String) : CloudResource :=
  .init ⟨"", "", "", "", "", .text flavorName, "", 1, some [], some "", false, "account"⟩

/-- The table with one resource. -/
def oneTenant (flavorName : String) : CloudResources :=
  ⟨["tenant1"], List.nodup_singleton _, fun _ ↦ tenant flavorName⟩

/-- The smaller one is matched exactly. -/
theorem exact_flavors_small :
    ExactFlavors twoFlavors (.text "m1.small")
      (((oneTenant "m1.small").initCloudResources twoFlavors).object "tenant1").flavorObjects :=
  (exact_flavors_iff twoFlavors (oneTenant "m1.small") fun _ _ ↦ ⟨_, rfl⟩).2
    (fun _ _ text htext ↦ FlavorNames.text.inj htext ▸ by decide) "tenant1"
    (List.mem_singleton.2 rfl)

/-- With the larger one the smaller one comes along, and is `flavor_objects[0]` then. -/
theorem part_of_a_name_is_matched :
    ¬∀ (flavors : List VMFlavor) (crs : CloudResources),
      (∀ resource ∈ crs.names, ∃ args, crs.object resource = .init args) →
      ∀ resource ∈ crs.names, ExactFlavors flavors (crs.object resource).workerNodeFlavors
        ((crs.initCloudResources flavors).object resource).flavorObjects := by
  intro h
  have hexact := h twoFlavors (oneTenant "m1.small.large") (fun _ _ ↦ ⟨_, rfl⟩) "tenant1"
    (List.mem_singleton.2 rfl)
  exact absurd hexact.perm.length_eq (by decide)

end DynamicTorque
