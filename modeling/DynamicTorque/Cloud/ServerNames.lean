import Mathlib.Data.List.Count
import DynamicTorque.LifeCycle.Steps
import DynamicTorque.Scheduler.Packing

/-!
# Server names

`vm_start` puts the resource into the name of a server, and `vm_list` finds the servers of a
resource by the beginning of their names. Resources with the same credentials see each other's
servers, so what keeps them apart is the names alone.

* `loadedAs_eq`: a server is loaded once for each resource whose search finds it.
* `loaded_once_iff`: so each server is loaded exactly once, under its own resource, if no search of
  another resource with the same tenant finds it.
-/

open Python Atomic Program

namespace DynamicTorque

/-! ### Names -/

/-- The name that `vm_start` gives a server. -/
def serverName (cfg : Config) (resource unique : String) : String :=
  cfg.cloudVmPrefix ++ "-" ++ resource ++ "-" ++ unique

/-- What `vm_list` searches for, without the final `*`. -/
def searchText (cfg : Config) (resource : String) : String :=
  cfg.cloudVmPrefix ++ "-" ++ resource

/-- The search text of a resource begins the name of a server exactly if the resource begins what
the name goes on with. -/
theorem searchText_prefix_iff (cfg : Config) (other resource unique : String) :
    (searchText cfg other).toList <+: (serverName cfg resource unique).toList ↔
      other.toList <+: (resource ++ "-" ++ unique).toList := by
  simp only [searchText, serverName, String.toList_append, List.append_assoc,
    List.prefix_append_right_inj]

/-- A name with which `vm_start` has created a server of a resource. -/
def CreatedFor (cfg : Config) (resource id name : String) : Prop :=
  ∃ flavor zone server s v s',
    (vmStart cfg flavor zone resource (some server)).exec cfg s = .ok (some v) s' ∧
      (s'.vms v).id = id ∧ (s'.vms v).name = name

theorem ends_vmStart_named {cfg : Config} {s : State} {flavor : FlavorRef} {zone : Option String}
    {resource : String} {server : StartedServer} :
    Ends ((vmStart cfg flavor zone resource (some server)).exec cfg) s
      (fun r s' ↦ ∃ v, r = some v ∧ (s'.vms v).id = server.id ∧
        (s'.vms v).name = serverName cfg resource server.unique)
      fun _ _ ↦ resource ∉ s.resources.names := by
  rw [vmStart, openConnection]
  refine ends_lift_bind (fun res _ ↦ ?_) fun e he hname ↦ ?_
  · refine ⟨s.nextVm, rfl, ?_⟩
    simp [State.allocate, VM.init, serverName, State.emit]
  · rw [CloudResources.get, if_pos hname] at he
    cases he

/-- The names are those of this form. -/
theorem createdFor_iff {cfg : Config} {resource id name : String} :
    CreatedFor cfg resource id name ↔ ∃ unique, name = serverName cfg resource unique := by
  constructor
  · rintro ⟨flavor, zone, server, s, v, s', hstart, -, rfl⟩
    obtain ⟨w, hw, -, hname⟩ := ends_vmStart_named.of_ok hstart
    obtain rfl := Option.some.inj hw
    exact ⟨server.unique, hname⟩
  · rintro ⟨unique, rfl⟩
    let crs : CloudResources :=
      ⟨[resource], List.nodup_singleton _, JobScheduler.threeNodes.object⟩
    let server : StartedServer := ⟨id, unique, 0, 0⟩
    have hends : Ends ((vmStart cfg (.id "") none resource (some server)).exec cfg)
        (State.initial crs) _ _ := ends_vmStart_named
    cases hstart : (vmStart cfg (.id "") none resource (some server)).exec cfg
        (State.initial crs) with
    | ok r s' =>
      obtain ⟨v, rfl, hid, hname⟩ := hends.of_ok hstart
      exact ⟨.id "", none, server, State.initial crs, v, s', hstart, hid, hname⟩
    | error e s' => exact absurd (List.mem_singleton_self _) (hends.of_error hstart)

/-! ### Loading -/

/-- A server that `vm_start` created for a resource and that is still there, as Nova lists it. -/
structure LiveServer (cfg : Config) where
  startedFor : String
  listed : ListedServer
  created : CreatedFor cfg startedFor listed.id listed.name

/-- The resources that a server is loaded for, one for each VM object made of it. -/
def loadedAs (names : List String) (vmList : String → List ListedServer) (id : String) :
    List String :=
  ((loadAllExistingWorkerNodes names vmList).filter fun vm ↦ vm.id = id).map VM.cloudResourceName

/-- Nova lists a live server for a resource, once, if it belongs to the resource's tenant and the
name filter lets it pass. What else it lists are other servers. -/
def Lists {cfg : Config} (tenant : String → String) (nameFilter : String → String → Bool)
    (vmList : String → List ListedServer) (server : LiveServer cfg) (resource : String) : Prop :=
  (vmList resource).filter (fun listed ↦ listed.id = server.listed.id) =
    if tenant server.startedFor = tenant resource ∧
        nameFilter (searchText cfg resource ++ "*") server.listed.name then [server.listed]
    else []

section

variable {cfg : Config} {names : List String} {tenant : String → String}
  {nameFilter : String → String → Bool} {vmList : String → List ListedServer}
  {server : LiveServer cfg}

theorem loadedAs_eq (h : ∀ resource ∈ names, Lists tenant nameFilter vmList server resource) :
    loadedAs names vmList server.listed.id = names.filter fun resource ↦
      tenant server.startedFor = tenant resource ∧
        nameFilter (searchText cfg resource ++ "*") server.listed.name := by
  rw [loadedAs, loadAllExistingWorkerNodes]
  induction names with
  | nil => rfl
  | cons resource names ih =>
    obtain ⟨hlists, hrest⟩ := List.forall_mem_cons.1 h
    have hown : ((vmList resource).map fun listed ↦ listed.toVm resource).filter
        (fun vm ↦ vm.id = server.listed.id) =
          ((vmList resource).filter fun listed ↦ listed.id = server.listed.id).map
            fun listed ↦ listed.toVm resource := List.filter_map
    rw [List.flatMap_cons, List.filter_append, List.map_append, ih hrest, hown, hlists,
      List.filter_cons]
    split
    · rename_i hfound
      rw [if_pos (by simpa using hfound)]
      rfl
    · rename_i hfound
      rw [if_neg (by simpa using hfound)]
      rfl

/-- The search of its own resource finds a server. -/
theorem CreatedFor.found (hfilter : ∀ text name : String,
    text.toList <+: name.toList → nameFilter (text ++ "*") name = true) {resource id name : String}
    (h : CreatedFor cfg resource id name) :
    nameFilter (searchText cfg resource ++ "*") name = true := by
  obtain ⟨unique, rfl⟩ := createdFor_iff.1 h
  refine hfilter _ _ ((searchText_prefix_iff cfg resource resource unique).2 ?_)
  rw [String.toList_append, String.toList_append, List.append_assoc]
  exact List.prefix_append _ _

/-- A server is loaded once, under its own resource, if no other search finds it. -/
theorem loadedAs_eq_singleton_iff (hnames : names.Nodup)
    (hfilter : ∀ text name : String,
      text.toList <+: name.toList → nameFilter (text ++ "*") name = true)
    (hserver : server.startedFor ∈ names)
    (h : ∀ resource ∈ names, Lists tenant nameFilter vmList server resource) :
    loadedAs names vmList server.listed.id = [server.startedFor] ↔
      ∀ resource ∈ names, resource ≠ server.startedFor →
        tenant server.startedFor = tenant resource →
          nameFilter (searchText cfg resource ++ "*") server.listed.name = false := by
  rw [loadedAs_eq h]
  constructor
  · intro hsingle resource hresource hne htenant
    by_contra hfound
    rw [Bool.not_eq_false] at hfound
    have hmem : resource ∈ [server.startedFor] := by
      rw [← hsingle]
      exact List.mem_filter.2 ⟨hresource, decide_eq_true ⟨htenant, hfound⟩⟩
    exact hne (List.mem_singleton.1 hmem)
  · intro hother
    -- of all names, the filter leaves only the one that the server was started for
    have hown : ∀ resource ∈ names, (decide (tenant server.startedFor = tenant resource ∧
        nameFilter (searchText cfg resource ++ "*") server.listed.name = true) : Bool) =
          decide (resource = server.startedFor) := by
      intro resource hresource
      refine decide_eq_decide.2 ⟨fun ⟨htenant, hfound⟩ ↦ ?_, ?_⟩
      · by_contra hne
        rw [hother resource hresource hne htenant] at hfound
        exact nomatch hfound
      · rintro rfl
        exact ⟨rfl, server.created.found hfilter⟩
    rw [List.filter_congr hown, List.filter_eq, List.count_eq_one_of_mem hnames hserver]
    rfl

end

/-- **When each server is loaded exactly once, under its own resource.** Nova's filter finds at
least the names that begin with the text before the `*`. The resources that share a tenant are kept
apart if the search of one does not find the servers of another; they are not where one resource
begins what the name of a server goes on with, and if Nova finds no more names than it has to, this
is the only way. -/
theorem loaded_once_iff (cfg : Config) (names : List String) (hnames : names.Nodup)
    (tenant : String → String) (nameFilter : String → String → Bool)
    (hfilter : ∀ text name : String,
      text.toList <+: name.toList → nameFilter (text ++ "*") name = true)
    (live : List (LiveServer cfg)) (hlive : ∀ server ∈ live, server.startedFor ∈ names)
    (vmList : String → List ListedServer)
    (hlists : ∀ server ∈ live, ∀ resource ∈ names,
      Lists tenant nameFilter vmList server resource) :
    ((∀ server ∈ live, loadedAs names vmList server.listed.id = [server.startedFor]) ↔
      ∀ server ∈ live, ∀ resource ∈ names, resource ≠ server.startedFor →
        tenant server.startedFor = tenant resource →
          nameFilter (searchText cfg resource ++ "*") server.listed.name = false) ∧
    (∀ server ∈ live, ∀ resource ∈ names, resource ≠ server.startedFor →
      tenant server.startedFor = tenant resource → ∀ unique,
        server.listed.name = serverName cfg server.startedFor unique →
          resource.toList <+: (server.startedFor ++ "-" ++ unique).toList →
            loadedAs names vmList server.listed.id ≠ [server.startedFor]) ∧
    ((∀ text name : String, nameFilter (text ++ "*") name = true → text.toList <+: name.toList) →
      ((∀ server ∈ live, loadedAs names vmList server.listed.id = [server.startedFor]) ↔
        ∀ server ∈ live, ∀ resource ∈ names, resource ≠ server.startedFor →
          tenant server.startedFor = tenant resource → ∀ unique,
            server.listed.name = serverName cfg server.startedFor unique →
              ¬resource.toList <+: (server.startedFor ++ "-" ++ unique).toList)) := by
  have hone : ∀ server ∈ live, (loadedAs names vmList server.listed.id = [server.startedFor] ↔
      ∀ resource ∈ names, resource ≠ server.startedFor →
        tenant server.startedFor = tenant resource →
          nameFilter (searchText cfg resource ++ "*") server.listed.name = false) :=
    fun server hserver ↦ loadedAs_eq_singleton_iff hnames hfilter (hlive server hserver)
      (hlists server hserver)
  -- a name that begins another one of the tenant finds the servers of that one too
  have hclash : ∀ server ∈ live, ∀ resource ∈ names, resource ≠ server.startedFor →
      tenant server.startedFor = tenant resource → ∀ unique,
        server.listed.name = serverName cfg server.startedFor unique →
          resource.toList <+: (server.startedFor ++ "-" ++ unique).toList →
            loadedAs names vmList server.listed.id ≠ [server.startedFor] := by
    intro server hserver resource hresource hne htenant unique hname hbegins hloaded
    have hfound := (hone server hserver).1 hloaded resource hresource hne htenant
    rw [hname, hfilter _ _ ((searchText_prefix_iff cfg _ _ _).2 hbegins)] at hfound
    exact nomatch hfound
  refine ⟨forall₂_congr hone, hclash, fun hexact ↦ ⟨?_, ?_⟩⟩
  · intro hloaded server hserver resource hresource hne htenant unique hname hbegins
    exact hclash server hserver resource hresource hne htenant unique hname hbegins
      (hloaded server hserver)
  · intro hapart server hserver
    refine (hone server hserver).2 fun resource hresource hne htenant ↦ ?_
    rw [Bool.eq_false_iff]
    intro hfound
    obtain ⟨unique, hname⟩ := createdFor_iff.1 server.created
    rw [hname] at hfound
    exact hapart server hserver resource hresource hne htenant unique hname
      ((searchText_prefix_iff cfg _ _ _).1 (hexact _ _ hfound))

/-! ### A clash of names -/

/-- A filter that finds the names that begin with the text before the `*`, and no others. -/
def beginsWith (text name : String) : Bool :=
  text.toList.dropLast.isPrefixOf name.toList

theorem beginsWith_iff (text name : String) :
    beginsWith (text ++ "*") name = true ↔ text.toList <+: name.toList := by
  have hstar : (text ++ "*").toList.dropLast = text.toList := by
    rw [String.toList_append]
    exact List.dropLast_concat
  rw [beginsWith, hstar, List.isPrefixOf_iff_prefix]

/-- A server that was started for a resource. -/
def startedServer (resource : String) : LiveServer {} where
  startedFor := resource
  listed :=
    { id := "id"
      name := serverName {} resource "k3Jx9qTz"
      status := "BUILD"
      created := 0
      vmState := "building"
      taskState := some "spawning"
      address := none
      zone := none
      imageId := "image"
      flavor := ⟨"f1", "m1.medium", 2⟩ }
  created := createdFor_iff.2 ⟨_, rfl⟩

/-- What Nova lists while that server is the only one. -/
def listedFor (resource searched : String) : List ListedServer :=
  if beginsWith (searchText {} searched ++ "*") (startedServer resource).listed.name then
    [(startedServer resource).listed]
  else []

theorem lists_listedFor (resource searched : String) :
    Lists (fun _ ↦ "tenant") beginsWith (listedFor resource) (startedServer resource) searched := by
  rw [Lists, listedFor]
  split <;> simp_all

/-- Two resources `a` and `b` with the same credentials, and a server of `b`. -/
theorem loaded_once_iff_ab :
    loadedAs ["a", "b"] (listedFor "b") "id" = ["b"] := by
  have hiff := (loaded_once_iff {} ["a", "b"] (by decide) (fun _ ↦ "tenant") beginsWith
    (fun _ _ h ↦ (beginsWith_iff _ _).2 h) [startedServer "b"] (by decide) (listedFor "b")
    fun server hserver resource _ ↦ List.mem_singleton.1 hserver ▸ lists_listedFor "b" resource).1
  refine hiff.2 (fun server hserver resource hresource hne _ ↦ ?_) _ (List.mem_singleton_self _)
  obtain rfl := List.mem_singleton.1 hserver
  rcases List.mem_cons.1 hresource with rfl | hb
  · decide +kernel
  · exact absurd (List.mem_singleton.1 hb) hne

/-- Two resources `a` and `ab` with the same credentials: a server of `ab` is loaded twice. -/
theorem server_loaded_twice :
    ¬∀ (cfg : Config) (names : List String) (tenant : String → String)
      (nameFilter : String → String → Bool) (live : List (LiveServer cfg))
      (vmList : String → List ListedServer), names.Nodup →
      (∀ text name : String,
        text.toList <+: name.toList → nameFilter (text ++ "*") name = true) →
      (∀ server ∈ live, server.startedFor ∈ names) →
      (∀ server ∈ live, ∀ resource ∈ names, Lists tenant nameFilter vmList server resource) →
        ∀ server ∈ live, loadedAs names vmList server.listed.id = [server.startedFor] := by
  intro h
  have hloaded := h {} ["a", "ab"] (fun _ ↦ "tenant") beginsWith [startedServer "ab"]
    (listedFor "ab") (by decide) (fun _ _ h ↦ (beginsWith_iff _ _).2 h) (by decide)
    (fun server hserver resource _ ↦ List.mem_singleton.1 hserver ▸ lists_listedFor "ab" resource)
    _ (List.mem_singleton_self _)
  exact absurd hloaded (by decide +kernel)

end DynamicTorque
