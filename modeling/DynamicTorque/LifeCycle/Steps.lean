import DynamicTorque.Model.Pollers

/-!
# What the steps can do

Every loop of the resource center that decides what to move first only looks: it reads, updates
the VM it looks at, and calls commands. `Act.Scans` is the class of these steps and `Scanned` what
they leave unchanged. The functions that stay within the class are collected here, so that a proof
about an operation has to look at its blocks only.

A `Scope` says which calls of `vm_destroy` and which VM objects are of interest: a function is
within the class for every scope that admits its calls and its assignments.
-/

open Python Atomic Program

namespace DynamicTorque

/-- Which calls of `vm_destroy` are allowed: by VM, record at hand, `force_off` and outcome. -/
abbrev Destroys := VmRef → Option WorkerNode → Bool → DestroyAnswer → Prop

/-- A destruction of a VM whose record, if there is one, has no jobs. -/
def idleDestroy : Destroys := fun _ record _ _ ↦ (record.bind WorkerNode.jobs) = none

/-- What a scan may do: which VMs it may destroy, and to which VM objects it may assign. -/
structure Scope where
  destroys : Destroys
  touches : VmRef → Prop

/-- Everything is allowed. -/
def Scope.any : Scope := ⟨fun _ _ _ _ ↦ True, fun _ ↦ True⟩

/-- Idle VMs may be destroyed. -/
def Scope.idle : Scope := ⟨idleDestroy, fun _ ↦ True⟩

/-- Nothing is destroyed. -/
def Scope.looking (touches : VmRef → Prop) : Scope := ⟨fun _ _ _ _ ↦ False, touches⟩

/-- An event other than a start, and allowed if it is a destruction. -/
def Event.Allowed (destroys : Destroys) : Event → Prop
  | .vmStart _ _ _ => False
  | .vmDestroy v record forceOff answer => destroys v record forceOff answer
  | _ => True

/-- An event that is allowed if it is a destruction. -/
def Event.DestroysOnly (destroys : Destroys) : Event → Prop
  | .vmDestroy v record forceOff answer => destroys v record forceOff answer
  | _ => True

theorem Event.Allowed.destroysOnly {destroys destroys' : Destroys} {e : Event}
    (h : e.Allowed destroys)
    (hmono : ∀ {v record forceOff answer}, destroys v record forceOff answer →
      destroys' v record forceOff answer) : e.DestroysOnly destroys' := by
  cases e with
  | vmDestroy v record forceOff answer => exact hmono h
  | _ => trivial

theorem Event.Allowed.mono {destroys destroys' : Destroys} {e : Event} (h : e.Allowed destroys)
    (hmono : ∀ {v record forceOff answer}, destroys v record forceOff answer →
      destroys' v record forceOff answer) : e.Allowed destroys' := by
  cases e with
  | vmStart flavor zone resource => exact h
  | vmDestroy v record forceOff answer => exact hmono h
  | _ => trivial

theorem Event.DestroysOnly.mono {destroys destroys' : Destroys} {e : Event}
    (h : e.DestroysOnly destroys) (hmono : ∀ {v record forceOff answer},
      destroys v record forceOff answer → destroys' v record forceOff answer) :
    e.DestroysOnly destroys' := by
  cases e with
  | vmDestroy v record forceOff answer => exact hmono h
  | _ => trivial

/-- What the trace of `s'` has that the one of `s` has not. -/
def State.since (s s' : State) : List Event :=
  s'.trace.drop s.trace.length

/-- From `s` to `s'` only events that satisfy `P` are added to the trace. -/
structure Emits (P : Event → Prop) (s s' : State) : Prop where
  trace : s'.trace = s.trace ++ s.since s'
  events : ∀ e ∈ s.since s', P e

namespace Emits

variable {P P' : Event → Prop} {s s₁ s' : State}

theorem of_append {events : List Event} (htrace : s'.trace = s.trace ++ events)
    (h : ∀ e ∈ events, P e) : Emits P s s' := by
  have hsince : s.since s' = events := by rw [State.since, htrace, List.drop_left]
  exact ⟨by rw [hsince, htrace], by rwa [hsince]⟩

theorem of_eq (h : s'.trace = s.trace) : Emits P s s' :=
  of_append (h.trans (List.append_nil _).symm) nofun

theorem refl (s : State) : Emits P s s :=
  of_eq rfl

theorem emit (s : State) {e : Event} (he : P e) : Emits P s (s.emit e) :=
  of_append rfl (by simpa using he)

theorem mono (h : Emits P s s') (hP : ∀ e, P e → P' e) : Emits P' s s' :=
  ⟨h.trace, fun e he ↦ hP e (h.events e he)⟩

/-- Events add up. -/
theorem since_trans (h : Emits P s s₁) (h' : Emits P' s₁ s') :
    s.since s' = s.since s₁ ++ s₁.since s' := by
  rw [State.since, h'.trace, h.trace, List.append_assoc, List.drop_left]

theorem trans (h : Emits P s s₁) (h' : Emits P s₁ s') : Emits P s s' where
  trace := by rw [since_trans h h', ← List.append_assoc, ← h.trace, ← h'.trace]
  events := by
    rw [since_trans h h']
    exact List.forall_mem_append.2 ⟨h.events, h'.events⟩

end Emits

/-- What no operation changes about a VM it looks at. -/
structure SameVm (vm vm' : VM) : Prop where
  resource : vm'.cloudResourceName = vm.cloudResourceName
  name : vm'.name = vm.name
  hostname : vm'.hostname = vm.hostname
  dynamic : vm'.dynamic = vm.dynamic

theorem SameVm.refl (vm : VM) : SameVm vm vm := ⟨rfl, rfl, rfl, rfl⟩

theorem SameVm.trans {vm₁ vm₂ vm₃ : VM} (h₁ : SameVm vm₁ vm₂) (h₂ : SameVm vm₂ vm₃) :
    SameVm vm₁ vm₃ :=
  ⟨h₂.resource.trans h₁.resource, h₂.name.trans h₁.name, h₂.hostname.trans h₁.hostname,
    h₂.dynamic.trans h₁.dynamic⟩

/-- The steps of a scan. Reads of the life-cycle lists are not among them. -/
def Act.Scans (scope : Scope) : Act → Prop
  | .vm _ | .waiting | .cluster | .provisioning | .sleepMode | .resources => True
  | .setVm v f => scope.touches v ∧ ∀ vm, SameVm vm (f vm)
  | .setCluster _ | .dumpNodes => True
  | .emit e => e.Allowed scope.destroys
  | _ => False

/-- The frame of a scan: VM objects, the cluster attributes and the trace are all that changes. -/
structure Scanned (scope : Scope) (s s' : State) : Prop where
  sleepMode : s'.sleepMode = s.sleepMode
  provisioning : s'.provisioning = s.provisioning
  existing : s'.existing = s.existing
  starting : s'.starting = s.starting
  deleting : s'.deleting = s.deleting
  waiting : s'.waiting = s.waiting
  nextVm : s'.nextVm = s.nextVm
  nextRequest : s'.nextRequest = s.nextRequest
  resources : s'.resources = s.resources
  vm : ∀ v, SameVm (s.vms v) (s'.vms v)
  untouched : ∀ v, ¬scope.touches v → s'.vms v = s.vms v
  trace : Emits (Event.Allowed scope.destroys) s s'

namespace Scanned

variable {scope : Scope} {s : State}

theorem refl (s : State) : Scanned scope s s where
  sleepMode := rfl
  provisioning := rfl
  existing := rfl
  starting := rfl
  deleting := rfl
  waiting := rfl
  nextVm := rfl
  nextRequest := rfl
  resources := rfl
  vm := fun _ ↦ .refl _
  untouched := fun _ _ ↦ rfl
  trace := .refl s

/-- A wider scope. -/
theorem mono {scope' : Scope} {s' : State} (h : Scanned scope s s')
    (hdestroys : ∀ {v record forceOff answer}, scope.destroys v record forceOff answer →
      scope'.destroys v record forceOff answer)
    (htouches : ∀ v, scope.touches v → scope'.touches v) : Scanned scope' s s' :=
  { h with
    untouched := fun v hv ↦ h.untouched v fun hv' ↦ hv (htouches v hv')
    trace := h.trace.mono fun _ he ↦ he.mono hdestroys }

theorem trans {s₁ s₂ s₃ : State} (h₁ : Scanned scope s₁ s₂) (h₂ : Scanned scope s₂ s₃) :
    Scanned scope s₁ s₃ where
  sleepMode := h₂.sleepMode.trans h₁.sleepMode
  provisioning := h₂.provisioning.trans h₁.provisioning
  existing := h₂.existing.trans h₁.existing
  starting := h₂.starting.trans h₁.starting
  deleting := h₂.deleting.trans h₁.deleting
  waiting := h₂.waiting.trans h₁.waiting
  nextVm := h₂.nextVm.trans h₁.nextVm
  nextRequest := h₂.nextRequest.trans h₁.nextRequest
  resources := h₂.resources.trans h₁.resources
  vm := fun v ↦ (h₁.vm v).trans (h₂.vm v)
  untouched := fun v hv ↦ (h₂.untouched v hv).trans (h₁.untouched v hv)
  trace := h₁.trace.trans h₂.trace

theorem setVm (s : State) {v : VmRef} {f : VM → VM} (hv : scope.touches v)
    (hf : ∀ vm, SameVm vm (f vm)) : Scanned scope s (s.setVm v f) :=
  { (refl s : Scanned scope s s) with
    vm := fun w ↦ by
      by_cases h : w = v
      · subst h
        simpa [State.setVm] using hf (s.vms w)
      · simpa [State.setVm, h] using SameVm.refl (s.vms w)
    untouched := fun w hw ↦ by
      have hne : w ≠ v := fun h ↦ hw (h ▸ hv)
      simp [State.setVm, hne]
    trace := .of_eq rfl }

theorem emit (s : State) {e : Event} (he : e.Allowed scope.destroys) :
    Scanned scope s (s.emit e) :=
  { (refl s : Scanned scope s s) with trace := .emit s he }

end Scanned

/-- A scan does not change what a lookup finds. -/
theorem Scanned.findVm {scope : Scope} {s s' : State} (h : Scanned scope s s')
    (hostname : String) : s'.findVm hostname = s.findVm hostname := by
  rw [State.findVm, State.findVm, h.existing]
  congr 1
  funext v
  rw [(h.vm v).hostname]

/-- Exceptions that do not come from `list.remove`. -/
def NotFromRemove (e : PyError) : Prop :=
  e ≠ .notInList

/-- A function that scans: it takes only steps of the class, and raises nothing that comes from
`list.remove`. -/
abbrev Scanning {α : Type} (scope : Scope) (p : Proc α) (Φ : α → Prop) : Prop :=
  p.Within (Act.Scans scope) Φ NotFromRemove

/-- **The frame of the class.** -/
theorem keeps_scanned (cfg : Config) (scope : Scope) (s : State) (Ε : PyError → Prop) :
    Keeps (exec cfg) (Act.Scans scope) (Scanned scope s) Ε := by
  intro a ha s' hs'
  cases a with
  | vm v => exact hs'
  | waiting => exact hs'
  | cluster => exact hs'
  | provisioning => exact hs'
  | sleepMode => exact hs'
  | resources => exact hs'
  | setVm v f => exact hs'.trans (.setVm s' ha.1 ha.2)
  | setCluster f => exact hs'.trans { Scanned.refl s' with trace := .of_eq rfl }
  | dumpNodes => exact hs'.trans (.emit s' (e := .dumpNodes _) trivial)
  | emit e => exact hs'.trans (.emit s' ha)
  | _ => exact ha.elim

/-- A scan, executed: the frame, and what the tree says about the result. -/
theorem ends_of_scanning {α : Type} {cfg : Config} {scope : Scope} {p : Proc α}
    {Φ : α → Prop} (h : Scanning scope p Φ) (s : State) :
    Ends (p.exec cfg) s (fun a s' ↦ Φ a ∧ Scanned scope s s') fun e s' ↦
      NotFromRemove e ∧ Scanned scope s s' :=
  ends_run_of_within (keeps_scanned cfg scope s NotFromRemove) h (.refl s)

/-! ### After an execution -/

section After

variable {α : Type} {x : EStateM PyError State α} {s : State} {Q : α → State → Prop}
  {E : PyError → State → Prop}

/-- What holds of the state in either case holds of the state after the execution. -/
theorem stateAfter_of_ends {P : State → Prop} (h : Ends x s (fun _ ↦ P) fun _ ↦ P) :
    P (stateAfter x s) := by
  rw [Ends] at h
  rw [stateAfter]
  split at h <;> simp_all

/-- Where an execution ends. -/
theorem ends_stateAfter :
    Ends x s (fun _ s' ↦ s' = stateAfter x s) fun _ s' ↦ s' = stateAfter x s := by
  rw [Ends, stateAfter]
  cases x s <;> rfl

/-- What holds when an exception is raised. -/
theorem of_raised (h : Ends x s Q E) {e : PyError} (he : raised x s = some e) :
    E e (stateAfter x s) := by
  rw [Ends] at h
  rw [raised] at he
  rw [stateAfter]
  split at h <;> simp_all

/-- What holds when none is raised. -/
theorem of_returned (h : Ends x s Q E) (hnone : raised x s = none) : ∃ a, Q a (stateAfter x s) := by
  rw [Ends] at h
  rw [raised] at hnone
  rw [stateAfter]
  split at h
  · rename_i a s' hx
    rw [hx]
    exact ⟨a, h⟩
  · simp_all

end After

/-! ### The records of the last query -/

/-- The node of the VM has jobs, as far as the last query says. -/
def State.hasJobs (s : State) (v : VmRef) : Bool :=
  ((s.cluster.workerNodes.find? fun wn ↦ wn.name = (s.vms v).hostname).bind WorkerNode.jobs).isSome

/-! ### Executing the first step -/

section First

variable {α : Type} {cfg : Config} {s : State} {Q : α → State → Prop} {E : PyError → State → Prop}

theorem ends_list {L : ListName} {f : List VmRef → Proc α} :
    Ends ((Proc.list L >>= f).exec cfg) s Q E ↔ Ends ((f (s.list L)).exec cfg) s Q E := Iff.rfl

theorem ends_findVm {hostname : String} {f : Option VmRef → Proc α} :
    Ends ((Proc.findVm hostname >>= f).exec cfg) s Q E ↔
      Ends ((f (s.findVm hostname)).exec cfg) s Q E := Iff.rfl

theorem ends_vm {v : VmRef} {f : VM → Proc α} :
    Ends ((Proc.vm v >>= f).exec cfg) s Q E ↔ Ends ((f (s.vms v)).exec cfg) s Q E := Iff.rfl

theorem ends_waiting {f : List WaitingRequest → Proc α} :
    Ends ((Proc.waiting >>= f).exec cfg) s Q E ↔ Ends ((f s.waiting).exec cfg) s Q E := Iff.rfl

theorem ends_cluster {f : Cluster → Proc α} :
    Ends ((Proc.cluster >>= f).exec cfg) s Q E ↔ Ends ((f s.cluster).exec cfg) s Q E := Iff.rfl

theorem ends_provisioning {f : Bool → Proc α} :
    Ends ((Proc.provisioning >>= f).exec cfg) s Q E ↔
      Ends ((f s.provisioning).exec cfg) s Q E := Iff.rfl

theorem ends_sleepMode {f : Bool → Proc α} :
    Ends ((Proc.sleepMode >>= f).exec cfg) s Q E ↔ Ends ((f s.sleepMode).exec cfg) s Q E := Iff.rfl

theorem ends_resources {f : CloudResources → Proc α} :
    Ends ((Proc.resources >>= f).exec cfg) s Q E ↔ Ends ((f s.resources).exec cfg) s Q E := Iff.rfl

theorem ends_setVm {v : VmRef} {g : VM → VM} {f : Unit → Proc α} :
    Ends ((Proc.setVm v g >>= f).exec cfg) s Q E ↔
      Ends ((f ()).exec cfg) (s.setVm v g) Q E := Iff.rfl

theorem ends_findWnFromVm {v : VmRef} {f : Option WorkerNode → Proc α} :
    Ends ((findWnFromVm v >>= f).exec cfg) s Q E ↔
      Ends ((f (s.cluster.workerNodes.find? fun wn ↦ wn.name = (s.vms v).hostname)).exec cfg)
        s Q E := Iff.rfl

theorem ends_emit {e : Event} {f : Unit → Proc α} :
    Ends ((Proc.emit e >>= f).exec cfg) s Q E ↔ Ends ((f ()).exec cfg) (s.emit e) Q E := Iff.rfl

theorem ends_locked {b : Block} {f : Unit → Proc α} :
    Ends ((Proc.locked b >>= f).exec cfg) s Q E ↔
      Ends (b.code cfg) s (fun _ s' ↦ Ends ((f ()).exec cfg) s' Q E) E := ends_bind

theorem ends_block {b : Block} {Q : Unit → State → Prop} :
    Ends ((Proc.locked b).exec cfg) s Q E ↔ Ends (b.code cfg) s Q E := ends_perform

/-- **A scan comes first.** What follows may use its frame, and what the tree says about its
result. -/
theorem ends_scanning_bind {β : Type} {scope : Scope} {p : Proc β} {Φ : β → Prop}
    {f : β → Proc α} (h : Scanning scope p Φ)
    (hQ : ∀ b s₁, Φ b → Scanned scope s s₁ → Ends ((f b).exec cfg) s₁ Q E)
    (hE : ∀ e s₁, NotFromRemove e → Scanned scope s s₁ → E e s₁) :
    Ends ((p >>= f).exec cfg) s Q E := by
  rw [Proc.exec, run_bind, ends_bind]
  exact (ends_of_scanning h s).mono (fun b s₁ hb ↦ hQ b s₁ hb.1 hb.2) fun e s₁ he ↦
    hE e s₁ he.1 he.2

end First

/-! ### Lookups -/

theorem notFromRemove_of_get {crs : CloudResources} {name : String} {e : PyError}
    (h : crs.get name = .error e) : NotFromRemove e := by
  rw [CloudResources.get] at h
  split at h
  · cases h
  · obtain rfl := Except.error.inj h
    simp [NotFromRemove, PyError.notInList]

theorem notFromRemove_of_staticVmsToStart {crs : CloudResources} {name method : String}
    {e : PyError} (h : crs.staticVmsToStart name method = .error e) : NotFromRemove e := by
  rcases bind_eq_error.1 h with hget | ⟨res, -, h⟩
  · exact notFromRemove_of_get hget
  · split at h
    · cases h
    · obtain rfl := Except.error.inj h
      exact nofun

theorem notFromRemove_of_firstFlavor {res : CloudResource} {e : PyError}
    (h : res.firstFlavor = .error e) : NotFromRemove e := by
  rw [CloudResource.firstFlavor] at h
  split at h
  · cases h
  · obtain rfl := Except.error.inj h
    exact nofun

theorem notFromRemove_of_first {names : FlavorNames} {e : PyError}
    (h : names.first = .error e) : NotFromRemove e := by
  rw [FlavorNames.first.eq_def] at h
  split at h
  · cases h
  · obtain rfl := Except.error.inj h
    exact nofun
  · split at h
    · cases h
    · obtain rfl := Except.error.inj h
      exact nofun

theorem notFromRemove_of_flavorName {flavor : Option FlavorRef} {e : PyError}
    (h : (match flavor with
      | some flavor => flavor.name
      | none => .error (.attributeError "name") : Except PyError String) = .error e) :
    NotFromRemove e := by
  rcases flavor with _ | _ | flavor
  · obtain rfl := Except.error.inj h
    exact nofun
  · obtain rfl := Except.error.inj h
    exact nofun
  · cases h

theorem notFromRemove_of_getProvisionList {flavor : VMFlavor} {resource : String}
    {props : LocationProperties} {e : PyError} : ∀ {reqs : StaticVMs},
    reqs.getProvisionList flavor resource props = .error e → NotFromRemove e := by
  intro reqs
  induction reqs with
  | nil => exact nofun
  | cons req rest ih =>
    have htail : ∀ zone : Option String, (do
        let tail ← StaticVMs.getProvisionList flavor resource props rest
        pure (((⟨.id flavor.id, zone, resource, true⟩ : ProvisionVM), req.numOfVm.toNat) :: tail)) =
          Except.error e → NotFromRemove e := by
      intro zone h
      rcases bind_eq_error.1 h with h | ⟨tail, -, h⟩
      · exact ih h
      · cases h
    intro h
    rw [StaticVMs.getProvisionList] at h
    split at h
    · exact htail none h
    · rcases bind_eq_error.1 h with h | ⟨z, -, h⟩
      · obtain ⟨rfl, -⟩ := Dict.get_eq_error h
        exact nofun
      · exact htail (some z) h

theorem notFromRemove_of_format {args : List String} {e : PyError} : ∀ {template : List Piece},
    format template args = .error e → NotFromRemove e := by
  intro template
  induction template with
  | nil =>
    intro h
    cases h
  | cons piece template ih =>
    intro h
    rw [format, List.mapM_cons] at h
    cases hpiece : piece.text args with
    | error e' =>
      rw [hpiece] at h
      obtain rfl := Except.error.inj h
      cases piece with
      | char c => cases hpiece
      | field n =>
        rw [Piece.text] at hpiece
        split at hpiece
        · cases hpiece
        · obtain rfl := Except.error.inj hpiece
          intro hraised
          cases hraised
    | ok text =>
      rw [hpiece] at h
      refine ih ?_
      rw [format]
      cases hrest : template.mapM (Piece.text args) with
      | error e' =>
        rw [hrest] at h
        exact h
      | ok texts =>
        rw [hrest] at h
        cases h

theorem eq_error_of_map {α β : Type} {f : α → β} {x : Except PyError α} {e : PyError}
    (h : f <$> x = .error e) : x = .error e := by
  cases x with
  | ok a => cases h
  | error e' => exact congrArg Except.error (Except.error.inj h)

theorem notFromRemove_of_inTry {α : Type} {x : Except PyError α} {e : PyError}
    (h : inTry x = .error e) : NotFromRemove e := by
  cases x with
  | ok a => cases h
  | error e' =>
    obtain rfl := Except.error.inj h
    intro hraised
    cases hraised

theorem notFromRemove_of_loggedWords {template : List Piece} {args : List String} {e : PyError}
    (h : loggedWords template args = .error e) : NotFromRemove e := by
  rcases bind_eq_error.1 h with hformat | ⟨_, -, htry⟩
  · exact notFromRemove_of_format hformat
  · exact notFromRemove_of_inTry htry

theorem notFromRemove_of_postAction {template : List Piece} {args : List String} {e : PyError}
    (h : postAction template args = .error e) : NotFromRemove e := by
  rw [postAction] at h
  split at h
  · cases h
  · exact notFromRemove_of_loggedWords (eq_error_of_map h)

/-- A command line that cannot be built raises nothing that comes from `list.remove`. -/
theorem notFromRemove_of_invocation {cmds : Commands} {vm : VM} {command : Command} {e : PyError}
    (h : command.invocation cmds vm = .error e) : NotFromRemove e := by
  cases command with
  | holdNode | releaseNode | removeNode | removeNodeFromHostsFile | removeNodeFromKnownHostsFile
    | setNodeOnline => exact notFromRemove_of_inTry (eq_error_of_map h)
  | addNode | setNodeProperty | addNodeProperty | setNp =>
    exact notFromRemove_of_loggedWords (eq_error_of_map h)
  | setRes resType accountString =>
    rw [Command.invocation] at h
    split at h
    · cases h
    · exact notFromRemove_of_loggedWords (eq_error_of_map h)
  | releaseRes => exact notFromRemove_of_format (eq_error_of_map h)
  | postVmProvisionAction | postVmDestroyAction | postAddNodeAction | postRemoveNodeAction =>
    exact notFromRemove_of_postAction h

theorem notFromRemove_of_stateTimeAfter {cfg : Config} {vm : VM} {state : Option String}
    {e : PyError} (h : stateTimeAfter cfg vm state = .error e) : NotFromRemove e := by
  rw [stateTimeAfter] at h
  split at h
  · cases h
  · split at h
    · cases h
    · obtain rfl := Except.error.inj h
      exact nofun

/-! ### Classes of steps

What calls the cloud is within every class that contains its steps. -/

section Backend

variable {P : Act → Prop} {Ε : PyError → Prop} {cfg : Config}

theorem within_openConnection (hresources : P .resources) (hraise : ∀ e, NotFromRemove e → Ε e)
    (resource : String) : (openConnection resource).Within P (fun _ ↦ True) Ε :=
  .step hresources fun _ ↦ within_lift (fun _ _ ↦ trivial)
    fun e h ↦ hraise e (notFromRemove_of_get h)

/-- **`vm_destroy`.** -/
theorem within_vmDestroy {v : VmRef} {record : Option WorkerNode} {answer : DestroyAnswer}
    {now : Time} (hvm : P (.vm v)) (hresources : P .resources)
    (hemit : ∀ forceOff, P (.emit (.vmDestroy v record forceOff answer)))
    (hset : P (.setVm v fun vm ↦ { vm with deleteTime := some now }))
    (hraise : ∀ e, NotFromRemove e → Ε e) :
    (vmDestroy v record answer now).Within P (fun _ ↦ True) Ε := by
  refine .step hvm fun vm ↦ (within_openConnection hresources hraise _).bind fun _ _ ↦
    .step (hemit _) fun _ ↦ ?_
  cases answer with
  | failed => trivial
  | deleted => exact .step hset fun _ ↦ trivial
  | notFound => exact .step hset fun _ ↦ trivial

/-- **`vm_start`.** -/
theorem within_vmStart (hresources : P .resources)
    (hemit : ∀ flavor zone resource, P (.emit (.vmStart flavor zone resource)))
    (hnew : ∀ vm, P (.newVm vm)) (hraise : ∀ e, NotFromRemove e → Ε e) (flavor : FlavorRef)
    (zone : Option String) (resource : String) (answer : Option StartedServer) :
    (vmStart cfg flavor zone resource answer).Within P (fun _ ↦ True) Ε := by
  refine (within_openConnection hresources hraise _).bind fun _ _ ↦
    .step (hemit flavor zone resource) fun _ ↦ ?_
  cases answer with
  | none => trivial
  | some server => exact .step (hnew _) fun _ ↦ trivial

/-- **`launch_instances`.** -/
theorem within_launchInstances (hwaiting : P .waiting) (hlist : P (.list .starting))
    (hresources : P .resources) (hflag : P (.locked (.setProvisioning true)))
    (hemit : ∀ flavor zone resource, P (.emit (.vmStart flavor zone resource)))
    (hnew : ∀ vm, P (.newVm vm)) (hadd : ∀ v, P (.locked (.addStarting v)))
    (hend : ∀ rs, P (.locked (.endLaunch rs))) (hraise : ∀ e, NotFromRemove e → Ε e)
    (answers : ℕ → Option StartedServer) :
    (launchInstances cfg answers).Within P (fun _ ↦ True) Ε := by
  have hvisit : ∀ (answer : Option StartedServer) (entry : WaitingRequest) (loop : LaunchLoop),
      (launchVisit cfg answer entry loop).Within P (fun _ ↦ True) Ε := by
    intro answer entry loop
    rw [launchVisit]
    split
    · trivial
    · split
      · split <;> trivial
      · refine (within_vmStart hresources hemit hnew hraise _ _ _ _).bind fun started _ ↦ ?_
        cases started with
        | none => trivial
        | some v => exact .step (hadd v) fun _ ↦ trivial
  refine .step hwaiting fun (waiting₀ : List WaitingRequest) ↦ ?_
  split
  · refine .step hlist fun (starting₀ : List VmRef) ↦ ?_
    split
    · refine .step hflag fun _ ↦ .step hlist fun starting ↦ .step hwaiting fun waiting ↦ ?_
      exact (within_forEach_of_forall (fun i entry _ loop ↦ hvisit _ _ _) _).bind
        fun loop _ ↦ ⟨hend _, fun _ ↦ trivial⟩
    · trivial
  · trivial

theorem within_openFirewall (hvm : ∀ v, P (.vm v)) (hresources : P .resources)
    (hemit : ∀ resource ip, P (.emit (.addSecurityGroupRule resource ip)))
    (hraise : ∀ e, NotFromRemove e → Ε e) (v : VmRef) :
    (openFirewall cfg v).Within P (fun _ ↦ True) Ε := by
  refine .step hresources fun crs ↦ within_forEach_of_forall (fun _ res _ _ ↦ ?_) ()
  split
  · split
    · exact hraise _ nofun
    · refine .step (hvm v) fun vm ↦ ?_
      split
      · exact ⟨hemit _ _, fun _ ↦ trivial⟩
      · exact hraise _ nofun
  · trivial

theorem within_runCommand {v : VmRef} {command : Command} (hvm : ∀ v, P (.vm v))
    (hcommand : P (.emit (.command command v))) (hraise : ∀ e, NotFromRemove e → Ε e) :
    (runCommand cfg command v).Within P (fun _ ↦ True) Ε :=
  .step (hvm v) fun _ ↦ (within_lift (fun _ _ ↦ trivial) fun e h ↦
    hraise e (notFromRemove_of_invocation h)).bind fun _ (_ : True) ↦ ⟨hcommand, fun _ ↦ trivial⟩

theorem within_removeNode {v : VmRef} (hvm : ∀ v, P (.vm v))
    (hnode : P (.emit (.command .removeNode v)))
    (hhosts : P (.emit (.command .removeNodeFromHostsFile v)))
    (hknownHosts : P (.emit (.command .removeNodeFromKnownHostsFile v)))
    (hraise : ∀ e, NotFromRemove e → Ε e) : (removeNode cfg v).Within P (fun _ ↦ True) Ε :=
  (within_runCommand hvm hnode hraise).bind fun _ _ ↦
    (within_runCommand hvm hhosts hraise).bind fun _ _ ↦
      within_runCommand hvm hknownHosts hraise

theorem within_releaseResForNode {v : VmRef} (hvm : ∀ v, P (.vm v)) (hresources : P .resources)
    (hcommand : P (.emit (.command .releaseRes v))) (hraise : ∀ e, NotFromRemove e → Ε e) :
    (releaseResForNode cfg v).Within P (fun _ ↦ True) Ε :=
  .step (hvm v) fun _ ↦ .step hresources fun _ ↦
    (within_lift (fun _ _ ↦ trivial) fun e h ↦ hraise e (notFromRemove_of_get h)).bind
      fun _ (_ : True) ↦ within_when fun _ ↦ within_runCommand hvm hcommand hraise

/-- **The provisioning command.** -/
theorem within_postProvision {v : VmRef} (hvm : ∀ v, P (.vm v)) (hresources : P .resources)
    (hemit : ∀ resource ip, P (.emit (.addSecurityGroupRule resource ip)))
    (hcommand : P (.emit (.command .postVmProvisionAction v)))
    (hset : P (.setVm v fun vm ↦ { vm with postProvisionCommandExecuted := true }))
    (hraise : ∀ e, NotFromRemove e → Ε e) : (postProvision cfg v).Within P (fun _ ↦ True) Ε := by
  refine .step (hvm v) fun vm ↦ ?_
  split
  · trivial
  · refine (within_lift (fun _ _ ↦ trivial) fun e h ↦
      hraise e (notFromRemove_of_postAction h)).bind fun _ (_ : True) ↦ ?_
    refine .step hcommand fun _ ↦ (within_when fun _ ↦ ?_).bind fun _ _ ↦ ⟨hset, fun _ ↦ trivial⟩
    exact within_openFirewall hvm hresources hemit hraise v

end Backend

/-! ### The functions of the class -/

section Scans

variable {scope : Scope} {cfg : Config}

theorem scanning_get (crs : CloudResources) (name : String) :
    Scanning scope (Program.lift (crs.get name)) fun _ ↦ True :=
  within_lift (fun _ _ ↦ trivial) fun _ h ↦ notFromRemove_of_get h

theorem scanning_openConnection (resource : String) :
    Scanning scope (openConnection resource) fun _ ↦ True :=
  within_openConnection trivial (fun _ h ↦ h) resource

theorem scanning_setVm {v : VmRef} {f : VM → VM} (hv : scope.touches v)
    (hf : ∀ vm, SameVm vm (f vm)) : Scanning scope (Proc.setVm v f) fun _ ↦ True :=
  ⟨⟨hv, hf⟩, fun _ ↦ trivial⟩

theorem scanning_runCommand (command : Command) (v : VmRef) :
    Scanning scope (runCommand cfg command v) fun _ ↦ True :=
  within_runCommand (fun _ ↦ trivial) trivial fun _ h ↦ h

theorem scanning_when {c : Prop} [Decidable c] (command : Command) (v : VmRef) :
    Scanning scope (Program.when c (runCommand cfg command v)) fun _ ↦ True :=
  within_when fun _ ↦ scanning_runCommand command v

theorem scanning_dumpNodes {c : Prop} [Decidable c] :
    Scanning scope (Program.when c Proc.dumpNodes) fun _ ↦ True :=
  within_when fun _ ↦ ⟨trivial, fun _ ↦ trivial⟩

theorem scanning_vmDestroy {v : VmRef} {record : Option WorkerNode} {answer : DestroyAnswer}
    (hv : scope.touches v) (h : ∀ forceOff, scope.destroys v record forceOff answer) (now : Time) :
    Scanning scope (vmDestroy v record answer now) fun _ ↦ True :=
  within_vmDestroy trivial trivial h ⟨hv, fun _ ↦ ⟨rfl, rfl, rfl, rfl⟩⟩ fun _ h ↦ h

/-- The call that is recorded shows the VM's `force_off` as it is then. An unknown resource raises
before anything is done. -/
theorem ends_vmDestroy {s : State} {v : VmRef} {record : Option WorkerNode}
    {answer : DestroyAnswer} {destroys : Destroys}
    (h : destroys v record (s.vms v).forceOff answer) (now : Time) :
    Ends ((vmDestroy v record answer now).exec cfg) s
      (fun _ s' ↦ Scanned ⟨destroys, (· = v)⟩ s s' ∧
        .vmDestroy v record (s.vms v).forceOff answer ∈ s.since s')
      fun e s' ↦ s.resources.get (s.vms v).cloudResourceName = .error e ∧ s' = s := by
  have hemit : Scanned ⟨destroys, (· = v)⟩ s
      (s.emit (.vmDestroy v record (s.vms v).forceOff answer)) := .emit s h
  have hset : Scanned ⟨destroys, (· = v)⟩ s
      ((s.emit (.vmDestroy v record (s.vms v).forceOff answer)).setVm v
        fun vm ↦ { vm with deleteTime := some now }) :=
    hemit.trans (.setVm _ rfl fun _ ↦ ⟨rfl, rfl, rfl, rfl⟩)
  rw [vmDestroy.eq_def, ends_vm, openConnection]
  refine Program.ends_lift_bind (fun res _ ↦ ?_) fun e he ↦ ⟨he, rfl⟩
  cases answer with
  | failed => exact ⟨hemit, by simp [State.since, State.emit]⟩
  | deleted => exact ⟨hset, by simp [State.since, State.emit, State.setVm]⟩
  | notFound => exact ⟨hset, by simp [State.since, State.emit, State.setVm]⟩

theorem scanning_getFlavor (answer : Option VMFlavor) :
    Scanning scope (getFlavor answer) fun _ ↦ True := by
  cases answer with
  | none => exact nofun
  | some flavor => trivial

theorem scanning_setVcpuNumber {v : VmRef} (hv : scope.touches v)
    (sizeFlavor : Option VMFlavor) : Scanning scope (setVcpuNumber v sizeFlavor) fun _ ↦ True := by
  refine .step trivial fun vm ↦ ?_
  split
  · exact (scanning_getFlavor _).bind fun flavor _ ↦ scanning_setVm hv fun _ ↦ ⟨rfl, rfl, rfl, rfl⟩
  · trivial

/-- What `vm_check` answers for a report, if it does not raise. -/
def cloudState : Option ServerReport → CloudState
  | none => .destroyed
  | some report =>
    if report.status = "ERROR" ∨ report.vmState = "error" then .error
    else if report.status ≠ "ACTIVE" ∨ report.vmState ≠ "active" ∨ report.taskState.isSome then
      .building
    else
      match report.address with
      | none => .building
      | some _ => if report.serverUp then .ready else .configuring

/-- Only a server that the cloud does not know counts as destroyed. -/
theorem report_of_destroyed {answer : Option ServerReport} (h : cloudState answer = .destroyed) :
    answer = none := by
  cases answer with
  | none => rfl
  | some report =>
    rw [cloudState] at h
    cases haddress : report.address with
    | none => split_ifs at h <;> simp [haddress] at h
    | some ip => split_ifs at h <;> simp [haddress] at h

theorem scanning_vmCheck {v : VmRef} (hv : scope.touches v) (answer : Option ServerReport) :
    Scanning scope (vmCheck cfg v answer) fun state ↦ state = cloudState answer := by
  refine .step trivial fun vm ↦ (scanning_openConnection _).bind fun _ _ ↦ ?_
  cases answer with
  | none => exact rfl
  | some report =>
    refine .step ⟨hv, fun _ ↦ ⟨rfl, rfl, rfl, rfl⟩⟩ fun _ ↦ ?_
    refine (scanning_setVcpuNumber hv _).bind fun _ _ ↦ ?_
    rw [cloudState]
    split
    · exact rfl
    · split
      · exact rfl
      · cases report.address with
        | none => exact rfl
        | some ip =>
          refine .step ⟨hv, fun _ ↦ ⟨rfl, rfl, rfl, rfl⟩⟩ fun _ ↦ ?_
          refine (scanning_getFlavor _).bind fun flavor _ ↦ ?_
          exact .step ⟨hv, fun _ ↦ ⟨rfl, rfl, rfl, rfl⟩⟩ fun _ ↦ rfl

theorem scanning_removeNode (v : VmRef) : Scanning scope (removeNode cfg v) fun _ ↦ True :=
  within_removeNode (fun _ ↦ trivial) trivial trivial trivial fun _ h ↦ h

/-- The three commands that take a node out of the cluster have been run. -/
def State.removeNode (s : State) (v : VmRef) : State :=
  ((s.emit (.command .removeNode v)).emit (.command .removeNodeFromHostsFile v)).emit
    (.command .removeNodeFromKnownHostsFile v)

theorem scanned_removeNode (s : State) (v : VmRef) : Scanned scope s (s.removeNode v) := by
  refine Scanned.trans (.emit s ?_) (Scanned.trans (.emit _ ?_) (.emit _ ?_))
  · trivial
  · trivial
  · trivial

/-- A command is run, or its command line cannot be built. -/
theorem ends_runCommand_emits {s : State} {command : Command} {v : VmRef}
    {Q : Unit → State → Prop} {E : PyError → State → Prop}
    (hQ : Q () (s.emit (.command command v))) (hE : ∀ e, NotFromRemove e → E e s) :
    Ends ((runCommand cfg command v).exec cfg) s Q E := by
  rw [runCommand, ends_vm]
  exact ends_lift_bind (fun _ _ ↦ hQ) fun e he ↦ hE e (notFromRemove_of_invocation he)

theorem ends_runCommand_bind {α : Type} {s : State} {command : Command} {v : VmRef}
    {f : Unit → Proc α} {Q : α → State → Prop} {E : PyError → State → Prop}
    (hf : Ends ((f ()).exec cfg) (s.emit (.command command v)) Q E)
    (hE : ∀ e, NotFromRemove e → E e s) :
    Ends ((runCommand cfg command v >>= f).exec cfg) s Q E := by
  rw [Proc.exec, run_bind, ends_bind]
  exact ends_runCommand_emits hf hE

/-- **A node is taken out of the cluster** by all three commands, or by the first ones of them if
this raises. -/
theorem ends_removeNode {α : Type} {s : State} {v : VmRef} {f : Unit → Proc α}
    {Q : α → State → Prop} {E : PyError → State → Prop}
    (hf : Ends ((f ()).exec cfg) (s.removeNode v) Q E)
    (hE : ∀ e s', NotFromRemove e → Scanned (.looking fun _ ↦ False) s s' → E e s') :
    Ends ((removeNode cfg v >>= f).exec cfg) s Q E := by
  have h₁ : Scanned (.looking fun _ ↦ False) s (s.emit (.command .removeNode v)) :=
    .emit s trivial
  have h₂ : Scanned (.looking fun _ ↦ False) s ((s.emit (.command .removeNode v)).emit
      (.command .removeNodeFromHostsFile v)) := h₁.trans (.emit _ trivial)
  rw [Proc.exec, run_bind, ends_bind, removeNode, run_bind, ends_bind]
  refine ends_runCommand_emits ?_ fun e he ↦ hE e _ he (.refl s)
  rw [run_bind, ends_bind]
  refine ends_runCommand_emits ?_ fun e he ↦ hE e _ he h₁
  exact ends_runCommand_emits hf fun e he ↦ hE e _ he h₂

theorem scanning_findWnFromVm (v : VmRef) : Scanning scope (findWnFromVm v) fun _ ↦ True :=
  .step trivial fun _ ↦ .step trivial fun _ ↦ trivial

/-! #### Provisioning -/

/-- Whether one of the `n` attempts from `i` on adds the node. -/
def addedToTorque (addNode : ℕ → Bool) : ℕ → ℕ → Bool
  | _, 0 => false
  | i, n + 1 => addNode i || addedToTorque addNode (i + 1) n

theorem scanning_tryAddNode (v : VmRef) (addNode : ℕ → Bool) (i n : ℕ) :
    Scanning scope (tryAddNode cfg v addNode i n)
      fun added ↦ added = addedToTorque addNode i n := by
  induction n generalizing i with
  | zero => exact rfl
  | succ n ih =>
    refine .step trivial fun vm ↦ .step trivial fun _ ↦ ?_
    refine (within_lift (fun _ _ ↦ trivial) fun _ h ↦ notFromRemove_of_invocation h).bind
      fun _ (_ : True) ↦ ?_
    split
    · rename_i hadded
      simp [addedToTorque, hadded, Program.Within]
    · rename_i hadded
      simpa [addedToTorque, hadded] using ih (i + 1)

theorem scanning_setUpNode (v : VmRef) (wnQuery : Bool × List WorkerNode) :
    Scanning scope (setUpNode cfg v wnQuery) fun _ ↦ True := by
  refine .step trivial fun _ ↦ .step trivial fun vm ↦ .step trivial fun crs ↦ ?_
  refine (scanning_get _ _).bind fun res _ ↦ (scanning_when _ v).bind fun _ _ ↦ ?_
  refine (scanning_runCommand _ v).bind fun _ _ ↦ (scanning_when _ v).bind fun _ _ ↦ ?_
  refine (scanning_when _ v).bind fun _ _ ↦ ?_
  refine (within_forEach_of_forall (fun _ loc _ _ ↦ scanning_when _ v) ()).bind fun _ _ ↦ ?_
  exact (scanning_runCommand _ v).bind fun _ _ ↦ scanning_runCommand _ v

/-- What becomes of a starting VM in one visit. -/
inductive Outcome
  | ready
  | givenUp (record : Option WorkerNode)
  | stays

/-- The scratch lists after a visit with an outcome. -/
def Outcome.add (v : VmRef) (scratch : ProvisionScratch) : Outcome → ProvisionScratch
  | .ready => { scratch with readyToUse := scratch.readyToUse ++ [v] }
  | .givenUp record => { scratch with toDelete := scratch.toDelete ++ [(v, record)] }
  | .stays => scratch

/-- What a visit may do to the scratch lists: nothing, or add its VM to one of them. -/
def ProvisionScratch.Adds (v : VmRef) (scratch scratch' : ProvisionScratch) : Prop :=
  ∃ outcome : Outcome, scratch' = outcome.add v scratch

/-- The outcome for a VM that is ready in the cloud and not yet in Torque. -/
def ProvisionAnswers.torqueOutcome (answers : ProvisionAnswers) : Outcome :=
  if addedToTorque answers.addNode 0 5 ∧ checkedInMaui answers.checkNode 0 60 then .stays
  else .givenUp none

/-- What is left to do for a VM that is marked as ready in the cloud. -/
theorem scanning_addToTorque_rest (cfg : Config) (scope : Scope) (answers : ProvisionAnswers)
    (v : VmRef) (scratch : ProvisionScratch) :
    Scanning scope (do
      let added ← tryAddNode cfg v answers.addNode 0 5
      if ¬added then
        return { scratch with toDelete := scratch.toDelete ++ [(v, none)] }
      else if ¬checkedInMaui answers.checkNode 0 60 then
        runCommand cfg .removeNode v
        return { scratch with toDelete := scratch.toDelete ++ [(v, none)] }
      else
        setUpNode cfg v answers.wnQuery
        return scratch)
      fun scratch' ↦ scratch' = answers.torqueOutcome.add v scratch := by
  refine (scanning_tryAddNode v _ _ _).bind ?_
  rintro added rfl
  cases hadded : addedToTorque answers.addNode 0 5 with
  | false => simp [ProvisionAnswers.torqueOutcome, hadded, Outcome.add, Program.Within]
  | true =>
    cases hchecked : checkedInMaui answers.checkNode 0 60 with
    | false =>
      refine (scanning_runCommand .removeNode v).bind fun _ _ ↦ ?_
      simp [ProvisionAnswers.torqueOutcome, hchecked, Outcome.add, Program.Within]
    | true =>
      refine (scanning_setUpNode v _).bind fun _ _ ↦ ?_
      simp [ProvisionAnswers.torqueOutcome, hadded, hchecked, Outcome.add, Program.Within]

theorem scanning_addToTorque {v : VmRef} (hv : scope.touches v) (answers : ProvisionAnswers)
    (scratch : ProvisionScratch) :
    Scanning scope (addToTorque cfg answers v scratch)
      fun scratch' ↦ scratch' = answers.torqueOutcome.add v scratch :=
  .step ⟨hv, fun _ ↦ ⟨rfl, rfl, rfl, rfl⟩⟩ fun _ ↦
    scanning_addToTorque_rest cfg scope answers v scratch

theorem scanning_openFirewall (v : VmRef) :
    Scanning scope (openFirewall cfg v) fun _ ↦ True :=
  within_openFirewall (fun _ ↦ trivial) trivial (fun _ _ ↦ trivial) (fun _ h ↦ h) v

theorem scanning_postProvision {v : VmRef} (hv : scope.touches v) :
    Scanning scope (postProvision cfg v) fun _ ↦ True :=
  within_postProvision (fun _ ↦ trivial) trivial (fun _ _ ↦ trivial) trivial
    ⟨hv, fun _ ↦ ⟨rfl, rfl, rfl, rfl⟩⟩ fun _ h ↦ h

theorem scanning_giveUpIfOverdue (now : Time) (v : VmRef) (scratch : ProvisionScratch) :
    Scanning scope (giveUpIfOverdue cfg now v scratch) (scratch.Adds v) := by
  refine .step trivial fun vm ↦ ?_
  split
  · exact ⟨.givenUp none, rfl⟩
  · exact ⟨.stays, rfl⟩

theorem scanning_provisionVisit {v : VmRef} (hv : scope.touches v) (answers : ProvisionAnswers)
    (scratch : ProvisionScratch) :
    Scanning scope (provisionVisit cfg answers v scratch) (scratch.Adds v) := by
  refine .step trivial fun vm ↦ ?_
  split
  · rw [pollTorque]
    split
    · split
      · exact ⟨.ready, rfl⟩
      · refine .step trivial fun vm ↦ ?_
        split
        · exact ⟨.givenUp (some _), rfl⟩
        · exact ⟨.stays, rfl⟩
    · exact ⟨.stays, rfl⟩
    · exact ⟨.stays, rfl⟩
  · refine (scanning_vmCheck hv _).bind fun state _ ↦ ?_
    cases state with
    | ready =>
      exact (scanning_addToTorque hv answers scratch).mono (fun _ h ↦ h) (fun _ h ↦ ⟨_, h⟩)
        fun _ h ↦ h
    | configuring =>
      exact (scanning_postProvision hv).bind fun _ _ ↦
        scanning_giveUpIfOverdue answers.now v scratch
    | building => exact scanning_giveUpIfOverdue answers.now v scratch
    | destroyed => exact ⟨.givenUp none, rfl⟩
    | error => exact ⟨.givenUp none, rfl⟩

/-! #### Checking the existing workers -/

theorem scanning_recordState {v : VmRef} (hv : scope.touches v) (state : Option String) :
    Scanning scope (recordState cfg v state) fun _ ↦ True := by
  refine .step trivial fun vm ↦ (within_lift (fun _ _ ↦ trivial)
    fun _ h ↦ notFromRemove_of_stateTimeAfter h).bind fun stateTime (_ : True) ↦ ?_
  exact .step ⟨hv, fun _ ↦ ⟨rfl, rfl, rfl, rfl⟩⟩ fun _ ↦
    scanning_setVm hv fun _ ↦ ⟨rfl, rfl, rfl, rfl⟩

theorem scanning_holdOtherImage (v : VmRef) :
    Scanning scope (holdOtherImage cfg v) fun _ ↦ True := by
  refine .step trivial fun vm ↦ .step trivial fun crs ↦ (scanning_get _ _).bind fun res _ ↦ ?_
  exact within_when fun _ ↦ scanning_runCommand .holdNode v

/-- The name of the flavour of a VM, where there is one. -/
theorem scanning_flavorName (flavor : Option FlavorRef) :
    Scanning scope (Program.lift (match flavor with
      | some flavor => flavor.name
      | none => .error (.attributeError "name"))) fun _ ↦ True :=
  within_lift (fun _ _ ↦ trivial) fun _ h ↦ notFromRemove_of_flavorName h

theorem scanning_warnBaseFlavor (v : VmRef) :
    Scanning scope (warnBaseFlavor v) fun _ ↦ True := by
  refine .step trivial fun vm ↦ .step trivial fun crs ↦ (scanning_flavorName _).bind fun name _ ↦ ?_
  refine (scanning_get _ _).bind fun res _ ↦ ?_
  refine (within_lift (fun _ _ ↦ trivial) fun _ h ↦ notFromRemove_of_first h).bind
    fun base (_ : True) ↦ ?_
  split
  · exact (within_lift (fun _ _ ↦ trivial) fun _ h ↦ notFromRemove_of_firstFlavor h).bind
      fun _ (_ : True) ↦ trivial
  · trivial

/-! #### Clean-up -/

theorem scanning_releaseResForNode (v : VmRef) :
    Scanning scope (releaseResForNode cfg v) fun _ ↦ True :=
  within_releaseResForNode (fun _ ↦ trivial) trivial trivial fun _ h ↦ h

/-- What a visit may do to the scratch lists: nothing, or add its VM to one of them, to the
deleted ones only if the cloud does not know it. -/
def CleanupScratch.Adds (answers : CleanupAnswers) (v : VmRef)
    (scratch scratch' : CleanupScratch) : Prop :=
  scratch' = scratch ∨
    (answers.report = none ∧ scratch' = { scratch with deleted := scratch.deleted ++ [v] }) ∨
      scratch' = { scratch with executing := scratch.executing ++ [v] }

/-- A visit puts its VM in one place at most. -/
theorem CleanupScratch.Adds.subperm {answers : CleanupAnswers} {v : VmRef} {done : List VmRef}
    {scratch scratch' : CleanupScratch} (hadds : scratch.Adds answers v scratch')
    (h : (scratch.deleted ++ scratch.executing).Subperm done) :
    (scratch'.deleted ++ scratch'.executing).Subperm (done ++ [v]) := by
  have hadd : ([v] ++ (scratch.deleted ++ scratch.executing)).Subperm (done ++ [v]) :=
    ((List.subperm_append_left [v]).2 h).trans List.perm_append_comm.subperm
  rcases hadds with rfl | ⟨-, rfl⟩ | rfl
  · exact h.trans (List.sublist_append_left _ _).subperm
  · refine List.Subperm.trans (List.Perm.subperm ?_) hadd
    rw [List.append_assoc]
    exact List.perm_append_comm_assoc _ _ _
  · refine List.Subperm.trans (List.Perm.subperm ?_) hadd
    rw [← List.append_assoc]
    exact List.perm_append_comm

theorem scanning_cleanUpUnknown {answers : CleanupAnswers} {state : CloudState}
    (hstate : state = cloudState answers.report) {v : VmRef} (hv : scope.touches v)
    (hidle : ∀ {record forceOff answer}, idleDestroy v record forceOff answer →
      scope.destroys v record forceOff answer) (scratch : CleanupScratch) :
    Scanning scope (cleanUpUnknown cfg answers v state scratch) (scratch.Adds answers v) := by
  rw [cleanUpUnknown]
  split
  · rename_i hdestroyed
    exact .inr (.inl ⟨report_of_destroyed (hstate ▸ hdestroyed), rfl⟩)
  · refine .step trivial fun vm ↦ ?_
    split
    · have hnone : ∀ forceOff, idleDestroy v none forceOff answers.destroy.answer := fun _ ↦ rfl
      exact (scanning_vmDestroy hv (fun _ ↦ hidle (hnone _)) _).bind fun _ _ ↦ .inl rfl
    · exact .inl rfl

theorem scanning_cleanUpKnown (answers : CleanupAnswers) {v : VmRef} (hv : scope.touches v)
    (hidle : ∀ {record forceOff answer}, idleDestroy v record forceOff answer →
      scope.destroys v record forceOff answer) (state : CloudState) (wn : WorkerNode)
    (scratch : CleanupScratch) :
    Scanning scope (cleanUpKnown cfg answers v state wn scratch) (scratch.Adds answers v) := by
  rw [cleanUpKnown]
  split
  · exact (scanning_releaseResForNode v).bind fun _ _ ↦
      (scanning_runCommand .removeNode v).bind fun _ _ ↦ .inl rfl
  · split
    · refine .step trivial fun vm ↦ ?_
      split
      · exact .inl rfl
      · exact .inr (.inr rfl)
    · rename_i hjobs
      have hnone : ∀ forceOff, idleDestroy v (some wn) forceOff answers.destroy.answer := by
        simpa [idleDestroy] using hjobs
      refine (scanning_releaseResForNode v).bind fun _ _ ↦
        (scanning_runCommand .removeNode v).bind fun _ _ ↦ ?_
      refine (scanning_vmDestroy hv (fun _ ↦ hidle (hnone _)) _).bind fun _ _ ↦ ?_
      exact .step ⟨hv, fun _ ↦ ⟨rfl, rfl, rfl, rfl⟩⟩ fun _ ↦ .inl rfl

/-- The clean-up destroys only VMs whose record has no jobs. -/
theorem scanning_cleanupVisit (answers : CleanupAnswers) {v : VmRef} (hv : scope.touches v)
    (hidle : ∀ {record forceOff answer}, idleDestroy v record forceOff answer →
      scope.destroys v record forceOff answer) (scratch : CleanupScratch) :
    Scanning scope (cleanupVisit cfg answers v scratch) (scratch.Adds answers v) := by
  refine (scanning_vmCheck hv _).bind fun state hstate ↦ .step trivial fun vm ↦ ?_
  split
  · split
    · rename_i hdestroyed
      exact .inr (.inl ⟨report_of_destroyed (hstate ▸ hdestroyed), rfl⟩)
    · exact .inl rfl
  · split
    · exact .inl rfl
    · exact scanning_cleanUpUnknown hstate hv hidle scratch
    · exact scanning_cleanUpKnown answers hv hidle state _ scratch

end Scans

end DynamicTorque
