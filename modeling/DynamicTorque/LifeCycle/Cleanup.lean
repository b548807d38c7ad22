import DynamicTorque.LifeCycle.Launching
import DynamicTorque.LifeCycle.Ready

/-!
# Clean-up

`check_cleanup` commits the VMs that are gone and the ones that are busy again in one block, after
a scan that decides which is which.
-/

open Python Atomic Program

namespace DynamicTorque

/-! ### Tidying up after a VM -/

section Cleanup

open Locked

variable {cfg : Config} {s s₁ s' : State} {v : VmRef}

/-- A VM that is static and has a location: when it is gone, the location asks for another one. -/
def AsksForAnother (cfg : Config) (vm : VM) : Prop :=
  vm.dynamic = false ∧ ∃ loc, cfg.locationOfZone vm.availabilityZone = some loc ∧ loc ≠ ""

/-- The request for another VM can be made: the flavour is known. -/
def VM.Replaceable (vm : VM) : Prop :=
  ∃ flavor, vm.flavor = some flavor ∧ flavor.truthy = true

/-- The outstanding static VMs of a resource for which no request waits. -/
def State.shortfall (s : State) (resource : String) : ℤ :=
  s.outstanding resource - staticCount resource s.waiting

/-- The frame of what follows the removal of a VM that is gone: static requests, the waiting list
and the trace. -/
structure Tidied (cfg : Config) (vm : VM) (s s' : State) : Prop where
  existing : s'.existing = s.existing
  starting : s'.starting = s.starting
  deleting : s'.deleting = s.deleting
  vms : s'.vms = s.vms
  nextVm : s'.nextVm = s.nextVm
  provisioning : s'.provisioning = s.provisioning
  sleepMode : s'.sleepMode = s.sleepMode
  names : s'.resources.names = s.resources.names
  quiet : ¬(AsksForAnother cfg vm ∧ vm.Replaceable) → s'.waiting = s.waiting
  shortfall : (AsksForAnother cfg vm → vm.Replaceable) → ∀ resource,
    s'.shortfall resource ≤ s.shortfall resource
  trace : Emits (Event.Allowed fun _ _ _ _ ↦ False) s s'

theorem Tidied.refl (vm : VM) (s : State) : Tidied cfg vm s s where
  existing := rfl
  starting := rfl
  deleting := rfl
  vms := rfl
  nextVm := rfl
  provisioning := rfl
  sleepMode := rfl
  names := rfl
  quiet := fun _ ↦ rfl
  shortfall := fun _ _ ↦ le_rfl
  trace := .refl s

theorem Tidied.trans {vm : VM} (h : Tidied cfg vm s s₁) (h' : Tidied cfg vm s₁ s') :
    Tidied cfg vm s s' where
  existing := h'.existing.trans h.existing
  starting := h'.starting.trans h.starting
  deleting := h'.deleting.trans h.deleting
  vms := h'.vms.trans h.vms
  nextVm := h'.nextVm.trans h.nextVm
  provisioning := h'.provisioning.trans h.provisioning
  sleepMode := h'.sleepMode.trans h.sleepMode
  names := h'.names.trans h.names
  quiet := fun hquiet ↦ (h'.quiet hquiet).trans (h.quiet hquiet)
  shortfall := fun hasks resource ↦ (h'.shortfall hasks resource).trans (h.shortfall hasks resource)
  trace := h.trace.trans h'.trace

theorem ends_when {c : Prop} [Decidable c] {x : Locked Unit} {Q : Unit → State → Prop}
    {E : PyError → State → Prop} (hx : Ends x s Q E) (hs : Q () s) :
    Ends (Locked.when c x) s Q E := by
  rw [Locked.when]
  split
  · exact hx
  · exact hs

theorem ends_closeFirewall (vm : VM) (names : List String) :
    Ends (closeFirewall cfg vm names) s (fun _ ↦ Tidied cfg vm s)
      fun e s' ↦ NotFromRemove e ∧ Tidied cfg vm s s' := by
  induction names generalizing s with
  | nil => exact .refl vm s
  | cons res names ih =>
    rw [closeFirewall, ends_bind, ends_get, ends_bind]
    have hrule : Ends (removeRule cfg vm res) s (fun _ ↦ Tidied cfg vm s)
        fun e s' ↦ NotFromRemove e ∧ Tidied cfg vm s s' := by
      rw [removeRule]
      split
      · exact .refl vm s
      · exact ⟨nofun, .refl vm s⟩
      · exact { (Tidied.refl vm s : Tidied cfg vm s s) with trace := .emit s trivial }
    refine (ends_when hrule (.refl vm s)).mono (fun _ s₁ h₁ ↦ (ih (s := s₁)).mono ?_ ?_)
      fun _ _ h ↦ h
    · exact fun _ _ h ↦ h₁.trans h
    · exact fun _ _ h ↦ ⟨h.1, h₁.trans h.2⟩

/-- `add_static_req` asks for as many VMs more as it is told. -/
theorem outstanding_addStaticReq (location : String) (n : ℤ) (reqs : StaticVMs) :
    (reqs.addStaticReq location n).outstanding = reqs.outstanding + n := by
  induction reqs with
  | nil => simp [StaticVMs.addStaticReq, StaticVMs.outstanding]
  | cons req rest ih =>
    rw [StaticVMs.addStaticReq]
    split
    · simp only [StaticVMs.outstanding, List.map_cons, List.sum_cons]
      omega
    · simp only [StaticVMs.outstanding, List.map_cons, List.sum_cons] at ih ⊢
      omega

/-- The state in which a location has asked for one more VM. -/
def State.asking (s : State) (resource location : String) (reqs : StaticVMs) : State :=
  { s with
    resources := s.resources.modify resource fun res ↦
      { res with staticVmsToStart := some (reqs.addStaticReq location 1) } }

theorem outstanding_asking {resource method : String} (location : String) {reqs : StaticVMs}
    (h : s.resources.staticVmsToStart resource method = .ok reqs) (other : String) :
    (s.asking resource location reqs).outstanding other =
      s.outstanding other + if other = resource then 1 else 0 := by
  by_cases hother : other = resource
  · subst hother
    rw [outstanding_of_staticVmsToStart h, if_pos rfl, ← outstanding_addStaticReq location]
    simp [State.outstanding, State.asking]
  · rw [if_neg hother, State.outstanding, State.asking, s.resources.object_modify_of_ne hother]
    exact (Int.add_zero _).symm

/-- The request that replaces a static VM is static. -/
theorem staticCount_replacement (s : State) {vm : VM} (flavor : FlavorRef)
    (hstatic : vm.dynamic = false) (resource : String) :
    staticCount resource (s.waitFor
      [(⟨flavor, vm.availabilityZone, vm.cloudResourceName, !vm.dynamic⟩, 1)]).waiting =
      staticCount resource s.waiting + if resource = vm.cloudResourceName then 1 else 0 := by
  rw [State.waitFor, staticCount_append]
  by_cases hresource : resource = vm.cloudResourceName
  · subst hresource
    simp [staticCount, hstatic]
  · simp [staticCount, hstatic, hresource, Ne.symm hresource]

/-- Another VM is asked for and a request for it waits. -/
theorem shortfall_replacement {vm : VM} {location method : String} {reqs : StaticVMs}
    (flavor : FlavorRef) (hstatic : vm.dynamic = false)
    (h : s.resources.staticVmsToStart vm.cloudResourceName method = .ok reqs) (resource : String) :
    ((s.asking vm.cloudResourceName location reqs).waitFor
      [(⟨flavor, vm.availabilityZone, vm.cloudResourceName, !vm.dynamic⟩, 1)]).shortfall resource =
      s.shortfall resource := by
  have hcount := staticCount_replacement (s.asking vm.cloudResourceName location reqs) flavor
    hstatic resource
  have hasking := outstanding_asking location h resource
  rw [State.shortfall, State.shortfall, hcount]
  have hsame : ((s.asking vm.cloudResourceName location reqs).waitFor
      [(⟨flavor, vm.availabilityZone, vm.cloudResourceName, !vm.dynamic⟩, 1)]).outstanding
        resource = (s.asking vm.cloudResourceName location reqs).outstanding resource := rfl
  have hwaiting : staticCount resource (s.asking vm.cloudResourceName location reqs).waiting =
      staticCount resource s.waiting := rfl
  rw [hsame, hasking, hwaiting]
  split_ifs
  · omega
  · omega

theorem ends_replaceStatic {vm : VM} (hstatic : vm.dynamic = false) :
    Ends (replaceStatic cfg vm) s (fun _ ↦ Tidied cfg vm s)
      fun e s' ↦ NotFromRemove e ∧ Tidied cfg vm s s' := by
  rw [replaceStatic]
  split
  · exact .refl vm s
  · rename_i loc hloc
    split
    · exact .refl vm s
    · rename_i hne
      have hasks : AsksForAnother cfg vm := ⟨hstatic, loc, hloc, hne⟩
      rw [ends_bind, ends_get, ends_bind]
      refine ends_lift (fun reqs hreqs ↦ ?_) fun e he ↦
        ⟨notFromRemove_of_staticVmsToStart he, .refl vm s⟩
      rw [setStaticVmsToStart, ends_bind, ends_modify]
      show Ends _ (s.asking vm.cloudResourceName loc reqs) _ _
      -- the request is counted before it is known whether a flavour can be asked for
      have hlost : ¬vm.Replaceable → Tidied cfg vm s (s.asking vm.cloudResourceName loc reqs) :=
        fun hnot ↦ { (Tidied.refl vm s : Tidied cfg vm s s) with
          shortfall := fun h ↦ absurd (h hasks) hnot
          trace := .of_eq rfl }
      split
      · rename_i flavor hflavor
        split
        · rename_i htruthy
          have hreplaceable : vm.Replaceable := ⟨flavor, hflavor, htruthy⟩
          refine { (Tidied.refl vm s : Tidied cfg vm s s) with
            quiet := fun h ↦ absurd ⟨hasks, hreplaceable⟩ h
            shortfall := fun _ resource ↦ ?_
            trace := .of_eq rfl }
          exact (shortfall_replacement flavor hstatic hreqs resource).le
        · rename_i htruthy
          refine ⟨nofun, hlost ?_⟩
          rintro ⟨flavor', hflavor', htruthy'⟩
          obtain rfl := Option.some.inj (hflavor.symm.trans hflavor')
          exact htruthy htruthy'
      · rename_i hflavor
        refine ⟨nofun, hlost ?_⟩
        rintro ⟨flavor', hflavor', -⟩
        exact nomatch hflavor.symm.trans hflavor'

/-- The command lines of the clean-up actions of a VM can be built. -/
def ActionsBuilt (cfg : Config) (vm : VM) : Prop :=
  Returns (Command.postVmDestroyAction.invocation cfg.commands vm) ∧
    Returns (Command.postRemoveNodeAction.invocation cfg.commands vm)

/-- The frame of `dropDeleted`, after it has dropped the VMs `done`. The clean-up actions have run
of those for which they can be built. -/
structure Dropped (cfg : Config) (done : List VmRef) (s s' : State) : Prop where
  subperm : done.Subperm s.deleting
  existing : s'.existing = s.existing
  starting : s'.starting = s.starting
  deleting : s'.deleting = s.deleting.diff done
  vms : s'.vms = s.vms
  nextVm : s'.nextVm = s.nextVm
  provisioning : s'.provisioning = s.provisioning
  sleepMode : s'.sleepMode = s.sleepMode
  names : s'.resources.names = s.resources.names
  quiet : (∀ v ∈ done, ¬(AsksForAnother cfg (s.vms v) ∧ (s.vms v).Replaceable)) →
    s'.waiting = s.waiting
  shortfall : (∀ v ∈ done, AsksForAnother cfg (s.vms v) → (s.vms v).Replaceable) → ∀ resource,
    s'.shortfall resource ≤ s.shortfall resource
  trace : Emits (Event.Allowed fun _ _ _ _ ↦ False) s s'
  actions : ∀ v ∈ done, ActionsBuilt cfg (s.vms v) →
    .command .postVmDestroyAction v ∈ s.since s' ∧ .command .postRemoveNodeAction v ∈ s.since s'

theorem Dropped.refl (s : State) : Dropped cfg [] s s where
  subperm := List.nil_subperm
  existing := rfl
  starting := rfl
  deleting := rfl
  vms := rfl
  nextVm := rfl
  provisioning := rfl
  sleepMode := rfl
  names := rfl
  quiet := fun _ ↦ rfl
  shortfall := fun _ _ ↦ le_rfl
  trace := .refl s
  actions := nofun

theorem Dropped.trans {done done' : List VmRef} (h : Dropped cfg done s s₁)
    (h' : Dropped cfg done' s₁ s') : Dropped cfg (done ++ done') s s' where
  subperm := subperm_append h.subperm (h.deleting ▸ h'.subperm)
  existing := h'.existing.trans h.existing
  starting := h'.starting.trans h.starting
  deleting := by rw [h'.deleting, h.deleting, List.diff_append]
  vms := h'.vms.trans h.vms
  nextVm := h'.nextVm.trans h.nextVm
  provisioning := h'.provisioning.trans h.provisioning
  sleepMode := h'.sleepMode.trans h.sleepMode
  names := h'.names.trans h.names
  quiet := fun hall ↦ by
    rw [List.forall_mem_append] at hall
    exact (h'.quiet (h.vms ▸ hall.2)).trans (h.quiet hall.1)
  shortfall := fun hall resource ↦ by
    rw [List.forall_mem_append] at hall
    exact (h'.shortfall (h.vms ▸ hall.2) resource).trans (h.shortfall hall.1 resource)
  trace := h.trace.trans h'.trace
  actions := fun v hv hbuilt ↦ by
    rw [h.trace.since_trans h'.trace]
    rcases List.mem_append.1 hv with hv | hv
    · exact (h.actions v hv hbuilt).imp (List.mem_append_left _) (List.mem_append_left _)
    · exact (h'.actions v hv (by rwa [h.vms])).imp (List.mem_append_right _)
        (List.mem_append_right _)

/-- The state in which a VM that is gone has left the deleting list and its actions have run. -/
def State.dropped (s : State) (v : VmRef) : State :=
  { s with
    deleting := s.deleting.erase v
    trace := s.trace ++ [.command .postVmDestroyAction v, .command .postRemoveNodeAction v] }

theorem emits_dropped (s : State) (v : VmRef) :
    Emits (Event.Allowed fun _ _ _ _ ↦ False) s (s.dropped v) :=
  .of_append rfl (by simp [Event.Allowed])

theorem dropped_of_tidied (hmem : v ∈ s.deleting) (h : Tidied cfg (s.vms v) (s.dropped v) s') :
    Dropped cfg [v] s s' where
  subperm := List.singleton_subperm_iff.2 hmem
  existing := h.existing
  starting := h.starting
  deleting := by rw [h.deleting]; simp [State.dropped]
  vms := h.vms
  nextVm := h.nextVm
  provisioning := h.provisioning
  sleepMode := h.sleepMode
  names := h.names
  quiet := fun hall ↦ h.quiet (hall v List.mem_cons_self)
  shortfall := fun hall ↦ h.shortfall (hall v List.mem_cons_self)
  trace := (emits_dropped s v).trans h.trace
  actions := fun w hw _ ↦ by
    obtain rfl := List.mem_singleton.1 hw
    rw [(emits_dropped s w).since_trans h.trace]
    simp [State.since, State.dropped]

theorem ends_runHook {hook : Command} {started : Invocation} {Q : Unit → State → Prop}
    {E : PyError → State → Prop} (h : hook.invocation cfg.commands (s.vms v) = .ok started) :
    Ends (runHook cfg hook v) s Q E ↔ Q () (s.emit (.command hook v)) := by
  rw [runHook, ends_bind, ends_get, ends_bind, h]
  rfl

theorem ends_runHook_raises {hook : Command} {e : PyError} {Q : Unit → State → Prop}
    {E : PyError → State → Prop} (h : hook.invocation cfg.commands (s.vms v) = .error e) :
    Ends (runHook cfg hook v) s Q E ↔ E e s := by
  rw [runHook, ends_bind, ends_get, ends_bind, h]
  rfl

/-- What is left to do for a VM that is gone, once it has left the list and its actions have run. -/
theorem ends_dropVm_iff (hmem : v ∈ s.deleting) (hbuilt : ActionsBuilt cfg (s.vms v))
    {Q : Unit → State → Prop} {E : PyError → State → Prop} :
    Ends (dropVm cfg v) s Q E ↔
      Ends (do
        Locked.when ((s.vms v).cloudResourceName = "default")
          (closeFirewall cfg (s.vms v) s.resources.names)
        Locked.when (¬(s.vms v).dynamic) (replaceStatic cfg (s.vms v))) (s.dropped v) Q E := by
  obtain ⟨⟨started, hdestroy⟩, ⟨started', hremove⟩⟩ := hbuilt
  have hleft : Command.postVmDestroyAction.invocation cfg.commands
      ((s.setList ((s.list .deleting).erase v) .deleting).vms v) = .ok started := hdestroy
  have hrun : Command.postRemoveNodeAction.invocation cfg.commands
      (((s.setList ((s.list .deleting).erase v) .deleting).emit
        (.command .postVmDestroyAction v)).vms v) = .ok started' := hremove
  rw [dropVm, ends_bind, ends_removeFrom (L := .deleting) hmem, ends_bind, ends_runHook hleft,
    ends_bind, ends_runHook hrun, ends_bind, ends_get]
  have hstate : ((s.setList ((s.list .deleting).erase v) .deleting).emit
      (.command .postVmDestroyAction v)).emit (.command .postRemoveNodeAction v) = s.dropped v := by
    simp [State.dropped, State.emit, State.setList, State.list]
  rw [hstate]
  rfl

/-- A VM whose actions cannot be built has left the list all the same, and nothing else happens. -/
theorem ends_dropVm_unbuilt (hmem : v ∈ s.deleting) (h : ¬ActionsBuilt cfg (s.vms v)) :
    Ends (dropVm cfg v) s (fun _ _ ↦ False) fun e s' ↦ NotFromRemove e ∧
      s' = { s with deleting := s.deleting.erase v, trace := s'.trace } ∧
        Emits (Event.Allowed fun _ _ _ _ ↦ False) s s' := by
  rw [dropVm, ends_bind, ends_removeFrom (L := .deleting) hmem, ends_bind]
  obtain ⟨s₁, hs₁⟩ : ∃ s₁, s₁ = s.setList ((s.list .deleting).erase v) .deleting := ⟨_, rfl⟩
  rw [← hs₁]
  have hvms : s₁.vms = s.vms := by rw [hs₁]; rfl
  have hleft : Emits (Event.Allowed fun _ _ _ _ ↦ False) s s₁ := .of_eq (by rw [hs₁]; rfl)
  cases hdestroy : Command.postVmDestroyAction.invocation cfg.commands (s.vms v) with
  | error e =>
    rw [ends_runHook_raises (by rw [hvms, hdestroy])]
    exact ⟨notFromRemove_of_postAction hdestroy, by rw [hs₁]; rfl, hleft⟩
  | ok started =>
    rw [ends_runHook (by rw [hvms, hdestroy]), ends_bind]
    cases hremove : Command.postRemoveNodeAction.invocation cfg.commands (s.vms v) with
    | error e =>
      rw [ends_runHook_raises (by rw [← hremove, ← hvms]; rfl)]
      exact ⟨notFromRemove_of_postAction hremove, by rw [hs₁]; rfl, hleft.trans (.emit _ trivial)⟩
    | ok started' => exact absurd ⟨⟨started, hdestroy⟩, ⟨started', hremove⟩⟩ h

/-- What holds of a VM that was dropped without its actions. -/
theorem dropped_of_unbuilt (hmem : v ∈ s.deleting) (h : ¬ActionsBuilt cfg (s.vms v))
    (hs' : s' = { s with deleting := s.deleting.erase v, trace := s'.trace })
    (htrace : Emits (Event.Allowed fun _ _ _ _ ↦ False) s s') : Dropped cfg [v] s s' where
  subperm := List.singleton_subperm_iff.2 hmem
  existing := by rw [hs']
  starting := by rw [hs']
  deleting := by rw [hs']; simp
  vms := by rw [hs']
  nextVm := by rw [hs']
  provisioning := by rw [hs']
  sleepMode := by rw [hs']
  names := by rw [hs']
  quiet := fun _ ↦ by rw [hs']
  shortfall := fun _ _ ↦ by rw [hs']; exact le_rfl
  trace := htrace
  actions := fun w hw hbuilt ↦ by
    obtain rfl := List.mem_singleton.1 hw
    exact absurd hbuilt h

/-- **One VM that is gone.** It is dropped, whatever is raised later on. -/
theorem ends_dropVm (hmem : v ∈ s.deleting) :
    Ends (dropVm cfg v) s (fun _ ↦ Dropped cfg [v] s)
      fun e s' ↦ NotFromRemove e ∧ Dropped cfg [v] s s' := by
  rcases Classical.em (ActionsBuilt cfg (s.vms v)) with hbuilt | hnot
  swap
  · exact (ends_dropVm_unbuilt hmem hnot).mono (fun _ _ h ↦ h.elim)
      fun e s' h ↦ ⟨h.1, dropped_of_unbuilt hmem hnot h.2.1 h.2.2⟩
  rw [ends_dropVm_iff hmem hbuilt, ends_bind]
  refine (ends_when (ends_closeFirewall _ _) (.refl _ _)).mono (fun _ s₁ h₁ ↦ ?_)
    fun e s' h ↦ ⟨h.1, dropped_of_tidied hmem h.2⟩
  rw [Locked.when]
  split
  · rename_i hstatic
    have hstatic : (s.vms v).dynamic = false := by simpa using hstatic
    refine (ends_replaceStatic hstatic).mono (fun _ s' h ↦ ?_) fun e s' h ↦ ?_
    · exact dropped_of_tidied hmem (h₁.trans h)
    · exact ⟨h.1, dropped_of_tidied hmem (h₁.trans h.2)⟩
  · exact dropped_of_tidied hmem h₁

/-- **All VMs that are gone.** They are dropped in order, up to the one whose tidying raised. -/
theorem ends_dropDeleted : ∀ {vs : List VmRef} {s : State}, vs.Subperm s.deleting →
    Ends (dropDeleted cfg vs) s (fun _ ↦ Dropped cfg vs s)
      fun e s' ↦ NotFromRemove e ∧ ∃ done, done <+: vs ∧ Dropped cfg done s s' := by
  intro vs
  induction vs with
  | nil => exact fun {s} _ ↦ .refl s
  | cons v vs ih =>
    intro s hsub
    rw [dropDeleted, ends_bind]
    refine (ends_dropVm (hsub.subset List.mem_cons_self)).mono (fun _ s₁ h₁ ↦ ?_)
      fun e s' h ↦ ⟨h.1, [v], by simp, h.2⟩
    have hrest : vs.Subperm s₁.deleting := by
      rw [h₁.deleting]
      simpa using hsub.erase v
    refine (ih hrest).mono (fun _ s' h ↦ h₁.trans h) ?_
    rintro e s' ⟨he, done, hpre, h⟩
    exact ⟨he, v :: done, List.cons_prefix_cons.2 ⟨rfl, hpre⟩, h₁.trans h⟩

/-- The frame of `resumeExecuting`. -/
structure Resumed (vs : List VmRef) (s s' : State) : Prop where
  subperm : vs.Subperm s.deleting
  existing : s'.existing = s.existing ++ vs
  starting : s'.starting = s.starting
  deleting : s'.deleting = s.deleting.diff vs
  waiting : s'.waiting = s.waiting
  resources : s'.resources = s.resources
  vms : s'.vms = s.vms
  nextVm : s'.nextVm = s.nextVm
  provisioning : s'.provisioning = s.provisioning
  sleepMode : s'.sleepMode = s.sleepMode
  trace : Emits (Event.Allowed fun _ _ _ _ ↦ False) s s'

/-- **All VMs that are busy again.** Nothing can raise. -/
theorem ends_resumeExecuting : ∀ {vs : List VmRef} {s : State}, vs.Subperm s.deleting →
    Ends (resumeExecuting vs) s (fun _ ↦ Resumed vs s) fun _ _ ↦ False := by
  intro vs
  induction vs with
  | nil =>
    intro s _
    exact ⟨List.nil_subperm, by simp, rfl, rfl, rfl, rfl, rfl, rfl, rfl, rfl, .refl s⟩
  | cons v vs ih =>
    intro s hsub
    have hmem : v ∈ (s.setList (s.list .existing ++ [v]) .existing).list .deleting :=
      hsub.subset List.mem_cons_self
    rw [resumeExecuting, ends_bind, resumeVm, ends_bind, ends_append, ends_bind,
      ends_removeFrom hmem, emit, ends_modify]
    have hrest : vs.Subperm (s.deleting.erase v) := by simpa using hsub.erase v
    refine Ends.mono (ih hrest) (fun _ s' h ↦ ?_) fun _ _ h ↦ h
    have hrelease : Emits (Event.Allowed fun _ _ _ _ ↦ False) s
        (s.emit (.command .releaseNode v)) := .emit s trivial
    exact
      { subperm := hsub
        existing := by rw [h.existing]; exact List.append_assoc _ _ _
        starting := h.starting
        deleting := by rw [h.deleting, List.diff_cons]; rfl
        waiting := h.waiting
        resources := h.resources
        vms := h.vms
        nextVm := h.nextVm
        provisioning := h.provisioning
        sleepMode := h.sleepMode
        trace := hrelease.trans ⟨h.trace.trace, h.trace.events⟩ }

/-- The VMs that a clean-up drops are lost; those that it resumes are not. -/
theorem moves_dropped {lost : VmRef → Prop} {done : List VmRef} (h : Dropped cfg done s s')
    (hlost : ∀ v ∈ done, lost v) : Moves lost s s' where
  wellFormed := fun ⟨hpart, hfresh⟩ ↦ by
    have hsubset : ∀ v ∈ s'.tracked, v ∈ s.tracked := by
      intro v hv
      rw [State.mem_tracked, h.existing, h.starting, h.deleting] at hv
      exact State.mem_tracked.2 (hv.imp_right fun hv ↦ hv.imp_right (List.diff_subset _ _ ·))
    refine ⟨partition_iff.2 ?_, fun v hv ↦ h.nextVm ▸ hfresh v (hsubset v hv)⟩
    rw [State.tracked, h.existing, h.starting, h.deleting]
    exact (partition_iff.1 hpart).sublist ((List.diff_sublist _ _).append_left _)
  kept := fun v hv ↦ by
    rcases State.mem_tracked.1 hv with hv | hv | hv
    · exact .inl (State.mem_tracked.2 (.inl (h.existing ▸ hv)))
    · exact .inl (State.mem_tracked.2 (.inr (.inl (h.starting ▸ hv))))
    · by_cases hdone : v ∈ done
      · exact .inr (hlost v hdone)
      · refine .inl (State.mem_tracked.2 (.inr (.inr ?_)))
        rw [h.deleting]
        exact List.mem_diff_of_mem hv hdone

theorem moves_resumed {lost : VmRef → Prop} {vs : List VmRef} (h : Resumed vs s s') :
    Moves lost s s' := by
  refine .of_perm ?_ h.nextVm.ge
  have hdiff : (vs ++ s.deleting.diff vs).Perm s.deleting := append_diff_perm h.subperm
  rw [State.tracked, State.tracked, h.existing, h.starting, h.deleting]
  have hmove : (s.existing ++ vs ++ s.starting ++ s.deleting.diff vs).Perm
      (s.existing ++ s.starting ++ (vs ++ s.deleting.diff vs)) := by
    simp only [List.append_assoc]
    refine List.Perm.append_left _ ?_
    rw [← List.append_assoc, ← List.append_assoc]
    exact List.perm_append_comm.append_right _
  exact hmove.trans (hdiff.append_left _)

end Cleanup

/-! ### The scan -/

/-- The clean-up finds a VM gone: the cloud does not know it, and Torque does not either. -/
def CleanupAnswers.Gone (answers : CleanupAnswers) (vm : VM) : Prop :=
  answers.report = none ∧ (vm.hostname = "" ∨ answers.wnInTorque = .notLocated)

/-- What a visit of the VM `v` in the state `s` may do to the scratch lists. A VM that is gone is
left as it was. -/
inductive CleanupStep (answers : CleanupAnswers) (v : VmRef) (s : State)
    (scratch : CleanupScratch) :
    CleanupScratch → State → Prop
  | left {s' : State} : CleanupStep answers v s scratch scratch s'
  | gone {s' : State} (h : answers.Gone (s.vms v)) (hvms : s'.vms = s.vms) :
      CleanupStep answers v s scratch { scratch with deleted := scratch.deleted ++ [v] } s'
  | executing {s' : State} :
      CleanupStep answers v s scratch { scratch with executing := scratch.executing ++ [v] } s'

section Scan

variable {cfg : Config} {s : State} {v : VmRef}

theorem ends_vmCheck_none : Ends ((vmCheck cfg v none).exec cfg) s
    (fun state s' ↦ state = .destroyed ∧ s' = s) fun e s' ↦ NotFromRemove e ∧ s' = s := by
  rw [vmCheck, ends_vm, openConnection]
  refine Program.ends_lift_bind (fun res _ ↦ ?_) fun e he ↦ ⟨notFromRemove_of_get he, rfl⟩
  exact ⟨rfl, rfl⟩

/-- The visit of a VM that the cloud does not know: it is gone, or it stays where it is. -/
theorem ends_cleanupVisit_unknown {scope : Scope} {answers : CleanupAnswers}
    {scratch : CleanupScratch} {Q : CleanupScratch → State → Prop} {E : PyError → State → Prop}
    (hreport : answers.report = none)
    (hgone : answers.Gone (s.vms v) → Q { scratch with deleted := scratch.deleted ++ [v] } s)
    (hleft : ∀ s', ¬answers.Gone (s.vms v) → Scanned scope s s' → Q scratch s')
    (hraised : ∀ e s', NotFromRemove e → Scanned scope s s' → E e s') :
    Ends ((cleanupVisit cfg answers v scratch).exec cfg) s Q E := by
  rw [cleanupVisit, hreport, Proc.exec, run_bind, ends_bind]
  refine ends_vmCheck_none.mono ?_ ?_
  rotate_left
  · rintro e _ ⟨he, rfl⟩
    exact hraised e _ he (.refl _)
  rintro _ _ ⟨rfl, rfl⟩
  rw [ends_vm]
  split
  · rename_i hname
    exact hgone ⟨hreport, .inl hname⟩
  · rename_i hname
    cases hnode : answers.wnInTorque with
    | error => exact hleft _ (by simp [CleanupAnswers.Gone, hname, hnode]) (.refl _)
    | notLocated => exact hgone ⟨hreport, .inr hnode⟩
    | record wn =>
      -- Torque still has the node: it is told to forget it, and the VM waits for that
      dsimp only
      rw [cleanUpKnown, if_pos rfl]
      refine ends_scanning_bind (scanning_releaseResForNode v) (fun _ s₁ _ h₁ ↦ ?_) hraised
      refine ends_scanning_bind (scanning_runCommand .removeNode v) (fun _ s₂ _ h₂ ↦ ?_)
        fun e s₂ he h₂ ↦ hraised e s₂ he (h₁.trans h₂)
      exact hleft _ (by simp [CleanupAnswers.Gone, hname, hnode]) (h₁.trans h₂)

/-- **One visit.** -/
theorem ends_cleanupVisit (answers : CleanupAnswers) (scratch : CleanupScratch) :
    Ends ((cleanupVisit cfg answers v scratch).exec cfg) s
      (fun scratch' s' ↦ Scanned ⟨idleDestroy, (· = v)⟩ s s' ∧
        CleanupStep answers v s scratch scratch' s')
      fun e s' ↦ NotFromRemove e ∧ Scanned ⟨idleDestroy, (· = v)⟩ s s' := by
  cases hreport : answers.report with
  | some report =>
    -- the cloud still knows the VM: whatever the visit decides, it is not gone
    have hscan : Scanning ⟨idleDestroy, (· = v)⟩ (cleanupVisit cfg answers v scratch)
        (scratch.Adds answers v) := scanning_cleanupVisit answers rfl (fun h ↦ h) scratch
    refine (ends_of_scanning hscan s).mono ?_ fun _ _ h ↦ h
    rintro scratch' s' ⟨hadds, h⟩
    refine ⟨h, ?_⟩
    rcases hadds with rfl | ⟨hnone, -⟩ | rfl
    · exact .left
    · exact nomatch hreport.symm.trans hnone
    · exact .executing
  | none =>
    exact ends_cleanupVisit_unknown hreport (fun hgone ↦ ⟨.refl s, .gone hgone rfl⟩)
      (fun _ _ h ↦ ⟨h, .left⟩) fun _ _ he h ↦ ⟨he, h⟩

end Scan

/-! ### The operation -/

section CheckCleanup

variable {cfg : Config} {answers : CleanupCalls} {s : State}

/-- The cloud does not know the VM any more, in one of the visits of a clean-up. -/
def ReportedDestroyed (answers : CleanupCalls) (s : State) (v : VmRef) : Prop :=
  ∃ i, s.deleting[i]? = some v ∧ (answers.visit i).report = none

/-- One of the visits of a clean-up finds the VM gone. -/
def FoundGone (answers : CleanupCalls) (s : State) (v : VmRef) : Prop :=
  ∃ i, s.deleting[i]? = some v ∧ (answers.visit i).Gone (s.vms v)

/-- What the scan has decided after the VMs `done`: no VM is put in two places, only those that are
gone count as deleted, and these are as they were. -/
structure CleanupScanned (answers : CleanupCalls) (done : List VmRef) (s : State)
    (scratch : CleanupScratch) (s' : State) : Prop where
  scanned : Scanned .idle s s'
  subperm : (scratch.deleted ++ scratch.executing).Subperm done
  reported : ∀ v ∈ scratch.deleted, ReportedDestroyed answers s v
  gone : s.deleting.Nodup → ∀ v ∈ scratch.deleted, FoundGone answers s v ∧ s'.vms v = s.vms v
  fresh : s.deleting.Nodup → ∀ v, v ∉ done → s'.vms v = s.vms v

/-- **The scan.** It touches the VMs that are being deleted only. -/
theorem ends_cleanupScan : Ends (Proc.exec (forEach
    (fun i v scratch ↦ cleanupVisit cfg (answers.visit i) v scratch) 0 s.deleting ⟨[], []⟩) cfg) s
    (CleanupScanned answers s.deleting s)
    fun e s' ↦ NotFromRemove e ∧ Scanned ⟨idleDestroy, (· ∈ s.deleting)⟩ s s' := by
  have hstart : CleanupScanned answers [] s ⟨[], []⟩ s :=
    ⟨.refl s, .refl _, nofun, nofun, fun _ _ _ ↦ rfl⟩
  refine (ends_forEach (I := fun done scratch s' ↦ CleanupScanned answers done s scratch s' ∧
    Scanned ⟨idleDestroy, (· ∈ s.deleting)⟩ s s') ?_ ⟨hstart, .refl s⟩).mono (fun _ _ h ↦ h.1)
      fun _ _ h ↦ h
  rintro done v rest scratch s₁ hdone ⟨h₁, hnarrow⟩
  have hget : s.deleting[done.length]? = some v := by simp [← hdone]
  have hadd : ([v] ++ (scratch.deleted ++ scratch.executing)).Subperm (done ++ [v]) :=
    ((List.subperm_append_left [v]).2 h₁.subperm).trans List.perm_append_comm.subperm
  have hold : (scratch.deleted ++ scratch.executing).Subperm (done ++ [v]) :=
    h₁.subperm.trans (List.sublist_append_left _ _).subperm
  have hwiden : ∀ {s₂}, Scanned ⟨idleDestroy, (· = v)⟩ s₁ s₂ → Scanned .idle s s₂ := fun h₂ ↦
    h₁.scanned.trans (h₂.mono (fun h ↦ h) fun _ _ ↦ trivial)
  have hnarrow₂ : ∀ {s₂}, Scanned ⟨idleDestroy, (· = v)⟩ s₁ s₂ →
      Scanned ⟨idleDestroy, (· ∈ s.deleting)⟩ s s₂ := fun h₂ ↦
    hnarrow.trans (h₂.mono (fun h ↦ h) fun w hw ↦ hw ▸ List.mem_of_getElem? hget)
  have hfresh : s.deleting.Nodup → v ∉ done := notMem_of_nodup hdone
  refine (ends_cleanupVisit (answers.visit done.length) scratch).mono ?_ fun _ _ h ↦
    ⟨h.1, hnarrow₂ h.2⟩
  rintro scratch' s₂ ⟨h₂, hstep⟩
  refine ⟨?_, hnarrow₂ h₂⟩
  have hothers : s.deleting.Nodup → ∀ w, w ∉ done ++ [v] → s₂.vms w = s.vms w := by
    intro hnodup w hw
    rw [List.mem_append, not_or] at hw
    exact (h₂.untouched w fun h ↦ hw.2 (List.mem_singleton.2 h)).trans (h₁.fresh hnodup w hw.1)
  -- What was found gone before is not the VM of this visit.
  have hgone : s.deleting.Nodup → ∀ w ∈ scratch.deleted,
      FoundGone answers s w ∧ s₂.vms w = s.vms w := by
    intro hnodup w hw
    obtain ⟨hfound, hsame⟩ := h₁.gone hnodup w hw
    have hne : w ≠ v := fun h ↦ hfresh hnodup
      (h ▸ h₁.subperm.subset (List.mem_append_left _ hw))
    exact ⟨hfound, (h₂.untouched w hne).trans hsame⟩
  cases hstep with
  | left => exact ⟨hwiden h₂, hold, h₁.reported, hgone, hothers⟩
  | gone hvisit hvms =>
    refine ⟨hwiden h₂, List.Subperm.trans (List.Perm.subperm ?_) hadd, fun w hw ↦ ?_,
      fun hnodup w hw ↦ ?_, hothers⟩
    · rw [List.append_assoc]
      exact List.perm_append_comm_assoc _ _ _
    · rcases List.mem_append.1 hw with hw | hw
      · exact h₁.reported w hw
      · exact ⟨done.length, List.mem_singleton.1 hw ▸ hget, hvisit.1⟩
    · rcases List.mem_append.1 hw with hw | hw
      · exact hgone hnodup w hw
      · obtain rfl := List.mem_singleton.1 hw
        have hsame : s₁.vms w = s.vms w := h₁.fresh hnodup w (hfresh hnodup)
        rw [hsame] at hvisit
        exact ⟨⟨done.length, hget, hvisit⟩, by rw [hvms, hsame]⟩
  | executing =>
    refine ⟨hwiden h₂, List.Subperm.trans (List.Perm.subperm ?_) hadd, h₁.reported, hgone, hothers⟩
    rw [← List.append_assoc]
    exact List.perm_append_comm

/-- **`check_cleanup`, up to its last part.** It raises in the scan or while it drops VMs; otherwise
it comes to its last part with all of that done. `P` and `P'` are what else is known of the scan. -/
theorem ends_checkCleanup_of_scan {P : CleanupScratch → State → Prop} {P' : PyError → State → Prop}
    {Q : Unit → State → Prop} {E : PyError → State → Prop}
    (hP : Ends (Proc.exec (forEach
      (fun i v scratch ↦ cleanupVisit cfg (answers.visit i) v scratch) 0 s.deleting ⟨[], []⟩) cfg) s
      P P')
    (hnone : s.deleting = [] → Q () s) (hscan : ∀ e s₁, NotFromRemove e → P' e s₁ →
      Scanned ⟨idleDestroy, (· ∈ s.deleting)⟩ s s₁ → E e s₁)
    (hdrop : ∀ e s₁ s₂ done (scratch : CleanupScratch), NotFromRemove e → P scratch s₁ →
      CleanupScanned answers s.deleting s scratch s₁ → done <+: scratch.deleted →
      Dropped cfg done s₁ s₂ → E e s₂)
    (hfinish : ∀ s₁ s₂ s₃ (scratch : CleanupScratch), s.deleting ≠ [] → P scratch s₁ →
      CleanupScanned answers s.deleting s scratch s₁ → Dropped cfg scratch.deleted s₁ s₂ →
      Resumed scratch.executing s₂ s₃ →
      Ends (Proc.exec (do
        Proc.locked .updateAvailableCores
        Program.when (scratch.deleted.length > 0 ∨ scratch.executing.length > 0) Proc.dumpNodes
        launchIfWaiting cfg answers.launch) cfg) s₃ Q E) :
    Ends ((checkCleanup cfg answers).exec cfg) s Q E := by
  rw [checkCleanup, ends_list]
  split
  · rename_i hlength
    exact hnone (List.length_eq_zero_iff.1 hlength)
  · rename_i hlength
    rw [ends_list, Proc.exec, run_bind, ends_bind]
    refine (ends_cleanupScan.and hP).mono (fun scratch s₁ h ↦ ?_) fun e s₁ h ↦
      hscan e s₁ h.1.1 h.2 h.1.2
    obtain ⟨h₁, hp⟩ := h
    have hsub := h₁.subperm
    rw [← h₁.scanned.deleting] at hsub
    have hdeleted : scratch.deleted.Subperm s₁.deleting :=
      (List.sublist_append_left _ _).subperm.trans hsub
    refine ends_locked.2 (ends_bind.2 ((ends_dropDeleted hdeleted).mono (fun _ s₂ h₂ ↦ ?_) ?_))
    · have hexecuting : scratch.executing.Subperm s₂.deleting := h₂.deleting ▸ subperm_diff hsub
      refine (ends_resumeExecuting hexecuting).mono (fun _ s₃ h₃ ↦ ?_) fun _ _ h ↦ h.elim
      have hne : s.deleting ≠ [] := fun h ↦ hlength (congrArg List.length h)
      exact hfinish s₁ s₂ s₃ scratch hne hp h₁ h₂ h₃
    · rintro e s₂ ⟨he, done, hpre, h₂⟩
      exact hdrop e s₁ s₂ done scratch he hp h₁ hpre h₂

/-- The same where nothing else is known of the scan. -/
theorem ends_checkCleanup {Q : Unit → State → Prop} {E : PyError → State → Prop}
    (hnone : Q () s) (hscan : ∀ e s₁, NotFromRemove e →
      Scanned ⟨idleDestroy, (· ∈ s.deleting)⟩ s s₁ → E e s₁)
    (hdrop : ∀ e s₁ s₂ done (scratch : CleanupScratch), NotFromRemove e →
      CleanupScanned answers s.deleting s scratch s₁ → done <+: scratch.deleted →
      Dropped cfg done s₁ s₂ → E e s₂)
    (hfinish : ∀ s₁ s₂ s₃ (scratch : CleanupScratch), s.deleting ≠ [] →
      CleanupScanned answers s.deleting s scratch s₁ → Dropped cfg scratch.deleted s₁ s₂ →
      Resumed scratch.executing s₂ s₃ →
      Ends (Proc.exec (do
        Proc.locked .updateAvailableCores
        Program.when (scratch.deleted.length > 0 ∨ scratch.executing.length > 0) Proc.dumpNodes
        launchIfWaiting cfg answers.launch) cfg) s₃ Q E) :
    Ends ((checkCleanup cfg answers).exec cfg) s Q E :=
  ends_checkCleanup_of_scan ends_cleanupScan (fun _ ↦ hnone) (fun e s₁ he _ ↦ hscan e s₁ he)
    (fun e s₁ s₂ done scratch he _ ↦ hdrop e s₁ s₂ done scratch he)
    fun s₁ s₂ s₃ scratch hne _ ↦ hfinish s₁ s₂ s₃ scratch hne

/-- **Only idle VMs are destroyed**, whether the clean-up returns or raises. -/
theorem ends_checkCleanup_idle : Ends ((checkCleanup cfg answers).exec cfg) s
    (fun _ ↦ Emits (Event.DestroysOnly idleDestroy) s)
    fun _ ↦ Emits (Event.DestroysOnly idleDestroy) s := by
  have hnever : ∀ {s s' : State}, Emits (Event.Allowed fun _ _ _ _ ↦ False) s s' →
      Emits (Event.DestroysOnly idleDestroy) s s' := fun h ↦
    h.mono fun _ he ↦ he.destroysOnly False.elim
  have hidle : ∀ {s s' : State}, Emits (Event.Allowed idleDestroy) s s' →
      Emits (Event.DestroysOnly idleDestroy) s s' := fun h ↦
    h.mono fun _ he ↦ he.destroysOnly id
  have hfinished : ∀ {s s' : State}, Finished s s' →
      Emits (Event.DestroysOnly idleDestroy) s s' := fun h ↦
    h.trace.mono fun _ he ↦ he.mono False.elim
  refine ends_checkCleanup (.refl s) (fun _ s₁ _ h₁ ↦ hidle h₁.trace) ?_ ?_
  · exact fun _ s₁ s₂ done _ _ h₁ _ h₂ ↦ (hidle h₁.scanned.trace).trans (hnever h₂.trace)
  · intro s₁ s₂ s₃ scratch _ h₁ h₂ h₃
    have hdone := ((hidle h₁.scanned.trace).trans (hnever h₂.trace)).trans (hnever h₃.trace)
    refine (finishes_updateAvailableCores fun s ↦
      finishes_launchIfWaiting answers.launch).mono ?_ ?_
    · exact fun _ s' h' ↦ hdone.trans (hfinished h')
    · exact fun _ s' h' ↦ hdone.trans (hfinished h'.2)

end CheckCleanup

end DynamicTorque
