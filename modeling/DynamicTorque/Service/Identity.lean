import DynamicTorque.LifeCycle.SleepMode
import DynamicTorque.Scheduler.Capacity
import DynamicTorque.Service.Ownership

/-!
# The identity of the VMs

Whatever the threads do, a VM object stays the object of one server: its id, its name, its hostname
and its resource never change once it is created, and the table of resources keeps its names. A VM
that the service starts has a resource of the table, and a name that tells it. So every thread
always finds the resource of a VM. The same runs divide the work between the threads as `Divided`
says.
-/

open Python Atomic Program

namespace DynamicTorque

/-- A VM as `vm_start` makes it: of a resource of the table, with a name that tells the resource. -/
def VM.Named (cfg : Config) (names : List String) (vm : VM) : Prop :=
  vm.cloudResourceName ∈ names ∧ vm.hostname = vm.name ∧
    ∃ unique, vm.name = cfg.cloudVmPrefix ++ "-" ++ vm.cloudResourceName ++ "-" ++ unique

/-! ### The blocks -/

/-- The names in the table, the identities of the VM objects and their number are the same. -/
structure SameIdentity (s s' : State) : Prop where
  names : s'.resources.names = s.resources.names
  vm : ∀ v, (s'.vms v).identity = (s.vms v).identity
  nextVm : s'.nextVm = s.nextVm

section Blocks

variable {s s₁ s' : State}

theorem SameIdentity.refl (s : State) : SameIdentity s s := ⟨rfl, fun _ ↦ rfl, rfl⟩

theorem SameIdentity.trans (h : SameIdentity s s₁) (h' : SameIdentity s₁ s') :
    SameIdentity s s' :=
  ⟨h'.names.trans h.names, fun v ↦ (h'.vm v).trans (h.vm v), h'.nextVm.trans h.nextVm⟩

/-- Only the names of the resources and the objects matter. -/
theorem SameIdentity.of_eq (hnames : s'.resources.names = s.resources.names)
    (hvms : s'.vms = s.vms) (hnext : s'.nextVm = s.nextVm) : SameIdentity s s' :=
  ⟨hnames, fun v ↦ by rw [hvms], hnext⟩

/-- An assignment that keeps the identity of the object. -/
theorem SameIdentity.setVm (s : State) {v : VmRef} {f : VM → VM}
    (hf : ∀ vm, (f vm).identity = vm.identity) : SameIdentity s (s.setVm v f) where
  names := rfl
  nextVm := rfl
  vm := fun w ↦ by
    by_cases hw : w = v
    · subst hw
      simpa [State.setVm] using hf (s.vms w)
    · simp [State.setVm, hw]

/-- The frame. -/
def identityFrame : Frame State := ⟨SameIdentity, .refl, fun _ _ _ ↦ .trans⟩

/-- Every primitive of the blocks keeps the identities. -/
theorem primitives_identity : Primitives identityFrame where
  setList := fun s xs L ↦ by cases L <;> exact SameIdentity.of_eq rfl rfl rfl
  dynamic := fun s v ↦ .setVm s fun _ ↦ rfl
  command := fun _ _ _ ↦ .of_eq rfl rfl rfl
  rule := fun _ _ _ ↦ .of_eq rfl rfl rfl
  static := fun _ _ _ ↦ .of_eq rfl rfl rfl
  cores := fun _ ↦ .of_eq rfl rfl rfl
  waiting := fun _ _ ↦ .of_eq rfl rfl rfl
  waitFor := fun _ _ ↦ .of_eq rfl rfl rfl
  provisioning := fun _ _ ↦ .of_eq rfl rfl rfl

end Blocks

/-! ### The steps -/

/-- From `s` to `s'` the table keeps its names and the VMs their identities, and the VMs that are
new are named. -/
structure KeptIdentity (cfg : Config) (s s' : State) : Prop where
  names : s'.resources.names = s.resources.names
  nextVm : s.nextVm ≤ s'.nextVm
  vm : ∀ v, v < s.nextVm → (s'.vms v).identity = (s.vms v).identity
  new : ∀ v, s.nextVm ≤ v → v < s'.nextVm → (s'.vms v).Named cfg s.resources.names

section Steps

variable {cfg : Config} {s s₁ s' : State}

/-- Without new objects. -/
theorem SameIdentity.kept (h : SameIdentity s s') : KeptIdentity cfg s s' :=
  ⟨h.names, h.nextVm.ge, fun v _ ↦ h.vm v, fun _ hv hv' ↦ absurd (h.nextVm ▸ hv') hv.not_gt⟩

/-- A VM with the identity of one that is named is named. -/
theorem VM.Named.of_identity {names : List String} {vm vm' : VM} (h : vm.Named cfg names)
    (hsame : vm'.identity = vm.identity) : vm'.Named cfg names := by
  obtain ⟨-, hname, hhostname, hresource⟩ :
      vm'.id = vm.id ∧ vm'.name = vm.name ∧ vm'.hostname = vm.hostname ∧
        vm'.cloudResourceName = vm.cloudResourceName := by
    simpa only [VM.identity, Prod.mk.injEq] using hsame
  rw [VM.Named, hname, hhostname, hresource]
  exact h

theorem KeptIdentity.trans (h : KeptIdentity cfg s s₁) (h' : KeptIdentity cfg s₁ s') :
    KeptIdentity cfg s s' where
  names := h'.names.trans h.names
  nextVm := h.nextVm.trans h'.nextVm
  vm := fun v hv ↦ (h'.vm v (hv.trans_le h.nextVm)).trans (h.vm v hv)
  new := fun v hv hv' ↦ by
    by_cases hnew : v < s₁.nextVm
    · exact (h.new v hv hnew).of_identity (h'.vm v hnew)
    · exact h.names ▸ h'.new v (Nat.le_of_not_lt hnew) hv'

/-- A new object that is named. -/
theorem keptIdentity_allocate {vm : VM} (h : vm.Named cfg s.resources.names) :
    KeptIdentity cfg s (s.allocate [vm]) where
  names := rfl
  nextVm := Nat.le_add_right ..
  vm := fun v hv ↦ by simp [State.allocate, hv.not_ge]
  new := fun v hv hv' ↦ by
    obtain rfl : v = s.nextVm := Nat.le_antisymm (Nat.lt_succ_iff.1 hv') hv
    simpa [State.allocate] using h

/-- The scheduler leaves the table its entries. -/
theorem names_calculateNewInstances {draws : JobScheduler.Draws} {jobs : List Job}
    {numberOfWn : ℤ} {crs crs' : CloudResources} {requests : List ProvisionVM}
    (h : JobScheduler.calculateNewInstances cfg draws jobs numberOfWn crs = .ok (requests, crs')) :
    crs'.names = crs.names := by
  obtain ⟨reqList, hrun, -⟩ := JobScheduler.exists_scheduleJobs_of_calculateNewInstances h
  exact (JobScheduler.fitsBudget_of_scheduleJobs hrun).1.names

/-- **A step that keeps the identities.** -/
theorem ends_exec_keeping {A : Act → Prop} {o : Act} (h : o.Keeping A) (s : State) :
    Ends (exec cfg o) s (fun _ ↦ SameIdentity s) fun _ ↦ SameIdentity s := by
  cases o with
  | locked b => exact primitives_identity.stays_code b s
  | setVm v f => exact SameIdentity.setVm s h
  | calculate draws idleJobs numberOfWn =>
    show Ends (get >>= _) s _ _
    rw [ends_bind, ends_get, ends_bind]
    refine ends_lift (fun r hr ↦ ?_) fun _ _ ↦ .refl s
    exact SameIdentity.of_eq (names_calculateNewInstances hr) rfl rfl
  | newVm vm => exact h.elim
  | setExisting vms => exact h.elim
  | list _ | findVm _ | vm _ | waiting => exact SameIdentity.refl s
  | cluster | provisioning | sleepMode | resources => exact SameIdentity.refl s
  | _ => exact SameIdentity.of_eq rfl rfl rfl

end Steps

/-! ### The discipline -/

/-- The steps in `A`. They keep the identities, and the VMs that they create are named after a
resource of the table, whose names the thread is told. -/
def identityDiscipline (cfg : Config) (names : List String) (A : Act → Prop) :
    Discipline Act Act.Reply PyError Unit where
  allows := fun _ o ↦ o.Keeping A ∨ ∃ vm : VM, o = .newVm vm ∧ A o ∧ vm.Named cfg names
  replies := fun o ↦
    match o with
    | .resources => fun crs ↦ CloudResources.names crs = names
    | _ => fun _ ↦ True
  raises := fun _ _ ↦ True
  after := fun _ _ _ ↦ ()

/-- What the discipline relies on. -/
structure Tabled (names : List String) (C : String → Prop) (s : State) : Prop where
  names : s.resources.names = names
  resource : ∀ v, C (s.vms v).cloudResourceName

section Sound

variable {cfg : Config} {names : List String} {C : String → Prop} {s s' : State}

/-- The resource is part of the identity. -/
theorem resource_eq_of_identity {vm vm' : VM} (h : vm'.identity = vm.identity) :
    vm'.cloudResourceName = vm.cloudResourceName := by
  simp only [VM.identity, Prod.mk.injEq] at h
  exact h.2.2.2

/-- What keeps the identities keeps the resources of the VMs in the table. -/
theorem Tabled.sameIdentity (h : Tabled names C s) (hsame : SameIdentity s s') :
    Tabled names C s' :=
  ⟨hsame.names.trans h.names, fun v ↦ resource_eq_of_identity (hsame.vm v) ▸ h.resource v⟩

/-- What a step that keeps the identities replies. -/
theorem ends_exec_replies {A : Act → Prop} {o : Act} (h : o.Keeping A)
    (htabled : Tabled names C s) :
    Ends (exec cfg o) s (fun r _ ↦ (identityDiscipline cfg names A).replies o r)
      fun _ _ ↦ True := by
  cases o with
  | resources => exact htabled.names
  | locked b => exact ends_self.mono (fun _ _ _ ↦ trivial) fun _ _ _ ↦ trivial
  | calculate draws idleJobs numberOfWn =>
    exact ends_self.mono (fun _ _ _ ↦ trivial) fun _ _ _ ↦ trivial
  | newVm vm => exact h.elim
  | setExisting vms => exact h.elim
  | _ => trivial

/-- A step that the discipline allows. -/
theorem ends_exec_identity {cfg : Config} {A : Act → Prop} {o : Act} (hC : ∀ r ∈ names, C r)
    (htabled : Tabled names C s) (hallows : (identityDiscipline cfg names A).allows () o) :
    Ends (exec cfg o) s
      (fun r s' ↦ Tabled names C s' ∧ KeptIdentity cfg s s' ∧
        (identityDiscipline cfg names A).replies o r)
      fun _ s' ↦ Tabled names C s' ∧ KeptIdentity cfg s s' := by
  rcases hallows with hkeeping | ⟨vm, rfl, -, hnamed⟩
  · refine ((ends_exec_keeping hkeeping s).and (ends_exec_replies hkeeping htabled)).mono
      (fun r s' h ↦ ?_) fun e s' h ↦ ?_
    · exact ⟨htabled.sameIdentity h.1, h.1.kept, h.2⟩
    · exact ⟨htabled.sameIdentity h.1, h.1.kept⟩
  · refine ⟨⟨htabled.names, fun v ↦ ?_⟩, keptIdentity_allocate (htabled.names ▸ hnamed), trivial⟩
    by_cases hv : v = s.nextVm
    · subst hv
      simpa [State.allocate] using hC _ hnamed.1
    · have hsame : (s.allocate [vm]).vms v = s.vms v := by
        by_cases hle : s.nextVm ≤ v
        · have hne : v - s.nextVm ≠ 0 := Nat.sub_ne_zero_of_lt (lt_of_le_of_ne hle (Ne.symm hv))
          simp [State.allocate, hle, List.getElem?_singleton, hne]
        · simp [State.allocate, hle]
      rw [hsame]
      exact htabled.resource v

/-- A step that makes no VM is one of its thread. -/
theorem Act.Keeping.owned {i : ThreadId} {o : Act} (h : o.Keeping (Act.Owned i)) : o.Owned i := by
  cases o with
  | setVm v f => rcases i with _ | ⟨_ | _⟩ | _ <;> trivial
  | newVm vm => exact h.elim
  | setExisting vms => exact h.elim
  | _ => exact h

variable (names) in
/-- **The rule.** -/
theorem Service.sound_identity (cfg : ServiceConfig)
    (hC : ∀ r ∈ names, C r) : Service.Sound cfg
      (fun i ↦ identityDiscipline cfg.toConfig names (Act.Owned i)) (Tabled names C)
      (fun _ _ _ ↦ True) fun i s s' ↦ KeptIdentity cfg.toConfig s s' ∧ Divided (· = i) s s' := by
  refine ⟨fun i _ o s htabled _ hallows ↦ ?_, fun _ _ _ _ _ _ _ _ ↦ trivial⟩
  have howned : o.Owned i := by
    rcases hallows with hkeeping | ⟨vm, rfl, howned, -⟩
    · exact hkeeping.owned
    · exact howned
  refine ((ends_exec_identity hC htabled hallows).and (divided_of_owned howned)).mono ?_ ?_
  · exact fun _ _ ⟨⟨h, hkept, hreplies⟩, hdivided⟩ ↦ ⟨⟨h, trivial⟩, ⟨hkept, hdivided⟩, hreplies⟩
  · exact fun _ _ ⟨⟨h, hkept⟩, hdivided⟩ ↦ ⟨⟨h, trivial⟩, ⟨hkept, hdivided⟩, trivial⟩

end Sound

/-! ### Launching -/

section Launching

variable {α β : Type} {cfg : Config} {names : List String} {C : String → Prop}

/-- A program that makes no VM obeys. -/
theorem Keeping.obeys {A : Act → Prop} {p : Proc α} (h : Keeping A p) :
    p.Obeys (identityDiscipline cfg names A) (fun _ _ ↦ True) (fun _ _ ↦ True) () :=
  Within.obeys_of_forall (D := identityDiscipline cfg names A) h (fun _ _ ho ↦ Or.inl ho) ()

/-- A program that keeps to the discipline with the steps of the CloudPoller, which are those of
start-up, too. -/
abbrev ObeysIdentity (cfg : Config) (names : List String) {α : Type}
    (p : Proc α) : Prop :=
  p.Obeys (identityDiscipline cfg names Act.OfCloudPoller) (fun _ _ ↦ True) (fun _ _ ↦ True) ()

/-- What makes no VM, before what obeys. -/
theorem obeysIdentity_bind {p : Proc α} {f : α → Proc β} (h : Keeping Act.OfCloudPoller p)
    (hf : ∀ a, ObeysIdentity cfg names (f a)) : ObeysIdentity cfg names (p >>= f) :=
  h.obeys.bind fun a _ _ ↦ hf a

/-- **`vm_start`** looks the resource up before it names a VM after it. -/
theorem obeysIdentity_vmStart (flavor : FlavorRef) (zone : Option String) (resource : String)
    (answer : Option StartedServer) :
    ObeysIdentity cfg names (vmStart cfg flavor zone resource answer) := by
  refine .step (.inl trivial) (fun _ _ ↦ trivial) fun (crs : CloudResources) hcrs ↦ ?_
  refine Obeys.bind (Φ := fun _ _ ↦ resource ∈ names)
    (obeys_lift (fun res hget ↦ ?_) fun _ _ ↦ trivial) fun res _ hmem ↦ ?_
  · have hnames : crs.names = names := hcrs
    rw [CloudResources.get] at hget
    split at hget
    · rwa [← hnames]
    · cases hget
  · refine .step (.inl trivial) (fun _ _ ↦ trivial) fun _ _ ↦ ?_
    cases answer with
    | none => trivial
    | some server =>
      exact .step (.inr ⟨_, rfl, trivial, hmem, rfl, server.unique, rfl⟩) (fun _ _ ↦ trivial)
        fun _ _ ↦ trivial

/-- **`launch_instances`.** -/
theorem obeysIdentity_launchInstances (answers : ℕ → Option StartedServer) :
    ObeysIdentity cfg names (launchInstances cfg answers) := by
  have hvisit : ∀ answer entry loop,
      ObeysIdentity cfg names (launchVisit cfg answer entry loop) := by
    intro answer entry loop
    rw [launchVisit]
    split
    · trivial
    · split
      · trivial
      · refine (obeysIdentity_vmStart _ _ _ answer).bind fun started _ _ ↦ ?_
        cases started with
        | none => trivial
        | some v => exact .step (.inl trivial) (fun _ _ ↦ trivial) fun _ _ ↦ trivial
  refine obeysIdentity_bind (keeping_step trivial) fun (waiting₀ : List WaitingRequest) ↦ ?_
  split
  · refine obeysIdentity_bind (keeping_step trivial) fun (starting₀ : List VmRef) ↦ ?_
    split
    · refine obeysIdentity_bind (keeping_step trivial) fun _ ↦
        obeysIdentity_bind (keeping_step trivial) fun starting ↦
          obeysIdentity_bind (keeping_step trivial) fun waiting ↦ ?_
      refine Obeys.bind (Φ := fun _ _ ↦ True) (obeys_forEach (I := fun _ _ _ ↦ True)
        (fun _ entry _ loop _ _ _ ↦ hvisit _ entry loop) trivial) fun loop _ _ ↦ ?_
      have hend : Keeping Act.OfCloudPoller (Proc.locked (.endLaunch loop.toRemove)) :=
        keeping_step trivial
      exact hend.obeys
    · trivial
  · trivial

/-- **`update_provision_status`.** -/
theorem obeysIdentity_updateProvisionStatus (answers : UpdateAnswers) :
    ObeysIdentity cfg names (updateProvisionStatus cfg answers) := by
  refine obeysIdentity_bind (keeping_step trivial) fun starting ↦ ?_
  refine obeysIdentity_bind (within_forEach_of_forall (fun i v _ scratch ↦
    keeping_provisionVisit (answers.visit i) scratch) _) fun scratch ↦ ?_
  refine obeysIdentity_bind (keeping_step trivial) fun _ ↦ ?_
  refine obeysIdentity_bind (within_forEach_of_forall (fun i vr _ _ ↦
    keeping_giveUp (answers.destroy i) vr.2) ()) fun _ ↦ ?_
  refine obeysIdentity_bind (keeping_step trivial) fun _ ↦ ?_
  refine obeysIdentity_bind (keeping_of_scanning scanning_dumpNodes) fun _ ↦ ?_
  rw [finishProvisioning]
  refine obeysIdentity_bind (keeping_step trivial) fun (starting : List VmRef) ↦ ?_
  split
  · refine obeysIdentity_bind (keeping_step trivial) fun (waiting : List WaitingRequest) ↦ ?_
    split
    · have hset : Keeping Act.OfCloudPoller (Proc.locked (.setProvisioning false)) :=
        keeping_step trivial
      exact hset.obeys
    · exact obeysIdentity_launchInstances answers.launch
  · exact obeysIdentity_launchInstances answers.launch

/-- **`check_cleanup`.** -/
theorem obeysIdentity_checkCleanup (answers : CleanupCalls) :
    ObeysIdentity cfg names (checkCleanup cfg answers) := by
  refine obeysIdentity_bind (keeping_step trivial) fun (deleting₀ : List VmRef) ↦ ?_
  split
  · trivial
  · refine obeysIdentity_bind (keeping_step trivial) fun deleting ↦ ?_
    refine obeysIdentity_bind (within_forEach_of_forall (fun i v _ scratch ↦
      keeping_cleanupVisit (answers.visit i) scratch) _) fun scratch ↦ ?_
    refine obeysIdentity_bind (keeping_step trivial) fun _ ↦ ?_
    refine obeysIdentity_bind (keeping_step trivial) fun _ ↦ ?_
    refine obeysIdentity_bind (keeping_of_scanning scanning_dumpNodes) fun _ ↦ ?_
    rw [launchIfWaiting]
    refine obeysIdentity_bind (keeping_step trivial) fun (waiting : List WaitingRequest) ↦ ?_
    split
    · refine obeysIdentity_bind (keeping_step trivial) fun (provisioning : Bool) ↦ ?_
      split
      · exact obeysIdentity_launchInstances answers.launch
      · trivial
    · trivial

/-- **A round of the CloudPoller.** -/
theorem obeysIdentity_cloudPoll (answers : CloudAnswers) :
    ObeysIdentity cfg names (cloudPoll cfg answers) := by
  refine obeysIdentity_bind (keeping_step trivial) fun (provisioning : Bool) ↦ ?_
  refine Obeys.bind (Φ := fun _ _ ↦ True) (obeys_when (fun _ ↦ ?_) fun _ ↦ trivial)
    fun _ _ _ ↦ obeysIdentity_checkCleanup answers.cleanup
  exact obeysIdentity_updateProvisionStatus answers.update

end Launching

/-! ### Runs -/

namespace Service

variable {cfg : ServiceConfig} {answers : ServiceAnswers} {names : List String}
  {C : String → Prop} {s : Service}

/-- **Every task keeps to the discipline.** -/
theorem obeyed_identity (cfg : ServiceConfig) (answers : ServiceAnswers) (names : List String) :
    Obeyed cfg answers (fun i ↦ identityDiscipline cfg.toConfig names (Act.Owned i)) ()
      fun _ _ ↦ True := by
  intro c
  cases c with
  | forceoff => exact (keeping_forceoff answers.forceoff).obeys
  | poll p n =>
    cases p with
    | job => exact (keeping_collectClusterInformation _).obeys
    | cloud => exact obeysIdentity_cloudPoll _
  | afterLoop p =>
    cases p with
    | job =>
      have hdump : Keeping Act.OfJobPoller Proc.dumpNodes := keeping_step trivial
      exact hdump.obeys
    | cloud => trivial
  | request request =>
    have hrequest : Keeping Act.OfRequest (discard (request.program cfg.toConfig)) :=
      (keeping_request request).bind fun _ _ ↦ trivial
    exact hrequest.obeys

/-- The service keeps to the discipline. -/
abbrev IdentityKept (cfg : ServiceConfig) (names : List String) (C : String → Prop) :
    Service → Prop :=
  Disciplined (fun i ↦ identityDiscipline cfg.toConfig names (Act.Owned i)) (fun _ _ ↦ True)
    (Tabled names C) fun _ _ _ ↦ True

theorem keepsAll_refl {cfg : Config} (i : ThreadId) (s : State) :
    KeptIdentity cfg s s ∧ Divided (· = i) s s :=
  ⟨(SameIdentity.refl s).kept, .refl _ s⟩

/-- What happens between two times of a run. -/
theorem kept_and_divided (cfg : ServiceConfig) (answers : ServiceAnswers) (st : State)
    (before more : List Turn) :
    KeptIdentity cfg.toConfig (run cfg answers before (initial st)).shared
        (run cfg answers (before ++ more) (initial st)).shared ∧
      Divided (fun i ↦ ∃ t ∈ more, t.thread = i) (run cfg answers before (initial st)).shared
        (run cfg answers (before ++ more) (initial st)).shared := by
  have hsound := sound_identity (C := fun _ ↦ True) st.resources.names cfg fun _ _ ↦ trivial
  have hobeyed := obeyed_identity cfg answers st.resources.names
  have hstart : IdentityKept cfg st.resources.names (fun _ ↦ True) (initial st) :=
    disciplined_initial ⟨rfl, fun _ ↦ trivial⟩
  -- from the first time on, what is kept is kept
  obtain ⟨hbefore, -⟩ := hstart.run (J := fun _ ↦ True) hsound hobeyed (fun _ _ _ ↦ trivial)
    keepsAll_refl before (fun _ _ _ _ _ _ ↦ trivial) trivial
  generalize hs : (run cfg answers before (initial st)).shared = s₀
  have hmore := hbefore.run (J := fun s ↦ KeptIdentity cfg.toConfig s₀ s ∧
    Divided (fun i ↦ ∃ t ∈ more, t.thread = i) s₀ s) hsound hobeyed (fun _ _ _ ↦ trivial)
    keepsAll_refl more (fun t ht s s'' h h' ↦ ⟨h'.1.trans h.1, h'.2.trans (h.2.mono ?_)⟩) ?_
  · rw [run_append]
    exact hmore.2
  · exact fun i hi ↦ ⟨t, ht, hi.symm⟩
  · rw [hs]
    exact ⟨(SameIdentity.refl s₀).kept, .refl _ s₀⟩

/-- **Every VM stays the same.** Between any two times of a run of the service the table of
resources keeps its names, every VM object keeps its id, name, hostname and resource, and the VM
objects that are new are named after a resource of the table. -/
theorem vm_identity_of_run (cfg : ServiceConfig) (answers : ServiceAnswers) (st : State)
    (before more : List Turn) :
    KeptIdentity cfg.toConfig (run cfg answers before (initial st)).shared
      (run cfg answers (before ++ more) (initial st)).shared :=
  (kept_and_divided cfg answers st before more).1

/-- **The division of labour.** Whatever happens between two times of a run of the service, the
state differs only in what the threads that had turns may change. -/
theorem division_of_labour (cfg : ServiceConfig) (answers : ServiceAnswers) (st : State)
    (before more : List Turn) :
    Divided (fun i ↦ ∃ t ∈ more, t.thread = i) (run cfg answers before (initial st)).shared
      (run cfg answers (before ++ more) (initial st)).shared :=
  (kept_and_divided cfg answers st before more).2

section StartUp

variable {α : Type} {cfg : Config} {crs : CloudResources} {answers : StartUpAnswers} {st : State}
  {resource : String}

end StartUp

end Service

end DynamicTorque
