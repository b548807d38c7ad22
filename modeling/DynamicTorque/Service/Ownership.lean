import DynamicTorque.LifeCycle.Blocks
import DynamicTorque.LifeCycle.Footprints
import DynamicTorque.Service.Disciplines

/-!
# Which thread does what

The attributes of the resource center are shared by all threads, but most of them are changed by one
thread only. `Act.Owned` lists the steps of each thread, and `Divided` says what follows for the
shared state while only some of the threads have turns: nobody but the CloudPoller creates VMs,
lets a VM exist, takes a VM out of the deleting list or a request out of the waiting list, and
nobody but the pollers changes what is known of the cluster or the table of resources.
-/

open Python Atomic Program

namespace DynamicTorque

/-- What a VM is known by: its id and name in the cloud, its hostname in Torque, its resource. -/
def VM.identity (vm : VM) : String × String × String × String :=
  (vm.id, vm.name, vm.hostname, vm.cloudResourceName)

/-! ### The steps of each thread -/

/-- An event other than a start, an addition to Torque, or a dump. -/
def Event.Common : Event → Prop
  | .vmStart _ _ _ | .dumpNodes _ => False
  | .command (.addNode _) _ => False
  | _ => True

/-- What every thread does. -/
def Act.Common : Act → Prop
  | .list _ | .findVm _ | .vm _ | .waiting | .cluster | .provisioning | .sleepMode => True
  | .resources | .setVm _ _ => True
  | .emit e => e.Common
  | _ => False

/-- What `forceoff` does, which is all that the main thread does. -/
def Act.OfForceoff : Act → Prop
  | .locked (.drain _) => True
  | o => o.Common

/-- What the InfoServer does. -/
def Act.OfRequest : Act → Prop
  | .locked (.existingToDeleting _) | .toggleSleepMode => True
  | o => o.OfForceoff

/-- What the JobPoller does. -/
def Act.OfJobPoller : Act → Prop
  | .setCluster _ | .dumpNodes | .setProvisioning _ | .calculate _ _ _ => True
  | .locked (.existingToDeleting _) | .locked (.dropExisting _) => True
  | .locked (.queueRequests _) | .locked .updateAvailableCores => True
  | o => o.Common

/-- What the CloudPoller does: anything but toggle the sleep mode. -/
def Act.OfCloudPoller : Act → Prop
  | .toggleSleepMode => False
  | _ => True

/-- The steps of a thread. -/
def Act.Owned : ThreadId → Act → Prop
  | .main => Act.OfForceoff
  | .server => Act.OfRequest
  | .poller .job => Act.OfJobPoller
  | .poller .cloud => Act.OfCloudPoller

/-- The steps in `A` that create no VM and keep the identity of every VM. -/
def Act.Keeping (A : Act → Prop) : Act → Prop
  | .setVm _ f => ∀ vm, (f vm).identity = vm.identity
  | .newVm _ | .setExisting _ => False
  | o => A o

/-! ### The state while only some threads have turns -/

/-- From `s` to `s'` only threads in `D` have had turns. -/
structure Divided (D : ThreadId → Prop) (s s' : State) : Prop where
  sleepMode : ¬D .server → s'.sleepMode = s.sleepMode
  cluster : (∀ p, ¬D (.poller p)) → s'.cluster = s.cluster
  provisioning : (∀ p, ¬D (.poller p)) → s'.provisioning = s.provisioning
  resources : (∀ p, ¬D (.poller p)) → s'.resources = s.resources
  nextVm : ¬D (.poller .cloud) → s'.nextVm = s.nextVm
  existing : ¬D (.poller .cloud) → s'.existing.Sublist s.existing
  starting : ¬D (.poller .cloud) →
    s'.starting = s.starting ∨ (D .main ∨ D .server) ∧ s'.starting = []
  deleting : ¬D (.poller .cloud) → s.deleting <+: s'.deleting
  waiting : ¬D (.poller .cloud) →
    s.waiting <+: s'.waiting ∧ (¬D (.poller .job) → s'.waiting = s.waiting)
  trace : Emits (fun e ↦ (¬D (.poller .cloud) → e.Common ∨ ∃ ns, e = .dumpNodes ns) ∧
    ((∀ p, ¬D (.poller p)) → e.Common)) s s'

namespace Divided

variable {D D' : ThreadId → Prop} {s s₁ s' : State}

/-- Where only the lists may differ. -/
theorem of_lists (hsleep : s'.sleepMode = s.sleepMode) (hcluster : s'.cluster = s.cluster)
    (hprovisioning : s'.provisioning = s.provisioning) (hresources : s'.resources = s.resources)
    (hnext : s'.nextVm = s.nextVm) (hexisting : s'.existing.Sublist s.existing)
    (hstarting : s'.starting = s.starting ∨ (D .main ∨ D .server) ∧ s'.starting = [])
    (hdeleting : s.deleting <+: s'.deleting) (hwaiting : s'.waiting = s.waiting)
    (htrace : s'.trace = s.trace) : Divided D s s' where
  sleepMode := fun _ ↦ hsleep
  cluster := fun _ ↦ hcluster
  provisioning := fun _ ↦ hprovisioning
  resources := fun _ ↦ hresources
  nextVm := fun _ ↦ hnext
  existing := fun _ ↦ hexisting
  starting := fun _ ↦ hstarting
  deleting := fun _ ↦ hdeleting
  waiting := fun _ ↦ ⟨hwaiting ▸ List.prefix_rfl, fun _ ↦ hwaiting⟩
  trace := .of_eq htrace

/-- Nothing has changed. -/
theorem refl (D : ThreadId → Prop) (s : State) : Divided D s s :=
  of_lists rfl rfl rfl rfl rfl (.refl _) (.inl rfl) List.prefix_rfl rfl rfl

/-- More threads may have had turns. -/
theorem mono (h : Divided D s s') (hD : ∀ i, D i → D' i) : Divided D' s s' where
  sleepMode := fun hn ↦ h.sleepMode fun hd ↦ hn (hD _ hd)
  cluster := fun hn ↦ h.cluster fun p hd ↦ hn p (hD _ hd)
  provisioning := fun hn ↦ h.provisioning fun p hd ↦ hn p (hD _ hd)
  resources := fun hn ↦ h.resources fun p hd ↦ hn p (hD _ hd)
  nextVm := fun hn ↦ h.nextVm fun hd ↦ hn (hD _ hd)
  existing := fun hn ↦ h.existing fun hd ↦ hn (hD _ hd)
  starting := fun hn ↦ (h.starting fun hd ↦ hn (hD _ hd)).imp_right fun h ↦
    ⟨h.1.imp (hD _) (hD _), h.2⟩
  deleting := fun hn ↦ h.deleting fun hd ↦ hn (hD _ hd)
  waiting := fun hn ↦ (h.waiting fun hd ↦ hn (hD _ hd)).imp_right fun h hj ↦
    h fun hd ↦ hj (hD _ hd)
  trace := h.trace.mono fun _ he ↦
    ⟨fun hn ↦ he.1 fun hd ↦ hn (hD _ hd), fun hn ↦ he.2 fun p hd ↦ hn p (hD _ hd)⟩

/-- One change after another. -/
theorem trans (h : Divided D s s₁) (h' : Divided D s₁ s') : Divided D s s' where
  sleepMode := fun hn ↦ (h'.sleepMode hn).trans (h.sleepMode hn)
  cluster := fun hn ↦ (h'.cluster hn).trans (h.cluster hn)
  provisioning := fun hn ↦ (h'.provisioning hn).trans (h.provisioning hn)
  resources := fun hn ↦ (h'.resources hn).trans (h.resources hn)
  nextVm := fun hn ↦ (h'.nextVm hn).trans (h.nextVm hn)
  existing := fun hn ↦ (h'.existing hn).trans (h.existing hn)
  starting := fun hn ↦ by
    rcases h'.starting hn with hsame | hempty
    · rw [hsame]
      exact h.starting hn
    · exact .inr hempty
  deleting := fun hn ↦ (h.deleting hn).trans (h'.deleting hn)
  waiting := fun hn ↦ ⟨(h.waiting hn).1.trans (h'.waiting hn).1,
    fun hj ↦ ((h'.waiting hn).2 hj).trans ((h.waiting hn).2 hj)⟩
  trace := h.trace.trans h'.trace

/-- An event that any thread may add. -/
theorem emit (s : State) {e : Event} (he : e.Common) : Divided D s (s.emit e) where
  sleepMode := fun _ ↦ rfl
  cluster := fun _ ↦ rfl
  provisioning := fun _ ↦ rfl
  resources := fun _ ↦ rfl
  nextVm := fun _ ↦ rfl
  existing := fun _ ↦ .refl _
  starting := fun _ ↦ .inl rfl
  deleting := fun _ ↦ List.prefix_rfl
  waiting := fun _ ↦ ⟨List.prefix_rfl, fun _ ↦ rfl⟩
  trace := .emit s ⟨fun _ ↦ .inl he, fun _ ↦ he⟩

/-- Where the CloudPoller has had a turn, little is left to show. -/
theorem of_cloud (hD : D (.poller .cloud)) (hsleep : s'.sleepMode = s.sleepMode)
    (htrace : Emits (fun _ ↦ True) s s') : Divided D s s' where
  sleepMode := fun _ ↦ hsleep
  cluster := fun hn ↦ absurd hD (hn _)
  provisioning := fun hn ↦ absurd hD (hn _)
  resources := fun hn ↦ absurd hD (hn _)
  nextVm := fun hn ↦ absurd hD hn
  existing := fun hn ↦ absurd hD hn
  starting := fun hn ↦ absurd hD hn
  deleting := fun hn ↦ absurd hD hn
  waiting := fun hn ↦ absurd hD hn
  trace := htrace.mono fun _ _ ↦ ⟨fun hn ↦ absurd hD hn, fun hn ↦ absurd hD (hn _)⟩

/-- Where a poller has had a turn and no list differs. -/
theorem of_poller {p : Poller} (hD : D (.poller p)) (hsleep : s'.sleepMode = s.sleepMode)
    (hnext : s'.nextVm = s.nextVm) (hexisting : s'.existing = s.existing)
    (hstarting : s'.starting = s.starting) (hdeleting : s'.deleting = s.deleting)
    (hwaiting : s.waiting <+: s'.waiting)
    (hwaiting' : ¬D (.poller .job) → s'.waiting = s.waiting)
    (htrace : Emits (fun e ↦ e.Common ∨ ∃ ns, e = .dumpNodes ns) s s') : Divided D s s' where
  sleepMode := fun _ ↦ hsleep
  cluster := fun hn ↦ absurd hD (hn _)
  provisioning := fun hn ↦ absurd hD (hn _)
  resources := fun hn ↦ absurd hD (hn _)
  nextVm := fun _ ↦ hnext
  existing := fun _ ↦ hexisting ▸ .refl _
  starting := fun _ ↦ .inl hstarting
  deleting := fun _ ↦ hdeleting ▸ List.prefix_rfl
  waiting := fun _ ↦ ⟨hwaiting, hwaiting'⟩
  trace := htrace.mono fun _ he ↦ ⟨fun _ ↦ he, fun hn ↦ absurd hD (hn _)⟩

end Divided

/-! #### The steps -/

section Steps

open Locked

variable {D : ThreadId → Prop} {cfg : Config} {s : State}

/-- The removal from the list of existing VMs. -/
theorem divided_removeFrom_existing (v : VmRef) :
    Ends (removeFrom .existing v) s (fun _ ↦ Divided D s) fun _ ↦ Divided D s := by
  rw [removeFrom, ends_bind, ends_get, ends_bind]
  refine ends_lift (fun xs hxs ↦ ?_) fun _ _ ↦ .refl D s
  rw [remove] at hxs
  split at hxs
  · obtain rfl := Except.ok.inj hxs
    exact .of_lists rfl rfl rfl rfl rfl List.erase_sublist (.inl rfl) List.prefix_rfl rfl rfl
  · cases hxs

variable (cfg) in
/-- The block that the InfoServer and the JobPoller share. -/
theorem divided_existingToDeleting (v : VmRef) :
    Ends ((Block.existingToDeleting v).code cfg) s (fun _ ↦ Divided D s)
      fun _ ↦ Divided D s := by
  rw [Block.code, ends_bind, ends_append]
  have happend : Divided D s (s.setList (s.list .deleting ++ [v]) .deleting) :=
    .of_lists rfl rfl rfl rfl rfl (.refl _) (.inl rfl) (List.prefix_append ..) rfl rfl
  exact (divided_removeFrom_existing v).mono (fun _ _ h ↦ happend.trans h)
    fun _ _ h ↦ happend.trans h

/-- **The steps that every thread takes.** -/
theorem divided_common {o : Act} (h : o.Common) :
    Ends (exec cfg o) s (fun _ ↦ Divided D s) fun _ ↦ Divided D s := by
  cases o with
  | emit e => exact .emit s h
  | setVm v f => exact .of_lists rfl rfl rfl rfl rfl (.refl _) (.inl rfl) List.prefix_rfl rfl rfl
  | list _ | findVm _ | vm _ | waiting => exact Divided.refl D s
  | cluster | provisioning | sleepMode | resources => exact Divided.refl D s
  | _ => exact h.elim

/-- **The steps of `forceoff`.** -/
theorem divided_ofForceoff (hD : D .main ∨ D .server) {o : Act} (h : o.OfForceoff) :
    Ends (exec cfg o) s (fun _ ↦ Divided D s) fun _ ↦ Divided D s := by
  cases o with
  | locked b =>
    cases b with
    | drain L =>
      cases L with
      | existing =>
        exact .of_lists rfl rfl rfl rfl rfl (List.nil_sublist _) (.inl rfl)
          (List.prefix_append ..) rfl rfl
      | starting =>
        exact .of_lists rfl rfl rfl rfl rfl (.refl _) (.inr ⟨hD, rfl⟩)
          (List.prefix_append ..) rfl rfl
      | deleting =>
        exact .of_lists rfl rfl rfl rfl rfl (.refl _) (.inl rfl) List.prefix_rfl rfl rfl
    | _ => exact h.elim
  | _ => exact divided_common h

/-- **The steps of the InfoServer.** -/
theorem divided_ofRequest (hD : D .server) {o : Act} (h : o.OfRequest) :
    Ends (exec cfg o) s (fun _ ↦ Divided D s) fun _ ↦ Divided D s := by
  cases o with
  | locked b =>
    cases b with
    | existingToDeleting v => exact divided_existingToDeleting cfg v
    | _ => exact divided_ofForceoff (.inr hD) h
  | toggleSleepMode =>
    exact { Divided.refl D s with sleepMode := fun hn ↦ absurd hD hn, trace := .of_eq rfl }
  | _ => exact divided_common h

/-- **The steps of the JobPoller.** -/
theorem divided_ofJobPoller (hD : D (.poller .job)) {o : Act} (h : o.OfJobPoller) :
    Ends (exec cfg o) s (fun _ ↦ Divided D s) fun _ ↦ Divided D s := by
  -- where the lists stay as they are
  have hsame : ∀ s' : State, s'.sleepMode = s.sleepMode → s'.nextVm = s.nextVm →
      s'.existing = s.existing → s'.starting = s.starting → s'.deleting = s.deleting →
      s'.waiting = s.waiting → s'.trace = s.trace → Divided D s s' := by
    intro s' hsleep hnext hexisting hstarting hdeleting hwaiting htrace
    exact .of_poller hD hsleep hnext hexisting hstarting hdeleting
      (hwaiting ▸ List.prefix_rfl) (fun _ ↦ hwaiting) (.of_eq htrace)
  cases o with
  | locked b =>
    cases b with
    | existingToDeleting v => exact divided_existingToDeleting cfg v
    | dropExisting v => exact divided_removeFrom_existing v
    | queueRequests requests =>
      exact .of_poller hD rfl rfl rfl rfl rfl (List.prefix_append ..) (fun hn ↦ absurd hD hn)
        (.of_eq rfl)
    | updateAvailableCores => exact hsame _ rfl rfl rfl rfl rfl rfl rfl
    | _ => exact h.elim
  | setCluster f => exact hsame _ rfl rfl rfl rfl rfl rfl rfl
  | setProvisioning b => exact hsame _ rfl rfl rfl rfl rfl rfl rfl
  | dumpNodes =>
    exact .of_poller hD rfl rfl rfl rfl rfl List.prefix_rfl (fun hn ↦ absurd hD hn)
      (.emit s (.inr ⟨_, rfl⟩))
  | calculate draws idleJobs numberOfWn =>
    show Ends (get >>= _) s _ _
    rw [ends_bind, ends_get, ends_bind]
    exact ends_lift (fun r hr ↦ hsame _ rfl rfl rfl rfl rfl rfl rfl) fun _ _ ↦ .refl D s
  | _ => exact divided_common h

/-- The sleep mode is the same, and the trace goes on. -/
def sleepFrame : Frame State where
  rel := fun s s' ↦ s'.sleepMode = s.sleepMode ∧ Emits (fun _ ↦ True) s s'
  refl := fun s ↦ ⟨rfl, .refl s⟩
  trans := fun _ _ _ h h' ↦ ⟨h'.1.trans h.1, h.2.trans h'.2⟩

/-- The blocks of the CloudPoller leave the sleep mode as it is. -/
theorem primitives_sleep : Primitives sleepFrame where
  setList := fun s xs L ↦ by cases L <;> exact ⟨rfl, .of_eq rfl⟩
  dynamic := fun _ _ ↦ ⟨rfl, .of_eq rfl⟩
  command := fun s _ _ ↦ ⟨rfl, .emit s trivial⟩
  rule := fun s _ _ ↦ ⟨rfl, .emit s trivial⟩
  static := fun _ _ _ ↦ ⟨rfl, .of_eq rfl⟩
  cores := fun _ ↦ ⟨rfl, .of_eq rfl⟩
  waiting := fun _ _ ↦ ⟨rfl, .of_eq rfl⟩
  waitFor := fun _ _ ↦ ⟨rfl, .of_eq rfl⟩
  provisioning := fun _ _ ↦ ⟨rfl, .of_eq rfl⟩

/-- **The steps of the CloudPoller.** -/
theorem divided_ofCloudPoller (hD : D (.poller .cloud)) {o : Act} (h : o.OfCloudPoller) :
    Ends (exec cfg o) s (fun _ ↦ Divided D s) fun _ ↦ Divided D s := by
  cases o with
  | locked b =>
    exact (primitives_sleep.stays_code b s).mono (fun _ _ h ↦ .of_cloud hD h.1 h.2)
      fun _ _ h ↦ .of_cloud hD h.1 h.2
  | emit e => exact .of_cloud hD rfl (.emit s trivial)
  | dumpNodes => exact .of_cloud hD rfl (.emit s trivial)
  | toggleSleepMode => exact h.elim
  | calculate draws idleJobs numberOfWn =>
    show Ends (get >>= _) s _ _
    rw [ends_bind, ends_get, ends_bind]
    exact ends_lift (fun r hr ↦ .of_cloud hD rfl (.of_eq rfl)) fun _ _ ↦ .refl D s
  | list _ | findVm _ | vm _ | waiting => exact Divided.refl D s
  | cluster | provisioning | sleepMode | resources => exact Divided.refl D s
  | _ => exact .of_cloud hD rfl (.of_eq rfl)

/-- **A step of a thread.** -/
theorem divided_of_owned {i : ThreadId} {o : Act} (h : o.Owned i) :
    Ends (exec cfg o) s (fun _ ↦ Divided (· = i) s) fun _ ↦ Divided (· = i) s := by
  cases i with
  | main => exact divided_ofForceoff (D := (· = .main)) (.inl rfl) h
  | server => exact divided_ofRequest (D := (· = .server)) rfl h
  | poller p =>
    cases p with
    | job => exact divided_ofJobPoller (D := (· = .poller .job)) rfl h
    | cloud => exact divided_ofCloudPoller (D := (· = .poller .cloud)) rfl h

end Steps

/-! ### The tasks -/

/-- A program of steps in `A` that create no VM and keep the identities. -/
abbrev Keeping (A : Act → Prop) {α : Type} (p : Proc α) : Prop :=
  p.Within (Act.Keeping A) (fun _ ↦ True) fun _ ↦ True

/-- A scan that assigns to no VM. -/
def Scope.still : Scope := ⟨fun _ _ _ _ ↦ True, fun _ ↦ False⟩

section Tasks

variable {α : Type} {A B : Act → Prop} {cfg : Config} {v : VmRef}

theorem Act.Keeping.mono (hA : ∀ o, A o → B o) {o : Act} (h : o.Keeping A) : o.Keeping B := by
  cases o <;> first | exact h | exact hA _ h

theorem Keeping.mono {p : Proc α} (h : Keeping A p) (hA : ∀ o, A o → B o) : Keeping B p :=
  Within.mono h (fun _ ho ↦ ho.mono hA) (fun _ _ ↦ trivial) fun _ _ ↦ trivial

/-- A program of one step. -/
theorem keeping_step {o : Act} (h : o.Keeping A) : Keeping A (Program.perform o) :=
  ⟨h, fun _ ↦ trivial⟩

/-- A computation takes no step. -/
theorem keeping_lift (x : Except PyError α) : Keeping A (Program.lift x : Proc α) :=
  within_lift (fun _ _ ↦ trivial) fun _ _ ↦ trivial

/-- The steps of every thread are steps of each one. -/
theorem Act.Common.ofJobPoller {o : Act} (h : o.Common) : o.OfJobPoller := by
  cases o <;> first | exact h | exact h.elim

theorem Act.Common.ofRequest {o : Act} (h : o.Common) : o.OfRequest := by
  cases o <;> first | exact h | exact h.elim

theorem Act.Common.ofCloudPoller {o : Act} (h : o.Common) : o.OfCloudPoller := by
  cases o <;> first | exact h.elim | trivial

theorem Act.OfForceoff.ofRequest {o : Act} (h : o.OfForceoff) : o.OfRequest := by
  cases o with
  | locked b => cases b <;> first | exact h | exact h.elim
  | toggleSleepMode => exact h.elim
  | _ => exact h

/-! #### What every thread does -/

theorem keeping_findWnFromVm (v : VmRef) : Keeping Act.Common (findWnFromVm v) :=
  .step trivial fun _ ↦ .step trivial fun _ ↦ trivial

/-- `vm_destroy` may be called by every thread. -/
theorem keeping_vmDestroy (record : Option WorkerNode) (call : DestroyCall) :
    Keeping Act.Common (vmDestroy v record call.answer call.now) :=
  within_vmDestroy trivial trivial (fun _ ↦ trivial) (fun _ ↦ rfl) fun _ _ ↦ trivial

/-- So may the three removals. -/
theorem keeping_removeNode (v : VmRef) : Keeping Act.Common (removeNode cfg v) :=
  within_removeNode (fun _ ↦ trivial) trivial trivial trivial fun _ _ ↦ trivial

/-- **`forceoff`.** -/
theorem keeping_forceoff (answers : ForceoffAnswers) :
    Keeping Act.OfForceoff (forceoff cfg answers) := by
  have hcommon : ∀ {α : Type} {p : Proc α}, Keeping Act.Common p → Keeping Act.OfForceoff p :=
    fun h ↦ h.mono fun o ho ↦ by cases o <;> first | exact ho | exact ho.elim
  refine .step trivial fun existing ↦ Within.bind (Φ := fun _ ↦ True)
    (within_forEach_of_forall (fun i w _ _ ↦ hcommon ?_) ()) fun _ _ ↦ .step trivial fun _ ↦
      .step trivial fun starting ↦ Within.bind (Φ := fun _ ↦ True)
        (within_forEach_of_forall (fun i w _ _ ↦ hcommon ?_) ()) fun _ _ ↦ keeping_step trivial
  · exact .step (fun _ ↦ rfl) fun _ ↦ (keeping_removeNode w).bind fun _ _ ↦
      (keeping_vmDestroy _ (answers.existing i)).bind fun _ _ ↦ trivial
  · exact (keeping_vmDestroy _ (answers.starting i)).bind fun _ _ ↦ trivial

/-! #### The InfoServer -/

/-- **`kill_vm`.** -/
theorem keeping_killVm (vmName : String) (force : Bool) :
    Keeping Act.OfRequest (killVm cfg vmName force) := by
  refine .step trivial fun found ↦ ?_
  cases found with
  | none => trivial
  | some w =>
    refine ((keeping_findWnFromVm w).mono fun _ ↦ Act.Common.ofRequest).bind fun record _ ↦ ?_
    split
    · trivial
    · split
      · trivial
      · have hhold : Keeping Act.OfRequest (runCommand cfg .holdNode w) :=
          within_runCommand (fun _ ↦ trivial) trivial fun _ _ ↦ trivial
        exact .step (fun _ ↦ rfl) fun _ ↦ hhold.bind fun _ _ ↦ keeping_step trivial

/-- **`get_info`.** -/
theorem keeping_getInfo : Keeping Act.Common getInfo := by
  have hsend : ∀ vs, Keeping Act.Common (sendVms vs) := by
    intro vs
    refine within_forEach_of_forall (fun _ v _ sent ↦ ?_) []
    exact .step trivial fun vm ↦ trivial
  refine .step trivial fun existing ↦ .step trivial fun starting ↦ .step trivial fun deleting ↦ ?_
  refine .step trivial fun waiting ↦ .step trivial fun nodes ↦ .step trivial fun prov ↦ ?_
  refine .step trivial fun sleepMode ↦ .step trivial fun pbs ↦ .step trivial fun maui ↦ ?_
  refine .step trivial fun idle ↦ .step trivial fun total ↦ .step trivial fun crs ↦ ?_
  refine .step trivial fun running ↦ (hsend existing).bind fun _ _ ↦ ?_
  exact (hsend starting).bind fun _ _ ↦ (hsend deleting).bind fun _ _ ↦ trivial

/-- **`get_detail`.** -/
theorem keeping_getDetail (vmName : String) : Keeping Act.Common (getDetail vmName) := by
  refine .step trivial fun (found : Option VmRef) ↦ ?_
  cases found with
  | none => trivial
  | some v =>
    refine (keeping_findWnFromVm v).bind fun record _ ↦ ?_
    cases record with
    | none => trivial
    | some wn => exact .step trivial fun vm ↦ trivial

/-- **The requests.** -/
theorem keeping_request (request : Request) : Keeping Act.OfRequest (request.program cfg) := by
  cases request with
  | info => exact (keeping_getInfo.mono fun _ ↦ Act.Common.ofRequest).bind fun _ _ ↦ trivial
  | kill vmName => exact (keeping_killVm vmName false).bind fun _ _ ↦ trivial
  | getDetail vmName =>
    exact ((keeping_getDetail vmName).mono fun _ ↦ Act.Common.ofRequest).bind fun _ _ ↦ trivial
  | forceoff answers =>
    exact ((keeping_forceoff answers).mono fun _ ↦ Act.OfForceoff.ofRequest).bind
      fun _ _ ↦ trivial
  | toggleSleepMode => exact .step trivial fun _ ↦ trivial

/-! #### The JobPoller -/

/-- The shut-down of an idle worker. -/
theorem keeping_shutDownIdle (call : DestroyCall) (wn : WorkerNode) (w : VmRef) :
    Keeping Act.OfJobPoller (shutDownIdle cfg call wn w) := by
  refine .step (fun _ ↦ rfl) fun _ ↦
    ((keeping_removeNode w).mono fun _ ↦ Act.Common.ofJobPoller).bind fun _ _ ↦ ?_
  refine ((keeping_vmDestroy _ call).mono fun _ ↦ Act.Common.ofJobPoller).bind fun _ _ ↦
    .step trivial fun (existing : List VmRef) ↦ ?_
  refine Within.bind (within_when fun _ ↦ keeping_step trivial) fun _ _ ↦ ?_
  exact .step trivial fun _ ↦ keeping_step trivial

/-- The search for a VM to swap with. -/
theorem keeping_swapStatic (call : DestroyCall) (wn : WorkerNode) (w : VmRef)
    (wns : List WorkerNode) : Keeping Act.OfJobPoller (swapStatic cfg call wn w wns) := by
  induction wns with
  | nil => trivial
  | cons otherWn rest ih =>
    rw [swapStatic]
    split
    · refine .step trivial fun found ↦ ?_
      cases found with
      | none => exact ih
      | some otherV =>
        refine .step trivial fun other ↦ .step trivial fun theVm ↦ ?_
        split
        · exact .step (fun _ ↦ rfl) fun _ ↦ .step (fun _ ↦ rfl) fun _ ↦
            keeping_shutDownIdle call wn w
        · exact ih
    · exact ih

theorem keeping_warnBaseFlavor (w : VmRef) : Keeping Act.OfJobPoller (warnBaseFlavor w) := by
  refine .step trivial fun vm ↦ .step trivial fun crs ↦ (keeping_lift _).bind fun name _ ↦
    (keeping_lift _).bind fun res _ ↦ (keeping_lift _).bind fun base _ ↦ ?_
  split
  · exact (keeping_lift _).bind fun _ _ ↦ trivial
  · trivial

/-- The decision about an idle worker. -/
theorem keeping_checkIdleWorker (answers : WorkerAnswers) (wn : WorkerNode) (w : VmRef) :
    Keeping Act.OfJobPoller (checkIdleWorker cfg answers wn w) := by
  have hshut : Keeping Act.OfJobPoller (shutDownOrSwap cfg answers.destroy wn w) := by
    refine .step trivial fun vm ↦ ?_
    split
    · exact keeping_shutDownIdle answers.destroy wn w
    · refine .step trivial fun running ↦ ?_
      refine (within_when fun _ ↦ .step trivial fun c ↦ ?_).bind fun _ _ ↦ ?_
      · exact keeping_swapStatic answers.destroy wn w c.workerNodes
      · exact keeping_warnBaseFlavor w
  refine .step trivial fun vm ↦ ?_
  split
  · exact hshut.bind fun _ _ ↦ trivial
  · split
    · trivial
    · split <;> trivial

theorem keeping_checkWorker (answers : WorkerAnswers) (wn : WorkerNode) :
    Keeping Act.OfJobPoller (checkWorker cfg answers wn) := by
  refine .step trivial fun found ↦ ?_
  cases found with
  | none => trivial
  | some w =>
    have hrecord : Keeping Act.OfJobPoller (recordState cfg w answers.checkNode) :=
      .step trivial fun vm ↦ (keeping_lift _).bind fun t _ ↦
        .step (fun _ ↦ rfl) fun _ ↦ keeping_step fun _ ↦ rfl
    have hhold : Keeping Act.OfJobPoller (holdOtherImage cfg w) :=
      .step trivial fun vm ↦ .step trivial fun crs ↦ (keeping_lift _).bind fun res _ ↦
        within_when fun _ ↦ within_runCommand (fun _ ↦ trivial) trivial fun _ _ ↦ trivial
    refine hrecord.bind fun _ _ ↦ hhold.bind fun _ _ ↦ ?_
    split
    · exact (keeping_checkIdleWorker answers wn w).bind fun _ _ ↦
        within_when fun _ ↦ keeping_step trivial
    · trivial

theorem keeping_prioritiseJobs (priorities : Bool × List JobPriority) :
    Keeping Act.OfJobPoller (prioritiseJobs priorities) := by
  refine .step trivial fun _ ↦ ?_
  split
  · refine Within.bind (Φ := fun _ ↦ True) (within_when fun _ ↦ ?_) fun _ _ ↦ ?_
    · exact .step trivial fun c ↦ .step trivial fun _ ↦ keeping_lift _
    · exact .step trivial fun c ↦ (keeping_lift _).bind fun _ _ ↦ keeping_step trivial
  · trivial

theorem keeping_determineRequiredInstancesNumbers (draws : JobScheduler.Draws) :
    Keeping Act.OfJobPoller (determineRequiredInstancesNumbers draws) := by
  refine .step trivial fun cluster ↦ ?_
  split
  · refine .step trivial fun flavorList ↦ ?_
    split
    · refine .step trivial fun provisioning ↦ ?_
      split
      · trivial
      · exact keeping_step trivial
    · trivial
  · trivial

/-- **A round of the JobPoller.** -/
theorem keeping_collectClusterInformation (answers : JobAnswers) :
    Keeping Act.OfJobPoller (collectClusterInformation cfg answers) := by
  have hcheck : Keeping Act.OfJobPoller (checkExistingWorkerNodes cfg answers.worker) :=
    .step trivial fun _ ↦ (within_forEach_of_forall (fun i wn _ _ ↦
      keeping_checkWorker (answers.worker i) wn) ()).bind fun _ _ ↦ keeping_step trivial
  have hadjust : Keeping Act.OfJobPoller (adjustWorkers cfg answers) := by
    refine .step trivial fun provisioning ↦ ?_
    split
    · trivial
    · refine hcheck.bind fun _ _ ↦ .step trivial fun crs ↦ ?_
      split
      · exact keeping_determineRequiredInstancesNumbers answers.draws
      · trivial
  refine .step trivial fun _ ↦ .step trivial fun c ↦ ?_
  split
  · refine (keeping_prioritiseJobs answers.priorities).bind fun _ _ ↦
      .step trivial fun _ ↦ .step trivial fun c ↦ ?_
    split
    · refine .step trivial fun _ ↦ .step trivial fun sleepMode ↦ .step trivial fun c ↦ ?_
      split
      · trivial
      · exact hadjust
    · trivial
  · trivial

/-! #### The CloudPoller -/

theorem Act.Scans.keeping {scope : Scope} (hscope : ∀ v, ¬scope.touches v) {o : Act}
    (h : o.Scans scope) : o.Keeping Act.OfCloudPoller := by
  cases o with
  | setVm v f => exact absurd h.1 (hscope v)
  | newVm vm => exact h.elim
  | setExisting vms => exact h.elim
  | toggleSleepMode => exact h.elim
  | _ => trivial

theorem keeping_of_scanning {p : Proc α} {Φ : α → Prop} {Ε : PyError → Prop}
    (h : p.Within (Act.Scans .still) Φ Ε) : Keeping Act.OfCloudPoller p :=
  h.mono (fun _ ho ↦ ho.keeping fun _ ↦ id) (fun _ _ ↦ trivial) fun _ _ ↦ trivial

theorem Keeping.ofCloudPoller {p : Proc α} (h : Keeping Act.Common p) :
    Keeping Act.OfCloudPoller p :=
  h.mono fun _ ↦ Act.Common.ofCloudPoller

theorem keeping_vmCheck (answer : Option ServerReport) :
    Keeping Act.OfCloudPoller (vmCheck cfg v answer) := by
  have hflavor : ∀ answer, Keeping Act.OfCloudPoller (getFlavor answer) := fun answer ↦ by
    cases answer <;> trivial
  refine .step trivial fun vm ↦ (within_openConnection trivial (fun _ _ ↦ trivial) _).bind
    fun _ _ ↦ ?_
  cases answer with
  | none => trivial
  | some report =>
    have hcpu : Keeping Act.OfCloudPoller (setVcpuNumber v report.sizeFlavor) := by
      refine .step trivial fun vm ↦ ?_
      split
      · exact (hflavor _).bind fun flavor _ ↦ keeping_step fun _ ↦ rfl
      · trivial
    refine .step (fun _ ↦ rfl) fun _ ↦ hcpu.bind fun _ _ ↦ ?_
    split
    · trivial
    · split
      · trivial
      · split
        · trivial
        · exact .step (fun _ ↦ rfl) fun _ ↦ (hflavor _).bind fun _ _ ↦
            .step (fun _ ↦ rfl) fun _ ↦ trivial

theorem keeping_provisionVisit (answers : ProvisionAnswers) (scratch : ProvisionScratch) :
    Keeping Act.OfCloudPoller (provisionVisit cfg answers v scratch) := by
  have hgive : Keeping Act.OfCloudPoller (giveUpIfOverdue cfg answers.now v scratch) := by
    refine .step trivial fun vm ↦ ?_
    split <;> trivial
  refine .step trivial fun vm ↦ ?_
  split
  · rw [pollTorque]
    split
    · split
      · trivial
      · refine .step trivial fun vm ↦ ?_
        split <;> trivial
    · trivial
    · trivial
  · refine (keeping_vmCheck _).bind fun state _ ↦ ?_
    split
    · exact .step (fun _ ↦ rfl) fun _ ↦ keeping_of_scanning
        (scanning_addToTorque_rest cfg .still answers v scratch)
    · exact (within_postProvision (fun _ ↦ trivial) trivial (fun _ _ ↦ trivial) trivial
        (fun _ ↦ rfl) fun _ _ ↦ trivial).bind fun _ _ ↦ hgive
    · exact hgive
    · trivial
    · trivial

theorem keeping_giveUp (call : DestroyCall) (record : Option WorkerNode) :
    Keeping Act.OfCloudPoller (giveUp call v record) := by
  refine .step trivial fun (vm : VM) ↦ Within.bind (Φ := fun _ ↦ True) ?_ fun _ _ ↦ ?_
  · show Keeping Act.OfCloudPoller (askAgain vm)
    rw [askAgain.eq_def]
    split
    · exact keeping_step trivial
    · trivial
  · exact (keeping_vmDestroy record call).ofCloudPoller.bind fun _ _ ↦ keeping_step trivial

theorem keeping_cleanupVisit (answers : CleanupAnswers) (scratch : CleanupScratch) :
    Keeping Act.OfCloudPoller (cleanupVisit cfg answers v scratch) := by
  have hrelease : Keeping Act.OfCloudPoller (releaseResForNode cfg v) :=
    within_releaseResForNode (fun _ ↦ trivial) trivial trivial fun _ _ ↦ trivial
  have hremove : Keeping Act.OfCloudPoller (runCommand cfg .removeNode v) :=
    within_runCommand (fun _ ↦ trivial) trivial fun _ _ ↦ trivial
  refine (keeping_vmCheck _).bind fun state _ ↦ .step trivial fun vm ↦ ?_
  split
  · split <;> trivial
  · split
    · trivial
    · rw [cleanUpUnknown]
      split
      · trivial
      · refine .step trivial fun vm ↦ ?_
        split
        · exact (keeping_vmDestroy none answers.destroy).ofCloudPoller.bind fun _ _ ↦ trivial
        · trivial
    · rename_i wn _
      rw [cleanUpKnown]
      split
      · exact hrelease.bind fun _ _ ↦ hremove.bind fun _ _ ↦ trivial
      · split
        · exact .step trivial fun vm ↦ trivial
        · exact hrelease.bind fun _ _ ↦ hremove.bind fun _ _ ↦
            (keeping_vmDestroy (some wn) answers.destroy).ofCloudPoller.bind fun _ _ ↦
              .step (fun _ ↦ rfl) fun _ ↦ trivial

end Tasks

end DynamicTorque
