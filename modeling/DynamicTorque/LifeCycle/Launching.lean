import DynamicTorque.LifeCycle.Lists

/-!
# Launching

`launch_instances` walks the waiting list once. What one iteration can do is stated as a relation
between the loop states and the states of the resource center (`LaunchStep`), and what all of them
together have done as a frame (`Launched`).
-/

open Python Atomic

namespace DynamicTorque

section Launch

open Locked

variable {cfg : Config} {s : State}

/-- The state after a request was started: the new VM is the last one in the starting list. -/
def State.launched (s : State) (request : ProvisionVM) (vm : VM) : State :=
  { (s.emit (.vmStart request.flavor request.zone request.resourceName)).allocate [vm] with
    starting := s.starting ++ [s.nextVm] }

/-- What one iteration of `launch_instances` can do. -/
inductive LaunchStep (entry : WaitingRequest) (loop : LaunchLoop) (s : State) :
    LaunchLoop → State → Prop
  /-- After a failed start nothing happens. -/
  | ended (h : loop.failed = true) : LaunchStep entry loop s loop s
  /-- The batch is full and the request stays, or does not. -/
  | kept (h : loop.failed = false) (hfull : loop.vmNumber = 0) (hstatic : entry.request.static) :
      LaunchStep entry loop s loop s
  | discarded (h : loop.failed = false) (hfull : loop.vmNumber = 0)
      (hstatic : entry.request.static = false) :
      LaunchStep entry loop s { loop with toRemove := loop.toRemove ++ [entry] } s
  /-- The request is started. -/
  | started (h : loop.failed = false) (hroom : loop.vmNumber ≠ 0) {vm : VM}
      (hresource : vm.cloudResourceName = entry.request.resourceName)
      (hdynamic : vm.dynamic = true) :
      LaunchStep entry loop s
        { loop with vmNumber := loop.vmNumber - 1, toRemove := loop.toRemove ++ [entry] }
        (s.launched entry.request vm)
  /-- The cloud refuses. -/
  | refused (h : loop.failed = false) (hroom : loop.vmNumber ≠ 0) :
      LaunchStep entry loop s { loop with failed := true }
        (s.emit (.vmStart entry.request.flavor entry.request.zone entry.request.resourceName))

theorem ends_vmStart {flavor : FlavorRef} {zone : Option String} {resource : String}
    {answer : Option StartedServer} {Q : Option VmRef → State → Prop}
    {E : PyError → State → Prop} (hnone : Q none (s.emit (.vmStart flavor zone resource)))
    (hsome : ∀ vm : VM, vm.cloudResourceName = resource → vm.dynamic = true →
      Q (some s.nextVm) ((s.emit (.vmStart flavor zone resource)).allocate [vm]))
    (hE : ∀ e, NotFromRemove e → E e s) :
    Ends ((vmStart cfg flavor zone resource answer).exec cfg) s Q E := by
  rw [vmStart, openConnection]
  refine Program.ends_lift_bind (fun res _ ↦ ?_) fun e he ↦ hE e (notFromRemove_of_get he)
  cases answer with
  | none => exact hnone
  | some server => exact hsome _ rfl rfl

/-- **One request.** Only an unknown resource raises, and then nothing has changed. -/
theorem ends_launchVisit {answer : Option StartedServer} {entry : WaitingRequest}
    {loop : LaunchLoop} : Ends ((launchVisit cfg answer entry loop).exec cfg) s
      (LaunchStep entry loop s) fun e s' ↦ NotFromRemove e ∧ s' = s := by
  rw [launchVisit]
  split
  · rename_i hfailed
    exact .ended hfailed
  · rename_i hfailed
    have hfailed : loop.failed = false := by simpa using hfailed
    split
    · rename_i hfull
      split
      · rename_i hstatic
        exact .kept hfailed hfull hstatic
      · rename_i hstatic
        exact .discarded hfailed hfull (by simpa using hstatic)
    · rename_i hroom
      rw [Proc.exec, Program.run_bind, ends_bind]
      refine ends_vmStart ?_ (fun vm hresource hdynamic ↦ ?_) fun e he ↦ ⟨he, rfl⟩
      · exact .refused hfailed hroom
      · exact .started hfailed hroom hresource hdynamic

/-- An entry to remove is one that was visited. -/
theorem LaunchStep.toRemove {entry : WaitingRequest} {loop loop' : LaunchLoop} {s' : State}
    (h : LaunchStep entry loop s loop' s') {done : List WaitingRequest}
    (hdone : loop.toRemove.Sublist done) : loop'.toRemove.Sublist (done ++ [entry]) := by
  cases h with
  | ended h => exact hdone.trans (List.sublist_append_left _ _)
  | kept h hfull hstatic => exact hdone.trans (List.sublist_append_left _ _)
  | discarded h hfull hstatic => exact hdone.append (.refl _)
  | started h hroom hresource hdynamic => exact hdone.append (.refl _)
  | refused h hroom => exact hdone.trans (List.sublist_append_left _ _)

theorem ends_removeWaiting : ∀ {rs : List WaitingRequest} {s : State}, rs.Subperm s.waiting →
    Ends (removeWaiting rs) s (fun _ s' ↦ s' = { s with waiting := s.waiting.diff rs })
      fun _ _ ↦ False := by
  intro rs
  induction rs with
  | nil => exact fun _ ↦ rfl
  | cons r rs ih =>
    intro s hsub
    have hmem : r ∈ s.waiting := hsub.subset List.mem_cons_self
    have hrest : rs.Subperm (s.waiting.erase r) := by simpa using hsub.erase r
    rw [removeWaiting, ends_bind, ends_get, ends_bind, remove_of_mem hmem, lift_ok, ends_pure,
      ends_bind, ends_set]
    refine Ends.mono (ih hrest) (fun _ s' h ↦ ?_) fun _ _ h ↦ h
    rw [h, List.diff_cons]

/-- The last block of `launch_instances` never raises. -/
theorem ends_endLaunch {rs : List WaitingRequest} (hsub : rs.Subperm s.waiting) :
    Ends ((Block.endLaunch rs).code cfg) s
      (fun _ s' ↦ s' = { s with waiting := s.waiting.diff rs })
      fun _ _ ↦ False := by
  exact ends_removeWaiting hsub

end Launch

/-! ### The loop -/

/-- The static requests for a resource in a list of requests. -/
def staticCount (resource : String) (requests : List WaitingRequest) : ℕ :=
  requests.countP fun w ↦ w.request.static ∧ w.request.resourceName = resource

theorem staticCount_append (resource : String) (xs ys : List WaitingRequest) :
    staticCount resource (xs ++ ys) = staticCount resource xs + staticCount resource ys :=
  List.countP_append

/-- The static requests in a list of new requests that are all static and of one resource. -/
theorem staticCount_waitFor (s : State) {resource : String}
    {requests : List (ProvisionVM × ℕ)}
    (h : ∀ r ∈ requests, r.1.static = true ∧ r.1.resourceName = resource) :
    staticCount resource (s.waitFor requests).waiting =
      staticCount resource s.waiting + (requests.map Prod.snd).sum := by
  rw [State.waitFor, staticCount_append]
  congr 1
  generalize s.nextRequest = k
  induction requests generalizing k with
  | nil => rfl
  | cons r requests ih =>
    have hr := h r List.mem_cons_self
    have hrest := ih (fun r' hr' ↦ h r' (List.mem_cons_of_mem _ hr')) (k + 1)
    rw [List.zipIdx_cons, List.flatMap_cons, staticCount_append, hrest, List.map_cons,
      List.sum_cons]
    simp [staticCount, List.countP_replicate, hr]

/-- The frame of the launch loop: new VMs in the starting list, as many of each resource as there
are static requests for it among the entries to remove. -/
structure Launched (s : State) (toRemove : List WaitingRequest) (s' : State) : Prop where
  moves : Moves (fun _ ↦ False) s s'
  existing : s'.existing = s.existing
  deleting : s'.deleting = s.deleting
  waiting : s'.waiting = s.waiting
  resources : s'.resources = s.resources
  provisioning : s'.provisioning = s.provisioning
  sleepMode : s'.sleepMode = s.sleepMode
  nextVm : s.nextVm ≤ s'.nextVm
  vms : ∀ v < s.nextVm, s'.vms v = s.vms v
  starting : ∃ new, s'.starting = s.starting ++ new ∧ (∀ v ∈ new, v < s'.nextVm) ∧
    ∀ resource, staticCount resource toRemove ≤
      new.countP fun v ↦ (s'.vms v).cloudResourceName = resource
  trace : Emits (fun e ↦ ∃ flavor zone resource, e = .vmStart flavor zone resource) s s'

section Loop

variable {cfg : Config} {s s₁ s' : State}

namespace Launched

theorem refl (s : State) : Launched s [] s where
  moves := .of_eq rfl rfl rfl le_rfl
  existing := rfl
  deleting := rfl
  waiting := rfl
  resources := rfl
  provisioning := rfl
  sleepMode := rfl
  nextVm := le_rfl
  vms := fun _ _ ↦ rfl
  starting := ⟨[], by simp, nofun, fun _ ↦ le_rfl⟩
  trace := .refl s

/-- A request is started. -/
theorem started {toRemove : List WaitingRequest} (h : Launched s toRemove s₁)
    (entry : WaitingRequest) {vm : VM}
    (hresource : vm.cloudResourceName = entry.request.resourceName) :
    Launched s (toRemove ++ [entry]) (s₁.launched entry.request vm) where
  moves := by
    have hemit : Moves (fun _ ↦ False) s₁ (s₁.emit (.vmStart entry.request.flavor
        entry.request.zone entry.request.resourceName)) := .of_eq rfl rfl rfl le_rfl
    exact (h.moves.trans hemit).trans moves_addStarting
  existing := h.existing
  deleting := h.deleting
  waiting := h.waiting
  resources := h.resources
  provisioning := h.provisioning
  sleepMode := h.sleepMode
  nextVm := h.nextVm.trans (Nat.le_succ _)
  vms := fun v hv ↦ by
    have hold : ¬s₁.nextVm ≤ v := not_le.2 (lt_of_lt_of_le hv h.nextVm)
    simp [State.launched, State.allocate, State.emit, hold, h.vms v hv]
  starting := by
    obtain ⟨new, hstarting, hnew, hserved⟩ := h.starting
    refine ⟨new ++ [s₁.nextVm], ?_, ?_, fun resource ↦ ?_⟩
    · simp [State.launched, hstarting]
    · intro v hv
      rcases List.mem_append.1 hv with hv | hv
      · exact Nat.lt_succ_of_lt (hnew v hv)
      · exact (List.mem_singleton.1 hv) ▸ Nat.lt_succ_self _
    · have hsame : ∀ v ∈ new, ((s₁.launched entry.request vm).vms v) = s₁.vms v := by
        intro v hv
        have hold : ¬s₁.nextVm ≤ v := not_le.2 (hnew v hv)
        simp [State.launched, State.allocate, State.emit, hold]
      have hlast : (s₁.launched entry.request vm).vms s₁.nextVm = vm := by
        simp [State.launched, State.allocate, State.emit]
      -- the older new VMs are as they were; the last one serves the entry
      have hcount : new.countP (fun v ↦ decide
          (((s₁.launched entry.request vm).vms v).cloudResourceName = resource)) =
            new.countP fun v ↦ decide ((s₁.vms v).cloudResourceName = resource) :=
        List.countP_congr fun v hv ↦ by rw [hsame v hv]
      have hentry : (if entry.request.static = true ∧ entry.request.resourceName = resource
          then 1 else 0) ≤ (if entry.request.resourceName = resource then 1 else 0) := by
        split_ifs with h₁ h₂ h₂
        · exact le_rfl
        · exact absurd h₁.2 h₂
        · exact Nat.zero_le _
        · exact le_rfl
      rw [staticCount, List.countP_append, List.countP_append, hcount]
      simp only [List.countP_singleton, hlast, hresource, decide_eq_true_eq]
      exact Nat.add_le_add (hserved resource) hentry
  trace := h.trace.trans (.of_append rfl (by simp))

/-- The cloud refuses. -/
theorem refused {toRemove : List WaitingRequest} (h : Launched s toRemove s₁)
    (request : ProvisionVM) : Launched s toRemove
      (s₁.emit (.vmStart request.flavor request.zone request.resourceName)) :=
  { h with
    moves := h.moves.trans (.of_eq rfl rfl rfl le_rfl)
    trace := h.trace.trans (.emit s₁ ⟨_, _, _, rfl⟩) }

/-- An entry that is not static is discarded. -/
theorem discarded {toRemove : List WaitingRequest} (h : Launched s toRemove s₁)
    {entry : WaitingRequest} (hstatic : entry.request.static = false) :
    Launched s (toRemove ++ [entry]) s₁ :=
  { h with
    starting := by
      obtain ⟨new, hstarting, hnew, hserved⟩ := h.starting
      refine ⟨new, hstarting, hnew, fun resource ↦ ?_⟩
      have hzero : staticCount resource [entry] = 0 := by simp [staticCount, hstatic]
      rw [staticCount, List.countP_append]
      exact (Nat.add_le_add_left hzero.le _).trans (hserved resource) }

theorem step {entry : WaitingRequest} {loop loop' : LaunchLoop}
    (h : Launched s loop.toRemove s₁) (h' : LaunchStep entry loop s₁ loop' s') :
    Launched s loop'.toRemove s' := by
  cases h' with
  | ended h' => exact h
  | kept h' hfull hstatic => exact h
  | discarded h' hfull hstatic => exact h.discarded hstatic
  | started h' hroom hresource hdynamic => exact h.started entry hresource
  | refused h' hroom => exact h.refused entry.request

end Launched

/-- The state in which `launch_instances` starts to launch. -/
def State.beginLaunch (s : State) : State :=
  { s with provisioning := true }

/-- **`launch_instances`.** Nothing happens if no request waits or the batch is full; otherwise it
launches, and only an unknown resource raises. -/
theorem ends_launchInstances {answers : ℕ → Option StartedServer} {Q : Unit → State → Prop}
    {E : PyError → State → Prop} (hnone : Q () s)
    (hlaunch : ∀ toRemove s', s.waiting ≠ [] →
      (s.starting.length : ℤ) < cfg.vmCreationBatchNumber → toRemove.Subperm s.waiting →
      Launched s.beginLaunch toRemove s' →
      Q () { s' with waiting := s.waiting.diff toRemove })
    (hraise : ∀ e toRemove s', NotFromRemove e → s.waiting ≠ [] →
      (s.starting.length : ℤ) < cfg.vmCreationBatchNumber →
      Launched s.beginLaunch toRemove s' → E e s') :
    Ends ((launchInstances cfg answers).exec cfg) s Q E := by
  rw [launchInstances, ends_waiting]
  split
  · rename_i hlength
    have hwaiting : s.waiting ≠ [] := List.length_pos_iff.1 hlength
    rw [ends_list]
    split
    · rename_i hroom
      rw [ends_locked]
      show Ends _ s.beginLaunch _ _
      rw [ends_list, ends_waiting, Proc.exec, Program.run_bind, ends_bind]
      refine (Program.ends_forEach (I := fun done loop s' ↦
        Launched s.beginLaunch loop.toRemove s' ∧ loop.toRemove.Sublist done) ?_ ?_).mono ?_
          fun _ _ h ↦ h
      · rintro done entry rest loop s₁ - ⟨h, hsub⟩
        refine ends_launchVisit.mono (fun loop' s₂ h' ↦ ?_) fun e s₂ h' ↦ ?_
        · exact ⟨h.step h', h'.toRemove hsub⟩
        · obtain ⟨he, rfl⟩ := h'
          exact hraise e loop.toRemove s₂ he hwaiting hroom h
      · exact ⟨.refl _, .refl _⟩
      · rintro loop s₁ ⟨h, hsub⟩
        have hsub₁ : loop.toRemove.Subperm s₁.waiting := h.waiting ▸ hsub.subperm
        refine ends_block.2 ((ends_endLaunch hsub₁).mono ?_ fun _ _ h ↦ h.elim)
        rintro - s₂ rfl
        rw [h.waiting]
        exact hlaunch loop.toRemove s₁ hwaiting hroom hsub.subperm h
    · exact hnone
  · exact hnone

end Loop

/-! ### The last part of an operation -/

/-- What the last part of an operation does: it may launch VMs, and it destroys and forgets none. -/
structure Finished (s s' : State) : Prop where
  moves : Moves (fun _ ↦ False) s s'
  trace : Emits (Event.DestroysOnly fun _ _ _ _ ↦ False) s s'

theorem Finished.refl (s : State) : Finished s s :=
  ⟨.of_eq rfl rfl rfl le_rfl, .refl s⟩

theorem Finished.trans {s s₁ s' : State} (h : Finished s s₁) (h' : Finished s₁ s') :
    Finished s s' :=
  ⟨h.moves.trans h'.moves, h.trace.trans h'.trace⟩

theorem Finished.of_scanned {s s' : State} (h : Scanned (.looking fun _ ↦ False) s s') :
    Finished s s' :=
  ⟨.of_scanned h, h.trace.mono fun _ he ↦ he.destroysOnly id⟩

/-- A program that is the last part of an operation, or the whole of it. -/
def Finishes (cfg : Config) (p : Proc Unit) (s : State) : Prop :=
  Ends (p.exec cfg) s (fun _ ↦ Finished s) fun e s' ↦ NotFromRemove e ∧ Finished s s'

section Finish

variable {cfg : Config} {s : State}

theorem Launched.finished {toRemove : List WaitingRequest} {s' : State}
    (h : Launched s.beginLaunch toRemove s') : Finished s s' where
  moves := by
    have hbegin : Moves (fun _ ↦ False) s s.beginLaunch := .of_eq rfl rfl rfl le_rfl
    exact hbegin.trans h.moves
  trace := by
    refine ⟨h.trace.trace, fun e he ↦ ?_⟩
    obtain ⟨flavor, zone, resource, rfl⟩ := h.trace.events e he
    trivial

theorem finishes_launchInstances (answers : ℕ → Option StartedServer) :
    Finishes cfg (launchInstances cfg answers) s := by
  refine ends_launchInstances (.refl s) (fun toRemove s' _ _ _ h ↦ ?_)
    fun e toRemove s' he _ _ h ↦ ⟨he, h.finished⟩
  exact h.finished.trans ⟨.of_eq rfl rfl rfl le_rfl, .of_eq rfl⟩

theorem finishes_finishProvisioning (launch : ℕ → Option StartedServer) :
    Finishes cfg (finishProvisioning cfg launch) s := by
  rw [Finishes, finishProvisioning, ends_list]
  split
  · rw [ends_waiting]
    split
    · exact ends_block.2 ⟨.of_eq rfl rfl rfl le_rfl, .of_eq rfl⟩
    · exact finishes_launchInstances launch
  · exact finishes_launchInstances launch

theorem finishes_launchIfWaiting (launch : ℕ → Option StartedServer) :
    Finishes cfg (launchIfWaiting cfg launch) s := by
  rw [Finishes, launchIfWaiting, ends_waiting]
  split
  · rw [ends_provisioning]
    split
    · exact finishes_launchInstances launch
    · exact Finished.refl s
  · exact Finished.refl s

/-- The free nodes are counted and the nodes dumped first. -/
theorem finishes_updateAvailableCores {c : Prop} [Decidable c] {p : Proc Unit}
    (h : ∀ s, Finishes cfg p s) : Finishes cfg (do
      Proc.locked .updateAvailableCores
      Program.when c Proc.dumpNodes
      p) s := by
  have hcores : Finished s s.updateAvailableCores := ⟨.of_eq rfl rfl rfl le_rfl, .of_eq rfl⟩
  rw [Finishes, ends_locked]
  have hdump : Scanning (.looking fun _ ↦ False) (Program.when c Proc.dumpNodes) fun _ ↦ True :=
    scanning_dumpNodes
  refine ends_scanning_bind hdump (fun _ s₁ _ h₁ ↦ ?_) fun e s₁ he h₁ ↦
    ⟨he, hcores.trans (.of_scanned h₁)⟩
  have hmid : Finished s s₁ := hcores.trans (.of_scanned h₁)
  exact (h s₁).mono (fun _ _ h' ↦ hmid.trans h') fun _ _ h' ↦ ⟨h'.1, hmid.trans h'.2⟩

end Finish

end DynamicTorque
