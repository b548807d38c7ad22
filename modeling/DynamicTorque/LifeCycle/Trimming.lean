import DynamicTorque.LifeCycle.StartUp
import DynamicTorque.Scheduler.Packing

/-!
# Trimming a resource that is over-used

At its start the process destroys dynamic VMs of a resource while there are more than its limit. The
loop pops VMs from the end of a list and skips those that are static or busy; it does not look
whether there is a VM left.

* `ends_trimOverused_stops`, `ends_trimOverused_raises`: the loop stops at the limit if there are
  enough idle dynamic VMs, and pops from the empty list otherwise.
* `trimmed_iff`: so it does what it is for if and only if the busy dynamic VMs are within the limit.
-/

open Python Atomic Program

namespace DynamicTorque

/-! ### Idle and busy VMs -/

/-- The VM is dynamic and idle. -/
def State.expendable (s : State) (v : VmRef) : Bool :=
  (s.vms v).dynamic && !s.hasJobs v

/-- The existing VMs of a resource. -/
def State.existingOf (s : State) (resource : String) : List VmRef :=
  s.existing.filter fun v ↦ (s.vms v).cloudResourceName = resource

/-- The dynamic ones among them. -/
def State.dynamicOf (s : State) (resource : String) : ℕ :=
  (s.existingOf resource).countP fun v ↦ (s.vms v).dynamic

/-- The busy dynamic ones. -/
def State.busyDynamicOf (s : State) (resource : String) : ℕ :=
  (s.existingOf resource).countP fun v ↦ (s.vms v).dynamic && s.hasJobs v

section Loop

variable {cfg : Config} {calls : ℕ → DestroyCall} {limit : ℤ}

/-- A VM that is discarded changes nothing about which VMs are idle. -/
theorem Discarded.expendable {destroys : Destroys} {done : List VmRef} {s s' : State}
    (h : Discarded destroys done s s') (hcluster : s'.cluster = s.cluster) :
    s'.expendable = s.expendable := by
  funext v
  rw [State.expendable, State.expendable, State.hasJobs, State.hasJobs, hcluster,
    (h.vm v).hostname, (h.vm v).dynamic]

/-- What a visit tests, in terms of the state. -/
theorem keep_iff (s : State) (v : VmRef) :
    (¬(s.vms v).dynamic = true ∨ ((s.cluster.workerNodes.find? fun wn ↦
      wn.name = (s.vms v).hostname).bind WorkerNode.jobs).isSome = true) ↔
        s.expendable v = false := by
  rw [State.expendable, State.hasJobs]
  cases (s.vms v).dynamic <;> simp

/-- An idle dynamic VM is popped: it is destroyed and moved. -/
theorem ends_discard_expendable {α : Type} {s : State} {v : VmRef} {call : DestroyCall}
    {p : Proc α} {Q : α → State → Prop} {E : PyError → State → Prop} (hmem : v ∈ s.existing)
    (hknown : (s.vms v).cloudResourceName ∈ s.resources.names) (hidle : s.expendable v = true)
    (hQ : ∀ s₁, Discarded idleDestroy [v] s s₁ → s₁.expendable = s.expendable →
      Ends (p.exec cfg) s₁ Q E) :
    Ends (Proc.exec (do
      let _ ← vmDestroy v (s.cluster.workerNodes.find? fun wn ↦ wn.name = (s.vms v).hostname)
        call.answer call.now
      Proc.locked (.destroyExisting v)
      p) cfg) s Q E := by
  have hdestroy : idleDestroy v (s.cluster.workerNodes.find? fun wn ↦
      wn.name = (s.vms v).hostname) (s.vms v).forceOff call.answer := by
    have hjobs : s.hasJobs v = false := by simpa using (Bool.and_eq_true_iff.1 hidle).2
    simpa [idleDestroy, State.hasJobs] using hjobs
  refine ends_discard hmem hdestroy (fun s₁ h₁ hcluster _ ↦ hQ s₁ h₁ (h₁.expendable hcluster))
    fun e he ↦ ?_
  rw [CloudResources.get, if_pos hknown] at he
  cases he

/-- The VMs that are left in the list still exist, and their resources are known. -/
theorem Discarded.rest {destroys : Destroys} {s s₁ : State} {v : VmRef} {vs : List VmRef}
    (h₁ : Discarded destroys [v] s s₁) (hsub : (v :: vs).Subperm s.existing)
    (hknown : ∀ w ∈ v :: vs, (s.vms w).cloudResourceName ∈ s.resources.names) :
    vs.Subperm s₁.existing ∧ ∀ w ∈ vs, (s₁.vms w).cloudResourceName ∈ s₁.resources.names := by
  constructor
  · rw [h₁.existing]
    simpa using hsub.erase v
  · intro w hw
    rw [(h₁.vm w).resource, h₁.resources]
    exact hknown w (List.mem_cons_of_mem _ hw)

/-- **Enough idle VMs.** The loop stops when it has come down to the limit. -/
theorem ends_trimOverused_stops : ∀ {vs : List VmRef} {s : State} (i : ℕ) (num : ℤ),
    vs.Subperm s.existing → (∀ v ∈ vs, (s.vms v).cloudResourceName ∈ s.resources.names) →
    num - vs.countP s.expendable ≤ limit →
    Ends ((trimOverused calls limit i num vs).exec cfg) s
      (fun left s' ↦ left = min num limit ∧ ∃ done, Discarded idleDestroy done s s' ∧
        done.length = num - left ∧ ∀ v ∈ done, v ∈ vs ∧ s.expendable v = true)
      fun _ _ ↦ False := by
  intro vs
  have hstop : ∀ {vs : List VmRef} {s : State} {num : ℤ}, num ≤ limit →
      num = min num limit ∧ ∃ done, Discarded idleDestroy done s s ∧
        done.length = num - num ∧ ∀ v ∈ done, v ∈ vs ∧ s.expendable v = true :=
    fun hle ↦ ⟨(min_eq_left hle).symm, [], .refl _, by simp, fun _ hv ↦ absurd hv List.not_mem_nil⟩
  induction vs with
  | nil =>
    intro s i num _ _ henough
    rw [List.countP_nil, Nat.cast_zero, Int.sub_zero] at henough
    rw [trimOverused, if_neg (not_lt.2 henough)]
    exact hstop henough
  | cons v vs ih =>
    intro s i num hsub hknown henough
    rw [trimOverused]
    split
    · rw [ends_findWnFromVm, ends_vm]
      split
      · -- the VM is popped but not counted
        rename_i hkeep
        rw [keep_iff] at hkeep
        rw [List.countP_cons_of_neg (by simp [hkeep])] at henough
        refine (ih (i + 1) num ((List.sublist_cons_self v vs).subperm.trans hsub)
          (fun w hw ↦ hknown w (List.mem_cons_of_mem _ hw)) henough).mono ?_ fun _ _ h ↦ h
        rintro left s' ⟨hleft, done, h', hlength, hidle⟩
        exact ⟨hleft, done, h', hlength, fun w hw ↦
          ⟨List.mem_cons_of_mem _ (hidle w hw).1, (hidle w hw).2⟩⟩
      · rename_i hover hkeep
        have hexpendable : s.expendable v = true := by
          rw [keep_iff] at hkeep
          simpa using hkeep
        rw [List.countP_cons_of_pos hexpendable] at henough
        refine ends_discard_expendable (hsub.subset List.mem_cons_self)
          (hknown v List.mem_cons_self) hexpendable fun s₁ h₁ hsame ↦ ?_
        obtain ⟨hrest, hknown₁⟩ := h₁.rest hsub hknown
        have henough₁ : num - 1 - vs.countP s₁.expendable ≤ limit := by
          rw [hsame]
          omega
        refine (ih (i + 1) (num - 1) hrest hknown₁ henough₁).mono ?_ fun _ _ h ↦ h
        rintro left s' ⟨hleft, done, h', hlength, hidle⟩
        refine ⟨by omega, v :: done, h₁.trans h', by rw [List.length_cons]; omega, ?_⟩
        rw [List.forall_mem_cons]
        refine ⟨⟨List.mem_cons_self, hexpendable⟩, fun w hw ↦ ?_⟩
        exact ⟨List.mem_cons_of_mem _ (hidle w hw).1, hsame ▸ (hidle w hw).2⟩
    · rename_i hover
      exact hstop (not_lt.1 hover)

/-- **Too few idle VMs.** The loop comes to pop from the empty list. -/
theorem ends_trimOverused_raises : ∀ {vs : List VmRef} {s : State} (i : ℕ) (num : ℤ),
    vs.Subperm s.existing → (∀ v ∈ vs, (s.vms v).cloudResourceName ∈ s.resources.names) →
    limit < num - vs.countP s.expendable →
    Ends ((trimOverused calls limit i num vs).exec cfg) s (fun _ _ ↦ False)
      fun e _ ↦ e = .indexError := by
  intro vs
  induction vs with
  | nil =>
    intro s i num _ _ hfew
    rw [List.countP_nil, Nat.cast_zero, Int.sub_zero] at hfew
    rw [trimOverused, if_pos hfew]
    exact rfl
  | cons v vs ih =>
    intro s i num hsub hknown hfew
    have hover : num > limit := by omega
    rw [trimOverused, if_pos hover, ends_findWnFromVm, ends_vm]
    split
    · rename_i hkeep
      rw [keep_iff] at hkeep
      rw [List.countP_cons_of_neg (by simp [hkeep])] at hfew
      exact ih (i + 1) num ((List.sublist_cons_self v vs).subperm.trans hsub)
        (fun w hw ↦ hknown w (List.mem_cons_of_mem _ hw)) hfew
    · rename_i hkeep
      have hexpendable : s.expendable v = true := by
        rw [keep_iff] at hkeep
        simpa using hkeep
      rw [List.countP_cons_of_pos hexpendable] at hfew
      refine ends_discard_expendable (hsub.subset List.mem_cons_self)
        (hknown v List.mem_cons_self) hexpendable fun s₁ h₁ hsame ↦ ?_
      obtain ⟨hrest, hknown₁⟩ := h₁.rest hsub hknown
      refine ih (i + 1) (num - 1) hrest hknown₁ ?_
      rw [hsame]
      omega

end Loop

/-! ### The resource -/

/-- The part of an iteration of `_load_existing_worker_nodes` that looks for over-use, given the
existing VMs of the resource. -/
def trimResource (calls : ℕ → DestroyCall) (limit : ℤ) (vs : List VmRef) : Proc ℤ := do
  let numOfInstances ← Program.forEach (fun _ v n ↦ do
    let vm ← Proc.vm v
    return if vm.dynamic then n + 1 else n) 0 vs (0 : ℤ)
  trimOverused calls limit 0 numOfInstances vs.reverse

/-- What the trim is for: it moves idle dynamic VMs only, and leaves as many dynamic VMs as the
limit allows, but all the busy ones. -/
structure Trimmed (resource : String) (limit : ℤ) (s s' : State) : Prop where
  moved : ∃ done, s'.deleting = s.deleting ++ done ∧ s'.existing = s.existing.diff done ∧
    ∀ v ∈ done, v ∈ s.existingOf resource ∧ s.expendable v = true
  left : (s'.dynamicOf resource : ℤ) =
    max (min (s.dynamicOf resource : ℤ) limit) (s.busyDynamicOf resource)

section Resource

variable {s s' : State} {resource : String}

theorem dynamicOf_eq_add (s : State) (resource : String) :
    s.dynamicOf resource =
      s.busyDynamicOf resource + (s.existingOf resource).countP s.expendable := by
  rw [State.dynamicOf, State.busyDynamicOf,
    List.countP_eq_countP_filter_add _ (fun v ↦ (s.vms v).dynamic) s.hasJobs, List.countP_filter,
    List.countP_filter]
  rfl

/-- The VMs that are discarded are fewer among the dynamic ones. -/
theorem Discarded.dynamicOf {destroys : Destroys} {done : List VmRef}
    (h : Discarded destroys done s s')
    (hdone : ∀ v ∈ done, v ∈ s.existingOf resource ∧ s.expendable v = true) :
    s.dynamicOf resource = done.length + s'.dynamicOf resource := by
  have hsame : s'.dynamicOf resource = (s'.existing.filter fun v ↦
      (s.vms v).cloudResourceName = resource).countP fun v ↦ (s.vms v).dynamic := by
    rw [State.dynamicOf, State.existingOf]
    congr 1
    · exact funext fun v ↦ by rw [(h.vm v).dynamic]
    · exact congrArg (List.filter · s'.existing) (funext fun v ↦ by rw [(h.vm v).resource])
  have hperm := (append_diff_perm h.subperm).countP_eq
    fun v ↦ (s.vms v).dynamic && decide ((s.vms v).cloudResourceName = resource)
  rw [hsame, State.dynamicOf, State.existingOf, List.countP_filter, List.countP_filter, ← hperm,
    List.countP_append, h.existing, List.countP_eq_length.2]
  intro v hv
  obtain ⟨hmem, hidle⟩ := hdone v hv
  obtain ⟨-, hresource⟩ := List.mem_filter.1 hmem
  exact Bool.and_eq_true_iff.2 ⟨(Bool.and_eq_true_iff.1 hidle).1, hresource⟩

/-- The loop over the existing VMs of a resource. It raises if the busy dynamic VMs exceed the
limit, and only then. -/
theorem ends_trimExisting {cfg : Config} {calls : ℕ → DestroyCall} {limit : ℤ}
    (hknown : resource ∈ s.resources.names) :
    Ends ((trimOverused calls limit 0 (s.dynamicOf resource)
        (s.existingOf resource).reverse).exec cfg) s
      (fun left s' ↦ s.busyDynamicOf resource ≤ limit ∧
        left = min (s.dynamicOf resource : ℤ) limit ∧ ∃ done, Discarded idleDestroy done s s' ∧
          done.length = s.dynamicOf resource - left ∧
          ∀ v ∈ done, v ∈ s.existingOf resource ∧ s.expendable v = true)
      fun e _ ↦ e = .indexError ∧ limit < s.busyDynamicOf resource := by
  have hsub : (s.existingOf resource).reverse.Subperm s.existing :=
    (List.reverse_perm _).subperm.trans List.filter_sublist.subperm
  have hnames : ∀ v ∈ (s.existingOf resource).reverse,
      (s.vms v).cloudResourceName ∈ s.resources.names := by
    intro v hv
    have hresource := (List.mem_filter.1 (List.mem_reverse.1 hv)).2
    rwa [of_decide_eq_true hresource]
  have hcount : (s.existingOf resource).reverse.countP s.expendable =
      (s.existingOf resource).countP s.expendable := List.countP_reverse
  have hsplit := dynamicOf_eq_add s resource
  rcases le_or_gt (s.busyDynamicOf resource : ℤ) limit with hbusy | hbusy
  · refine (ends_trimOverused_stops 0 _ hsub hnames ?_).mono ?_ fun _ _ h ↦ h.elim
    · rw [hcount]
      omega
    · rintro left s' ⟨hleft, done, h, hlength, hidle⟩
      exact ⟨hbusy, hleft, done, h, hlength, fun v hv ↦ (hidle v hv).imp_left List.mem_reverse.1⟩
  · refine (ends_trimOverused_raises 0 _ hsub hnames ?_).mono (fun _ _ h ↦ h.elim)
      fun _ _ he ↦ ⟨he, hbusy⟩
    rw [hcount]
    omega

/-- **The trim of a resource.** It does what it is for if and only if the busy dynamic VMs are
within the limit. Otherwise it raises. -/
theorem trimmed_iff (cfg : Config) (calls : ℕ → DestroyCall) (limit : ℤ) (s : State)
    (resource : String) (hknown : resource ∈ s.resources.names) :
    Ends ((trimResource calls limit (s.existingOf resource)).exec cfg) s
        (fun _ s' ↦ Trimmed resource limit s s') (fun _ _ ↦ False) ↔
      s.busyDynamicOf resource ≤ limit := by
  have hends : Ends ((trimResource calls limit (s.existingOf resource)).exec cfg) s
      (fun _ s' ↦ s.busyDynamicOf resource ≤ limit ∧ Trimmed resource limit s s')
      fun _ _ ↦ limit < s.busyDynamicOf resource := by
    rw [trimResource, Proc.exec, run_bind, ends_bind]
    refine (ends_countDynamic _).mono ?_ fun _ _ h ↦ h.elim
    rintro num _ ⟨rfl, rfl⟩
    rename_i s
    refine (ends_trimExisting hknown).mono ?_ fun _ _ h ↦ h.2
    rintro left s' ⟨hbusy, hleft, done, h, hlength, hdone⟩
    have hfewer := h.dynamicOf hdone
    have hsplit := dynamicOf_eq_add s resource
    refine ⟨hbusy, ⟨done, h.deleting, h.existing, hdone⟩, ?_⟩
    omega
  constructor
  · intro h
    by_contra hbusy
    exact ((h.and hends).mono (fun _ _ h ↦ hbusy h.2.1) fun _ _ h ↦ h.1).elim
  · intro hbusy
    exact hends.mono (fun _ _ h ↦ h.2) fun _ _ h ↦ absurd hbusy (not_le.2 h)

end Resource

/-- One dynamic VM of the default resource, whose node has a job. -/
def oneBusyDynamic : State :=
  { State.initial JobScheduler.threeNodes with
    existing := [0]
    nextVm := 1
    cluster := { (State.initial JobScheduler.threeNodes).cluster with
      workerNodes := [⟨"wn1", "job-exclusive", some "0/1.server"⟩] }
    vms := fun _ ↦ VM.init "id" "wn1" 4 (some (.id "3")) 0 none (some "image") "default" }

/-- Two dynamic VMs of the default resource; the node of the first has a job, the other is idle. -/
def busyAndIdle : State :=
  { State.initial JobScheduler.threeNodes with
    existing := [0, 1]
    nextVm := 2
    cluster := { (State.initial JobScheduler.threeNodes).cluster with
      workerNodes := [⟨"wn1", "job-exclusive", some "0/1.server"⟩, ⟨"wn2", "free", none⟩] }
    vms := fun v ↦
      VM.init "id" (if v = 0 then "wn1" else "wn2") 4 (some (.id "3")) 0 none (some "image")
        "default" }

/-- The idle VM goes if one is allowed, and the loop raises if none is. -/
theorem trimmed_iff_busyAndIdle :
    Ends ((trimResource (fun _ ↦ ⟨.deleted, 0⟩) 1 (busyAndIdle.existingOf "default")).exec {})
        busyAndIdle (fun _ s' ↦ Trimmed "default" 1 busyAndIdle s') (fun _ _ ↦ False) ∧
      ¬Ends ((trimResource (fun _ ↦ ⟨.deleted, 0⟩) 0 (busyAndIdle.existingOf "default")).exec {})
        busyAndIdle (fun _ s' ↦ Trimmed "default" 0 busyAndIdle s') (fun _ _ ↦ False) := by
  refine ⟨(trimmed_iff {} _ 1 busyAndIdle "default" (by decide)).2 (by decide), fun h ↦ ?_⟩
  exact absurd ((trimmed_iff {} _ 0 busyAndIdle "default" (by decide)).1 h) (by decide)

/-- With the limit lowered to none the loop raises. -/
theorem busy_not_trimmed :
    ¬∀ (cfg : Config) (calls : ℕ → DestroyCall) (limit : ℤ) (s : State) (resource : String),
      resource ∈ s.resources.names → 0 ≤ limit →
      Ends ((trimResource calls limit (s.existingOf resource)).exec cfg) s
        (fun _ s' ↦ Trimmed resource limit s s') (fun _ _ ↦ False) := by
  intro h
  have hends := h {} (fun _ ↦ ⟨.deleted, 0⟩) 0 oneBusyDynamic "default" (by decide) le_rfl
  have hraised : raised ((trimResource (fun _ ↦ ⟨.deleted, 0⟩) 0
      (oneBusyDynamic.existingOf "default")).exec {}) oneBusyDynamic = some .indexError := by
    decide +kernel
  exact of_raised hends hraised

end DynamicTorque
