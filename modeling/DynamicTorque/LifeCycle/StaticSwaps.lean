import DynamicTorque.LifeCycle.Footprints
import DynamicTorque.Model.StartUp
import DynamicTorque.Scheduler.Packing

/-!
# Idle checks keep the static workforce

When `check_existing_worker_nodes` finds an idle static VM it looks for a busy dynamic VM of the
same size, zone and resource. That one becomes static, and the idle one is shut down in its place.
In the same scan idle dynamic VMs are shut down as well, and nodes that are drained or down are
moved to the deleting list.

* `ends_checkWorker_rebalances`: what one visit does to the lists and to the static flags.
* `static_workers_kept`: how many static VMs exist or are being deleted, for each resource and zone,
  and that each one that was shut down has been replaced.
-/

open Python Atomic Program

namespace DynamicTorque

/-! ### Counting -/

section Count

variable {α : Type} [DecidableEq α] {p q : α → Bool} {xs : List α} {x y : α}

theorem countP_eq_erase_add (p : α → Bool) (hx : x ∈ xs) :
    xs.countP p = (xs.erase x).countP p + if p x then 1 else 0 := by
  rw [(List.perm_cons_erase hx).countP_eq p, List.countP_cons]

/-- An element that does not count is taken out. -/
theorem countP_erase_of_neg (hx : p x = false) : (xs.erase x).countP p = xs.countP p := by
  by_cases hmem : x ∈ xs
  · rw [countP_eq_erase_add p hmem, hx, if_neg Bool.false_ne_true, Nat.add_zero]
  · rw [List.erase_of_not_mem hmem]

/-- An element is taken out of a list and another one counts in its place. -/
theorem countP_exchange (hnodup : xs.Nodup) (hx : x ∈ xs) (hy : y ∈ xs) (hne : y ≠ x)
    (hold : p y = false) (hnew : q y = p x) (hsame : ∀ z ∈ xs, z ≠ x → z ≠ y → q z = p z) :
    (xs.erase x).countP q = xs.countP p := by
  have hy' : y ∈ xs.erase x := (List.mem_erase_of_ne hne).2 hy
  have hrest : ((xs.erase x).erase y).countP q = ((xs.erase x).erase y).countP p := by
    refine List.countP_congr fun z hz ↦ ?_
    have hzx := (hnodup.erase x).mem_erase_iff.1 hz
    have hz' := hnodup.mem_erase_iff.1 hzx.2
    rw [hsame z hz'.2 hz'.1 hzx.1]
  calc (xs.erase x).countP q
      = ((xs.erase x).erase y).countP p + if p x then 1 else 0 := by
        rw [countP_eq_erase_add q hy', hrest, hnew]
    _ = (xs.erase x).countP p + if p x then 1 else 0 := by rw [countP_erase_of_neg hold]
    _ = xs.countP p := (countP_eq_erase_add p hx).symm

end Count

/-! ### One visit -/

/-- What no check changes about a VM. -/
def VM.worker (vm : VM) : String × String × Option String × ℤ :=
  (vm.hostname, vm.cloudResourceName, vm.availabilityZone, vm.vcpuNumber)

/-- A VM can take the place of another one: it has as many cores in the same zone and resource. -/
structure VM.SamePlace (vm other : VM) : Prop where
  cores : other.vcpuNumber = vm.vcpuNumber
  zone : other.availabilityZone = vm.availabilityZone
  resource : other.cloudResourceName = vm.cloudResourceName

/-- Torque lists jobs on the node of a VM. -/
def State.Busy (s : State) (w : VmRef) : Prop :=
  ∃ wn ∈ s.cluster.workerNodes, wn.name = (s.vms w).hostname ∧ wn.jobs.isSome

/-- The idle static VM `v` is shut down, and the busy dynamic VM `w` is static in its place. -/
structure Swapped (v w : VmRef) (s s' : State) : Prop where
  static : (s.vms v).dynamic = false
  exists_other : w ∈ s.existing
  dynamic : (s.vms w).dynamic = true
  same : (s.vms v).SamePlace (s.vms w)
  busy : s.Busy w
  existing : s'.existing = s.existing.erase v
  deleting : s'.deleting = s.deleting
  becomes : (s'.vms w).dynamic = false
  others : ∀ u, u ≠ v → u ≠ w → (s'.vms u).dynamic = (s.vms u).dynamic

/-- What a visit does to the lists and to the VMs. -/
inductive Rebalances (s s' : State) : Prop
  | kept (hexisting : s'.existing = s.existing) (hdeleting : s'.deleting = s.deleting)
    (hdynamic : ∀ u, (s'.vms u).dynamic = (s.vms u).dynamic)
  | moved {v : VmRef} (hmem : v ∈ s.existing) (hexisting : s'.existing = s.existing.erase v)
    (hdeleting : s'.deleting = s.deleting ++ [v])
    (hdynamic : ∀ u, (s'.vms u).dynamic = (s.vms u).dynamic)
  | dropped {v : VmRef} (hidle : (s.vms v).dynamic = true)
    (hexisting : s'.existing = s.existing.erase v) (hdeleting : s'.deleting = s.deleting)
    (hdynamic : ∀ u, (s'.vms u).dynamic = (s.vms u).dynamic)
  | swapped {v w : VmRef} (hmem : v ∈ s.existing) (h : Swapped v w s s')

/-- VMs that do not exist are left alone. -/
def LeavesOthers (s s' : State) : Prop :=
  ∀ u, u ∉ s.existing → s'.vms u = s.vms u

section Visit

variable {cfg : Config} {answers : WorkerAnswers} {wn : WorkerNode} {v w : VmRef}
  {s s₁ s' : State}

theorem Swapped.ne (h : Swapped v w s s') : w ≠ v := fun heq ↦
  absurd (h.static.symm.trans (heq ▸ h.dynamic)) Bool.false_ne_true

theorem OnlyVm.leavesOthers (hmem : v ∈ s.existing) (h : OnlyVm v s s') : LeavesOthers s s' :=
  fun u hu ↦ h.others u fun heq ↦ hu (heq ▸ hmem)

theorem OnlyVm.flags (h : OnlyVm v s s') (u : VmRef) :
    (s'.vms u).dynamic = (s.vms u).dynamic := by
  by_cases hu : u = v
  · rw [hu, h.dynamic]
  · rw [h.others u hu]

/-- What is only looked at stays. -/
theorem Swapped.looked {destroys : Destroys} (h : Swapped v w s s₁)
    (h' : Scanned ⟨destroys, fun _ ↦ False⟩ s₁ s') : Swapped v w s s' :=
  { h with
    existing := h'.existing.trans h.existing
    deleting := h'.deleting.trans h.deleting
    becomes := (h'.vm w).dynamic.trans h.becomes
    others := fun u hv hw ↦ (h'.vm u).dynamic.trans (h.others u hv hw) }

/-- **The search for a swap.** -/
theorem ends_swapStatic_swapped {call : DestroyCall} (hmem : v ∈ s.existing)
    (hknown : (s.vms v).cloudResourceName ∈ s.resources.names) (hjobs : wn.jobs = none)
    (hstatic : (s.vms v).dynamic = false) {wns : List WorkerNode}
    (hwns : ∀ otherWn ∈ wns, otherWn ∈ s.cluster.workerNodes) :
    Ends ((swapStatic cfg call wn v wns).exec cfg) s
      (fun _ s' ↦ s' = s ∨ (∃ w, Swapped v w s s') ∧ LeavesOthers s s')
      fun _ s' ↦ LeavesOthers s s' := by
  induction wns with
  | nil => exact .inl rfl
  | cons otherWn rest ih =>
    rw [List.forall_mem_cons] at hwns
    have hrest := ih hwns.2
    rw [swapStatic]
    split
    · rename_i hother
      rw [ends_findVm]
      split
      · exact hrest
      · rename_i w hfound
        rw [ends_vm, ends_vm]
        split
        · rename_i hsame
          have hname : (s.vms w).hostname = otherWn.name := by
            simpa using List.find?_some hfound
          have hne : w ≠ v := fun heq ↦
            absurd (hstatic.symm.trans (heq ▸ hsame.1)) Bool.false_ne_true
          rw [ends_setVm, ends_setVm]
          -- both VMs of the swap exist
          have hothers : ∀ {s'}, OnlyVm v ((s.setVm v fun vm ↦ { vm with dynamic := true }).setVm w
              fun vm ↦ { vm with dynamic := false }) s' → LeavesOthers s s' := by
            intro s' h u hu
            have hv : u ≠ v := fun heq ↦ hu (heq ▸ hmem)
            have hw : u ≠ w := fun heq ↦ hu (heq ▸ mem_existing_of_findVm hfound)
            rw [h.others u hv]
            simp [State.setVm, hv, hw]
          refine (ends_shutDownIdle_onlyVm ?_ ?_ hjobs).mono
            (fun _ s' h ↦ .inr ⟨⟨w, ?_⟩, hothers h.2⟩) fun _ _ h ↦ hothers (.of_scanned h.2)
          · exact hmem
          · simpa [State.setVm, hne.symm] using hknown
          · exact
              { static := hstatic
                exists_other := mem_existing_of_findVm hfound
                dynamic := hsame.1
                same := ⟨hsame.2.1, hsame.2.2.1, hsame.2.2.2⟩
                busy := ⟨otherWn, hwns.1, hname.symm, hother.2⟩
                existing := h.1.existing
                deleting := h.1.deleting
                becomes := by
                  rw [h.2.others w hne]
                  simp [State.setVm]
                others := fun u hv hw ↦ by
                  rw [h.2.others u hv]
                  simp [State.setVm, hv, hw] }
        · exact hrest
    · exact hrest

/-- **An idle worker**, with what becomes of the other VMs. -/
theorem ends_shutDownOrSwap_rebalances {call : DestroyCall} (hmem : v ∈ s.existing)
    (hknown : (s.vms v).cloudResourceName ∈ s.resources.names) (hjobs : wn.jobs = none) :
    Ends ((shutDownOrSwap cfg call wn v).exec cfg) s
      (fun _ s' ↦ Rebalances s s' ∧ LeavesOthers s s') fun _ s' ↦ LeavesOthers s s' := by
  rw [shutDownOrSwap, ends_vm]
  split
  · rename_i hdynamic
    refine (ends_shutDownIdle_onlyVm hmem hknown hjobs).mono (fun _ s' h ↦ ?_)
      fun _ _ h ↦ (OnlyVm.of_scanned h.2).leavesOthers hmem
    exact ⟨.dropped hdynamic h.1.existing h.1.deleting h.2.flags, h.2.leavesOthers hmem⟩
  · rename_i hstatic
    have hwarn : Scanning (.looking fun _ ↦ False) (warnBaseFlavor v) fun _ ↦ True :=
      scanning_warnBaseFlavor v
    have hlooked : ∀ {s'}, Scanned (.looking fun _ ↦ False) s s' →
        Rebalances s s' ∧ LeavesOthers s s' := fun h ↦
      ⟨.kept h.existing h.deleting fun u ↦ (h.vm u).dynamic, fun u _ ↦ h.untouched u id⟩
    rw [ends_cluster, Program.when]
    split
    · rw [Proc.exec, run_bind, ends_bind]
      have hswap : Ends ((swapStatic cfg call wn v s.cluster.workerNodes).exec cfg) s
          (fun _ s' ↦ s' = s ∨ (∃ w, Swapped v w s s') ∧ LeavesOthers s s')
          fun _ s' ↦ LeavesOthers s s' :=
        ends_swapStatic_swapped hmem hknown hjobs (by simpa using hstatic) fun _ h ↦ h
      refine (ends_cluster.2 hswap).mono ?_ fun _ _ h ↦ h
      rintro - s₁ (rfl | ⟨⟨w, h₁⟩, hothers⟩)
      · exact (ends_of_scanning hwarn s₁).mono (fun _ _ h ↦ hlooked h.2)
          fun _ _ h ↦ (hlooked h.2).2
      · have hstill : ∀ {s'}, Scanned (.looking fun _ ↦ False) s₁ s' → LeavesOthers s s' :=
          fun h u hu ↦ (h.untouched u id).trans (hothers u hu)
        exact (ends_of_scanning hwarn s₁).mono
          (fun _ _ h ↦ ⟨.swapped hmem (h₁.looked h.2), hstill h.2⟩) fun _ _ h ↦ hstill h.2
    · exact (ends_of_scanning hwarn s).mono (fun _ _ h ↦ hlooked h.2) fun _ _ h ↦ (hlooked h.2).2

/-- The report that a visit records first makes no difference. -/
theorem Observed.rebalances (h : Observed cfg answers v s s₁) (h' : Rebalances s₁ s') :
    Rebalances s s' := by
  have hflags : ∀ u, (s₁.vms u).dynamic = (s.vms u).dynamic := fun u ↦ (h.scanned.vm u).dynamic
  cases h' with
  | kept hexisting hdeleting hdynamic =>
    exact .kept (hexisting.trans h.scanned.existing) (hdeleting.trans h.scanned.deleting)
      fun u ↦ (hdynamic u).trans (hflags u)
  | moved hmem hexisting hdeleting hdynamic =>
    rw [h.scanned.existing] at hmem hexisting
    rw [h.scanned.deleting] at hdeleting
    exact .moved hmem hexisting hdeleting fun u ↦ (hdynamic u).trans (hflags u)
  | dropped hidle hexisting hdeleting hdynamic =>
    rw [h.scanned.existing] at hexisting
    exact .dropped ((hflags _).symm.trans hidle) hexisting
      (hdeleting.trans h.scanned.deleting) fun u ↦ (hdynamic u).trans (hflags u)
  | @swapped u w hmem h' =>
    rw [h.scanned.existing] at hmem
    obtain ⟨wn, hwn, hname, hjobs⟩ := h'.busy
    exact .swapped hmem
      { static := (hflags u).symm.trans h'.static
        exists_other := h.scanned.existing ▸ h'.exists_other
        dynamic := (hflags w).symm.trans h'.dynamic
        same :=
          { cores := by rw [← (h.same w).1, ← (h.same u).1, h'.same.cores]
            zone := by rw [← (h.same w).2, ← (h.same u).2, h'.same.zone]
            resource := by
              rw [← (h.scanned.vm w).resource, ← (h.scanned.vm u).resource, h'.same.resource] }
        busy := ⟨wn, h.cluster ▸ hwn, hname.trans (h.scanned.vm w).hostname, hjobs⟩
        existing := by rw [h'.existing, h.scanned.existing]
        deleting := h'.deleting.trans h.scanned.deleting
        becomes := h'.becomes
        others := fun x hu hw ↦ (h'.others x hu hw).trans (hflags x) }

/-- **One visit.** -/
theorem ends_checkWorker_rebalances : Ends ((checkWorker cfg answers wn).exec cfg) s
    (fun _ s' ↦ Rebalances s s' ∧ LeavesOthers s s') fun _ s' ↦ LeavesOthers s s' := by
  rw [checkWorker, ends_findVm]
  split
  · exact ⟨.kept rfl rfl fun _ ↦ rfl, fun _ _ ↦ rfl⟩
  · rename_i v hfound
    have hmem : v ∈ s.existing := mem_existing_of_findVm hfound
    have hothers : ∀ {s₁}, Scanned (.looking (· = v)) s s₁ → LeavesOthers s s₁ :=
      fun h u hu ↦ h.untouched u fun heq ↦ hu (heq ▸ hmem)
    refine ends_observe (fun s₁ h₁ ↦ ?_) fun _ _ _ h₁ ↦ hothers h₁
    have htrans : ∀ {s'}, LeavesOthers s₁ s' → LeavesOthers s s' := fun h u hu ↦
      (h u (h₁.scanned.existing ▸ hu)).trans (hothers h₁.scanned u hu)
    have hknown : (s₁.vms v).cloudResourceName ∈ s₁.resources.names := by
      rw [(h₁.scanned.vm v).resource, h₁.scanned.resources]
      exact h₁.known
    have hmem₁ : v ∈ s₁.existing := h₁.mem_existing hfound
    have hkept : Rebalances s s₁ ∧ LeavesOthers s s₁ :=
      ⟨h₁.rebalances (.kept rfl rfl fun _ ↦ rfl), hothers h₁.scanned⟩
    split
    · rename_i hjobs
      rw [Proc.exec, run_bind, ends_bind, checkIdleWorker, ends_vm]
      split
      · rw [Proc.exec, run_bind, ends_bind]
        exact (ends_shutDownOrSwap_rebalances hmem₁ hknown hjobs).mono
          (fun _ _ h ↦ ⟨h₁.rebalances h.1, htrans h.2⟩) fun _ _ h ↦ htrans h
      · have hmove : ∀ toDelete : Bool, Ends ((Program.when (toDelete = true)
            (Proc.locked (.existingToDeleting v))).run (exec cfg)) s₁
            (fun _ s' ↦ Rebalances s s' ∧ LeavesOthers s s') fun _ s' ↦ LeavesOthers s s' := by
          intro toDelete
          rw [Program.when]
          split
          · refine ends_block.2 ((ends_existingToDeleting hmem₁).2 ⟨h₁.rebalances ?_, hkept.2⟩)
            exact .moved hmem₁ rfl rfl fun _ ↦ rfl
          · exact hkept
        split
        · exact hmove true
        · cases answers.checkNode with
          | none => exact hmove false
          | some state => exact hmove _
    · exact hkept

end Visit

/-! ### All visits -/

/-- A VM is static, of this resource and in this zone. -/
def State.isStatic (s : State) (resource : String) (zone : Option String) (v : VmRef) : Bool :=
  (s.vms v).dynamic = false ∧ (s.vms v).cloudResourceName = resource ∧
    (s.vms v).availabilityZone = zone

/-- The static VMs of a resource in a zone, among those that exist or are being deleted. -/
def State.staticWorkers (s : State) (resource : String) (zone : Option String) : ℕ :=
  (s.existing ++ s.deleting).countP (s.isStatic resource zone)

/-- From `s` to `s'` the busy VM `w` has become static in the place of `v`. -/
structure TakesPlace (s s' : State) (v w : VmRef) : Prop where
  existed : w ∈ s.existing
  remains : w ∈ s'.existing ++ s'.deleting
  dynamic : (s.vms w).dynamic = true
  static : (s'.vms w).dynamic = false
  same : (s.vms v).SamePlace (s.vms w)
  busy : s.Busy w

/-- What holds throughout the visits of a check. -/
structure Balanced (s s' : State) : Prop where
  worker : ∀ u, (s'.vms u).worker = (s.vms u).worker
  cluster : s'.cluster = s.cluster
  existing : s'.existing.Sublist s.existing
  apart : s'.existing.Disjoint s'.deleting
  flags : ∀ u ∈ s'.existing, (s.vms u).dynamic = false → (s'.vms u).dynamic = false
  count : ∀ resource zone, s'.staticWorkers resource zone = s.staticWorkers resource zone
  replaced : ∀ v ∈ s.existing, (s.vms v).dynamic = false →
    v ∈ s'.existing ++ s'.deleting ∨ ∃ w, TakesPlace s s' v w

section Visits

variable {cfg : Config} {v w : VmRef} {s s₁ s' : State}

theorem isStatic_congr (hworker : (s'.vms v).worker = (s.vms v).worker)
    (hdynamic : (s'.vms v).dynamic = (s.vms v).dynamic) (resource : String)
    (zone : Option String) : s'.isStatic resource zone v = s.isStatic resource zone v := by
  simp only [VM.worker, Prod.mk.injEq] at hworker
  rw [State.isStatic, State.isStatic, hdynamic, hworker.2.1, hworker.2.2.1]

/-- **One visit** leaves the numbers of static VMs unchanged. -/
theorem Rebalances.staticWorkers (h : Rebalances s s')
    (hworker : ∀ u, (s'.vms u).worker = (s.vms u).worker) (hnodup : s.existing.Nodup)
    (hdisjoint : s.existing.Disjoint s.deleting) (resource : String) (zone : Option String) :
    s'.staticWorkers resource zone = s.staticWorkers resource zone := by
  -- VMs whose flag is unchanged
  have hsame : ∀ {xs : List VmRef}, (∀ u ∈ xs, (s'.vms u).dynamic = (s.vms u).dynamic) →
      xs.countP (s'.isStatic resource zone) = xs.countP (s.isStatic resource zone) := by
    intro xs hflags
    refine List.countP_congr fun u hu ↦ ?_
    rw [isStatic_congr (hworker u) (hflags u hu)]
  rw [State.staticWorkers, State.staticWorkers]
  cases h with
  | kept hexisting hdeleting hdynamic =>
    rw [hexisting, hdeleting]
    exact hsame fun u _ ↦ hdynamic u
  | @moved v hmem hexisting hdeleting hdynamic =>
    have hperm : (s.existing.erase v ++ (s.deleting ++ [v])).Perm (s.existing ++ s.deleting) := by
      rw [← List.append_assoc]
      exact (List.perm_append_singleton _ _).trans
        ((List.perm_cons_erase hmem).symm.append_right s.deleting)
    rw [hexisting, hdeleting, hsame fun u _ ↦ hdynamic u]
    exact hperm.countP_eq _
  | @dropped v hidle hexisting hdeleting hdynamic =>
    have hneg : s.isStatic resource zone v = false := by simp [State.isStatic, hidle]
    rw [hexisting, hdeleting, hsame fun u _ ↦ hdynamic u, List.countP_append, List.countP_append,
      countP_erase_of_neg hneg]
  | @swapped v w hmem h =>
    have hold : s.isStatic resource zone w = false := by simp [State.isStatic, h.dynamic]
    have hnew : s'.isStatic resource zone w = s.isStatic resource zone v := by
      have hw := hworker w
      simp only [VM.worker, Prod.mk.injEq] at hw
      rw [State.isStatic, State.isStatic, h.becomes, h.static, hw.2.1, hw.2.2.1, h.same.resource,
        h.same.zone]
    have hexisting : (s.existing.erase v).countP (s'.isStatic resource zone) =
        s.existing.countP (s.isStatic resource zone) := by
      refine countP_exchange hnodup hmem h.exists_other h.ne hold hnew fun u _ hv hw ↦ ?_
      exact isStatic_congr (hworker u) (h.others u hv hw) resource zone
    have hdeleting : s.deleting.countP (s'.isStatic resource zone) =
        s.deleting.countP (s.isStatic resource zone) := by
      refine hsame fun u hu ↦ h.others u ?_ ?_
      · exact fun heq ↦ hdisjoint hmem (heq ▸ hu)
      · exact fun heq ↦ hdisjoint h.exists_other (heq ▸ hu)
    rw [h.existing, h.deleting, List.countP_append, List.countP_append, hexisting, hdeleting]

theorem samePlace_trans {vm₁ vm₂ vm₃ : VM} (h : vm₁.SamePlace vm₂) (h' : vm₂.SamePlace vm₃) :
    vm₁.SamePlace vm₃ :=
  ⟨h'.cores.trans h.cores, h'.zone.trans h.zone, h'.resource.trans h.resource⟩

theorem samePlace_congr {vm₁ vm₂ vm₁' vm₂' : VM} (h : vm₁.SamePlace vm₂)
    (h₁ : vm₁'.worker = vm₁.worker) (h₂ : vm₂'.worker = vm₂.worker) : vm₁'.SamePlace vm₂' := by
  simp only [VM.worker, Prod.mk.injEq] at h₁ h₂
  exact
    { cores := by rw [h₁.2.2.2, h₂.2.2.2, h.cores]
      zone := by rw [h₁.2.2.1, h₂.2.2.1, h.zone]
      resource := by rw [h₁.2.1, h₂.2.1, h.resource] }

theorem Balanced.refl (hdisjoint : s.existing.Disjoint s.deleting) : Balanced s s where
  worker := fun _ ↦ rfl
  cluster := rfl
  existing := .refl _
  apart := hdisjoint
  flags := fun _ _ h ↦ h
  count := fun _ _ ↦ rfl
  replaced := fun _ hv _ ↦ .inl (List.mem_append_left _ hv)

/-- The lists after a visit. -/
theorem Rebalances.lists (h : Rebalances s s') (hnodup : s.existing.Nodup)
    (hdisjoint : s.existing.Disjoint s.deleting) :
    s'.existing.Sublist s.existing ∧ s'.existing.Disjoint s'.deleting := by
  have herase : ∀ v, (s.existing.erase v).Disjoint s.deleting := fun v u hu ↦
    hdisjoint (List.mem_of_mem_erase hu)
  cases h with
  | kept hexisting hdeleting hdynamic =>
    rw [hexisting, hdeleting]
    exact ⟨.refl _, hdisjoint⟩
  | @moved v hmem hexisting hdeleting hdynamic =>
    rw [hexisting, hdeleting, List.disjoint_append_right]
    refine ⟨List.erase_sublist, herase v, List.disjoint_singleton.2 ?_⟩
    exact fun hv ↦ (hnodup.mem_erase_iff.1 hv).1 rfl
  | @dropped v hidle hexisting hdeleting hdynamic =>
    rw [hexisting, hdeleting]
    exact ⟨List.erase_sublist, herase v⟩
  | @swapped v w hmem h =>
    rw [h.existing, h.deleting]
    exact ⟨List.erase_sublist, herase v⟩

/-- A static VM that is still there after a visit is still static. -/
theorem Rebalances.static (h : Rebalances s s') (hnodup : s.existing.Nodup)
    (hdisjoint : s.existing.Disjoint s.deleting) (hv : v ∈ s'.existing ++ s'.deleting)
    (hstatic : (s.vms v).dynamic = false) : (s'.vms v).dynamic = false := by
  cases h with
  | kept hexisting hdeleting hdynamic => exact (hdynamic v).trans hstatic
  | moved hmem hexisting hdeleting hdynamic => exact (hdynamic v).trans hstatic
  | dropped hidle hexisting hdeleting hdynamic => exact (hdynamic v).trans hstatic
  | @swapped u w hmem h =>
    by_cases hw : v = w
    · exact hw ▸ h.becomes
    · refine (h.others v ?_ hw).trans hstatic
      rw [h.existing, h.deleting] at hv
      rcases List.mem_append.1 hv with hold | hold
      · exact (hnodup.mem_erase_iff.1 hold).1
      · exact fun heq ↦ hdisjoint hmem (heq ▸ hold)

/-- What becomes of a VM in a visit. -/
theorem Rebalances.stays (h : Rebalances s s') (hv : v ∈ s.existing ++ s.deleting) :
    v ∈ s'.existing ++ s'.deleting ∨ (v ∈ s.existing ∧ (s.vms v).dynamic = true) ∨
      ∃ w, Swapped v w s s' := by
  rw [List.mem_append] at hv ⊢
  cases h with
  | kept hexisting hdeleting hdynamic =>
    rw [hexisting, hdeleting]
    exact .inl hv
  | @moved u hmem hexisting hdeleting hdynamic =>
    rw [hexisting, hdeleting, List.mem_append, List.mem_singleton]
    by_cases hu : v = u
    · exact .inl (.inr (.inr hu))
    · exact .inl (hv.imp (fun h ↦ (List.mem_erase_of_ne hu).2 h) .inl)
  | @dropped u hidle hexisting hdeleting hdynamic =>
    rw [hexisting, hdeleting]
    rcases hv with hv | hv
    · by_cases hu : v = u
      · exact .inr (.inl ⟨hv, hu ▸ hidle⟩)
      · exact .inl (.inl ((List.mem_erase_of_ne hu).2 hv))
    · exact .inl (.inr hv)
  | @swapped u w hmem h =>
    by_cases hu : v = u
    · exact .inr (.inr ⟨w, hu ▸ h⟩)
    · rw [h.existing, h.deleting]
      exact .inl (hv.imp_left fun h ↦ (List.mem_erase_of_ne hu).2 h)

/-- **One visit** keeps the balance. -/
theorem Balanced.visit (h : Balanced s s₁) (h' : Rebalances s₁ s')
    (hworker : ∀ u, (s'.vms u).worker = (s₁.vms u).worker) (hcluster : s'.cluster = s₁.cluster)
    (hnodup : s.existing.Nodup) : Balanced s s' := by
  have hnodup₁ : s₁.existing.Nodup := hnodup.sublist h.existing
  obtain ⟨hexisting, hapart⟩ := h'.lists hnodup₁ h.apart
  have hdynamic : ∀ u ∈ s₁.existing, (s₁.vms u).dynamic = true → (s.vms u).dynamic = true := by
    intro u hu htrue
    by_contra hfalse
    have hstatic := h.flags u hu (by simpa using hfalse)
    exact absurd (hstatic.symm.trans htrue) Bool.false_ne_true
  -- the VM that takes a place in this visit
  have htakes : ∀ {v w}, Swapped v w s₁ s' → TakesPlace s s' v w := by
    intro v w hswap
    obtain ⟨wn, hwn, hname, hjobs⟩ := hswap.busy
    have hhostname : (s₁.vms w).hostname = (s.vms w).hostname := congrArg Prod.fst (h.worker w)
    exact
      { existed := h.existing.subset hswap.exists_other
        remains := List.mem_append_left _
          (hswap.existing ▸ (List.mem_erase_of_ne hswap.ne).2 hswap.exists_other)
        dynamic := hdynamic w hswap.exists_other hswap.dynamic
        static := hswap.becomes
        same := samePlace_congr hswap.same (h.worker v).symm (h.worker w).symm
        busy := ⟨wn, h.cluster ▸ hwn, hname.trans hhostname, hjobs⟩ }
  refine
    { worker := fun u ↦ (hworker u).trans (h.worker u)
      cluster := hcluster.trans h.cluster
      existing := hexisting.trans h.existing
      apart := hapart
      flags := fun u hu hstatic ↦ ?_
      count := fun resource zone ↦
        (h'.staticWorkers hworker hnodup₁ h.apart resource zone).trans (h.count resource zone)
      replaced := fun v hv hstatic ↦ ?_ }
  · exact h'.static hnodup₁ h.apart (List.mem_append_left _ hu)
      (h.flags u (hexisting.subset hu) hstatic)
  · rcases h.replaced v hv hstatic with hstill | ⟨w, hw⟩
    · rcases h'.stays hstill with hstill | ⟨hmem, htrue⟩ | ⟨w, hswap⟩
      · exact .inl hstill
      · exact absurd (hstatic.symm.trans (hdynamic v hmem htrue)) Bool.false_ne_true
      · exact .inr ⟨w, htakes hswap⟩
    · rcases h'.stays hw.remains with hstill | ⟨-, htrue⟩ | ⟨x, hswap⟩
      · exact .inr ⟨w, { hw with
          remains := hstill
          static := h'.static hnodup₁ h.apart hstill hw.static }⟩
      · exact absurd (hw.static.symm.trans htrue) Bool.false_ne_true
      · have hx := htakes hswap
        exact .inr ⟨x, { hx with same := samePlace_trans hw.same hx.same }⟩

/-- A check queries nothing. -/
theorem keeps_cluster {β : Type} (cfg : Config) (g : VM → β) (cluster : Cluster) :
    Keeps (exec cfg) (Act.Releases g) (fun s ↦ s.cluster = cluster) fun _ ↦ True := by
  intro a ha s hs
  have hremove : ∀ (L : ListName) (w : VmRef) (s : State), s.cluster = cluster →
      Ends (Locked.removeFrom L w) s (fun _ s' ↦ s'.cluster = cluster)
        fun _ s' ↦ True ∧ s'.cluster = cluster := by
    intro L w s hs
    rw [Locked.removeFrom, ends_bind, ends_get]
    refine ends_bind.2 (ends_lift (fun xs _ ↦ ?_) fun _ _ ↦ ⟨trivial, hs⟩)
    cases L <;> exact hs
  cases a with
  | locked b =>
    cases b with
    | dropExisting w => exact hremove .existing w s hs
    | existingToDeleting w =>
      show Ends (Locked.append .deleting w >>= fun _ ↦ Locked.removeFrom .existing w) s _ _
      exact ends_bind.2 (ends_append.2 (hremove .existing w _ hs))
    | drain L => cases L <;> exact hs
    | updateAvailableCores => exact hs
    | _ => exact ha.elim
  | list _ | findVm _ | vm _ | cluster | resources => exact hs
  | setVm _ _ | emit _ | setProvisioning _ => exact hs
  | _ => exact ha.elim

/-- **A check** keeps the balance, if it returns. -/
theorem ends_checkExistingWorkerNodes_balanced {answers : ℕ → WorkerAnswers}
    (hnodup : s.existing.Nodup) (hdisjoint : s.existing.Disjoint s.deleting) :
    Ends ((checkExistingWorkerNodes cfg answers).exec cfg) s (fun _ ↦ Balanced s)
      fun _ _ ↦ True := by
  rw [checkExistingWorkerNodes, ends_cluster, Proc.exec, run_bind, ends_bind]
  refine (ends_forEach (I := fun _ _ ↦ Balanced s) ?_ (.refl hdisjoint)).mono ?_ fun _ _ h ↦ h
  · rintro done wn rest - s₁ - h₁
    have hreleases : Releases VM.worker (checkWorker cfg (answers done.length) wn) :=
      releases_checkWorker (fun _ _ _ _ ↦ rfl) (fun _ _ _ ↦ rfl) _ wn
    have hcluster : Ends ((checkWorker cfg (answers done.length) wn).exec cfg) s₁
        (fun _ s' ↦ True ∧ s'.cluster = s₁.cluster) fun _ s' ↦ True ∧ s'.cluster = s₁.cluster :=
      ends_run_of_within (keeps_cluster cfg VM.worker s₁.cluster) hreleases rfl
    refine ((ends_checkWorker_rebalances.and hreleases.ends).and hcluster).mono
      (fun _ s' h ↦ ?_) fun _ _ _ ↦ trivial
    exact h₁.visit h.1.1.1 h.1.2.vm h.2.2 hnodup
  · intro _ s₁ h₁
    have hcores : Balanced s s₁.updateAvailableCores :=
      { h₁ with
        replaced := fun v hv hstatic ↦ (h₁.replaced v hv hstatic).imp_right
          (Exists.imp fun _ hw ↦ { hw with }) }
    exact ends_block.2 hcores

end Visits

/-- **Idle checks keep the static workforce.** A check that returns leaves the number of static VMs
that exist or are being deleted unchanged, for each resource and zone; and a static VM that was shut
down has been replaced by a busy dynamic one with as many cores in the same zone and resource. -/
theorem static_workers_kept (cfg : Config) (answers : ℕ → WorkerAnswers) (s s' : State)
    (hnodup : s.existing.Nodup) (hdisjoint : s.existing.Disjoint s.deleting)
    (hreturn : (checkExistingWorkerNodes cfg answers).exec cfg s = .ok () s') :
    (∀ resource zone, s'.staticWorkers resource zone = s.staticWorkers resource zone) ∧
      ∀ v ∈ s.existing, (s.vms v).dynamic = false →
        v ∈ s'.existing ++ s'.deleting ∨ ∃ w, TakesPlace s s' v w := by
  have h : Balanced s s' := (ends_checkExistingWorkerNodes_balanced hnodup hdisjoint).of_ok hreturn
  exact ⟨h.count, h.replaced⟩

/-- A static VM that has been idle for long enough, and a dynamic one with a job. -/
def idleAndBusy : State :=
  { State.initial JobScheduler.threeNodes with
    existing := [0, 1]
    nextVm := 2
    vms := fun v ↦
      if v = 0 then
        { VM.init "a" "wn1" 4 (some (.object ⟨"3", "m1.large", 4⟩)) 0 none (some "image")
            "default" with state := some "free", stateTime := some 600, dynamic := false }
      else VM.init "b" "wn2" 4 (some (.id "3")) 0 none (some "image") "default"
    cluster :=
      { (State.initial JobScheduler.threeNodes).cluster with
        runningJobs := [JobScheduler.singleNodeJob "1"]
        workerNodes := [⟨"wn1", "free", none⟩, ⟨"wn2", "free", some "0/1.server"⟩] } }

/-- Maui reports each node as free, and the server is deleted. -/
def freeAndDeleted (_ : ℕ) : WorkerAnswers where
  checkNode := some "free"
  destroy := ⟨.deleted, 0⟩

/-- The state after the check, which swaps the two. -/
def afterSwap : State :=
  stateAfter ((checkExistingWorkerNodes {} freeAndDeleted).exec {}) idleAndBusy

theorem static_workers_kept_idleAndBusy :
    (∀ resource zone, afterSwap.staticWorkers resource zone =
        idleAndBusy.staticWorkers resource zone) ∧
      ∀ v ∈ idleAndBusy.existing, (idleAndBusy.vms v).dynamic = false →
        v ∈ afterSwap.existing ++ afterSwap.deleting ∨
          ∃ w, TakesPlace idleAndBusy afterSwap v w :=
  static_workers_kept {} freeAndDeleted idleAndBusy afterSwap (by decide)
    (List.disjoint_nil_right _) rfl

end DynamicTorque
