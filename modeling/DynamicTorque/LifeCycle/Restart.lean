import DynamicTorque.LifeCycle.NodesFile
import DynamicTorque.LifeCycle.PersistentFile
import DynamicTorque.LifeCycle.StaticStartUp
import DynamicTorque.LifeCycle.Timeouts
import DynamicTorque.LifeCycle.Tracking

/-!
# Restarts

Nothing of the state survives the process but the persistent node file. The next process asks the
cloud for its servers and Torque for its nodes, and finds each worker again: a usable node goes on
existing, a worker that Torque has lost but the file remembers is added again, and everything else
is discarded. What may be missed is idle workers beyond the limit of their resource.

* `ends_loadResource_thins`: a resource is trimmed of idle dynamic VMs and of nothing else.
* `restart_recovers`: the lists after a start-up whose file the process before has dumped.
-/

open Python Atomic Program

namespace DynamicTorque

/-! ### What a restart has to decide -/

section Verdicts

variable (wns : List WorkerNode)

/-- The node of the VM in Torque. -/
def VM.node (vm : VM) : Option WorkerNode :=
  wns.find? fun wn ↦ wn.name = vm.hostname

/-- The VM has an address and its node can run jobs: it is neither offline nor down, and if it has
no jobs it was built from the image that is configured. -/
def VM.Usable (crs : CloudResources) (vm : VM) : Prop :=
  vm.ip ≠ none ∧ ∃ wn, vm.node wns = some wn ∧ wn.unavailable = false ∧
    (wn.jobs = none → vm.imageId = some (crs.object vm.cloudResourceName).imageUuid)

/-- The node of the VM has jobs. -/
def VM.Busy (vm : VM) : Prop :=
  ∃ wn, vm.node wns = some wn ∧ wn.jobs ≠ none

/-- The VM has an address and was a worker before, but Torque does not know it. -/
def VM.Lost (hostnames : List String) (vm : VM) : Prop :=
  vm.ip ≠ none ∧ vm.node wns = none ∧ vm.hostname ∈ hostnames

end Verdicts

/-- What a restart is for. Of the VMs that the cloud lists, those whose nodes have jobs go on
existing, those that Torque has lost are added again, and those of no use are discarded; an idle
worker may be discarded too. Nothing but VMs that are just launched comes in addition. -/
structure Recovered (hostnames : List String) (crs : CloudResources) (answers : StartUpAnswers)
    (s : State) : Prop where
  wellFormed : WellFormed s
  existing : ∀ v ∈ s.existing, v ∈ (State.listed crs answers).existing ∧
    ((State.listed crs answers).vms v).Usable answers.wnQuery.2 crs
  busy : ∀ v ∈ (State.listed crs answers).existing,
    ((State.listed crs answers).vms v).Usable answers.wnQuery.2 crs →
      ((State.listed crs answers).vms v).Busy answers.wnQuery.2 → v ∈ s.existing
  idle : ∀ v ∈ (State.listed crs answers).existing,
    ((State.listed crs answers).vms v).Usable answers.wnQuery.2 crs →
      v ∈ s.existing ∨ v ∈ s.deleting
  lost : ∀ v ∈ (State.listed crs answers).existing, v ∈ s.starting ↔
    ((State.listed crs answers).vms v).Lost answers.wnQuery.2 hostnames
  useless : ∀ v ∈ (State.listed crs answers).existing,
    ¬((State.listed crs answers).vms v).Usable answers.wnQuery.2 crs →
      ¬((State.listed crs answers).vms v).Lost answers.wnQuery.2 hostnames → v ∈ s.deleting
  deleting : ∀ v ∈ s.deleting, v ∈ (State.listed crs answers).existing
  starting : ∀ v ∈ s.starting, v ∈ (State.listed crs answers).existing ∨
    (State.listed crs answers).nextVm ≤ v

section Outcome

variable {persistentNodes : List String} {wns : List WorkerNode} {crs : CloudResources} {vm : VM}

/-- The three decisions about a VM. -/
theorem loadOutcome_cases (persistentNodes : List String) (wns : List WorkerNode)
    (crs : CloudResources) (vm : VM) :
    (loadOutcome persistentNodes wns crs vm = .kept ∧ vm.Usable wns crs) ∨
      (loadOutcome persistentNodes wns crs vm = .toStarting ∧ vm.Lost wns persistentNodes) ∨
      ∃ record, loadOutcome persistentNodes wns crs vm = .toDelete record ∧
        ¬vm.Usable wns crs ∧ ¬vm.Lost wns persistentNodes := by
  rw [loadOutcome]
  by_cases hip : vm.ip = none
  · exact .inr (.inr ⟨none, if_pos hip, fun h ↦ h.1 hip, fun h ↦ h.1 hip⟩)
  · rw [if_neg hip]
    have hnode : vm.node wns = wns.find? fun wn ↦ wn.name = vm.hostname := rfl
    rw [← hnode]
    rcases hfind : vm.node wns with _ | wn
    · have hunusable : ¬vm.Usable wns crs := by
        rintro ⟨-, wn, hwn, -⟩
        rw [hfind] at hwn
        cases hwn
      by_cases hfile : vm.hostname ∈ persistentNodes
      · exact .inr (.inl ⟨if_pos hfile, hip, hfind, hfile⟩)
      · exact .inr (.inr ⟨none, if_neg hfile, hunusable, fun h ↦ hfile h.2.2⟩)
    · have hknown : ¬vm.Lost wns persistentNodes := fun h ↦ by
        have hnone := h.2.1
        rw [hfind] at hnone
        cases hnone
      dsimp only
      split
      · rename_i hdrop
        refine .inr (.inr ⟨some wn, rfl, ?_, hknown⟩)
        rintro ⟨-, other, hother, havailable, himage⟩
        obtain rfl : wn = other := Option.some.inj (hfind.symm.trans hother)
        rcases hdrop with ⟨hjobs, hne⟩ | hdown
        · exact hne (himage hjobs)
        · rw [havailable] at hdown
          exact Bool.false_ne_true hdown
      · rename_i hkeep
        obtain ⟨himage, havailable⟩ := not_or.1 hkeep
        refine .inl ⟨rfl, hip, wn, hfind, Bool.not_eq_true _ ▸ havailable, fun hjobs ↦ ?_⟩
        by_contra hne
        exact himage ⟨hjobs, hne⟩

end Outcome

/-! ### Trimming -/

/-- From `s` to `s'` idle dynamic VMs may have been moved from the existing VMs to those that are
deleted, and nothing else has happened to the lists. -/
structure Thinned (s s' : State) : Prop where
  cluster : s'.cluster = s.cluster
  starting : s'.starting = s.starting
  nextVm : s'.nextVm = s.nextVm
  resources : s'.resources.names = s.resources.names
  vm : ∀ v, SameVm (s.vms v) (s'.vms v)
  existing : ∀ v ∈ s'.existing, v ∈ s.existing
  spared : ∀ v ∈ s.existing, v ∈ s'.existing ∨ v ∈ s'.deleting ∧ s.expendable v = true
  deleting : ∀ v ∈ s'.deleting, v ∈ s.deleting ∨ v ∈ s.existing
  kept : ∀ v ∈ s.deleting, v ∈ s'.deleting

section Thin

variable {cfg : Config} {answers : StartUpAnswers} {s s₁ s' : State} {resource : String}

theorem expendable_congr (hvm : ∀ v, SameVm (s.vms v) (s'.vms v))
    (hcluster : s'.cluster = s.cluster) : s'.expendable = s.expendable := by
  funext v
  rw [State.expendable, State.expendable, State.hasJobs, State.hasJobs, hcluster,
    (hvm v).hostname, (hvm v).dynamic]

namespace Thinned

theorem refl (s : State) : Thinned s s where
  cluster := rfl
  starting := rfl
  nextVm := rfl
  resources := rfl
  vm := fun _ ↦ .refl _
  existing := fun _ hv ↦ hv
  spared := fun _ hv ↦ .inl hv
  deleting := fun _ hv ↦ .inl hv
  kept := fun _ hv ↦ hv

theorem trans (h : Thinned s s₁) (h' : Thinned s₁ s') : Thinned s s' where
  cluster := h'.cluster.trans h.cluster
  starting := h'.starting.trans h.starting
  nextVm := h'.nextVm.trans h.nextVm
  resources := h'.resources.trans h.resources
  vm := fun v ↦ (h.vm v).trans (h'.vm v)
  existing := fun v hv ↦ h.existing v (h'.existing v hv)
  spared := fun v hv ↦ by
    rcases h.spared v hv with hv | ⟨hv, hidle⟩
    · refine (h'.spared v hv).imp_right fun hdeleted ↦ ?_
      rwa [expendable_congr h.vm h.cluster] at hdeleted
    · exact .inr ⟨h'.kept v hv, hidle⟩
  deleting := fun v hv ↦ by
    rcases h'.deleting v hv with hv | hv
    · exact h.deleting v hv
    · exact .inr (h.existing v hv)
  kept := fun v hv ↦ h'.kept v (h.kept v hv)

end Thinned

/-- The end of an iteration: idle VMs are discarded, and requests are queued. -/
theorem thinned_of_discarded {gone : List VmRef} (h : Discarded idleDestroy gone s s₁)
    (hgone : ∀ v ∈ gone, v ∈ s.existingOf resource ∧ s.expendable v = true)
    (hcluster : s₁.cluster = s.cluster) (n : ℤ) (requests : List (ProvisionVM × ℕ)) :
    Thinned s ((s₁.setAvailable resource n).waitFor requests) where
  cluster := hcluster
  starting := h.starting
  nextVm := h.nextVm
  resources := by
    show s₁.resources.names = s.resources.names
    rw [h.resources]
  vm := h.vm
  existing := fun v hv ↦ by
    have hmem : v ∈ s₁.existing := hv
    rw [h.existing] at hmem
    exact (List.diff_sublist _ _).subset hmem
  spared := fun v hv ↦ by
    show v ∈ s₁.existing ∨ v ∈ s₁.deleting ∧ _
    rw [h.existing, h.deleting]
    by_cases hmem : v ∈ gone
    · exact .inr ⟨List.mem_append_right _ hmem, (hgone v hmem).2⟩
    · exact .inl (List.mem_diff_of_mem hv hmem)
  deleting := fun v hv ↦ by
    have hmem : v ∈ s₁.deleting := hv
    rw [h.deleting] at hmem
    exact (List.mem_append.1 hmem).imp_right fun hmem ↦
      List.mem_of_mem_filter (hgone v hmem).1
  kept := fun v hv ↦ by
    show v ∈ s₁.deleting
    rw [h.deleting]
    exact List.mem_append_left _ hv

/-- **One resource** is trimmed of idle dynamic VMs, if anything. -/
theorem ends_loadResource_thins (hresource : resource ∈ s.resources.names) :
    Ends ((loadResource cfg answers resource).exec cfg) s (fun _ ↦ Thinned s) fun _ _ ↦ True := by
  suffices h : Ends ((loadResource cfg answers resource).exec cfg) s
      (fun _ s' ↦ s'.cluster = s.cluster → Thinned s s') fun _ _ ↦ True from
    ((leavesNodes_loadResource answers).ends.and h).mono (fun _ _ h ↦ h.2 h.1.cluster)
      fun _ _ _ ↦ trivial
  rw [loadResource, ends_list, Proc.exec, run_bind, ends_bind]
  refine (ends_ofResource _).mono ?_ fun _ _ h ↦ h.elim
  rintro _ _ ⟨rfl, rfl⟩
  rename_i s
  rw [run_bind, ends_bind]
  refine ends_needMoreStatic.mono ?_ fun _ _ _ ↦ trivial
  rintro needed _ ⟨rfl, -⟩
  rename_i s
  rw [run_bind, ends_bind]
  refine (ends_markAll needed _).mono ?_ fun _ _ _ ↦ trivial
  rintro - _ ⟨rfl, -⟩
  rename_i s
  rw [run_bind, ends_bind]
  refine (ends_countDynamic _).mono ?_ fun _ _ h ↦ h.elim
  rintro num _ ⟨rfl, rfl⟩
  rename_i s
  show Ends (Proc.exec (Proc.resources >>= _) cfg) s _ _
  rw [ends_resources, CloudResources.get, if_pos hresource]
  show Ends (Proc.exec (trimOverused _ _ 0 (s.dynamicOf resource)
    (s.existingOf resource).reverse >>= _) cfg) s _ _
  rw [Proc.exec, run_bind, ends_bind]
  refine (ends_trimExisting hresource).mono ?_ fun _ _ _ ↦ trivial
  rintro left s₁ ⟨-, -, gone, h₁, -, hgone⟩
  show Ends (Proc.exec (needMoreStatic resource >>= _) cfg) (s₁.setAvailable resource
    ((s.resources.object resource).numberOfDynamicWorkerNodes - left)) _ _
  refine ends_requestMissing.mono ?_ fun _ _ _ ↦ trivial
  rintro - _ ⟨requests, rfl, -⟩ hcluster
  exact thinned_of_discarded h₁ hgone hcluster _ requests

theorem ends_loadResources_thin (answers : StartUpAnswers) :
    Ends ((staticPhase cfg answers s.resources).exec cfg) s (fun _ ↦ Thinned s)
      fun _ _ ↦ True := by
  refine ends_forEach (I := fun _ _ ↦ Thinned s) ?_ (.refl s)
  rintro done resource rest - s₁ hdone h₁
  have hresource : resource ∈ s₁.resources.names := by
    rw [h₁.resources]
    simp [← hdone]
  exact (ends_loadResource_thins hresource).mono (fun _ _ h₂ ↦ h₁.trans h₂) fun _ _ _ ↦ trivial

end Thin

/-! ### The decisions -/

/-- The lists hold what has been decided about the VMs that the cloud lists. -/
structure Sorted (crs : CloudResources) (answers : StartUpAnswers) (s : State) : Prop where
  cluster : s.cluster = (State.cleaned crs answers).cluster
  nextVm : s.nextVm = (State.listed crs answers).nextVm
  resources : s.resources = crs
  vm : ∀ v, SameVm ((State.listed crs answers).vms v) (s.vms v)
  existing : ∀ v ∈ (State.listed crs answers).existing, v ∈ s.existing ↔
    ((State.listed crs answers).vms v).Usable answers.wnQuery.2 crs
  starting : ∀ v ∈ (State.listed crs answers).existing, v ∈ s.starting ↔
    ((State.listed crs answers).vms v).Lost answers.wnQuery.2 answers.persistentNodes
  deleting : ∀ v ∈ (State.listed crs answers).existing, v ∈ s.deleting ↔
    ¬((State.listed crs answers).vms v).Usable answers.wnQuery.2 crs ∧
      ¬((State.listed crs answers).vms v).Lost answers.wnQuery.2 answers.persistentNodes
  listed : ∀ v ∈ s.tracked, v ∈ (State.listed crs answers).existing

section Decisions

variable {cfg : Config} {crs : CloudResources} {answers : StartUpAnswers} {s s₁ s₂ s' : State}
  {v : VmRef}

/-- The decision about a VM. -/
def StartUpAnswers.outcome (crs : CloudResources) (answers : StartUpAnswers) (v : VmRef) :
    LoadOutcome :=
  loadOutcome answers.persistentNodes answers.wnQuery.2 crs ((State.listed crs answers).vms v)

theorem mem_scratch_toStarting : v ∈ (answers.scratch crs).toStarting ↔
    v ∈ (State.listed crs answers).existing ∧ answers.outcome crs v = .toStarting := by
  rw [StartUpAnswers.scratch, loadScratch, List.mem_filterMap]
  constructor
  · rintro ⟨w, hw, hsome⟩
    change (answers.outcome crs w).toStarting? w = some v at hsome
    rcases hw' : answers.outcome crs w with _ | _ | record
    all_goals
      rw [hw'] at hsome
      cases hsome
    exact ⟨hw, hw'⟩
  · rintro ⟨hv, houtcome⟩
    refine ⟨v, hv, ?_⟩
    show (answers.outcome crs v).toStarting? v = some v
    rw [houtcome]
    rfl

theorem mem_scratch_toDelete : v ∈ (answers.scratch crs).toDelete.map Prod.fst ↔
    v ∈ (State.listed crs answers).existing ∧ ∃ record, answers.outcome crs v = .toDelete record :=
    by
  rw [StartUpAnswers.scratch, loadScratch, List.mem_map]
  constructor
  · rintro ⟨⟨_, record⟩, hmem, rfl⟩
    obtain ⟨w, hw, hsome⟩ := List.mem_filterMap.1 hmem
    change (answers.outcome crs w).toDelete? w = some _ at hsome
    rcases hw' : answers.outcome crs w with _ | _ | record'
    all_goals
      rw [hw'] at hsome
      cases hsome
    exact ⟨hw, record, hw'⟩
  · rintro ⟨hv, record, houtcome⟩
    refine ⟨(v, record), List.mem_filterMap.2 ⟨v, hv, ?_⟩, rfl⟩
    show (answers.outcome crs v).toDelete? v = some (v, record)
    rw [houtcome]
    rfl

/-- What has been decided, by what the VM is. -/
theorem outcome_cases (crs : CloudResources) (answers : StartUpAnswers) (v : VmRef) :
    let vm := (State.listed crs answers).vms v
    (answers.outcome crs v = .kept ∧ vm.Usable answers.wnQuery.2 crs ∧
        ¬vm.Lost answers.wnQuery.2 answers.persistentNodes) ∨
      (answers.outcome crs v = .toStarting ∧ ¬vm.Usable answers.wnQuery.2 crs ∧
        vm.Lost answers.wnQuery.2 answers.persistentNodes) ∨
      ∃ record, answers.outcome crs v = .toDelete record ∧
        ¬vm.Usable answers.wnQuery.2 crs ∧
          ¬vm.Lost answers.wnQuery.2 answers.persistentNodes := by
  intro vm
  -- a node cannot be listed and not listed
  have hexcludes : vm.Usable answers.wnQuery.2 crs →
      ¬vm.Lost answers.wnQuery.2 answers.persistentNodes := by
    rintro ⟨-, wn, hwn, -⟩ ⟨-, hnone, -⟩
    rw [hwn] at hnone
    cases hnone
  rcases loadOutcome_cases answers.persistentNodes answers.wnQuery.2 crs vm with
    ⟨hkept, husable⟩ | ⟨hstarting, hlost⟩ | hdelete
  · exact .inl ⟨hkept, husable, hexcludes husable⟩
  · exact .inr (.inl ⟨hstarting, fun husable ↦ hexcludes husable hlost, hlost⟩)
  · exact .inr (.inr hdelete)

/-- The lists after VMs were picked up and discarded. -/
theorem sorted_of_discarded {destroys : Destroys}
    (hpicked : s₁ = { s with
      existing := s.existing.diff (answers.scratch crs).toStarting
      starting := s.starting ++ (answers.scratch crs).toStarting })
    (hs : Scanned (.looking fun _ ↦ False) (State.listed crs answers) s)
    (hcluster : s₂.cluster = (State.cleaned crs answers).cluster)
    (h : Discarded destroys ((answers.scratch crs).toDelete.map Prod.fst) s₁ s₂) :
    Sorted crs answers s₂ := by
  have hnodup : (State.listed crs answers).existing.Nodup :=
    wellFormed_listed.partition.existing
  have hexisting : s₂.existing = ((State.listed crs answers).existing.diff
      (answers.scratch crs).toStarting).diff ((answers.scratch crs).toDelete.map Prod.fst) := by
    rw [h.existing, hpicked, ← hs.existing]
  have hstarting : s₂.starting = (answers.scratch crs).toStarting := by
    rw [h.starting, hpicked]
    show s.starting ++ _ = _
    rw [hs.starting]
    rfl
  have hdeleting : s₂.deleting = (answers.scratch crs).toDelete.map Prod.fst := by
    rw [h.deleting, hpicked]
    show s.deleting ++ _ = _
    rw [hs.deleting]
    rfl
  have hmem : ∀ v, v ∈ s₂.existing ↔ (v ∈ (State.listed crs answers).existing ∧
      v ∉ (answers.scratch crs).toStarting) ∧
        v ∉ (answers.scratch crs).toDelete.map Prod.fst := fun v ↦ by
    rw [hexisting, (hnodup.diff).mem_sdiff_iff, hnodup.mem_sdiff_iff]
  refine
    { cluster := hcluster
      nextVm := by rw [h.nextVm, hpicked]; exact hs.nextVm
      resources := by rw [h.resources, hpicked]; exact hs.resources
      vm := fun v ↦ ?_
      existing := fun v hv ↦ ?_
      starting := fun v hv ↦ ?_
      deleting := fun v hv ↦ ?_
      listed := fun v hv ↦ ?_ }
  · have hsame : s₁.vms v = (State.listed crs answers).vms v := by
      rw [hpicked]
      exact hs.untouched v id
    exact hsame ▸ h.vm v
  · rw [hmem, mem_scratch_toStarting, mem_scratch_toDelete]
    rcases outcome_cases crs answers v with ⟨ho, husable, hlost⟩ | ⟨ho, husable, hlost⟩ |
      ⟨record, ho, husable, hlost⟩
    all_goals simp [ho, hv, husable]
  · rw [hstarting, mem_scratch_toStarting]
    rcases outcome_cases crs answers v with ⟨ho, husable, hlost⟩ | ⟨ho, husable, hlost⟩ |
      ⟨record, ho, husable, hlost⟩
    all_goals simp [ho, hv, hlost]
  · rw [hdeleting, mem_scratch_toDelete]
    rcases outcome_cases crs answers v with ⟨ho, husable, hlost⟩ | ⟨ho, husable, hlost⟩ |
      ⟨record, ho, husable, hlost⟩
    all_goals simp [ho, hv, husable, hlost]
  · rcases State.mem_tracked.1 hv with hv | hv | hv
    · exact ((hmem v).1 hv).1.1
    · exact (mem_scratch_toStarting.1 (hstarting ▸ hv)).1
    · exact (mem_scratch_toDelete.1 (hdeleting ▸ hv)).1

/-- The nodes of listed VMs are not orphans, so they are still known. -/
theorem node_cleaned (hv : v ∈ (State.listed crs answers).existing) :
    ((State.listed crs answers).vms v).node (State.cleaned crs answers).cluster.workerNodes =
      ((State.listed crs answers).vms v).node answers.wnQuery.2 := by
  show List.find? _ (answers.wnQuery.2.filter fun wn ↦ !(State.listed crs answers).orphan wn) = _
  rw [List.find?_filter]
  refine congrArg (List.find? · answers.wnQuery.2) (funext fun wn ↦ ?_)
  by_cases hname : wn.name = ((State.listed crs answers).vms v).hostname
  · have hfound : ((State.listed crs answers).findVm wn.name).isSome = true := by
      rw [State.findVm, List.find?_isSome]
      exact ⟨v, hv, by simp [hname]⟩
    have hnot : (State.listed crs answers).orphan wn = false := by
      rw [State.orphan, ← Option.not_isSome, hfound]
      rfl
    simp [hname, hnot]
  · simp [hname]

/-- A VM whose node has jobs is not taken for an idle one. -/
theorem Sorted.not_expendable (h : Sorted crs answers s)
    (hv : v ∈ (State.listed crs answers).existing)
    (hbusy : ((State.listed crs answers).vms v).Busy answers.wnQuery.2) :
    ¬s.expendable v = true := by
  obtain ⟨wn, hwn, hjobs⟩ := hbusy
  have hfind : (s.cluster.workerNodes.find? fun wn ↦ wn.name = (s.vms v).hostname) = some wn := by
    rw [h.cluster, (h.vm v).hostname]
    exact (node_cleaned hv).trans hwn
  have hhas : s.hasJobs v = true := by
    rw [State.hasJobs, hfind]
    exact Option.isSome_iff_ne_none.2 hjobs
  rw [State.expendable, hhas]
  simp

/-- **The end.** Idle VMs may be trimmed and VMs launched. -/
theorem Sorted.recovered (h : Sorted crs answers s) (h₁ : Thinned s s₁) (h₂ : Launches s₁ s')
    (hwell : WellFormed s') : Recovered answers.persistentNodes crs answers s' := by
  obtain ⟨new, hstarting, hnew⟩ := h₂.starting
  have hold : ∀ v ∈ (State.listed crs answers).existing, v < s₁.nextVm := fun v hv ↦ by
    rw [h₁.nextVm, h.nextVm]
    exact wellFormed_listed.fresh v (State.mem_tracked.2 (.inl hv))
  refine
    { wellFormed := hwell
      existing := fun v hv ↦ ?_
      busy := fun v hv husable hbusy ↦ ?_
      idle := fun v hv husable ↦ ?_
      lost := fun v hv ↦ ?_
      useless := fun v hv husable hlost ↦ ?_
      deleting := fun v hv ↦ ?_
      starting := fun v hv ↦ ?_ }
  · rw [h₂.existing] at hv
    have hmem := h₁.existing v hv
    have hlisted := h.listed v (State.mem_tracked.2 (.inl hmem))
    exact ⟨hlisted, (h.existing v hlisted).1 hmem⟩
  · rw [h₂.existing]
    refine (h₁.spared v ((h.existing v hv).2 husable)).resolve_right fun hidle ↦ ?_
    exact h.not_expendable hv hbusy hidle.2
  · rw [h₂.existing, h₂.deleting]
    exact (h₁.spared v ((h.existing v hv).2 husable)).imp_right And.left
  · rw [← h.starting v hv, hstarting, h₁.starting, List.mem_append, or_iff_left_iff_imp]
    exact fun hmem ↦ absurd (hold v hv) (not_lt.2 (hnew v hmem))
  · rw [h₂.deleting]
    exact h₁.kept v ((h.deleting v hv).2 ⟨husable, hlost⟩)
  · rw [h₂.deleting] at hv
    refine h.listed v (State.mem_tracked.2 ?_)
    exact (h₁.deleting v hv).elim (fun h ↦ .inr (.inr h)) .inl
  · rw [hstarting, h₁.starting] at hv
    rcases List.mem_append.1 hv with hv | hv
    · exact .inl (h.listed v (State.mem_tracked.2 (.inr (.inl hv))))
    · refine .inr ?_
      rw [← h.nextVm, ← h₁.nextVm]
      exact hnew v hv

end Decisions

/-! ### The start-up -/

section Load

variable {cfg : Config} {crs : CloudResources} {answers : StartUpAnswers} {s : State}

/-- The start-up, from its decisions on. -/
theorem ends_loadDecided_recovers :
    Ends ((loadDecided cfg answers crs).exec cfg) (State.cleaned crs answers)
      (fun _ s' ↦ WellFormed s' → Recovered answers.persistentNodes crs answers s')
      fun _ _ ↦ True := by
  have hsub : ((answers.scratch crs).toStarting ++
      (answers.scratch crs).toDelete.map Prod.fst).Subperm (State.listed crs answers).existing :=
    loadScratch_subperm
  have hnodup : ((answers.scratch crs).toDelete.map Prod.fst).Nodup :=
    (nodup_of_subperm hsub wellFormed_listed.partition.existing).2.1
  have hs := scanned_cleaned crs answers
  have hpick : (answers.scratch crs).toStarting.Subperm (State.cleaned crs answers).existing :=
    hs.existing ▸ (List.sublist_append_left _ _).subperm.trans hsub
  rw [loadDecided, Proc.exec, run_bind, ends_bind]
  refine (ends_pickUp 0 hpick).mono ?_ fun _ _ h ↦ h.elim
  rintro - s₁ hpicked
  have hcluster₁ : s₁.cluster = (State.cleaned crs answers).cluster := by rw [hpicked]
  have hvm₁ : ∀ v, s₁.vms v = (State.listed crs answers).vms v := fun v ↦ by
    rw [hpicked]
    exact hs.untouched v id
  have hresources₁ : s₁.resources = crs := by
    rw [hpicked]
    exact hs.resources
  have hexisting₁ : s₁.existing =
      (State.listed crs answers).existing.diff (answers.scratch crs).toStarting := by
    rw [hpicked, hs.existing]
  have hknown : ∀ v ∈ (answers.scratch crs).toDelete.map Prod.fst,
      (s₁.vms v).cloudResourceName ∈ s₁.resources.names := fun v hv ↦ by
    rw [hvm₁, hresources₁]
    exact (listed_vm (hsub.subset (List.mem_append_right _ hv))).1
  have hleaves : LeavesNodes (forEach (fun i vr _ ↦ do
      let _ ← vmDestroy vr.1 vr.2 (answers.destroy i).answer (answers.destroy i).now
      Proc.locked (.destroyExisting vr.1)) 0 (answers.scratch crs).toDelete ()) :=
    within_forEach_of_forall (fun i vr _ _ ↦ (leavesNodes_vmDestroy _ _ _).bind fun _ _ ↦
      leavesNodes_step (o := .locked (.destroyExisting vr.1)) trivial) ()
  rw [run_bind, ends_bind]
  let destroys : Destroys := fun _ _ _ _ ↦ True
  have hany : ∀ (i : ℕ) v record, (answers.scratch crs).toDelete[i]? = some (v, record) →
      destroys v record (s₁.vms v).forceOff (answers.destroy i).answer := fun _ _ _ _ ↦ trivial
  refine ((ends_discardAll (hexisting₁ ▸ subperm_diff hsub) hnodup hany hknown).and
    hleaves.ends).mono ?_ fun _ _ _ ↦ trivial
  rintro - s₂ ⟨⟨h₂, -⟩, hleft⟩
  have hsorted : Sorted crs answers s₂ :=
    sorted_of_discarded hpicked hs (hleft.cluster.trans hcluster₁) h₂
  rw [run_bind, ends_bind]
  have hthin : Ends ((staticPhase cfg answers s₂.resources).exec cfg) s₂ (fun _ ↦ Thinned s₂)
      fun _ _ ↦ True := ends_loadResources_thin answers
  rw [staticPhase, hsorted.resources] at hthin
  refine hthin.mono ?_ fun _ _ _ ↦ trivial
  rintro - s₃ h₃
  -- the flag concerns no list
  have hlast : ∀ s₄, s₄ = { s₃ with provisioning := s₄.provisioning } →
      Ends (Proc.exec (do
        let waiting ← Proc.waiting
        Program.when (waiting.length > 0) (launchInstances cfg answers.launch)) cfg) s₄
        (fun _ s' ↦ WellFormed s' → Recovered answers.persistentNodes crs answers s')
        fun _ _ ↦ True := by
    intro s₄ hs₄
    have h₄ : Thinned s₂ s₄ := by
      rw [hs₄]
      exact
        { h₃ with }
    rw [ends_waiting, Program.when]
    split
    · exact (ends_launchInstances_launches answers.launch).mono
        (fun _ _ h₅ hwell ↦ hsorted.recovered h₄ h₅ hwell) fun _ _ _ ↦ trivial
    · exact fun hwell ↦ hsorted.recovered h₄ (.refl s₄) hwell
  show Ends (Proc.exec (Proc.list .starting >>= _) cfg) s₃ _ _
  rw [ends_list, Program.when]
  split
  · rw [ends_locked]
    exact hlast { s₃ with provisioning := true } rfl
  · exact hlast s₃ rfl

end Load

/-- **A restart.** When the persistent file is the one that the process before has dumped in a state
`before` with plain hostnames, then a start-up that completes has recovered its workers: what the
cloud still lists and Torque can use goes on existing where it has jobs, what `before` had and
Torque has lost is added again, and what is of no use is discarded. -/
theorem restart_recovers (cfg old : Config) (crs : CloudResources) (answers : StartUpAnswers)
    (before s : State) (hhost : ∀ v ∈ before.existing, Unspaced (before.vms v).hostname)
    (hproperty : '\n' ∉ old.nodeProperty.toList)
    (hfile : answers.persistentNodes = readNodesFromPersistentFile
      (some (dumpNodesToPersistentFile old (before.existing.map before.vms))))
    (hstart : (loadExistingWorkerNodes cfg answers).exec cfg (State.initial crs) = .ok () s) :
    Recovered before.hostnames crs answers s := by
  have hread : answers.persistentNodes = before.hostnames := by
    rw [hfile, read_dump old _ (by simpa using hhost) hproperty, List.map_map]
    rfl
  have hrecovered := (ends_load_of_decided ends_loadDecided_recovers).of_ok hstart
  rw [hread] at hrecovered
  exact hrecovered (startedUp_of_ok hstart).wellFormed

/-- Two workers exist. -/
def twoWorkers : State :=
  { State.initial JobScheduler.threeNodes with
    existing := [0, 1]
    nextVm := 2
    vms := fun v ↦ VM.init "id" (if v = 0 then "wn1" else "wn2") 4 none 0 none none "default" }

/-- After the restart, a job runs on one of them, Torque has lost the other, and the cloud lists a
third server. -/
def afterCrash : StartUpAnswers :=
  { oneWorker with
    vmList := fun _ ↦ [listedWorker, { listedWorker with name := "wn2" },
      { listedWorker with name := "wn3" }]
    persistentNodes := ["wn1", "wn2"]
    wnQuery := (true, [⟨"wn1", "job-exclusive", some "0/1.server"⟩]) }

theorem restart_recovers_afterCrash :
    Recovered ["wn1", "wn2"] JobScheduler.threeNodes afterCrash
      (stateAfter ((loadExistingWorkerNodes {} afterCrash).exec {})
        (State.initial JobScheduler.threeNodes)) := by
  have hhost : ∀ v ∈ twoWorkers.existing, Unspaced (twoWorkers.vms v).hostname := by
    intro v hv
    rcases List.mem_pair.1 hv with rfl | rfl
    all_goals simp [Unspaced, twoWorkers, VM.init, isSpace, Char.isWhitespace]
  have hfile := read_dump {} (twoWorkers.existing.map twoWorkers.vms) (by simpa using hhost)
    (by decide)
  exact restart_recovers {} {} JobScheduler.threeNodes afterCrash twoWorkers _ hhost (by decide)
    hfile.symm rfl

end DynamicTorque
