import DynamicTorque.LifeCycle.Launching
import DynamicTorque.LifeCycle.Ready
import DynamicTorque.LifeCycle.Workers

/-!
# Static requests

The static workers of a resource that are still missing, and what is on its way to satisfy them:
the static requests that wait, and the VMs that are being started.
-/

open Python Atomic

namespace DynamicTorque

/-- The VMs of a resource that are being started. -/
def State.startingOf (s : State) (resource : String) : ℕ :=
  s.starting.countP fun v ↦ (s.vms v).cloudResourceName = resource

/-- What is on its way to satisfy the static requests of a resource. -/
def State.underWay (s : State) (resource : String) : ℕ :=
  staticCount resource s.waiting + s.startingOf resource

/-- Every static worker that is still missing has something on its way. -/
def Covered (s : State) : Prop :=
  ∀ resource ∈ s.resources.names, s.outstanding resource ≤ s.underWay resource

section Counting

variable {s s' : State} {resource : String}

theorem SameStatic.outstanding (h : SameStatic s.resources s'.resources) (resource : String) :
    s'.outstanding resource = s.outstanding resource := by
  rw [State.outstanding, State.outstanding, h.static]

theorem startingOf_eq (hstarting : s'.starting = s.starting)
    (hresource : ∀ v ∈ s.starting, (s'.vms v).cloudResourceName = (s.vms v).cloudResourceName) :
    s'.startingOf resource = s.startingOf resource := by
  rw [State.startingOf, State.startingOf, hstarting]
  exact List.countP_congr fun v hv ↦ by rw [hresource v hv]

/-- What is taken off the waiting list and what stays. -/
theorem staticCount_diff {toRemove waiting : List WaitingRequest}
    (h : toRemove.Subperm waiting) : staticCount resource toRemove +
      staticCount resource (waiting.diff toRemove) = staticCount resource waiting := by
  rw [← staticCount_append]
  exact (append_diff_perm h).countP_eq _

/-- **Launching keeps what is under way.** A static request that is taken off the waiting list has
become a VM. -/
theorem Launched.underWay_le {toRemove : List WaitingRequest} (h : Launched s toRemove s')
    (hsub : toRemove.Subperm s.waiting) (hfresh : ∀ v ∈ s.starting, v < s.nextVm) :
    s.underWay resource ≤
      staticCount resource (s.waiting.diff toRemove) + s'.startingOf resource := by
  obtain ⟨new, hstarting, -, hserved⟩ := h.starting
  have hold : s.starting.countP (fun v ↦ decide ((s'.vms v).cloudResourceName = resource)) =
      s.startingOf resource := List.countP_congr fun v hv ↦ by rw [h.vms v (hfresh v hv)]
  have hcount : staticCount resource toRemove +
      staticCount resource (s.waiting.diff toRemove) = staticCount resource s.waiting :=
    staticCount_diff hsub
  have hnew := hserved resource
  have hsplit : s'.startingOf resource = s.startingOf resource +
      new.countP (fun v ↦ decide ((s'.vms v).cloudResourceName = resource)) := by
    rw [← hold, ← List.countP_append, ← hstarting]
    rfl
  rw [State.underWay]
  omega

/-- Launching keeps every missing static worker covered. -/
theorem Covered.launched {toRemove : List WaitingRequest} (h : Covered s) (hwell : WellFormed s)
    (hsub : toRemove.Subperm s.waiting) (hlaunched : Launched s.beginLaunch toRemove s') :
    Covered { s' with waiting := s.waiting.diff toRemove } := by
  intro resource hresource
  have hnames : s'.resources = s.resources := hlaunched.resources
  have hcovered := h resource (hnames ▸ hresource)
  have hfresh : ∀ v ∈ s.starting, v < s.nextVm := fun v hv ↦
    hwell.fresh v (State.mem_tracked.2 (.inr (.inl hv)))
  have hle : s.underWay resource ≤
      staticCount resource (s.waiting.diff toRemove) + s'.startingOf resource :=
    hlaunched.underWay_le hsub hfresh
  have hout : State.outstanding { s' with waiting := s.waiting.diff toRemove }
      resource = s.outstanding resource := by
    rw [State.outstanding, State.outstanding, ← hnames]
  rw [hout]
  exact hcovered.trans (Int.ofNat_le.2 hle)

/-- The list of requests that `get_provision_list` makes serves every outstanding VM. -/
theorem getProvisionList_serves {flavor : VMFlavor} {props : LocationProperties} :
    ∀ {reqs : StaticVMs} {requests : List (ProvisionVM × ℕ)},
      reqs.getProvisionList flavor resource props = .ok requests →
        (∀ r ∈ requests, r.1.static = true ∧ r.1.resourceName = resource) ∧
          reqs.outstanding ≤ (requests.map Prod.snd).sum := by
  intro reqs
  induction reqs with
  | nil =>
    intro requests h
    obtain rfl := Except.ok.inj h
    exact ⟨nofun, le_rfl⟩
  | cons req rest ih =>
    intro requests h
    -- the zone of the entry does not matter for the count
    have hzone : ∃ zone, (do
        let tail ← StaticVMs.getProvisionList flavor resource props rest
        pure ((⟨.id flavor.id, zone, resource, true⟩, req.numOfVm.toNat) :: tail)) =
          Except.ok requests := by
      rw [StaticVMs.getProvisionList] at h
      split at h
      · exact ⟨none, h⟩
      · obtain ⟨z, -, h⟩ := bind_eq_ok.1 h
        exact ⟨some z, h⟩
    obtain ⟨zone, h⟩ := hzone
    obtain ⟨tail, htail, h⟩ := bind_eq_ok.1 h
    obtain rfl := Except.ok.inj h
    obtain ⟨hstatic, hsum⟩ := ih htail
    refine ⟨List.forall_mem_cons.2 ⟨⟨rfl, rfl⟩, hstatic⟩, ?_⟩
    have hnum : req.numOfVm ≤ req.numOfVm.toNat := Int.self_le_toNat _
    simp only [StaticVMs.outstanding, List.map_cons, List.sum_cons] at hsum ⊢
    omega

/-- A resource that needs no more static VMs has none outstanding. -/
theorem outstanding_of_not_needMore {reqs : StaticVMs} (h : reqs.needMore = false) :
    reqs.outstanding ≤ 0 := by
  rw [StaticVMs.needMore, List.any_eq_false] at h
  induction reqs with
  | nil => exact le_rfl
  | cons req rest ih =>
    have hreq : req.numOfVm ≤ 0 := by simpa using h req List.mem_cons_self
    have hrest := ih fun r hr ↦ h r (List.mem_cons_of_mem _ hr)
    rw [StaticVMs.outstanding] at hrest ⊢
    rw [List.map_cons, List.sum_cons]
    omega

end Counting

end DynamicTorque
