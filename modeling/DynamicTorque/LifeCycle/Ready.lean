import DynamicTorque.LifeCycle.Lists

/-!
# Committing ready VMs

`update_provision_status` commits all its ready VMs in one block. The block is a loop, and what it
has done when an iteration raises stays done; the lemmas below say how far it got.
-/

open Python Atomic

namespace DynamicTorque

/-! ### Searching the static requests -/

theorem atLocation_eq_error {props : LocationProperties} {location : String}
    {zone : Option String} {e : PyError} (h : StaticVMs.atLocation props location zone = .error e) :
    e = .keyError location ∧ props.entries.isEmpty = false ∧ props.lookup location = none := by
  rw [StaticVMs.atLocation] at h
  split at h
  · cases h
  · rename_i hempty
    rcases bind_eq_error.1 h with hget | ⟨z, -, h⟩
    · obtain ⟨rfl, hnone⟩ := Dict.get_eq_error hget
      exact ⟨rfl, by simpa using hempty, hnone⟩
    · cases h

/-- `need_vm` raises only for a location without a zone. -/
theorem needVm_eq_error {zone : Option String} {props : LocationProperties} {e : PyError} :
    ∀ {reqs : StaticVMs}, reqs.needVm zone props = .error e →
      ∃ req ∈ reqs, e = .keyError req.location ∧ props.entries.isEmpty = false ∧
        props.lookup req.location = none := by
  intro reqs
  induction reqs with
  | nil => exact nofun
  | cons req rest ih =>
    intro h
    rw [StaticVMs.needVm] at h
    rcases bind_eq_error.1 h with hat | ⟨here, -, h⟩
    · exact ⟨req, List.mem_cons_self, atLocation_eq_error hat⟩
    · split at h
      · cases h
      · rcases bind_eq_error.1 h with hrest | ⟨found, -, h⟩
        · obtain ⟨req', hmem, hreq⟩ := ih hrest
          exact ⟨req', List.mem_cons_of_mem _ hmem, hreq⟩
        · cases h

/-- What an answer of `need_vm` does to the requests: a positive one lowers one count. -/
theorem needVm_eq_ok {zone : Option String} {props : LocationProperties} {needed : Bool} :
    ∀ {reqs reqs' : StaticVMs}, reqs.needVm zone props = .ok (needed, reqs') →
      reqs'.map StaticReq.location = reqs.map StaticReq.location ∧
        reqs'.outstanding = reqs.outstanding - if needed then 1 else 0 := by
  intro reqs
  induction reqs with
  | nil =>
    intro reqs' h
    obtain ⟨rfl, rfl⟩ := Prod.mk.inj (Except.ok.inj h)
    exact ⟨rfl, rfl⟩
  | cons req rest ih =>
    intro reqs' h
    rw [StaticVMs.needVm] at h
    obtain ⟨here, -, h⟩ := bind_eq_ok.1 h
    split at h
    · obtain ⟨rfl, rfl⟩ := Prod.mk.inj (Except.ok.inj h)
      refine ⟨rfl, ?_⟩
      simp only [StaticVMs.outstanding, List.map_cons, List.sum_cons, if_true]
      omega
    · obtain ⟨⟨found, rest'⟩, hrest, h⟩ := bind_eq_ok.1 h
      obtain ⟨rfl, rfl⟩ := Prod.mk.inj (Except.ok.inj h)
      obtain ⟨hlocations, hsum⟩ := ih hrest
      refine ⟨by simp [hlocations], ?_⟩
      simp only [StaticVMs.outstanding, List.map_cons, List.sum_cons] at hsum ⊢
      omega

/-- The static requests of a resource can be searched: there are some, and each location has a
zone if any has. -/
def Searchable (cfg : Config) (crs : CloudResources) (name : String) : Prop :=
  ∃ reqs, crs.staticVmsToStart name "need_vm" = .ok reqs ∧
    (cfg.locationProperties.entries.isEmpty = true ∨
      ∀ req ∈ reqs, (cfg.locationProperties.lookup req.location).isSome)

/-- The static VMs of a resource that are still outstanding. -/
def State.outstanding (s : State) (resource : String) : ℤ :=
  ((s.resources.object resource).staticVmsToStart.map StaticVMs.outstanding).getD 0

theorem State.needVm_eq_error {cfg : Config} {s : State} {v : VmRef} {e : PyError}
    (h : s.needVm cfg v = .error e) :
    NotFromRemove e ∧ ¬Searchable cfg s.resources (s.vms v).cloudResourceName := by
  rw [State.needVm] at h
  rcases bind_eq_error.1 h with hstatic | ⟨reqs, hreqs, h⟩
  · refine ⟨notFromRemove_of_staticVmsToStart hstatic, ?_⟩
    rintro ⟨reqs, hreqs, -⟩
    exact nomatch hstatic.symm.trans hreqs
  · obtain ⟨req, hmem, rfl, hsome, hnone⟩ := DynamicTorque.needVm_eq_error h
    refine ⟨nofun, ?_⟩
    rintro ⟨reqs', hreqs', hempty | hall⟩
    · exact absurd hempty (by simp [hsome])
    · obtain rfl := Except.ok.inj (hreqs.symm.trans hreqs')
      exact absurd (hall req hmem) (by simp [hnone])

/-! ### Committing ready VMs -/

section Ready

open Locked

variable {cfg : Config} {s : State} {v : VmRef}

/-- The state in which a ready VM exists, after `need_vm` answered `needed` and left `reqs`. -/
def State.ready (s : State) (v : VmRef) (needed : Bool) (reqs : StaticVMs) : State :=
  { s with
    starting := s.starting.erase v
    existing := s.existing ++ [v]
    vms := if needed then Function.update s.vms v { s.vms v with dynamic := false } else s.vms
    resources := s.resources.modify (s.vms v).cloudResourceName fun res ↦
      { res with staticVmsToStart := some reqs } }

/-- **One ready VM.** If `need_vm` raises, the VM has left the starting list and is nowhere. -/
theorem ends_readyVm {Q : Unit → State → Prop} {E : PyError → State → Prop}
    (hmem : v ∈ s.starting) (hQ : ∀ needed reqs, s.needVm cfg v = .ok (needed, reqs) →
      Q () (s.ready v needed reqs))
    (hE : ∀ e, s.needVm cfg v = .error e → E e { s with starting := s.starting.erase v }) :
    Ends (readyVm cfg v) s Q E := by
  rw [readyVm, ends_bind, ends_removeFrom (L := .starting) hmem, ends_bind, ends_get, ends_bind]
  refine ends_lift ?_ fun e he ↦ hE e he
  rintro ⟨needed, reqs⟩ hneed
  have hready := hQ needed reqs hneed
  cases needed with
  | false => exact hready
  | true => exact hready

/-- The requests that are left when `need_vm` has been asked for VMs in the zones, one after
another. -/
def StaticVMs.served (props : LocationProperties) (zones : List (Option String))
    (reqs : StaticVMs) : StaticVMs :=
  zones.foldl (fun reqs zone ↦ match reqs.needVm zone props with
    | .ok (_, reqs') => reqs'
    | .error _ => reqs) reqs

@[simp] theorem StaticVMs.served_nil (props : LocationProperties) :
    StaticVMs.served props [] = id := rfl

theorem StaticVMs.served_append (props : LocationProperties) (zones zones' : List (Option String))
    (reqs : StaticVMs) : StaticVMs.served props (zones ++ zones') reqs =
      StaticVMs.served props zones' (StaticVMs.served props zones reqs) := List.foldl_append

/-- The zones of those of the VMs that belong to a resource. -/
def State.zonesOf (s : State) (vs : List VmRef) (resource : String) : List (Option String) :=
  (vs.filter fun v ↦ (s.vms v).cloudResourceName = resource).map fun v ↦
    (s.vms v).availabilityZone

/-- The frame of `commitReady`, after it has moved the VMs `done`. -/
structure Readied (cfg : Config) (done : List VmRef) (s s' : State) : Prop where
  subperm : done.Subperm s.starting
  existing : s'.existing = s.existing ++ done
  starting : s'.starting = s.starting.diff done
  deleting : s'.deleting = s.deleting
  waiting : s'.waiting = s.waiting
  provisioning : s'.provisioning = s.provisioning
  sleepMode : s'.sleepMode = s.sleepMode
  trace : s'.trace = s.trace
  nextVm : s'.nextVm = s.nextVm
  resource : ∀ v, (s'.vms v).cloudResourceName = (s.vms v).cloudResourceName
  zone : ∀ v, (s'.vms v).availabilityZone = (s.vms v).availabilityZone
  names : s'.resources.names = s.resources.names
  static : ∀ name, (s'.resources.object name).staticVmsToStart =
    (s.resources.object name).staticVmsToStart.map
      (StaticVMs.served cfg.locationProperties (s.zonesOf done name))
  untouched : ∀ v, v ∉ done → s'.vms v = s.vms v
  searchable : ∀ name, Searchable cfg s.resources name → Searchable cfg s'.resources name

theorem Readied.refl : Readied cfg [] s s where
  subperm := List.nil_subperm
  existing := by simp
  starting := rfl
  deleting := rfl
  waiting := rfl
  provisioning := rfl
  sleepMode := rfl
  trace := rfl
  nextVm := rfl
  resource := fun _ ↦ rfl
  zone := fun _ ↦ rfl
  names := rfl
  static := fun _ ↦ by simp [State.zonesOf]
  untouched := fun _ _ ↦ rfl
  searchable := fun _ h ↦ h

theorem staticVmsToStart_eq_ok_iff {crs : CloudResources} {name method : String}
    {reqs : StaticVMs} : crs.staticVmsToStart name method = .ok reqs ↔
      name ∈ crs.names ∧ (crs.object name).staticVmsToStart = some reqs := by
  rw [CloudResources.staticVmsToStart, bind_eq_ok]
  constructor
  · rintro ⟨res, hres, h⟩
    obtain ⟨hname, rfl⟩ := CloudResources.get_eq_ok_iff.1 hres
    split at h
    · rename_i reqs' hreqs
      exact ⟨hname, hreqs.trans (congrArg some (Except.ok.inj h))⟩
    · cases h
  · rintro ⟨hname, h⟩
    exact ⟨_, CloudResources.get_eq_ok_iff.2 ⟨hname, rfl⟩, by rw [h]⟩

/-- The requests that a lookup finds are the ones that count. -/
theorem outstanding_of_staticVmsToStart {resource method : String} {reqs : StaticVMs}
    (h : s.resources.staticVmsToStart resource method = .ok reqs) :
    s.outstanding resource = reqs.outstanding := by
  rw [State.outstanding, (staticVmsToStart_eq_ok_iff.1 h).2]
  rfl

/-- Requests that keep their locations stay searchable. -/
theorem searchable_modify {crs : CloudResources} {name : String} {reqs reqs' : StaticVMs}
    (hreqs : crs.staticVmsToStart name "need_vm" = .ok reqs)
    (hlocations : reqs'.map StaticReq.location = reqs.map StaticReq.location) {other : String}
    (h : Searchable cfg crs other) :
    Searchable cfg (crs.modify name fun res ↦ { res with staticVmsToStart := some reqs' })
      other := by
  obtain ⟨old, hold, hsearch⟩ := h
  obtain ⟨hmem, hold⟩ := staticVmsToStart_eq_ok_iff.1 hold
  by_cases hname : other = name
  · subst hname
    obtain ⟨-, hreqs⟩ := staticVmsToStart_eq_ok_iff.1 hreqs
    obtain rfl : old = reqs := Option.some.inj (hold.symm.trans hreqs)
    refine ⟨reqs', staticVmsToStart_eq_ok_iff.2 ⟨hmem, by simp⟩, hsearch.imp_right fun hall ↦ ?_⟩
    intro req hreq
    have hloc : req.location ∈ old.map StaticReq.location :=
      hlocations ▸ List.mem_map_of_mem hreq
    obtain ⟨req', hreq', hsame⟩ := List.mem_map.1 hloc
    exact hsame ▸ hall req' hreq'
  · refine ⟨old, staticVmsToStart_eq_ok_iff.2 ⟨hmem, ?_⟩, hsearch⟩
    rwa [crs.object_modify_of_ne hname]

/-- The requests that `need_vm` searched. -/
theorem staticVmsToStart_of_needVm {needed : Bool} {reqs' : StaticVMs}
    (h : s.needVm cfg v = .ok (needed, reqs')) :
    ∃ reqs, s.resources.staticVmsToStart (s.vms v).cloudResourceName "need_vm" = .ok reqs ∧
      reqs'.map StaticReq.location = reqs.map StaticReq.location ∧
      reqs'.outstanding = reqs.outstanding - if needed then 1 else 0 := by
  obtain ⟨reqs, hreqs, h⟩ := bind_eq_ok.1 h
  exact ⟨reqs, hreqs, needVm_eq_ok h⟩

theorem readied_ready {needed : Bool} {reqs : StaticVMs} (hmem : v ∈ s.starting)
    (h : s.needVm cfg v = .ok (needed, reqs)) : Readied cfg [v] s (s.ready v needed reqs) where
  subperm := List.singleton_subperm_iff.2 hmem
  existing := rfl
  starting := by simp [State.ready]
  deleting := rfl
  waiting := rfl
  provisioning := rfl
  sleepMode := rfl
  trace := rfl
  nextVm := rfl
  resource := fun w ↦ by
    cases needed with
    | false => rfl
    | true => by_cases hw : w = v <;> simp [State.ready, hw]
  zone := fun w ↦ by
    cases needed with
    | false => rfl
    | true => by_cases hw : w = v <;> simp [State.ready, hw]
  names := rfl
  static := fun name ↦ by
    obtain ⟨old, hold, hneed⟩ := bind_eq_ok.1 h
    by_cases hname : (s.vms v).cloudResourceName = name
    · subst hname
      have hserved : StaticVMs.served cfg.locationProperties [(s.vms v).availabilityZone] old =
          reqs := by simp [StaticVMs.served, hneed]
      simp [State.ready, State.zonesOf, (staticVmsToStart_eq_ok_iff.1 hold).2, hserved]
    · rw [State.ready, s.resources.object_modify_of_ne (Ne.symm hname)]
      simp [State.zonesOf, hname]
  untouched := fun w hw ↦ by
    have hne : w ≠ v := fun h ↦ hw (List.mem_singleton.2 h)
    cases needed with
    | false => rfl
    | true => simp [State.ready, hne]
  searchable := fun name hname ↦ by
    obtain ⟨old, hold, hlocations, -⟩ := staticVmsToStart_of_needVm h
    exact searchable_modify hold hlocations hname

theorem Readied.trans {done done' : List VmRef} {s₁ s' : State} (h : Readied cfg done s s₁)
    (h' : Readied cfg done' s₁ s') : Readied cfg (done ++ done') s s' where
  subperm := subperm_append h.subperm (h.starting ▸ h'.subperm)
  existing := by rw [h'.existing, h.existing, List.append_assoc]
  starting := by rw [h'.starting, h.starting, List.diff_append]
  deleting := h'.deleting.trans h.deleting
  waiting := h'.waiting.trans h.waiting
  provisioning := h'.provisioning.trans h.provisioning
  sleepMode := h'.sleepMode.trans h.sleepMode
  trace := h'.trace.trans h.trace
  nextVm := h'.nextVm.trans h.nextVm
  resource := fun w ↦ (h'.resource w).trans (h.resource w)
  zone := fun w ↦ (h'.zone w).trans (h.zone w)
  names := h'.names.trans h.names
  static := fun name ↦ by
    have hzones : s₁.zonesOf done' name = s.zonesOf done' name := by
      simp [State.zonesOf, h.resource, h.zone]
    have happend : s.zonesOf (done ++ done') name =
        s.zonesOf done name ++ s.zonesOf done' name := by
      simp [State.zonesOf]
    rw [h'.static, h.static, Option.map_map, hzones, happend]
    congr 1
    funext reqs
    exact (StaticVMs.served_append _ _ _ reqs).symm
  untouched := fun w hw ↦ by
    rw [List.mem_append, not_or] at hw
    exact (h'.untouched w hw.2).trans (h.untouched w hw.1)
  searchable := fun name hname ↦ h'.searchable name (h.searchable name hname)

/-- **All ready VMs.** Either every one now exists, or the search for the static requests of one
raised, and that one is lost. -/
theorem ends_commitReady : ∀ {vs : List VmRef} {s : State}, vs.Subperm s.starting →
    Ends (commitReady cfg vs) s (fun _ ↦ Readied cfg vs s) fun e s' ↦ NotFromRemove e ∧
      ∃ done v s₁, done ++ [v] <+: vs ∧ Readied cfg done s s₁ ∧ v ∈ s₁.starting ∧
        ¬Searchable cfg s.resources (s.vms v).cloudResourceName ∧
        s' = { s₁ with starting := s₁.starting.erase v } := by
  intro vs
  induction vs with
  | nil => exact fun _ ↦ .refl
  | cons v vs ih =>
    intro s hsub
    have hmem : v ∈ s.starting := hsub.subset List.mem_cons_self
    rw [commitReady, ends_bind]
    refine ends_readyVm hmem ?_ ?_
    · intro needed reqs hneed
      have hone := readied_ready hmem hneed
      have hrest : vs.Subperm (s.ready v needed reqs).starting := by
        rw [hone.starting]
        simpa using hsub.erase v
      refine (ih hrest).mono (fun _ s' h ↦ hone.trans h) ?_
      rintro e s' ⟨he, done, w, s₁, hpre, hready, hw, hsearch, rfl⟩
      refine ⟨he, v :: done, w, s₁, List.cons_prefix_cons.2 ⟨rfl, hpre⟩, hone.trans hready, hw,
        fun h ↦ hsearch ?_, rfl⟩
      rw [hone.resource]
      exact hone.searchable _ h
    · intro e he
      obtain ⟨hne, hsearch⟩ := State.needVm_eq_error he
      exact ⟨hne, [], v, s, by simp, .refl, hmem, hsearch, rfl⟩

theorem Readied.moves {lost : VmRef → Prop} {done : List VmRef} {s' : State}
    (h : Readied cfg done s s') : Moves lost s s' := by
  refine .of_perm ?_ h.nextVm.ge
  rw [State.tracked, State.tracked, h.existing, h.starting, h.deleting]
  have hmove : (s.existing ++ done ++ s.starting.diff done).Perm (s.existing ++ s.starting) := by
    rw [List.append_assoc]
    exact (append_diff_perm h.subperm).append_left _
  exact hmove.append_right _

end Ready

end DynamicTorque
