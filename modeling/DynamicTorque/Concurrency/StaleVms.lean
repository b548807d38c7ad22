import DynamicTorque.Language.Interleaving
import DynamicTorque.LifeCycle.Tracking

/-!
# Stale VMs

`kill_vm`, `forceoff` and the two pollers look a VM up, or scan a list, without the lock, and take
the VM out of its list under the lock later on. In between another thread may have taken it out.
`Undisturbed` says that a block does not meet such a VM. In every interleaving whose steps are all
undisturbed, `list.remove` never raises, the life-cycle lists stay a partition, and `kill_vm` moves
exactly one VM or raises without having touched the lists.

`Known` is what a call knows: VMs that it has seen in a list, the VM that it has created, and the
requests that it has read.
-/

open Python Atomic Program

namespace DynamicTorque

/-- The thread that makes a call. -/
def Operation.thread : Operation → Thread
  | .killVm _ _ | .forceoff _ => .infoServer
  | .checkExistingWorkerNodes _ | .query _ | .queueRequests _ => .jobPoller
  | .launchInstances _ | .updateProvisionStatus _ | .checkCleanup _ => .cloudPoller

/-! ### Disturbances -/

/-- The step looks into a list. -/
def Act.Reads (L : ListName) : Act → Prop
  | .list L' => L' = L
  | .findVm _ => L = .existing
  | _ => False

/-- The VMs that a block takes out of a list with `list.remove`. -/
def Block.takes : Block → ListName → List VmRef
  | .existingToDeleting v, .existing => [v]
  | .dropExisting v, .existing => [v]
  | .existingToStarting v, .existing => [v]
  | .destroyExisting v, .existing => [v]
  | .commitReady vs, .starting => vs
  | .startingToDeleting v, .starting => [v]
  | .commitCleanup deleted executing, .deleting => deleted ++ executing
  | _, _ => []

/-- Another thread has taken the VM out of the list since the call looked into the list last. -/
def TakenSinceRead (log : List (Entry Act State)) (L : ListName) (v : VmRef) : Prop :=
  ∃ before e after, log = before ++ e :: after ∧ e.own = false ∧ v ∈ e.before.list L ∧
    v ∉ e.after.list L ∧ ∀ x ∈ after, x.own = true → ¬x.op.Reads L

/-- A step that takes no VM out of a list from which another thread has taken it since the call
looked into the list, unless the VM is back. -/
def Undisturbed (_ : Thread) (log : List (Entry Act State)) (o : Act) (s : State) : Prop :=
  match o with
  | .locked b => ∀ L, ∀ v ∈ b.takes L, TakenSinceRead log L v → v ∈ s.list L
  | _ => True

/-! ### What a call has done to the lists -/

/-- The life-cycle lists are the same. -/
structure SameLists (s s' : State) : Prop where
  existing : s'.existing = s.existing
  starting : s'.starting = s.starting
  deleting : s'.deleting = s.deleting

/-- The call has not touched the lists. -/
def Untouched (log : List (Entry Act State)) : Prop :=
  ∀ e ∈ log, e.own = true → SameLists e.before e.after

/-- One VM is moved from the existing to the deleting ones. -/
structure MovesOne (s s' : State) (v : VmRef) : Prop where
  mem : v ∈ s.existing
  existing : s'.existing = s.existing.erase v
  starting : s'.starting = s.starting
  deleting : s'.deleting = s.deleting ++ [v]

/-- The call has touched the lists in one step, which moved one VM. -/
def KilledOne (log : List (Entry Act State)) : Prop :=
  ∃ before e after v, log = before ++ e :: after ∧ e.own = true ∧ MovesOne e.before e.after v ∧
    Untouched before ∧ Untouched after

/-- How a call of `kill_vm` may end. -/
def KillOutcome (call : Call Operation Act Act.Reply PyError State) : Prop :=
  (∀ e, call.left = .raise e → Untouched call.log) ∧ (call.left = .ret () → KilledOne call.log)

/-! ### What a call knows -/

/-- What a call has done so far. -/
inductive Deeds
  | nothing
  | killedOne
  | more

/-- What a call has done after it has moved a VM from the existing to the deleting ones. -/
def Deeds.kill : Deeds → Deeds
  | .nothing => .killedOne
  | _ => .more

/-- What a call knows. -/
structure Known where
  lists : ListName → List VmRef
  fresh : Option VmRef
  waiting : List WaitingRequest
  deeds : Deeds

namespace Known

/-- What a call knows in the beginning. -/
def nothing : Known := ⟨fun _ ↦ [], none, [], .nothing⟩

/-- What a call that has raised knows. -/
def lost : Known := ⟨fun _ ↦ [], none, [], .more⟩

/-- What a call knows after a block. -/
def afterBlock (k : Known) (b : Block) : Known where
  lists := fun L ↦
    match b with
    | .drain _ => []
    | _ => (k.lists L).filter (· ∉ b.takes L)
  fresh := none
  waiting :=
    match b with
    | .addStarting _ => k.waiting
    | _ => []
  deeds :=
    match b with
    | .existingToDeleting _ => k.deeds.kill
    | _ => .more

/-- What a call knows after a step. -/
def after (k : Known) : (o : Act) → Except PyError o.Reply → Known
  | .list L, .ok xs => { k with lists := Function.update k.lists L xs }
  | .findVm _, .ok found =>
    { k with lists := Function.update k.lists .existing (Option.toList (α := VmRef) found) }
  | .newVm _, .ok v => { k with fresh := some v }
  | .waiting, .ok xs => { k with waiting := xs }
  | .locked b, .ok _ => k.afterBlock b
  | _, .ok _ => k
  | _, .error _ => lost

theorem after_error (k : Known) (o : Act) (e : PyError) : k.after o (.error e) = lost := by
  cases o <;> rfl

theorem lists_after_list (k : Known) (L : ListName) (xs : List VmRef) :
    (k.after (.list L) (.ok xs)).lists L = xs :=
  Function.update_self ..

end Known

/-- The blocks that a thread may run. -/
def Block.Allowed (t : Thread) (k : Known) : Block → Prop
  | .existingToDeleting v | .dropExisting v => v ∈ k.lists .existing
  | .drain L => t ≠ .cloudPoller ∧ L ≠ .deleting
  | .commitReady vs => t = .cloudPoller ∧ vs.Nodup ∧ vs ⊆ k.lists .starting
  | .startingToDeleting v => t = .cloudPoller ∧ v ∈ k.lists .starting
  | .addStarting v => k.fresh = some v
  | .endLaunch rs => t = .cloudPoller ∧ rs.Subperm k.waiting
  | .commitCleanup deleted executing => t = .cloudPoller ∧ (deleted ++ executing).Nodup ∧
    deleted ++ executing ⊆ k.lists .deleting
  | .setProvisioning _ | .queueRequests _ | .updateAvailableCores => True
  | .existingToStarting _ | .destroyExisting _ => False

/-- The steps that a thread may take. -/
def Act.Allowed (t : Thread) (k : Known) : Act → Prop
  | .locked b => b.Allowed t k
  | .newVm _ => t = .cloudPoller
  | .setExisting _ | .calculate _ _ _ => False
  | _ => True

/-- What a step may raise. -/
def Act.Raises : Act → PyError → Prop
  | .locked (.commitReady _), e | .locked (.commitCleanup _ _), e => NotFromRemove e
  | _, _ => False

/-- What a step may reply. -/
def Act.Replies : (o : Act) → o.Reply → Prop
  | .list _, xs => List.Nodup (α := VmRef) xs
  | _, _ => True

/-- The discipline of a thread. -/
def staleDiscipline (t : Thread) : Discipline Act Act.Reply PyError Known where
  allows := Act.Allowed t
  replies := Act.Replies
  raises := Act.Raises
  after := Known.after

/-- What the knowledge means. -/
structure Knows (t : Thread) (k : Known) (log : List (Entry Act State)) (s : State) : Prop where
  listed : ∀ L, ∀ v ∈ k.lists L, v ∈ s.list L ∨ TakenSinceRead log L v
  fresh : ∀ v, k.fresh = some v → t = .cloudPoller ∧ v ∉ s.tracked ∧ v < s.nextVm
  waiting : t = .cloudPoller → k.waiting.Subperm s.waiting
  deeds : match k.deeds with
    | .nothing => Untouched log
    | .killedOne => KilledOne log
    | .more => True

/-! ### Logs -/

section Logs

variable {t : Thread} {k : Known} {log : List (Entry Act State)} {e : Entry Act State}
  {s s' : State} {L : ListName} {v : VmRef}

theorem SameLists.refl (s : State) : SameLists s s := ⟨rfl, rfl, rfl⟩

theorem SameLists.list (h : SameLists s s') (L : ListName) : s'.list L = s.list L := by
  cases L with
  | existing => exact h.existing
  | starting => exact h.starting
  | deleting => exact h.deleting

theorem SameLists.tracked (h : SameLists s s') : s'.tracked = s.tracked := by
  rw [State.tracked, State.tracked, h.existing, h.starting, h.deleting]

theorem TakenSinceRead.snoc (h : TakenSinceRead log L v) (he : e.own = true → ¬e.op.Reads L) :
    TakenSinceRead (log ++ [e]) L v := by
  obtain ⟨before, taken, after, hlog, hown, hbefore, hafter, hreads⟩ := h
  refine ⟨before, taken, after ++ [e], by simp [hlog], hown, hbefore, hafter, fun x hx ↦ ?_⟩
  rcases List.mem_append.1 hx with hx | hx
  · exact hreads x hx
  · rw [List.mem_singleton.1 hx]
    exact he

/-- A VM that another thread takes out of the list. -/
theorem mem_or_taken (o : Act) (h : v ∈ s.list L) :
    v ∈ s'.list L ∨ TakenSinceRead (log ++ [⟨false, o, s, s'⟩]) L v := by
  by_cases hv : v ∈ s'.list L
  · exact .inl hv
  · exact .inr ⟨log, ⟨false, o, s, s'⟩, [], rfl, rfl, h, hv, fun _ hx ↦
      absurd hx List.not_mem_nil⟩

theorem Untouched.snoc (h : Untouched log) (he : e.own = true → SameLists e.before e.after) :
    Untouched (log ++ [e]) := by
  intro x hx
  rcases List.mem_append.1 hx with hx | hx
  · exact h x hx
  · rw [List.mem_singleton.1 hx]
    exact he

theorem KilledOne.snoc (h : KilledOne log) (he : e.own = true → SameLists e.before e.after) :
    KilledOne (log ++ [e]) := by
  obtain ⟨before, killed, after, v, hlog, hown, hmoves, hbefore, hafter⟩ := h
  exact ⟨before, killed, after ++ [e], v, by simp [hlog], hown, hmoves, hbefore, hafter.snoc he⟩

/-- What a call has done, when an entry that does not concern the lists is added to its log. -/
theorem Knows.deeds_snoc (h : Knows t k log s) (he : e.own = true → SameLists e.before e.after) :
    match k.deeds with
    | .nothing => Untouched (log ++ [e])
    | .killedOne => KilledOne (log ++ [e])
    | .more => True := by
  have hdeeds := h.deeds
  cases hk : k.deeds with
  | nothing =>
    rw [hk] at hdeeds
    exact Untouched.snoc hdeeds he
  | killedOne =>
    rw [hk] at hdeeds
    exact KilledOne.snoc hdeeds he
  | more => trivial

theorem knows_nothing (t : Thread) (s : State) : Knows t .nothing [] s where
  listed := fun _ _ hv ↦ absurd hv List.not_mem_nil
  fresh := fun _ h ↦ nomatch h
  waiting := fun _ ↦ List.nil_subperm
  deeds := fun _ hx ↦ absurd hx List.not_mem_nil

theorem knows_lost (t : Thread) (log : List (Entry Act State)) (s : State) :
    Knows t .lost log s where
  listed := fun _ _ hv ↦ absurd hv List.not_mem_nil
  fresh := fun _ h ↦ nomatch h
  waiting := fun _ ↦ List.nil_subperm
  deeds := trivial

/-- A VM that a block takes out is in the list, unless the step is disturbed. -/
theorem Knows.mem (h : Knows t k log s) {b : Block} (hv : v ∈ k.lists L) (htakes : v ∈ b.takes L)
    (hundisturbed : Undisturbed t log (.locked b) s) : v ∈ s.list L :=
  (h.listed L v hv).elim id (hundisturbed L v htakes)

end Logs

/-! ### Steps outside the blocks -/

/-- From `s` to `s'` the lists stay, and nothing is taken off the waiting list. -/
structure Idles (s s' : State) : Prop where
  lists : SameLists s s'
  nextVm : s.nextVm ≤ s'.nextVm
  waiting : s.waiting <+: s'.waiting

section Idles

variable {t u : Thread} {k : Known} {log : List (Entry Act State)} {s s' : State} {o : Act}

theorem Idles.refl (s : State) : Idles s s := ⟨.refl s, le_rfl, List.prefix_refl _⟩

theorem Idles.of_eq (he : s'.existing = s.existing) (hs : s'.starting = s.starting)
    (hd : s'.deleting = s.deleting) (hnext : s.nextVm ≤ s'.nextVm)
    (hwaiting : s'.waiting = s.waiting) : Idles s s' :=
  ⟨⟨he, hs, hd⟩, hnext, hwaiting ▸ List.prefix_refl _⟩

theorem Idles.wellFormed (h : Idles s s') (hwell : WellFormed s) : WellFormed s' := by
  have hmoves : Moves (fun _ ↦ False) s s' :=
    .of_eq h.lists.existing h.lists.starting h.lists.deleting h.nextVm
  exact hmoves.wellFormed hwell

/-- What is known after a step of the thread's own that only idles, and does not look. -/
theorem Knows.idles (h : Knows t k log s) (hidles : Idles s s') (hreads : ∀ L, ¬o.Reads L) :
    Knows t k (log ++ [⟨true, o, s, s'⟩]) s' where
  listed := fun L v hv ↦ by
    rw [hidles.lists.list L]
    exact (h.listed L v hv).imp_right fun htaken ↦ htaken.snoc fun _ ↦ hreads L
  fresh := fun v hv ↦ by
    obtain ⟨ht, huntracked, hlt⟩ := h.fresh v hv
    exact ⟨ht, hidles.lists.tracked ▸ huntracked, hlt.trans_le hidles.nextVm⟩
  waiting := fun ht ↦ (h.waiting ht).trans hidles.waiting.sublist.subperm
  deeds := h.deeds_snoc fun _ ↦ hidles.lists

/-- What is known after a look into a list. -/
theorem Knows.look (h : Knows t k log s) (L : ListName) {xs : List VmRef} (o : Act)
    (hreads : ∀ L', o.Reads L' ↔ L' = L) (hxs : xs ⊆ s.list L) :
    Knows t { k with lists := Function.update k.lists L xs } (log ++ [⟨true, o, s, s⟩]) s where
  listed := fun L' v hv ↦ by
    replace hv : v ∈ Function.update k.lists L xs L' := hv
    by_cases hL : L' = L
    · subst hL
      rw [Function.update_self] at hv
      exact .inl (hxs hv)
    · rw [Function.update_of_ne hL] at hv
      exact (h.listed L' v hv).imp_right fun htaken ↦ htaken.snoc fun _ hread ↦
        hL ((hreads L').1 hread)
  fresh := h.fresh
  waiting := h.waiting
  deeds := h.deeds_snoc fun _ ↦ .refl s

end Idles

/-! ### Blocks -/

section Blocks

variable {cfg : Config} {t u : Thread} {k : Known} {log : List (Entry Act State)} {s s' : State}
  {v : VmRef}

/-- What is known after a block of the thread's own that takes out what it says it does. -/
theorem Knows.block (h : Knows t k log s) {b : Block}
    (hstays : ∀ L, ∀ v ∈ s.list L, v ∉ b.takes L → (∀ L', b ≠ .drain L') → v ∈ s'.list L)
    (hwaiting : t = .cloudPoller → (k.afterBlock b).waiting.Subperm s'.waiting)
    (hdeeds : (k.afterBlock b).deeds = .more) :
    Knows t (k.afterBlock b) (log ++ [⟨true, .locked b, s, s'⟩]) s' where
  listed := fun L v hv ↦ by
    have hdrain : ∀ L', b ≠ .drain L' := by
      rintro L' rfl
      exact absurd hv List.not_mem_nil
    have hmem : v ∈ (k.lists L).filter (· ∉ b.takes L) := by
      cases b with
      | drain L' => exact absurd rfl (hdrain L')
      | _ => exact hv
    obtain ⟨hv, htakes⟩ := List.mem_filter.1 hmem
    replace htakes : v ∉ b.takes L := by simpa using htakes
    exact (h.listed L v hv).imp (hstays L v · htakes hdrain) fun htaken ↦ htaken.snoc fun _ ↦ id
  fresh := fun _ h ↦ nomatch h
  waiting := hwaiting
  deeds := by rw [hdeeds]; trivial

/-- The blocks other than the one of `kill_vm` end in no particular way. -/
theorem deeds_afterBlock {b : Block} (h : ∀ v, b ≠ .existingToDeleting v) :
    (k.afterBlock b).deeds = .more := by
  cases b with
  | existingToDeleting v => exact absurd rfl (h v)
  | _ => rfl

theorem waiting_afterBlock {b : Block} (h : ∀ v, b ≠ .addStarting v) :
    (k.afterBlock b).waiting = [] := by
  cases b with
  | addStarting v => exact absurd rfl (h v)
  | _ => rfl

/-- A block that only takes out of the lists. -/
theorem mem_erase_of_not_mem_singleton {w : VmRef} {xs : List VmRef} (h : w ∈ xs)
    (hne : w ∉ [v]) : w ∈ xs.erase v :=
  (List.mem_erase_of_ne fun heq ↦ hne (List.mem_singleton.2 heq)).2 h

/-- **`kill_vm`, and the deletion of a drained worker.** -/
theorem perform_existingToDeleting (hwell : WellFormed s) (h : Knows t k log s)
    (hmem : v ∈ s.existing) :
    WellFormed { s with existing := s.existing.erase v, deleting := s.deleting ++ [v] } ∧
      Knows t (k.afterBlock (.existingToDeleting v))
        (log ++ [⟨true, .locked (.existingToDeleting v), s,
          { s with existing := s.existing.erase v, deleting := s.deleting ++ [v] }⟩])
        { s with existing := s.existing.erase v, deleting := s.deleting ++ [v] } := by
  have hmoves : Moves (fun _ ↦ False) s
      { s with existing := s.existing.erase v, deleting := s.deleting ++ [v] } :=
    moves_existingToDeleting hmem
  refine ⟨hmoves.wellFormed hwell, ?_⟩
  have hone : MovesOne s
      { s with existing := s.existing.erase v, deleting := s.deleting ++ [v] } v :=
    ⟨hmem, rfl, rfl, rfl⟩
  constructor
  · intro L w hw
    obtain ⟨hw, htakes⟩ := List.mem_filter.1 hw
    refine (h.listed L w hw).imp (fun hw ↦ ?_) fun htaken ↦ htaken.snoc fun _ ↦ id
    cases L with
    | existing => exact mem_erase_of_not_mem_singleton hw (by simpa [Block.takes] using htakes)
    | starting => exact hw
    | deleting => exact List.mem_append_left _ hw
  · exact fun _ h ↦ nomatch h
  · exact fun _ ↦ List.nil_subperm
  · have hdeeds := h.deeds
    show match k.deeds.kill with
      | .nothing => _
      | .killedOne => _
      | .more => True
    -- `kill_vm` moves one VM, and nothing before it
    cases hk : k.deeds with
    | nothing =>
      rw [hk] at hdeeds
      exact ⟨log, _, [], v, rfl, rfl, hone, hdeeds, fun _ hx ↦ absurd hx List.not_mem_nil⟩
    | killedOne => trivial
    | more => trivial

/-- What a step of a thread other than the CloudPoller leaves to the CloudPoller. -/
structure Bystands (s s' : State) : Prop where
  tracked : s'.tracked ⊆ s.tracked
  nextVm : s.nextVm ≤ s'.nextVm
  waiting : s.waiting <+: s'.waiting

theorem Idles.bystands (h : Idles s s') : Bystands s s' :=
  ⟨h.lists.tracked ▸ List.Subset.refl _, h.nextVm, h.waiting⟩

/-- What a step comes to. -/
structure Performed (t : Thread) (o : Act) (s s' : State) : Prop where
  wellFormed : WellFormed s'
  bystands : t ≠ .cloudPoller → Bystands s s'

/-- What a block comes to, if nothing disturbs it. -/
def PerformsBlock (cfg : Config) (t : Thread) (k : Known) (log : List (Entry Act State))
    (b : Block) (s : State) : Prop :=
  Ends (b.code cfg) s
    (fun _ s' ↦ Performed t (.locked b) s s' ∧
      Knows t (k.afterBlock b) (log ++ [⟨true, .locked b, s, s'⟩]) s')
    fun e s' ↦ Performed t (.locked b) s s' ∧ (Act.locked b).Raises e

/-- A block that does not touch the lists. -/
theorem performsBlock_idles {b : Block} (hwell : WellFormed s) (h : Knows t k log s)
    (hidles : Idles s s') (hcode : ∀ Q E, Ends (b.code cfg) s Q E ↔ Q () s')
    (hdeeds : ∀ v, b ≠ .existingToDeleting v) (hwaiting : ∀ v, b ≠ .addStarting v) :
    PerformsBlock cfg t k log b s := by
  refine (hcode _ _).2 ⟨⟨hidles.wellFormed hwell, fun _ ↦ hidles.bystands⟩, ?_⟩
  refine h.block (fun L v hv _ _ ↦ ?_) (fun _ ↦ ?_) (deeds_afterBlock hdeeds)
  · rw [hidles.lists.list L]
    exact hv
  · rw [waiting_afterBlock hwaiting]
    exact List.nil_subperm

/-- A VM leaves the existing ones for good. -/
theorem performsBlock_dropExisting (hwell : WellFormed s) (h : Knows t k log s)
    (hmem : v ∈ s.existing) : PerformsBlock cfg t k log (.dropExisting v) s := by
  have hmoves : Moves (fun _ ↦ True) s { s with existing := s.existing.erase v } :=
    moves_dropExisting hmem trivial
  refine (ends_dropExisting hmem).2
    ⟨⟨hmoves.wellFormed hwell, fun _ ↦ ⟨?_, le_rfl, List.prefix_refl _⟩⟩, ?_⟩
  · intro w hw
    rw [State.mem_tracked] at hw ⊢
    exact hw.imp_left List.mem_of_mem_erase
  · refine h.block (fun L w hw htakes _ ↦ ?_) (fun _ ↦ List.nil_subperm) rfl
    cases L with
    | existing => exact mem_erase_of_not_mem_singleton hw htakes
    | starting => exact hw
    | deleting => exact hw

/-- A list is emptied into the deleting one. -/
theorem performsBlock_drain {L : ListName} (hL : L ≠ .deleting) (hwell : WellFormed s)
    (h : Knows t k log s) : PerformsBlock cfg t k log (.drain L) s := by
  have hknows : ∀ s', Knows t (k.afterBlock (.drain L)) (log ++ [⟨true, .locked (.drain L), s, s'⟩])
      s' := fun s' ↦
    h.block (fun _ _ _ _ hdrain ↦ absurd rfl (hdrain L)) (fun _ ↦ List.nil_subperm) rfl
  cases L with
  | deleting => exact absurd rfl hL
  | existing =>
    have hmoves : Moves (fun _ ↦ False) s
        { s with existing := [], deleting := s.deleting ++ s.existing } := moves_drain_existing
    refine ⟨⟨hmoves.wellFormed hwell, fun _ ↦ ⟨?_, le_rfl, List.prefix_refl _⟩⟩, hknows _⟩
    intro w hw
    have hw' : w ∈ s.starting ∨ w ∈ s.deleting ∨ w ∈ s.existing := by
      simpa [State.tracked, State.setList, State.list] using hw
    rw [State.mem_tracked]
    tauto
  | starting =>
    have hmoves : Moves (fun _ ↦ False) s
        { s with starting := [], deleting := s.deleting ++ s.starting } := moves_drain_starting
    refine ⟨⟨hmoves.wellFormed hwell, fun _ ↦ ⟨?_, le_rfl, List.prefix_refl _⟩⟩, hknows _⟩
    intro w hw
    have hw' : w ∈ s.existing ∨ w ∈ s.deleting ∨ w ∈ s.starting := by
      simpa [State.tracked, State.setList, State.list] using hw
    rw [State.mem_tracked]
    tauto

/-- What the CloudPoller does under the lock concerns no other thread's blocks. -/
theorem performed_cloudPoller {o : Act} (hwell : WellFormed s') : Performed .cloudPoller o s s' :=
  ⟨hwell, fun hne ↦ absurd rfl hne⟩

/-- The VMs that are ready exist. The search for the static requests of one may raise. -/
theorem performsBlock_commitReady {vs : List VmRef} (hwell : WellFormed s)
    (h : Knows .cloudPoller k log s) (hsub : vs.Subperm s.starting) :
    PerformsBlock cfg .cloudPoller k log (.commitReady vs) s := by
  refine (ends_commitReady hsub).mono (fun _ s' h' ↦ ?_) fun e s' h' ↦ ?_
  · have hmoves : Moves (fun _ ↦ False) s s' := h'.moves
    refine ⟨performed_cloudPoller (hmoves.wellFormed hwell),
      h.block (fun L w hw htakes _ ↦ ?_) (fun _ ↦ List.nil_subperm) rfl⟩
    cases L with
    | existing =>
      show w ∈ s'.existing
      rw [h'.existing]
      exact List.mem_append_left _ hw
    | starting =>
      show w ∈ s'.starting
      rw [h'.starting]
      exact List.mem_diff_of_mem hw htakes
    | deleting =>
      show w ∈ s'.deleting
      rw [h'.deleting]
      exact hw
  · obtain ⟨he, done, v, s₁, -, hready, hmem, -, rfl⟩ := h'
    have hmoves : Moves (fun _ ↦ True) s { s₁ with starting := s₁.starting.erase v } :=
      hready.moves.trans (moves_dropStarting hmem trivial)
    exact ⟨performed_cloudPoller (hmoves.wellFormed hwell), he⟩

/-- A VM is given up. -/
theorem performsBlock_startingToDeleting (hwell : WellFormed s) (h : Knows .cloudPoller k log s)
    (hmem : v ∈ s.starting) : PerformsBlock cfg .cloudPoller k log (.startingToDeleting v) s := by
  have hmoves : Moves (fun _ ↦ False) s
      { s with starting := s.starting.erase v, deleting := s.deleting ++ [v] } :=
    moves_startingToDeleting hmem
  refine (ends_startingToDeleting hmem).2 ⟨performed_cloudPoller (hmoves.wellFormed hwell),
    h.block (fun L w hw htakes _ ↦ ?_) (fun _ ↦ List.nil_subperm) rfl⟩
  cases L with
  | existing => exact hw
  | starting => exact mem_erase_of_not_mem_singleton hw htakes
  | deleting => exact List.mem_append_left _ hw

/-- The VM that the call has created is being started. -/
theorem performsBlock_addStarting (hwell : WellFormed s) (h : Knows .cloudPoller k log s)
    (huntracked : v ∉ s.tracked) (hlt : v < s.nextVm) :
    PerformsBlock cfg .cloudPoller k log (.addStarting v) s := by
  have hperm : State.tracked { s with starting := s.starting ++ [v] } |>.Perm (v :: s.tracked) := by
    have hnew : (s.existing ++ (s.starting ++ [v])).Perm (v :: (s.existing ++ s.starting)) := by
      rw [← List.append_assoc]
      exact List.perm_append_singleton _ _
    exact hnew.append_right s.deleting
  have hwell' : WellFormed { s with starting := s.starting ++ [v] } := by
    refine ⟨partition_iff.2 (hperm.nodup_iff.2
      (List.nodup_cons.2 ⟨huntracked, partition_iff.1 hwell.partition⟩)), fun w hw ↦ ?_⟩
    rcases List.mem_cons.1 (hperm.mem_iff.1 hw) with rfl | hw
    · exact hlt
    · exact hwell.fresh w hw
  refine ⟨performed_cloudPoller hwell', h.block (fun L w hw _ _ ↦ ?_) h.waiting rfl⟩
  cases L with
  | existing => exact hw
  | starting => exact List.mem_append_left _ hw
  | deleting => exact hw

/-- The requests that were launched are taken off the waiting list. -/
theorem performsBlock_endLaunch {rs : List WaitingRequest} (hwell : WellFormed s)
    (h : Knows .cloudPoller k log s) (hsub : rs.Subperm s.waiting) :
    PerformsBlock cfg .cloudPoller k log (.endLaunch rs) s := by
  refine (ends_endLaunch hsub).mono ?_ fun _ _ h ↦ h.elim
  rintro ⟨⟩ s' rfl
  have hmoves : Moves (fun _ ↦ False) s { s with waiting := s.waiting.diff rs } :=
    .of_eq rfl rfl rfl le_rfl
  refine ⟨performed_cloudPoller (hmoves.wellFormed hwell),
    h.block (fun L w hw _ _ ↦ ?_) (fun _ ↦ List.nil_subperm) rfl⟩
  cases L with
  | existing => exact hw
  | starting => exact hw
  | deleting => exact hw

/-- The VMs that are gone are dropped, and those that are busy again exist again. -/
theorem performsBlock_commitCleanup {deleted executing : List VmRef} (hwell : WellFormed s)
    (h : Knows .cloudPoller k log s) (hsub : (deleted ++ executing).Subperm s.deleting) :
    PerformsBlock cfg .cloudPoller k log (.commitCleanup deleted executing) s := by
  have hdeleted : deleted.Subperm s.deleting := (List.sublist_append_left _ _).subperm.trans hsub
  have hdropped : ∀ {done s₁}, Dropped cfg done s s₁ → WellFormed s₁ := by
    intro done s₁ h₁
    have hmoves : Moves (fun _ ↦ True) s s₁ := moves_dropped h₁ fun _ _ ↦ trivial
    exact hmoves.wellFormed hwell
  refine ends_bind.2 ((ends_dropDeleted hdeleted).mono (fun _ s₁ h₁ ↦ ?_) ?_)
  · have hexecuting : executing.Subperm s₁.deleting := h₁.deleting ▸ subperm_diff hsub
    refine (ends_resumeExecuting hexecuting).mono (fun _ s₂ h₂ ↦ ?_) fun _ _ h ↦ h.elim
    have hresumed : Moves (fun _ ↦ False) s₁ s₂ := moves_resumed h₂
    refine ⟨performed_cloudPoller (hresumed.wellFormed (hdropped h₁)),
      h.block (fun L w hw htakes _ ↦ ?_) (fun _ ↦ List.nil_subperm) rfl⟩
    cases L with
    | existing =>
      show w ∈ s₂.existing
      rw [h₂.existing, h₁.existing]
      exact List.mem_append_left _ hw
    | starting =>
      show w ∈ s₂.starting
      rw [h₂.starting, h₁.starting]
      exact hw
    | deleting =>
      show w ∈ s₂.deleting
      rw [h₂.deleting, h₁.deleting, ← List.diff_append]
      exact List.mem_diff_of_mem hw htakes
  · rintro e s₁ ⟨he, done, -, h₁⟩
    exact ⟨performed_cloudPoller (hdropped h₁), he⟩

/-- **A block under the discipline**, if nothing disturbs it. -/
theorem performsBlock (hwell : WellFormed s) (h : Knows t k log s) {b : Block}
    (hallowed : b.Allowed t k) (hundisturbed : Undisturbed t log (.locked b) s) :
    PerformsBlock cfg t k log b s := by
  have hsubperm : ∀ {L vs}, vs.Nodup → vs ⊆ k.lists L → (∀ v ∈ vs, v ∈ b.takes L) →
      vs.Subperm (s.list L) := fun hnodup hsub htakes ↦
    List.subperm_of_subset hnodup fun v hv ↦ h.mem (hsub hv) (htakes v hv) hundisturbed
  cases b with
  | existingToDeleting v =>
    have hmem : v ∈ s.existing := h.mem (L := .existing) hallowed (by simp [Block.takes])
      hundisturbed
    obtain ⟨hwell', hknows⟩ := perform_existingToDeleting hwell h hmem
    refine (ends_existingToDeleting hmem).2 ⟨⟨hwell', fun _ ↦ ⟨?_, le_rfl, List.prefix_refl _⟩⟩,
      hknows⟩
    -- the bystanders keep every VM that they track
    intro w hw
    have hw' : w ∈ s.existing.erase v ∨ w ∈ s.starting ∨ w ∈ s.deleting ∨ w = v := by
      simpa [State.tracked] using hw
    rw [State.mem_tracked]
    rcases hw' with hw | hw | hw | rfl
    · exact .inl (List.mem_of_mem_erase hw)
    · exact .inr (.inl hw)
    · exact .inr (.inr hw)
    · exact .inl hmem
  | dropExisting v =>
    exact performsBlock_dropExisting hwell h
      (h.mem (L := .existing) hallowed (by simp [Block.takes]) hundisturbed)
  | drain L => exact performsBlock_drain hallowed.2 hwell h
  | commitReady vs =>
    obtain ⟨rfl, hnodup, hsub⟩ := hallowed
    exact performsBlock_commitReady hwell h (hsubperm (L := .starting) hnodup hsub fun _ ↦ id)
  | startingToDeleting v =>
    obtain ⟨rfl, hv⟩ := hallowed
    exact performsBlock_startingToDeleting hwell h
      (h.mem (L := .starting) hv (by simp [Block.takes]) hundisturbed)
  | addStarting v =>
    obtain ⟨rfl, huntracked, hlt⟩ := h.fresh v hallowed
    exact performsBlock_addStarting hwell h huntracked hlt
  | endLaunch rs =>
    obtain ⟨rfl, hsub⟩ := hallowed
    exact performsBlock_endLaunch hwell h (hsub.trans (h.waiting rfl))
  | commitCleanup deleted executing =>
    obtain ⟨rfl, hnodup, hsub⟩ := hallowed
    exact performsBlock_commitCleanup hwell h
      (hsubperm (L := .deleting) hnodup hsub fun _ ↦ id)
  | setProvisioning flag =>
    have hidles : Idles s { s with provisioning := flag } := .of_eq rfl rfl rfl le_rfl rfl
    exact performsBlock_idles hwell h hidles (fun _ _ ↦ Iff.rfl) (by simp) (by simp)
  | queueRequests requests =>
    have hidles : Idles s { s.waitFor (requests.map fun r ↦ (r, 1)) with provisioning := true } :=
      ⟨⟨rfl, rfl, rfl⟩, le_rfl, List.prefix_append _ _⟩
    exact performsBlock_idles hwell h hidles (fun _ _ ↦ Iff.rfl) (by simp) (by simp)
  | updateAvailableCores =>
    have hidles : Idles s s.updateAvailableCores := .of_eq rfl rfl rfl le_rfl rfl
    exact performsBlock_idles hwell h hidles (fun _ _ ↦ Iff.rfl) (by simp) (by simp)
  | existingToStarting v => exact hallowed.elim
  | destroyExisting v => exact hallowed.elim

end Blocks

/-! ### The rules -/

section Rules

variable {cfg : Config} {t u : Thread} {k k' : Known} {log log' : List (Entry Act State)}
  {s s' : State} {o : Act}

/-- What a step comes to, if nothing disturbs it. -/
def Performs (cfg : Config) (t : Thread) (k : Known) (log : List (Entry Act State)) (o : Act)
    (s : State) : Prop :=
  Ends (exec cfg o) s
    (fun r s' ↦ Performed t o s s' ∧ o.Replies r ∧
      Knows t (k.after o (.ok r)) (log ++ [⟨true, o, s, s'⟩]) s')
    fun e s' ↦ Performed t o s s' ∧ o.Raises e

/-- What a step outside the blocks comes to. -/
theorem performed_idles (hwell : WellFormed s) (h : Idles s s') : Performed t o s s' :=
  ⟨h.wellFormed hwell, fun _ ↦ h.bystands⟩

/-- A list of the partition has no duplicates. -/
theorem Partition.nodup (h : Partition s) (L : ListName) : (s.list L).Nodup := by
  cases L with
  | existing => exact h.existing
  | starting => exact h.starting
  | deleting => exact h.deleting

/-- **A step under the discipline**, if nothing disturbs it. -/
theorem performs (hwell : WellFormed s) (h : Knows t k log s) (hallowed : o.Allowed t k)
    (hundisturbed : Undisturbed t log o s) : Performs cfg t k log o s := by
  cases o with
  | locked b =>
    exact (performsBlock hwell h hallowed hundisturbed).mono
      (fun _ _ h' ↦ ⟨h'.1, trivial, h'.2⟩) fun _ _ h' ↦ h'
  | list L =>
    exact ⟨performed_idles hwell (.refl s), hwell.partition.nodup L,
      h.look L (.list L) (fun _ ↦ eq_comm) (List.Subset.refl _)⟩
  | findVm hostname =>
    refine ⟨performed_idles hwell (.refl s), trivial,
      h.look .existing (.findVm hostname) (fun _ ↦ Iff.rfl) fun v hv ↦ ?_⟩
    exact List.mem_of_find?_eq_some (Option.mem_toList.1 hv)
  | newVm vm =>
    -- a new VM is in no list, and no other thread knows it
    have hidles : Idles s (s.allocate [vm]) := .of_eq rfl rfl rfl (Nat.le_add_right _ _) rfl
    refine ⟨performed_idles hwell hidles, trivial, ?_⟩
    have hknows : Knows t k (log ++ [⟨true, .newVm vm, s, s.allocate [vm]⟩]) (s.allocate [vm]) :=
      h.idles hidles fun _ hread ↦ hread
    refine ⟨hknows.listed, fun v hv ↦ ?_, hknows.waiting, hknows.deeds⟩
    obtain rfl := Option.some.inj hv
    exact ⟨hallowed, fun hmem ↦ absurd (hwell.fresh _ hmem) (lt_irrefl _), Nat.lt_succ_self _⟩
  | waiting =>
    have hknows : Knows t k (log ++ [⟨true, .waiting, s, s⟩]) s :=
      h.idles (.refl s) fun _ hread ↦ hread
    exact ⟨performed_idles hwell (.refl s), trivial, hknows.listed, hknows.fresh,
      fun _ ↦ List.Subperm.refl _, hknows.deeds⟩
  | vm v => exact ⟨performed_idles hwell (.refl s), trivial, h.idles (.refl s) fun _ hr ↦ hr⟩
  | cluster => exact ⟨performed_idles hwell (.refl s), trivial, h.idles (.refl s) fun _ hr ↦ hr⟩
  | provisioning =>
    exact ⟨performed_idles hwell (.refl s), trivial, h.idles (.refl s) fun _ hr ↦ hr⟩
  | sleepMode => exact ⟨performed_idles hwell (.refl s), trivial, h.idles (.refl s) fun _ hr ↦ hr⟩
  | resources => exact ⟨performed_idles hwell (.refl s), trivial, h.idles (.refl s) fun _ hr ↦ hr⟩
  | setVm v f =>
    have hidles : Idles s (s.setVm v f) := .of_eq rfl rfl rfl le_rfl rfl
    exact ⟨performed_idles hwell hidles, trivial, h.idles hidles fun _ hr ↦ hr⟩
  | setCluster f =>
    have hidles : Idles s { s with cluster := f s.cluster } := .of_eq rfl rfl rfl le_rfl rfl
    exact ⟨performed_idles hwell hidles, trivial, h.idles hidles fun _ hr ↦ hr⟩
  | setProvisioning b =>
    have hidles : Idles s { s with provisioning := b } := .of_eq rfl rfl rfl le_rfl rfl
    exact ⟨performed_idles hwell hidles, trivial, h.idles hidles fun _ hr ↦ hr⟩
  | toggleSleepMode =>
    have hidles : Idles s { s with sleepMode := !s.sleepMode } := .of_eq rfl rfl rfl le_rfl rfl
    exact ⟨performed_idles hwell hidles, trivial, h.idles hidles fun _ hr ↦ hr⟩
  | setStatic resource reqs =>
    have hidles : Idles s { s with resources := s.resources.modify resource fun res ↦
        { res with staticVmsToStart := some reqs } } := .of_eq rfl rfl rfl le_rfl rfl
    exact ⟨performed_idles hwell hidles, trivial, h.idles hidles fun _ hr ↦ hr⟩
  | setAvailable resource n =>
    have hidles : Idles s { s with resources := s.resources.modify resource fun res ↦
        { res with availableNumberOfNodes := n } } := .of_eq rfl rfl rfl le_rfl rfl
    exact ⟨performed_idles hwell hidles, trivial, h.idles hidles fun _ hr ↦ hr⟩
  | appendWaiting requests =>
    have hidles : Idles s (s.waitFor requests) :=
      ⟨⟨rfl, rfl, rfl⟩, le_rfl, List.prefix_append _ _⟩
    exact ⟨performed_idles hwell hidles, trivial, h.idles hidles fun _ hr ↦ hr⟩
  | emit e =>
    have hidles : Idles s (s.emit e) := .of_eq rfl rfl rfl le_rfl rfl
    exact ⟨performed_idles hwell hidles, trivial, h.idles hidles fun _ hr ↦ hr⟩
  | dumpNodes =>
    have hidles : Idles s (s.emit (.dumpNodes (s.existing.map fun v ↦ (s.vms v).hostname))) :=
      .of_eq rfl rfl rfl le_rfl rfl
    exact ⟨performed_idles hwell hidles, trivial, h.idles hidles fun _ hr ↦ hr⟩
  | setExisting vms => exact hallowed.elim
  | calculate draws idleJobs numberOfWn => exact hallowed.elim

/-- What another thread does leaves a thread what it knows. -/
theorem Knows.interfere (h : Knows u k' log' s) (hu : u ≠ t) (hperformed : Performed t o s s') :
    Knows u k' (log' ++ [⟨false, o, s, s'⟩]) s' where
  listed := fun L v hv ↦ by
    rcases h.listed L v hv with hv | htaken
    · exact mem_or_taken o hv
    · exact .inr (htaken.snoc nofun)
  fresh := fun v hv ↦ by
    obtain ⟨rfl, huntracked, hlt⟩ := h.fresh v hv
    have hstands : Bystands s s' := hperformed.bystands (Ne.symm hu)
    exact ⟨rfl, fun hmem ↦ huntracked (hstands.tracked hmem), hlt.trans_le hstands.nextVm⟩
  waiting := fun hcloud ↦ by
    have hstands : Bystands s s' := hperformed.bystands fun ht ↦ hu (hcloud.trans ht.symm)
    exact (h.waiting hcloud).trans hstands.waiting.sublist.subperm
  deeds := h.deeds_snoc nofun

/-- Every step of a call that nothing disturbs keeps the lists well formed, and gives the call what
the discipline claims. -/
theorem stale_rules (cfg : Config) :
    Rules (exec cfg) staleDiscipline WellFormed Knows .nothing Undisturbed where
  start := fun t s _ ↦ knows_nothing t s
  perform := fun {t k log o s} hwell hknows hallowed hundisturbed ↦ by
    refine (performs hwell hknows hallowed hundisturbed).mono ?_ ?_
    · exact fun r s' h ↦ ⟨h.1.wellFormed, h.2⟩
    · intro e s' h
      have hlost : Knows t (k.after o (.error e)) (log ++ [⟨true, o, s, s'⟩]) s' := by
        rw [Known.after_error]
        exact knows_lost t _ s'
      exact ⟨h.1.wellFormed, h.2, hlost⟩
  interfere := fun hu hwell hknows hallowed hundisturbed hknows' ↦
    (performs hwell hknows hallowed hundisturbed).mono
      (fun _ _ h ↦ hknows'.interfere hu h.1) fun _ _ h ↦ hknows'.interfere hu h.1

end Rules

/-! ### The calls keep to the disciplines -/

section Calls

variable {cfg : Config} {t : Thread} {k : Known} {α : Type}

/-- What a call has seen in the lists, and what it has done. -/
structure SameSight (k k' : Known) : Prop where
  lists : k'.lists = k.lists
  deeds : k'.deeds = k.deeds

theorem preserves_scans (t : Thread) (k : Known) :
    (staleDiscipline t).Preserves (Act.Scans .any) (SameSight k) := by
  intro o ho k' h
  cases o with
  | locked b => exact ho.elim
  | list L => exact ho.elim
  | findVm hostname => exact ho.elim
  | newVm vm => exact ho.elim
  | setExisting vms => exact ho.elim
  | calculate draws idleJobs numberOfWn => exact ho.elim
  | waiting => exact ⟨trivial, fun _ ↦ id, fun _ ↦ ⟨h.lists, h.deeds⟩⟩
  | _ => exact ⟨trivial, fun _ ↦ id, fun _ ↦ h⟩

/-- A scan comes first. It teaches nothing about the lists. -/
theorem obeys_scan_bind {β : Type} {p : Proc α} {f : α → Proc β} {Φ : α → Prop}
    {Ψ : β → Known → Prop} {Ε : PyError → Known → Prop} (h : Scanning .any p Φ)
    (hf : ∀ a k', Φ a → SameSight k k' → (f a).Obeys (staleDiscipline t) Ψ Ε k')
    (hΕ : ∀ e k', NotFromRemove e → SameSight k k' → Ε e k') :
    (p >>= f).Obeys (staleDiscipline t) Ψ Ε k :=
  h.obeys_bind (preserves_scans t k) ⟨rfl, rfl⟩ hf hΕ

/-- A call of a thread that raises nothing that comes from `list.remove`. -/
abbrev ObeysStale (t : Thread) (p : Proc α) (Φ : α → Known → Prop) (k : Known) : Prop :=
  p.Obeys (staleDiscipline t) Φ (fun e _ ↦ NotFromRemove e) k

theorem obeysStale_scan_bind {β : Type} {p : Proc α} {f : α → Proc β}
    {Φ : α → Prop} {Ψ : β → Known → Prop} (h : Scanning .any p Φ)
    (hf : ∀ a k', Φ a → SameSight k k' → ObeysStale t (f a) Ψ k') :
    ObeysStale t (p >>= f) Ψ k :=
  obeys_scan_bind h hf fun _ _ he _ ↦ he

theorem obeysStale_scan {p : Proc α} {Φ : α → Prop} {Ψ : α → Known → Prop}
    (h : Scanning .any p Φ) (hΨ : ∀ a k', Φ a → SameSight k k' → Ψ a k') :
    ObeysStale t p Ψ k :=
  h.obeys (preserves_scans t k) ⟨rfl, rfl⟩ hΨ fun _ _ he _ ↦ he

/-- A block that raises nothing. -/
theorem obeysStale_locked {b : Block} {Ψ : Unit → Known → Prop} (hallowed : b.Allowed t k)
    (hΨ : Ψ () (k.afterBlock b)) : ObeysStale t (Proc.locked b) Ψ k := by
  refine ⟨hallowed, fun e he ↦ ?_, fun _ _ ↦ hΨ⟩
  cases b with
  | commitReady vs => exact he
  | commitCleanup deleted executing => exact he
  | _ => exact he.elim

theorem obeysStale_locked_bind {b : Block} {f : Unit → Proc α} {Ψ : α → Known → Prop}
    (hallowed : b.Allowed t k) (hf : ObeysStale t (f ()) Ψ (k.afterBlock b)) :
    ObeysStale t (Proc.locked b >>= f) Ψ k :=
  Obeys.bind (obeysStale_locked (Ψ := fun _ k' ↦ k' = k.afterBlock b) hallowed rfl)
    fun _ _ hk ↦ hk ▸ hf

/-! #### The administrator -/

/-- **`kill_vm`** raises before it has done anything, or moves the VM that it has looked up. -/
theorem obeys_killVm (vmName : String) (force : Bool) :
    (killVm cfg vmName force).Obeys (staleDiscipline .infoServer) (fun _ k ↦ k.deeds = .killedOne)
      (fun e k ↦ NotFromRemove e ∧ k.deeds = .nothing) .nothing := by
  refine .step trivial (fun _ he ↦ he.elim) fun found _ ↦ ?_
  cases found with
  | none => exact ⟨nofun, rfl⟩
  | some v =>
    refine obeys_scan_bind (scanning_findWnFromVm v) (fun record k₁ _ h₁ ↦ ?_)
      fun _ k₁ he h₁ ↦ ⟨he, h₁.deeds⟩
    cases record with
    | none => exact ⟨nofun, h₁.deeds⟩
    | some wn =>
      show Obeys _ _ _ (if _ then _ else _) _
      split
      · exact ⟨nofun, h₁.deeds⟩
      · refine .step trivial (fun _ he ↦ he.elim) fun _ _ ↦ ?_
        refine obeys_scan_bind (scanning_runCommand .holdNode v) (fun _ k₂ _ h₂ ↦ ?_)
          fun _ k₂ he h₂ ↦ ⟨he, h₂.deeds.trans h₁.deeds⟩
        have hseen : v ∈ k₂.lists .existing := by
          rw [h₂.lists]
          show v ∈ k₁.lists .existing
          rw [h₁.lists]
          exact List.mem_singleton_self v
        refine ⟨hseen, fun _ he ↦ he.elim, fun _ _ ↦ ?_⟩
        show k₂.deeds.kill = .killedOne
        rw [h₂.deeds]
        show k₁.deeds.kill = .killedOne
        rw [h₁.deeds]
        rfl

theorem obeys_forceoff (answers : ForceoffAnswers) :
    ObeysStale .infoServer (forceoff cfg answers) (fun _ _ ↦ True) k := by
  refine .step trivial (fun _ he ↦ he.elim) fun existing _ ↦ ?_
  refine obeysStale_scan_bind (scanning_forceoffExisting answers.existing existing) fun _ _ _ _ ↦ ?_
  refine obeysStale_locked_bind ⟨nofun, nofun⟩ ?_
  refine .step trivial (fun _ he ↦ he.elim) fun starting _ ↦ ?_
  refine obeysStale_scan_bind (scanning_forceoffStarting answers.starting starting) fun _ _ _ _ ↦ ?_
  exact obeysStale_locked ⟨nofun, nofun⟩ trivial

/-! #### The JobPoller -/

theorem obeys_shutDownIdle (call : DestroyCall) (wn : WorkerNode) (v : VmRef) :
    ObeysStale .jobPoller (shutDownIdle cfg call wn v) (fun _ _ ↦ True) k := by
  refine .step trivial (fun _ he ↦ he.elim) fun _ _ ↦ ?_
  refine obeysStale_scan_bind (scanning_removeNode v) fun _ _ _ _ ↦ ?_
  refine obeysStale_scan_bind
    (scanning_vmDestroy trivial (fun _ ↦ trivial) call.now) fun _ _ _ _ ↦ ?_
  refine .step trivial (fun _ he ↦ he.elim) fun (existing : List VmRef) _ ↦ ?_
  refine Obeys.bind (Φ := fun _ _ ↦ True) (obeys_when (fun hmem ↦ ?_) fun _ ↦ trivial)
    fun _ _ _ ↦ ?_
  · exact obeysStale_locked (b := .dropExisting v) hmem trivial
  · refine obeysStale_locked_bind trivial ?_
    exact ⟨trivial, fun _ he ↦ he.elim, fun _ _ ↦ trivial⟩

theorem obeys_swapStatic (call : DestroyCall) (wn : WorkerNode) (v : VmRef)
    (wns : List WorkerNode) :
    ObeysStale .jobPoller (swapStatic cfg call wn v wns) (fun _ _ ↦ True) k := by
  induction wns generalizing k with
  | nil => trivial
  | cons otherWn rest ih =>
    rw [swapStatic]
    split
    · refine .step trivial (fun _ he ↦ he.elim) fun found _ ↦ ?_
      cases found with
      | none => exact ih
      | some otherV =>
        refine .step trivial (fun _ he ↦ he.elim) fun (other : VM) _ ↦ ?_
        refine .step trivial (fun _ he ↦ he.elim) fun (theVm : VM) _ ↦ ?_
        split
        · refine .step trivial (fun _ he ↦ he.elim) fun _ _ ↦ ?_
          refine .step trivial (fun _ he ↦ he.elim) fun _ _ ↦ ?_
          exact obeys_shutDownIdle call wn v
        · exact ih
    · exact ih

theorem obeys_shutDownOrSwap (call : DestroyCall) (wn : WorkerNode) (v : VmRef) :
    ObeysStale .jobPoller (shutDownOrSwap cfg call wn v) (fun _ _ ↦ True) k := by
  refine .step trivial (fun _ he ↦ he.elim) fun (vm : VM) _ ↦ ?_
  split
  · exact obeys_shutDownIdle call wn v
  · refine .step trivial (fun _ he ↦ he.elim) fun (running : Cluster) _ ↦ ?_
    refine Obeys.bind (Φ := fun _ _ ↦ True) (obeys_when (fun _ ↦ ?_) fun _ ↦ trivial) fun _ _ _ ↦ ?_
    · exact .step trivial (fun _ he ↦ he.elim) fun (c : Cluster) _ ↦
        obeys_swapStatic call wn v c.workerNodes
    · exact obeysStale_scan (scanning_warnBaseFlavor v) fun _ _ _ _ ↦ trivial

/-- The VM that is to be deleted is the one that was looked up. -/
theorem obeys_checkIdleWorker (answers : WorkerAnswers) (wn : WorkerNode) (v : VmRef)
    (hseen : v ∈ k.lists .existing) :
    ObeysStale .jobPoller (checkIdleWorker cfg answers wn v)
      (fun toDelete k ↦ toDelete = true → v ∈ k.lists .existing) k := by
  refine .step trivial (fun _ he ↦ he.elim) fun (vm : VM) _ ↦ ?_
  split
  · exact (obeys_shutDownOrSwap answers.destroy wn v).bind fun _ _ _ ↦ nofun
  · split
    · exact fun _ ↦ hseen
    · split
      · exact fun _ ↦ hseen
      · exact nofun

theorem obeys_checkWorker (answers : WorkerAnswers) (wn : WorkerNode) :
    ObeysStale .jobPoller (checkWorker cfg answers wn) (fun _ _ ↦ True) k := by
  refine .step trivial (fun _ he ↦ he.elim) fun found _ ↦ ?_
  cases found with
  | none => trivial
  | some v =>
    refine obeysStale_scan_bind (scanning_recordState trivial _)
      fun _ k₁ _ h₁ ↦ obeysStale_scan_bind (scanning_holdOtherImage v)
        fun _ k₂ _ h₂ ↦ ?_
    have hseen : v ∈ k₂.lists .existing := by
      rw [h₂.lists, h₁.lists]
      exact List.mem_singleton_self v
    split
    · refine (obeys_checkIdleWorker answers wn v hseen).bind fun toDelete _ hv ↦ ?_
      exact obeys_when (fun htoDelete ↦ obeysStale_locked (b := .existingToDeleting v)
        (hv htoDelete) trivial) fun _ ↦ trivial
    · trivial

theorem obeys_checkExistingWorkerNodes (answers : ℕ → WorkerAnswers) :
    ObeysStale .jobPoller (checkExistingWorkerNodes cfg answers) (fun _ _ ↦ True) k := by
  refine .step trivial (fun _ he ↦ he.elim) fun (c : Cluster) _ ↦ ?_
  refine Obeys.bind (Φ := fun _ _ ↦ True) ?_ fun _ _ _ ↦ obeysStale_locked trivial trivial
  exact obeys_forEach (I := fun _ _ _ ↦ True) (fun _ wn _ _ _ _ _ ↦ obeys_checkWorker _ wn) trivial

/-! #### The CloudPoller -/

/-- The VM that `vm_start` returns is new. -/
theorem obeys_vmStart_fresh (flavor : FlavorRef) (zone : Option String) (resource : String)
    (answer : Option StartedServer) :
    ObeysStale .cloudPoller (vmStart cfg flavor zone resource answer)
      (fun started k' ↦ k'.waiting = k.waiting ∧ ∀ v, started = some v → k'.fresh = some v) k := by
  refine .step trivial (fun _ he ↦ he.elim) fun (crs : CloudResources) _ ↦ ?_
  refine Obeys.bind (Φ := fun _ k' ↦ k' = k)
    (obeys_lift (fun _ _ ↦ rfl) fun _ he ↦ notFromRemove_of_get he) ?_
  rintro res k' rfl
  refine .step trivial (fun _ he ↦ he.elim) fun _ _ ↦ ?_
  cases answer with
  | none => exact ⟨rfl, nofun⟩
  | some server =>
    refine .step rfl (fun _ he ↦ he.elim) fun v _ ↦ ⟨rfl, fun w hw ↦ ?_⟩
    obtain rfl := Option.some.inj hw
    rfl

/-- An entry of the waiting list. Only entries that were read are marked for removal. -/
theorem obeys_launchVisit_stale {answer : Option StartedServer} {entry : WaitingRequest}
    {loop : LaunchLoop} {done : List WaitingRequest} {waiting : List WaitingRequest}
    (hwaiting : k.waiting = waiting) (hsub : loop.toRemove.Sublist done) :
    ObeysStale .cloudPoller (launchVisit cfg answer entry loop)
      (fun loop k ↦ k.waiting = waiting ∧ loop.toRemove.Sublist (done ++ [entry])) k := by
  have hold : loop.toRemove.Sublist (done ++ [entry]) := hsub.trans (List.sublist_append_left _ _)
  have hnew : (loop.toRemove ++ [entry]).Sublist (done ++ [entry]) := hsub.append_right [entry]
  rw [launchVisit]
  split
  · exact ⟨hwaiting, hold⟩
  · split
    · split
      · exact ⟨hwaiting, hold⟩
      · exact ⟨hwaiting, hnew⟩
    · refine (obeys_vmStart_fresh _ _ _ _).bind fun started k₁ h₁ ↦ ?_
      obtain ⟨hsame, hfresh⟩ := h₁
      cases started with
      | none => exact ⟨hsame.trans hwaiting, hold⟩
      | some v =>
        exact obeysStale_locked_bind (b := .addStarting v) (hfresh v rfl)
          ⟨hsame.trans hwaiting, hnew⟩

theorem obeys_launchInstances (answers : ℕ → Option StartedServer) :
    ObeysStale .cloudPoller (launchInstances cfg answers) (fun _ _ ↦ True) k := by
  refine .step trivial (fun _ he ↦ he.elim) fun (waiting₀ : List WaitingRequest) _ ↦ ?_
  split
  · refine .step trivial (fun _ he ↦ he.elim) fun (starting₀ : List VmRef) _ ↦ ?_
    split
    · refine obeysStale_locked_bind trivial ?_
      refine .step trivial (fun _ he ↦ he.elim) fun (starting : List VmRef) _ ↦ ?_
      refine .step trivial (fun _ he ↦ he.elim) fun (waiting : List WaitingRequest) _ ↦ ?_
      refine Obeys.bind (Φ := fun (loop : LaunchLoop) (k : Known) ↦ k.waiting = waiting ∧
        loop.toRemove.Sublist waiting) ?_ fun loop k h ↦ ?_
      · exact obeys_forEach (I := fun done (loop : LaunchLoop) (k : Known) ↦ k.waiting = waiting ∧
          loop.toRemove.Sublist done) (fun done entry rest loop k _ h ↦
            obeys_launchVisit_stale h.1 h.2) ⟨rfl, .slnil⟩
      · exact obeysStale_locked ⟨rfl, h.1 ▸ h.2.subperm⟩ trivial
    · trivial
  · trivial

/-- The loop over the VMs that are given up. Those that are left have been seen being started. -/
theorem obeys_giveUps (calls : ℕ → DestroyCall) {toDelete : List (VmRef × Option WorkerNode)}
    (hnodup : (toDelete.map Prod.fst).Nodup)
    (hseen : ∀ v ∈ toDelete.map Prod.fst, v ∈ k.lists .starting) :
    ObeysStale .cloudPoller
      (forEach (fun i vr _ ↦ giveUp (calls i) vr.1 vr.2) 0 toDelete ()) (fun _ _ ↦ True) k := by
  refine Obeys.mono (obeys_forEach (I := fun done (_ : Unit) (k : Known) ↦ ∀ rest,
    done ++ rest = toDelete → ∀ v ∈ rest.map Prod.fst, v ∈ k.lists .starting) ?_ ?_)
      (fun _ _ _ ↦ trivial) fun _ _ he ↦ he
  · rintro done ⟨v, record⟩ rest ⟨⟩ k hdone hleft
    have hv : v ∈ k.lists .starting := hleft _ hdone v List.mem_cons_self
    refine .step trivial (fun _ he ↦ he.elim) fun (vm : VM) _ ↦ ?_
    refine Obeys.bind (Φ := fun _ k' ↦ k' = k) ?_ ?_
    · rw [askAgain.eq_def]
      split
      · exact ⟨trivial, fun _ he ↦ he.elim, fun _ _ ↦ rfl⟩
      · rfl
    · rintro _ _ rfl
      refine obeysStale_scan_bind (scanning_vmDestroy trivial (fun _ ↦ trivial) _)
        fun _ k₁ _ h₁ ↦ ?_
      refine obeysStale_locked ⟨rfl, h₁.lists ▸ hv⟩ fun rest' hrest' w hw ↦ ?_
      -- the VMs that are left are not the one that has been moved
      obtain rfl : rest' = rest := by simpa using (hrest'.trans hdone.symm)
      have hne : w ≠ v := by
        rw [← hdone, List.map_append, List.nodup_append'] at hnodup
        rintro rfl
        exact (List.nodup_cons.1 hnodup.2.1).1 hw
      refine List.mem_filter.2 ⟨?_, by simpa [Block.takes] using hne⟩
      rw [h₁.lists]
      exact hleft _ hdone w (List.mem_cons_of_mem _ hw)
  · rintro rest rfl v hv
    exact hseen v hv

theorem obeys_finishProvisioning (launch : ℕ → Option StartedServer) :
    ObeysStale .cloudPoller (finishProvisioning cfg launch) (fun _ _ ↦ True) k := by
  refine .step trivial (fun _ he ↦ he.elim) fun (starting : List VmRef) _ ↦ ?_
  split
  · refine .step trivial (fun _ he ↦ he.elim) fun (waiting : List WaitingRequest) _ ↦ ?_
    split
    · exact obeysStale_locked trivial trivial
    · exact obeys_launchInstances launch
  · exact obeys_launchInstances launch

/-- What the first loop of `update_provision_status` has come to after the VMs `done`. -/
def ProvisionSeen (starting done : List VmRef) (scratch : ProvisionScratch) (k : Known) : Prop :=
  k.lists .starting = starting ∧
    (scratch.readyToUse ++ scratch.toDelete.map Prod.fst).Subperm done

/-- **`update_provision_status`** moves VMs that it has seen being started, each of them once. -/
theorem obeys_updateProvisionStatus (answers : UpdateAnswers) :
    ObeysStale .cloudPoller (updateProvisionStatus cfg answers) (fun _ _ ↦ True) k := by
  refine .step trivial (fun _ he ↦ he.elim) fun (starting : List VmRef) hnodup ↦ ?_
  refine Obeys.bind (Φ := ProvisionSeen starting starting) ?_ ?_
  · refine obeys_forEach (I := ProvisionSeen starting) ?_ ⟨Known.lists_after_list .., .refl _⟩
    intro done v rest scratch k _ h
    refine obeysStale_scan (scanning_provisionVisit trivial _ scratch) fun scratch' k' hadds h' ↦ ?_
    obtain ⟨outcome, rfl⟩ := hadds
    exact ⟨(congrFun h'.lists _).trans h.1, outcome.subperm_add h.2⟩
  · rintro scratch k ⟨hstarting, hsub⟩
    have hsubset : scratch.readyToUse ++ scratch.toDelete.map Prod.fst ⊆ starting := hsub.subset
    obtain ⟨hready, hdelete, hdisjoint⟩ := nodup_of_subperm hsub hnodup
    refine obeysStale_locked_bind ⟨rfl, hready, fun v hv ↦ ?_⟩ ?_
    · rw [hstarting]
      exact hsubset (List.mem_append_left _ hv)
    refine (obeys_giveUps answers.destroy hdelete fun v hv ↦ ?_).bind fun _ _ _ ↦ ?_
    · refine List.mem_filter.2 ⟨?_, decide_eq_true fun h ↦ hdisjoint h hv⟩
      rw [hstarting]
      exact hsubset (List.mem_append_right _ hv)
    · refine obeysStale_locked_bind trivial ?_
      exact obeysStale_scan_bind scanning_dumpNodes fun _ _ _ _ ↦
        obeys_finishProvisioning answers.launch

/-- What the first loop of `check_cleanup` has come to after the VMs `done`. -/
def CleanupSeen (deleting done : List VmRef) (scratch : CleanupScratch) (k : Known) : Prop :=
  k.lists .deleting = deleting ∧ (scratch.deleted ++ scratch.executing).Subperm done

/-- **`check_cleanup`** takes VMs that it has seen in the deleting list, each of them once. -/
theorem obeys_checkCleanup (answers : CleanupCalls) :
    ObeysStale .cloudPoller (checkCleanup cfg answers) (fun _ _ ↦ True) k := by
  refine .step trivial (fun _ he ↦ he.elim) fun (deleting₀ : List VmRef) _ ↦ ?_
  split
  · trivial
  refine .step trivial (fun _ he ↦ he.elim) fun (deleting : List VmRef) hnodup ↦ ?_
  refine Obeys.bind (Φ := CleanupSeen deleting deleting) ?_ ?_
  · refine obeys_forEach (I := CleanupSeen deleting) ?_ ⟨Known.lists_after_list .., .refl _⟩
    intro done v rest scratch k _ h
    refine obeysStale_scan (scanning_cleanupVisit _ trivial (fun _ ↦ trivial) scratch)
      fun scratch' k' hadds h' ↦ ?_
    exact ⟨(congrFun h'.lists _).trans h.1, hadds.subperm h.2⟩
  · rintro scratch k ⟨hdeleting, hsub⟩
    have hdistinct : (scratch.deleted ++ scratch.executing).Nodup :=
      List.nodup_append'.2 (nodup_of_subperm hsub hnodup)
    refine obeysStale_locked_bind ⟨rfl, hdistinct, hdeleting.symm ▸ hsub.subset⟩ ?_
    refine obeysStale_locked_bind trivial ?_
    refine obeysStale_scan_bind scanning_dumpNodes fun _ _ _ _ ↦ ?_
    refine .step trivial (fun _ he ↦ he.elim) fun (waiting : List WaitingRequest) _ ↦ ?_
    split
    · refine .step trivial (fun _ he ↦ he.elim) fun (provisioning : Bool) _ ↦ ?_
      split
      · exact obeys_launchInstances answers.launch
      · trivial
    · trivial

/-- What a call has done when it returns. -/
def Operation.Returned (op : Operation) (k : Known) : Prop :=
  ∀ vmName force, op = .killVm vmName force → k.deeds = .killedOne

/-- What a call has done when it raises. -/
def Operation.Raised (op : Operation) (e : PyError) (k : Known) : Prop :=
  NotFromRemove e ∧ ∀ vmName force, op = .killVm vmName force → k.deeds = .nothing

/-- **Every call** keeps to the discipline of its thread. -/
theorem obeys_operation (op : Operation) :
    (op.program cfg).Obeys (staleDiscipline op.thread) (fun _ ↦ op.Returned) op.Raised
      .nothing := by
  have hother : (∀ vmName force, op ≠ .killVm vmName force) → ∀ {p : Proc Unit},
      ObeysStale op.thread p (fun _ _ ↦ True) .nothing →
        p.Obeys (staleDiscipline op.thread) (fun _ ↦ op.Returned) op.Raised .nothing := by
    intro hkill p hp
    exact hp.mono (fun _ _ _ vmName force h ↦ absurd h (hkill vmName force))
      fun e _ he ↦ ⟨he, fun vmName force h ↦ absurd h (hkill vmName force)⟩
  cases op with
  | killVm vmName force =>
    exact (obeys_killVm vmName force).mono (fun _ _ h _ _ _ ↦ h) fun _ _ h ↦ ⟨h.1, fun _ _ _ ↦ h.2⟩
  | forceoff answers => exact hother nofun (obeys_forceoff answers)
  | checkExistingWorkerNodes answers => exact hother nofun (obeys_checkExistingWorkerNodes answers)
  | launchInstances answers => exact hother nofun (obeys_launchInstances answers)
  | updateProvisionStatus answers => exact hother nofun (obeys_updateProvisionStatus answers)
  | checkCleanup answers => exact hother nofun (obeys_checkCleanup answers)
  | query report => exact hother nofun ⟨trivial, fun _ he ↦ he.elim, fun _ _ ↦ trivial⟩
  | queueRequests requests => exact hother nofun (obeysStale_locked trivial trivial)

end Calls

/-! ### Runs -/

/-- The pool in which each thread makes its calls. -/
def callers (cfg : Config) (calls : Thread → List Operation) (s : State) :
    Pool Thread Operation Act Act.Reply PyError State :=
  Pool.start (Operation.program cfg) calls s

/-- What a call in progress may have come to: it has raised nothing that comes from `list.remove`,
and `kill_vm` has moved one VM or none. -/
structure Safe (call : Call Operation Act Act.Reply PyError State) : Prop where
  raised : ∀ e, call.left = .raise e → NotFromRemove e
  killed : ∀ vmName force, call.name = .killVm vmName force → KillOutcome call

/-- What the discipline of its thread says of a call that is over. -/
theorem safe_of_obeys {call : Call Operation Act Act.Reply PyError State} {t : Thread} {k : Known}
    {s : State} (hobeys : call.ObeysAt staleDiscipline Operation.Returned Operation.Raised t k)
    (hknows : Knows t k call.log s) : Safe call where
  raised := fun e he ↦ by
    rw [Call.ObeysAt, he] at hobeys
    exact hobeys.1
  killed := fun vmName force hname ↦ by
    have hdeeds := hknows.deeds
    refine ⟨fun e he ↦ ?_, fun hret ↦ ?_⟩
    · rw [Call.ObeysAt, he] at hobeys
      rwa [hobeys.2 vmName force hname] at hdeeds
    · rw [Call.ObeysAt, hret] at hobeys
      rwa [hobeys vmName force hname] at hdeeds

/-- **The administrator is safe against the pollers**, as long as no step is disturbed: in every
interleaving the lists stay a partition, no `list.remove` raises, and `kill_vm` moves one VM from
the existing to the deleting ones, or raises and has not touched the lists. -/
theorem admin_safe_of_run (cfg : Config) (calls : Thread → List Operation) (s : State)
    (schedule : List Thread) (hthread : ∀ t, ∀ op ∈ calls t, op.thread = t) (h : WellFormed s)
    (hundisturbed : ∀ before t after, schedule = before ++ t :: after →
      ((callers cfg calls s).run (exec cfg) before).Meets Undisturbed t) :
    ∀ before after, schedule = before ++ after →
      Partition ((callers cfg calls s).run (exec cfg) before).shared ∧
        ∀ t call rest, ((callers cfg calls s).run (exec cfg) before).threads t = call :: rest →
          Safe call := by
  have hfine : (callers cfg calls s).Fine staleDiscipline WellFormed Knows .nothing
      Operation.Returned Operation.Raised := by
    refine Pool.fine_start h (fun t ↦ knows_nothing t s) fun t op hop ↦ ?_
    obtain rfl := hthread t op hop
    exact obeys_operation op
  intro before after hschedule
  have hrun := (stale_rules cfg).fine_of_run hfine schedule hundisturbed before after hschedule
  refine ⟨hrun.shared.partition, fun t call rest hcall ↦ ?_⟩
  obtain ⟨k, hobeys, hknows⟩ := hrun.call hcall
  exact safe_of_obeys hobeys hknows

/-- The administrator kills a worker while the JobPoller checks it. -/
def killAndCheck : Thread → List Operation
  | .infoServer => [.killVm "wn1" false]
  | .jobPoller => [.checkExistingWorkerNodes fun _ ↦ ⟨some "drained", ⟨.failed, 0⟩⟩]
  | .cloudPoller => []

theorem thread_of_killAndCheck : ∀ t, ∀ op ∈ killAndCheck t, op.thread = t := by
  intro t op hop
  cases t with
  | infoServer =>
    obtain rfl := List.mem_singleton.1 hop
    rfl
  | jobPoller =>
    obtain rfl := List.mem_singleton.1 hop
    rfl
  | cloudPoller => exact absurd hop List.not_mem_nil

/-- The JobPoller begins, and the administrator is done before it looks for the VM. -/
def killFirst : List Thread :=
  .jobPoller :: List.replicate 7 .infoServer

theorem admin_safe_of_run_killAndCheck :
    Partition ((callers {} killAndCheck oneWorkerLoaded).run (exec {}) killFirst).shared ∧
      ∀ t call rest, ((callers {} killAndCheck oneWorkerLoaded).run (exec {}) killFirst).threads t =
        call :: rest → Safe call := by
  refine admin_safe_of_run {} killAndCheck oneWorkerLoaded killFirst thread_of_killAndCheck
    ⟨partition_iff.2 (by decide), by decide⟩ (Pool.meets_of_turns ?_) killFirst []
      (List.append_nil killFirst).symm
  refine ⟨Pool.meets_of_next rfl rfl trivial, Pool.meets_of_next rfl rfl trivial,
    Pool.meets_of_next rfl rfl trivial, Pool.meets_of_next rfl rfl trivial,
    Pool.meets_of_next rfl rfl trivial, Pool.meets_of_next rfl rfl trivial,
    Pool.meets_of_next rfl rfl trivial, Pool.meets_of_next rfl rfl fun L v hv _ ↦ ?_, trivial⟩
  cases L with
  | existing =>
    obtain rfl := List.mem_singleton.1 hv
    exact List.mem_singleton_self _
  | starting => exact absurd hv List.not_mem_nil
  | deleting => exact absurd hv List.not_mem_nil

/-- The administrator looks the worker up, and moves it after the JobPoller has done so. -/
def staleKill : List Thread :=
  List.replicate 6 .infoServer ++ List.replicate 9 .jobPoller ++ [.infoServer]

/-- The VM that was moved in between is listed twice. -/
theorem admin_disturbed : ¬∀ (cfg : Config) (calls : Thread → List Operation) (s : State)
    (schedule : List Thread), (∀ t, ∀ op ∈ calls t, op.thread = t) → WellFormed s →
      Partition ((callers cfg calls s).run (exec cfg) schedule).shared ∧
        ∀ t call rest, ((callers cfg calls s).run (exec cfg) schedule).threads t = call :: rest →
          Safe call := by
  intro h
  have hpartition := (h {} killAndCheck oneWorkerLoaded staleKill thread_of_killAndCheck
    ⟨partition_iff.2 (by decide), by decide⟩).1
  have htwice : ¬((callers {} killAndCheck oneWorkerLoaded).run (exec {})
      staleKill).shared.deleting.Nodup := by
    decide +kernel
  exact htwice hpartition.deleting

end DynamicTorque
