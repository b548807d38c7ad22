import DynamicTorque.LifeCycle.Steps
import Mathlib.Data.List.Nodup
import Mathlib.Data.List.Perm.Basic

/-!
# The life-cycle lists

A VM is *tracked* while it is in one of the three lists. `WellFormed` says that the lists form a
partition and that every tracked VM has been created. What each block does to the lists is stated
once, as the exact state it leaves; whether it keeps the lists well formed and forgets no VM
(`Moves`) follows from a permutation of the tracked VMs.
-/

open Python Atomic

namespace DynamicTorque

/-- The VMs in the life-cycle lists. -/
def State.tracked (s : State) : List VmRef :=
  s.existing ++ s.starting ++ s.deleting

theorem State.mem_tracked {s : State} {v : VmRef} :
    v ∈ s.tracked ↔ v ∈ s.existing ∨ v ∈ s.starting ∨ v ∈ s.deleting := by
  simp [State.tracked]

/-- The lists are duplicate-free and pairwise disjoint. -/
structure Partition (s : State) : Prop where
  existing : s.existing.Nodup
  starting : s.starting.Nodup
  deleting : s.deleting.Nodup
  existing_starting : s.existing.Disjoint s.starting
  existing_deleting : s.existing.Disjoint s.deleting
  starting_deleting : s.starting.Disjoint s.deleting

theorem partition_iff {s : State} : Partition s ↔ s.tracked.Nodup := by
  rw [State.tracked, List.nodup_append', List.nodup_append', List.disjoint_append_left]
  exact ⟨fun h ↦ ⟨⟨h.existing, h.starting, h.existing_starting⟩, h.deleting,
      h.existing_deleting, h.starting_deleting⟩,
    fun ⟨⟨he, hs, hes⟩, hd, hed, hsd⟩ ↦ ⟨he, hs, hd, hes, hed, hsd⟩⟩

/-- The lists form a partition of VMs that exist as objects. -/
structure WellFormed (s : State) : Prop where
  partition : Partition s
  fresh : ∀ v ∈ s.tracked, v < s.nextVm

/-- From `s` to `s'` the lists stay well formed, and a tracked VM stays tracked unless it is
`lost`. -/
structure Moves (lost : VmRef → Prop) (s s' : State) : Prop where
  wellFormed : WellFormed s → WellFormed s'
  kept : ∀ v ∈ s.tracked, v ∈ s'.tracked ∨ lost v

namespace Moves

variable {lost lost' : VmRef → Prop} {s s₁ s' : State}

theorem trans (h : Moves lost s s₁) (h' : Moves lost s₁ s') : Moves lost s s' where
  wellFormed := h'.wellFormed ∘ h.wellFormed
  kept := fun v hv ↦ (h.kept v hv).elim (h'.kept v) .inr

theorem mono (h : Moves lost s s') (hlost : ∀ v, lost v → lost' v) : Moves lost' s s' :=
  ⟨h.wellFormed, fun v hv ↦ (h.kept v hv).imp_right (hlost v)⟩

/-- Moving VMs among the lists. -/
theorem of_perm (h : s'.tracked.Perm s.tracked) (hnext : s.nextVm ≤ s'.nextVm) :
    Moves lost s s' where
  wellFormed := fun ⟨hpart, hfresh⟩ ↦
    ⟨partition_iff.2 (h.nodup_iff.2 (partition_iff.1 hpart)),
      fun v hv ↦ (hfresh v (h.mem_iff.1 hv)).trans_le hnext⟩
  kept := fun _ hv ↦ .inl (h.mem_iff.2 hv)

/-- Losing one VM. -/
theorem of_perm_cons {v : VmRef} (h : s.tracked.Perm (v :: s'.tracked))
    (hnext : s.nextVm ≤ s'.nextVm) (hlost : lost v) : Moves lost s s' where
  wellFormed := fun ⟨hpart, hfresh⟩ ↦
    ⟨partition_iff.2 (List.nodup_cons.1 (h.nodup_iff.1 (partition_iff.1 hpart))).2,
      fun w hw ↦ (hfresh w (h.mem_iff.2 (List.mem_cons_of_mem _ hw))).trans_le hnext⟩
  kept := fun w hw ↦ by
    rcases List.mem_cons.1 (h.mem_iff.1 hw) with rfl | hw
    · exact .inr hlost
    · exact .inl hw

/-- Tracking a new VM. -/
theorem of_perm_new {v : VmRef} (h : s'.tracked.Perm (v :: s.tracked)) (hv : s.nextVm ≤ v)
    (hnext : v < s'.nextVm) : Moves lost s s' where
  wellFormed := fun ⟨hpart, hfresh⟩ ↦ by
    refine ⟨partition_iff.2 (h.nodup_iff.2 (List.nodup_cons.2 ⟨?_, partition_iff.1 hpart⟩)), ?_⟩
    · exact fun hmem ↦ absurd (hfresh v hmem) (not_lt.2 hv)
    · intro w hw
      rcases List.mem_cons.1 (h.mem_iff.1 hw) with rfl | hw
      · exact hnext
      · exact (hfresh w hw).trans (lt_of_le_of_lt hv hnext)
  kept := fun _ hw ↦ .inl (h.mem_iff.2 (List.mem_cons_of_mem _ hw))

/-- Losing no VM of the lists. -/
theorem of_eq (he : s'.existing = s.existing) (hs : s'.starting = s.starting)
    (hd : s'.deleting = s.deleting) (hnext : s.nextVm ≤ s'.nextVm) : Moves lost s s' :=
  of_perm (by rw [State.tracked, State.tracked, he, hs, hd]) hnext

theorem of_scanned {scope : Scope} (h : Scanned scope s s') : Moves lost s s' :=
  of_eq h.existing h.starting h.deleting h.nextVm.ge

end Moves

/-! ### Going through a list -/

section Going

variable {α β : Type} {xs done rest : List α} {x : α}

/-- No element of a list without repetitions is visited twice. -/
theorem notMem_of_nodup (hsplit : done ++ x :: rest = xs) (h : xs.Nodup) : x ∉ done := by
  rw [← hsplit, List.nodup_append'] at h
  exact fun hx ↦ h.2.2 hx List.mem_cons_self

/-- Going through a list of pairs is going through its first components. -/
theorem map_fst_split {pairs before after : List (α × β)} {y : β}
    (hsplit : before ++ (x, y) :: after = pairs) :
    before.map Prod.fst ++ x :: after.map Prod.fst = pairs.map Prod.fst := by
  rw [← hsplit, List.map_append, List.map_cons]

end Going

/-! ### Taking several elements out of a list -/

/-- The parts of a list without repetitions are disjoint. -/
theorem nodup_of_subperm {α : Type} {xs vs ws : List α} (h : (vs ++ ws).Subperm xs)
    (hnodup : xs.Nodup) : vs.Nodup ∧ ws.Nodup ∧ vs.Disjoint ws := by
  obtain ⟨us, hperm, hsublist⟩ := h
  exact List.nodup_append'.1 (hperm.nodup_iff.1 (hnodup.sublist hsublist))

section Diff

variable {α : Type} [DecidableEq α] {xs vs ws : List α} {x : α}

/-- What is taken out and what is left make up the list. -/
theorem append_diff_perm (h : vs.Subperm xs) : (vs ++ xs.diff vs).Perm xs :=
  List.subperm_append_diff_self_of_count_le fun y _ ↦ h.count_le y

/-- What is taken out in two goes. -/
theorem subperm_append (h : vs.Subperm xs) (h' : ws.Subperm (xs.diff vs)) :
    (vs ++ ws).Subperm xs :=
  ((List.subperm_append_left vs).2 h').trans (append_diff_perm h).subperm

/-- What can still be taken out after the first go. -/
theorem subperm_diff (h : (vs ++ ws).Subperm xs) : ws.Subperm (xs.diff vs) := by
  have hvs : vs.Subperm xs := (List.sublist_append_left _ _).subperm.trans h
  exact (List.subperm_append_left vs).1 (h.trans (append_diff_perm hvs).symm.subperm)

/-- The next element of a list that fits into `xs` is still there when the ones before it have
been taken out. -/
theorem mem_diff_of_subperm (h : (vs ++ x :: ws).Subperm xs) : x ∈ xs.diff vs :=
  (subperm_diff h).subset List.mem_cons_self

/-- Taking off the elements with a property: none of those that stay is found instead. -/
theorem diff_filter (p : α → Bool) (xs : List α) :
    xs.diff (xs.filter p) = xs.filter fun x ↦ !p x := by
  induction xs with
  | nil => rfl
  | cons x xs ih =>
    by_cases hx : p x = true
    · simp [hx, ih]
    · have hnot : x ∉ xs.filter p := fun h ↦ hx (List.mem_filter.1 h).2
      rw [List.filter_cons_of_neg hx, List.cons_diff_of_not_mem hnot, ih]
      simp [hx]

/-- Taking off elements without a property leaves those that have it. -/
theorem filter_diff_of_forall_not {p : α → Bool} (h : ∀ v ∈ vs, ¬p v = true) (xs : List α) :
    (xs.diff vs).filter p = xs.filter p := by
  induction vs generalizing xs with
  | nil => rw [List.diff_nil]
  | cons v vs ih =>
    rw [List.forall_mem_cons] at h
    have hnot : v ∉ xs.filter p := fun hmem ↦ h.1 (List.mem_filter.1 hmem).2
    rw [List.diff_cons, ih h.2, ← List.erase_filter, List.erase_of_not_mem hnot]

end Diff

/-! ### What the blocks do

Each lemma gives the state that the block leaves, and says when it raises. -/

section Blocks

open Locked

variable {cfg : Config} {s : State} {v : VmRef}

theorem remove_of_mem {α : Type} [DecidableEq α] {x : α} {xs : List α} (h : x ∈ xs) :
    remove x xs = .ok (xs.erase x) :=
  if_pos h

theorem remove_of_not_mem {α : Type} [DecidableEq α] {x : α} {xs : List α} (h : x ∉ xs) :
    remove x xs = .error .notInList :=
  if_neg h

theorem remove_ne_ok {α : Type} [DecidableEq α] {x : α} {xs ys : List α} (h : x ∉ xs) :
    remove x xs ≠ .ok ys := by
  simp [remove_of_not_mem h]

theorem ends_removeFrom {L : ListName} {Q : Unit → State → Prop} {E : PyError → State → Prop}
    (h : v ∈ s.list L) :
    Ends (removeFrom L v) s Q E ↔ Q () (s.setList ((s.list L).erase v) L) := by
  simp [removeFrom, remove_of_mem h]

theorem ends_append {L : ListName} {Q : Unit → State → Prop} {E : PyError → State → Prop} :
    Ends (append L v) s Q E ↔ Q () (s.setList (s.list L ++ [v]) L) := Iff.rfl

variable {Q : Unit → State → Prop} {E : PyError → State → Prop}

theorem ends_existingToDeleting (h : v ∈ s.existing) :
    Ends ((Block.existingToDeleting v).code cfg) s Q E ↔
      Q () { s with existing := s.existing.erase v, deleting := s.deleting ++ [v] } := by
  rw [Block.code, ends_bind, ends_append, ends_removeFrom h]
  rfl

theorem ends_dropExisting (h : v ∈ s.existing) :
    Ends ((Block.dropExisting v).code cfg) s Q E ↔
      Q () { s with existing := s.existing.erase v } :=
  ends_removeFrom (L := .existing) h

theorem ends_destroyExisting (h : v ∈ s.existing) :
    Ends ((Block.destroyExisting v).code cfg) s Q E ↔
      Q () { s with existing := s.existing.erase v, deleting := s.deleting ++ [v] } := by
  rw [Block.code, ends_bind, ends_removeFrom (L := .existing) h, ends_append]
  rfl

theorem ends_existingToStarting (h : v ∈ s.existing) :
    Ends ((Block.existingToStarting v).code cfg) s Q E ↔
      Q () { s with existing := s.existing.erase v, starting := s.starting ++ [v] } := by
  rw [Block.code, ends_bind, ends_removeFrom (L := .existing) h, ends_append]
  rfl

theorem ends_startingToDeleting (h : v ∈ s.starting) :
    Ends ((Block.startingToDeleting v).code cfg) s Q E ↔
      Q () { s with starting := s.starting.erase v, deleting := s.deleting ++ [v] } := by
  rw [Block.code, ends_bind, ends_removeFrom (L := .starting) h, ends_append]
  rfl

end Blocks

/-! ### Which blocks forget no VM -/

section Kept

variable {lost : VmRef → Prop} {s : State} {v : VmRef}

theorem moves_existingToDeleting (h : v ∈ s.existing) :
    Moves lost s { s with existing := s.existing.erase v, deleting := s.deleting ++ [v] } := by
  refine .of_perm ?_ le_rfl
  have herase : s.existing.Perm (v :: s.existing.erase v) := List.perm_cons_erase h
  have hright : (s.existing.erase v ++ s.starting ++ (s.deleting ++ [v])).Perm
      (v :: (s.existing.erase v ++ s.starting ++ s.deleting)) := by
    rw [← List.append_assoc]
    exact List.perm_append_singleton v _
  exact hright.trans ((herase.append_right s.starting).append_right s.deleting).symm

theorem moves_startingToDeleting (h : v ∈ s.starting) :
    Moves lost s { s with starting := s.starting.erase v, deleting := s.deleting ++ [v] } := by
  refine .of_perm ?_ le_rfl
  have herase : s.starting.Perm (v :: s.starting.erase v) := List.perm_cons_erase h
  have hright : (s.existing ++ s.starting.erase v ++ (s.deleting ++ [v])).Perm
      (v :: (s.existing ++ s.starting.erase v ++ s.deleting)) := by
    rw [← List.append_assoc]
    exact List.perm_append_singleton v _
  have hleft : (s.existing ++ s.starting ++ s.deleting).Perm
      (v :: (s.existing ++ s.starting.erase v ++ s.deleting)) :=
    ((herase.append_left s.existing).append_right s.deleting).trans
      (List.perm_middle.append_right s.deleting)
  exact hright.trans hleft.symm

theorem moves_dropStarting (h : v ∈ s.starting) (hlost : lost v) :
    Moves lost s { s with starting := s.starting.erase v } := by
  have herase : s.starting.Perm (v :: s.starting.erase v) := List.perm_cons_erase h
  exact .of_perm_cons (((herase.append_left s.existing).append_right s.deleting).trans
    (List.perm_middle.append_right s.deleting)) le_rfl hlost

theorem moves_dropExisting (h : v ∈ s.existing) (hlost : lost v) :
    Moves lost s { s with existing := s.existing.erase v } :=
  .of_perm_cons (((List.perm_cons_erase h).append_right s.starting).append_right s.deleting)
    le_rfl hlost

theorem moves_drain_existing :
    Moves lost s { s with existing := [], deleting := s.deleting ++ s.existing } := by
  refine .of_perm ?_ le_rfl
  have hswap : (s.starting ++ (s.deleting ++ s.existing)).Perm
      (s.existing ++ (s.starting ++ s.deleting)) := by
    rw [← List.append_assoc]
    exact List.perm_append_comm
  simpa [State.tracked] using hswap

theorem moves_drain_starting :
    Moves lost s { s with starting := [], deleting := s.deleting ++ s.starting } := by
  refine .of_perm ?_ le_rfl
  have hswap : (s.deleting ++ s.starting).Perm (s.starting ++ s.deleting) := List.perm_append_comm
  simpa [State.tracked] using hswap.append_left s.existing

theorem moves_addStarting {vm : VM} :
    Moves lost s { s.allocate [vm] with starting := s.starting ++ [s.nextVm] } := by
  refine .of_perm_new (v := s.nextVm) ?_ le_rfl (by simp [State.allocate])
  have hnew : (s.existing ++ (s.starting ++ [s.nextVm])).Perm
      (s.nextVm :: (s.existing ++ s.starting)) := by
    rw [← List.append_assoc]
    exact List.perm_append_singleton _ _
  exact hnew.append_right s.deleting

end Kept

end DynamicTorque
