import Mathlib.Algebra.BigOperators.Group.List.Basic
import Mathlib.Algebra.Order.BigOperators.Group.List
import Mathlib.Algebra.Order.Ring.Int

/-!
# Placing items in bins

A packing step in general terms. A list of items is placed in a list of bins: some bins, in
whatever order they are scanned, receive one item each, and every item left over opens a bin
of its own. `Placement` describes such a step by its *slots*, each bin paired with the item
it received.

The type of bins is arbitrary. `add b a` is the bin after receiving an item, `open a` the bin
that an item opens, and `accepts b a` what the packer checked before putting `a` in `b`.
Nothing is said about how a packer chooses its slots; what follows holds for first fit, best
fit and any other rule.

The consequences are the three facts a capacity argument needs: loads add up
(`Placement.sum_load`), contents are neither lost nor doubled (`Placement.contents_perm`), and
a property of bins that every accepted item keeps holds of all bins afterwards
(`Placement.forall_mem`). `length_mul_le_sum_load` turns a lower bound on each load into a
bound on the number of bins.
-/

namespace Packing

variable {β α γ : Type*}

/-- A bin after the step: with the item it received, or as it was. -/
def fill (add : β → α → β) (slot : β × Option α) : β :=
  match slot.2 with
  | some a => add slot.1 a
  | none => slot.1

@[simp] theorem fill_some (add : β → α → β) (b : β) (a : α) : fill add (b, some a) = add b a := rfl

@[simp] theorem fill_none (add : β → α → β) (b : β) : fill add (b, none) = b := rfl

/-- One packing step: `bins` and `items` give `bins'`. The slots are the bins in scanning
order, each with the item it received, and `rest` the items that opened a bin. -/
def Placement (add : β → α → β) (new : α → β) (accepts : β → α → Prop)
    (bins : List β) (items : List α) (bins' : List β) : Prop :=
  ∃ (slots : List (β × Option α)) (rest : List α),
    (slots.map Prod.fst).Perm bins ∧ (∀ b a, (b, some a) ∈ slots → accepts b a) ∧
      slots.filterMap Prod.snd ++ rest = items ∧
        bins' = slots.map (fill add) ++ rest.map new

namespace Placement

variable {add : β → α → β} {new : α → β} {accepts : β → α → Prop}
  {bins bins' : List β} {items : List α}

/-- Contents of filled slots, as a permutation. -/
private theorem contents_fill_perm {contents : β → List γ} {item : α → List γ}
    (hadd : ∀ b a, (contents (add b a)).Perm (contents b ++ item a))
    (slots : List (β × Option α)) :
    ((slots.map (fill add)).flatMap contents).Perm
      ((slots.map Prod.fst).flatMap contents ++ (slots.filterMap Prod.snd).flatMap item) := by
  induction slots with
  | nil => simp
  | cons slot slots ih =>
    obtain ⟨b, _ | a⟩ := slot
    · simpa using ih.append_left (contents b)
    · have hswap : ((contents b ++ item a) ++ ((slots.map Prod.fst).flatMap contents ++
          (slots.filterMap Prod.snd).flatMap item)).Perm
          (contents b ++ ((slots.map Prod.fst).flatMap contents ++
            (item a ++ (slots.filterMap Prod.snd).flatMap item))) := by
        rw [List.append_assoc]
        exact (List.perm_append_comm_assoc _ _ _).append_left _
      simpa using ((hadd b a).append ih).trans hswap

/-- Loads of filled slots. -/
private theorem sum_load_fill {load : β → ℤ} {size : α → ℤ}
    (hadd : ∀ b a, load (add b a) = load b + size a) (slots : List (β × Option α)) :
    ((slots.map (fill add)).map load).sum =
      ((slots.map Prod.fst).map load).sum + ((slots.filterMap Prod.snd).map size).sum := by
  induction slots with
  | nil => simp
  | cons slot slots ih =>
    obtain ⟨b, _ | a⟩ := slot
    · simp only [List.map_cons, fill_none, List.sum_cons, List.filterMap_cons, ih]
      omega
    · simp only [List.map_cons, fill_some, List.sum_cons, List.filterMap_cons, ih, hadd]
      omega

/-- **Contents are conserved.** Whatever the bins hold is held after the step, together with
the items and nothing else. -/
theorem contents_perm (h : Placement add new accepts bins items bins')
    (contents : β → List γ) (item : α → List γ)
    (hadd : ∀ b a, (contents (add b a)).Perm (contents b ++ item a))
    (hnew : ∀ a, contents (new a) = item a) :
    (bins'.flatMap contents).Perm (bins.flatMap contents ++ items.flatMap item) := by
  obtain ⟨slots, rest, hperm, -, rfl, rfl⟩ := h
  have hrest : (rest.map new).flatMap contents = rest.flatMap item := by
    rw [List.flatMap_map]
    exact congrArg (fun f ↦ rest.flatMap f) (funext hnew)
  have hbins : ((slots.map Prod.fst).flatMap contents).Perm (bins.flatMap contents) :=
    hperm.flatMap_right contents
  rw [List.flatMap_append, List.flatMap_append, hrest, ← List.append_assoc]
  exact ((contents_fill_perm hadd slots).trans (hbins.append_right _)).append_right _

/-- **Loads add up.** -/
theorem sum_load (h : Placement add new accepts bins items bins') {load : β → ℤ} {size : α → ℤ}
    (hadd : ∀ b a, load (add b a) = load b + size a) (hnew : ∀ a, load (new a) = size a) :
    (bins'.map load).sum = (bins.map load).sum + (items.map size).sum := by
  obtain ⟨slots, rest, hperm, -, rfl, rfl⟩ := h
  have hrest : (rest.map new).map load = rest.map size := by
    rw [List.map_map]
    exact congrArg (fun f ↦ rest.map f) (funext hnew)
  have hbins : ((slots.map Prod.fst).map load).sum = (bins.map load).sum :=
    (hperm.map load).sum_eq
  rw [List.map_append, List.sum_append, List.map_append, List.sum_append, hrest,
    sum_load_fill hadd, hbins]
  omega

/-- **Invariants of bins.** A property that every bin has, that an accepted item keeps, and
that every bin opened by an item has, holds of every bin after the step. -/
theorem forall_mem (h : Placement add new accepts bins items bins') {I : β → Prop}
    (hbins : ∀ b ∈ bins, I b) (hadd : ∀ b a, accepts b a → a ∈ items → I b → I (add b a))
    (hnew : ∀ a ∈ items, I (new a)) : ∀ b ∈ bins', I b := by
  obtain ⟨slots, rest, hperm, haccepts, rfl, rfl⟩ := h
  have hbin : ∀ slot ∈ slots, I slot.1 := fun slot hmem ↦
    hbins _ (hperm.mem_iff.1 (List.mem_map.2 ⟨slot, hmem, rfl⟩))
  intro b hb
  rcases List.mem_append.1 hb with hb | hb
  · obtain ⟨⟨b₀, _ | a⟩, hmem, rfl⟩ := List.mem_map.1 hb
    · exact hbin _ hmem
    · have hitem : a ∈ slots.filterMap Prod.snd ++ rest :=
        List.mem_append_left _ (List.mem_filterMap.2 ⟨(b₀, some a), hmem, rfl⟩)
      exact hadd b₀ a (haccepts b₀ a hmem) hitem (hbin _ hmem)
  · obtain ⟨a, ha, rfl⟩ := List.mem_map.1 hb
    exact hnew a (List.mem_append_right _ ha)

end Placement

/-- Bins that each hold at least `c` are at most as many as the total load allows. -/
theorem length_mul_le_sum_load {load : β → ℤ} {c : ℤ} {bins : List β}
    (h : ∀ b ∈ bins, c ≤ load b) : bins.length * c ≤ (bins.map load).sum := by
  have hsum := List.card_nsmul_le_sum (bins.map load) c (by simpa using h)
  simpa using hsum

end Packing
