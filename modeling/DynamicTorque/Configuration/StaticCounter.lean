import DynamicTorque.Model.CloudTools

/-!
# Counting static VMs

A `StaticVMs` object is a list with one entry for each location. `add_static_req` adds to the entry
of a location, and `need_vm` takes one VM off an entry whose location is in the zone of a VM.

* `needVm_answers`: one call of `need_vm`, if the locations are mapped.
* `counted_of_calls`: through any sequence of calls the entry of a location holds what was added for
  it less the calls that were answered from it.
* `static_counter`: so the object is a counter for each location.
-/

open Python

namespace DynamicTorque

/-! ### One location -/

/-- The count of a location. -/
def StaticVMs.countAt (reqs : StaticVMs) (location : String) : ℤ :=
  ((reqs.filter fun req ↦ req.location = location).map StaticReq.numOfVm).sum

/-- The location of an entry is mapped to the zone. -/
def StaticReq.InZone (props : LocationProperties) (zone : Option String) (req : StaticReq) : Prop :=
  ∃ z, props.lookup req.location = some z ∧ zone = some z

instance (props : LocationProperties) (zone : Option String) (req : StaticReq) :
    Decidable (req.InZone props zone) :=
  decidable_of_iff (zone.isSome ∧ props.lookup req.location = zone) (by
    cases zone <;> simp [StaticReq.InZone])

section Entries

variable {props : LocationProperties} {reqs before after : StaticVMs} {req : StaticReq}
  {location l : String} {n : ℤ} {zone : Option String}

theorem countAt_append : StaticVMs.countAt (before ++ after) location =
    StaticVMs.countAt before location + StaticVMs.countAt after location := by
  rw [StaticVMs.countAt, List.filter_append, List.map_append, List.sum_append]
  rfl

theorem countAt_cons (req : StaticReq) (reqs : StaticVMs) (location : String) :
    StaticVMs.countAt (req :: reqs) location =
      (if req.location = location then req.numOfVm else 0) +
        StaticVMs.countAt reqs location := by
  rw [StaticVMs.countAt, StaticVMs.countAt, List.filter_cons]
  by_cases h : req.location = location
  · simp [h]
  · simp [h]

/-- A location without an entry has none. -/
theorem countAt_of_notMem (h : location ∉ reqs.map StaticReq.location) :
    reqs.countAt location = 0 := by
  have hnone : reqs.filter (fun req ↦ req.location = location) = [] := by
    rw [List.filter_eq_nil_iff]
    exact fun req hreq heq ↦ h (List.mem_map.2 ⟨req, hreq, of_decide_eq_true heq⟩)
  rw [StaticVMs.countAt, hnone, List.map_nil, List.sum_nil]

/-- With one entry for each location, the count of a location is in its entry. -/
theorem countAt_of_mem (hnodup : (reqs.map StaticReq.location).Nodup) (hreq : req ∈ reqs) :
    reqs.countAt req.location = req.numOfVm := by
  obtain ⟨before, after, rfl⟩ := List.append_of_mem hreq
  rw [List.map_append, List.map_cons, List.nodup_append'] at hnodup
  obtain ⟨-, hafter, hdisjoint⟩ := hnodup
  have hleft : req.location ∉ before.map StaticReq.location := fun hmem ↦
    hdisjoint hmem List.mem_cons_self
  rw [countAt_append, countAt_cons, if_pos rfl, countAt_of_notMem hleft,
    countAt_of_notMem (List.nodup_cons.1 hafter).1, zero_add, add_zero]

/-! ### add_static_req -/

theorem countAt_addStaticReq : (StaticVMs.addStaticReq location n reqs).countAt l =
    reqs.countAt l + if location = l then n else 0 := by
  induction reqs with
  | nil =>
    rw [StaticVMs.addStaticReq, countAt_cons, add_comm]
  | cons req rest ih =>
    rw [StaticVMs.addStaticReq]
    split
    · rename_i hfound
      rw [countAt_cons, countAt_cons, hfound]
      by_cases hl : location = l
      · simp only [hl, if_true]
        omega
      · simp only [hl, if_false]
        omega
    · rw [countAt_cons, countAt_cons, ih, add_assoc]

/-- An entry is added if there is none yet. -/
theorem locations_addStaticReq : (StaticVMs.addStaticReq location n reqs).map StaticReq.location =
    reqs.map StaticReq.location ++
      if location ∈ reqs.map StaticReq.location then [] else [location] := by
  induction reqs with
  | nil => rfl
  | cons req rest ih =>
    rw [StaticVMs.addStaticReq]
    split
    · rename_i hfound
      simp [hfound]
    · rename_i hother
      rw [List.map_cons, ih, List.map_cons, List.cons_append]
      simp [Ne.symm hother]

theorem nodup_addStaticReq (h : (reqs.map StaticReq.location).Nodup) :
    ((StaticVMs.addStaticReq location n reqs).map StaticReq.location).Nodup := by
  rw [locations_addStaticReq]
  split
  · rwa [List.append_nil]
  · rename_i hnew
    exact List.nodup_append'.2 ⟨h, List.nodup_singleton _, by simpa using hnew⟩

theorem mem_locations_addStaticReq :
    l ∈ (StaticVMs.addStaticReq location n reqs).map StaticReq.location ↔
      l ∈ reqs.map StaticReq.location ∨ l = location := by
  rw [locations_addStaticReq, List.mem_append]
  split
  · rename_i hold
    constructor
    · exact fun h ↦ .inl (h.resolve_right List.not_mem_nil)
    · rintro (h | rfl)
      · exact .inl h
      · exact .inl hold
  · rw [List.mem_singleton]

theorem nonneg_addStaticReq (hn : 0 ≤ n) (h : ∀ req ∈ reqs, 0 ≤ req.numOfVm) :
    ∀ req ∈ StaticVMs.addStaticReq location n reqs, 0 ≤ req.numOfVm := by
  induction reqs with
  | nil => simpa [StaticVMs.addStaticReq] using hn
  | cons req rest ih =>
    rw [List.forall_mem_cons] at h
    rw [StaticVMs.addStaticReq]
    split
    · exact List.forall_mem_cons.2 ⟨add_nonneg h.1 hn, h.2⟩
    · exact List.forall_mem_cons.2 ⟨h.1, ih h.2⟩

/-! ### need_vm -/

theorem entries_of_mem (h : location ∈ props) : ¬props.entries.isEmpty = true := fun hempty ↦ by
  rw [AList.mem_keys, AList.keys, List.isEmpty_iff.1 hempty] at h
  exact List.not_mem_nil h

theorem atLocation_of_mem (h : req.location ∈ props) (zone : Option String) :
    StaticVMs.atLocation props req.location zone = .ok (decide (req.InZone props zone)) := by
  obtain ⟨z, hz⟩ := Option.isSome_iff_exists.1 (AList.lookup_isSome.2 h)
  rw [StaticVMs.atLocation, if_neg (entries_of_mem h), Dict.get, hz]
  refine congrArg Except.ok (decide_eq_decide.2 ?_)
  rw [StaticReq.InZone, hz]
  simp [eq_comm]

end Entries

/-- What a call of `need_vm` answers, and what it leaves. -/
inductive NeedAnswer (props : LocationProperties) (zone : Option String) (reqs : StaticVMs) :
    Bool → StaticVMs → Prop
  | refused (hnone : ∀ req ∈ reqs, req.InZone props zone → ¬0 < req.numOfVm) :
    NeedAnswer props zone reqs false reqs
  | served {before after : StaticVMs} {req : StaticReq} (hreqs : reqs = before ++ req :: after)
    (hzone : req.InZone props zone) (hpos : 0 < req.numOfVm) :
    NeedAnswer props zone reqs true
      (before ++ { req with numOfVm := req.numOfVm - 1 } :: after)

section Need

variable {props : LocationProperties} {reqs reqs' : StaticVMs} {zone : Option String}
  {found : Bool} {l : String}

/-- **`need_vm`** answers, if the locations are mapped. -/
theorem needVm_answers (zone : Option String) (hmapped : ∀ req ∈ reqs, req.location ∈ props) :
    ∃ found reqs', reqs.needVm zone props = .ok (found, reqs') ∧
      NeedAnswer props zone reqs found reqs' := by
  induction reqs with
  | nil => exact ⟨false, [], rfl, .refused fun _ hreq ↦ absurd hreq List.not_mem_nil⟩
  | cons req rest ih =>
    rw [List.forall_mem_cons] at hmapped
    obtain ⟨found, reqs', hrest, hanswer⟩ := ih hmapped.2
    by_cases htest : req.InZone props zone ∧ 0 < req.numOfVm
    · have hneed : StaticVMs.needVm zone props (req :: rest) =
          .ok (true, { req with numOfVm := req.numOfVm - 1 } :: rest) := by
        rw [StaticVMs.needVm, atLocation_of_mem hmapped.1]
        exact if_pos ⟨decide_eq_true htest.1, htest.2⟩
      have hserved : NeedAnswer props zone ([] ++ req :: rest) true
          ([] ++ { req with numOfVm := req.numOfVm - 1 } :: rest) := .served rfl htest.1 htest.2
      exact ⟨_, _, hneed, hserved⟩
    · have hneed : StaticVMs.needVm zone props (req :: rest) = .ok (found, req :: reqs') := by
        rw [StaticVMs.needVm, atLocation_of_mem hmapped.1]
        show (if _ then _ else _) = _
        rw [if_neg fun h ↦ htest ⟨of_decide_eq_true h.1, h.2⟩, hrest]
        rfl
      refine ⟨_, _, hneed, ?_⟩
      cases hanswer with
      | refused hnone =>
        exact .refused (List.forall_mem_cons.2 ⟨fun hzone hpos ↦ htest ⟨hzone, hpos⟩, hnone⟩)
      | @served before after taken hreqs hzone hpos =>
        have hserved : NeedAnswer props zone (req :: rest) true
            ((req :: before) ++ { taken with numOfVm := taken.numOfVm - 1 } :: after) :=
          .served (congrArg (req :: ·) hreqs) hzone hpos
        exact hserved

/-- The answer is unique. -/
theorem NeedAnswer.of_needVm (hmapped : ∀ req ∈ reqs, req.location ∈ props)
    (h : reqs.needVm zone props = .ok (found, reqs')) : NeedAnswer props zone reqs found reqs' := by
  obtain ⟨found₁, reqs₁, hneed, hanswer⟩ := needVm_answers zone hmapped
  obtain ⟨rfl, rfl⟩ := Prod.mk.inj (Except.ok.inj (hneed.symm.trans h))
  exact hanswer

theorem NeedAnswer.locations (h : NeedAnswer props zone reqs found reqs') :
    reqs'.map StaticReq.location = reqs.map StaticReq.location := by
  cases h with
  | refused _ => rfl
  | served hreqs _ _ => simp [hreqs]

theorem NeedAnswer.nonneg (h : NeedAnswer props zone reqs found reqs')
    (hnonneg : ∀ req ∈ reqs, 0 ≤ req.numOfVm) : ∀ req ∈ reqs', 0 ≤ req.numOfVm := by
  cases h with
  | refused _ => exact hnonneg
  | @served before after req hreqs _ hpos =>
    rw [hreqs, List.forall_mem_append, List.forall_mem_cons] at hnonneg
    obtain ⟨hbefore, -, hafter⟩ := hnonneg
    refine List.forall_mem_append.2 ⟨hbefore, List.forall_mem_cons.2 ⟨?_, hafter⟩⟩
    show 0 ≤ req.numOfVm - 1
    omega

/-- A call that is answered takes one off the count of one location. -/
theorem NeedAnswer.countAt (h : NeedAnswer props zone reqs true reqs') :
    ∃ location, ∀ l, reqs'.countAt l = reqs.countAt l - if location = l then 1 else 0 := by
  cases h with
  | @served before after req hreqs _ _ =>
    refine ⟨req.location, fun l ↦ ?_⟩
    rw [hreqs, countAt_append, countAt_append, countAt_cons, countAt_cons]
    by_cases hl : req.location = l
    · simp only [hl, if_true]
      omega
    · simp only [hl, if_false]
      omega

end Need

/-! ### Sequences of calls -/

/-- What was added for a location. -/
def addedAt (added : List (String × ℕ)) (location : String) : ℕ :=
  ((added.filter fun a ↦ a.1 = location).map Prod.snd).sum

/-- The object after a sequence of calls, beginning with the empty one. `added` are the calls of
`add_static_req`, `answered` the locations that the calls of `need_vm` were answered from. -/
inductive Calls (props : LocationProperties) :
    List (String × ℕ) → List String → StaticVMs → Prop
  | start : Calls props [] [] []
  | add {added : List (String × ℕ)} {answered : List String} {reqs : StaticVMs}
    (h : Calls props added answered reqs) (location : String) (numOfVm : ℕ)
    (hmapped : location ∈ props) :
    Calls props (added ++ [(location, numOfVm)]) answered (reqs.addStaticReq location numOfVm)
  | refused {added : List (String × ℕ)} {answered : List String} {reqs reqs' : StaticVMs}
    (h : Calls props added answered reqs) (zone : Option String)
    (hneed : reqs.needVm zone props = .ok (false, reqs')) : Calls props added answered reqs'
  | answered {added : List (String × ℕ)} {answered : List String} {reqs reqs' : StaticVMs}
    (h : Calls props added answered reqs) (zone : Option String)
    (hneed : reqs.needVm zone props = .ok (true, reqs')) (location : String)
    (hlocation : reqs'.countAt location < reqs.countAt location) :
    Calls props added (answered ++ [location]) reqs'

/-- The invariant of a counter. -/
structure Counted (added : List (String × ℕ)) (answered : List String) (reqs : StaticVMs) :
    Prop where
  nodup : (reqs.map StaticReq.location).Nodup
  locations : ∀ l, l ∈ reqs.map StaticReq.location ↔ l ∈ added.map Prod.fst
  nonneg : ∀ req ∈ reqs, 0 ≤ req.numOfVm
  counted : ∀ l, reqs.countAt l = addedAt added l - answered.count l

section Calls

variable {props : LocationProperties} {added : List (String × ℕ)} {answered : List String}
  {reqs reqs' : StaticVMs} {zone : Option String} {location : String}

theorem addedAt_concat (numOfVm : ℕ) (l : String) :
    addedAt (added ++ [(location, numOfVm)]) l =
      addedAt added l + if location = l then numOfVm else 0 := by
  rw [addedAt, List.filter_append, List.map_append, List.sum_append, ← addedAt]
  by_cases h : location = l
  · simp [h]
  · simp [h]

/-- The empty object. -/
theorem Counted.start : Counted [] [] [] where
  nodup := List.nodup_nil
  locations := fun _ ↦ Iff.rfl
  nonneg := fun _ hreq ↦ absurd hreq List.not_mem_nil
  counted := fun _ ↦ rfl

theorem Counted.add (h : Counted added answered reqs) (location : String) (numOfVm : ℕ) :
    Counted (added ++ [(location, numOfVm)]) answered (reqs.addStaticReq location numOfVm) where
  nodup := nodup_addStaticReq h.nodup
  locations := fun l ↦ by
    rw [mem_locations_addStaticReq, h.locations, List.map_append, List.mem_append]
    exact or_congr_right List.mem_singleton.symm
  nonneg := nonneg_addStaticReq (Int.natCast_nonneg numOfVm) h.nonneg
  counted := fun l ↦ by
    rw [countAt_addStaticReq, h.counted, addedAt_concat]
    by_cases hl : location = l
    · simp only [hl, if_true]
      omega
    · simp only [hl, if_false]
      omega

/-- The entries are at mapped locations if those are that were added. -/
theorem Counted.mapped (h : Counted added answered reqs)
    (hadded : ∀ l ∈ added.map Prod.fst, l ∈ props) : ∀ req ∈ reqs, req.location ∈ props :=
  fun _ hreq ↦ hadded _ ((h.locations _).1 (List.mem_map_of_mem hreq))

theorem Counted.refused (h : Counted added answered reqs)
    (hanswer : NeedAnswer props zone reqs false reqs') : Counted added answered reqs' := by
  cases hanswer with
  | refused _ => exact h

theorem Counted.served (h : Counted added answered reqs)
    (hanswer : NeedAnswer props zone reqs true reqs')
    (hlocation : reqs'.countAt location < reqs.countAt location) :
    Counted added (answered ++ [location]) reqs' := by
  obtain ⟨taken, hcount⟩ := hanswer.countAt
  -- the location is the one whose count is lower
  have htaken : taken = location := by
    by_contra hne
    have hsame := hcount location
    rw [if_neg hne] at hsame
    omega
  exact
    { nodup := by
        rw [hanswer.locations]
        exact h.nodup
      locations := fun l ↦ by
        rw [hanswer.locations]
        exact h.locations l
      nonneg := hanswer.nonneg h.nonneg
      counted := fun l ↦ by
        rw [hcount, h.counted, htaken, List.count_append, List.count_singleton]
        by_cases hl : location = l
        · simp only [hl, beq_self_eq_true, if_true]
          omega
        · simp only [hl, beq_iff_eq, if_false]
          omega }

theorem mapped_of_calls (h : Calls props added answered reqs) :
    ∀ l ∈ added.map Prod.fst, l ∈ props := by
  induction h with
  | start => exact fun _ hl ↦ absurd hl List.not_mem_nil
  | add _ location numOfVm hmapped ih =>
    rw [List.map_append, List.forall_mem_append]
    exact ⟨ih, fun l hl ↦ List.mem_singleton.1 hl ▸ hmapped⟩
  | refused _ _ _ ih => exact ih
  | answered _ _ _ _ _ ih => exact ih

/-- **Every sequence of calls.** -/
theorem counted_of_calls (h : Calls props added answered reqs) : Counted added answered reqs := by
  induction h with
  | start => exact .start
  | add _ location numOfVm _ ih => exact ih.add location numOfVm
  | refused hcalls zone hneed ih =>
    exact ih.refused (NeedAnswer.of_needVm (ih.mapped (mapped_of_calls hcalls)) hneed)
  | answered hcalls zone hneed location hlocation ih =>
    exact ih.served (NeedAnswer.of_needVm (ih.mapped (mapped_of_calls hcalls)) hneed) hlocation

end Calls

/-! ### get_provision_list -/

/-- **`get_provision_list`** has one request for each entry, as often as the entry says. -/
theorem getProvisionList_of_mapped {props : LocationProperties} {flavor : VMFlavor}
    {resource : String} {reqs : StaticVMs} (hmapped : ∀ req ∈ reqs, req.location ∈ props) :
    reqs.getProvisionList flavor resource props = .ok (reqs.map fun req ↦
      (⟨.id flavor.id, props.lookup req.location, resource, true⟩, req.numOfVm.toNat)) := by
  induction reqs with
  | nil => rfl
  | cons req rest ih =>
    rw [List.forall_mem_cons] at hmapped
    obtain ⟨z, hz⟩ := Option.isSome_iff_exists.1 (AList.lookup_isSome.2 hmapped.1)
    rw [StaticVMs.getProvisionList, if_neg (entries_of_mem hmapped.1), ih hmapped.2, Dict.get, hz,
      List.map_cons, hz]
    rfl

/-- **The counter.** After any sequence of calls with mapped locations the entries count what was
added less what was answered; a further call of `need_vm` answers yes exactly if an entry in the
zone of the VM has any left, and takes one off one such entry; and `get_provision_list` requests as
many static VMs in the zone of a location as its entry says. -/
theorem static_counter (props : LocationProperties) (added : List (String × ℕ))
    (answered : List String) (reqs : StaticVMs) (h : Calls props added answered reqs) :
    ((reqs.map StaticReq.location).Nodup ∧
      (∀ l, l ∈ reqs.map StaticReq.location ↔ l ∈ added.map Prod.fst) ∧
      ∀ req ∈ reqs, 0 ≤ req.numOfVm ∧
        req.numOfVm = addedAt added req.location - answered.count req.location) ∧
    (∀ zone, ∃ found reqs', reqs.needVm zone props = .ok (found, reqs') ∧
      (found = true ↔ ∃ req ∈ reqs, req.InZone props zone ∧ 0 < req.numOfVm) ∧
      (found = false → reqs' = reqs) ∧
      (found = true → ∃ before req after, reqs = before ++ req :: after ∧
        req.InZone props zone ∧ 0 < req.numOfVm ∧
        reqs' = before ++ { req with numOfVm := req.numOfVm - 1 } :: after)) ∧
    ∀ flavor resource, reqs.getProvisionList flavor resource props = .ok (reqs.map fun req ↦
      (⟨.id flavor.id, props.lookup req.location, resource, true⟩, req.numOfVm.toNat)) := by
  have hcounted : Counted added answered reqs := counted_of_calls h
  have hmapped : ∀ req ∈ reqs, req.location ∈ props := hcounted.mapped (mapped_of_calls h)
  refine ⟨⟨hcounted.nodup, hcounted.locations, fun req hreq ↦ ⟨hcounted.nonneg req hreq, ?_⟩⟩,
    fun zone ↦ ?_, fun flavor resource ↦ getProvisionList_of_mapped hmapped⟩
  · rw [← hcounted.counted, countAt_of_mem hcounted.nodup hreq]
  · obtain ⟨found, reqs', hneed, hanswer⟩ := needVm_answers zone hmapped
    refine ⟨found, reqs', hneed, ?_⟩
    cases hanswer with
    | refused hnone =>
      refine ⟨iff_of_false Bool.false_ne_true ?_, fun _ ↦ rfl, fun h ↦
        absurd h Bool.false_ne_true⟩
      rintro ⟨req, hreq, hzone, hpos⟩
      exact hnone req hreq hzone hpos
    | @served before after req hreqs hzone hpos =>
      refine ⟨iff_of_true rfl ⟨req, ?_, hzone, hpos⟩, fun h ↦
        absurd h.symm Bool.false_ne_true, fun _ ↦
        ⟨before, req, after, hreqs, hzone, hpos, rfl⟩⟩
      rw [hreqs]
      exact List.mem_append_right _ List.mem_cons_self

/-- Two locations in one zone. -/
def twoRooms : LocationProperties :=
  (AList.singleton "north" "zone").insert "south" "zone"

/-- One VM was added for each location, and one call answered. -/
theorem calls_twoRooms :
    Calls twoRooms [("north", 1), ("south", 1)] ["north"] [⟨"north", 0⟩, ⟨"south", 1⟩] :=
  .answered (.add (.add .start "north" 1 (by decide)) "south" 1 (by decide)) (some "zone") rfl
    "north" (by decide)

/-- One further VM is found there, and a single static VM is requested. -/
theorem static_counter_twoRooms :
    (∃ reqs', StaticVMs.needVm (some "zone") twoRooms [⟨"north", 0⟩, ⟨"south", 1⟩] =
      .ok (true, reqs')) ∧
    StaticVMs.getProvisionList ⟨"1", "m1.small", 1⟩ "default" twoRooms
      [⟨"north", 0⟩, ⟨"south", 1⟩] =
      .ok [(⟨.id "1", some "zone", "default", true⟩, 0),
        (⟨.id "1", some "zone", "default", true⟩, 1)] := by
  obtain ⟨-, hneed, hprovision⟩ := static_counter twoRooms _ _ _ calls_twoRooms
  obtain ⟨found, reqs', heq, hfound, -⟩ := hneed (some "zone")
  have htrue : found = true :=
    hfound.2 ⟨⟨"south", 1⟩, by simp, by decide, by decide⟩
  exact ⟨⟨reqs', htrue ▸ heq⟩, hprovision _ _⟩

end DynamicTorque
