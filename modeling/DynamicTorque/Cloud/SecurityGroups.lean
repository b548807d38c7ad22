import DynamicTorque.Model.OpenStackCloud
import DynamicTorque.Scheduler.Packing

/-!
# Rules of a security group

`add_security_group_rule` and `remove_security_group_rule` look for a rule with the ports and the
addresses they are given, and take the first one. Neither compares the protocol.

* `addSecurityGroupRule_eq`, `removeSecurityGroupRule_eq`: what the two do to the rules.
* `rulesInverse_iff`: they add and remove the rule they are asked for, and undo each other, exactly
  if the first rule with these ports and addresses, if there is one, has the protocol asked for.
-/

open Python Atomic

namespace DynamicTorque

/-- A rule with exactly this protocol, these ports and these addresses. -/
def RuleSpec.IsFor (spec : RuleSpec) (rule : SecurityGroupRule) : Prop :=
  rule.protocol = spec.protocol ∧ rule.fromPort = some spec.fromPort ∧
    rule.toPort = some spec.toPort ∧ rule.cidr = some spec.cidr

instance (spec : RuleSpec) (rule : SecurityGroupRule) : Decidable (spec.IsFor rule) :=
  inferInstanceAs (Decidable (_ ∧ _))

/-- The two operations do what their names say in the group `sg`, and undo each other. -/
structure RulesInverse (crs : CloudResources) (res sgName : String) (spec : RuleSpec)
    (sgs : SecurityGroups) (sg : SecurityGroup) : Prop where
  /-- After the addition there is such a rule, and the rules there were are as they were. -/
  added : ∃ sgs', addSecurityGroupRule crs res sgName spec sgs = .ok sgs' ∧
    (∃ rule ∈ sgs'.rulesOf sg, spec.IsFor rule) ∧ sgs'.groups = sgs.groups ∧
    ∃ new, sgs'.rules = sgs.rules ++ new ∧ ∀ rule ∈ new, spec.IsFor rule
  /-- The removal keeps every other rule. -/
  kept : ∃ sgs', removeSecurityGroupRule crs res sgName spec sgs = .ok sgs' ∧
    ∀ rule ∈ sgs.rules, ¬spec.IsFor rule → rule ∈ sgs'.rules
  /-- Where there was no such rule, the removal undoes the addition. -/
  restored : (∀ rule ∈ sgs.rulesOf sg, ¬spec.IsFor rule) →
    ∃ sgs' sgs'', addSecurityGroupRule crs res sgName spec sgs = .ok sgs' ∧
      removeSecurityGroupRule crs res sgName spec sgs' = .ok sgs'' ∧
      sgs''.groups = sgs.groups ∧ sgs''.rules = sgs.rules

section

variable {crs : CloudResources} {res sgName : String} {spec : RuleSpec} {sgs : SecurityGroups}
  {sg : SecurityGroup} {rule : SecurityGroupRule}

/-! ### What the scans find -/

theorem RuleSpec.isFor_iff :
    spec.IsFor rule ↔ spec.found rule = true ∧ rule.protocol = spec.protocol := by
  rw [RuleSpec.IsFor, RuleSpec.found, decide_eq_true_iff, and_comm]

theorem SecurityGroups.mem_rulesOf :
    rule ∈ sgs.rulesOf sg ↔ rule ∈ sgs.rules ∧ rule.parentGroupId = sg.id := by
  rw [SecurityGroups.rulesOf, List.mem_filter, decide_eq_true_iff]

/-- A rule is known by its id. -/
theorem SecurityGroups.eq_of_id {other : SecurityGroupRule} (hrule : rule ∈ sgs.rules)
    (hother : other ∈ sgs.rules) (h : rule.id = other.id) : rule = other :=
  List.inj_on_of_nodup_map sgs.nodup hrule hother h

theorem RuleSpec.isFor_newRule (spec : RuleSpec) (sgs : SecurityGroups) (sgId : ℕ) :
    spec.IsFor (sgs.newRule sgId spec) := ⟨rfl, rfl, rfl, rfl⟩

theorem SecurityGroups.rulesOf_create (sgs : SecurityGroups) (sg : SecurityGroup) :
    (sgs.create sg.id spec).rulesOf sg = sgs.rulesOf sg ++ [sgs.newRule sg.id spec] := by
  rw [SecurityGroups.rulesOf, SecurityGroups.create, List.filter_append,
    List.filter_cons_of_pos (by simp [SecurityGroups.newRule]), List.filter_nil,
    SecurityGroups.rulesOf]

/-- The rule that was created is found, where none was before. -/
theorem SecurityGroups.find?_create (h : (sgs.rulesOf sg).find? spec.found = none) :
    ((sgs.create sg.id spec).rulesOf sg).find? spec.found = some (sgs.newRule sg.id spec) := by
  have hnew := (RuleSpec.isFor_iff.1 (spec.isFor_newRule sgs sg.id)).1
  rw [sgs.rulesOf_create, List.find?_append, h, Option.none_or, List.find?_cons_of_pos hnew]

/-- Deleting it gives the rules there were. -/
theorem SecurityGroups.delete_create (sgs : SecurityGroups) (sgId : ℕ) :
    ((sgs.create sgId spec).delete (sgs.newRule sgId spec).id).rules = sgs.rules := by
  have hold : sgs.rules.filter (fun rule ↦ rule.id ≠ sgs.nextRuleId) = sgs.rules :=
    List.filter_eq_self.2 fun rule hrule ↦ by simpa using (sgs.lt_nextRuleId rule hrule).ne
  show (sgs.rules ++ [sgs.newRule sgId spec]).filter (fun rule ↦ rule.id ≠ sgs.nextRuleId) = _
  rw [List.filter_append, hold, List.filter_cons_of_neg (by simp [SecurityGroups.newRule]),
    List.filter_nil, List.append_nil]

/-! ### The two operations -/

theorem addSecurityGroupRule_eq (spec : RuleSpec) (hres : res ∈ crs.names)
    (hsg : sgs.groups.find? (fun sg ↦ sg.name = sgName) = some sg) :
    addSecurityGroupRule crs res sgName spec sgs =
      .ok (if (sgs.rulesOf sg).any spec.found then sgs else sgs.create sg.id spec) := by
  simp only [addSecurityGroupRule, CloudResources.get_eq_ok_iff.2 ⟨hres, rfl⟩, hsg]
  rfl

theorem removeSecurityGroupRule_of_none (hres : res ∈ crs.names)
    (hsg : sgs.groups.find? (fun sg ↦ sg.name = sgName) = some sg)
    (h : (sgs.rulesOf sg).find? spec.found = none) :
    removeSecurityGroupRule crs res sgName spec sgs = .ok sgs := by
  simp only [removeSecurityGroupRule, CloudResources.get_eq_ok_iff.2 ⟨hres, rfl⟩, hsg, h]
  rfl

theorem removeSecurityGroupRule_of_some (hres : res ∈ crs.names)
    (hsg : sgs.groups.find? (fun sg ↦ sg.name = sgName) = some sg)
    (h : (sgs.rulesOf sg).find? spec.found = some rule) :
    removeSecurityGroupRule crs res sgName spec sgs = .ok (sgs.delete rule.id) := by
  simp only [removeSecurityGroupRule, CloudResources.get_eq_ok_iff.2 ⟨hres, rfl⟩, hsg, h]
  rfl

/-! ### When they are inverse -/

/-- Where no rule has these ports and addresses, all is well. -/
theorem rulesInverse_of_none (hres : res ∈ crs.names)
    (hsg : sgs.groups.find? (fun sg ↦ sg.name = sgName) = some sg)
    (h : (sgs.rulesOf sg).find? spec.found = none) : RulesInverse crs res sgName spec sgs sg := by
  have hany : (sgs.rulesOf sg).any spec.found = false := by
    rw [List.any_eq_false]
    exact List.find?_eq_none.1 h
  have hadd := addSecurityGroupRule_eq spec hres hsg
  rw [hany, if_neg Bool.false_ne_true] at hadd
  have hremove : removeSecurityGroupRule crs res sgName spec (sgs.create sg.id spec) = _ :=
    removeSecurityGroupRule_of_some hres hsg (SecurityGroups.find?_create h)
  have hnew := spec.isFor_newRule sgs sg.id
  constructor
  · refine ⟨_, hadd, ⟨_, ?_, hnew⟩, rfl, [_], rfl, List.forall_mem_singleton.2 hnew⟩
    rw [sgs.rulesOf_create]
    exact List.mem_append_right _ (List.mem_singleton_self _)
  · exact ⟨sgs, removeSecurityGroupRule_of_none hres hsg h, fun _ hrule _ ↦ hrule⟩
  · exact fun _ ↦ ⟨_, _, hadd, hremove, rfl, sgs.delete_create sg.id⟩

/-- So it is where the first such rule is the one asked for. -/
theorem rulesInverse_of_isFor (hres : res ∈ crs.names)
    (hsg : sgs.groups.find? (fun sg ↦ sg.name = sgName) = some sg)
    (h : (sgs.rulesOf sg).find? spec.found = some rule) (hrule : spec.IsFor rule) :
    RulesInverse crs res sgName spec sgs sg := by
  have hmem := List.mem_of_find?_eq_some h
  have hany : (sgs.rulesOf sg).any spec.found = true :=
    List.any_eq_true.2 ⟨rule, hmem, List.find?_some h⟩
  have hadd := addSecurityGroupRule_eq spec hres hsg
  rw [if_pos hany] at hadd
  constructor
  · exact ⟨sgs, hadd, ⟨rule, hmem, hrule⟩, rfl, [], (List.append_nil _).symm,
      List.forall_mem_nil _⟩
  · refine ⟨_, removeSecurityGroupRule_of_some hres hsg h, fun other hother hnot ↦ ?_⟩
    refine List.mem_filter.2 ⟨hother, decide_eq_true fun hid ↦ hnot ?_⟩
    obtain rfl := sgs.eq_of_id hother (SecurityGroups.mem_rulesOf.1 hmem).1 hid
    exact hrule
  · exact fun hnone ↦ absurd hrule (hnone rule hmem)

/-- **The operations are inverse exactly if the first rule of the group with these ports and
addresses, if there is one, has the protocol asked for.** -/
theorem rulesInverse_iff (crs : CloudResources) (res sgName : String) (spec : RuleSpec)
    (sgs : SecurityGroups) (sg : SecurityGroup) (hres : res ∈ crs.names)
    (hsg : sgs.groups.find? (fun sg ↦ sg.name = sgName) = some sg) :
    RulesInverse crs res sgName spec sgs sg ↔
      ∀ rule, (sgs.rulesOf sg).find? spec.found = some rule → rule.protocol = spec.protocol := by
  constructor
  · intro hinverse rule hfind
    by_contra hprotocol
    obtain ⟨sgs', hremove, hkept⟩ := hinverse.kept
    rw [removeSecurityGroupRule_of_some hres hsg hfind] at hremove
    obtain rfl := Except.ok.inj hremove
    -- the rule that was found is deleted, for its id
    have hmem := (SecurityGroups.mem_rulesOf.1 (List.mem_of_find?_eq_some hfind)).1
    have hstill := hkept rule hmem fun hfor ↦ hprotocol hfor.1
    exact absurd rfl (of_decide_eq_true (List.mem_filter.1 hstill).2)
  · intro hfirst
    rcases hfind : (sgs.rulesOf sg).find? spec.found with - | rule
    · exact rulesInverse_of_none hres hsg hfind
    · exact rulesInverse_of_isFor hres hsg hfind
        (RuleSpec.isFor_iff.2 ⟨List.find?_some hfind, hfirst rule hfind⟩)

end

/-! ### The rule of the file server -/

/-- The rule for a worker, as `update_provision_status` and `check_cleanup` ask for it. -/
def nfsRule (ip : String) : RuleSpec where
  protocol := "TCP"
  cidr := ip ++ "/32"
  fromPort := 2049
  toPort := 2049

/-- A group in which a worker already has a rule for this protocol. -/
def openGroup (protocol : String) : SecurityGroups where
  groups := [⟨0, "default-nfs"⟩]
  rules := [⟨7, 0, protocol, some 2049, some 2049, some "10.0.0.5/32"⟩]
  nextRuleId := 8
  nodup := List.nodup_singleton 7
  lt_nextRuleId := List.forall_mem_singleton.2 (Nat.lt_succ_self 7)

theorem rulesInverse_iff_tcp :
    RulesInverse JobScheduler.threeNodes "default" "default-nfs" (nfsRule "10.0.0.5")
      (openGroup "TCP") ⟨0, "default-nfs"⟩ :=
  (rulesInverse_iff JobScheduler.threeNodes "default" "default-nfs" (nfsRule "10.0.0.5")
    (openGroup "TCP") ⟨0, "default-nfs"⟩ (by decide) rfl).2 (by decide)

/-- A rule for UDP stands in the way: none is added for TCP, and the removal deletes it. -/
theorem udp_rule_removed :
    ¬RulesInverse JobScheduler.threeNodes "default" "default-nfs" (nfsRule "10.0.0.5")
      (openGroup "UDP") ⟨0, "default-nfs"⟩ := by
  intro hinverse
  obtain ⟨sgs', hremove, hkept⟩ := hinverse.kept
  rw [removeSecurityGroupRule_of_some (by decide) rfl (by decide :
    ((openGroup "UDP").rulesOf ⟨0, "default-nfs"⟩).find? (nfsRule "10.0.0.5").found =
      some ⟨7, 0, "UDP", some 2049, some 2049, some "10.0.0.5/32"⟩)] at hremove
  obtain rfl := Except.ok.inj hremove
  exact absurd (hkept ⟨7, 0, "UDP", some 2049, some 2049, some "10.0.0.5/32"⟩
    (List.mem_singleton_self _) (by decide)) (by decide)

end DynamicTorque
