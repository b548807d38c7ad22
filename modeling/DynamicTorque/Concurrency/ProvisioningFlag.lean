import DynamicTorque.Language.Interleaving
import DynamicTorque.LifeCycle.Footprints
import DynamicTorque.LifeCycle.StaticWorkers

/-!
# The provisioning flag

The CloudPoller polls the starting VMs only while `provisioning` is set, so the flag has to cover
them. The JobPoller tests the flag at the beginning of a round and resets it, without the lock,
whenever it has shut down an idle worker; a launch in between is left uncovered. `KeepsFlag` rules
the two races out, a reset after a launch of the other thread and a launch after such a reset, and
in every interleaving of the two pollers whose steps keep the flag it covers the starting VMs in
every state.
-/

open Python Atomic Program

namespace DynamicTorque

/-- If a VM is being started, the flag is set. -/
def FlagCovers (s : State) : Prop :=
  s.starting ≠ [] → s.provisioning = true

/-- A reset of the flag without the lock. -/
def Act.resetsFlag : Act → Bool
  | .setProvisioning b => !b
  | _ => false

/-- A VM is launched. -/
def Act.launches : Act → Bool
  | .locked (.addStarting _) => true
  | _ => false

/-- Another thread has reset the flag during the call, and it has not been set again since. -/
def FlagReset (log : List (Entry Act State)) : Prop :=
  ∃ before e after, log = before ++ e :: after ∧ (e.own = false ∧ e.op.resetsFlag = true) ∧
    ∀ x ∈ after, x.after.provisioning = false

/-- Another thread has launched a VM during the call, and the flag has been set ever since: the
launch is later than a test that saw the flag down. -/
def LaunchedSince (log : List (Entry Act State)) : Prop :=
  ∃ before e after, log = before ++ e :: after ∧ (e.own = false ∧ e.op.launches = true) ∧
    ∀ x ∈ after, x.after.provisioning = true

/-- A step that keeps the flag over the starting VMs: the flag is reset only if no other thread has
launched a VM since the test, and a VM is launched only if no other thread has reset the flag under
the launch. -/
def KeepsFlag (_ : Thread) (log : List (Entry Act State)) (o : Act) (_ : State) : Prop :=
  (o.resetsFlag = true → ¬LaunchedSince log) ∧ (o.launches = true → ¬FlagReset log)

/-- Whether a log has such an entry. -/
instance decidableEntry {P : Entry Act State → Prop} {Q : State → Prop} [DecidablePred P]
    [DecidablePred Q] : ∀ log : List (Entry Act State), Decidable
      (∃ before e after, log = before ++ e :: after ∧ P e ∧ ∀ x ∈ after, Q x.after)
  | [] => isFalse (by simp)
  | e :: log =>
    have := decidableEntry (P := P) (Q := Q) log
    decidable_of_iff ((P e ∧ ∀ x ∈ log, Q x.after) ∨
        ∃ before e after, log = before ++ e :: after ∧ P e ∧ ∀ x ∈ after, Q x.after) <| by
      constructor
      · rintro (h | ⟨before, e', after, rfl, h⟩)
        · exact ⟨[], e, log, rfl, h⟩
        · exact ⟨e :: before, e', after, rfl, h⟩
      · rintro ⟨before, e', after, hlog, h⟩
        rcases List.cons_eq_append_iff.1 hlog with ⟨rfl, htail⟩ | ⟨before', rfl, hbefore⟩
        · obtain ⟨rfl, rfl⟩ := List.cons.inj htail
          exact .inl h
        · exact .inr ⟨before', e', after, hbefore, h⟩

instance (log : List (Entry Act State)) : Decidable (FlagReset log) :=
  decidableEntry (P := fun e ↦ e.own = false ∧ e.op.resetsFlag = true)
    (Q := fun s ↦ s.provisioning = false) log

instance (log : List (Entry Act State)) : Decidable (LaunchedSince log) :=
  decidableEntry (P := fun e ↦ e.own = false ∧ e.op.launches = true)
    (Q := fun s ↦ s.provisioning = true) log

instance (t : Thread) (log : List (Entry Act State)) (o : Act) (s : State) :
    Decidable (KeepsFlag t log o s) :=
  inferInstanceAs (Decidable (_ ∧ _))

/-! ### What a thread knows -/

/-- What a round knows of the flag and of the starting list. -/
structure FlagKnown where
  /-- This round has set the flag. -/
  raised : Bool
  /-- The starting list was empty when it was last looked at. -/
  noneStarting : Bool
  /-- This round has seen the flag down. -/
  seenDown : Bool

namespace FlagKnown

/-- What a round knows in the beginning. -/
def nothing : FlagKnown := ⟨false, false, false⟩

/-- What a round knows after a step. -/
def after (k : FlagKnown) : (o : Act) → Except PyError o.Reply → FlagKnown
  | .list .starting, .ok xs => { k with noneStarting := List.isEmpty (α := VmRef) xs }
  | .locked (.addStarting _), _ => { k with noneStarting := false }
  | .locked (.setProvisioning b), _ => { k with raised := b }
  | .provisioning, .ok b => { k with seenDown := k.seenDown || not b }
  | _, _ => k

/-- The test is not forgotten. -/
theorem seenDown_after {k : FlagKnown} {o : Act} (r : Except PyError o.Reply)
    (h : k.seenDown = true) : (k.after o r).seenDown = true := by
  rw [after.eq_def]
  split
  · exact h
  · exact h
  · exact h
  · exact Bool.or_eq_true_iff.2 (.inl h)
  · exact h

end FlagKnown

/-- The steps that a thread may take. Only the CloudPoller launches, under the flag that it has
set, and only the JobPoller resets the flag without the lock, after it has seen it down. -/
def Act.FlagAllowed (t : Thread) (k : FlagKnown) : Act → Prop
  | .locked (.addStarting _) => t = .cloudPoller ∧ k.raised = true
  | .locked (.existingToStarting _) => False
  | .locked (.setProvisioning b) => t = .cloudPoller ∧ (b = false → k.noneStarting = true)
  | .setProvisioning b => t = .jobPoller ∧ b = false ∧ k.seenDown = true
  | _ => True

/-- The discipline of a thread. -/
def flagDiscipline (t : Thread) : Discipline Act Act.Reply PyError FlagKnown where
  allows := Act.FlagAllowed t
  replies := fun _ _ ↦ True
  raises := fun _ _ ↦ True
  after := FlagKnown.after

/-- What the knowledge means to the CloudPoller, and the test to the JobPoller. -/
structure FlagKnows (t : Thread) (k : FlagKnown) (log : List (Entry Act State)) (s : State) :
    Prop where
  raised : t = .cloudPoller → k.raised = true → s.provisioning = true ∨ FlagReset log
  noneStarting : t = .cloudPoller → k.noneStarting = true → s.starting = []
  seenDown : t = .jobPoller → k.seenDown = true → s.starting = [] ∨ LaunchedSince log

/-! ### Steps that do not touch the flag -/

/-- From `s` to `s'` the flag stays, and no VM is added to the starting ones. -/
structure Mild (s s' : State) : Prop where
  starting : s'.starting ⊆ s.starting
  provisioning : s'.provisioning = s.provisioning

section Mild

open Locked

variable {s s₁ s' : State} {α β : Type}

theorem Mild.refl (s : State) : Mild s s := ⟨List.Subset.refl _, rfl⟩

theorem Mild.trans (h : Mild s s₁) (h' : Mild s₁ s') : Mild s s' :=
  ⟨fun _ hv ↦ h.starting (h'.starting hv), h'.provisioning.trans h.provisioning⟩

theorem Mild.of_eq (hstarting : s'.starting = s.starting)
    (hprovisioning : s'.provisioning = s.provisioning) : Mild s s' :=
  ⟨hstarting ▸ List.Subset.refl _, hprovisioning⟩

/-- Code under the lock that does not touch the flag, whether it returns or raises. -/
def Tame (x : Locked α) : Prop :=
  ∀ s, Ends x s (fun _ ↦ Mild s) fun _ ↦ Mild s

theorem tame_pure (a : α) : Tame (pure a) := Mild.refl

theorem Tame.bind {x : Locked α} {f : α → Locked β} (h : Tame x) (hf : ∀ a, Tame (f a)) :
    Tame (x >>= f) := by
  intro s
  rw [ends_bind]
  exact (h s).mono (fun a s₁ h₁ ↦ (hf a s₁).mono (fun _ _ h' ↦ h₁.trans h') fun _ _ h' ↦
    h₁.trans h') fun _ _ h' ↦ h'

theorem tame_get : Tame (get : Locked State) := Mild.refl

theorem tame_throw (e : PyError) : Tame (throw e : Locked α) := Mild.refl

theorem tame_lift (x : Except PyError α) : Tame (Atomic.lift x : Locked α) := by
  cases x with
  | ok a => exact tame_pure a
  | error e => exact tame_throw e

theorem tame_modify {g : State → State} (h : ∀ s, Mild s (g s)) : Tame (modify g : Locked Unit) :=
  fun s ↦ h s

theorem tame_when {c : Prop} [Decidable c] {x : Locked Unit} (h : Tame x) :
    Tame (Locked.when c x) := by
  rw [Locked.when]
  split
  · exact h
  · exact tame_pure ()

theorem tame_append {L : ListName} (hL : L ≠ .starting) (v : VmRef) : Tame (append L v) := by
  refine tame_modify fun s ↦ ?_
  cases L with
  | starting => exact absurd rfl hL
  | existing => exact .of_eq rfl rfl
  | deleting => exact .of_eq rfl rfl

theorem tame_removeFrom (L : ListName) (v : VmRef) : Tame (removeFrom L v) := by
  intro s
  by_cases h : v ∈ s.list L
  · rw [ends_removeFrom h]
    cases L with
    | starting => exact ⟨List.erase_subset, rfl⟩
    | existing => exact .of_eq rfl rfl
    | deleting => exact .of_eq rfl rfl
  · simp only [removeFrom, ends_bind, ends_get, remove_of_not_mem h]
    exact Mild.refl s

theorem tame_commitReady (cfg : Config) (vs : List VmRef) : Tame (Locked.commitReady cfg vs) := by
  induction vs with
  | nil => exact tame_pure ()
  | cons v vs ih =>
    have hready : Tame (readyVm cfg v) := by
      refine (tame_removeFrom .starting v).bind fun _ ↦ tame_get.bind fun s ↦ ?_
      refine (tame_lift _).bind fun r ↦ ?_
      obtain ⟨needed, reqs⟩ := r
      have hstatic : Tame (setStaticVmsToStart (s.vms v).cloudResourceName reqs) :=
        tame_modify fun _ ↦ .of_eq rfl rfl
      have hdynamic : Tame (Locked.setVm v fun vm ↦ { vm with dynamic := false }) :=
        tame_modify fun _ ↦ .of_eq rfl rfl
      exact hstatic.bind fun _ ↦ (tame_when hdynamic).bind fun _ ↦
        tame_append (L := .existing) nofun v
    exact hready.bind fun _ ↦ ih

theorem tame_emit (e : Event) : Tame (Locked.emit e) :=
  tame_modify fun _ ↦ .of_eq rfl rfl

theorem tame_closeFirewall (cfg : Config) (vm : VM) (names : List String) :
    Tame (closeFirewall cfg vm names) := by
  induction names with
  | nil => exact tame_pure ()
  | cons res names ih =>
    refine tame_get.bind fun s ↦ (tame_when ?_).bind fun _ ↦ ih
    rw [removeRule.eq_def]
    split
    · exact tame_pure ()
    · exact tame_throw _
    · exact tame_emit _

theorem tame_replaceStatic (cfg : Config) (vm : VM) : Tame (replaceStatic cfg vm) := by
  rw [replaceStatic]
  split
  · exact tame_pure ()
  · split
    · exact tame_pure ()
    · refine tame_get.bind fun s ↦ (tame_lift _).bind fun reqs ↦ ?_
      have hstatic : ∀ reqs, Tame (setStaticVmsToStart vm.cloudResourceName reqs) := fun _ ↦
        tame_modify fun _ ↦ .of_eq rfl rfl
      refine (hstatic _).bind fun _ ↦ ?_
      split
      · split
        · exact tame_modify fun _ ↦ .of_eq rfl rfl
        · exact tame_throw _
      · exact tame_throw _

theorem tame_commitCleanup (cfg : Config) (deleted executing : List VmRef) :
    Tame (do dropDeleted cfg deleted; resumeExecuting executing) := by
  have hdrop : Tame (dropDeleted cfg deleted) := by
    induction deleted with
    | nil => exact tame_pure ()
    | cons v vs ih =>
      have hone : Tame (dropVm cfg v) := by
        have hhook : ∀ hook, Tame (runHook cfg hook v) := fun _ ↦
          tame_get.bind fun _ ↦ (tame_lift _).bind fun _ ↦ tame_emit _
        refine (tame_removeFrom .deleting v).bind fun _ ↦ (hhook _).bind fun _ ↦ ?_
        refine (hhook _).bind fun _ ↦ tame_get.bind fun s ↦ ?_
        exact (tame_when (tame_closeFirewall _ _ _)).bind fun _ ↦
          tame_when (tame_replaceStatic _ _)
      exact hone.bind fun _ ↦ ih
  have hresume : Tame (resumeExecuting executing) := by
    induction executing with
    | nil => exact tame_pure ()
    | cons v vs ih =>
      have hone : Tame (resumeVm v) :=
        (tame_append (L := .existing) nofun v).bind fun _ ↦
          (tame_removeFrom .deleting v).bind fun _ ↦
          tame_emit _
      exact hone.bind fun _ ↦ ih
  exact hdrop.bind fun _ ↦ hresume

theorem tame_removeWaiting (rs : List WaitingRequest) : Tame (removeWaiting rs) := by
  induction rs with
  | nil => exact tame_pure ()
  | cons r rs ih =>
    have hset : ∀ (s : State) waiting, Ends (set { s with waiting := waiting } : Locked Unit) s
        (fun _ ↦ Mild s) fun _ ↦ Mild s := fun s waiting ↦ .of_eq rfl rfl
    intro s
    rw [removeWaiting, ends_bind, ends_get, ends_bind]
    refine ends_lift (fun waiting _ ↦ ?_) fun e _ ↦ Mild.refl s
    rw [ends_bind]
    refine (hset s waiting).mono (fun _ s₁ h₁ ↦ ?_) fun _ _ h ↦ h
    exact (ih s₁).mono (fun _ _ h ↦ h₁.trans h) fun _ _ h ↦ h₁.trans h

/-- The steps that neither touch the flag nor add a starting VM. -/
def Act.Mild : Act → Prop
  | .setProvisioning _ | .locked (.setProvisioning _) | .locked (.addStarting _)
  | .locked (.existingToStarting _) | .locked (.queueRequests _) => False
  | _ => True

theorem tame_code (cfg : Config) {b : Block} (h : (Act.locked b).Mild) : Tame (b.code cfg) := by
  cases b with
  | existingToDeleting v =>
    exact (tame_append (L := .deleting) nofun v).bind fun _ ↦ tame_removeFrom _ v
  | dropExisting v => exact tame_removeFrom _ v
  | drain L =>
    refine tame_modify fun s ↦ ?_
    cases L with
    | starting => exact ⟨List.nil_subset _, rfl⟩
    | existing => exact .of_eq rfl rfl
    | deleting => exact .of_eq rfl rfl
  | destroyExisting v =>
    exact (tame_removeFrom _ v).bind fun _ ↦ tame_append (L := .deleting) nofun v
  | commitReady vs => exact tame_commitReady cfg vs
  | startingToDeleting v =>
    exact (tame_removeFrom _ v).bind fun _ ↦ tame_append (L := .deleting) nofun v
  | endLaunch rs => exact tame_removeWaiting rs
  | updateAvailableCores => exact tame_modify fun _ ↦ .of_eq rfl rfl
  | commitCleanup deleted executing => exact tame_commitCleanup cfg deleted executing
  | setProvisioning b => exact h.elim
  | addStarting v => exact h.elim
  | existingToStarting v => exact h.elim
  | queueRequests rs => exact h.elim

/-- **A mild step.** -/
theorem ends_exec_mild (cfg : Config) {o : Act} (h : o.Mild) (s : State) :
    Ends (exec cfg o) s (fun _ ↦ Mild s) fun _ ↦ Mild s := by
  cases o with
  | locked b => exact tame_code cfg h s
  | setProvisioning b => exact h.elim
  | calculate draws idleJobs numberOfWn =>
    show Ends (get >>= _) s _ _
    rw [ends_bind, ends_get, ends_bind]
    exact ends_lift (fun r _ ↦ Mild.of_eq rfl rfl) fun _ _ ↦ Mild.refl s
  | list L => exact Mild.refl s
  | findVm hostname => exact Mild.refl s
  | vm v => exact Mild.refl s
  | waiting => exact Mild.refl s
  | cluster => exact Mild.refl s
  | provisioning => exact Mild.refl s
  | sleepMode => exact Mild.refl s
  | resources => exact Mild.refl s
  | setVm v f => exact Mild.of_eq rfl rfl
  | setCluster f => exact Mild.of_eq rfl rfl
  | toggleSleepMode => exact Mild.of_eq rfl rfl
  | setStatic resource reqs => exact Mild.of_eq rfl rfl
  | setAvailable resource n => exact Mild.of_eq rfl rfl
  | newVm vm => exact Mild.of_eq rfl rfl
  | setExisting vms => exact Mild.of_eq rfl rfl
  | appendWaiting requests => exact Mild.of_eq rfl rfl
  | emit e => exact Mild.of_eq rfl rfl
  | dumpNodes => exact Mild.of_eq rfl rfl

end Mild

/-! ### The rules -/

section Flag

variable {cfg : Config} {t : Thread} {k : FlagKnown} {log : List (Entry Act State)} {s s' : State}

/-- A reset stays in the log, as long as the flag is not set again. -/
theorem FlagReset.snoc {e : Entry Act State} (h : FlagReset log)
    (he : e.after.provisioning = false) : FlagReset (log ++ [e]) := by
  obtain ⟨before, reset, after, hlog, hreset, hafter⟩ := h
  refine ⟨before, reset, after ++ [e], by simp [hlog], hreset, fun x hx ↦ ?_⟩
  rcases List.mem_append.1 hx with hx | hx
  · exact hafter x hx
  · rw [List.mem_singleton.1 hx]
    exact he

/-- A launch stays in the log, as long as the flag is set. -/
theorem LaunchedSince.snoc {e : Entry Act State} (h : LaunchedSince log)
    (he : e.after.provisioning = true) : LaunchedSince (log ++ [e]) := by
  obtain ⟨before, launch, after, hlog, hlaunch, hafter⟩ := h
  refine ⟨before, launch, after ++ [e], by simp [hlog], hlaunch, fun x hx ↦ ?_⟩
  rcases List.mem_append.1 hx with hx | hx
  · exact hafter x hx
  · rw [List.mem_singleton.1 hx]
    exact he

/-- The starting VMs, if there are any, have been launched by another thread; a step that adds none
and leaves them covered does not change that. -/
theorem none_or_launched_snoc {own : Bool} {o : Act} (h : s.starting = [] ∨ LaunchedSince log)
    (hstarting : s'.starting ⊆ s.starting) (hcovers : FlagCovers s') :
    s'.starting = [] ∨ LaunchedSince (log ++ [⟨own, o, s, s'⟩]) := by
  by_cases hnone : s'.starting = []
  · exact .inl hnone
  · refine .inr ((h.resolve_left fun hnil ↦ hnone ?_).snoc (hcovers hnone))
    exact List.subset_nil.1 (hnil ▸ hstarting)

theorem FlagCovers.mild (h : FlagCovers s) (hmild : Mild s s') : FlagCovers s' := by
  intro hne
  rw [hmild.provisioning]
  refine h fun hnil ↦ hne ?_
  have hsub : s'.starting ⊆ [] := hnil ▸ hmild.starting
  exact List.subset_nil.1 hsub

/-- A mild step takes nothing from what is known, whoever takes it. -/
theorem FlagKnows.mild (h : FlagKnows t k log s) (hcovers : FlagCovers s) (hmild : Mild s s')
    (own : Bool) (o : Act) : FlagKnows t k (log ++ [⟨own, o, s, s'⟩]) s' where
  raised := fun ht hk ↦ by
    cases hflag : s'.provisioning with
    | true => exact .inl rfl
    | false =>
      have hdown : s.provisioning = false := hmild.provisioning ▸ hflag
      have hreset : FlagReset log := (h.raised ht hk).resolve_left (by simp [hdown])
      exact .inr (hreset.snoc hflag)
  noneStarting := fun ht hk ↦ by
    have hsub : s'.starting ⊆ [] := h.noneStarting ht hk ▸ hmild.starting
    exact List.subset_nil.1 hsub
  seenDown := fun ht hk ↦
    none_or_launched_snoc (h.seenDown ht hk) hmild.starting (hcovers.mild hmild)

/-- What the CloudPoller knows after it has looked at the starting list. -/
theorem FlagKnows.look (h : FlagKnows t k log s) (hcovers : FlagCovers s) : FlagKnows t
    { k with noneStarting := s.starting.isEmpty }
    (log ++ [⟨true, .list .starting, s, s⟩]) s where
  raised := (h.mild hcovers (.refl s) true (.list .starting)).raised
  noneStarting := fun _ hk ↦ List.isEmpty_iff.1 hk
  seenDown := (h.mild hcovers (.refl s) true (.list .starting)).seenDown

/-- What the JobPoller knows after it has tested the flag: where it is down, no VM is being
started. -/
theorem FlagKnows.test (h : FlagKnows t k log s) (hcovers : FlagCovers s) : FlagKnows t
    { k with seenDown := k.seenDown || not s.provisioning }
    (log ++ [⟨true, .provisioning, s, s⟩]) s where
  raised := (h.mild hcovers (.refl s) true .provisioning).raised
  noneStarting := (h.mild hcovers (.refl s) true .provisioning).noneStarting
  seenDown := fun ht hk ↦ by
    rcases Bool.or_eq_true_iff.1 hk with hseen | hdown
    · exact (h.mild hcovers (.refl s) true .provisioning).seenDown ht hseen
    · refine .inl (by_contra fun hne ↦ ?_)
      rw [hcovers hne] at hdown
      exact Bool.false_ne_true hdown

/-- What is known after a mild step of the thread's own. -/
theorem FlagKnows.after (h : FlagKnows t k log s) (hcovers : FlagCovers s) (hmild : Mild s s')
    {o : Act} (ho : o.Mild) (hlist : o ≠ .list .starting) (htest : o ≠ .provisioning)
    (r : Except PyError o.Reply) : FlagKnows t (k.after o r) (log ++ [⟨true, o, s, s'⟩]) s' := by
  have hknown : k.after o r = k := by
    cases o with
    | list L =>
      cases L with
      | starting => exact absurd rfl hlist
      | existing => rfl
      | deleting => rfl
    | locked b =>
      cases b with
      | addStarting v => exact ho.elim
      | setProvisioning b => exact ho.elim
      | _ => rfl
    | provisioning => exact absurd rfl htest
    | _ => rfl
  rw [hknown]
  exact h.mild hcovers hmild true o

/-- The steps that are not mild. -/
theorem Act.not_mild_cases {o : Act} (h : ¬o.Mild) : (∃ b, o = .setProvisioning b) ∨
    (∃ b, o = .locked (.setProvisioning b)) ∨ (∃ v, o = .locked (.addStarting v)) ∨
      (∃ v, o = .locked (.existingToStarting v)) ∨ ∃ rs, o = .locked (.queueRequests rs) := by
  cases o with
  | setProvisioning b => exact .inl ⟨b, rfl⟩
  | locked b =>
    cases b with
    | setProvisioning b => exact .inr (.inl ⟨b, rfl⟩)
    | addStarting v => exact .inr (.inr (.inl ⟨v, rfl⟩))
    | existingToStarting v => exact .inr (.inr (.inr (.inl ⟨v, rfl⟩)))
    | queueRequests rs => exact .inr (.inr (.inr (.inr ⟨rs, rfl⟩)))
    | _ => exact absurd trivial h
  | _ => exact absurd trivial h

/-- The CloudPoller's part is not asked of the other threads. -/
theorem FlagKnows.of_ne (h : t ≠ .cloudPoller)
    (hseen : t = .jobPoller → k.seenDown = true → s.starting = [] ∨ LaunchedSince log) :
    FlagKnows t k log s :=
  ⟨fun ht ↦ absurd ht h, fun ht ↦ absurd ht h, hseen⟩

/-- **The thread that takes a step.** -/
theorem flag_perform (cfg : Config) {o : Act} (hcovers : FlagCovers s)
    (hknows : FlagKnows t k log s) (hallows : o.FlagAllowed t k) (hkeeps : KeepsFlag t log o s) :
    Ends (exec cfg o) s
      (fun r s' ↦ FlagCovers s' ∧ FlagKnows t (k.after o (.ok r)) (log ++ [⟨true, o, s, s'⟩]) s')
      fun e s' ↦ FlagCovers s' ∧
        FlagKnows t (k.after o (.error e)) (log ++ [⟨true, o, s, s'⟩]) s' := by
  by_cases ho : o.Mild
  · by_cases hlist : o = .list .starting
    · subst hlist
      exact ⟨hcovers, hknows.look hcovers⟩
    · by_cases htest : o = .provisioning
      · subst htest
        exact ⟨hcovers, hknows.test hcovers⟩
      · exact (ends_exec_mild cfg ho s).mono
          (fun r s' h ↦ ⟨hcovers.mild h, hknows.after hcovers h ho hlist htest (.ok r)⟩)
          fun e s' h ↦ ⟨hcovers.mild h, hknows.after hcovers h ho hlist htest (.error e)⟩
  · rcases Act.not_mild_cases ho with ⟨b, rfl⟩ | ⟨b, rfl⟩ | ⟨v, rfl⟩ | ⟨v, rfl⟩ | ⟨rs, rfl⟩
    · -- since the JobPoller has seen the flag down, nobody has launched a VM
      obtain ⟨rfl, rfl, hseen⟩ := hallows
      have hnone : s.starting = [] := (hknows.seenDown rfl hseen).resolve_right (hkeeps.1 rfl)
      exact ⟨fun hne ↦ absurd hnone hne, .of_ne nofun fun _ _ ↦ .inl hnone⟩
    · obtain ⟨rfl, hnone⟩ := hallows
      cases b with
      | true => exact ⟨fun _ ↦ rfl, fun _ _ ↦ .inl rfl, hknows.noneStarting, nofun⟩
      | false =>
        have hstarting : s.starting = [] := hknows.noneStarting rfl (hnone rfl)
        exact ⟨fun hne ↦ absurd hstarting hne, nofun, fun _ _ ↦ hstarting, nofun⟩
    · -- a launch that still has its flag
      obtain ⟨rfl, hraised⟩ := hallows
      have hset : s.provisioning = true := (hknows.raised rfl hraised).resolve_right (hkeeps.2 rfl)
      exact ⟨fun _ ↦ hset, fun _ _ ↦ .inl hset, nofun, nofun⟩
    · exact hallows.elim
    · refine ⟨fun _ ↦ rfl, fun _ _ ↦ .inl rfl, hknows.noneStarting, fun ht hk ↦ ?_⟩
      exact none_or_launched_snoc (hknows.seenDown ht hk) (List.Subset.refl _) fun _ ↦ rfl

/-- **The other threads.** -/
theorem flag_interfere (cfg : Config) {u : Thread} {o : Act} (hu : u ≠ t)
    (hcovers : FlagCovers s) {log' : List (Entry Act State)} (hknows : FlagKnows t k log' s)
    (hallows : o.FlagAllowed t k) {k' : FlagKnown} (h : FlagKnows u k' log s) :
    Ends (exec cfg o) s (fun _ s' ↦ FlagKnows u k' (log ++ [⟨false, o, s, s'⟩]) s')
      fun _ s' ↦ FlagKnows u k' (log ++ [⟨false, o, s, s'⟩]) s' := by
  by_cases ho : o.Mild
  · exact (ends_exec_mild cfg ho s).mono (fun _ _ h' ↦ h.mild hcovers h' false o) fun _ _ h' ↦
      h.mild hcovers h' false o
  · rcases Act.not_mild_cases ho with ⟨b, rfl⟩ | ⟨b, rfl⟩ | ⟨v, rfl⟩ | ⟨v, rfl⟩ | ⟨rs, rfl⟩
    · -- the reset is in the log of the launch that it hits
      obtain ⟨rfl, rfl, -⟩ := hallows
      have hreset : FlagReset (log ++
          [⟨false, .setProvisioning false, s, { s with provisioning := false }⟩]) :=
        ⟨log, _, [], rfl, ⟨rfl, rfl⟩, fun _ hx ↦ absurd hx List.not_mem_nil⟩
      have hknown : FlagKnows u k' (log ++
          [⟨false, .setProvisioning false, s, { s with provisioning := false }⟩])
          { s with provisioning := false } :=
        ⟨fun _ _ ↦ .inr hreset, h.noneStarting, fun ht ↦ absurd ht hu⟩
      exact hknown
    · obtain ⟨rfl, hnone⟩ := hallows
      refine FlagKnows.of_ne hu fun ht hk ↦ ?_
      cases b with
      | true => exact none_or_launched_snoc (h.seenDown ht hk) (List.Subset.refl _) fun _ ↦ rfl
      | false => exact .inl (hknows.noneStarting rfl (hnone rfl))
    · -- the launch is in the log of the reset that would hit it
      obtain ⟨rfl, -⟩ := hallows
      refine FlagKnows.of_ne hu fun _ _ ↦ .inr ⟨log, _, [], rfl, ⟨rfl, rfl⟩, fun _ hx ↦ ?_⟩
      exact absurd hx List.not_mem_nil
    · exact hallows.elim
    · refine ⟨fun _ _ ↦ .inl rfl, h.noneStarting, fun ht hk ↦ ?_⟩
      exact none_or_launched_snoc (h.seenDown ht hk) (List.Subset.refl _) fun _ ↦ rfl

/-- Every step of a round keeps the flag over the starting VMs, under the condition. -/
theorem flag_rules (cfg : Config) :
    Rules (exec cfg) flagDiscipline FlagCovers FlagKnows .nothing KeepsFlag where
  start := fun _ _ _ ↦ ⟨fun _ h ↦ (nomatch h), fun _ h ↦ (nomatch h), fun _ h ↦ (nomatch h)⟩
  perform := fun hcovers hknows hallows hkeeps ↦
    (flag_perform cfg hcovers hknows hallows hkeeps).mono
      (fun _ _ h ↦ ⟨h.1, trivial, h.2⟩) fun _ _ h ↦ ⟨h.1, trivial, h.2⟩
  interfere := fun hu hcovers hknows hallows _ h ↦
    flag_interfere cfg hu hcovers hknows hallows h

end Flag

/-! ### The rounds keep to the disciplines -/

section Rounds

variable {cfg : Config} {t : Thread} {k : FlagKnown}

/-- A step that a thread may take whatever it knows. -/
def Act.FlagFree (t : Thread) (o : Act) : Prop :=
  ∀ k, o.FlagAllowed t k

/-- A program of such steps. -/
abbrev FlagFree {α : Type} (t : Thread) (p : Proc α) : Prop :=
  p.Within (Act.FlagFree t) (fun _ ↦ True) fun _ ↦ True

theorem Act.Scans.flagFree {scope : Scope} {o : Act} (h : o.Scans scope) : o.FlagFree t := by
  intro k
  cases o with
  | locked b => exact h.elim
  | setProvisioning b => exact h.elim
  | _ => trivial

theorem flagFree_of_within {α : Type} {p : Proc α} {Φ : α → Prop} {Ε : PyError → Prop}
    (h : p.Within (Act.Scans .any) Φ Ε) : FlagFree t p :=
  h.mono (fun _ ho ↦ ho.flagFree) (fun _ _ ↦ trivial) fun _ _ ↦ trivial

theorem flagFree_step {o : Act} (h : o.FlagFree t) : FlagFree t (Program.perform o) :=
  ⟨h, fun _ ↦ trivial⟩

/-- A program of steps that may always be taken keeps to the discipline. -/
theorem obeys_of_flagFree {α : Type} {p : Proc α} (h : FlagFree t p) (k : FlagKnown) :
    p.Obeys (flagDiscipline t) (fun _ _ ↦ True) (fun _ _ ↦ True) k :=
  h.obeys_of_forall (fun k _ ho ↦ ho k) k

theorem flagFree_vmDestroy (v : VmRef) (record : Option WorkerNode) (call : DestroyCall) :
    FlagFree t (vmDestroy v record call.answer call.now) :=
  flagFree_of_within (scanning_vmDestroy trivial (fun _ ↦ trivial) call.now)

/-! #### The JobPoller -/

/-- The JobPoller may release VMs, and reset the flag, after it has seen the flag down. -/
theorem Act.Releases.flagAllowed {o : Act} (h : o.Releases VM.role) (hseen : k.seenDown = true) :
    o.FlagAllowed .jobPoller k := by
  cases o with
  | setProvisioning b => exact ⟨rfl, h, hseen⟩
  | locked b => cases b <;> first | exact h.elim | trivial
  | _ => trivial

/-- **The scan of the workers**, behind the test. -/
theorem flagObeys_checkExistingWorkerNodes (answers : ℕ → WorkerAnswers)
    (hseen : k.seenDown = true) :
    (checkExistingWorkerNodes cfg answers).Obeys (flagDiscipline .jobPoller)
      (fun _ k ↦ k.seenDown = true) (fun _ _ ↦ True) k :=
  (releases_checkExistingWorkerNodes answers).obeys_of_kept
    (fun _ _ ho hk ↦ ho.flagAllowed hk) (fun _ _ r _ hk ↦ FlagKnown.seenDown_after (.ok r) hk) hseen

theorem flagFree_determineRequiredInstancesNumbers (draws : JobScheduler.Draws) :
    FlagFree .jobPoller (determineRequiredInstancesNumbers draws) := by
  refine .step (fun _ ↦ trivial) fun cluster ↦ ?_
  split
  · refine .step (fun _ ↦ trivial) fun flavorList ↦ ?_
    split
    · refine .step (fun _ ↦ trivial) fun provisioning ↦ ?_
      split
      · trivial
      · exact flagFree_step fun _ ↦ trivial
    · trivial
  · trivial

/-- The scan and what follows it, if the test has seen the flag down. -/
theorem obeys_adjustWorkers (answers : JobAnswers) (k : FlagKnown) :
    (adjustWorkers cfg answers).Obeys (flagDiscipline .jobPoller) (fun _ _ ↦ True)
      (fun _ _ ↦ True) k := by
  refine .step trivial (fun _ _ ↦ trivial) fun (provisioning : Bool) _ ↦ ?_
  cases provisioning with
  | true => trivial
  | false =>
    have hseen : (k.seenDown || not false) = true := Bool.or_true _
    refine (flagObeys_checkExistingWorkerNodes answers.worker hseen).bind fun _ k _ ↦ ?_
    refine .step trivial (fun _ _ ↦ trivial) fun (crs : CloudResources) _ ↦ ?_
    split
    · exact obeys_of_flagFree (flagFree_determineRequiredInstancesNumbers answers.draws) _
    · trivial

/-- **A round of the JobPoller.** -/
theorem obeys_collectClusterInformation (answers : JobAnswers) (k : FlagKnown) :
    (collectClusterInformation cfg answers).Obeys (flagDiscipline .jobPoller) (fun _ _ ↦ True)
      (fun _ _ ↦ True) k := by
  have hprioritise : FlagFree .jobPoller (prioritiseJobs answers.priorities) :=
    (within_prioritiseJobs answers.priorities).mono (fun _ ho ↦ ho.flagFree) (fun _ _ ↦ trivial)
      fun _ _ ↦ trivial
  refine .step trivial (fun _ _ ↦ trivial) fun _ _ ↦ ?_
  refine .step trivial (fun _ _ ↦ trivial) fun (c : Cluster) _ ↦ ?_
  split
  · refine (obeys_of_flagFree hprioritise _).bind fun _ k _ ↦ ?_
    refine .step trivial (fun _ _ ↦ trivial) fun _ _ ↦ ?_
    refine .step trivial (fun _ _ ↦ trivial) fun (c : Cluster) _ ↦ ?_
    split
    · refine .step trivial (fun _ _ ↦ trivial) fun _ _ ↦ ?_
      refine .step trivial (fun _ _ ↦ trivial) fun (sleepMode : Bool) _ ↦ ?_
      refine .step trivial (fun _ _ ↦ trivial) fun (c : Cluster) _ ↦ ?_
      split
      · trivial
      · exact obeys_adjustWorkers answers _
    · trivial
  · trivial

/-! #### The CloudPoller -/

/-- A round of the CloudPoller that keeps to its discipline. -/
abbrev ObeysFlag {α : Type} (p : Proc α) (k : FlagKnown) : Prop :=
  p.Obeys (flagDiscipline .cloudPoller) (fun _ _ ↦ True) (fun _ _ ↦ True) k

theorem obeysFlag_bind {α β : Type} {p : Proc α} {f : α → Proc β} (h : FlagFree .cloudPoller p)
    (hf : ∀ a k, ObeysFlag (f a) k) : ObeysFlag (p >>= f) k :=
  (obeys_of_flagFree h k).bind fun a k _ ↦ hf a k

/-- `vm_start` teaches nothing about the flag. -/
theorem obeys_vmStart (flavor : FlavorRef) (zone : Option String) (resource : String)
    (answer : Option StartedServer) :
    (vmStart cfg flavor zone resource answer).Obeys (flagDiscipline t) (fun _ k' ↦ k' = k)
      (fun _ _ ↦ True) k := by
  refine .step trivial (fun _ _ ↦ trivial) fun (crs : CloudResources) _ ↦ ?_
  refine Obeys.bind (Φ := fun _ k' ↦ k' = k) (obeys_lift (fun _ _ ↦ rfl) fun _ _ ↦ trivial) ?_
  rintro res k' rfl
  refine .step trivial (fun _ _ ↦ trivial) fun _ _ ↦ ?_
  cases answer with
  | none => exact rfl
  | some server => exact .step trivial (fun _ _ ↦ trivial) fun _ _ ↦ rfl

/-- An entry of the waiting list is launched under the flag. -/
theorem obeys_launchVisit {answer : Option StartedServer} {entry : WaitingRequest}
    {loop : LaunchLoop} (hraised : k.raised = true) :
    (launchVisit cfg answer entry loop).Obeys (flagDiscipline .cloudPoller)
      (fun _ k ↦ k.raised = true) (fun _ _ ↦ True) k := by
  rw [launchVisit]
  split
  · exact hraised
  · split
    · exact hraised
    · refine (obeys_vmStart _ _ _ _).bind ?_
      rintro started k' rfl
      cases started with
      | none => exact hraised
      | some v => exact .step ⟨rfl, hraised⟩ (fun _ _ ↦ trivial) fun _ _ ↦ hraised

/-- **`launch_instances`** adds VMs under the flag that it has set. -/
theorem obeysFlag_launchInstances (answers : ℕ → Option StartedServer) (k : FlagKnown) :
    ObeysFlag (launchInstances cfg answers) k := by
  refine .step trivial (fun _ _ ↦ trivial) fun (waiting₀ : List WaitingRequest) _ ↦ ?_
  split
  · refine .step trivial (fun _ _ ↦ trivial) fun (starting₀ : List VmRef) _ ↦ ?_
    split
    · refine .step ⟨rfl, nofun⟩ (fun _ _ ↦ trivial) fun _ _ ↦ ?_
      refine .step trivial (fun _ _ ↦ trivial) fun starting _ ↦ ?_
      refine .step trivial (fun _ _ ↦ trivial) fun waiting _ ↦ ?_
      refine Obeys.bind (Φ := fun _ (k : FlagKnown) ↦ k.raised = true) ?_ fun _ k _ ↦
        .step trivial (fun _ _ ↦ trivial) fun _ _ ↦ trivial
      refine obeys_forEach (I := fun _ _ (k : FlagKnown) ↦ k.raised = true) ?_ rfl
      intro done entry rest loop k _ hraised
      exact obeys_launchVisit hraised
    · trivial
  · trivial

/-- **The end of `update_provision_status`** resets the flag after it has seen that no VM is being
started. -/
theorem obeysFlag_finishProvisioning (launch : ℕ → Option StartedServer) (k : FlagKnown) :
    ObeysFlag (finishProvisioning cfg launch) k := by
  refine .step trivial (fun _ _ ↦ trivial) fun (starting : List VmRef) _ ↦ ?_
  split
  · rename_i hlength
    refine .step trivial (fun _ _ ↦ trivial) fun (waiting : List WaitingRequest) _ ↦ ?_
    split
    · have hnone : starting.isEmpty = true := List.isEmpty_iff.2 (List.length_eq_zero_iff.1 hlength)
      exact .step ⟨rfl, fun _ ↦ hnone⟩ (fun _ _ ↦ trivial) fun _ _ ↦ trivial
    · exact obeysFlag_launchInstances launch _
  · exact obeysFlag_launchInstances launch _

theorem flagFree_giveUp (call : DestroyCall) (v : VmRef) (record : Option WorkerNode) :
    FlagFree .cloudPoller (giveUp call v record) := by
  refine .step (fun _ ↦ trivial) fun (vm : VM) ↦ Within.bind (Φ := fun _ ↦ True) ?_ fun _ _ ↦ ?_
  · rw [askAgain.eq_def]
    split
    · exact flagFree_step fun _ ↦ trivial
    · trivial
  · exact (flagFree_vmDestroy v record call).bind fun _ _ ↦ flagFree_step fun _ ↦ trivial

theorem flagFree_dumpNodes {c : Prop} [Decidable c] :
    FlagFree t (Program.when c Proc.dumpNodes) :=
  flagFree_of_within (scanning_dumpNodes)

theorem obeysFlag_updateProvisionStatus (answers : UpdateAnswers) (k : FlagKnown) :
    ObeysFlag (updateProvisionStatus cfg answers) k := by
  refine obeysFlag_bind (flagFree_step fun _ ↦ trivial) fun starting _ ↦ ?_
  refine obeysFlag_bind (within_forEach_of_forall (fun i v _ scratch ↦ flagFree_of_within
    (scanning_provisionVisit trivial _ scratch)) _) fun scratch _ ↦ ?_
  refine obeysFlag_bind (flagFree_step fun _ ↦ trivial) fun _ _ ↦ ?_
  refine obeysFlag_bind (within_forEach_of_forall (fun i vr _ _ ↦ flagFree_giveUp _ _ _) ())
    fun _ _ ↦ ?_
  refine obeysFlag_bind (flagFree_step fun _ ↦ trivial) fun _ _ ↦ ?_
  exact obeysFlag_bind flagFree_dumpNodes fun _ k ↦ obeysFlag_finishProvisioning answers.launch k

theorem obeysFlag_checkCleanup (answers : CleanupCalls) (k : FlagKnown) :
    ObeysFlag (checkCleanup cfg answers) k := by
  refine .step trivial (fun _ _ ↦ trivial) fun (deleting₀ : List VmRef) _ ↦ ?_
  split
  · trivial
  · refine obeysFlag_bind (flagFree_step fun _ ↦ trivial) fun deleting _ ↦ ?_
    refine obeysFlag_bind (within_forEach_of_forall (fun i v _ scratch ↦ flagFree_of_within
      (scanning_cleanupVisit _ trivial (fun _ ↦ trivial) scratch)) _)
        fun scratch _ ↦ ?_
    refine obeysFlag_bind (flagFree_step fun _ ↦ trivial) fun _ _ ↦ ?_
    refine obeysFlag_bind (flagFree_step fun _ ↦ trivial) fun _ _ ↦ ?_
    refine obeysFlag_bind flagFree_dumpNodes fun _ _ ↦ ?_
    refine .step trivial (fun _ _ ↦ trivial) fun (waiting : List WaitingRequest) _ ↦ ?_
    split
    · refine .step trivial (fun _ _ ↦ trivial) fun (provisioning : Bool) _ ↦ ?_
      split
      · exact obeysFlag_launchInstances answers.launch _
      · trivial
    · trivial

/-- **A round of either poller.** -/
theorem obeys_round (job : List JobAnswers) (cloud : List CloudAnswers) (t : Thread) :
    ∀ round ∈ rounds job cloud t, (round.program cfg).Obeys (flagDiscipline t)
      (fun _ _ ↦ True) (fun _ _ ↦ True) .nothing := by
  intro round hround
  cases t with
  | infoServer => exact absurd hround List.not_mem_nil
  | jobPoller =>
    obtain ⟨answers, -, rfl⟩ := List.mem_map.1 hround
    exact obeys_collectClusterInformation answers _
  | cloudPoller =>
    obtain ⟨answers, -, rfl⟩ := List.mem_map.1 hround
    refine .step trivial (fun _ _ ↦ trivial) fun (provisioning : Bool) _ ↦ ?_
    refine Obeys.bind (Φ := fun _ _ ↦ True) (obeys_when (fun _ ↦ ?_) fun _ ↦ trivial) fun _ k _ ↦ ?_
    · exact obeysFlag_updateProvisionStatus answers.update _
    · exact obeysFlag_checkCleanup answers.cleanup k

end Rounds

/-! ### Runs -/

/-- The pool of the two pollers. -/
def pollers (cfg : Config) (job : List JobAnswers) (cloud : List CloudAnswers) (s : State) :
    Pool Thread Round Act Act.Reply PyError State :=
  Pool.start (Round.program cfg) (rounds job cloud) s

/-- **The flag covers the starting VMs.** In every interleaving of the two pollers after start-up
whose steps keep the flag, it is set whenever a VM is being started. -/
theorem flagCovers_of_run (cfg : Config) (crs : CloudResources) (answers : StartUpAnswers)
    (job : List JobAnswers) (cloud : List CloudAnswers) (schedule : List Thread) (s : State)
    (hstart : (loadExistingWorkerNodes cfg answers).exec cfg (State.initial crs) = .ok () s)
    (hkeeps : ∀ before t after, schedule = before ++ t :: after →
      ((pollers cfg job cloud s).run (exec cfg) before).Meets KeepsFlag t) :
    ∀ before after, schedule = before ++ after →
      FlagCovers ((pollers cfg job cloud s).run (exec cfg) before).shared := by
  have hstarted : StartedUp crs s := startedUp_of_ok hstart
  have hfine : (pollers cfg job cloud s).Fine flagDiscipline FlagCovers FlagKnows .nothing
      (fun _ _ ↦ True) fun _ _ _ ↦ True :=
    Pool.fine_start hstarted.provisioning (fun t ↦ (flag_rules cfg).start t s hstarted.provisioning)
      (obeys_round job cloud)
  intro before after hschedule
  exact ((flag_rules cfg).fine_of_run hfine schedule hkeeps before after hschedule).shared

/-! ### A flag that is lost -/

/-- A round of the JobPoller without idle jobs. The first node is drained, the other one free. -/
def drainedRound : JobAnswers where
  pbsServerUp := true
  totalNumberOfIdleJobs := 0
  idleJobs := []
  runningJobs := []
  priorities := (true, [])
  wnQuery := (true, twoNodes)
  worker := fun i ↦ ⟨some (if i = 0 then "drained" else "free"), ⟨.deleted, 0⟩⟩
  draws := ⟨fun _ ↦ 0, fun _ _ ↦ 0⟩

/-- A round of the CloudPoller in which the starting VMs become ready, those to be deleted are gone,
and the cloud starts what is asked for. -/
def readyRound : CloudAnswers where
  update := upPoll
  cleanup := ⟨fun _ ↦ ⟨none, .notLocated, 0, ⟨.failed, 0⟩⟩, fun _ ↦ some ⟨"9", "z", 4, 0⟩⟩

/-- A worker becomes idle after five seconds. -/
def idleSoon : Config :=
  { oneLocation with maxIdleTime := 5 }

/-- The cloud lists a worker that Torque does not know yet, and starts the static one. -/
def oneReturning : StartUpAnswers :=
  { oneWorker with
    persistentNodes := ["wn1"]
    wnQuery := (true, [])
    launch := fun _ ↦ some ⟨"2", "a", 4, 0⟩ }

/-- The state after the start-up with one worker that returns. -/
def oneReturningLoaded : State :=
  stateAfter ((loadExistingWorkerNodes idleSoon oneReturning).exec idleSoon)
    (State.initial oneStatic)

/-- The CloudPoller makes both workers ready in two rounds, one as a static and one as a dynamic
one. The JobPoller gives up the drained static worker in one round and shuts down the idle dynamic
one in the next, up to the reset of the flag. Now the CloudPoller finds the static worker gone and
starts another one. -/
def lateReset : List Thread :=
  List.replicate 62 .cloudPoller ++ List.replicate 66 .jobPoller ++
    List.replicate 22 .cloudPoller ++ [.jobPoller]

/-- The same rounds, with the reset before the CloudPoller goes on. -/
def timelyReset : List Thread :=
  List.replicate 62 .cloudPoller ++ List.replicate 67 .jobPoller ++ List.replicate 22 .cloudPoller

/-- The flag is reset first and set by the launch then, and it covers the new VM. -/
theorem flagCovers_of_run_timelyReset :
    ((pollers idleSoon [drainedRound, drainedRound] [readyRound, readyRound, readyRound]
      oneReturningLoaded).run (exec idleSoon) timelyReset).shared.provisioning = true := by
  refine flagCovers_of_run idleSoon oneStatic oneReturning [drainedRound, drainedRound]
    [readyRound, readyRound, readyRound] timelyReset oneReturningLoaded rfl
    (Pool.meets_of_turns ?_) timelyReset [] (List.append_nil _).symm ?_
  · decide +kernel
  · decide +kernel

/-- After the reset the new VM is being started without the flag. -/
theorem flag_lost : ¬∀ (cfg : Config) (crs : CloudResources) (answers : StartUpAnswers)
    (job : List JobAnswers) (cloud : List CloudAnswers) (schedule : List Thread) (s : State),
    (loadExistingWorkerNodes cfg answers).exec cfg (State.initial crs) = .ok () s →
      FlagCovers ((pollers cfg job cloud s).run (exec cfg) schedule).shared := by
  intro h
  have hcovers := h idleSoon oneStatic oneReturning [drainedRound, drainedRound]
    [readyRound, readyRound, readyRound] lateReset oneReturningLoaded rfl
  have hlost : ¬FlagCovers ((pollers idleSoon [drainedRound, drainedRound]
      [readyRound, readyRound, readyRound] oneReturningLoaded).run (exec idleSoon)
        lateReset).shared := by
    rw [FlagCovers]
    decide +kernel
  exact hlost hcovers

end DynamicTorque
