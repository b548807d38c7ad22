import DynamicTorque.LifeCycle.Batches
import DynamicTorque.LifeCycle.Cleanup
import DynamicTorque.Service.Termination

/-!
# What the CloudPoller takes out is there

`launch_instances` reads the waiting list without the lock, starts VMs for it, and takes the entries
out of the list at its end; `check_cleanup` does the same with the deleting list. In between the
other threads have turns. They only append to the two lists (`Divided`), so what the CloudPoller
has read stays a prefix of what is there, and `list.remove` finds every entry.
-/

open Python Atomic Program

namespace DynamicTorque

/-- What the CloudPoller has read of the two lists, as far as it may rely on it. -/
structure Seen where
  waiting : List WaitingRequest
  deleting : List VmRef

namespace Seen

/-- What a task begins with. -/
def nothing : Seen := ⟨[], []⟩

/-- What is known after a step: what it has read, or nothing after a block that may take out. -/
def after (k : Seen) : (o : Act) → Except PyError o.Reply → Seen
  | .waiting, .ok ws => { k with waiting := ws }
  | .list .deleting, .ok vs => { k with deleting := vs }
  | .locked (.addStarting _), _ => k
  | .locked _, _ => nothing
  | _, _ => k

end Seen

/-- The steps of the CloudPoller: it takes out what it has read. -/
def Act.TakesSeen (k : Seen) : Act → Prop
  | .locked (.endLaunch rs) => rs.Subperm k.waiting
  | .locked (.commitCleanup deleted executing) => (deleted ++ executing).Subperm k.deleting
  | o => o.OfCloudPoller

/-- What a step of the CloudPoller may raise. -/
def Act.RaisesSeen : Act → PyError → Prop
  | .locked (.endLaunch _), _ => False
  | .locked (.commitCleanup _ _), e => NotFromRemove e
  | .locked _, _ | .calculate _ _ _, _ => True
  | _, _ => False

/-- The discipline of a thread. -/
def seenDiscipline (i : ThreadId) : Discipline Act Act.Reply PyError Seen where
  allows := fun k o ↦ if i = .poller .cloud then o.TakesSeen k else o.Owned i
  replies := fun _ _ ↦ True
  raises := fun o e ↦ i = .poller .cloud → o.RaisesSeen e
  after := Seen.after

/-- What the CloudPoller has read is at the beginning of what is there. -/
def KnowsSeen (i : ThreadId) (k : Seen) (s : State) : Prop :=
  i = .poller .cloud → k.waiting <+: s.waiting ∧ k.deleting <+: s.deleting

section Rule

variable {cfg : Config} {k : Seen} {s s' : State} {i : ThreadId}

theorem knowsSeen_nothing (i : ThreadId) (s : State) : KnowsSeen i .nothing s :=
  fun _ ↦ ⟨List.nil_prefix, List.nil_prefix⟩

theorem KnowsSeen.same (h : KnowsSeen i k s) (hwaiting : s'.waiting = s.waiting)
    (hdeleting : s'.deleting = s.deleting) : KnowsSeen i k s' := by
  rw [KnowsSeen, hwaiting, hdeleting]
  exact h

/-- The other threads append. -/
theorem KnowsSeen.stable {j : ThreadId} (h : KnowsSeen i k s) (hij : i ≠ j)
    (hdivided : Divided (· = j) s s') : KnowsSeen i k s' := by
  intro hi
  have hcloud : ¬(.poller .cloud : ThreadId) = j := hi ▸ hij
  obtain ⟨hwaiting, hdeleting⟩ := h hi
  exact ⟨hwaiting.trans (hdivided.waiting hcloud).1, hdeleting.trans (hdivided.deleting hcloud)⟩

/-- **A step** of the thread. -/
theorem ends_exec_knowsSeen (h : KnowsSeen i k s) (o : Act) :
    Ends (exec cfg o) s (fun r ↦ KnowsSeen i (k.after o (.ok r)))
      fun e ↦ KnowsSeen i (k.after o (.error e)) := by
  cases o with
  | waiting => exact fun hi ↦ ⟨List.prefix_rfl, (h hi).2⟩
  | list L =>
    cases L with
    | deleting => exact fun hi ↦ ⟨(h hi).1, List.prefix_rfl⟩
    | existing => exact h
    | starting => exact h
  | locked b =>
    cases b with
    | addStarting v => exact h.same rfl rfl
    | _ => exact ends_self.mono (fun _ _ _ ↦ knowsSeen_nothing i _) fun _ _ _ ↦
        knowsSeen_nothing i _
  | calculate draws idleJobs numberOfWn =>
    show Ends (get >>= _) s _ _
    rw [ends_bind, ends_get, ends_bind]
    exact ends_lift (fun r hr ↦ h.same rfl rfl) fun _ _ ↦ h
  | appendWaiting requests =>
    exact fun hi ↦ ⟨(h hi).1.trans (List.prefix_append ..), (h hi).2⟩
  | findVm _ | vm _ => exact h
  | cluster | provisioning | sleepMode | resources => exact h
  | _ => exact h.same rfl rfl

/-- The clean-up finds the VMs. -/
theorem ends_commitCleanup_found {deleted executing : List VmRef}
    (h : (deleted ++ executing).Subperm s.deleting) :
    Ends ((Block.commitCleanup deleted executing).code cfg) s (fun _ _ ↦ True)
      fun e _ ↦ NotFromRemove e := by
  show Ends (Locked.dropDeleted cfg deleted >>= fun _ ↦ Locked.resumeExecuting executing) s _ _
  rw [ends_bind]
  refine (ends_dropDeleted ((List.sublist_append_left _ _).subperm.trans h)).mono
    (fun _ s₁ h₁ ↦ ?_) fun e _ he ↦ he.1
  have hrest : executing.Subperm s₁.deleting := by
    rw [h₁.deleting]
    exact subperm_diff h
  exact Ends.mono (ends_resumeExecuting hrest) (fun _ _ _ ↦ trivial) fun _ _ h ↦ h.elim

/-- What is raised. -/
theorem ends_exec_raisesSeen {o : Act} (h : o.TakesSeen k) (hwaiting : k.waiting <+: s.waiting)
    (hdeleting : k.deleting <+: s.deleting) :
    Ends (exec cfg o) s (fun _ _ ↦ True) fun e _ ↦ o.RaisesSeen e := by
  cases o with
  | locked b =>
    cases b with
    | endLaunch rs =>
      show Ends ((Block.endLaunch rs).code cfg) s _ _
      exact (ends_endLaunch (h.trans hwaiting.sublist.subperm)).mono (fun _ _ _ ↦ trivial)
        fun _ _ h ↦ h
    | commitCleanup deleted executing =>
      exact ends_commitCleanup_found (h.trans hdeleting.sublist.subperm)
    | _ => exact ends_self.mono (fun _ _ _ ↦ trivial) fun _ _ _ ↦ trivial
  | calculate draws idleJobs numberOfWn =>
    exact ends_self.mono (fun _ _ _ ↦ trivial) fun _ _ _ ↦ trivial
  | _ => trivial

theorem Act.TakesSeen.ofCloudPoller {o : Act} (h : o.TakesSeen k) : o.OfCloudPoller := by
  cases o with
  | toggleSleepMode => exact h
  | _ => trivial

theorem allows_of_ne {o : Act} (hi : i ≠ .poller .cloud) :
    (seenDiscipline i).allows k o ↔ o.Owned i := by
  simp [seenDiscipline, hi]

/-- **The rule.** -/
theorem Service.sound_seen (cfg : ServiceConfig) : Service.Sound cfg seenDiscipline
    (fun _ ↦ True) KnowsSeen fun i ↦ Divided (· = i) := by
  refine ⟨fun i k o s _ hk hallows ↦ ?_, fun i j k s s' hij hR hk ↦ hk.stable hij hR⟩
  have howned : o.Owned i := by
    by_cases hi : i = .poller .cloud
    · subst hi
      exact Act.TakesSeen.ofCloudPoller hallows
    · exact (allows_of_ne hi).1 hallows
  have hraises : Ends (exec cfg.toConfig o) s (fun _ _ ↦ True)
      fun e _ ↦ i = .poller .cloud → o.RaisesSeen e := by
    by_cases hi : i = .poller .cloud
    · subst hi
      exact (ends_exec_raisesSeen hallows (hk rfl).1 (hk rfl).2).mono (fun _ _ _ ↦ trivial)
        fun _ _ he _ ↦ he
    · exact ends_self.mono (fun _ _ _ ↦ trivial) fun _ _ _ h ↦ absurd h hi
  refine ((ends_exec_knowsSeen hk o).and ((divided_of_owned howned).and hraises)).mono ?_ ?_
  · exact fun _ _ ⟨hk', hdivided, _⟩ ↦ ⟨⟨trivial, hk'⟩, hdivided, trivial⟩
  · exact fun _ _ ⟨hk', hdivided, he⟩ ↦ ⟨⟨trivial, hk'⟩, hdivided, he⟩

end Rule

/-! ### The tasks -/

section Tasks

variable {α β : Type} {cfg : Config} {k : Seen}

/-- A program that keeps to the discipline of the CloudPoller. -/
abbrev ObeysSeen (p : Proc α) (Φ : α → Seen → Prop) (k : Seen) : Prop :=
  p.Obeys (seenDiscipline (.poller .cloud)) Φ (fun _ _ ↦ True) k

/-- A scan leaves what is known of the deleting list. -/
theorem preserves_seen (k : Seen) : (seenDiscipline (.poller .cloud)).Preserves (Act.Scans .any)
    fun k' ↦ k'.deleting = k.deleting := by
  intro o ho k' h
  cases o with
  | locked b => exact ho.elim
  | list L => exact ho.elim
  | findVm hostname => exact ho.elim
  | newVm vm => exact ho.elim
  | setExisting vms => exact ho.elim
  | calculate draws idleJobs numberOfWn => exact ho.elim
  | toggleSleepMode => exact ho.elim
  | setProvisioning b => exact ho.elim
  | setStatic resource reqs => exact ho.elim
  | setAvailable resource n => exact ho.elim
  | appendWaiting requests => exact ho.elim
  | _ => exact ⟨trivial, fun _ he ↦ he rfl, fun _ ↦ h⟩

theorem obeysSeen_scan_bind {p : Proc α} {f : α → Proc β} {Φ : α → Prop} {Ψ : β → Seen → Prop}
    (h : Scanning .any p Φ) (hf : ∀ a k', Φ a → k'.deleting = k.deleting → ObeysSeen (f a) Ψ k') :
    ObeysSeen (p >>= f) Ψ k :=
  h.obeys_bind (preserves_seen k) rfl hf fun _ _ _ _ ↦ trivial

/-- A step that is always allowed. -/
theorem obeysSeen_step {o : Act} {f : o.Reply → Proc α} {Φ : α → Seen → Prop}
    (hallows : o.TakesSeen k) (hf : ∀ r, ObeysSeen (f r) Φ (k.after o (.ok r))) :
    ObeysSeen (Program.perform o >>= f) Φ k :=
  .step hallows (fun _ _ ↦ trivial) fun r _ ↦ hf r

/-- **`vm_start`** reads neither list. -/
theorem obeysSeen_vmStart (flavor : FlavorRef) (zone : Option String) (resource : String)
    (answer : Option StartedServer) :
    ObeysSeen (vmStart cfg flavor zone resource answer) (fun _ k' ↦ k' = k) k := by
  refine obeysSeen_step trivial fun (crs : CloudResources) ↦ ?_
  refine Obeys.bind (Φ := fun _ k' ↦ k' = k) (obeys_lift (fun _ _ ↦ rfl) fun _ _ ↦ trivial)
    fun res k' hk ↦ ?_
  subst hk
  refine obeysSeen_step trivial fun _ ↦ ?_
  cases answer with
  | none => rfl
  | some server => exact obeysSeen_step trivial fun _ ↦ rfl

/-- An entry of the waiting list: it is marked at most once, where it was read. -/
theorem obeysSeen_launchVisit {answer : Option StartedServer} {entry : WaitingRequest}
    {loop : LaunchLoop} {done waiting : List WaitingRequest} (hk : k.waiting = waiting)
    (hsub : loop.toRemove.Sublist done) :
    ObeysSeen (launchVisit cfg answer entry loop)
      (fun loop k ↦ k.waiting = waiting ∧ loop.toRemove.Sublist (done ++ [entry])) k := by
  have hold : loop.toRemove.Sublist (done ++ [entry]) := hsub.trans (List.sublist_append_left _ _)
  have hnew : (loop.toRemove ++ [entry]).Sublist (done ++ [entry]) := hsub.append_right [entry]
  rw [launchVisit]
  split
  · exact ⟨hk, hold⟩
  · split
    · split
      · exact ⟨hk, hold⟩
      · exact ⟨hk, hnew⟩
    · refine (obeysSeen_vmStart _ _ _ _).bind fun started k' hk' ↦ ?_
      subst hk'
      cases started with
      | none => exact ⟨hk, hold⟩
      | some v => exact obeysSeen_step trivial fun _ ↦ ⟨hk, hnew⟩

/-- **`launch_instances`** removes what it has read. -/
theorem obeysSeen_launchInstances (answers : ℕ → Option StartedServer) :
    ObeysSeen (launchInstances cfg answers) (fun _ _ ↦ True) k := by
  refine obeysSeen_step trivial fun (waiting₀ : List WaitingRequest) ↦ ?_
  split
  · refine obeysSeen_step trivial fun (starting₀ : List VmRef) ↦ ?_
    split
    · refine obeysSeen_step trivial fun _ ↦ obeysSeen_step trivial fun (starting : List VmRef) ↦
        obeysSeen_step trivial fun (waiting : List WaitingRequest) ↦ ?_
      refine Obeys.bind (obeys_forEach (I := fun done (loop : LaunchLoop) (k : Seen) ↦
        k.waiting = waiting ∧ loop.toRemove.Sublist done) (fun done entry rest loop k _ h ↦
          obeysSeen_launchVisit h.1 h.2) ⟨rfl, .slnil⟩) fun loop k h ↦ ?_
      have hsub : loop.toRemove.Subperm k.waiting := h.1 ▸ h.2.subperm
      exact ⟨hsub, fun _ _ ↦ trivial, fun _ _ ↦ trivial⟩
    · trivial
  · trivial

/-- **`check_cleanup`** takes out VMs that it has read, each as often as it has read it. -/
theorem obeysSeen_checkCleanup (answers : CleanupCalls) :
    ObeysSeen (checkCleanup cfg answers) (fun _ _ ↦ True) k := by
  refine obeysSeen_step trivial fun (deleting₀ : List VmRef) ↦ ?_
  split
  · trivial
  refine obeysSeen_step trivial fun (deleting : List VmRef) ↦ ?_
  refine Obeys.bind (obeys_forEach (I := fun done (scratch : CleanupScratch) (k : Seen) ↦
    k.deleting = deleting ∧ (scratch.deleted ++ scratch.executing).Subperm done)
    (fun done v rest scratch k _ h ↦ ?_) ⟨rfl, .refl _⟩) fun scratch k h ↦ ?_
  · refine Within.obeys (scanning_cleanupVisit _ trivial (fun _ ↦ trivial) scratch)
      (preserves_seen k) rfl (fun scratch' k' hadds hk ↦ ?_) fun _ _ _ _ ↦ trivial
    exact ⟨hk.trans h.1, hadds.subperm h.2⟩
  · have hsub : (scratch.deleted ++ scratch.executing).Subperm k.deleting := h.1 ▸ h.2
    refine obeysSeen_step hsub fun _ ↦ obeysSeen_step trivial fun _ ↦
      obeysSeen_scan_bind scanning_dumpNodes fun _ _ _ _ ↦ ?_
    refine obeysSeen_step trivial fun (waiting : List WaitingRequest) ↦ ?_
    split
    · refine obeysSeen_step trivial fun (provisioning : Bool) ↦ ?_
      split
      · exact obeysSeen_launchInstances answers.launch
      · trivial
    · trivial

theorem obeysSeen_updateProvisionStatus (answers : UpdateAnswers) :
    ObeysSeen (updateProvisionStatus cfg answers) (fun _ _ ↦ True) k := by
  refine obeysSeen_step trivial fun (starting : List VmRef) ↦ ?_
  refine Obeys.bind (Φ := fun _ _ ↦ True) (obeys_forEach (I := fun _ _ _ ↦ True)
    (fun done v rest scratch k _ _ ↦ ?_) trivial) fun scratch k _ ↦ ?_
  · exact Within.obeys (scanning_provisionVisit trivial _ scratch) (preserves_seen k) rfl
      (fun _ _ _ _ ↦ trivial) fun _ _ _ _ ↦ trivial
  refine obeysSeen_step trivial fun _ ↦ Obeys.bind (Φ := fun _ _ ↦ True)
    (obeys_forEach (I := fun _ _ _ ↦ True) (fun done vr rest _ k _ _ ↦ ?_) trivial)
    fun _ k _ ↦ ?_
  · refine obeysSeen_step trivial fun (vm : VM) ↦ Obeys.bind (Φ := fun _ _ ↦ True) ?_
      fun _ _ _ ↦ ?_
    · rw [askAgain.eq_def]
      split
      · exact ⟨trivial, fun _ _ ↦ trivial, fun _ _ ↦ trivial⟩
      · trivial
    · exact obeysSeen_scan_bind (scanning_vmDestroy trivial (fun _ ↦ trivial) _)
        fun _ _ _ _ ↦ ⟨trivial, fun _ _ ↦ trivial, fun _ _ ↦ trivial⟩
  refine obeysSeen_step trivial fun _ ↦ obeysSeen_scan_bind scanning_dumpNodes fun _ _ _ _ ↦ ?_
  refine obeysSeen_step trivial fun (starting : List VmRef) ↦ ?_
  split
  · refine obeysSeen_step trivial fun (waiting : List WaitingRequest) ↦ ?_
    split
    · exact ⟨trivial, fun _ _ ↦ trivial, fun _ _ ↦ trivial⟩
    · exact obeysSeen_launchInstances answers.launch
  · exact obeysSeen_launchInstances answers.launch

end Tasks

/-! ### Runs -/

namespace Service

variable {cfg : ServiceConfig} {answers : ServiceAnswers}

/-- **Every task keeps to its discipline.** -/
theorem obeyed_seen (cfg : ServiceConfig) (answers : ServiceAnswers) :
    Obeyed cfg answers seenDiscipline .nothing fun _ _ ↦ True := by
  have hother : ∀ {i : ThreadId} {p : Proc Unit}, i ≠ .poller .cloud → Keeping (Act.Owned i) p →
      p.Obeys (seenDiscipline i) (fun _ _ ↦ True) (fun _ _ ↦ True) .nothing := by
    intro i p hi h
    exact Within.obeys_of_forall h (fun k o ho ↦ (allows_of_ne hi).2 ho.owned) Seen.nothing
  intro c
  cases c with
  | forceoff => exact hother (by simp [Task.thread]) (keeping_forceoff answers.forceoff)
  | poll p n =>
    cases p with
    | job => exact hother (by simp [Task.thread]) (keeping_collectClusterInformation _)
    | cloud =>
      refine obeysSeen_step trivial fun (provisioning : Bool) ↦ Obeys.bind (Φ := fun _ _ ↦ True)
        (obeys_when (fun _ ↦ ?_) fun _ ↦ trivial) fun _ _ _ ↦ obeysSeen_checkCleanup _
      exact obeysSeen_updateProvisionStatus _
  | afterLoop p =>
    cases p with
    | job =>
      have hdump : Keeping Act.OfJobPoller Proc.dumpNodes := keeping_step trivial
      exact hother (by simp [Task.thread]) hdump
    | cloud => trivial
  | request request =>
    have hrequest : Keeping Act.OfRequest (discard (request.program cfg.toConfig)) :=
      (keeping_request request).bind fun _ _ ↦ trivial
    exact hother (by simp [Task.thread]) hrequest

/-- **The CloudPoller takes out only what is there.** Whenever in a run of the service it comes to
the end of a launch, the entries that it takes out of the waiting list are there, and whenever it
comes to the end of a clean-up, so are the VMs that it takes out of the deleting list. -/
theorem removals_succeed (cfg : ServiceConfig) (answers : ServiceAnswers) (st : State)
    (schedule : List Turn) (c : Task) (o : Act) (next : o.Reply → Proc Unit)
    (hdue : (c, .act o next) ∈ current (run cfg answers schedule (initial st)) (.poller .cloud)) :
    let s := (run cfg answers schedule (initial st)).shared
    (∀ rs, o = .locked (.endLaunch rs) → rs.Subperm s.waiting ∧
      Ends (exec cfg.toConfig (.locked (.endLaunch rs))) s
        (fun _ s' ↦ s' = { s with waiting := s.waiting.diff rs }) fun _ _ ↦ False) ∧
    ∀ deleted executing, o = .locked (.commitCleanup deleted executing) →
      (deleted ++ executing).Subperm s.deleting ∧
        Ends (exec cfg.toConfig (.locked (.commitCleanup deleted executing))) s (fun _ _ ↦ True)
          fun e _ ↦ NotFromRemove e := by
  intro s
  have hstart : Disciplined seenDiscipline (fun _ _ ↦ True) (fun _ ↦ True) KnowsSeen
      (initial st) := disciplined_initial trivial
  obtain ⟨hrun, -⟩ := hstart.run (J := fun _ ↦ True) (sound_seen cfg) (obeyed_seen cfg answers)
    (fun i s _ ↦ knowsSeen_nothing i s) (fun i s ↦ .refl _ s) schedule (fun _ _ _ _ _ _ ↦ trivial)
    trivial
  obtain ⟨k, hk, hallows, -⟩ := hrun.performs (sound_seen cfg) hdue
  obtain ⟨hwaiting, hdeleting⟩ := hk rfl
  change o.TakesSeen k at hallows
  refine ⟨fun rs ho ↦ ?_, fun deleted executing ho ↦ ?_⟩
  · subst ho
    have hsub : rs.Subperm s.waiting := hallows.trans hwaiting.sublist.subperm
    refine ⟨hsub, ?_⟩
    show Ends ((Block.endLaunch rs).code cfg.toConfig) s _ _
    exact ends_endLaunch hsub
  · subst ho
    have hsub : (deleted ++ executing).Subperm s.deleting :=
      hallows.trans hdeleting.sublist.subperm
    exact ⟨hsub, ends_commitCleanup_found hsub⟩

/-- Every start succeeds. -/
def starts : ServiceAnswers where
  job := silence.job
  cloud := fun _ ↦
    ⟨⟨(silence.cloud 0).update.visit, (silence.cloud 0).update.destroy,
      fun _ ↦ some ⟨"id", "a", 4, 0⟩⟩, (silence.cloud 0).cleanup⟩
  forceoff := silence.forceoff

/-- The threads are started, and the CloudPoller comes to the end of its first launch. -/
def untilLaunched : List Turn :=
  List.replicate 4 .main ++ List.replicate 24 (.poller .cloud)

/-- Three entries are waiting, and provisioning is on. -/
def launching : State :=
  { threeWaiting with provisioning := true }

theorem removals_succeed_launching :
    let s := (run {} starts untilLaunched (initial launching)).shared
    threeWaiting.waiting.Subperm s.waiting ∧
      Ends (exec {} (.locked (.endLaunch threeWaiting.waiting))) s
        (fun _ s' ↦ s' = { s with waiting := s.waiting.diff threeWaiting.waiting })
        fun _ _ ↦ False :=
  (removals_succeed {} starts launching untilLaunched (.poll .cloud 0)
    (.locked (.endLaunch threeWaiting.waiting)) _ (List.mem_singleton_self _)).1 _ rfl

end Service

end DynamicTorque
