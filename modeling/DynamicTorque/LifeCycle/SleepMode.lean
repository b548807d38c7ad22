import DynamicTorque.LifeCycle.BusyWorkers

/-!
# Sleep mode

The JobPoller tests the sleep mode before it looks for something to launch. The CloudPoller does
not: `update_provision_status` and `check_cleanup` launch whatever waits, asleep or not. `Rests`
says when a step of a poller has nothing to launch or no room to do so, and in a run all of whose
steps rest no VM is started while the resource center sleeps.
-/

open Python Atomic Program

namespace DynamicTorque

/-! ### The steps of the pollers -/

/-- The steps of the pollers. A round of the CloudPoller is two of them. -/
inductive PollerStep
  | collectClusterInformation (answers : JobAnswers)
  | updateProvisionStatus (answers : UpdateAnswers)
  | checkCleanup (answers : CleanupCalls)

/-- The program of a step. The CloudPoller polls the starting VMs only while the flag is set. -/
def PollerStep.program (cfg : Config) : PollerStep → Proc Unit
  | .collectClusterInformation answers => DynamicTorque.collectClusterInformation cfg answers
  | .updateProvisionStatus answers => do
    let provisioning ← Proc.provisioning
    Program.when provisioning (DynamicTorque.updateProvisionStatus cfg answers)
  | .checkCleanup answers => DynamicTorque.checkCleanup cfg answers

/-- A round of the CloudPoller is its two steps. -/
theorem cloudPoll_eq (cfg : Config) (answers : CloudAnswers) :
    cloudPoll cfg answers = (do
      (PollerStep.updateProvisionStatus answers.update).program cfg
      (PollerStep.checkCleanup answers.cleanup).program cfg) := rfl

/-- The state after a step, whether it returned or raised. -/
def PollerStep.after (cfg : Config) (step : PollerStep) (s : State) : State :=
  stateAfter ((step.program cfg).exec cfg) s

/-- The state after steps one after another. -/
def runPollers (cfg : Config) (steps : List PollerStep) (s : State) : State :=
  steps.foldl (fun s step ↦ step.after cfg s) s

/-- Not a start of a VM. -/
def Event.NotStart : Event → Prop
  | .vmStart _ _ _ => False
  | _ => True

/-- The step has nothing to launch, or no room in the batch to launch it. -/
def Rests (cfg : Config) (s : State) : PollerStep → Prop
  | .collectClusterInformation _ => True
  | .updateProvisionStatus answers => s.provisioning = true →
    (s.waiting = [] ∧ s.AsksNothing cfg answers) ∨
      cfg.vmCreationBatchNumber + (s.provisionScratch cfg answers).readyToUse.length +
        (s.provisionScratch cfg answers).toDelete.length ≤ s.starting.length
  | .checkCleanup answers =>
    s.deleting = [] ∨ s.provisioning = true ∨ cfg.vmCreationBatchNumber ≤ s.starting.length ∨
      (s.waiting = [] ∧ ∀ v, FoundGone answers s v →
        ¬(AsksForAnother cfg (s.vms v) ∧ (s.vms v).Replaceable))

/-- What holds of a step that starts no VM. -/
structure Sleeps (s s' : State) : Prop where
  wellFormed : WellFormed s → WellFormed s'
  sleepMode : s'.sleepMode = s.sleepMode
  trace : Emits Event.NotStart s s'

section Sleep

variable {cfg : Config} {s s₁ s' : State}

theorem Sleeps.refl (s : State) : Sleeps s s := ⟨id, rfl, .refl s⟩

theorem Sleeps.trans (h : Sleeps s s₁) (h' : Sleeps s₁ s') : Sleeps s s' :=
  ⟨h'.wellFormed ∘ h.wellFormed, h'.sleepMode.trans h.sleepMode, h.trace.trans h'.trace⟩

theorem Event.Allowed.notStart {destroys : Destroys} {e : Event} (h : e.Allowed destroys) :
    e.NotStart := by
  cases e with
  | vmStart flavor zone resource => exact h.elim
  | _ => trivial

theorem Sleeps.of_moves {lost : VmRef → Prop} {destroys : Destroys} (h : Moves lost s s')
    (hsleep : s'.sleepMode = s.sleepMode) (htrace : Emits (Event.Allowed destroys) s s') :
    Sleeps s s' :=
  ⟨h.wellFormed, hsleep, htrace.mono fun _ he ↦ he.notStart⟩

theorem Sleeps.of_scanned {scope : Scope} (h : Scanned scope s s') : Sleeps s s' := by
  have hmoves : Moves (fun _ ↦ False) s s' := .of_scanned h
  exact .of_moves hmoves h.sleepMode h.trace

/-- A change of the attributes that no list and no trace depends on. -/
theorem Sleeps.of_eq (he : s'.existing = s.existing) (hs : s'.starting = s.starting)
    (hd : s'.deleting = s.deleting) (hnext : s.nextVm ≤ s'.nextVm)
    (hsleep : s'.sleepMode = s.sleepMode) (htrace : s'.trace = s.trace) : Sleeps s s' := by
  have hmoves : Moves (fun _ ↦ False) s s' := .of_eq he hs hd hnext
  exact ⟨hmoves.wellFormed, hsleep, .of_eq htrace⟩

/-- A program that starts no VM. -/
def SleepsThrough (cfg : Config) (p : Proc Unit) (s : State) : Prop :=
  Ends (p.exec cfg) s (fun _ ↦ Sleeps s) fun _ ↦ Sleeps s

theorem SleepsThrough.after {p : Proc Unit} (h : Sleeps s s₁) (h' : SleepsThrough cfg p s₁) :
    Ends (p.exec cfg) s₁ (fun _ ↦ Sleeps s) fun _ ↦ Sleeps s :=
  Ends.mono h' (fun _ _ h' ↦ h.trans h') fun _ _ h' ↦ h.trans h'

/-! ### The JobPoller -/

/-- What the JobPoller does before it tests the sleep mode. -/
theorem sleepsThrough_bind {α : Type} {p : Proc α} {f : α → Proc Unit}
    (h : p.Within (Act.Scans (.looking fun _ ↦ False)) (fun _ ↦ True) fun _ ↦ True)
    (hf : ∀ a s₁, s₁.sleepMode = s.sleepMode → SleepsThrough cfg (f a) s₁) :
    SleepsThrough cfg (p >>= f) s := by
  rw [SleepsThrough, Proc.exec, run_bind, ends_bind]
  refine (ends_run_of_within (keeps_scanned cfg _ s fun _ ↦ True) h (.refl s)).mono ?_ ?_
  · exact fun a s₁ h₁ ↦ SleepsThrough.after (.of_scanned h₁.2) (hf a s₁ h₁.2.sleepMode)
  · exact fun _ s₁ h₁ ↦ .of_scanned h₁.2

theorem within_prioritiseJobs (priorities : Bool × List JobPriority) :
    (prioritiseJobs priorities).Within (Act.Scans (.looking fun _ ↦ False)) (fun _ ↦ True)
      fun _ ↦ True := by
  have hlift : ∀ {α : Type} (x : Except PyError α), (Program.lift x : Proc α).Within
      (Act.Scans (.looking fun _ ↦ False)) (fun _ ↦ True) fun _ ↦ True := fun x ↦
    within_lift (fun _ _ ↦ trivial) fun _ _ ↦ trivial
  refine .step trivial fun _ ↦ ?_
  split
  · refine Within.bind (within_when fun _ ↦ ?_) fun _ (_ : True) ↦ ?_
    · exact .step trivial fun c ↦ .step trivial fun _ ↦ hlift _
    · exact .step trivial fun c ↦ Within.bind (hlift _) fun _ _ ↦ .step trivial fun _ ↦ trivial
  · trivial

/-- **The JobPoller** launches nothing while the resource center sleeps. -/
theorem sleepsThrough_collectClusterInformation (answers : JobAnswers)
    (hsleep : s.sleepMode = true) :
    SleepsThrough cfg (collectClusterInformation cfg answers) s := by
  have hcluster : ∀ f : Cluster → Cluster, (Proc.setCluster f).Within
      (Act.Scans (.looking fun _ ↦ False)) (fun _ ↦ True) fun _ ↦ True :=
    fun f ↦ ⟨trivial, fun _ ↦ trivial⟩
  have hread : Proc.cluster.Within (Act.Scans (.looking fun _ ↦ False)) (fun _ ↦ True)
      fun _ ↦ True := ⟨trivial, fun _ ↦ trivial⟩
  rw [collectClusterInformation]
  refine sleepsThrough_bind (hcluster _) fun _ s₁ h₁ ↦ sleepsThrough_bind hread fun c s₂ h₂ ↦ ?_
  split
  · refine sleepsThrough_bind (within_prioritiseJobs _) fun _ s₃ h₃ ↦
      sleepsThrough_bind (hcluster _) fun _ s₄ h₄ ↦ sleepsThrough_bind hread fun c s₅ h₅ ↦ ?_
    split
    · refine sleepsThrough_bind (hcluster _) fun _ s₆ h₆ ↦ ?_
      have hsleep₆ : s₆.sleepMode = true := by rw [h₆, h₅, h₄, h₃, h₂, h₁, hsleep]
      rw [SleepsThrough, ends_sleepMode, ends_cluster, hsleep₆]
      exact Sleeps.refl s₆
    · exact Sleeps.refl s₅
  · exact Sleeps.refl s₂

/-! ### The CloudPoller -/

/-- `launch_instances` starts nothing where nothing waits or the batch is full. -/
theorem sleepsThrough_launchInstances {answers : ℕ → Option StartedServer}
    (h : s.waiting = [] ∨ cfg.vmCreationBatchNumber ≤ s.starting.length) :
    SleepsThrough cfg (launchInstances cfg answers) s := by
  have hnot : s.waiting ≠ [] → ¬(s.starting.length : ℤ) < cfg.vmCreationBatchNumber :=
    fun hwaiting ↦ not_lt.2 (h.resolve_left hwaiting)
  exact ends_launchInstances (.refl s)
    (fun _ _ hwaiting hroom _ _ ↦ absurd hroom (hnot hwaiting))
    fun _ _ _ _ hwaiting hroom _ ↦ absurd hroom (hnot hwaiting)

/-- Counting the free nodes and dumping the nodes starts nothing. -/
theorem sleepsThrough_updateAvailableCores {c : Prop} [Decidable c] {p : Proc Unit}
    (h : ∀ s₁, s₁.waiting = s.waiting → s₁.starting = s.starting →
      s₁.provisioning = s.provisioning → SleepsThrough cfg p s₁) :
    SleepsThrough cfg (do
      Proc.locked .updateAvailableCores
      Program.when c Proc.dumpNodes
      p) s := by
  have hcores : Sleeps s s.updateAvailableCores := .of_eq rfl rfl rfl le_rfl rfl rfl
  have hdump : Scanning (.looking fun _ ↦ False) (Program.when c Proc.dumpNodes) fun _ ↦ True :=
    scanning_dumpNodes
  rw [SleepsThrough, ends_locked]
  refine ends_scanning_bind hdump (fun _ s₁ _ h₁ ↦ ?_) fun _ s₁ _ h₁ ↦ hcores.trans (.of_scanned h₁)
  exact SleepsThrough.after (hcores.trans (.of_scanned h₁))
    (h s₁ h₁.waiting h₁.starting h₁.provisioning)

theorem sleepsThrough_finishProvisioning {launch : ℕ → Option StartedServer}
    (h : s.waiting = [] ∨ cfg.vmCreationBatchNumber ≤ s.starting.length) :
    SleepsThrough cfg (finishProvisioning cfg launch) s := by
  rw [SleepsThrough, finishProvisioning, ends_list]
  split
  · rw [ends_waiting]
    split
    · exact ends_block.2 (Sleeps.of_eq rfl rfl rfl le_rfl rfl rfl)
    · exact sleepsThrough_launchInstances h
  · exact sleepsThrough_launchInstances h

/-- **The CloudPoller's first step.** -/
theorem sleepsThrough_updateProvisionStatus {answers : UpdateAnswers} (hwell : WellFormed s)
    (h : (s.waiting = [] ∧ s.AsksNothing cfg answers) ∨
      cfg.vmCreationBatchNumber + (s.provisionScratch cfg answers).readyToUse.length +
        (s.provisionScratch cfg answers).toDelete.length ≤ s.starting.length) :
    SleepsThrough cfg (updateProvisionStatus cfg answers) s := by
  have hready : ∀ {s₁ s₂ done}, Provisioned s s₁ → Readied cfg done s₁ s₂ → Sleeps s s₂ := by
    intro s₁ s₂ done h₁ h₂
    have hmoves : Moves (fun _ ↦ False) s₁ s₂ := h₂.moves
    exact (Sleeps.of_scanned h₁).trans ⟨hmoves.wellFormed, h₂.sleepMode, .of_eq h₂.trace⟩
  have hgiven : ∀ {s₂ s₃ done}, GivenUp Scope.any.destroys done s₂ s₃ → Sleeps s₂ s₃ := by
    intro s₂ s₃ done h₃
    have hmoves : Moves (fun _ ↦ False) s₂ s₃ := h₃.moves
    exact .of_moves hmoves h₃.sleepMode h₃.trace
  refine ends_updateProvisionStatus Scope.any.destroys hwell.partition.starting
    (fun _ _ _ _ _ _ ↦ trivial) (fun _ s₁ _ h₁ ↦ .of_scanned h₁) ?_ ?_ ?_
  · intro e s₁ s₂ done v _ h₁ _ h₂ hmem _
    have hdrop : Moves (fun _ ↦ True) s₂ { s₂ with starting := s₂.starting.erase v } :=
      moves_dropStarting hmem trivial
    exact (hready h₁ h₂).trans ⟨hdrop.wellFormed, rfl, .of_eq rfl⟩
  · exact fun _ s₁ s₂ s₃ done _ h₁ h₂ _ h₃ ↦ (hready h₁ h₂).trans (hgiven h₃)
  · intro s₁ s₂ s₃ h₁ h₂ h₃ _ hquiet
    -- the VMs that leave the starting list are counted, to see that the batch stays full
    have hlength : (s.provisionScratch cfg answers).readyToUse.length +
        ((s.provisionScratch cfg answers).toDelete.length + s₃.starting.length) =
          s.starting.length := by
      have hcount₂ := (append_diff_perm h₂.subperm).length_eq
      have hcount₃ := (append_diff_perm h₃.subperm).length_eq
      rw [← h₂.starting, List.length_append, h₁.starting] at hcount₂
      rw [← h₃.starting, List.length_append, List.length_map] at hcount₃
      omega
    have hrest : s₃.waiting = [] ∨ cfg.vmCreationBatchNumber ≤ s₃.starting.length := by
      rcases h with ⟨hwaiting, hnothing⟩ | hfull
      · exact .inl ((hquiet hnothing).trans hwaiting)
      · exact .inr (by omega)
    refine SleepsThrough.after ((hready h₁ h₂).trans (hgiven h₃))
      (sleepsThrough_updateAvailableCores fun s₄ hwaiting hstarting _ ↦ ?_)
    exact sleepsThrough_finishProvisioning (by rwa [hwaiting, hstarting])

/-- **The CloudPoller's second step.** -/
theorem sleepsThrough_checkCleanup {answers : CleanupCalls} (hwell : WellFormed s)
    (h : Rests cfg s (.checkCleanup answers)) :
    SleepsThrough cfg (checkCleanup cfg answers) s := by
  have hdropped : ∀ {s₁ s₂ done}, Scanned .idle s s₁ → Dropped cfg done s₁ s₂ → Sleeps s s₂ := by
    intro s₁ s₂ done h₁ h₂
    have hmoves : Moves (fun _ ↦ True) s₁ s₂ := moves_dropped h₂ fun _ _ ↦ trivial
    exact (Sleeps.of_scanned h₁).trans (.of_moves hmoves h₂.sleepMode h₂.trace)
  refine ends_checkCleanup (.refl s) (fun _ s₁ _ h₁ ↦ .of_scanned h₁) ?_ ?_
  · exact fun _ s₁ s₂ done scratch _ h₁ _ h₂ ↦ hdropped h₁.scanned h₂
  · intro s₁ s₂ s₃ scratch hne h₁ h₂ h₃
    have hresumed : Moves (fun _ ↦ False) s₂ s₃ := moves_resumed h₃
    refine SleepsThrough.after ((hdropped h₁.scanned h₂).trans
      (.of_moves hresumed h₃.sleepMode h₃.trace))
      (sleepsThrough_updateAvailableCores fun s₄ hwaiting hstarting hprovisioning ↦ ?_)
    rw [SleepsThrough, launchIfWaiting, ends_waiting]
    split
    · rw [ends_provisioning]
      split
      · rename_i hflag
        refine sleepsThrough_launchInstances ?_
        rw [hwaiting, hstarting, h₃.waiting, h₃.starting, h₂.starting, h₁.scanned.starting]
        rcases h with hnone | hset | hfull | ⟨hempty, hquiet⟩
        · exact absurd hnone hne
        · rw [hprovisioning, h₃.provisioning, h₂.provisioning, h₁.scanned.provisioning] at hflag
          exact absurd hset hflag
        · exact .inr hfull
        · refine .inl ((h₂.quiet fun v hv ↦ ?_).trans (h₁.scanned.waiting.trans hempty))
          obtain ⟨hfound, hsame⟩ := h₁.gone hwell.partition.deleting v hv
          rw [hsame]
          exact hquiet v hfound
      · exact Sleeps.refl s₄
    · exact Sleeps.refl s₄

/-- **One step.** A step that rests starts no VM. -/
theorem sleeps_after (step : PollerStep) (hwell : WellFormed s) (hsleep : s.sleepMode = true)
    (hrests : Rests cfg s step) : Sleeps s (step.after cfg s) := by
  refine stateAfter_of_ends ?_
  cases step with
  | collectClusterInformation answers =>
    exact sleepsThrough_collectClusterInformation answers hsleep
  | updateProvisionStatus answers =>
    rw [PollerStep.program, ends_provisioning, Program.when]
    split
    · rename_i hflag
      exact sleepsThrough_updateProvisionStatus hwell (hrests hflag)
    · exact Sleeps.refl s
  | checkCleanup answers => exact sleepsThrough_checkCleanup hwell hrests

end Sleep

/-- **Sleep mode starts no VM while the pollers rest.** In a run of the pollers from a state in
which the resource center sleeps, all of whose steps rest, it sleeps throughout and no VM is
started. -/
theorem no_start_of_rests (cfg : Config) (steps : List PollerStep) (s : State)
    (hwell : WellFormed s) (hsleep : s.sleepMode = true)
    (hrests : ∀ before step after, steps = before ++ step :: after →
      Rests cfg (runPollers cfg before s) step) :
    ∀ before after, steps = before ++ after →
      (runPollers cfg before s).sleepMode = true ∧
        ∀ e ∈ s.since (runPollers cfg before s), e.NotStart := by
  suffices hrun : ∀ before after, steps = before ++ after →
      Sleeps s (runPollers cfg before s) from fun before after hsteps ↦
    ⟨(hrun before after hsteps).sleepMode.trans hsleep, (hrun before after hsteps).trace.events⟩
  intro before
  induction before using List.reverseRecOn with
  | nil => exact fun _ _ ↦ .refl s
  | append_singleton before step ih =>
    intro after hsteps
    have hsplit : steps = before ++ step :: after := by simpa using hsteps
    have hbefore : Sleeps s (runPollers cfg before s) := ih (step :: after) hsplit
    have hstep : runPollers cfg (before ++ [step]) s =
        step.after cfg (runPollers cfg before s) := by
      simp [runPollers]
    rw [hstep]
    exact hbefore.trans (sleeps_after step (hbefore.wellFormed hwell)
      (hbefore.sleepMode.trans hsleep) (hrests before step after hsplit))

/-- The state in which the resource center sleeps. -/
def State.asleep (s : State) : State :=
  { s with sleepMode := true }

theorem WellFormed.asleep {s : State} (h : WellFormed s) : WellFormed s.asleep := by
  have hmoves : Moves (fun _ ↦ False) s s.asleep := .of_eq rfl rfl rfl le_rfl
  exact hmoves.wellFormed h

/-- Two workers that Torque does not know, of which the persistent file knows the first one. -/
def twoListed : StartUpAnswers :=
  { oneWorker with
    vmList := fun _ ↦ [listedWorker, { listedWorker with id := "2", name := "wn2" }]
    persistentNodes := ["wn1"]
    wnQuery := (true, []) }

/-- The state after the start-up: the first worker starts again, the second one is destroyed. -/
def twoListedLoaded : State :=
  stateAfter ((loadExistingWorkerNodes {} twoListed).exec {})
    (State.initial JobScheduler.threeNodes)

/-- A poll at which the server is still being built. The cloud would start others. -/
def bootingPoll : UpdateAnswers where
  visit := fun _ ↦
    { report := some ⟨"BUILD", 0, "building", some "spawning", none, "image", none, none, false⟩
      wnInTorque := .notLocated, now := 0, addNode := fun _ ↦ false
      checkNode := fun _ ↦ none, wnQuery := (true, []) }
  destroy := fun _ ↦ ⟨.notFound, 0⟩
  launch := fun _ ↦ some ⟨"3", "a", 4, 0⟩

/-- A clean-up that finds the second worker gone. -/
def goneCleanup : CleanupCalls :=
  ⟨fun _ ↦ ⟨none, .notLocated, 0, ⟨.failed, 0⟩⟩, fun _ ↦ some ⟨"3", "a", 4, 0⟩⟩

/-- A round of the JobPoller in which nothing runs and nothing waits in the queue. -/
def emptyQueue : JobAnswers where
  pbsServerUp := true
  totalNumberOfIdleJobs := 0
  idleJobs := []
  runningJobs := []
  priorities := (true, [])
  wnQuery := (true, [])
  worker := fun _ ↦ ⟨some "free", ⟨.failed, 0⟩⟩
  draws := ⟨fun _ ↦ 0, fun _ _ ↦ 0⟩

/-- A poll of the starting VM, a clean-up of the deleted one, and a round of the JobPoller. -/
def round : List PollerStep :=
  [.updateProvisionStatus bootingPoll, .checkCleanup goneCleanup,
    .collectClusterInformation emptyQueue]

/-- In the round the first worker is polled and keeps starting, and the second one is dropped. -/
theorem no_start_of_rests_twoListed :
    (runPollers {} round twoListedLoaded.asleep).starting = [0] ∧
      (runPollers {} round twoListedLoaded.asleep).deleting = [] ∧
      (runPollers {} round twoListedLoaded.asleep).sleepMode = true ∧
      ∀ e ∈ twoListedLoaded.asleep.since (runPollers {} round twoListedLoaded.asleep),
        e.NotStart := by
  refine ⟨by decide, by decide, ?_⟩
  have hloaded : StartedUp JobScheduler.threeNodes twoListedLoaded :=
    startedUp_of_ok (show (loadExistingWorkerNodes {} twoListed).exec {}
      (State.initial JobScheduler.threeNodes) = .ok () twoListedLoaded from rfl)
  refine no_start_of_rests {} round _ hloaded.wellFormed.asleep rfl ?_ round []
    (List.append_nil round).symm
  intro before step after hsteps
  rcases before with _ | ⟨first, _ | ⟨second, _ | ⟨third, before⟩⟩⟩
  · obtain ⟨rfl, -⟩ := List.cons.inj hsteps
    refine fun _ ↦ .inl ⟨by decide, fun i v record hget hgiven ↦ ?_⟩
    have hstarting : twoListedLoaded.asleep.starting = [0] := by decide
    have hmem : v ∈ [0] := hstarting ▸ List.mem_of_getElem? hget
    obtain rfl := List.mem_singleton.1 hmem
    have hstays : (bootingPoll.visit i).outcome {} (twoListedLoaded.asleep.vms 0) = .stays := rfl
    exact nomatch hstays.symm.trans hgiven
  · obtain ⟨rfl, htail⟩ := List.cons.inj hsteps
    obtain ⟨rfl, -⟩ := List.cons.inj htail
    exact .inr (.inl (by decide))
  · obtain ⟨rfl, htail⟩ := List.cons.inj hsteps
    obtain ⟨rfl, hlast⟩ := List.cons.inj htail
    obtain ⟨rfl, -⟩ := List.cons.inj hlast
    trivial
  · simp [round] at hsteps

/-- One location, in the default zone. -/
def oneLocation : Config :=
  { locationProperties := AList.singleton "rack" "noblepark" }

/-- One static worker is asked for at the location. -/
def oneStatic : CloudResources where
  names := ["default"]
  nodup := JobScheduler.threeNodes.nodup
  object := fun name ↦
    { JobScheduler.threeNodes.object name with staticVmsToStart := some [⟨"rack", 1⟩] }

/-- The cloud lists no workers, and refuses to start any. -/
def noWorkers : StartUpAnswers :=
  { oneWorker with vmList := fun _ ↦ [], wnQuery := (true, []) }

/-- The state after the start-up with one static request, which waits. -/
def oneStaticLoaded : State :=
  stateAfter ((loadExistingWorkerNodes oneLocation noWorkers).exec oneLocation)
    (State.initial oneStatic)

/-- A poll at which the cloud starts a server. -/
def startingPoll : UpdateAnswers :=
  { buildingPoll with launch := fun _ ↦ some ⟨"1", "a", 4, 0⟩ }

/-- The request that waits since the start-up is launched although the resource center sleeps. -/
theorem vm_started_while_asleep : ¬∀ (cfg : Config) (crs : CloudResources)
    (answers : StartUpAnswers) (s : State) (steps : List PollerStep),
    (loadExistingWorkerNodes cfg answers).exec cfg (State.initial crs) = .ok () s →
      ∀ e ∈ s.asleep.since (runPollers cfg steps s.asleep), e.NotStart := by
  intro h
  have hevent : Event.vmStart (.id "3") (some "noblepark") "default" ∈
      oneStaticLoaded.asleep.since
        (runPollers oneLocation [.updateProvisionStatus startingPoll] oneStaticLoaded.asleep) := by
    decide
  exact h oneLocation oneStatic noWorkers _ [.updateProvisionStatus startingPoll] rfl _ hevent

end DynamicTorque
