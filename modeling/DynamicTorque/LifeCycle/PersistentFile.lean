import DynamicTorque.LifeCycle.IdleWorkers
import DynamicTorque.LifeCycle.Partition

/-!
# The persistent node file

A restart reads the persistent node file to decide which VMs it adds again and which it destroys.
The file is written by `update_provision_status` and `check_cleanup`, when VMs have become ready,
are gone or are busy again. The other operations write nothing, although VMs stop existing in them.

* `ends_updateProvisionStatus_tracks`, `ends_checkCleanup_tracks`: the two operations that write the
  file leave it with the hostnames of the existing VMs if it held them before.
* `tracks_visits`: the workers are checked without a dump, so the file is right afterwards exactly
  if no visit took a VM out of the existing list whose name no other one has.
* `tracks_after_iff`: the condition for each operation.
-/

open Python Atomic Program

namespace DynamicTorque

/-! ### The file -/

/-- The hostnames in the persistent node file, which held `content` before the events of a trace. -/
def persistentFile (content : List String) (trace : List Event) : List String :=
  trace.foldl (fun file e ↦ match e with
    | .dumpNodes hostnames => hostnames
    | _ => file) content

/-- The hostnames of the existing VMs. -/
def State.hostnames (s : State) : List String :=
  s.existing.map fun v ↦ (s.vms v).hostname

/-- The persistent file holds exactly the hostnames of the existing VMs. -/
def Tracks (content : List String) (s : State) : Prop :=
  ∀ hostname, hostname ∈ persistentFile content s.trace ↔ hostname ∈ s.hostnames

/-- Another entry of the existing list has the hostname of `v`. -/
def NamedTwice (s : State) (v : VmRef) : Prop :=
  ∃ w ∈ s.existing.erase v, (s.vms w).hostname = (s.vms v).hostname

section File

variable {content : List String} {s s' : State} {v : VmRef}

theorem persistentFile_append (trace events : List Event) :
    persistentFile content (trace ++ events) =
      persistentFile (persistentFile content trace) events :=
  List.foldl_append

theorem persistentFile_of_undumped {events : List Event} (h : ∀ e ∈ events, e.Undumped) :
    persistentFile content events = content := by
  induction events with
  | nil => rfl
  | cons e events ih =>
    have hrest := ih fun e' he' ↦ h e' (List.mem_cons_of_mem _ he')
    cases e with
    | dumpNodes hostnames => exact (h _ List.mem_cons_self).elim
    | _ => exact hrest

/-- Without a dump the file stays as it is. -/
theorem Emits.persistentFile (h : Emits Event.Undumped s s') :
    persistentFile content s'.trace = persistentFile content s.trace := by
  rw [h.trace, persistentFile_append, persistentFile_of_undumped h.events]

/-- After a dump the file is right. -/
theorem tracks_emit_dumpNodes (content : List String) (s : State) :
    Tracks content (s.emit (.dumpNodes s.hostnames)) := by
  intro hostname
  show hostname ∈ persistentFile content (s.trace ++ [.dumpNodes s.hostnames]) ↔ _
  rw [persistentFile_append]
  rfl

/-- What the file holds does not change, nor does any hostname. -/
theorem tracks_congr (hfile : persistentFile content s'.trace = persistentFile content s.trace)
    (hnames : s'.hostnames = s.hostnames) : Tracks content s' ↔ Tracks content s := by
  rw [Tracks, Tracks, hfile, hnames]

theorem Released.hostname (h : Released VM.role s s') (w : VmRef) :
    (s'.vms w).hostname = (s.vms w).hostname :=
  (Prod.mk.inj (h.vm w)).1

theorem Released.persistentFile (h : Released VM.role s s') :
    persistentFile content s'.trace = persistentFile content s.trace :=
  (h.trace.mono fun _ he ↦ he.undumped).persistentFile

theorem Released.hostnames (h : Released VM.role s s') :
    s'.hostnames = s'.existing.map fun v ↦ (s.vms v).hostname :=
  List.map_congr_left fun w _ ↦ h.hostname w

/-- Without a dump, the file is right after a VM has stopped existing exactly if another one has its
name. -/
theorem tracks_erase_iff (h : Released VM.role s s') (hmem : v ∈ s.existing)
    (hexisting : s'.existing = s.existing.erase v) (htracks : Tracks content s) :
    Tracks content s' ↔ NamedTwice s v := by
  rw [Tracks, h.persistentFile, h.hostnames, hexisting]
  constructor
  · intro h'
    have hin : (s.vms v).hostname ∈ persistentFile content s.trace :=
      (htracks _).2 (List.mem_map_of_mem hmem)
    exact List.mem_map.1 ((h' _).1 hin)
  · rintro ⟨w, hw, hname⟩ hostname
    rw [htracks hostname]
    constructor
    · intro hin
      obtain ⟨u, hu, rfl⟩ := List.mem_map.1 hin
      by_cases huv : u = v
      · exact List.mem_map.2 ⟨w, hw, huv ▸ hname⟩
      · exact List.mem_map_of_mem ((List.mem_erase_of_ne huv).2 hu)
    · intro hin
      obtain ⟨u, hu, rfl⟩ := List.mem_map.1 hin
      exact List.mem_map_of_mem (List.mem_of_mem_erase hu)

end File

/-! ### Operations of the administrator -/

section Administrator

variable {cfg : Config} {content : List String} {s s' : State}

/-- A call of `kill_vm` that does not raise moves the VM of that name. -/
theorem ends_killVm_existing (vmName : String) (force : Bool) :
    Ends ((killVm cfg vmName force).exec cfg) s
      (fun _ s' ↦ ∃ v, s.findVm vmName = some v ∧ s'.existing = s.existing.erase v)
      fun _ _ ↦ True := by
  rw [killVm, ends_findVm]
  split
  · trivial
  · rename_i v hfound
    rw [ends_findWnFromVm]
    split
    · trivial
    · split
      · trivial
      · rw [ends_setVm]
        refine ends_runCommand_bind ?_ fun _ _ ↦ trivial
        rw [ends_block]
        have hmem : v ∈ s.existing := mem_existing_of_findVm hfound
        refine (ends_existingToDeleting ?_).2 ?_
        · exact hmem
        · exact ⟨v, hfound, rfl⟩

theorem tracks_killVm_iff {vmName : String} {force : Bool} (htracks : Tracks content s)
    (hok : (killVm cfg vmName force).exec cfg s = .ok () s') :
    Tracks content s' ↔ ∀ v, s.findVm vmName = some v → NamedTwice s v := by
  obtain ⟨v, hfound, hexisting⟩ := (ends_killVm_existing vmName force).of_ok hok
  have hreleases : Releases VM.role (killVm cfg vmName force) :=
    releases_killVm (fun _ _ _ _ ↦ rfl) vmName force
  rw [tracks_erase_iff (hreleases.ends.of_ok hok) (mem_existing_of_findVm hfound) hexisting htracks]
  constructor
  · intro h w hw
    obtain rfl : v = w := Option.some.inj (hfound.symm.trans hw)
    exact h
  · exact fun h ↦ h v hfound

/-- After `forceoff` no VM exists. -/
theorem ends_forceoff_existing (answers : ForceoffAnswers) :
    Ends ((forceoff cfg answers).exec cfg) s (fun _ s' ↦ s'.existing = []) fun _ _ ↦ True := by
  rw [forceoff, ends_list]
  refine ends_scanning_bind (scanning_forceoffExisting answers.existing _) (fun _ s₁ _ _ ↦ ?_)
    fun _ _ _ _ ↦ trivial
  rw [ends_locked]
  show Ends (Proc.exec (Proc.list .starting >>= _) cfg)
    { s₁ with existing := [], deleting := s₁.deleting ++ s₁.existing } _ _
  rw [ends_list]
  refine ends_scanning_bind (scanning_forceoffStarting answers.starting _) (fun _ s₂ _ h₂ ↦ ?_)
    fun _ _ _ _ ↦ trivial
  exact h₂.existing

theorem tracks_forceoff_iff {answers : ForceoffAnswers} (htracks : Tracks content s)
    (hok : (forceoff cfg answers).exec cfg s = .ok () s') :
    Tracks content s' ↔ s.existing = [] := by
  have hreleases : Releases VM.role (forceoff cfg answers) :=
    releases_forceoff (fun _ _ _ _ ↦ rfl) answers
  have hreleased : Released VM.role s s' := hreleases.ends.of_ok hok
  have hnone : s'.hostnames = [] := by
    rw [State.hostnames, (ends_forceoff_existing answers).of_ok hok]
    rfl
  rw [Tracks, hreleased.persistentFile, hnone]
  constructor
  · intro h
    refine List.eq_nil_iff_forall_not_mem.2 fun v hv ↦ ?_
    have hin : (s.vms v).hostname ∈ persistentFile content s.trace :=
      (htracks _).2 (List.mem_map_of_mem hv)
    exact nomatch (h _).1 hin
  · intro h hostname
    rw [htracks hostname, State.hostnames, h]
    rfl

end Administrator

/-! ### Checking the workers -/

/-- No visit from position `i` on takes a VM out of the existing list whose name no other entry has,
each in the state before the visit. -/
def Spared (cfg : Config) (answers : ℕ → WorkerAnswers) : ℕ → List WorkerNode → State → Prop
  | _, [], _ => True
  | i, wn :: wns, s => (∀ v, Takes cfg (answers i) s wn v → NamedTwice s v) ∧
    ∀ s', (checkWorker cfg (answers i) wn).exec cfg s = .ok () s' →
      Spared cfg answers (i + 1) wns s'

section Visits

variable {cfg : Config} {content : List String} {answers : ℕ → WorkerAnswers} {s s' : State}
  {wn : WorkerNode}

/-- The file holds the hostname of every existing VM, and possibly more. -/
def HoldsAll (content : List String) (s : State) : Prop :=
  ∀ hostname ∈ s.hostnames, hostname ∈ persistentFile content s.trace

theorem Tracks.holdsAll (h : Tracks content s) : HoldsAll content s :=
  fun hostname hin ↦ (h hostname).2 hin

/-- **One visit.** What the file has too much it keeps. -/
theorem tracks_visit_iff {a : WorkerAnswers} (hholds : HoldsAll content s)
    (hok : (checkWorker cfg a wn).exec cfg s = .ok () s') :
    HoldsAll content s' ∧ (Tracks content s' ↔
      Tracks content s ∧ ∀ v, Takes cfg a s wn v → NamedTwice s v) := by
  have hreleased : Released VM.role s s' :=
    (releases_checkWorker (fun _ _ _ _ ↦ rfl) (fun _ _ _ ↦ rfl) a wn).ends.of_ok hok
  obtain ⟨-, htakes⟩ := ends_checkWorker_takesOut.of_ok hok
  by_cases htaken : ∃ v, Takes cfg a s wn v
  · obtain ⟨v, hv⟩ := htaken
    have hexisting : s'.existing = s.existing.erase v := htakes.taken v hv
    -- a hostname can only go, and the file is not written
    have hsubset : ∀ hostname ∈ s'.hostnames, hostname ∈ s.hostnames := by
      rw [hreleased.hostnames, hexisting]
      intro hostname hin
      obtain ⟨w, hw, rfl⟩ := List.mem_map.1 hin
      exact List.mem_map_of_mem (List.mem_of_mem_erase hw)
    have hmem : v ∈ s.existing := mem_existing_of_findVm hv.found
    refine ⟨fun hostname hin ↦ ?_, fun htracks ↦ ?_, ?_⟩
    · rw [hreleased.persistentFile]
      exact hholds hostname (hsubset hostname hin)
    · -- the file had nothing too much before either
      have hbefore : Tracks content s := fun hostname ↦ by
        refine ⟨fun hin ↦ ?_, hholds hostname⟩
        rw [← hreleased.persistentFile] at hin
        exact hsubset hostname ((htracks hostname).1 hin)
      refine ⟨hbefore, fun w hw ↦ ?_⟩
      obtain rfl : v = w := Option.some.inj (hv.found.symm.trans hw.found)
      exact (tracks_erase_iff hreleased hmem hexisting hbefore).1 htracks
    · rintro ⟨hbefore, htwice⟩
      exact (tracks_erase_iff hreleased hmem hexisting hbefore).2 (htwice v hv)
  · have hnone : ∀ v, ¬Takes cfg a s wn v := fun v hv ↦ htaken ⟨v, hv⟩
    have hnames : s'.hostnames = s.hostnames := by
      rw [hreleased.hostnames, htakes.spared hnone]
      rfl
    refine ⟨?_, ?_⟩
    · rw [HoldsAll, hnames, hreleased.persistentFile]
      exact hholds
    · rw [tracks_congr hreleased.persistentFile hnames]
      exact ⟨fun h ↦ ⟨h, fun v hv ↦ absurd hv (hnone v)⟩, fun h ↦ h.1⟩

/-- **All visits of a poll.** -/
theorem tracks_visits (i : ℕ) (wns : List WorkerNode) (hholds : HoldsAll content s)
    (hok : (visits cfg answers i wns).exec cfg s = .ok () s') :
    Tracks content s' ↔ Tracks content s ∧ Spared cfg answers i wns s := by
  induction wns generalizing i s with
  | nil =>
    obtain rfl : s = s' := by
      cases hok
      rfl
    exact ⟨fun h ↦ ⟨h, trivial⟩, fun h ↦ h.1⟩
  | cons wn wns ih =>
    rw [exec_visits_cons] at hok
    cases hvisit : (checkWorker cfg (answers i) wn).exec cfg s with
    | error e s₁ =>
      rw [hvisit] at hok
      exact nomatch hok
    | ok u s₁ =>
      rw [hvisit] at hok
      obtain ⟨hholds₁, hiff⟩ := tracks_visit_iff hholds hvisit
      rw [ih (i + 1) hholds₁ hok, hiff, Spared, hvisit, and_assoc]
      refine and_congr_right fun _ ↦ and_congr_right fun _ ↦ ⟨fun h s₂ hs₂ ↦ ?_, fun h ↦ h s₁ rfl⟩
      cases hs₂
      exact h

theorem tracks_checkExistingWorkerNodes_iff (htracks : Tracks content s)
    (hok : (checkExistingWorkerNodes cfg answers).exec cfg s = .ok () s') :
    Tracks content s' ↔ Spared cfg answers 0 s.cluster.workerNodes s := by
  have hsplit : Ends ((checkExistingWorkerNodes cfg answers).exec cfg) s
      (fun _ s' ↦ Tracks content s' ↔ Spared cfg answers 0 s.cluster.workerNodes s)
      fun _ _ ↦ True := by
    rw [checkExistingWorkerNodes, ends_cluster, Proc.exec, run_bind, ends_bind]
    show Ends ((visits cfg answers 0 s.cluster.workerNodes).exec cfg) s _ _
    rw [Ends]
    split
    · rename_i u s₁ hvisits
      show Tracks content s₁.updateAvailableCores ↔ _
      have hsame : Tracks content s₁.updateAvailableCores ↔ Tracks content s₁ :=
        tracks_congr rfl rfl
      rw [hsame, tracks_visits 0 _ htracks.holdsAll hvisits]
      exact ⟨fun h ↦ h.2, fun h ↦ ⟨htracks, h⟩⟩
    · trivial
  exact hsplit.of_ok hok

end Visits

/-! ### Operations that dump -/

/-- The existing VMs have been created, and if `c` holds the file tracks them. -/
structure TracksIf (content : List String) (c : Prop) (s : State) : Prop where
  created : ∀ v ∈ s.existing, v < s.nextVm
  tracks : c → Tracks content s

section Dump

variable {cfg : Config} {content : List String} {c : Prop} {s s' : State} {v : VmRef}

theorem tracks_setVm_iff {f : VM → VM} (hf : ∀ vm, (f vm).hostname = vm.hostname) :
    Tracks content (s.setVm v f) ↔ Tracks content s := by
  refine tracks_congr rfl (List.map_congr_left fun w _ ↦ ?_)
  by_cases hw : w = v
  · simp [State.setVm, hw, hf]
  · simp [State.setVm, hw]

/-- A new VM does not exist yet. -/
theorem tracks_allocate_iff (vm : VM) (hcreated : ∀ v ∈ s.existing, v < s.nextVm) :
    Tracks content (s.allocate [vm]) ↔ Tracks content s := by
  refine tracks_congr rfl (List.map_congr_left fun w hw ↦ ?_)
  have hold : ¬s.nextVm ≤ w := not_le.2 (hcreated w hw)
  simp [State.allocate, hold]

theorem keeps_tracksIf (cfg : Config) (content : List String) (c : Prop) :
    Keeps (exec cfg) (Act.Aside VM.hostname Event.Undumped) (TracksIf content c) fun _ ↦ True := by
  refine keeps_aside ?_ ?_ ?_ ?_
  · intro s s' haside h
    refine ⟨?_, fun hc ↦ (tracks_congr ?_ ?_).2 (h.tracks hc)⟩
    · rw [haside.existing, haside.nextVm]
      exact h.created
    · rw [haside.trace]
    · rw [State.hostnames, State.hostnames, haside.existing, haside.vms]
  · exact fun s v f hf h ↦ ⟨h.created, fun hc ↦ (tracks_setVm_iff hf).2 (h.tracks hc)⟩
  · intro s e he h
    have hemit : Emits Event.Undumped s (s.emit e) := .emit s he
    exact ⟨h.created, fun hc ↦ (tracks_congr hemit.persistentFile rfl).2 (h.tracks hc)⟩
  · intro s vm h
    refine ⟨fun v hv ↦ (h.created v hv).trans (Nat.lt_succ_self _), fun hc ↦ ?_⟩
    exact (tracks_allocate_iff vm h.created).2 (h.tracks hc)

/-- What a program that steps aside keeps of the file. -/
theorem Aside.keepsFile {α : Type} {p : Proc α} (h : Aside VM.role Event.Plain p) :
    Aside VM.hostname Event.Undumped p :=
  h.weaken (fun _ _ hrole ↦ (Prod.mk.inj hrole).1) fun _ he ↦ he.undumped

/-- A visit of a starting VM does not dump. -/
theorem aside_provisionVisit (answers : ProvisionAnswers) (scratch : ProvisionScratch) :
    Aside VM.hostname Event.Undumped (provisionVisit cfg answers v scratch) := by
  have htry : ∀ i n, Aside VM.hostname Event.Undumped (tryAddNode cfg v answers.addNode i n) := by
    intro i n
    induction n generalizing i with
    | zero => trivial
    | succ n ih =>
      refine .step trivial fun vm ↦ .step trivial fun _ ↦ (aside_lift _).bind fun _ _ ↦ ?_
      split
      · trivial
      · exact ih (i + 1)
  have hadd : Aside VM.hostname Event.Undumped (addToTorque cfg answers v scratch) := by
    refine .step (fun _ ↦ rfl) fun _ ↦ (htry 0 5).bind fun added _ ↦ ?_
    split
    · trivial
    · split
      · exact (aside_runCommand trivial).bind fun _ _ ↦ trivial
      · exact (aside_setUpNode answers.wnQuery).keepsFile.bind fun _ _ ↦ trivial
  refine .step trivial fun vm ↦ ?_
  split
  · exact aside_pollTorque answers scratch
  · refine (aside_vmCheck answers.report).keepsFile.bind fun state _ ↦ ?_
    cases state with
    | ready => exact hadd
    | configuring =>
      exact aside_postProvision.keepsFile.bind fun _ _ ↦ aside_giveUpIfOverdue answers.now scratch
    | building => exact aside_giveUpIfOverdue answers.now scratch
    | destroyed => trivial
    | error => trivial

/-- **The dump and what follows it.** The file is right before it, or it is written. -/
theorem ends_dump {b : Prop} [Decidable b] {p : Proc Unit} (hp : Aside VM.role Event.Plain p)
    (h : TracksIf content (¬b) s) :
    Ends (Proc.exec (do
      Proc.locked .updateAvailableCores
      Program.when b Proc.dumpNodes
      p) cfg) s (fun _ ↦ Tracks content) fun _ _ ↦ True := by
  have hrest : ∀ s₁, TracksIf content True s₁ →
      Ends (p.exec cfg) s₁ (fun _ ↦ Tracks content) fun _ _ ↦ True := fun s₁ h₁ ↦
    (Aside.ends (keeps_tracksIf cfg content True) hp.keepsFile h₁).mono
      (fun _ _ h ↦ h.tracks trivial) fun _ _ _ ↦ trivial
  have hcores : TracksIf content (¬b) s.updateAvailableCores :=
    ⟨h.created, fun hb ↦ (tracks_congr rfl rfl).2 (h.tracks hb)⟩
  rw [ends_locked]
  show Ends _ s.updateAvailableCores _ _
  rw [Proc.exec, run_bind, ends_bind, Program.when]
  split
  · exact hrest _ ⟨h.created, fun _ ↦ tracks_emit_dumpNodes content s.updateAvailableCores⟩
  · rename_i hb
    exact hrest _ ⟨h.created, fun _ ↦ hcores.tracks hb⟩

/-- The VMs that become ready have been created. -/
theorem ends_commitReady_created {vs : List VmRef}
    (hcreated : ∀ v, v ∈ s.existing ∨ v ∈ s.starting → v < s.nextVm) :
    Ends (Locked.commitReady cfg vs) s (fun _ s' ↦ ∀ v ∈ s'.existing, v < s'.nextVm)
      fun _ _ ↦ True := by
  refine (ends_commitReady_of_forall
    (I := fun s ↦ ∀ v, v ∈ s.existing ∨ v ∈ s.starting → v < s.nextVm) ?_ ?_ hcreated).mono
      (fun _ s' h v hv ↦ h v (.inl hv)) fun _ _ _ ↦ trivial
  · intro s v _ needed reqs hmem _ h w hw
    rcases hw with hw | hw
    · rcases List.mem_append.1 hw with hw | hw
      · exact h w (.inl hw)
      · exact h w (.inr ((List.mem_singleton.1 hw) ▸ hmem))
    · exact h w (.inr (List.mem_of_mem_erase hw))
  · intro s v _ e _ _ h w hw
    exact h w (hw.imp_right List.mem_of_mem_erase)

/-- **`update_provision_status`.** If no VM has become ready nothing exists that did not before;
otherwise the nodes are dumped. -/
theorem ends_updateProvisionStatus_tracks (answers : UpdateAnswers)
    (hcreated : ∀ v ∈ s.tracked, v < s.nextVm) (htracks : Tracks content s) :
    Ends ((updateProvisionStatus cfg answers).exec cfg) s (fun _ ↦ Tracks content)
      fun _ _ ↦ True := by
  rw [updateProvisionStatus, ends_list, Proc.exec, run_bind, ends_bind]
  have hvisits : Aside VM.hostname Event.Undumped (forEach
      (fun i v scratch ↦ provisionVisit cfg (answers.visit i) v scratch) 0 s.starting ⟨[], []⟩) :=
    within_forEach_of_forall (fun i v _ scratch ↦ aside_provisionVisit (answers.visit i) scratch) _
  have hscan : Scanning .any (forEach
      (fun i v scratch ↦ provisionVisit cfg (answers.visit i) v scratch) 0 s.starting ⟨[], []⟩)
      fun _ ↦ True :=
    within_forEach_of_forall (fun i v _ scratch ↦ (scanning_provisionVisit trivial _ scratch).mono
      (fun _ h ↦ h) (fun _ _ ↦ trivial) fun _ h ↦ h) _
  have hbefore : TracksIf content True s :=
    ⟨fun v hv ↦ hcreated v (State.mem_tracked.2 (.inl hv)), fun _ ↦ htracks⟩
  refine ((Aside.ends (keeps_tracksIf cfg content True) hvisits hbefore).and
    (ends_of_scanning hscan s)).mono (fun scratch s₁ h ↦ ?_) fun _ _ _ ↦ trivial
  obtain ⟨h₁, -, hs₁⟩ := h
  have hcreated₁ : ∀ v, v ∈ s₁.existing ∨ v ∈ s₁.starting → v < s₁.nextVm := by
    intro v hv
    rw [hs₁.existing, hs₁.starting] at hv
    rw [hs₁.nextVm]
    exact hcreated v (State.mem_tracked.2 (hv.imp_right .inl))
  -- whether a dump follows is decided here
  have hcommit : Ends (Locked.commitReady cfg scratch.readyToUse) s₁
      (fun _ ↦ TracksIf content (¬scratch.readyToUse.length > 0)) fun _ _ ↦ True := by
    by_cases hready : scratch.readyToUse = []
    · rw [hready]
      exact ⟨h₁.created, fun _ ↦ h₁.tracks trivial⟩
    · exact (ends_commitReady_created hcreated₁).mono
        (fun _ _ h ↦ ⟨h, fun hnone ↦ absurd (List.length_pos_iff.2 hready) hnone⟩) fun _ _ h ↦ h
  rw [run_bind, ends_bind]
  refine ends_block.2 (hcommit.mono (fun _ s₂ h₂ ↦ ?_) fun _ _ h ↦ h)
  have hgiveUps : Aside VM.role Event.Plain (forEach
      (fun i vr _ ↦ giveUp (answers.destroy i) vr.1 vr.2) 0 scratch.toDelete ()) :=
    within_forEach_of_forall (fun i vr _ _ ↦ aside_giveUp (answers.destroy i) vr.2) ()
  refine ends_aside_bind (keeps_tracksIf cfg content _) hgiveUps.keepsFile h₂
    (fun _ s₃ h₃ ↦ ?_) fun _ _ _ ↦ trivial
  exact ends_dump (aside_finishProvisioning answers.launch) h₃

/-- **`check_cleanup`.** If no VM is gone or busy again nothing changes; otherwise the nodes are
dumped. -/
theorem ends_checkCleanup_tracks (answers : CleanupCalls)
    (hcreated : ∀ v ∈ s.tracked, v < s.nextVm) (htracks : Tracks content s) :
    Ends ((checkCleanup cfg answers).exec cfg) s (fun _ ↦ Tracks content) fun _ _ ↦ True := by
  rw [checkCleanup, ends_list]
  split
  · exact htracks
  · rw [ends_list, Proc.exec, run_bind, ends_bind]
    have hvisits : Aside VM.role Event.Plain (forEach
        (fun i v scratch ↦ cleanupVisit cfg (answers.visit i) v scratch) 0 s.deleting ⟨[], []⟩) :=
      within_forEach_of_forall (fun i v _ scratch ↦ aside_cleanupVisit (answers.visit i) scratch) _
    have hbefore : TracksIf content True s :=
      ⟨fun v hv ↦ hcreated v (State.mem_tracked.2 (.inl hv)), fun _ ↦ htracks⟩
    refine ((Aside.ends (keeps_tracksIf cfg content True) hvisits.keepsFile hbefore).and
      ends_cleanupScan).mono (fun scratch s₁ h ↦ ?_) fun _ _ _ ↦ trivial
    obtain ⟨h₁, hs₁⟩ := h
    have hsub : (scratch.deleted ++ scratch.executing).Subperm s₁.deleting :=
      hs₁.scanned.deleting ▸ hs₁.subperm
    have hcommit : Ends ((Block.commitCleanup scratch.deleted scratch.executing).code cfg) s₁
        (fun _ ↦ TracksIf content
          (¬(scratch.deleted.length > 0 ∨ scratch.executing.length > 0))) fun _ _ ↦ True := by
      -- the file is dumped exactly if the scan has decided anything
      by_cases hnone : scratch.deleted = [] ∧ scratch.executing = []
      · rw [hnone.1, hnone.2]
        exact ⟨h₁.created, fun _ ↦ h₁.tracks trivial⟩
      · have hdump : scratch.deleted.length > 0 ∨ scratch.executing.length > 0 := by
          rcases not_and_or.1 hnone with h | h
          · exact .inl (List.length_pos_iff.2 h)
          · exact .inr (List.length_pos_iff.2 h)
        have hdeleted : scratch.deleted.Subperm s₁.deleting :=
          (List.sublist_append_left _ _).subperm.trans hsub
        refine ends_bind.2 ((ends_dropDeleted hdeleted).mono (fun _ s₂ h₂ ↦ ?_) fun _ _ _ ↦ trivial)
        have hexecuting : scratch.executing.Subperm s₂.deleting := h₂.deleting ▸ subperm_diff hsub
        refine (ends_resumeExecuting hexecuting).mono (fun _ s₃ h₃ ↦ ⟨fun v hv ↦ ?_, fun hnot ↦
          absurd hdump hnot⟩) fun _ _ _ ↦ trivial
        rw [h₃.existing, h₂.existing] at hv
        rw [h₃.nextVm, h₂.nextVm]
        rcases List.mem_append.1 hv with hv | hv
        · exact h₁.created v hv
        · have hdeleting : v ∈ s.deleting := by
            rw [← hs₁.scanned.deleting]
            exact hsub.subset (List.mem_append_right _ hv)
          rw [hs₁.scanned.nextVm]
          exact hcreated v (State.mem_tracked.2 (.inr (.inr hdeleting)))
    rw [run_bind, ends_bind]
    refine ends_block.2 (hcommit.mono (fun _ s₂ h₂ ↦ ?_) fun _ _ h ↦ h)
    exact ends_dump (aside_launchIfWaiting answers.launch) h₂

/-- An operation that steps aside. -/
theorem ends_aside_tracks {p : Proc Unit} (hp : Aside VM.role Event.Plain p)
    (hcreated : ∀ v ∈ s.tracked, v < s.nextVm) (htracks : Tracks content s) :
    Ends (p.exec cfg) s (fun _ ↦ Tracks content) fun _ _ ↦ True := by
  have hbefore : TracksIf content True s :=
    ⟨fun v hv ↦ hcreated v (State.mem_tracked.2 (.inl hv)), fun _ ↦ htracks⟩
  exact (Aside.ends (keeps_tracksIf cfg content True) hp.keepsFile hbefore).mono
    (fun _ _ h ↦ h.tracks trivial) fun _ _ _ ↦ trivial

end Dump

/-! ### The condition -/

/-- No VM whose name no other one has stops existing without a dump. -/
def KeepsNodeFile (cfg : Config) (s : State) : Operation → Prop
  | .killVm vmName _ => ∀ v, s.findVm vmName = some v → NamedTwice s v
  | .forceoff _ => s.existing = []
  | .checkExistingWorkerNodes answers => Spared cfg answers 0 s.cluster.workerNodes s
  | _ => True

/-- **When the persistent file tracks the existing VMs.** From a state in which it does, and for a
call that does not raise: always after `update_provision_status` and `check_cleanup`; otherwise
exactly if no VM has stopped existing whose name no other one has. -/
theorem tracks_after_iff (cfg : Config) (op : Operation) (content : List String) (s s' : State)
    (hcreated : ∀ v ∈ s.tracked, v < s.nextVm) (htracks : Tracks content s)
    (hok : (op.program cfg).exec cfg s = .ok () s') :
    Tracks content s' ↔ KeepsNodeFile cfg s op := by
  cases op with
  | killVm vmName force => exact tracks_killVm_iff htracks hok
  | forceoff answers => exact tracks_forceoff_iff htracks hok
  | checkExistingWorkerNodes answers => exact tracks_checkExistingWorkerNodes_iff htracks hok
  | launchInstances answers =>
    exact iff_of_true ((ends_aside_tracks (aside_launchInstances answers) hcreated htracks).of_ok
      hok) trivial
  | updateProvisionStatus answers =>
    exact iff_of_true ((ends_updateProvisionStatus_tracks answers hcreated htracks).of_ok hok)
      trivial
  | checkCleanup answers =>
    exact iff_of_true ((ends_checkCleanup_tracks answers hcreated htracks).of_ok hok) trivial
  | query report =>
    have hstep : Aside VM.role Event.Plain (Proc.setCluster report) := aside_step trivial
    exact iff_of_true ((ends_aside_tracks hstep hcreated htracks).of_ok hok) trivial
  | queueRequests requests =>
    have hstep : Aside VM.role Event.Plain (Proc.locked (.queueRequests requests)) :=
      aside_step trivial
    exact iff_of_true ((ends_aside_tracks hstep hcreated htracks).of_ok hok) trivial

/-- The clean-up of a VM that is gone while another one exists. -/
def oneGone : State :=
  { oneDynamic none with deleting := [1], nextVm := 2 }

/-- The cloud and Torque do not know the VM any more. -/
def cleanupGone : Operation :=
  .checkCleanup ⟨fun _ ↦ ⟨none, .notLocated, 0, ⟨.failed, 0⟩⟩, fun _ ↦ none⟩

theorem tracks_after_iff_oneGone : Tracks ["wn1"] (cleanupGone.after {} oneGone) := by
  refine (tracks_after_iff {} cleanupGone ["wn1"] oneGone _ (by decide) (fun hostname ↦ ?_) ?_).2
    trivial
  · exact Iff.rfl
  · rfl

/-- The worker that is killed stays in the file. -/
theorem killed_worker_in_file : ¬∀ (cfg : Config) (vmName : String) (force : Bool)
    (content : List String) (s s' : State), (∀ v ∈ s.tracked, v < s.nextVm) → Tracks content s →
      (killVm cfg vmName force).exec cfg s = .ok () s' → Tracks content s' := by
  intro h
  have htracks := h {} "wn1" false ["wn1"] (oneDynamic none)
    (stateAfter ((killVm {} "wn1" false).exec {}) (oneDynamic none)) (by decide)
    (fun hostname ↦ Iff.rfl) rfl
  exact nomatch (htracks "wn1").1 (show "wn1" ∈ ["wn1"] from List.mem_cons_self)

end DynamicTorque
