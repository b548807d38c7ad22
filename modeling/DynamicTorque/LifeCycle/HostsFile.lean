import DynamicTorque.LifeCycle.Footprints
import DynamicTorque.LifeCycle.Partition

/-!
# The lines of the hosts file

`add_node_to_torque` appends a line for the VM to `/etc/hosts` before it runs its command, and
`remove_node_from_hosts_file` deletes the lines that contain the hostname. The file after a run is
the replay of these calls.

* `HostsKept` is the invariant: a VM has at most one line, and none before it is added to Torque nor
  when it is in no list.
* `ends_operation_hostsKept`: a call keeps it, if each VM that it adds to Torque is added with the
  first attempt and the line of each VM that it finds gone was deleted before.
* `hosts_of_run`: so do all calls one after another.

Both conditions can fail. Each further attempt appends a further line, and of the ways in which a VM
can end only `forceoff` and the shut-down of an idle worker delete its line.
-/

open Python Atomic Program

namespace DynamicTorque

/-! ### The file -/

/-- What `add_node_to_torque` writes about a VM: its address and hostname. -/
structure Host where
  ip : String
  hostname : String

/-- The text of the line for a VM. -/
def Host.line (host : Host) : String :=
  host.ip ++ "\t" ++ host.hostname

/-- A line of the hosts file: the one that was written for a VM, or any other text. -/
inductive HostsLine
  | other (text : String)
  | vm (v : VmRef)
  deriving DecidableEq

/-- The lines of the hosts file before the first VM was added, and the address and hostname that
each VM has when it is added. -/
structure Hosts where
  others : List String
  host : VmRef → Host

namespace Hosts

def text (hosts : Hosts) : HostsLine → String
  | .other text => text
  | .vm v => (hosts.host v).line

/-- What a call does to the file. -/
def write (hosts : Hosts) (file : List HostsLine) : Event → List HostsLine
  | .command (.addNode _) v => file ++ [.vm v]
  | .command .removeNodeFromHostsFile v =>
    file.filter fun line ↦ !strIn (hosts.host v).hostname (hosts.text line)
  | _ => file

/-- The file after the calls of a trace. -/
def file (hosts : Hosts) (trace : List Event) : List HostsLine :=
  trace.foldl hosts.write (hosts.others.map .other)

/-- The number of lines for a VM. -/
def lines (hosts : Hosts) (s : State) (v : VmRef) : ℕ :=
  (hosts.file s.trace).count (.vm v)

end Hosts

/-- The line of a VM contains its hostname. -/
theorem strIn_line (host : Host) : strIn host.hostname host.line = true := by
  rw [strIn, Host.line, String.toList_append]
  exact isInfixOf_append _ _

section File

variable {hosts : Hosts} {s s' : State} {v : VmRef}

theorem file_append (trace events : List Event) :
    hosts.file (trace ++ events) = events.foldl hosts.write (hosts.file trace) :=
  List.foldl_append

/-- A call that adds no node adds no line. -/
theorem count_write_le {file : List HostsLine} {e : Event} (he : e.Removing) (line : HostsLine) :
    (hosts.write file e).count line ≤ file.count line := by
  cases e with
  | command c w =>
    cases c with
    | addNode added => exact he.elim
    | removeNodeFromHostsFile => exact List.filter_sublist.count_le line
    | _ => exact le_rfl
  | _ => exact le_rfl

theorem count_foldl_write_le {file : List HostsLine} {events : List Event}
    (h : ∀ e ∈ events, e.Removing) (line : HostsLine) :
    (events.foldl hosts.write file).count line ≤ file.count line := by
  induction events generalizing file with
  | nil => exact le_rfl
  | cons e events ih =>
    exact (ih fun e' he' ↦ h e' (List.mem_cons_of_mem _ he')).trans
      (count_write_le (h e List.mem_cons_self) line)

theorem lines_le_of_emits (h : Emits Event.Removing s s') (v : VmRef) :
    hosts.lines s' v ≤ hosts.lines s v := by
  rw [Hosts.lines, h.trace, file_append]
  exact count_foldl_write_le h.events _

/-- `remove_node_from_hosts_file` leaves no line of its VM. -/
theorem count_write_removed (file : List HostsLine) (v : VmRef) :
    (hosts.write file (.command .removeNodeFromHostsFile v)).count (.vm v) = 0 := by
  refine List.count_eq_zero.2 fun hmem ↦ ?_
  have hkept := (List.mem_filter.1 hmem).2
  simp [Hosts.text, strIn_line] at hkept

/-- After `remove_node_from_hosts_file` a VM has no line until it is added again. -/
theorem lines_eq_zero_of_removed (h : Emits Event.Removing s s')
    (hremoved : .command .removeNodeFromHostsFile v ∈ s.since s') : hosts.lines s' v = 0 := by
  obtain ⟨before, after, hsplit⟩ := List.append_of_mem hremoved
  have hafter : ∀ e ∈ after, e.Removing := fun e he ↦
    h.events e (hsplit ▸ List.mem_append_right _ (List.mem_cons_of_mem _ he))
  rw [Hosts.lines, h.trace, hsplit, file_append, List.foldl_append, List.foldl_cons]
  have hnone : (hosts.write (before.foldl hosts.write (hosts.file s.trace))
      (.command .removeNodeFromHostsFile v)).count (.vm v) = 0 := count_write_removed _ v
  exact Nat.le_zero.1 (hnone ▸ count_foldl_write_le hafter _)

theorem lines_addNode (s : State) (added : Bool) (v w : VmRef) :
    hosts.lines (s.emit (.command (.addNode added) v)) w =
      hosts.lines s w + if v = w then 1 else 0 := by
  show (hosts.file (s.trace ++ [.command (.addNode added) v])).count (.vm w) = _
  rw [file_append]
  show (hosts.file s.trace ++ [HostsLine.vm v]).count (HostsLine.vm w) = _
  rw [List.count_append, List.count_singleton]
  by_cases hw : v = w
  · simp [Hosts.lines, hw]
  · simp [Hosts.lines, hw]

/-- `add_node_to_torque` for a VM. -/
def Event.Adds (v : VmRef) : Event → Prop
  | .command (.addNode _) w => w = v
  | _ => False

/-- The VM has never been added to Torque. -/
def NeverAdded (s : State) (v : VmRef) : Prop :=
  ∀ e ∈ s.trace, ¬e.Adds v

/-- The line of the VM was deleted, and the VM has not been added to Torque since. -/
def LineDeleted (s : State) (v : VmRef) : Prop :=
  ∃ before after, s.trace = before ++ .command .removeNodeFromHostsFile v :: after ∧
    ∀ e ∈ after, ¬e.Adds v

/-- Only `add_node_to_torque` writes a line for a VM. -/
theorem count_foldl_write_eq_zero {events : List Event} (h : ∀ e ∈ events, ¬e.Adds v) :
    ∀ {file : List HostsLine}, file.count (.vm v) = 0 →
      (events.foldl hosts.write file).count (.vm v) = 0 := by
  induction events with
  | nil => exact id
  | cons e events ih =>
    rw [List.forall_mem_cons] at h
    intro file hfile
    refine ih h.2 ?_
    cases e with
    | command c w =>
      cases c with
      | addNode added =>
        have hne : w ≠ v := h.1
        show (file ++ [HostsLine.vm w]).count (.vm v) = 0
        rw [List.count_append, hfile, List.count_singleton, if_neg (by simpa using hne)]
      | removeNodeFromHostsFile =>
        exact Nat.le_zero.1 (hfile ▸ List.filter_sublist.count_le _)
      | _ => exact hfile
    | _ => exact hfile

/-- **A VM without a line**: it was never added, or its line was deleted since. -/
theorem lines_eq_zero (h : NeverAdded s v ∨ LineDeleted s v) : hosts.lines s v = 0 := by
  rw [Hosts.lines, Hosts.file]
  rcases h with hnever | ⟨before, after, htrace, hafter⟩
  · refine count_foldl_write_eq_zero hnever (List.count_eq_zero.2 fun hmem ↦ ?_)
    obtain ⟨text, -, h⟩ := List.mem_map.1 hmem
    cases h
  · rw [htrace, List.foldl_append, List.foldl_cons]
    exact count_foldl_write_eq_zero hafter (count_write_removed _ v)

end File

/-! ### The invariant -/

/-- A VM has at most one line, and none before it is added to Torque nor when it is in no list. -/
structure HostsKept (hosts : Hosts) (s : State) : Prop where
  one : ∀ v, hosts.lines s v ≤ 1
  ready : ∀ v, (s.vms v).cloudReady = false → hosts.lines s v = 0
  untracked : ∀ v, v ∉ s.tracked → hosts.lines s v = 0
  uncreated : ∀ v, s.nextVm ≤ v → hosts.lines s v = 0

section Invariant

variable {cfg : Config} {hosts : Hosts} {s s' : State} {v : VmRef}

/-- No line is added, and a VM that leaves the lists has none. -/
theorem HostsKept.mono (h : HostsKept hosts s) (hlines : ∀ v, hosts.lines s' v ≤ hosts.lines s v)
    (hready : ∀ v, (s'.vms v).cloudReady = false →
      (s.vms v).cloudReady = false ∨ hosts.lines s' v = 0)
    (htracked : ∀ v ∈ s.tracked, v ∈ s'.tracked ∨ hosts.lines s' v = 0)
    (hnext : s.nextVm ≤ s'.nextVm) : HostsKept hosts s' := by
  have hzero : ∀ {v}, hosts.lines s v = 0 → hosts.lines s' v = 0 := fun hv ↦
    Nat.le_zero.1 (hv ▸ hlines _)
  refine ⟨fun v ↦ (hlines v).trans (h.one v), fun v hv ↦ ?_, fun v hv ↦ ?_, fun v hv ↦
    hzero (h.uncreated v (hnext.trans hv))⟩
  · exact (hready v hv).elim (fun hv ↦ hzero (h.ready v hv)) id
  · by_cases hmem : v ∈ s.tracked
    · exact (htracked v hmem).resolve_left hv
    · exact hzero (h.untracked v hmem)

theorem cloudReady_of_role {vm vm' : VM} (h : vm'.role = vm.role) :
    vm'.cloudReady = vm.cloudReady :=
  (Prod.mk.inj h).2

theorem keeps_hostsKept (cfg : Config) (hosts : Hosts) :
    Keeps (exec cfg) (Act.Aside VM.role Event.Plain) (HostsKept hosts) fun _ ↦ True := by
  refine keeps_aside ?_ ?_ ?_ ?_
  · intro s s' haside h
    refine h.mono (fun v ↦ ?_) (fun v hv ↦ .inl ?_) (fun v hv ↦ .inl (haside.tracked v hv))
      haside.nextVm.ge
    · rw [Hosts.lines, Hosts.lines, haside.trace]
    · rwa [haside.vms] at hv
  · intro s v f hf h
    refine h.mono (fun _ ↦ le_rfl) (fun w hw ↦ .inl ?_) (fun w hw ↦ .inl hw) le_rfl
    by_cases hwv : w = v
    · simpa [State.setVm, hwv, cloudReady_of_role (hf (s.vms v))] using hw
    · simpa [State.setVm, hwv] using hw
  · intro s e he h
    exact h.mono (lines_le_of_emits (.emit s he.removing)) (fun _ hv ↦ .inl hv)
      (fun _ hv ↦ .inl hv) le_rfl
  · intro s vm h
    refine h.mono (fun _ ↦ le_rfl) (fun v hv ↦ ?_) (fun v hv ↦ .inl hv) (Nat.le_succ _)
    by_cases hnew : s.nextVm ≤ v
    · exact .inr (h.uncreated v hnew)
    · exact .inl (by simpa [State.allocate, hnew] using hv)

theorem keeps_lines_le (cfg : Config) (hosts : Hosts) (n : VmRef → ℕ) :
    Keeps (exec cfg) (Act.Aside VM.role Event.Plain) (fun s ↦ ∀ v, hosts.lines s v ≤ n v)
      fun _ ↦ True := by
  refine keeps_aside ?_ (fun _ _ _ _ h ↦ h) ?_ fun _ _ h ↦ h
  · intro s s' haside h v
    rw [Hosts.lines, haside.trace]
    exact h v
  · exact fun s e he h v ↦ (lines_le_of_emits (.emit s he.removing) v).trans (h v)

/-- A program that only releases VMs keeps the invariant if those that leave the lists have lost
their line. -/
theorem HostsKept.released (h : HostsKept hosts s) (hreleased : Released VM.role s s')
    (htracked : ∀ v ∈ s.tracked, v ∈ s'.tracked ∨ hosts.lines s' v = 0) : HostsKept hosts s' := by
  refine h.mono (lines_le_of_emits hreleased.trace) (fun v hv ↦ .inl ?_) htracked
    hreleased.nextVm.ge
  rwa [cloudReady_of_role (hreleased.vm v)] at hv

/-! ### Adding a node -/

/-- A VM that has not been added to Torque yet. -/
structure Pending (v : VmRef) (s : State) : Prop where
  tracked : v ∈ s.tracked
  created : v < s.nextVm
  unready : (s.vms v).cloudReady = false

theorem keeps_pending (cfg : Config) (v : VmRef) :
    Keeps (exec cfg) (Act.Aside VM.role Event.Plain) (Pending v) fun _ ↦ True := by
  refine keeps_aside ?_ ?_ ?_ ?_
  · exact fun s s' haside h ↦
      ⟨haside.tracked v h.tracked, haside.nextVm ▸ h.created, haside.vms ▸ h.unready⟩
  · intro s w f hf h
    refine ⟨h.tracked, h.created, ?_⟩
    by_cases hwv : v = w
    · subst hwv
      simpa [State.setVm, cloudReady_of_role (hf (s.vms v))] using h.unready
    · simpa [State.setVm, hwv] using h.unready
  · exact fun s e _ h ↦ ⟨h.tracked, h.created, h.unready⟩
  · intro s vm h
    have hold : ¬s.nextVm ≤ v := not_le.2 h.created
    exact ⟨h.tracked, h.created.trans (Nat.lt_succ_self _), by
      simpa [State.allocate, hold] using h.unready⟩

/-- The state in which a pending VM counts as ready and its line is written. -/
theorem HostsKept.added (h : HostsKept hosts s) (hpending : Pending v s) (added : Bool) :
    HostsKept hosts ((s.setVm v fun vm ↦ { vm with cloudReady := true }).emit
      (.command (.addNode added) v)) := by
  have hzero : hosts.lines s v = 0 := h.ready v hpending.unready
  have hlines : ∀ w, hosts.lines ((s.setVm v fun vm ↦ { vm with cloudReady := true }).emit
      (.command (.addNode added) v)) w = hosts.lines s w + if v = w then 1 else 0 :=
    lines_addNode (s.setVm v _) added v
  have hother : ∀ {w}, v ≠ w → hosts.lines s w = 0 →
      hosts.lines ((s.setVm v fun vm ↦ { vm with cloudReady := true }).emit
        (.command (.addNode added) v)) w = 0 := by
    intro w hw hnone
    rw [hlines, hnone, if_neg hw]
  refine ⟨fun w ↦ ?_, fun w hw ↦ ?_, fun w hw ↦ ?_, fun w hw ↦ ?_⟩
  · rw [hlines]
    split_ifs with hvw
    · rw [← hvw, hzero]
    · exact h.one w
  · by_cases hvw : v = w
    · simp [State.setVm, State.emit, hvw] at hw
    · refine hother hvw (h.ready w ?_)
      simpa [State.setVm, State.emit, Ne.symm hvw] using hw
  · have hvw : v ≠ w := fun hvw ↦ hw (hvw ▸ hpending.tracked)
    exact hother hvw (h.untracked w hw)
  · have hvw : v ≠ w := fun hvw ↦ absurd hpending.created (not_lt.2 (hvw ▸ hw))
    exact hother hvw (h.uncreated w hw)

/-- **A VM that is added with the first attempt** has one line then. -/
theorem ends_addToTorque_hostsKept {answers : ProvisionAnswers} (scratch : ProvisionScratch)
    (h : HostsKept hosts s) (hpending : Pending v s) (hfirst : answers.addNode 0 = true) :
    Ends ((addToTorque cfg answers v scratch).exec cfg) s (fun _ ↦ HostsKept hosts)
      fun _ ↦ HostsKept hosts := by
  have htry : ∀ s₁, Ends ((tryAddNode cfg v answers.addNode 0 5).exec cfg) s₁
      (fun added s' ↦ added = true ∧ s' = s₁.emit (.command (.addNode true) v))
      fun _ s' ↦ s' = s₁.emit (.command (.addNode true) v) := by
    intro s₁
    rw [tryAddNode, hfirst, if_pos rfl, ends_vm, ends_emit]
    exact ends_lift_bind (fun _ _ ↦ ⟨rfl, rfl⟩) fun _ _ ↦ rfl
  have hadded := h.added hpending true
  rw [addToTorque, ends_setVm, Proc.exec, run_bind, ends_bind]
  refine (htry _).mono ?_ fun _ _ h ↦ h ▸ hadded
  rintro added s₁ ⟨rfl, rfl⟩
  rw [if_neg (not_not.2 rfl)]
  split
  · refine Aside.ends (g := VM.role) (P := Event.Plain) (keeps_hostsKept cfg hosts) ?_ hadded
    exact (aside_runCommand trivial).bind fun _ _ ↦ trivial
  · exact Aside.ends (keeps_hostsKept cfg hosts)
      ((aside_setUpNode answers.wnQuery).bind fun _ _ ↦ trivial) hadded

/-- **One visit of a starting VM.** -/
theorem ends_provisionVisit_hostsKept {answers : ProvisionAnswers} (scratch : ProvisionScratch)
    (h : HostsKept hosts s) (hmem : v ∈ s.tracked) (hcreated : v < s.nextVm)
    (hfirst : (s.vms v).cloudReady = false → cloudState answers.report = .ready →
      answers.addNode 0 = true) :
    Ends ((provisionVisit cfg answers v scratch).exec cfg) s (fun _ ↦ HostsKept hosts)
      fun _ ↦ HostsKept hosts := by
  rw [provisionVisit, ends_vm]
  cases hready : (s.vms v).cloudReady with
  | true =>
    rw [if_pos rfl]
    exact Aside.ends (keeps_hostsKept cfg hosts) (aside_pollTorque answers scratch) h
  | false =>
    rw [if_neg Bool.false_ne_true, pollCloud, Proc.exec, run_bind, ends_bind]
    have hcheck : Aside VM.role Event.Plain (vmCheck cfg v answers.report) := aside_vmCheck _
    have hstate : Scanning .any (vmCheck cfg v answers.report)
        fun state ↦ state = cloudState answers.report := scanning_vmCheck trivial _
    -- the check leaves the VM without a line, so the one that is added is its first
    refine (((Aside.ends (keeps_hostsKept cfg hosts) hcheck h).and
      (Aside.ends (keeps_pending cfg v) hcheck ⟨hmem, hcreated, hready⟩)).and
        (ends_of_scanning hstate s)).mono (fun state s₁ h₁ ↦ ?_) fun _ _ h ↦ h.1.1
    obtain ⟨⟨hkept, hpending⟩, rfl, -⟩ := h₁
    have hoverdue : Aside VM.role Event.Plain (giveUpIfOverdue cfg answers.now v scratch) :=
      aside_giveUpIfOverdue answers.now scratch
    cases hcloud : cloudState answers.report with
    | ready => exact ends_addToTorque_hostsKept scratch hkept hpending (hfirst hready hcloud)
    | configuring =>
      exact Aside.ends (keeps_hostsKept cfg hosts)
        (aside_postProvision.bind fun _ _ ↦ hoverdue) hkept
    | building => exact Aside.ends (keeps_hostsKept cfg hosts) hoverdue hkept
    | destroyed => exact hkept
    | error => exact hkept

end Invariant

/-! ### Provisioning -/

section Provisioning

variable {cfg : Config} {hosts : Hosts} {s s' : State} {answers : UpdateAnswers}

/-- Each VM that is found ready in the cloud is added to Torque with the first attempt. -/
def AddedAtOnce (s : State) (answers : UpdateAnswers) : Prop :=
  ∀ (i : ℕ) v, s.starting[i]? = some v → (s.vms v).cloudReady = false →
    cloudState (answers.visit i).report = .ready → (answers.visit i).addNode 0 = true

/-- **The scan.** The VMs that have not been visited are as they were before it. -/
theorem ends_provisionScan_hostsKept (hwf : WellFormed s) (h : HostsKept hosts s)
    (hadded : AddedAtOnce s answers) :
    Ends (Proc.exec (forEach (fun i v scratch ↦ provisionVisit cfg (answers.visit i) v scratch) 0
      s.starting ⟨[], []⟩) cfg) s (fun _ ↦ HostsKept hosts) fun _ ↦ HostsKept hosts := by
  refine (ends_forEach (I := fun done _ s' ↦ HostsKept hosts s' ∧
    Scanned (.looking fun v ↦ v ∈ done) s s') ?_ ⟨h, .refl s⟩).mono (fun _ _ h ↦ h.1) fun _ _ h ↦ h
  intro done v rest scratch s₁ hdone ⟨h₁, hs₁⟩
  have hget : s.starting[done.length]? = some v := by simp [← hdone]
  have hmem : v ∈ s.starting := List.mem_of_getElem? hget
  -- no VM is visited twice, so the condition on the start of the poll still speaks of it
  have hfresh : v ∉ done := notMem_of_nodup hdone hwf.partition.starting
  have hmem₁ : v ∈ s₁.tracked := State.mem_tracked.2 (.inr (.inl (hs₁.starting ▸ hmem)))
  have hcreated₁ : v < s₁.nextVm := by
    rw [hs₁.nextVm]
    exact hwf.fresh v (State.mem_tracked.2 (.inr (.inl hmem)))
  have hfirst : (s₁.vms v).cloudReady = false →
      cloudState (answers.visit done.length).report = .ready →
        (answers.visit done.length).addNode 0 = true := by
    rw [hs₁.untouched v hfresh]
    exact hadded done.length v hget
  refine ((ends_provisionVisit_hostsKept scratch h₁ hmem₁ hcreated₁ hfirst).and
    (ends_provisionVisit (answers.visit done.length) scratch)).mono (fun _ s₂ h₂ ↦ ?_)
      fun _ _ h ↦ h.1
  have hbefore : Scanned (.looking (· ∈ done ++ [v])) s s₁ :=
    hs₁.mono (fun h ↦ h) fun w hw ↦ List.mem_append_left _ hw
  have hvisit : Scanned (.looking (· ∈ done ++ [v])) s₁ s₂ :=
    h₂.2.2.1.mono (fun h ↦ h) fun w hw ↦ List.mem_append_right _ (List.mem_singleton.2 hw)
  exact ⟨h₂.1, hbefore.trans hvisit⟩

/-- The VMs that become ready stay tracked if their static requests can be searched. -/
theorem ends_commitReady_hostsKept {vs : List VmRef} (h : HostsKept hosts s)
    (hsearch : ∀ v ∈ vs, Searchable cfg s.resources (s.vms v).cloudResourceName) :
    Ends (Locked.commitReady cfg vs) s (fun _ ↦ HostsKept hosts) fun _ ↦ HostsKept hosts := by
  refine (ends_commitReady_of_forall (I := fun s' ↦ HostsKept hosts s' ∧
    ∀ v ∈ vs, Searchable cfg s'.resources (s'.vms v).cloudResourceName) ?_ ?_ ⟨h, hsearch⟩).mono
      (fun _ _ h ↦ h.1) fun _ _ h ↦ h.1
  · intro s v _ needed reqs hmem hneed ⟨h, hsearch⟩
    have hready := readied_ready hmem hneed
    have hmoves : Moves (fun _ ↦ False) s (s.ready v needed reqs) := hready.moves
    refine ⟨h.mono (fun _ ↦ le_rfl) (fun w hw ↦ .inl ?_) (fun w hw ↦ .inl ?_) le_rfl,
      fun w hw ↦ ?_⟩
    · cases needed with
      | false => exact hw
      | true => by_cases hwv : w = v <;> simpa [State.ready, hwv] using hw
    · exact (hmoves.kept w hw).resolve_right id
    · rw [hready.resource]
      exact hready.searchable _ (hsearch w hw)
  · intro s v hv e _ he ⟨_, hsearch⟩
    exact absurd (hsearch v hv) (State.needVm_eq_error he).2

/-- **The dump and what follows it.** -/
theorem ends_dump_hostsKept {b : Prop} [Decidable b] {p : Proc Unit}
    (hp : Aside VM.role Event.Plain p) (h : HostsKept hosts s) :
    Ends (Proc.exec (do
      Proc.locked .updateAvailableCores
      Program.when b Proc.dumpNodes
      p) cfg) s (fun _ ↦ HostsKept hosts) fun _ ↦ HostsKept hosts := by
  have hcores : Aside VM.role Event.Plain (Proc.locked .updateAvailableCores) := aside_step trivial
  refine ends_aside_bind (keeps_hostsKept cfg hosts) hcores h (fun _ s₁ h₁ ↦ ?_) fun _ _ h ↦ h
  rw [Proc.exec, run_bind, ends_bind, Program.when]
  split
  · refine Aside.ends (keeps_hostsKept cfg hosts) hp ?_
    refine h₁.mono (fun v ↦ ?_) (fun v hv ↦ .inl hv) (fun v hv ↦ .inl hv) le_rfl
    show (hosts.file (s₁.trace ++ [.dumpNodes _])).count (.vm v) ≤ _
    rw [file_append]
    exact le_rfl
  · exact Aside.ends (keeps_hostsKept cfg hosts) hp h₁

/-- **`update_provision_status`.** -/
theorem ends_updateProvisionStatus_hostsKept (hwf : WellFormed s) (h : HostsKept hosts s)
    (hadded : AddedAtOnce s answers)
    (hsearch : ∀ v ∈ (s.provisionScratch cfg answers).readyToUse,
      Searchable cfg s.resources (s.vms v).cloudResourceName) :
    Ends ((updateProvisionStatus cfg answers).exec cfg) s (fun _ ↦ HostsKept hosts)
      fun _ ↦ HostsKept hosts := by
  rw [updateProvisionStatus, ends_list, Proc.exec, run_bind, ends_bind]
  refine ((ends_provisionScan_hostsKept hwf h hadded).and
    (ends_provisionScan hwf.partition.starting)).mono (fun scratch s₁ h₁ ↦ ?_) fun _ _ h ↦ h.1
  obtain ⟨hkept, rfl, hs₁, -⟩ := h₁
  rw [run_bind, ends_bind]
  refine ends_block.2 ((ends_commitReady_hostsKept hkept fun v hv ↦ ?_).mono (fun _ s₂ h₂ ↦ ?_)
    fun _ _ h ↦ h)
  · rw [hs₁.resources, (hs₁.vm v).resource]
    exact hsearch v hv
  · have hgiveUps : Aside VM.role Event.Plain (forEach
        (fun i vr _ ↦ giveUp (answers.destroy i) vr.1 vr.2) 0
          (s.provisionScratch cfg answers).toDelete ()) :=
      within_forEach_of_forall (fun i vr _ _ ↦ aside_giveUp (answers.destroy i) vr.2) ()
    refine ends_aside_bind (keeps_hostsKept cfg hosts) hgiveUps h₂ (fun _ s₃ h₃ ↦ ?_) fun _ _ h ↦ h
    exact ends_dump_hostsKept (aside_finishProvisioning answers.launch) h₃

end Provisioning

/-! ### Checking the workers -/

section Workers

variable {cfg : Config} {hosts : Hosts} {s s' : State}

/-- A visit takes a VM off the lists only after its line was deleted. -/
theorem Checked.hostsKept {answers : WorkerAnswers} {wn : WorkerNode}
    (hchecked : Checked cfg answers wn s s') (hreleased : Released VM.role s s')
    (h : HostsKept hosts s) : HostsKept hosts s' := by
  refine h.released hreleased fun w hw ↦ ?_
  cases hchecked with
  | looked hs =>
    exact ((Moves.of_scanned hs : Moves (fun _ ↦ False) s _).kept w hw).imp_right False.elim
  | @deleted v s₁ hfound hs =>
    have hmem : v ∈ s₁.existing := hs.existing ▸ mem_existing_of_findVm hfound
    have hmoves : Moves (fun _ ↦ False) s
        { s₁ with existing := s₁.existing.erase v, deleting := s₁.deleting ++ [v] } :=
      (Moves.of_scanned hs).trans (moves_existingToDeleting hmem)
    exact (hmoves.kept w hw).imp_right False.elim
  | @shutDown v _ hidle hshut =>
    by_cases hwv : w = v
    · exact .inr (hwv ▸ lines_eq_zero_of_removed hreleased.trace hshut.hosts)
    · left
      rw [State.mem_tracked, hshut.existing, hshut.starting, hshut.deleting]
      exact (State.mem_tracked.1 hw).imp_left (List.mem_erase_of_ne hwv).2
  | failed hs =>
    left
    rw [State.mem_tracked, hs.existing, hs.starting, hs.deleting]
    exact State.mem_tracked.1 hw

theorem ends_checkExistingWorkerNodes_hostsKept (answers : ℕ → WorkerAnswers)
    (h : HostsKept hosts s) : Ends ((checkExistingWorkerNodes cfg answers).exec cfg) s
      (fun _ ↦ HostsKept hosts) fun _ ↦ HostsKept hosts := by
  rw [checkExistingWorkerNodes, ends_cluster, Proc.exec, run_bind, ends_bind]
  refine (ends_forEach (I := fun _ _ ↦ HostsKept hosts) ?_ h).mono (fun _ s₁ h₁ ↦ ?_)
    fun _ _ h ↦ h
  · intro done wn rest _ s₁ _ h₁
    have hrole : Releases VM.role (checkWorker cfg (answers done.length) wn) :=
      releases_checkWorker (fun _ _ _ _ ↦ rfl) (fun _ _ _ ↦ rfl) (answers done.length) wn
    exact (ends_checkWorker.and hrole.ends).mono
      (fun _ s₂ h₂ ↦ h₂.1.hostsKept h₂.2 h₁) fun _ s₂ h₂ ↦ h₂.1.2.hostsKept h₂.2 h₁
  · exact Aside.ends (g := VM.role) (P := Event.Plain) (keeps_hostsKept cfg hosts)
      (aside_step trivial) h₁

/-- A program that moves VMs among the lists and only releases them. -/
theorem ends_released_hostsKept {p : Proc Unit} (hreleases : Releases VM.role p)
    (hconserves : Conserves (fun _ ↦ False) (p.exec cfg) s) (h : HostsKept hosts s) :
    Ends (p.exec cfg) s (fun _ ↦ HostsKept hosts) fun _ ↦ HostsKept hosts :=
  (Ends.and hreleases.ends hconserves).mono
    (fun _ _ h' ↦ h.released h'.1 fun v hv ↦ (h'.2.kept v hv).imp_right False.elim)
    fun _ _ h' ↦ h.released h'.1 fun v hv ↦ (h'.2.2.kept v hv).imp_right False.elim

end Workers

/-! ### Clean-up -/

section Cleanup

open Locked

variable {cfg : Config} {hosts : Hosts} {s s' : State} {v : VmRef}

/-- An execution that writes neither file. -/
def WritesNothing {α : Type} (x : EStateM PyError State α) : Prop :=
  ∀ s, Ends x s (fun _ ↦ Emits Event.Plain s) fun _ ↦ Emits Event.Plain s

theorem WritesNothing.bind {α β : Type} {x : EStateM PyError State α}
    {f : α → EStateM PyError State β} (hx : WritesNothing x) (hf : ∀ a, WritesNothing (f a)) :
    WritesNothing (x >>= f) := fun s ↦
  ends_bind.2 ((hx s).mono (fun a s₁ h₁ ↦ (hf a s₁).mono (fun _ _ h ↦ h₁.trans h)
    fun _ _ h ↦ h₁.trans h) fun _ _ h ↦ h)

theorem writesNothing_when {c : Prop} [Decidable c] {x : Locked Unit} (hx : WritesNothing x) :
    WritesNothing (Locked.when c x) := fun s ↦
  ends_when (hx s) (.refl s)

theorem writesNothing_get : WritesNothing (get : Locked State) := fun s ↦ .refl s

theorem writesNothing_lift {α : Type} (x : Except PyError α) :
    WritesNothing (Atomic.lift x : Locked α) := fun s ↦
  ends_lift (fun _ _ ↦ .refl s) fun _ _ ↦ .refl s

theorem writesNothing_emit {e : Event} (he : e.Plain) : WritesNothing (Locked.emit e) := fun s ↦
  .emit s he

theorem writesNothing_removeFrom (L : ListName) (v : VmRef) :
    WritesNothing (removeFrom L v) := by
  intro s
  rw [removeFrom, ends_bind, ends_get, ends_bind]
  refine ends_lift (fun xs _ ↦ ?_) fun _ _ ↦ .refl s
  cases L with
  | existing => exact Emits.of_eq rfl
  | starting => exact Emits.of_eq rfl
  | deleting => exact Emits.of_eq rfl

theorem writesNothing_closeFirewall (vm : VM) (names : List String) :
    WritesNothing (closeFirewall cfg vm names) := by
  induction names with
  | nil => exact fun s ↦ .refl s
  | cons res names ih =>
    have hrule : WritesNothing (removeRule cfg vm res) := by
      rw [removeRule.eq_def]
      split
      · exact fun s ↦ .refl s
      · exact fun s ↦ .refl s
      · exact writesNothing_emit trivial
    exact writesNothing_get.bind fun s ↦ (writesNothing_when hrule).bind fun _ ↦ ih

theorem writesNothing_replaceStatic (vm : VM) : WritesNothing (replaceStatic cfg vm) := by
  have hmodify : ∀ f : State → State, (∀ s, (f s).trace = s.trace) →
      WritesNothing (modify f : Locked Unit) := fun f hf s ↦ .of_eq (hf s)
  rw [replaceStatic]
  split
  · exact fun s ↦ .refl s
  · split
    · exact fun s ↦ .refl s
    · refine writesNothing_get.bind fun s ↦ (writesNothing_lift _).bind fun reqs ↦
        WritesNothing.bind (hmodify _ fun _ ↦ rfl) fun _ ↦ ?_
      split
      · split
        · exact hmodify _ fun _ ↦ rfl
        · exact fun s ↦ .refl s
      · exact fun s ↦ .refl s

theorem writesNothing_dropDeleted (vs : List VmRef) : WritesNothing (dropDeleted cfg vs) := by
  induction vs with
  | nil => exact fun s ↦ .refl s
  | cons v vs ih =>
    have hhook : ∀ hook, (Event.command hook v).Plain → WritesNothing (runHook cfg hook v) :=
      fun hook hplain ↦ writesNothing_get.bind fun _ ↦ (writesNothing_lift _).bind fun _ ↦
        writesNothing_emit hplain
    have hdrop : WritesNothing (dropVm cfg v) :=
      (writesNothing_removeFrom .deleting v).bind fun _ ↦
        (hhook .postVmDestroyAction trivial).bind fun _ ↦
          (hhook .postRemoveNodeAction trivial).bind fun _ ↦
          writesNothing_get.bind fun s ↦
            (writesNothing_when (writesNothing_closeFirewall _ _)).bind fun _ ↦
              writesNothing_when (writesNothing_replaceStatic _)
    exact hdrop.bind fun _ ↦ ih

theorem writesNothing_resumeExecuting (vs : List VmRef) : WritesNothing (resumeExecuting vs) := by
  induction vs with
  | nil => exact fun s ↦ .refl s
  | cons v vs ih =>
    have happend : WritesNothing (append .existing v) := fun s ↦ .of_eq rfl
    have hresume : WritesNothing (resumeVm v) :=
      happend.bind fun _ ↦ (writesNothing_removeFrom .deleting v).bind fun _ ↦
        writesNothing_emit trivial
    exact hresume.bind fun _ ↦ ih

/-- The VMs that are gone have no line, so no line is left of them. -/
theorem Dropped.hostsKept {done : List VmRef} (hdropped : Dropped cfg done s s')
    (hplain : Emits Event.Plain s s') (h : HostsKept hosts s)
    (hnone : ∀ v ∈ done, hosts.lines s v = 0) : HostsKept hosts s' := by
  have hlines : ∀ v, hosts.lines s' v ≤ hosts.lines s v :=
    lines_le_of_emits (hplain.mono fun _ he ↦ he.removing)
  have hmoves : Moves (fun v ↦ hosts.lines s' v = 0) s s' :=
    moves_dropped hdropped fun v hv ↦ Nat.le_zero.1 (hnone v hv ▸ hlines v)
  refine h.mono hlines (fun v hv ↦ .inl ?_) hmoves.kept hdropped.nextVm.ge
  rwa [hdropped.vms] at hv

theorem Resumed.hostsKept {vs : List VmRef} (hresumed : Resumed vs s s')
    (hplain : Emits Event.Plain s s') (h : HostsKept hosts s) : HostsKept hosts s' := by
  refine h.mono (lines_le_of_emits (hplain.mono fun _ he ↦ he.removing)) (fun v hv ↦ .inl ?_)
    (moves_resumed hresumed).kept hresumed.nextVm.ge
  rwa [hresumed.vms] at hv

theorem ends_commitCleanup_hostsKept {deleted executing : List VmRef} (h : HostsKept hosts s)
    (hsub : (deleted ++ executing).Subperm s.deleting)
    (hnone : ∀ v ∈ deleted, hosts.lines s v = 0) :
    Ends ((Block.commitCleanup deleted executing).code cfg) s (fun _ ↦ HostsKept hosts)
      fun _ ↦ HostsKept hosts := by
  have hdeleted : deleted.Subperm s.deleting :=
    (List.sublist_append_left _ _).subperm.trans hsub
  refine ends_bind.2 (((ends_dropDeleted hdeleted).and
    (writesNothing_dropDeleted deleted s)).mono (fun _ s₁ h₁ ↦ ?_) ?_)
  · have hkept : HostsKept hosts s₁ := h₁.1.hostsKept h₁.2 h hnone
    have hexecuting : executing.Subperm s₁.deleting := h₁.1.deleting ▸ subperm_diff hsub
    exact ((ends_resumeExecuting hexecuting).and (writesNothing_resumeExecuting executing s₁)).mono
      (fun _ s₂ h₂ ↦ h₂.1.hostsKept h₂.2 hkept) fun _ _ h ↦ h.1.elim
  · rintro e s₁ ⟨⟨-, done, hpre, hdropped⟩, hplain⟩
    exact hdropped.hostsKept hplain h fun v hv ↦ hnone v (hpre.subset hv)

/-- **`check_cleanup`.** -/
theorem ends_checkCleanup_hostsKept {answers : CleanupCalls} (hwf : WellFormed s)
    (h : HostsKept hosts s) (hgone : ∀ v, FoundGone answers s v → hosts.lines s v = 0) :
    Ends ((checkCleanup cfg answers).exec cfg) s (fun _ ↦ HostsKept hosts)
      fun _ ↦ HostsKept hosts := by
  rw [checkCleanup, ends_list]
  split
  · exact h
  · rw [ends_list, Proc.exec, run_bind, ends_bind]
    have hvisits : Aside VM.role Event.Plain (forEach
        (fun i v scratch ↦ cleanupVisit cfg (answers.visit i) v scratch) 0 s.deleting ⟨[], []⟩) :=
      within_forEach_of_forall (fun i v _ scratch ↦ aside_cleanupVisit (answers.visit i) scratch) _
    refine (((Aside.ends (keeps_hostsKept cfg hosts) hvisits h).and
      (Aside.ends (keeps_lines_le cfg hosts (hosts.lines s)) hvisits fun _ ↦ le_rfl)).and
        ends_cleanupScan).mono (fun scratch s₁ h₁ ↦ ?_) fun _ _ h ↦ h.1.1
    obtain ⟨⟨hkept, hlines⟩, hscan⟩ := h₁
    have hsub : (scratch.deleted ++ scratch.executing).Subperm s₁.deleting :=
      hscan.scanned.deleting ▸ hscan.subperm
    have hnone : ∀ v ∈ scratch.deleted, hosts.lines s₁ v = 0 := by
      intro v hv
      have hfound : FoundGone answers s v := (hscan.gone hwf.partition.deleting v hv).1
      exact Nat.le_zero.1 (hgone v hfound ▸ hlines v)
    rw [run_bind, ends_bind]
    refine ends_block.2 ((ends_commitCleanup_hostsKept hkept hsub hnone).mono (fun _ s₂ h₂ ↦ ?_)
      fun _ _ h ↦ h)
    exact ends_dump_hostsKept (aside_launchIfWaiting answers.launch) h₂

end Cleanup

/-! ### Runs -/

/-- Each VM that is added to Torque is added with the first attempt, the static requests of each
ready VM can be searched, and a VM that the clean-up finds gone was never added, or its line was
deleted since. -/
def KeepsHosts (cfg : Config) (s : State) : Operation → Prop
  | .updateProvisionStatus answers => AddedAtOnce s answers ∧
    ∀ v ∈ (s.provisionScratch cfg answers).readyToUse,
      Searchable cfg s.resources (s.vms v).cloudResourceName
  | .checkCleanup answers => ∀ v, FoundGone answers s v → NeverAdded s v ∨ LineDeleted s v
  | _ => True

section Runs

variable {cfg : Config} {hosts : Hosts} {s : State}

/-- **One call.** -/
theorem ends_operation_hostsKept (op : Operation) (hwf : WellFormed s) (h : HostsKept hosts s)
    (hop : KeepsHosts cfg s op) :
    Ends ((op.program cfg).exec cfg) s (fun _ ↦ HostsKept hosts) fun _ ↦ HostsKept hosts := by
  have haside : ∀ {p : Proc Unit}, Aside VM.role Event.Plain p →
      Ends (p.exec cfg) s (fun _ ↦ HostsKept hosts) fun _ ↦ HostsKept hosts := fun hp ↦
    Aside.ends (keeps_hostsKept cfg hosts) hp h
  cases op with
  | killVm vmName force =>
    exact ends_released_hostsKept (releases_killVm (fun _ _ _ _ ↦ rfl) vmName force)
      (conserves_killVm vmName force) h
  | forceoff answers =>
    exact ends_released_hostsKept (releases_forceoff (fun _ _ _ _ ↦ rfl) answers)
      (conserves_forceoff answers) h
  | checkExistingWorkerNodes answers => exact ends_checkExistingWorkerNodes_hostsKept answers h
  | launchInstances answers => exact haside (aside_launchInstances answers)
  | updateProvisionStatus answers =>
    exact ends_updateProvisionStatus_hostsKept hwf h hop.1 hop.2
  | checkCleanup answers =>
    exact ends_checkCleanup_hostsKept hwf h fun v hv ↦ lines_eq_zero (hop v hv)
  | query report => exact haside (aside_step trivial)
  | queueRequests requests => exact haside (aside_step trivial)

theorem HostsKept.run (ops : List Operation) (hwf : WellFormed s) (h : HostsKept hosts s)
    (hops : ∀ before op after, ops = before ++ op :: after →
      KeepsHosts cfg (runOperations cfg before s) op) :
    HostsKept hosts (runOperations cfg ops s) := by
  induction ops generalizing s with
  | nil => exact h
  | cons op ops ih =>
    refine ih (hwf.after op) (stateAfter_of_ends
      (ends_operation_hostsKept op hwf h (hops [] op ops rfl))) fun before op' after hsplit ↦ ?_
    exact hops (op :: before) op' after (by rw [hsplit]; rfl)

end Runs

/-- **The lines of the hosts file follow the life cycle.** In a run from a file without lines of
VMs, in which each VM is added to Torque with the first attempt and the line of a VM that was added
is deleted before it is found gone, every VM has at most one line, and a VM that is in no list has
none. -/
theorem hosts_of_run (cfg : Config) (hosts : Hosts) (ops : List Operation) (s : State)
    (hwf : WellFormed s) (hfile : ∀ v, hosts.lines s v = 0)
    (hops : ∀ before op after, ops = before ++ op :: after →
      KeepsHosts cfg (runOperations cfg before s) op) (v : VmRef) :
    hosts.lines (runOperations cfg ops s) v ≤ 1 ∧
      (v ∉ (runOperations cfg ops s).tracked → hosts.lines (runOperations cfg ops s) v = 0) := by
  have hkept : HostsKept hosts s :=
    ⟨fun v ↦ (hfile v).trans_le (Nat.zero_le 1), fun v _ ↦ hfile v, fun v _ ↦ hfile v,
      fun v _ ↦ hfile v⟩
  have hrun := hkept.run ops hwf hops
  exact ⟨hrun.one v, hrun.untracked v⟩

/-- One VM is being started. -/
def oneStarting : State :=
  { State.initial JobScheduler.threeNodes with
    starting := [0]
    nextVm := 1
    vms := fun _ ↦ VM.init "id" "wn1" 2 none 0 none (some "image") "default" }

/-- The name and address of each VM. -/
def wn1 : Hosts :=
  { others := ["127.0.0.1\tlocalhost"], host := fun _ ↦ ⟨"10.0.0.1", "wn1"⟩ }

/-- The VM is ready in the cloud, and in Torque once it is added; the attempts to add it and Maui
answer as given. -/
def addedAfter (addNode : ℕ → Bool) (checkNode : ℕ → Option String) : UpdateAnswers where
  visit _ :=
    { report := some ⟨"ACTIVE", 0, "active", none, some "10.0.0.1", "image",
        some ⟨"3", "m1.large", 4⟩, some ⟨"3", "m1.large", 4⟩, true⟩
      now := 0
      addNode := addNode
      checkNode := checkNode
      wnQuery := (true, [])
      wnInTorque := .record ⟨"wn1", "free", none⟩ }
  destroy _ := ⟨.deleted, 0⟩
  launch _ := none

/-- A clean-up that finds every VM gone. -/
def allGone : CleanupCalls where
  visit _ := ⟨none, .notLocated, 0, ⟨.failed, 0⟩⟩
  launch _ := none

/-- The VM is added to Torque with the first attempt. -/
def addedAtOnce : Operation :=
  .updateProvisionStatus (addedAfter (fun _ ↦ true) fun _ ↦ some "free")

/-- The VM is added to Torque, becomes ready, and is forced off. -/
def addedAndForcedOff : List Operation :=
  [addedAtOnce, addedAtOnce, .forceoff ⟨fun _ ↦ ⟨.deleted, 0⟩, fun _ ↦ ⟨.deleted, 0⟩⟩,
    .checkCleanup allGone]

theorem wellFormed_oneStarting : WellFormed oneStarting :=
  ⟨partition_iff.2 (by decide), by decide⟩

theorem keepsHosts_addedAtOnce {s : State} {vs : List VmRef}
    (hready : (s.provisionScratch {}
      (addedAfter (fun _ ↦ true) fun _ ↦ some "free")).readyToUse = vs)
    (hsearch : ∀ v ∈ vs, s.resources.staticVmsToStart (s.vms v).cloudResourceName "need_vm" =
      .ok []) : KeepsHosts {} s addedAtOnce := by
  refine ⟨fun _ _ _ _ _ ↦ rfl, fun v hv ↦ ⟨[], hsearch v (hready ▸ hv), .inr nofun⟩⟩

theorem hosts_of_run_forcedOff :
    wn1.lines (runOperations {} addedAndForcedOff oneStarting) 0 = 0 := by
  refine (hosts_of_run {} wn1 addedAndForcedOff oneStarting wellFormed_oneStarting (fun _ ↦ rfl)
    ?_ 0).2 (by decide +kernel)
  intro before op after hsplit
  rcases before with _ | ⟨a, _ | ⟨b, _ | ⟨c, _ | ⟨d, before⟩⟩⟩⟩
  · obtain ⟨rfl, -⟩ := List.cons.inj hsplit
    have hready : (State.provisionScratch {} oneStarting
      (addedAfter (fun _ ↦ true) fun _ ↦ some "free")).readyToUse = [] := by decide +kernel
    exact keepsHosts_addedAtOnce hready nofun
  · simp only [addedAndForcedOff, List.cons_append, List.nil_append, List.cons.injEq] at hsplit
    obtain ⟨rfl, rfl, -⟩ := hsplit
    have hready : (State.provisionScratch {} (runOperations {} [addedAtOnce] oneStarting)
      (addedAfter (fun _ ↦ true) fun _ ↦ some "free")).readyToUse = [0] := by decide +kernel
    exact keepsHosts_addedAtOnce hready (List.forall_mem_singleton.2 rfl)
  · simp only [addedAndForcedOff, List.cons_append, List.nil_append, List.cons.injEq] at hsplit
    obtain ⟨-, -, rfl, -⟩ := hsplit
    trivial
  · simp only [addedAndForcedOff, List.cons_append, List.nil_append, List.cons.injEq] at hsplit
    obtain ⟨rfl, rfl, rfl, rfl, -⟩ := hsplit
    rintro v ⟨i, hget, -⟩
    have hv : v ∈ [0] := List.mem_of_getElem? hget
    obtain rfl := List.mem_singleton.1 hv
    let trace := (runOperations {} (addedAndForcedOff.take 3) oneStarting).trace
    refine .inr ⟨trace.take 6, trace.drop 7, by decide +kernel, ?_⟩
    have hafter : trace.drop 7 = [.command .removeNodeFromKnownHostsFile 0,
        .vmDestroy 0 none true .deleted] := by decide +kernel
    simp [hafter, Event.Adds]
  · simp [addedAndForcedOff] at hsplit

/-- A second attempt writes a second line, and the line of a VM that Maui does not know is left when
the VM is gone. -/
theorem lines_left :
    (¬∀ (cfg : Config) (hosts : Hosts) (answers : UpdateAnswers) (s : State), WellFormed s →
      (∀ v, hosts.lines s v = 0) → ∀ v, hosts.lines
        (runOperations cfg [.updateProvisionStatus answers] s) v ≤ 1) ∧
    ¬∀ (cfg : Config) (hosts : Hosts) (answers : UpdateAnswers) (cleanup : CleanupCalls)
      (s : State),
      WellFormed s → (∀ v, hosts.lines s v = 0) → ∀ v,
        v ∉ (runOperations cfg [.updateProvisionStatus answers, .checkCleanup cleanup] s).tracked →
          hosts.lines (runOperations cfg
            [.updateProvisionStatus answers, .checkCleanup cleanup] s) v = 0 := by
  constructor
  · intro h
    have htwo : wn1.lines (runOperations {} [.updateProvisionStatus
        (addedAfter (fun i ↦ i == 1) fun _ ↦ some "free")] oneStarting) 0 = 2 := by decide +kernel
    have hone := h {} wn1 (addedAfter (fun i ↦ i == 1) fun _ ↦ some "free") oneStarting
      wellFormed_oneStarting (fun _ ↦ rfl) 0
    omega
  · intro h
    have hnone := h {} wn1 (addedAfter (fun _ ↦ true) fun _ ↦ none) allGone oneStarting
      wellFormed_oneStarting (fun _ ↦ rfl) 0 (by decide +kernel)
    have hone : wn1.lines (runOperations {} [.updateProvisionStatus
        (addedAfter (fun _ ↦ true) fun _ ↦ none), .checkCleanup allGone] oneStarting) 0 = 1 := by
      decide +kernel
    omega

end DynamicTorque
