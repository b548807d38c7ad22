import DynamicTorque.LifeCycle.Footprints
import DynamicTorque.Model.StartUp
import DynamicTorque.Scheduler.Packing

/-!
# How long a worker was idle

`check_existing_worker_nodes` measures how long a worker has been idle with `state_time`, which
grows by one interval each time Maui reports the state it reported before. It shuts an idle worker
down when Maui reports the node as free, no jobs are on it, and `state_time` exceeds
`max_idle_time`. Maui reports a node as free while some of its cores are free, jobs or not.

* `freeSince_of_polledUntil`: `state_time` counts the polls in a row that found the node free.
* `idle_before_shutDown_iff`: so a worker that is shut down has been free for long enough, and it
  has been idle for long enough exactly if the polls of that time found no jobs on it.
-/

open Python Atomic Program

namespace DynamicTorque

/-! ### Rows of observations -/

/-- What a poll sees of a node: the state that Maui reports and whether Torque lists jobs. -/
structure Observation where
  state : Option String
  jobs : Bool
  deriving DecidableEq, Repr

/-- Maui reports the node as free. -/
def Observation.Free (o : Observation) : Prop := o.state = some "free"

/-- Torque lists no jobs on the node. -/
def Observation.NoJobs (o : Observation) : Prop := o.jobs = false

/-- The last `n` observations of a history, which has the newest first. -/
def LastAll (P : Observation → Prop) (n : ℕ) (history : List Observation) : Prop :=
  n ≤ history.length ∧ ∀ o ∈ history.take n, P o

/-- The last polls that cover more than `max_idle_time`, one interval from each to the next. -/
def ForLong (cfg : Config) (P : Observation → Prop) (history : List Observation) : Prop :=
  ∃ n : ℕ, cfg.maxIdleTime < n * cfg.jobPollerInterval ∧ LastAll P (n + 1) history

section

variable {P Q : Observation → Prop} {n m : ℕ} {history : List Observation} {o : Observation}

theorem LastAll.cons (ho : P o) (h : LastAll P n history) : LastAll P (n + 1) (o :: history) := by
  refine ⟨Nat.succ_le_succ h.1, ?_⟩
  rw [List.take_succ_cons]
  exact List.forall_mem_cons.2 ⟨ho, h.2⟩

theorem LastAll.mono (h : LastAll P n history) (hle : m ≤ n) : LastAll P m history :=
  ⟨hle.trans h.1, fun o ho ↦ h.2 o (List.take_subset_take_left history hle ho)⟩

theorem LastAll.imp (h : LastAll P n history) (hPQ : ∀ o, P o → Q o) : LastAll Q n history :=
  ⟨h.1, fun o ho ↦ hPQ o (h.2 o ho)⟩

theorem LastAll.and (h : LastAll P n history) (h' : LastAll Q n history) :
    LastAll (fun o ↦ P o ∧ Q o) n history :=
  ⟨h.1, fun o ho ↦ ⟨h.2 o ho, h'.2 o ho⟩⟩

theorem ForLong.imp {cfg : Config} (h : ForLong cfg P history)
    (hPQ : ∀ o ∈ history, P o → Q o) : ForLong cfg Q history := by
  obtain ⟨n, hn, hle, hP⟩ := h
  exact ⟨n, hn, hle, fun o ho ↦ hPQ o (List.mem_of_mem_take ho) (hP o ho)⟩

/-- Of two rows that are long enough, the shorter one has both properties. -/
theorem forLong_and {cfg : Config} (h : ForLong cfg P history) :
    ForLong cfg (fun o ↦ P o ∧ Q o) history ↔ ForLong cfg Q history := by
  obtain ⟨n, hn, hP⟩ := h
  constructor
  · rintro ⟨m, hm, hPQ⟩
    exact ⟨m, hm, hPQ.imp fun _ ho ↦ ho.2⟩
  · rintro ⟨m, hm, hQ⟩
    rcases le_total n m with hle | hle
    · exact ⟨n, hn, hP.and (hQ.mono (by omega))⟩
    · exact ⟨m, hm, (hP.mono (by omega)).and hQ⟩

end

/-! ### What a visit records -/

/-- The fields that a visit records. -/
def VM.report (vm : VM) : Option String × Option ℤ :=
  (vm.state, vm.stateTime)

section

variable {cfg : Config} {s : State} {v : VmRef}

/-- What a visit of the node `wn` does to the report of `v`. -/
structure Reported (cfg : Config) (answers : WorkerAnswers) (wn : WorkerNode) (v : VmRef)
    (s s' : State) : Prop where
  other : s.findVm wn.name ≠ some v → (s'.vms v).report = (s.vms v).report
  own : s.findVm wn.name = some v →
    (∃ t, stateTimeAfter cfg (s.vms v) answers.checkNode = .ok t ∧
      (s'.vms v).report = (answers.checkNode, some t)) ∨
    (∃ e, stateTimeAfter cfg (s.vms v) answers.checkNode = .error e) ∧
      (s'.vms v).report = (s.vms v).report

theorem ends_checkWorker_report {answers : WorkerAnswers} {wn : WorkerNode} :
    Ends ((checkWorker cfg answers wn).exec cfg) s
      (fun _ ↦ Reported cfg answers wn v s) fun _ ↦ Reported cfg answers wn v s := by
  rw [checkWorker, ends_findVm]
  split
  · rename_i hfound
    exact ⟨fun _ ↦ rfl, fun hown ↦ absurd (hfound.symm.trans hown) (Option.some_ne_none v).symm⟩
  · rename_i w hfound
    rw [Proc.exec, run_bind, ends_bind]
    refine (ends_recordState _).mono ?_ ?_
    · rintro - s₁ ⟨t, ht, rfl⟩
      -- the rest of the visit keeps what is recorded
      have hreported : ∀ {s'}, (s'.vms v).report = ((((s.setVm w fun vm ↦
          { vm with stateTime := some t }).setVm w fun vm ↦
            { vm with state := answers.checkNode }).vms v).report) →
              Reported cfg answers wn v s s' := by
        intro s' hs'
        constructor
        · intro hother
          have hne : v ≠ w := fun heq ↦ hother (heq ▸ hfound)
          simpa [State.setVm, hne] using hs'
        · intro hown
          obtain rfl : w = v := Option.some.inj (hfound.symm.trans hown)
          exact .inl ⟨t, ht, by simpa [State.setVm, VM.report] using hs'⟩
      have hkeep : Releases VM.report (do
          holdOtherImage cfg w
          if wn.jobs = none then
            let toDelete ← checkIdleWorker cfg answers wn w
            Program.when toDelete (Proc.locked (.existingToDeleting w))
          else pure ()) := releases_afterReport (fun _ _ _ _ ↦ rfl) answers wn w
      exact hkeep.ends.mono (fun _ s' h ↦ hreported (h.vm v)) fun _ s' h ↦ hreported (h.vm v)
    · rintro e s' ⟨he, rfl⟩
      refine ⟨fun _ ↦ rfl, fun hown ↦ .inr ⟨⟨e, ?_⟩, rfl⟩⟩
      obtain rfl : w = v := Option.some.inj (hfound.symm.trans hown)
      exact he

end

/-! ### Polls -/

/-- What the visits from the `i`-th on see of `v`, the newest first. -/
def observations (cfg : Config) (v : VmRef) (answers : ℕ → WorkerAnswers) :
    ℕ → List WorkerNode → State → List Observation
  | _, [], _ => []
  | i, wn :: wns, s =>
    let seen : List Observation :=
      if s.findVm wn.name = some v then [⟨(answers i).checkNode, wn.jobs.isSome⟩] else []
    match (checkWorker cfg (answers i) wn).exec cfg s with
    | .ok _ s' => observations cfg v answers (i + 1) wns s' ++ seen
    | .error _ _ => seen

/-- The state after a call of `check_existing_worker_nodes`. -/
def afterPoll (cfg : Config) (answers : ℕ → WorkerAnswers) (s : State) : State :=
  stateAfter ((checkExistingWorkerNodes cfg answers).exec cfg) s

/-- What a call of `check_existing_worker_nodes` sees of `v`, the newest first. -/
def observed (cfg : Config) (v : VmRef) (answers : ℕ → WorkerAnswers) (s : State) :
    List Observation :=
  observations cfg v answers 0 s.cluster.workerNodes s

/-- A state that is reached with this history of observations of `v`, from one in which no poll has
found the node free yet. Between two polls anything can happen that does not make the VM look free:
the queries change the nodes and jobs, and a status check records the status in the cloud. -/
inductive PolledUntil (cfg : Config) (v : VmRef) : List Observation → State → Prop
  | start {s : State} (h : (s.vms v).state = some "free" → (s.vms v).stateTime = none) :
    PolledUntil cfg v [] s
  | poll {history : List Observation} {s : State} (answers : ℕ → WorkerAnswers)
    (h : PolledUntil cfg v history s) :
    PolledUntil cfg v (observed cfg v answers s ++ history) (afterPoll cfg answers s)
  | other {history : List Observation} {s s' : State} (h : PolledUntil cfg v history s)
    (hfree : (s'.vms v).state = some "free" → (s'.vms v).report = (s.vms v).report) :
    PolledUntil cfg v history s'

/-- **The meaning of `state_time`.** Where the last report was that the node is free, it is the time
that the last polls cover that found the node free. -/
def FreeSince (cfg : Config) (v : VmRef) (history : List Observation) (s : State) : Prop :=
  (s.vms v).state = some "free" → ∀ t, (s.vms v).stateTime = some t →
    ∃ n : ℕ, t = n * cfg.jobPollerInterval ∧ LastAll Observation.Free (n + 1) history

section

variable {cfg : Config} {v : VmRef} {answers : ℕ → WorkerAnswers} {s s' : State}
  {history : List Observation} {wn : WorkerNode}

/-- A visit that reports the node as free extends the row, or starts one. -/
theorem FreeSince.extend {o : Observation} (h : FreeSince cfg v history s) (ho : o.Free) {t : ℤ}
    (ht : stateTimeAfter cfg (s.vms v) o.state = .ok t) :
    ∃ n : ℕ, t = n * cfg.jobPollerInterval ∧ LastAll Observation.Free (n + 1) (o :: history) := by
  rw [stateTimeAfter] at ht
  split at ht
  · -- the state is new
    obtain rfl := Except.ok.inj ht
    exact ⟨0, by simp, LastAll.cons ho ⟨Nat.zero_le _, by simp⟩⟩
  · rename_i hsame
    split at ht
    · rename_i t₀ ht₀
      obtain rfl := Except.ok.inj ht
      obtain ⟨n, hn, hlast⟩ := h ((not_not.1 hsame).trans ho) t₀ ht₀
      refine ⟨n + 1, ?_, hlast.cons ho⟩
      rw [hn, Int.natCast_succ, Int.add_mul, Int.one_mul]
    · cases ht

/-- **One visit** keeps the meaning of `state_time`. -/
theorem FreeSince.visit {a : WorkerAnswers} (h : FreeSince cfg v history s)
    (hvisit : Reported cfg a wn v s s') :
    FreeSince cfg v ((if s.findVm wn.name = some v then [⟨a.checkNode, wn.jobs.isSome⟩] else []) ++
      history) s' := by
  split
  · rename_i hfound
    rcases hvisit.own hfound with ⟨t, ht, hreport⟩ | ⟨⟨e, he⟩, hreport⟩
    · obtain ⟨hstate, htime⟩ := Prod.mk.inj hreport
      intro hfree t' ht'
      obtain rfl : t = t' := Option.some.inj (htime.symm.trans ht')
      exact FreeSince.extend (o := ⟨a.checkNode, wn.jobs.isSome⟩) h (hstate.symm.trans hfree) ht
    · -- the visit has raised: there was no `state_time`
      obtain ⟨hstate, htime⟩ := Prod.mk.inj hreport
      intro hfree t' ht'
      rw [stateTimeAfter] at he
      split at he
      · cases he
      · split at he
        · cases he
        · rename_i hnone
          rw [htime, hnone] at ht'
          cases ht'
  · rename_i hother
    obtain ⟨hstate, htime⟩ := Prod.mk.inj (hvisit.other hother)
    intro hfree t ht
    exact h (hstate ▸ hfree) t (htime ▸ ht)

/-! #### All visits of a poll -/

/-- The visits of a poll, from the `i`-th on. -/
def visits (cfg : Config) (answers : ℕ → WorkerAnswers) (i : ℕ) (wns : List WorkerNode) :
    Proc Unit :=
  Program.forEach (fun i wn _ ↦ checkWorker cfg (answers i) wn) i wns ()

theorem exec_visits_cons {i : ℕ} {wns : List WorkerNode} :
    (visits cfg answers i (wn :: wns)).exec cfg s =
      match (checkWorker cfg (answers i) wn).exec cfg s with
      | .ok _ s' => (visits cfg answers (i + 1) wns).exec cfg s'
      | .error e s' => .error e s' := by
  rw [visits, Program.forEach]
  simp only [Proc.exec, run_bind]
  show EStateM.bind _ _ s = _
  rw [EStateM.bind]
  cases (checkWorker cfg (answers i) wn).run (exec cfg) s <;> rfl

/-- A visit, then the others. -/
theorem ends_visits_cons {i : ℕ} {wns : List WorkerNode} {P : State → Prop}
    (hok : ∀ u s', (checkWorker cfg (answers i) wn).exec cfg s = .ok u s' →
      Ends ((visits cfg answers (i + 1) wns).exec cfg) s' (fun _ ↦ P) fun _ ↦ P)
    (herror : ∀ e s', (checkWorker cfg (answers i) wn).exec cfg s = .error e s' → P s') :
    Ends ((visits cfg answers i (wn :: wns)).exec cfg) s (fun _ ↦ P) fun _ ↦ P := by
  rw [Ends, exec_visits_cons]
  cases hx : (checkWorker cfg (answers i) wn).exec cfg s with
  | ok u s' => exact hok u s' hx
  | error e s' => exact herror e s' hx

theorem freeSince_visits (i : ℕ) (wns : List WorkerNode) (h : FreeSince cfg v history s) :
    Ends ((visits cfg answers i wns).exec cfg) s
      (fun _ ↦ FreeSince cfg v (observations cfg v answers i wns s ++ history))
      fun _ ↦ FreeSince cfg v (observations cfg v answers i wns s ++ history) := by
  induction wns generalizing i s history with
  | nil => exact h
  | cons wn wns ih =>
    refine ends_visits_cons (fun u s₁ hx ↦ ?_) fun e s₁ hx ↦ ?_
    · simp only [observations, hx, List.append_assoc]
      exact ih (i + 1) (h.visit (ends_checkWorker_report.of_ok hx))
    · simp only [observations, hx]
      exact h.visit (ends_checkWorker_report.of_error hx)

/-- VMs that are being deleted stay so. -/
theorem Checked.deleting {a : WorkerAnswers} (h : Checked cfg a wn s s') (hv : v ∈ s.deleting) :
    v ∈ s'.deleting := by
  cases h with
  | looked h => rwa [h.deleting]
  | deleted _ h => exact List.mem_append_left _ (h.deleting ▸ hv)
  | shutDown _ h => rwa [h.deleting]
  | failed h => rwa [h.deleting]

theorem deleting_visits (i : ℕ) (wns : List WorkerNode) (hv : v ∈ s.deleting) :
    Ends ((visits cfg answers i wns).exec cfg) s (fun _ s' ↦ v ∈ s'.deleting)
      fun _ s' ↦ v ∈ s'.deleting := by
  induction wns generalizing i s with
  | nil => exact hv
  | cons wn wns ih =>
    exact ends_visits_cons (fun u s₁ hx ↦ ih (i + 1) ((ends_checkWorker.of_ok hx).deleting hv))
      fun e s₁ hx ↦ (ends_checkWorker.of_error hx).2.deleting hv

/-- A VM that does not exist any more is not seen. -/
theorem observations_eq_nil (i : ℕ) (wns : List WorkerNode) (hv : v ∉ s.existing) :
    observations cfg v answers i wns s = [] := by
  induction wns generalizing i s with
  | nil => rfl
  | cons wn wns ih =>
    have hfound : s.findVm wn.name ≠ some v := fun h ↦ hv (mem_existing_of_findVm h)
    rw [observations, if_neg hfound]
    split
    · rename_i u s₁ hx
      rw [ih (i + 1) ((ends_checkWorker.of_ok hx).existing hv)]
      rfl
    · rfl

/-- A visit after which the VM neither exists nor is being deleted has shut it down. -/
theorem Checked.forLong_free {a : WorkerAnswers} (hfree : FreeSince cfg v history s)
    (h : Checked cfg a wn s s') (hv : v ∈ s.existing) (hgone : v ∉ s'.existing)
    (hdeleting : v ∉ s'.deleting) :
    s.findVm wn.name = some v ∧
      ForLong cfg Observation.Free (⟨a.checkNode, wn.jobs.isSome⟩ :: history) := by
  cases h with
  | looked h => exact absurd (h.existing ▸ hv) hgone
  | @deleted w s₁ _ h =>
    by_cases hw : v = w
    · exact absurd (List.mem_append_right _ (by simp [hw])) hdeleting
    · exact absurd ((List.mem_erase_of_ne hw).2 (h.existing ▸ hv)) hgone
  | @shutDown w _ hidle h =>
    by_cases hw : v = w
    · obtain ⟨hstate, t, ht, hlong⟩ := hw ▸ hidle.idle
      obtain ⟨n, rfl, hlast⟩ :=
        FreeSince.extend (o := ⟨a.checkNode, wn.jobs.isSome⟩) hfree hstate ht
      exact ⟨hw ▸ hidle.found, n, hlong, hlast⟩
    · exact absurd (h.existing ▸ (List.mem_erase_of_ne hw).2 hv) hgone
  | failed h => exact absurd (h.existing ▸ hv) hgone

/-- **A poll that shuts the VM down** is the last of a row of polls that found the node free for
long enough. -/
theorem forLong_visits (i : ℕ) (wns : List WorkerNode) (h : FreeSince cfg v history s)
    (hv : v ∈ s.existing) :
    Ends ((visits cfg answers i wns).exec cfg) s
      (fun _ s' ↦ v ∉ s'.existing → v ∉ s'.deleting →
        ForLong cfg Observation.Free (observations cfg v answers i wns s ++ history))
      fun _ s' ↦ v ∉ s'.existing → v ∉ s'.deleting →
        ForLong cfg Observation.Free (observations cfg v answers i wns s ++ history) := by
  induction wns generalizing i s history with
  | nil => exact fun hgone _ ↦ absurd hv hgone
  | cons wn wns ih =>
    refine ends_visits_cons (fun u s₁ hx ↦ ?_) fun e s₁ hx hgone hdeleting ↦ ?_
    · simp only [observations, hx, List.append_assoc]
      by_cases hv₁ : v ∈ s₁.existing
      · exact ih (i + 1) (h.visit (ends_checkWorker_report.of_ok hx)) hv₁
      · -- gone with this visit, so it is not seen again
        rw [observations_eq_nil (i + 1) wns hv₁]
        by_cases hdeleting₁ : v ∈ s₁.deleting
        · exact (deleting_visits (i + 1) wns hdeleting₁).mono
            (fun _ _ hin _ hout ↦ absurd hin hout) fun _ _ hin _ hout ↦ absurd hin hout
        · obtain ⟨hfound, hlong⟩ :=
            (ends_checkWorker.of_ok hx).forLong_free h hv hv₁ hdeleting₁
          rw [if_pos hfound]
          exact (freeSince_visits (i + 1) wns (h.visit (ends_checkWorker_report.of_ok hx))).mono
            (fun _ _ _ _ _ ↦ hlong) fun _ _ _ _ _ ↦ hlong
    · obtain ⟨hfound, hlong⟩ := (ends_checkWorker.of_error hx).2.forLong_free h hv hgone hdeleting
      simp only [observations, hx, if_pos hfound]
      exact hlong

/-! #### Whole polls -/

/-- A poll is its visits: what follows them changes neither the VMs nor the lists. -/
theorem afterPoll_of_visits {P : State → Prop}
    (hP : ∀ s', P s' → P s'.updateAvailableCores)
    (h : Ends ((visits cfg answers 0 s.cluster.workerNodes).exec cfg) s (fun _ ↦ P) fun _ ↦ P) :
    P (afterPoll cfg answers s) := by
  refine stateAfter_of_ends ?_
  rw [checkExistingWorkerNodes, ends_cluster, Proc.exec, run_bind, ends_bind]
  exact h.mono (fun _ s' h ↦ hP s' h) fun _ _ h ↦ h

/-- `state_time` has its meaning in every state that is reached. -/
theorem freeSince_of_polledUntil (h : PolledUntil cfg v history s) :
    FreeSince cfg v history s := by
  induction h with
  | start h =>
    intro hfree t ht
    rw [h hfree] at ht
    exact nomatch ht
  | poll answers _ ih =>
    exact afterPoll_of_visits (fun _ h ↦ h) (freeSince_visits 0 _ ih)
  | other _ hsame ih =>
    intro hfree t ht
    obtain ⟨hstate, htime⟩ := Prod.mk.inj (hsame hfree)
    exact ih (hstate ▸ hfree) t (htime ▸ ht)

end

/-- **A worker that is shut down as idle has been free for long enough, and it has been idle for
long enough exactly if the polls of that time found no jobs on it**, so in every run in which no
poll finds the node free with jobs on it. The poll is the one after which the VM neither exists nor
is being deleted; it is the newest of the history. -/
theorem idle_before_shutDown_iff (cfg : Config) (v : VmRef) (history : List Observation) (s : State)
    (answers : ℕ → WorkerAnswers) (hrun : PolledUntil cfg v history s) (hexisting : v ∈ s.existing)
    (hgone : v ∉ (afterPoll cfg answers s).existing)
    (hdeleting : v ∉ (afterPoll cfg answers s).deleting) :
    ForLong cfg Observation.Free (observed cfg v answers s ++ history) ∧
    (ForLong cfg (fun o ↦ o.Free ∧ o.NoJobs) (observed cfg v answers s ++ history) ↔
      ForLong cfg Observation.NoJobs (observed cfg v answers s ++ history)) ∧
    ((∀ o ∈ observed cfg v answers s ++ history, o.Free → o.NoJobs) →
      ForLong cfg (fun o ↦ o.Free ∧ o.NoJobs) (observed cfg v answers s ++ history)) := by
  have hpoll : v ∉ (afterPoll cfg answers s).existing → v ∉ (afterPoll cfg answers s).deleting →
      ForLong cfg Observation.Free (observed cfg v answers s ++ history) :=
    afterPoll_of_visits
      (P := fun s' ↦ v ∉ s'.existing → v ∉ s'.deleting →
        ForLong cfg Observation.Free (observed cfg v answers s ++ history))
      (fun _ h ↦ h) (forLong_visits 0 _ (freeSince_of_polledUntil hrun) hexisting)
  have hfree : ForLong cfg Observation.Free (observed cfg v answers s ++ history) :=
    hpoll hgone hdeleting
  exact ⟨hfree, forLong_and hfree, fun hnone ↦ hfree.imp fun o ho h ↦ ⟨h, hnone o ho h⟩⟩

/-! ### A busy worker that is shut down as idle -/

/-- A worker is idle for too long after ten seconds, one interval. -/
def impatient : Config := { maxIdleTime := 10 }

/-- One dynamic worker, with the jobs of its node. -/
def oneDynamic (jobs : Option String) : State :=
  { State.initial JobScheduler.threeNodes with
    existing := [0]
    nextVm := 1
    vms := fun _ ↦
      { VM.init "id" "wn1" 2 none 0 none (some "image") "default" with state := some "ACTIVE" }
    cluster :=
      { (State.initial JobScheduler.threeNodes).cluster with
        workerNodes := [⟨"wn1", "free", jobs⟩] } }

/-- Maui reports each node as free. -/
def allFree (_ : ℕ) : WorkerAnswers :=
  { checkNode := some "free", destroy := ⟨.deleted, 0⟩ }

/-- The job on the node has ended. -/
def withoutJobs (s : State) : State :=
  { s with cluster := { s.cluster with workerNodes := [⟨"wn1", "free", none⟩] } }

/-- The state after two polls. -/
def polledTwice (jobs : Option String) : State :=
  afterPoll impatient allFree (afterPoll impatient allFree (oneDynamic jobs))

theorem polledUntil_polledTwice (jobs : Option String) :
    PolledUntil impatient 0 (observed impatient 0 allFree (afterPoll impatient allFree
      (oneDynamic jobs)) ++ (observed impatient 0 allFree (oneDynamic jobs) ++ []))
      (withoutJobs (polledTwice jobs)) := by
  refine .other (.poll allFree (.poll allFree (.start fun h ↦ ?_))) fun _ ↦ ?_
  · exact absurd (show some "ACTIVE" = some "free" from h) (by decide)
  · rw [withoutJobs, polledTwice]

/-- A worker without jobs, which is shut down with the third poll. -/
theorem idle_before_shutDown_iff_oneDynamic :
    ForLong impatient (fun o ↦ o.Free ∧ o.NoJobs) (observed impatient 0 allFree
      (withoutJobs (polledTwice none)) ++ (observed impatient 0 allFree (afterPoll impatient allFree
        (oneDynamic none)) ++ (observed impatient 0 allFree (oneDynamic none) ++ []))) := by
  refine (idle_before_shutDown_iff impatient 0 _ _ allFree (polledUntil_polledTwice none)
    (by decide +kernel) (by decide +kernel) (by decide +kernel)).2.1.2 ⟨2, by decide, ?_⟩
  have hhistory : observed impatient 0 allFree (withoutJobs (polledTwice none)) ++
      (observed impatient 0 allFree (afterPoll impatient allFree (oneDynamic none)) ++
        (observed impatient 0 allFree (oneDynamic none) ++ [])) =
          List.replicate 3 ⟨some "free", false⟩ := by decide +kernel
  rw [hhistory]
  exact ⟨by decide, fun o ho ↦ (List.eq_of_mem_replicate (List.mem_of_mem_take ho)) ▸ rfl⟩

/-- A worker that had a job until just before the third poll is shut down by it. -/
theorem busy_worker_shutDown :
    ¬∀ (cfg : Config) (v : VmRef) (history : List Observation) (s : State)
      (answers : ℕ → WorkerAnswers), PolledUntil cfg v history s → v ∈ s.existing →
      (s.vms v).dynamic = true → v ∉ (afterPoll cfg answers s).existing →
      v ∉ (afterPoll cfg answers s).deleting →
        ForLong cfg (fun o ↦ o.Free ∧ o.NoJobs) (observed cfg v answers s ++ history) := by
  intro h
  obtain ⟨n, hn, hlast⟩ := h impatient 0 _ _ allFree (polledUntil_polledTwice (some "0/1.server"))
    (by decide +kernel) (by decide +kernel) (by decide +kernel) (by decide +kernel)
  have hhistory : observed impatient 0 allFree (withoutJobs (polledTwice (some "0/1.server"))) ++
      (observed impatient 0 allFree (afterPoll impatient allFree
        (oneDynamic (some "0/1.server"))) ++
        (observed impatient 0 allFree (oneDynamic (some "0/1.server")) ++ [])) =
          [⟨some "free", false⟩, ⟨some "free", true⟩, ⟨some "free", true⟩] := by decide +kernel
  rw [hhistory] at hlast
  have htwo : 2 ≤ n := by
    have hten : (10 : ℤ) < n * 10 := hn
    omega
  have hlast₂ := hlast.mono (show 2 ≤ n + 1 by omega)
  have hbusy : true = false := (hlast₂.2 ⟨some "free", true⟩ (by decide)).2
  exact nomatch hbusy

end DynamicTorque
