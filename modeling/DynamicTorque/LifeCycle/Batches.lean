import DynamicTorque.LifeCycle.Launching
import DynamicTorque.Model.StartUp
import DynamicTorque.Scheduler.Packing

/-!
# Batches

One call of `launch_instances` fills the starting list up to `vm_creation_batch_number`. It walks
the waiting list and remembers the entries that were started or are not needed any more; at its end
it takes them off the list with `list.remove`, which takes the first entry that is the same object.
A request object can be listed many times.

* `diff_take_append_filter`: taking entries off by identity comes to cutting the list.
* `ends_launchBatch`: the loop starts the entries in order, until the batch is full or a start
  fails.
* `launch_batch`: what a call leaves of the waiting list.
-/

open Python Atomic Program

namespace DynamicTorque

/-! ### Taking entries off a list -/

section Diff

variable {α : Type} [DecidableEq α]

/-- Taking off the first elements, one after another. -/
theorem diff_take (xs : List α) (k : ℕ) : xs.diff (xs.take k) = xs.drop k := by
  induction k generalizing xs with
  | zero => simp
  | succ k ih =>
    cases xs with
    | nil => rfl
    | cons x xs => simpa using ih xs

/-- **Removal by identity is cutting.** The first elements and those with a property among the
others are taken off. -/
theorem diff_take_append_filter (p : α → Bool) (xs : List α) (k : ℕ) :
    xs.diff (xs.take k ++ (xs.drop k).filter p) = (xs.drop k).filter fun x ↦ !p x := by
  rw [List.diff_append, diff_take, diff_filter]

end Diff

/-! ### Starting entries -/

/-- The VM that a start makes for a request. -/
def startedVm (cfg : Config) (crs : CloudResources) (request : ProvisionVM)
    (server : StartedServer) : VM :=
  VM.init server.id (cfg.cloudVmPrefix ++ "-" ++ request.resourceName ++ "-" ++ server.unique)
    server.vcpus (some request.flavor) server.created
    (if request.zone.getD "" = "" then some cfg.cloudAvailabilityZone else request.zone)
    (some (crs.object request.resourceName).imageUuid) request.resourceName

/-- The call of `vm_start` for an entry of the waiting list. -/
def WaitingRequest.startCall (w : WaitingRequest) : Event :=
  .vmStart w.request.flavor w.request.zone w.request.resourceName

/-- From `s` to `s'` the first `k` entries of `ws` were started: one new VM for each, in order. To
that end `vm_start` was called for the first `n` entries, and nothing else left the process. -/
structure StartedInOrder (cfg : Config) (answers : ℕ → Option StartedServer)
    (ws : List WaitingRequest) (k n : ℕ) (s s' : State) : Prop where
  starting : s'.starting = s.starting ++ List.range' s.nextVm k
  started : ∀ j < k, ∃ w server, ws[j]? = some w ∧ answers j = some server ∧
    s'.vms (s.nextVm + j) = startedVm cfg s.resources w.request server
  vms : ∀ v < s.nextVm, s'.vms v = s.vms v
  nextVm : s'.nextVm = s.nextVm + k
  existing : s'.existing = s.existing
  deleting : s'.deleting = s.deleting
  waiting : s'.waiting = s.waiting
  resources : s'.resources = s.resources
  trace : s'.trace = s.trace ++ (ws.take n).map WaitingRequest.startCall

section Start

variable {cfg : Config} {answers : ℕ → Option StartedServer} {ws : List WaitingRequest} {k n : ℕ}
  {s s₁ : State}

theorem StartedInOrder.refl (s : State) : StartedInOrder cfg answers ws 0 0 s s where
  starting := by simp
  started := fun _ hj ↦ absurd hj (Nat.not_lt_zero _)
  vms := fun _ _ ↦ rfl
  nextVm := rfl
  existing := rfl
  deleting := rfl
  waiting := rfl
  resources := rfl
  trace := by simp

/-- `vm_start` is called for one more entry. -/
theorem StartedInOrder.call (h : StartedInOrder cfg answers ws k n s s₁) {w : WaitingRequest}
    (hw : ws[n]? = some w) : StartedInOrder cfg answers ws k (n + 1) s (s₁.emit w.startCall) where
  starting := h.starting
  started := h.started
  vms := h.vms
  nextVm := h.nextVm
  existing := h.existing
  deleting := h.deleting
  waiting := h.waiting
  resources := h.resources
  trace := by
    show s₁.trace ++ [w.startCall] = _
    rw [h.trace, List.take_add_one, hw, List.map_append, List.append_assoc]
    rfl

/-- One more entry is started. -/
theorem StartedInOrder.start (h : StartedInOrder cfg answers ws k k s s₁) {w : WaitingRequest}
    {server : StartedServer} (hw : ws[k]? = some w) (hserver : answers k = some server) :
    StartedInOrder cfg answers ws (k + 1) (k + 1) s
      (s₁.launched w.request (startedVm cfg s₁.resources w.request server)) where
  starting := by
    rw [List.range'_1_concat, ← List.append_assoc, ← h.starting, ← h.nextVm]
    rfl
  started := fun j hj ↦ by
    rcases Nat.lt_succ_iff_lt_or_eq.1 hj with hlt | rfl
    · obtain ⟨w', server', hw', hserver', hvm⟩ := h.started j hlt
      refine ⟨w', server', hw', hserver', ?_⟩
      have hold : ¬s₁.nextVm ≤ s.nextVm + j := by
        rw [h.nextVm]
        omega
      simpa [State.launched, State.allocate, State.emit, hold] using hvm
    · refine ⟨w, server, hw, hserver, ?_⟩
      rw [← h.nextVm, ← h.resources]
      simp [State.launched, State.allocate, State.emit]
  vms := fun v hv ↦ by
    have hold : ¬s₁.nextVm ≤ v := by
      rw [h.nextVm]
      omega
    simpa [State.launched, State.allocate, State.emit, hold] using h.vms v hv
  nextVm := by
    show s₁.nextVm + 1 = _
    rw [h.nextVm, Nat.add_assoc]
  existing := h.existing
  deleting := h.deleting
  waiting := h.waiting
  resources := h.resources
  trace := (h.call hw).trace

/-- Starting VMs forgets none. -/
theorem StartedInOrder.moves {lost : VmRef → Prop} (h : StartedInOrder cfg answers ws k n s s₁) :
    Moves lost s s₁ := by
  have hperm : s₁.tracked.Perm (s.tracked ++ List.range' s.nextVm k) := by
    rw [State.tracked, State.tracked, h.existing, h.starting, h.deleting]
    simp only [List.append_assoc]
    exact ((List.perm_append_comm.append_left _).append_left _)
  refine ⟨fun htracked ↦ ⟨?_, fun v hv ↦ ?_⟩, fun v hv ↦ .inl ?_⟩
  · refine partition_iff.2 (hperm.nodup_iff.2 (List.nodup_append'.2 ?_))
    refine ⟨partition_iff.1 htracked.1, List.nodup_range', fun v hv hnew ↦ ?_⟩
    exact absurd (htracked.2 v hv) (not_lt.2 (List.left_le_of_mem_range' hnew))
  · rw [h.nextVm]
    rcases List.mem_append.1 (hperm.mem_iff.1 hv) with hold | hnew
    · exact (htracked.2 v hold).trans_le (Nat.le_add_right _ _)
    · obtain ⟨j, hj, rfl⟩ := List.mem_range'.1 hnew
      exact Nat.add_lt_add_left (by omega) _
  · exact hperm.mem_iff.2 (List.mem_append_left _ hv)

/-- **`vm_start`** for a request. -/
theorem ends_vmStart_request (request : ProvisionVM) (answer : Option StartedServer) :
    Ends ((vmStart cfg request.flavor request.zone request.resourceName answer).exec cfg) s
      (fun started s' ↦
        (answer = none ∧ started = none ∧
          s' = s.emit (.vmStart request.flavor request.zone request.resourceName)) ∨
        ∃ server, answer = some server ∧ started = some s.nextVm ∧
          s' = (s.emit (.vmStart request.flavor request.zone request.resourceName)).allocate
            [startedVm cfg s.resources request server])
      fun _ s' ↦ request.resourceName ∉ s.resources.names ∧ s' = s := by
  rw [vmStart, openConnection]
  refine ends_lift_bind (fun res hres ↦ ?_) fun e he ↦ ⟨fun hname ↦ ?_, rfl⟩
  · obtain ⟨-, rfl⟩ := CloudResources.get_eq_ok_iff.1 hres
    cases answer with
    | none => exact .inl ⟨rfl, rfl, rfl⟩
    | some server => exact .inr ⟨server, rfl, rfl, rfl⟩
  · rw [CloudResources.get, if_pos hname] at he
    cases he

end Start

/-! ### The loop -/

/-- The entries that are forgotten when the batch is full. -/
def WaitingRequest.forgotten (w : WaitingRequest) : Bool :=
  !w.request.static

/-- The loop of `launch_instances` after the entries `done`, of which the first `k` were started in
as many calls or, where a start has failed, with one call more: it goes on, or a start has failed,
or the batch is full. -/
inductive BatchLoop (answers : ℕ → Option StartedServer) (room k : ℕ)
    (done : List WaitingRequest) : ℕ → LaunchLoop → Prop
  | launching (hk : k = done.length) (hroom : k < room) :
    BatchLoop answers room k done k ⟨room - k, done, false⟩
  | failed (hk : k < done.length) (hroom : k < room) (hanswer : answers k = none) :
    BatchLoop answers room k done (k + 1) ⟨room - k, done.take k, true⟩
  | full (hk : k ≤ done.length) (hroom : k = room) :
    BatchLoop answers room k done k
      ⟨0, done.take k ++ (done.drop k).filter WaitingRequest.forgotten, false⟩

section Loop

variable {cfg : Config} {answers : ℕ → Option StartedServer} {ws done rest : List WaitingRequest}
  {w : WaitingRequest} {room k n : ℕ} {loop : LaunchLoop} {s s₁ : State}

/-- **One entry.** -/
theorem ends_launchBatchVisit (hws : done ++ w :: rest = ws)
    (h : StartedInOrder cfg answers ws k n s s₁) (hloop : BatchLoop answers room k done n loop) :
    Ends ((launchVisit cfg (answers done.length) w loop).exec cfg) s₁
      (fun loop' s₂ ↦ ∃ k' n', StartedInOrder cfg answers ws k' n' s s₂ ∧
        BatchLoop answers room k' (done ++ [w]) n' loop')
      fun _ s₂ ↦ w.request.resourceName ∉ s.resources.names ∧ s₂ = s₁ := by
  have hlength : (done ++ [w]).length = done.length + 1 := by simp
  rw [launchVisit]
  cases hloop with
  | failed hk hroom hanswer =>
    -- nothing more is done after a failed start
    refine ⟨k, k + 1, h, ?_⟩
    have htake : (done ++ [w]).take k = done.take k := List.take_append_of_le_length hk.le
    rw [← htake]
    exact .failed (by omega) hroom hanswer
  | full hk hroom =>
    have htake : (done ++ [w]).take k = done.take k := List.take_append_of_le_length hk
    have hdrop : (done ++ [w]).drop k = done.drop k ++ [w] := List.drop_append_of_le_length hk
    have hfull : BatchLoop answers room k (done ++ [w]) k ⟨0, done.take k ++
        ((done.drop k).filter WaitingRequest.forgotten ++
          [w].filter WaitingRequest.forgotten), false⟩ := by
      rw [← htake, ← List.filter_append, ← hdrop]
      exact .full (by omega) hroom
    refine ⟨k, k, h, ?_⟩
    dsimp only
    split
    · rename_i hstatic
      simpa [WaitingRequest.forgotten, hstatic] using hfull
    · rename_i hdynamic
      simpa [WaitingRequest.forgotten, hdynamic] using hfull
  | launching hk hroom =>
    have hne : ((room : ℤ) - k) ≠ 0 := by omega
    have hget : ws[k]? = some w := by simp [← hws, hk]
    dsimp only
    rw [if_neg Bool.false_ne_true, if_neg hne, Proc.exec, run_bind, ends_bind, ← h.resources, ← hk]
    refine (ends_vmStart_request w.request (answers k)).mono ?_ fun _ _ h ↦ h
    rintro started s₂ (⟨hanswer, rfl, rfl⟩ | ⟨server, hanswer, rfl, rfl⟩)
    · refine ⟨k, k + 1, h.call hget, ?_⟩
      have htake : (done ++ [w]).take k = done := by simp [hk]
      have hfailed : BatchLoop answers room k (done ++ [w]) (k + 1) _ :=
        .failed (by omega) hroom hanswer
      rwa [htake] at hfailed
    · refine ⟨k + 1, k + 1, h.start hget hanswer, ?_⟩
      show BatchLoop answers room (k + 1) (done ++ [w]) (k + 1)
        ⟨(room : ℤ) - k - 1, done ++ [w], false⟩
      by_cases hlast : k + 1 = room
      · have htake : (done ++ [w]).take (k + 1) = done ++ [w] :=
          List.take_of_length_le (by omega)
        have hdrop : (done ++ [w]).drop (k + 1) = [] := List.drop_eq_nil_of_le (by omega)
        have hfull : BatchLoop answers room (k + 1) (done ++ [w]) (k + 1) _ :=
          .full (by omega) hlast
        rw [htake, hdrop, List.filter_nil, List.append_nil] at hfull
        rwa [show (room : ℤ) - k - 1 = 0 by omega]
      · rw [show (room : ℤ) - k - 1 = (room : ℤ) - ((k + 1 : ℕ) : ℤ) by omega]
        exact .launching (by omega) (by omega)

/-- **The loop.** -/
theorem ends_launchBatch (hroom : 0 < room) :
    Ends (Proc.exec (forEach (fun i w loop ↦ launchVisit cfg (answers i) w loop) 0 ws
      ⟨room, [], false⟩) cfg) s
      (fun loop s' ↦ ∃ k n, StartedInOrder cfg answers ws k n s s' ∧
        BatchLoop answers room k ws n loop)
      fun _ s' ↦ (∃ w ∈ ws, w.request.resourceName ∉ s.resources.names) ∧
        ∃ k n, StartedInOrder cfg answers ws k n s s' := by
  refine ends_forEach (I := fun done loop s' ↦ ∃ k n, StartedInOrder cfg answers ws k n s s' ∧
    BatchLoop answers room k done n loop) ?_ ⟨0, 0, .refl s, ?_⟩
  · rintro done w rest loop s₁ hws ⟨k, n, h, hloop⟩
    refine (ends_launchBatchVisit hws h hloop).mono (fun _ _ h ↦ h) ?_
    rintro e _ ⟨hname, rfl⟩
    exact ⟨⟨w, by simp [← hws], hname⟩, k, n, h⟩
  · have hstart : BatchLoop answers room 0 [] 0 _ := .launching rfl hroom
    simpa using hstart

/-- What the loop remembers is part of the list. -/
theorem BatchLoop.sublist (h : BatchLoop answers room k ws n loop) : loop.toRemove.Sublist ws := by
  cases h with
  | launching hk hroom => exact .refl _
  | failed hk hroom hanswer => exact List.take_sublist _ _
  | full hk hroom =>
    have happend : (ws.take k ++ (ws.drop k).filter WaitingRequest.forgotten).Sublist
        (ws.take k ++ ws.drop k) := (List.Sublist.refl _).append List.filter_sublist
    rwa [List.take_append_drop] at happend

end Loop

/-! ### The operation -/

/-- How a batch ends after `k` starts, the calls of `vm_start` it took, and what is left of the
waiting list: the next call fails, or the batch is filled, or every entry has been served. -/
inductive BatchEnd (cfg : Config) (answers : ℕ → Option StartedServer) (s : State) (k : ℕ)
    (remaining : List WaitingRequest) : ℕ → Prop
  | failed (hk : k < s.waiting.length)
    (hroom : (s.starting.length + k : ℤ) < cfg.vmCreationBatchNumber) (hanswer : answers k = none)
    (hleft : remaining = s.waiting.drop k) : BatchEnd cfg answers s k remaining (k + 1)
  | filled (hfull : (s.starting.length + k : ℤ) = cfg.vmCreationBatchNumber)
    (hleft : remaining = (s.waiting.drop k).filter fun w ↦ w.request.static) :
    BatchEnd cfg answers s k remaining k
  | served (hk : k = s.waiting.length)
    (hroom : (s.starting.length + k : ℤ) < cfg.vmCreationBatchNumber) (hleft : remaining = []) :
    BatchEnd cfg answers s k remaining k

section Operation

variable {cfg : Config} {answers : ℕ → Option StartedServer} {s s' : State} {k n : ℕ}
  {remaining : List WaitingRequest}

/-- The starting list never has more than a batch. -/
theorem BatchEnd.le (h : BatchEnd cfg answers s k remaining n) :
    (s.starting.length + k : ℤ) ≤ cfg.vmCreationBatchNumber := by
  cases h with
  | failed hk hroom hanswer hleft => exact hroom.le
  | filled hfull hleft => exact hfull.le
  | served hk hroom hleft => exact hroom.le

/-- The static entries that are left are those that were not started. -/
theorem BatchEnd.static (h : BatchEnd cfg answers s k remaining n) :
    remaining.filter (fun w ↦ w.request.static) =
      (s.waiting.drop k).filter fun w ↦ w.request.static := by
  cases h with
  | failed hk hroom hanswer hleft => rw [hleft]
  | filled hfull hleft => simp [hleft, List.filter_filter]
  | served hk hroom hleft => rw [hleft, hk, List.drop_length]

/-- What `list.remove` leaves of the waiting list. -/
theorem BatchLoop.batchEnd {room : ℕ} {loop : LaunchLoop}
    (hroom : (room : ℤ) = cfg.vmCreationBatchNumber - s.starting.length)
    (h : BatchLoop answers room k s.waiting n loop) :
    BatchEnd cfg answers s k (s.waiting.diff loop.toRemove) n := by
  cases h with
  | launching hk hlt =>
    refine .served hk (by omega) ?_
    have hall := diff_take s.waiting s.waiting.length
    rwa [List.take_length, List.drop_length] at hall
  | failed hk hlt hanswer => exact .failed hk (by omega) hanswer (diff_take _ k)
  | full hk heq =>
    refine .filled (by omega) ((diff_take_append_filter _ _ _).trans ?_)
    simp [WaitingRequest.forgotten]

/-- **`launch_instances`**, called with room in the batch. Only an unknown resource raises. -/
theorem ends_launchInstances_batch
    (hroom : (s.starting.length : ℤ) < cfg.vmCreationBatchNumber) :
    Ends ((launchInstances cfg answers).exec cfg) s
      (fun _ s' ↦ ∃ k n s₁, StartedInOrder cfg answers s.waiting k n s.beginLaunch s₁ ∧
        s' = { s₁ with waiting := s'.waiting, provisioning := s'.provisioning } ∧
        BatchEnd cfg answers s k s'.waiting n)
      fun _ s' ↦ (∃ w ∈ s.waiting, w.request.resourceName ∉ s.resources.names) ∧
        ∃ k n, StartedInOrder cfg answers s.waiting k n s.beginLaunch s' := by
  obtain ⟨room, hroom'⟩ := Int.eq_ofNat_of_zero_le (Int.sub_nonneg_of_le hroom.le)
  rw [launchInstances, ends_waiting]
  split
  · rw [ends_list]
    split
    · rw [ends_locked]
      show Ends _ s.beginLaunch _ _
      rw [ends_list, ends_waiting, Proc.exec, run_bind, ends_bind]
      have hloop : Ends (Proc.exec (forEach (fun i w loop ↦ launchVisit cfg (answers i) w loop) 0
          s.waiting ⟨cfg.vmCreationBatchNumber - s.starting.length, [], false⟩) cfg) s.beginLaunch
          (fun loop s' ↦ ∃ k n, StartedInOrder cfg answers s.waiting k n s.beginLaunch s' ∧
            BatchLoop answers room k s.waiting n loop)
          fun _ s' ↦ (∃ w ∈ s.waiting, w.request.resourceName ∉ s.resources.names) ∧
            ∃ k n, StartedInOrder cfg answers s.waiting k n s.beginLaunch s' := by
        rw [hroom']
        exact ends_launchBatch (by omega)
      refine hloop.mono ?_ fun _ _ h ↦ h
      rintro loop s₁ ⟨k, n, h, hbatch⟩
      have hsub : loop.toRemove.Subperm s₁.waiting := h.waiting ▸ hbatch.sublist.subperm
      refine ends_block.2 ((ends_endLaunch hsub).mono ?_ fun _ _ h ↦ h.elim)
      rintro - s₂ rfl
      refine ⟨k, n, s₁, h, rfl, ?_⟩
      rw [h.waiting]
      exact hbatch.batchEnd hroom'.symm
    · rename_i hfull
      exact absurd hroom hfull
  · rename_i hempty
    have hnil : s.waiting = [] := List.length_eq_zero_iff.1 (by omega)
    refine ⟨0, 0, s.beginLaunch, .refl _, rfl, .served (by simp [hnil]) (by simpa using hroom) hnil⟩

end Operation

/-- **Launching in batches.** A call with room in the batch starts the first `k` entries of the
waiting list, in order, and the starting list does not outgrow the batch. What leaves the process is
one call of `vm_start` for each of them and, if a start fails, one for the next entry. The waiting
list is cut: after a failed start it begins with the entry that failed, after a full batch the
static entries that were not started are left, and otherwise nothing is; so each static entry that
is gone has been started. Only an entry of an unknown resource raises. -/
theorem launch_batch (cfg : Config) (answers : ℕ → Option StartedServer) (s : State)
    (hroom : (s.starting.length : ℤ) < cfg.vmCreationBatchNumber) :
    Ends ((launchInstances cfg answers).exec cfg) s
      (fun _ s' ↦ ∃ k n, s'.starting = s.starting ++ List.range' s.nextVm k ∧
        (∀ j < k, ∃ w server, s.waiting[j]? = some w ∧ answers j = some server ∧
          s'.vms (s.nextVm + j) = startedVm cfg s.resources w.request server) ∧
        (s'.starting.length : ℤ) ≤ cfg.vmCreationBatchNumber ∧
        s'.trace = s.trace ++ (s.waiting.take n).map WaitingRequest.startCall ∧
        BatchEnd cfg answers s k s'.waiting n ∧
        s'.waiting.filter (fun w ↦ w.request.static) =
          (s.waiting.drop k).filter fun w ↦ w.request.static)
      fun _ _ ↦ ∃ w ∈ s.waiting, w.request.resourceName ∉ s.resources.names := by
  refine (ends_launchInstances_batch hroom).mono ?_ fun _ _ h ↦ h.1
  rintro - s' ⟨k, n, s₁, h, hs', hend⟩
  have hstarting : s'.starting = s.starting ++ List.range' s.nextVm k := by
    rw [hs']
    exact h.starting
  refine ⟨k, n, hstarting, fun j hj ↦ ?_, ?_, ?_, hend, hend.static⟩
  · rw [hs']
    exact h.started j hj
  · rw [hstarting, List.length_append, List.length_range', Int.natCast_add]
    exact hend.le
  · rw [hs']
    exact h.trace

/-- A static request listed twice, as the same object, and a dynamic one between. -/
def threeWaiting : State :=
  let twice : WaitingRequest := ⟨0, ⟨.id "3", some "noblepark", "default", true⟩⟩
  { State.initial JobScheduler.threeNodes with
    waiting := [twice, ⟨1, ⟨.id "3", some "noblepark", "default", false⟩⟩, twice] }

/-- The batch is filled by the first entry; the second is forgotten, and the third is left. -/
theorem launch_batch_threeWaiting :
    Ends ((launchInstances { vmCreationBatchNumber := 1 } fun _ ↦ some ⟨"id", "a", 4, 0⟩).exec
        { vmCreationBatchNumber := 1 }) threeWaiting
      (fun _ s' ↦ ∃ k n, s'.starting = threeWaiting.starting ++ List.range' threeWaiting.nextVm k ∧
        (∀ j < k, ∃ w server, threeWaiting.waiting[j]? = some w ∧
          (some ⟨"id", "a", 4, 0⟩ : Option StartedServer) = some server ∧
          s'.vms (threeWaiting.nextVm + j) =
            startedVm { vmCreationBatchNumber := 1 } threeWaiting.resources w.request server) ∧
        (s'.starting.length : ℤ) ≤ 1 ∧
        s'.trace = threeWaiting.trace ++
          (threeWaiting.waiting.take n).map WaitingRequest.startCall ∧
        BatchEnd { vmCreationBatchNumber := 1 } (fun _ ↦ some ⟨"id", "a", 4, 0⟩) threeWaiting k
          s'.waiting n ∧
        s'.waiting.filter (fun w ↦ w.request.static) =
          (threeWaiting.waiting.drop k).filter fun w ↦ w.request.static)
      fun _ _ ↦ ∃ w ∈ threeWaiting.waiting,
        w.request.resourceName ∉ threeWaiting.resources.names :=
  launch_batch { vmCreationBatchNumber := 1 } (fun _ ↦ some ⟨"id", "a", 4, 0⟩) threeWaiting
    (by decide)

end DynamicTorque
