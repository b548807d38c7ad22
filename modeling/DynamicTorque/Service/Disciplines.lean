import DynamicTorque.Language.Interleaving
import DynamicTorque.Service.Tasks

/-!
# Disciplines of the service

A discipline says which operations a thread performs, what they reply and what they raise, given
what the thread knows. The rule is the one of rely and guarantee: if every operation that is allowed
keeps an invariant of the shared state and guarantees a relation, and what a thread knows is stable
under the relations of the other threads (`Sound`), and every task keeps to the discipline of its
thread (`Obeyed`), then every turn of every run does (`Disciplined.advance`, `Disciplined.run`),
whatever the control flow of the threads is.
-/

open Python Atomic Program

namespace DynamicTorque

/-- The thread that executes a task. -/
def Task.thread : Task → ThreadId
  | .forceoff => .main
  | .poll p _ | .afterLoop p => .poller p
  | .request _ => .server

/-- A discipline for each thread. -/
abbrev Disciplines (κ : Type) := ThreadId → Discipline Act Act.Reply PyError κ

namespace Service

variable {κ : Type}

/-- What a thread that knows `k` may rely on is `K i k`. Every operation that is allowed keeps the
invariant `I` and stays within the relation `R`, and the others cannot refute what a thread
knows. -/
structure Sound (cfg : ServiceConfig) (D : Disciplines κ) (I : State → Prop)
    (K : ThreadId → κ → State → Prop) (R : ThreadId → State → State → Prop) : Prop where
  performs : ∀ i k o s, I s → K i k s → (D i).allows k o →
    Ends (exec cfg.toConfig o) s
      (fun r s' ↦ (I s' ∧ K i ((D i).after k o (.ok r)) s') ∧ R i s s' ∧ (D i).replies o r)
      fun e s' ↦ (I s' ∧ K i ((D i).after k o (.error e)) s') ∧ R i s s' ∧ (D i).raises o e
  stable : ∀ i j k s s', i ≠ j → R j s s' → K i k s → K i k s'

/-- Every task keeps to the discipline of its thread, beginning with `k₀`, and raises only in
`Ε`. -/
def Obeyed (cfg : ServiceConfig) (answers : ServiceAnswers) (D : Disciplines κ) (k₀ : κ)
    (Ε : Task → PyError → Prop) : Prop :=
  ∀ c, (taskProgram cfg answers c).Obeys (D c.thread) (fun _ _ ↦ True) (fun e _ ↦ Ε c e) k₀

/-- What a thread is executing keeps to its discipline with what the thread knows, and the
invariant holds. -/
structure Disciplined (D : Disciplines κ) (Ε : Task → PyError → Prop) (I : State → Prop)
    (K : ThreadId → κ → State → Prop) (s : Service) : Prop where
  order : s.InOrder
  tasks : ∀ i c left, (c, left) ∈ current s i →
    ∃ k, K i k s.shared ∧ left.Obeys (D i) (fun _ _ ↦ True) (fun e _ ↦ Ε c e) k
  shared : I s.shared

variable {cfg : ServiceConfig} {answers : ServiceAnswers} {s : Service} {D : Disciplines κ} {k₀ : κ}
  {Ε : Task → PyError → Prop} {I : State → Prop} {K : ThreadId → κ → State → Prop}
  {R : ThreadId → State → State → Prop}

/-- The task of a thread belongs to it. -/
theorem thread_of_current {i : ThreadId} {c : Task} {left : Proc Unit}
    (h : (c, left) ∈ current s i) : c.thread = i := by
  cases i <;> rw [current] at h <;> split at h <;>
    first | (obtain ⟨rfl, -⟩ := Prod.mk.inj (List.mem_singleton.1 h); rfl) | cases h

/-- At the start there is no task. -/
theorem disciplined_initial {st : State} (h : I st) : Disciplined D Ε I K (initial st) where
  order := ⟨rfl, fun _ ↦ rfl⟩
  tasks := fun i c left hc ↦ by cases i <;> cases hc
  shared := h

/-- What the operation that is due does. -/
theorem Disciplined.performs (hsound : Sound cfg D I K R) (h : Disciplined D Ε I K s)
    {i : ThreadId} {c : Task} {o : Act} {next : o.Reply → Proc Unit}
    (hbusy : (c, .act o next) ∈ current s i) :
    ∃ k, K i k s.shared ∧ (D i).allows k o ∧
      Ends (exec cfg.toConfig o) s.shared
        (fun r s' ↦ (I s' ∧ K i ((D i).after k o (.ok r)) s') ∧ R i s.shared s' ∧
          (next r).Obeys (D i) (fun _ _ ↦ True) (fun e _ ↦ Ε c e) ((D i).after k o (.ok r)))
        fun e s' ↦ (I s' ∧ K i ((D i).after k o (.error e)) s') ∧ R i s.shared s' ∧
          (D i).raises o e ∧ Ε c e := by
  obtain ⟨k, hk, hallows, hraises, hnext⟩ := h.tasks i c _ hbusy
  refine ⟨k, hk, hallows, (hsound.performs i k o s.shared h.shared hk hallows).mono ?_ ?_⟩
  · exact fun r s' ⟨hkept, hR, hreplies⟩ ↦ ⟨hkept, hR, hnext r hreplies⟩
  · exact fun e s' ⟨hkept, hR, he⟩ ↦ ⟨hkept, hR, he, hraises e he⟩

/-- **One turn.** -/
theorem Disciplined.advance (hsound : Sound cfg D I K R) (hobeyed : Obeyed cfg answers D k₀ Ε)
    (hbegin : ∀ i s, I s → K i k₀ s) (hrefl : ∀ i s, R i s s) (h : Disciplined D Ε I K s)
    (t : Turn) :
    Disciplined D Ε I K (advance cfg answers t s) ∧
      R t.thread s.shared (advance cfg answers t s).shared := by
  have horder : (Service.advance cfg answers t s).InOrder := inOrder_advance h.order t
  have hmatches : Matches cfg answers t.thread s (Service.advance cfg answers t s) :=
    matches_advance h.order t
  generalize Service.advance cfg answers t s = s' at horder hmatches ⊢
  -- where the shared state is left alone, only the tasks matter
  have hsame : s'.shared = s.shared →
      (∀ i c left, (c, left) ∈ current s' i →
        ∃ k, K i k s.shared ∧ left.Obeys (D i) (fun _ _ ↦ True) (fun e _ ↦ Ε c e) k) →
      Disciplined D Ε I K s' ∧ R t.thread s.shared s'.shared := fun hshared htasks ↦
    ⟨⟨horder, fun i c left hc ↦ hshared ▸ htasks i c left hc, hshared ▸ h.shared⟩,
      hshared ▸ hrefl _ _⟩
  cases hmatches with
  | rests shared threads => exact hsame shared fun i c left hc ↦ h.tasks i c left (threads i ▸ hc)
  | begins c shared idle threads =>
    refine hsame shared fun i c' left hc ↦ ?_
    rw [threads i] at hc
    split at hc
    · rename_i hi
      obtain ⟨rfl, rfl⟩ := Prod.mk.inj (List.mem_singleton.1 hc)
      have hmem : (c', taskProgram cfg answers c') ∈ current s' t.thread := by
        rw [threads, if_pos rfl]
        exact List.mem_singleton_self _
      rw [hi, ← thread_of_current hmem]
      exact ⟨k₀, hbegin _ _ h.shared, hobeyed c'⟩
    · exact h.tasks i c' left hc
  | performs c o next busy shared threads =>
    have hbusy : (c, .act o next) ∈ current s t.thread := busy ▸ List.mem_singleton_self _
    obtain ⟨k, -, -, hends⟩ := h.performs hsound hbusy
    -- the operation returns or raises, and what is left obeys either way
    have hleft : I s'.shared ∧ R t.thread s.shared s'.shared ∧ ∃ k', K t.thread k' s'.shared ∧
        ((Program.act o next).turn (exec cfg.toConfig) s.shared).1.Obeys (D t.thread)
          (fun _ _ ↦ True) (fun e _ ↦ Ε c e) k' := by
      rw [shared, Program.turn]
      rw [Ends] at hends
      split at hends
      · rename_i r s₁ hexec
        rw [hexec]
        exact ⟨hends.1.1, hends.2.1, _, hends.1.2, hends.2.2⟩
      · rename_i e s₁ hexec
        rw [hexec]
        exact ⟨hends.1.1, hends.2.1, _, hends.1.2, hends.2.2.2⟩
    obtain ⟨hI, hR, k', hk', hobeys⟩ := hleft
    refine ⟨⟨horder, fun i c' left hc ↦ ?_, hI⟩, hR⟩
    rw [threads i] at hc
    split at hc
    · rename_i hi
      obtain ⟨rfl, rfl⟩ := Prod.mk.inj (List.mem_singleton.1 hc)
      exact ⟨k', hi ▸ hk', hi ▸ hobeys⟩
    · rename_i hi
      obtain ⟨l, hl, hobeys⟩ := h.tasks i c' left hc
      exact ⟨l, hsound.stable i _ l _ _ hi hR hl, hobeys⟩
  | leaves c left busy hover shared threads =>
    refine hsame shared fun i c' left' hc ↦ ?_
    rw [threads i] at hc
    split at hc
    · cases hc
    · exact h.tasks i c' left' hc
  | interrupted own shared main threads =>
    refine hsame shared fun i c left hc ↦ ?_
    by_cases hi : i = .main
    · rw [hi, current, main] at hc
      cases hc
    · exact h.tasks i c left (threads i hi ▸ hc)

/-- **Every run.** The invariant holds at the end, and what the turns keep is kept. -/
theorem Disciplined.run {J : State → Prop} (hsound : Sound cfg D I K R)
    (hobeyed : Obeyed cfg answers D k₀ Ε) (hbegin : ∀ i s, I s → K i k₀ s)
    (hrefl : ∀ i s, R i s s) (h : Disciplined D Ε I K s) (schedule : List Turn)
    (hkeeps : ∀ t ∈ schedule, ∀ s s', R t.thread s s' → J s → J s') (hJ : J s.shared) :
    Disciplined D Ε I K (Service.run cfg answers schedule s) ∧
      J (Service.run cfg answers schedule s).shared := by
  refine run_induction (I := fun s : Service ↦ Disciplined D Ε I K s ∧ J s.shared)
    (T := fun t ↦ t ∈ schedule) (fun t s ht h ↦ ?_) (fun _ h ↦ h) ⟨h, hJ⟩
  obtain ⟨hnext, hR⟩ := h.1.advance hsound hobeyed hbegin hrefl t
  exact ⟨hnext, hkeeps t ht _ _ hR h.2⟩

end Service

end DynamicTorque
