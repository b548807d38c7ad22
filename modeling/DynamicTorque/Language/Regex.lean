import Mathlib.Data.List.Basic

/-!
# Regular expressions with groups

Backtracking search for a pattern, as `re.match` and `re.search` do it. A pattern is tried at a
position by listing all the ways in which it can match there, in the order in which backtracking
comes to them: `Pattern.all`. The first of them is what `match` returns, and `search` tries the
positions from left to right. Repetition is greedy, and it repeats one class of characters.

Two kinds of rules are for proofs about a given pattern and a given kind of text.

* `first_seq`, `first_star`, `first_opt`, `first_group`, `first_literal` follow a match that needs
  no backtracking.
* `search_eq_none` excludes a match where a character that the pattern `Requires` is missing.

Nothing here depends on a program or on a type of characters.
-/

namespace Regex

variable {α : Type}

/-- Patterns over characters `α`. -/
inductive Pattern (α : Type) : Type
  | empty
  | char (p : α → Bool)
  /-- `[..]?` -/
  | opt (p : α → Bool)
  /-- `[..]*` -/
  | star (p : α → Bool)
  | seq (r q : Pattern α)
  | group (r : Pattern α)

/-- A match: what it took, its groups by opening parenthesis, and what is left of the text. -/
structure Match (α : Type) where
  taken : List α
  groups : List (List α)
  rest : List α
  deriving DecidableEq, Repr

/-- A match and one of what it left. -/
def Match.andThen (m m' : Match α) : Match α :=
  ⟨m.taken ++ m'.taken, m.groups ++ m'.groups, m'.rest⟩

/-- The matches of a repeated class, longest first. -/
def repeated (p : α → Bool) : List α → List (Match α)
  | [] => [⟨[], [], []⟩]
  | c :: s =>
    if p c then
      (repeated p s).map (fun m ↦ ⟨c :: m.taken, m.groups, m.rest⟩) ++ [⟨[], [], c :: s⟩]
    else [⟨[], [], c :: s⟩]

namespace Pattern

/-- `w`, character by character. -/
def literal [DecidableEq α] (w : List α) : Pattern α :=
  w.foldr (fun a r ↦ seq (char fun c ↦ c = a) r) empty

/-- The matches at the start of a text, in the order in which backtracking comes to them. -/
def all : Pattern α → List α → List (Match α)
  | empty, s => [⟨[], [], s⟩]
  | char _, [] => []
  | char p, c :: s => if p c then [⟨[c], [], s⟩] else []
  | opt _, [] => [⟨[], [], []⟩]
  | opt p, c :: s => if p c then [⟨[c], [], s⟩, ⟨[], [], c :: s⟩] else [⟨[], [], c :: s⟩]
  | star p, s => repeated p s
  | seq r q, s => (r.all s).flatMap fun m ↦ (q.all m.rest).map m.andThen
  | group r, s => (r.all s).map fun m ↦ ⟨m.taken, m.taken :: m.groups, m.rest⟩

/-- `re.match`. -/
def first (r : Pattern α) (s : List α) : Option (Match α) :=
  (r.all s).head?

/-- `re.search`. -/
def search (r : Pattern α) : List α → Option (Match α)
  | [] => r.first []
  | c :: s =>
    match r.first (c :: s) with
    | some m => some m
    | none => search r s

/-! ### Matches without backtracking -/

section

variable {p : α → Bool} {r q : Pattern α} {m m' : Match α} {c : α} {s xs : List α}

theorem first_char (hc : p c = true) (s : List α) :
    (char p).first (c :: s) = some ⟨[c], [], s⟩ := by
  rw [first, all, if_pos hc, List.head?_cons]

theorem first_opt (hc : p c = true) (s : List α) :
    (opt p).first (c :: s) = some ⟨[c], [], s⟩ := by
  rw [first, all, if_pos hc, List.head?_cons]

theorem first_opt_of_stop (h : ∀ c ∈ s.head?, p c = false) :
    (opt p).first s = some ⟨[], [], s⟩ := by
  rcases s with - | ⟨c, s⟩
  · rfl
  · rw [first, all, h c rfl, if_neg Bool.false_ne_true, List.head?_cons]

theorem first_seq (hr : r.first s = some m) (hq : q.first m.rest = some m') :
    (seq r q).first s = some (m.andThen m') := by
  rw [first, List.head?_eq_some_iff] at hr hq
  obtain ⟨others, hr⟩ := hr
  obtain ⟨others', hq⟩ := hq
  rw [first, all, hr, List.flatMap_cons, hq, List.map_cons, List.cons_append, List.head?_cons]

theorem first_group (hr : r.first s = some m) :
    (group r).first s = some ⟨m.taken, m.taken :: m.groups, m.rest⟩ := by
  rw [first] at hr
  rw [first, all, List.head?_map, hr, Option.map_some]

theorem repeated_ne_nil (p : α → Bool) (s : List α) : repeated p s ≠ [] := by
  rcases s with - | ⟨c, s⟩
  · exact List.cons_ne_nil _ _
  · rw [repeated]
    split
    · exact List.append_ne_nil_of_right_ne_nil _ (List.cons_ne_nil _ _)
    · exact List.cons_ne_nil _ _

/-- Repetition takes all it can. -/
theorem first_star (hxs : ∀ c ∈ xs, p c = true) (hs : ∀ c ∈ s.head?, p c = false) :
    (star p).first (xs ++ s) = some ⟨xs, [], s⟩ := by
  induction xs with
  | nil =>
    rcases s with - | ⟨c, s⟩
    · rfl
    · rw [List.nil_append, first, all, repeated, hs c rfl, if_neg Bool.false_ne_true,
        List.head?_cons]
  | cons c xs ih =>
    obtain ⟨hc, hxs⟩ := List.forall_mem_cons.1 hxs
    have hrest := ih hxs
    rw [first, all, List.head?_eq_some_iff] at hrest
    obtain ⟨others, hrest⟩ := hrest
    rw [first, all, List.cons_append, repeated, if_pos hc, hrest, List.map_cons, List.cons_append,
      List.head?_cons]

theorem first_literal [DecidableEq α] (w s : List α) :
    (literal w).first (w ++ s) = some ⟨w, [], s⟩ := by
  induction w with
  | nil => rfl
  | cons a w ih =>
    have hchar : (char fun c ↦ c = a).first (a :: (w ++ s)) = some ⟨[a], [], w ++ s⟩ :=
      first_char (p := fun c ↦ c = a) (decide_eq_true rfl) (w ++ s)
    exact first_seq hchar ih

theorem search_of_first (h : r.first s = some m) : r.search s = some m := by
  rcases s with - | ⟨c, s⟩
  · exact h
  · rw [search, h]

theorem search_of_first_none (h : r.first (c :: s) = none) :
    r.search (c :: s) = r.search s := by
  rw [search, h]

/-! ### Texts without a match -/

/-- Every match of the pattern takes the character `a`. -/
def Requires (r : Pattern α) (a : α) : Prop :=
  ∀ s, ∀ m ∈ r.all s, a ∈ m.taken

theorem requires_char [DecidableEq α] (a : α) : (char fun c ↦ c = a).Requires a := by
  intro s m hm
  rcases s with - | ⟨c, s⟩
  · exact absurd hm List.not_mem_nil
  · rw [all] at hm
    split at hm
    · rename_i heq
      rw [List.mem_singleton.1 hm, of_decide_eq_true heq]
      exact List.mem_singleton_self a
    · exact absurd hm List.not_mem_nil

theorem Requires.seq_left {a : α} (h : r.Requires a) (q : Pattern α) : (seq r q).Requires a := by
  intro s m hm
  obtain ⟨m, hr, hm⟩ := List.mem_flatMap.1 hm
  obtain ⟨m', -, rfl⟩ := List.mem_map.1 hm
  exact List.mem_append_left _ (h s m hr)

theorem Requires.seq_right {a : α} (h : q.Requires a) (r : Pattern α) : (seq r q).Requires a := by
  intro s m hm
  obtain ⟨m, -, hm⟩ := List.mem_flatMap.1 hm
  obtain ⟨m', hq, rfl⟩ := List.mem_map.1 hm
  exact List.mem_append_right _ (h _ m' hq)

theorem requires_literal [DecidableEq α] {a : α} {w : List α} (h : a ∈ w) :
    (literal w).Requires a := by
  induction w with
  | nil => exact absurd h List.not_mem_nil
  | cons b w ih =>
    rcases List.mem_cons.1 h with rfl | h
    · exact (requires_char a).seq_left _
    · exact (ih h).seq_right _

theorem taken_append_rest_of_repeated (h : m ∈ repeated p s) : m.taken ++ m.rest = s := by
  induction s generalizing m with
  | nil =>
    rw [List.mem_singleton.1 h]
    rfl
  | cons c s ih =>
    rw [repeated] at h
    split at h
    · rcases List.mem_append.1 h with h | h
      · obtain ⟨m, hm, rfl⟩ := List.mem_map.1 h
        exact congrArg (c :: ·) (ih hm)
      · rw [List.mem_singleton.1 h]
        rfl
    · rw [List.mem_singleton.1 h]
      rfl

/-- A match splits the text. -/
theorem taken_append_rest (h : m ∈ r.all s) : m.taken ++ m.rest = s := by
  induction r generalizing s m with
  | empty => rw [List.mem_singleton.1 h, List.nil_append]
  | char p =>
    rcases s with - | ⟨c, s⟩
    · exact absurd h List.not_mem_nil
    · rw [all] at h
      split at h
      · rw [List.mem_singleton.1 h]
        rfl
      · exact absurd h List.not_mem_nil
  | opt p =>
    rcases s with - | ⟨c, s⟩
    · rw [List.mem_singleton.1 h]
      rfl
    · rw [all] at h
      split at h
      · rcases List.mem_cons.1 h with rfl | h
        · rfl
        · rw [List.mem_singleton.1 h]
          rfl
      · rw [List.mem_singleton.1 h]
        rfl
  | star p => exact taken_append_rest_of_repeated h
  | seq r q ihr ihq =>
    obtain ⟨m, hr, hm⟩ := List.mem_flatMap.1 h
    obtain ⟨m', hq, rfl⟩ := List.mem_map.1 hm
    rw [Match.andThen, List.append_assoc, ihq hq, ihr hr]
  | group r ih =>
    obtain ⟨m, hr, rfl⟩ := List.mem_map.1 h
    show m.taken ++ m.rest = s
    exact ih hr

/-- **No match where a required character is missing.** -/
theorem search_eq_none {a : α} (hr : r.Requires a) (hs : a ∉ s) : r.search s = none := by
  have hfirst : ∀ s : List α, a ∉ s → r.first s = none := by
    intro s hs
    rw [first, List.head?_eq_none_iff, List.eq_nil_iff_forall_not_mem]
    intro m hm
    refine hs ?_
    rw [← taken_append_rest hm]
    exact List.mem_append_left _ (hr s m hm)
  induction s with
  | nil => exact hfirst [] hs
  | cons c s ih =>
    rw [search_of_first_none (hfirst _ hs)]
    exact ih fun h ↦ hs (.tail _ h)

end

end Pattern

end Regex
