import DynamicTorque.Language.Builtins

/-!
# Splitting command lines

`shlex.split` in its POSIX mode, as the state machine that `shlex.read_token` is, over any alphabet
whose symbols are of the five kinds that it tells apart.

`split_flatMap`: symbols may be replaced by words of plain symbols before or after the line is
split, with the same result, wherever they stand. Nothing here depends on a command.
-/

namespace Python.Shlex

/-- What a symbol is to the lexer. -/
inductive Kind
  | space
  | quote
  | doubleQuote
  | escape
  | plain
  deriving DecidableEq, Repr

/-- The states of the lexer: between words, in a word, inside quotes, and after an escape symbol,
which is kept inside double quotes. -/
inductive Mode (α : Type)
  | between
  | word
  | quoted
  | doubleQuoted
  | escaped
  | doubleEscaped (e : α)

variable {α β : Type}

/-- The words of the rest of a line, with the state, the token that is being read, and whether
quotes were opened in it. -/
def splitFrom (kind : α → Kind) : Mode α → List α → Bool → List α →
    Except PyError (List (List α))
  | .between, _, _, [] => .ok []
  | .word, token, quoted, [] => .ok (if token = [] ∧ quoted = false then [] else [token])
  | .quoted, _, _, [] | .doubleQuoted, _, _, [] => .error (.valueError "No closing quotation")
  | .escaped, _, _, [] | .doubleEscaped _, _, _, [] =>
    .error (.valueError "No escaped character")
  | .between, _, _, c :: cs =>
    match kind c with
    | .space => splitFrom kind .between [] false cs
    | .quote => splitFrom kind .quoted [] false cs
    | .doubleQuote => splitFrom kind .doubleQuoted [] false cs
    | .escape => splitFrom kind .escaped [] false cs
    | .plain => splitFrom kind .word [c] false cs
  | .word, token, quoted, c :: cs =>
    match kind c with
    | .space =>
      if token = [] ∧ quoted = false then splitFrom kind .between [] false cs
      else (splitFrom kind .between [] false cs).map (token :: ·)
    | .quote => splitFrom kind .quoted token quoted cs
    | .doubleQuote => splitFrom kind .doubleQuoted token quoted cs
    | .escape => splitFrom kind .escaped token quoted cs
    | .plain => splitFrom kind .word (token ++ [c]) quoted cs
  | .quoted, token, _, c :: cs =>
    match kind c with
    | .quote => splitFrom kind .word token true cs
    | _ => splitFrom kind .quoted (token ++ [c]) true cs
  | .doubleQuoted, token, _, c :: cs =>
    match kind c with
    | .doubleQuote => splitFrom kind .word token true cs
    | .escape => splitFrom kind (.doubleEscaped c) token true cs
    | _ => splitFrom kind .doubleQuoted (token ++ [c]) true cs
  | .escaped, token, quoted, c :: cs => splitFrom kind .word (token ++ [c]) quoted cs
  | .doubleEscaped e, token, quoted, c :: cs =>
    match kind c with
    | .doubleQuote | .escape => splitFrom kind .doubleQuoted (token ++ [c]) quoted cs
    -- the escape symbol stands for itself
    | _ => splitFrom kind .doubleQuoted (token ++ [e, c]) quoted cs

/-- `shlex.split`. -/
def split (kind : α → Kind) (line : List α) : Except PyError (List (List α)) :=
  splitFrom kind .between [] false line

/-- The characters that `shlex` tells apart. -/
def kindOfChar (c : Char) : Kind :=
  if c = ' ' ∨ c = '\t' ∨ c = '\r' ∨ c = '\n' then .space
  else if c = '\'' then .quote
  else if c = '"' then .doubleQuote
  else if c = '\\' then .escape
  else .plain

/-! ### Plain words -/

section Plain

variable {kind : α → Kind} {xs : List α} {c : α}

/-- Plain symbols in a word. -/
theorem splitFrom_word_append (hxs : ∀ x ∈ xs, kind x = .plain) (token : List α) (quoted : Bool)
    (cs : List α) : splitFrom kind .word token quoted (xs ++ cs) =
      splitFrom kind .word (token ++ xs) quoted cs := by
  induction xs generalizing token with
  | nil => simp
  | cons x xs ih =>
    obtain ⟨hx, hxs⟩ := List.forall_mem_cons.1 hxs
    rw [List.cons_append, splitFrom.eq_def]
    simp only [hx]
    rw [ih hxs, List.append_assoc, List.singleton_append]

/-- Plain symbols between quotes. -/
theorem splitFrom_quoted_append (hxs : ∀ x ∈ xs, kind x = .plain) (token : List α)
    (quoted : Bool) (cs : List α) : splitFrom kind .quoted token quoted (xs ++ cs) =
      splitFrom kind .quoted (token ++ xs) true cs := by
  induction xs generalizing token quoted with
  | nil => cases cs <;> simp [splitFrom]
  | cons x xs ih =>
    obtain ⟨hx, hxs⟩ := List.forall_mem_cons.1 hxs
    rw [List.cons_append, splitFrom.eq_def]
    simp only [hx]
    rw [ih hxs, List.append_assoc, List.singleton_append]

/-- Plain symbols between double quotes. -/
theorem splitFrom_doubleQuoted_append (hxs : ∀ x ∈ xs, kind x = .plain) (token : List α)
    (quoted : Bool) (cs : List α) : splitFrom kind .doubleQuoted token quoted (xs ++ cs) =
      splitFrom kind .doubleQuoted (token ++ xs) true cs := by
  induction xs generalizing token quoted with
  | nil => cases cs <;> simp [splitFrom]
  | cons x xs ih =>
    obtain ⟨hx, hxs⟩ := List.forall_mem_cons.1 hxs
    rw [List.cons_append, splitFrom.eq_def]
    simp only [hx]
    rw [ih hxs, List.append_assoc, List.singleton_append]

theorem splitFrom_doubleQuoted_true (token : List α) (quoted : Bool) (cs : List α) :
    splitFrom kind .doubleQuoted token quoted cs = splitFrom kind .doubleQuoted token true cs := by
  cases cs <;> rfl

end Plain

/-! ### Replacing symbols -/

/-- `f` replaces a plain symbol by a word of plain symbols, and any other by one of its kind. -/
structure Replaces (kind : α → Kind) (kind' : β → Kind) (f : β → List α) : Prop where
  plain : ∀ b, kind' b = .plain → f b ≠ [] ∧ ∀ c ∈ f b, kind c = .plain
  other : ∀ b, kind' b ≠ .plain → ∃ c, f b = [c] ∧ kind c = kind' b

section Replace

variable {kind : α → Kind} {kind' : β → Kind} {f : β → List α}

theorem Replaces.ne_nil (h : Replaces kind kind' f) (b : β) : f b ≠ [] := by
  by_cases hb : kind' b = .plain
  · exact (h.plain b hb).1
  · obtain ⟨c, hc, -⟩ := h.other b hb
    simp [hc]

theorem Replaces.flatMap_eq_nil (h : Replaces kind kind' f) {token : List β} :
    token.flatMap f = [] ↔ token = [] := by
  cases token with
  | nil => simp
  | cons b token => simp [h.ne_nil b]

/-- The state after a replacement. -/
inductive Mode.Replaced (f : β → List α) : Mode α → Mode β → Prop
  | between : Mode.Replaced f .between .between
  | word : Mode.Replaced f .word .word
  | quoted : Mode.Replaced f .quoted .quoted
  | doubleQuoted : Mode.Replaced f .doubleQuoted .doubleQuoted
  | escaped : Mode.Replaced f .escaped .escaped
  | doubleEscaped {e : α} {e' : β} (h : f e' = [e]) :
    Mode.Replaced f (.doubleEscaped e) (.doubleEscaped e')

theorem splitFrom_flatMap (h : Replaces kind kind' f) (line : List β) :
    ∀ {mode : Mode α} {mode' : Mode β} (token : List β) (quoted : Bool),
      mode.Replaced f mode' →
      splitFrom kind mode (token.flatMap f) quoted (line.flatMap f) =
        (splitFrom kind' mode' token quoted line).map (List.map (List.flatMap f)) := by
  induction line with
  | nil =>
    intro mode mode' token quoted hmode
    cases hmode with
    | word =>
      simp only [List.flatMap_nil, splitFrom, h.flatMap_eq_nil, Except.map]
      split <;> rfl
    | _ => rfl
  | cons b line ih =>
    intro mode mode' token quoted hmode
    have hsnoc : ∀ xs : List β, token.flatMap f ++ xs.flatMap f = (token ++ xs).flatMap f :=
      fun xs ↦ List.flatMap_append.symm
    by_cases hb : kind' b = .plain
    · -- a plain symbol, for which plain symbols stand
      obtain ⟨hne, hall⟩ := h.plain b hb
      obtain ⟨x, xs, hfb⟩ := List.exists_cons_of_ne_nil hne
      have hx : kind x = .plain := hall x (by simp [hfb])
      have hxs : ∀ y ∈ xs, kind y = .plain := fun y hy ↦ hall y (by simp [hfb, hy])
      have hword : f b = [b].flatMap f := by simp
      cases hmode with
      | between =>
        rw [List.flatMap_cons, hfb, List.cons_append, splitFrom.eq_def, splitFrom.eq_def kind']
        simp only [hx, hb]
        rw [splitFrom_word_append hxs, List.singleton_append, ← hfb, hword, ih [b] false .word]
      | word =>
        rw [List.flatMap_cons, splitFrom_word_append hall, splitFrom.eq_def kind']
        simp only [hb]
        rw [hword, hsnoc, ih _ quoted .word]
      | quoted =>
        rw [List.flatMap_cons, splitFrom_quoted_append hall, splitFrom.eq_def kind']
        simp only [hb]
        rw [hword, hsnoc, ih _ true .quoted]
      | doubleQuoted =>
        rw [List.flatMap_cons, splitFrom_doubleQuoted_append hall, splitFrom.eq_def kind']
        simp only [hb]
        rw [hword, hsnoc, ih _ true .doubleQuoted]
      | escaped =>
        rw [List.flatMap_cons, hfb, List.cons_append, splitFrom.eq_def, splitFrom.eq_def kind']
        simp only
        rw [splitFrom_word_append hxs, List.append_assoc, List.singleton_append, ← hfb, hword,
          hsnoc, ih _ quoted .word]
      | doubleEscaped he =>
        rename_i e e'
        rw [List.flatMap_cons, hfb, List.cons_append, splitFrom.eq_def, splitFrom.eq_def kind']
        simp only [hx, hb]
        have htoken : token.flatMap f ++ [e, x] ++ xs = (token ++ [e', b]).flatMap f := by
          simp [he, hfb]
        rw [splitFrom_doubleQuoted_append hxs, htoken, ih _ true .doubleQuoted,
          splitFrom_doubleQuoted_true (token ++ [e', b]) quoted]
    · -- a symbol that stays
      obtain ⟨c, hfb, hc⟩ := h.other b hb
      have hsame : token.flatMap f ++ [c] = (token ++ [b]).flatMap f := by simp [hfb]
      rw [List.flatMap_cons, hfb, List.singleton_append]
      cases hmode with
      | between =>
        rw [splitFrom.eq_def, splitFrom.eq_def kind']
        simp only [hc]
        cases hkind : kind' b with
        | space => exact ih [] false .between
        | quote => exact ih [] false .quoted
        | doubleQuote => exact ih [] false .doubleQuoted
        | escape => exact ih [] false .escaped
        | plain => exact absurd hkind hb
      | word =>
        rw [splitFrom.eq_def, splitFrom.eq_def kind']
        simp only [hc, h.flatMap_eq_nil]
        cases hkind : kind' b with
        | space =>
          have hrest : splitFrom kind .between [] false (line.flatMap f) = _ :=
            ih [] false .between
          dsimp only
          rw [hrest]
          split
          · rfl
          · cases splitFrom kind' .between [] false line <;> rfl
        | quote => exact ih _ quoted .quoted
        | doubleQuote => exact ih _ quoted .doubleQuoted
        | escape => exact ih _ quoted .escaped
        | plain => exact absurd hkind hb
      | quoted =>
        rw [splitFrom.eq_def, splitFrom.eq_def kind']
        simp only [hc, hsame]
        cases kind' b with
        | quote => exact ih _ true .word
        | _ => exact ih _ true .quoted
      | doubleQuoted =>
        rw [splitFrom.eq_def, splitFrom.eq_def kind']
        simp only [hc, hsame]
        cases kind' b with
        | doubleQuote => exact ih _ true .word
        | escape => exact ih _ true (.doubleEscaped hfb)
        | _ => exact ih _ true .doubleQuoted
      | escaped =>
        rw [splitFrom.eq_def, splitFrom.eq_def kind']
        simp only [hsame]
        exact ih _ quoted .word
      | doubleEscaped he =>
        rename_i e e'
        have hboth : token.flatMap f ++ [e, c] = (token ++ [e', b]).flatMap f := by simp [he, hfb]
        rw [splitFrom.eq_def, splitFrom.eq_def kind']
        simp only [hc, hsame, hboth]
        cases kind' b <;> exact ih _ quoted .doubleQuoted

/-- **Replacing symbols.** A line may be split before or after plain symbols in it are replaced by
words of plain symbols. -/
theorem split_flatMap (h : Replaces kind kind' f) (line : List β) :
    split kind (line.flatMap f) = (split kind' line).map (List.map (List.flatMap f)) :=
  splitFrom_flatMap h line [] false .between

end Replace

/-! ### The symbols of the words -/

/-- The symbol that a state keeps. -/
def Mode.symbols : Mode α → List α
  | .doubleEscaped e => [e]
  | _ => []

/-- Nothing is in a word that was not in the line. -/
theorem mem_of_splitFrom {kind : α → Kind} {mode : Mode α} {token : List α} {quoted : Bool}
    {line : List α} {words : List (List α)} (h : splitFrom kind mode token quoted line = .ok words)
    {word : List α} (hword : word ∈ words) {c : α} (hc : c ∈ word) :
    c ∈ token ∨ c ∈ mode.symbols ∨ c ∈ line := by
  fun_induction splitFrom kind mode token quoted line generalizing words
  case case13 token quoted x cs hspace hmore ih =>
    -- the token is a word, and the others are read after it
    cases hrest : splitFrom kind .between [] false cs with
    | error e => simp [hrest, Except.map] at h
    | ok rest =>
      simp only [hrest, Except.map, Except.ok.injEq] at h
      subst h
      rcases List.mem_cons.1 hword with rfl | hword
      · exact .inl hc
      · have hcs : c ∈ cs := by simpa [Mode.symbols] using ih hrest hword
        exact .inr (.inr (.tail _ hcs))
  all_goals grind [Mode.symbols]

theorem mem_of_split {kind : α → Kind} {line : List α} {words : List (List α)}
    (h : split kind line = .ok words) {word : List α} (hword : word ∈ words) {c : α}
    (hc : c ∈ word) : c ∈ line := by
  simpa [Mode.symbols] using mem_of_splitFrom h hword hc

end Python.Shlex
