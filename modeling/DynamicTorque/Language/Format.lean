import DynamicTorque.Language.Shlex

/-!
# Format strings

`str.format` with positional arguments, for format strings whose fields are numbers, and what
becomes of the arguments when the result is split into words: if they are plain words, the line is
split as the format string is (`split_format`).
-/

namespace Python

/-- A piece of a format string: a character, or the number of an argument. -/
inductive Piece
  | char (c : Char)
  | field (n : ℕ)
  deriving DecidableEq, Repr

namespace Format

/-- Where the reader of a format string stands: in the text, behind an opening brace, in a number,
or behind a closing brace. -/
inductive Mode
  | text
  | opened
  | number (n : ℕ)
  | closed

/-- The pieces of the rest of a format string, if its fields are numbers. -/
@[simp] def piecesFrom : Mode → List Char → Option (List Piece)
  | .text, [] => some []
  | .opened, [] | .number _, [] | .closed, [] => none
  | .text, c :: cs =>
    if c = '\x7b' then piecesFrom .opened cs
    else if c = '\x7d' then piecesFrom .closed cs
    else (piecesFrom .text cs).map (.char c :: ·)
  | .opened, c :: cs =>
    if c = '\x7b' then (piecesFrom .text cs).map (.char c :: ·)
    else if c.isDigit then piecesFrom (.number (c.toNat - '0'.toNat)) cs
    else none
  | .number n, c :: cs =>
    if c = '\x7d' then (piecesFrom .text cs).map (.field n :: ·)
    else if c.isDigit then piecesFrom (.number (10 * n + (c.toNat - '0'.toNat))) cs
    else none
  | .closed, c :: cs =>
    if c = '\x7d' then (piecesFrom .text cs).map (.char c :: ·) else none

/-- The pieces of a format string whose fields are numbers. -/
def pieces (s : String) : List Piece :=
  (piecesFrom .text s.toList).getD []

end Format

/-- The text that stands for a piece. -/
def Piece.text (args : List String) : Piece → Except PyError (List Char)
  | .char c => .ok [c]
  | .field n =>
    match args[n]? with
    | some arg => .ok arg.toList
    | none => .error .indexError

/-- `format(*args)`. -/
def format (template : List Piece) (args : List String) : Except PyError (List Char) :=
  (template.mapM (Piece.text args)).map List.flatten

/-! ### Fields that have arguments -/

/-- The text that stands for a piece whose argument is there. -/
@[simp] def Piece.fill (args : List String) : Piece → List Char
  | .char c => [c]
  | .field n => (args.getD n "").toList

/-- The field, if it is one, is among the first `k`. -/
def Piece.InRange (k : ℕ) : Piece → Prop
  | .char _ => True
  | .field n => n < k

instance (k : ℕ) : DecidablePred (Piece.InRange k)
  | .char _ => isTrue trivial
  | .field n => Nat.decLt n k

/-- A format string for `k` arguments. -/
def Fits (template : List Piece) (k : ℕ) : Prop :=
  ∀ piece ∈ template, piece.InRange k

instance (template : List Piece) (k : ℕ) : Decidable (Fits template k) :=
  List.decidableBAll _ template

section Fits

variable {template : List Piece} {args : List String}

theorem Fits.text (h : Fits template args.length) {piece : Piece} (hpiece : piece ∈ template) :
    piece.text args = .ok (piece.fill args) := by
  cases piece with
  | char c => rfl
  | field n =>
    have hn : n < args.length := h _ hpiece
    simp [Piece.text, hn]

theorem Fits.format (h : Fits template args.length) :
    format template args = .ok (template.flatMap (Piece.fill args)) := by
  have hall : template.mapM (Piece.text args) = .ok (template.map (Piece.fill args)) := by
    rw [mapM_eq_ok, List.forall₂_map_right_iff, List.forall₂_same]
    exact fun piece hpiece ↦ h.text hpiece
  rw [Python.format, hall]
  rfl

end Fits

/-! ### Splitting a filled format string -/

namespace Shlex

/-- A word of plain characters. -/
def Plain (s : String) : Prop :=
  s ≠ "" ∧ ∀ c ∈ s.toList, kindOfChar c = .plain

instance (s : String) : Decidable (Plain s) :=
  @instDecidableAnd _ _ (instDecidableNot) (List.decidableBAll _ s.toList)

/-- What a piece is to the lexer, if a field stands for a plain word. -/
def kindOfPiece : Piece → Kind
  | .char c => kindOfChar c
  | .field _ => .plain

/-- `fill`, where some plain word stands for a field without an argument. -/
def fillPlain (args : List String) : Piece → List Char
  | .char c => [c]
  | .field n => (args.getD n "x").toList

theorem replaces_fillPlain {args : List String} (h : ∀ arg ∈ args, Plain arg) :
    Replaces kindOfChar kindOfPiece (fillPlain args) where
  plain piece hkind := by
    cases piece with
    | char c => exact ⟨List.cons_ne_nil c [], List.forall_mem_singleton.2 hkind⟩
    | field n =>
      have hplain : Plain (args.getD n "x") := by
        rw [List.getD_eq_getElem?_getD]
        cases harg : args[n]? with
        | none => simp [Plain, kindOfChar]
        | some arg => exact h arg (List.mem_of_getElem? harg)
      exact ⟨mt String.toList_eq_nil_iff.1 hplain.1, hplain.2⟩
  other piece hkind := by
    cases piece with
    | char c => exact ⟨c, rfl, rfl⟩
    | field n => exact absurd rfl hkind

/-- **Plain arguments are not split.** A format string that is filled with plain words is split as
the format string is, each field being part of a word. -/
theorem split_format {template : List Piece} {args : List String}
    (hfits : Fits template args.length) (h : ∀ arg ∈ args, Plain arg) :
    (format template args >>= split kindOfChar) =
      (split kindOfPiece template).map (List.map (List.flatMap (Piece.fill args))) := by
  have hsame : ∀ piece ∈ template, piece.fill args = fillPlain args piece := by
    intro piece hpiece
    cases piece with
    | char c => rfl
    | field n =>
      have hn : n < args.length := hfits _ hpiece
      simp [fillPlain, hn]
  have hline : template.flatMap (Piece.fill args) = template.flatMap (fillPlain args) :=
    List.flatMap_congr hsame
  rw [hfits.format]
  show split kindOfChar (template.flatMap (Piece.fill args)) = _
  rw [hline, split_flatMap (replaces_fillPlain h)]
  cases hwords : split kindOfPiece template with
  | error e => rfl
  | ok words =>
    refine congrArg Except.ok (List.map_congr_left fun word hword ↦ List.flatMap_congr ?_)
    exact fun piece hpiece ↦ (hsame piece (mem_of_split hwords hword hpiece)).symm

end Shlex

end Python
