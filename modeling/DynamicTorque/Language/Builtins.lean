import Mathlib.Algebra.Order.Ring.Int
import Mathlib.Data.List.AList
import Mathlib.Data.List.Sort
import Mathlib.Data.List.TakeWhile

/-!
# Python built-ins

The pieces of the Python language the development rests on: exceptions, `str.isdigit` and
`int`, `list.remove`, `in` on strings, and `timedelta.seconds`. Nothing here depends on a
program; a model fixes its own state and imports these.

Two conventions are used throughout.

* A function that may raise returns `Except PyError`. The exception carries the text Python
  gives it only where a later test distinguishes texts.
* A dictionary with string keys is an association list with unique keys (`AList`). The
  iteration order of a Python dictionary is not specified; the list order stands for it, and
  no result depends on which order it is.
-/

namespace Python

/-- The exceptions that the modelled code can raise. -/
inductive PyError
  | keyError (key : String)
  | valueError (text : String)
  | indexError
  | attributeError (name : String)
  | typeError
  /-- An explicit `raise Exception(text)`. -/
  | exception (text : String)
  deriving DecidableEq, Repr

/-- What `list.remove` raises when the element is missing. -/
def PyError.notInList : PyError := .valueError "list.remove(x): x not in list"

@[simp] theorem pure_eq_ok {α : Type} (a : α) : (pure a : Except PyError α) = .ok a := rfl

/-- A computation that returns has returned at every stage. -/
theorem bind_eq_ok {α β : Type} {x : Except PyError α} {f : α → Except PyError β} {b : β} :
    (x >>= f) = .ok b ↔ ∃ a, x = .ok a ∧ f a = .ok b := by
  cases x with
  | error e => exact ⟨fun h ↦ (nomatch h), fun ⟨_, h, _⟩ ↦ (nomatch h)⟩
  | ok a => exact ⟨fun h ↦ ⟨a, rfl, h⟩, fun ⟨_, h, hf⟩ ↦ Except.ok.inj h ▸ hf⟩

/-- A computation that raises has raised at some stage. -/
theorem bind_eq_error {α β : Type} {x : Except PyError α} {f : α → Except PyError β}
    {e : PyError} : (x >>= f) = .error e ↔ x = .error e ∨ ∃ a, x = .ok a ∧ f a = .error e := by
  cases x with
  | error e' =>
    refine ⟨fun h ↦ .inl (congrArg Except.error (Except.error.inj h)), ?_⟩
    rintro (h | ⟨_, h, _⟩)
    · exact congrArg Except.error (Except.error.inj h)
    · cases h
  | ok a =>
    refine ⟨fun h ↦ .inr ⟨a, rfl, h⟩, fun h ↦ h.elim (fun h ↦ (nomatch h)) ?_⟩
    rintro ⟨b, hb, hf⟩
    exact Except.ok.inj hb ▸ hf

/-- A computation that does not raise. -/
def Returns {α : Type} (x : Except PyError α) : Prop :=
  ∃ a, x = .ok a

section Returns

variable {α β : Type}

@[simp] theorem returns_ok (a : α) : Returns (.ok a : Except PyError α) := ⟨a, rfl⟩

@[simp] theorem not_returns_error (e : PyError) : ¬Returns (.error e : Except PyError α) :=
  fun ⟨_, h⟩ ↦ nomatch h

instance : (x : Except PyError α) → Decidable (Returns x)
  | .ok a => isTrue (returns_ok a)
  | .error e => isFalse (not_returns_error e)

theorem returns_bind {x : Except PyError α} {f : α → Except PyError β} :
    Returns (x >>= f) ↔ ∃ a, x = .ok a ∧ Returns (f a) := by
  constructor
  · rintro ⟨b, hb⟩
    obtain ⟨a, ha, hfa⟩ := bind_eq_ok.1 hb
    exact ⟨a, ha, b, hfa⟩
  · rintro ⟨a, ha, b, hfa⟩
    exact ⟨b, bind_eq_ok.2 ⟨a, ha, hfa⟩⟩

/-- What comes after does not raise. -/
theorem returns_bind_of_forall {x : Except PyError α} {f : α → Except PyError β}
    (h : ∀ a, Returns (f a)) : Returns (x >>= f) ↔ Returns x :=
  returns_bind.trans ⟨fun ⟨a, ha, _⟩ ↦ ⟨a, ha⟩, fun ⟨a, ha⟩ ↦ ⟨a, ha, h a⟩⟩

/-- A list of results, one for each element. -/
theorem mapM_eq_ok {f : α → Except PyError β} {xs : List α} {ys : List β} :
    xs.mapM f = .ok ys ↔ List.Forall₂ (fun x y ↦ f x = .ok y) xs ys := by
  induction xs generalizing ys with
  | nil => simp [eq_comm]
  | cons x xs ih =>
    rw [List.mapM_cons, bind_eq_ok, List.forall₂_cons_left_iff]
    constructor
    · rintro ⟨y, hy, hrest⟩
      obtain ⟨ys', hys', hcons⟩ := bind_eq_ok.1 hrest
      exact ⟨y, ys', hy, ih.1 hys', (Except.ok.inj hcons).symm⟩
    · rintro ⟨y, ys', hy, hys', rfl⟩
      exact ⟨y, hy, bind_eq_ok.2 ⟨ys', ih.2 hys', rfl⟩⟩

/-- Each result is that of some element. -/
theorem exists_of_mem_mapM {f : α → Except PyError β} {xs : List α} {ys : List β}
    (h : xs.mapM f = .ok ys) {y : β} (hy : y ∈ ys) : ∃ x ∈ xs, f x = .ok y := by
  have hall := mapM_eq_ok.1 h
  clear h
  induction hall with
  | nil => exact absurd hy List.not_mem_nil
  | cons hxy _ ih =>
    rcases List.mem_cons.1 hy with rfl | hy
    · exact ⟨_, List.mem_cons_self .., hxy⟩
    · obtain ⟨x, hx, hxy⟩ := ih hy
      exact ⟨x, .tail _ hx, hxy⟩

/-- `mapM` returns if every element's computation does. -/
theorem returns_mapM {f : α → Except PyError β} {xs : List α} :
    Returns (xs.mapM f) ↔ ∀ x ∈ xs, Returns (f x) := by
  induction xs with
  | nil => simp
  | cons x xs ih =>
    rw [List.mapM_cons, returns_bind, List.forall_mem_cons]
    constructor
    · rintro ⟨y, hy, hrest⟩
      exact ⟨⟨y, hy⟩, ih.1 ((returns_bind_of_forall fun _ ↦ returns_ok _).1 hrest)⟩
    · rintro ⟨⟨y, hy⟩, hrest⟩
      exact ⟨y, hy, (returns_bind_of_forall fun _ ↦ returns_ok _).2 (ih.2 hrest)⟩

end Returns

/-- A dictionary with string keys. -/
abbrev Dict (α : Type) := AList fun _ : String ↦ α

/-- `d[key]`. -/
def Dict.get {α : Type} (d : Dict α) (key : String) : Except PyError α :=
  match d.lookup key with
  | some a => .ok a
  | none => .error (.keyError key)

theorem Dict.get_eq_error {α : Type} {d : Dict α} {key : String} {e : PyError}
    (h : d.get key = .error e) : e = .keyError key ∧ d.lookup key = none := by
  rw [Dict.get] at h
  split at h
  · cases h
  · rename_i hnone
    exact ⟨(Except.error.inj h).symm, hnone⟩

/-! ### Strings -/

/-- `str.isdigit` on the ASCII text that the command-line tools print. -/
def isDigits (cs : List Char) : Bool :=
  !cs.isEmpty && cs.all Char.isDigit

/-- `s.isdigit()`. -/
def isdigit (s : String) : Bool :=
  isDigits s.toList

/-- The decimal value of a list of digits. -/
def digitsValue (cs : List Char) : ℕ :=
  cs.foldl (fun n c ↦ 10 * n + (c.toNat - '0'.toNat)) 0

/-- A blank: a space, a tab, a line break, a vertical tab or a form feed. -/
def isSpace (c : Char) : Bool :=
  c.isWhitespace || c = '\x0b' || c = '\x0c'

/-- `s.strip()` on a list of characters. -/
def strip (cs : List Char) : List Char :=
  ((cs.dropWhile isSpace).reverse.dropWhile isSpace).reverse

/-- `int(s)`: surrounding blanks and one sign are accepted, anything else must be digits. -/
def int (s : String) : Except PyError ℤ :=
  match strip s.toList with
  | '-' :: cs => if isDigits cs then .ok (-(digitsValue cs : ℤ)) else .error (.valueError s)
  | '+' :: cs => if isDigits cs then .ok (digitsValue cs) else .error (.valueError s)
  | cs => if isDigits cs then .ok (digitsValue cs) else .error (.valueError s)

theorem isSpace_of_isDigit {c : Char} (h : c.isDigit = true) : isSpace c = false := by
  rw [Char.isDigit, Bool.and_eq_true, decide_eq_true_iff, decide_eq_true_iff] at h
  have hne : ∀ d : Char, d.val < 48 → c ≠ d := by
    rintro d hd rfl
    exact absurd h.1 (UInt32.not_le.2 hd)
  simp [isSpace, Char.isWhitespace, hne]

/-- What has no blanks is not stripped. -/
theorem strip_eq_self {cs : List Char} (h : ∀ c ∈ cs, isSpace c = false) : strip cs = cs := by
  have hleft : cs.dropWhile isSpace = cs :=
    List.dropWhile_eq_self_iff.2 fun hl ↦ by simp [h _ (List.getElem_mem hl)]
  have hright : cs.reverse.dropWhile isSpace = cs.reverse :=
    List.dropWhile_eq_self_iff.2 fun hl ↦ by
      rw [h _ (List.mem_reverse.1 (List.getElem_mem hl))]
      exact Bool.false_ne_true
  rw [strip, hleft, hright, List.reverse_reverse]

theorem isDigit_of_mem_isDigits {cs : List Char} (h : isDigits cs = true) {c : Char} (hc : c ∈ cs) :
    c.isDigit = true :=
  List.all_eq_true.1 (Bool.and_eq_true _ _ ▸ h).2 c hc

/-- **`int`** reads digits. -/
theorem int_of_isdigit {s : String} (h : isdigit s = true) :
    int s = .ok (digitsValue s.toList) := by
  rw [isdigit] at h
  rw [int, strip_eq_self fun c hc ↦ isSpace_of_isDigit (isDigit_of_mem_isDigits h hc)]
  split
  · rename_i cs hs
    rw [hs] at h
    simp [isDigits, Char.isDigit] at h
  · rename_i cs hs
    rw [hs] at h
    simp [isDigits, Char.isDigit] at h
  · rw [if_pos h]

/-- Stripping drops blanks only. -/
theorem mem_strip_of_not_isSpace {cs : List Char} {c : Char} (hc : c ∈ cs)
    (hblank : isSpace c = false) : c ∈ strip cs := by
  have hdrop : ∀ {cs : List Char}, c ∈ cs → c ∈ cs.dropWhile isSpace := by
    intro cs hc
    rw [← List.takeWhile_append_dropWhile (p := isSpace) (l := cs)] at hc
    rcases List.mem_append.1 hc with htake | hdrop
    · exact absurd (List.mem_takeWhile_imp htake) (by simp [hblank])
    · exact hdrop
  rw [strip, List.mem_reverse]
  exact hdrop (List.mem_reverse.2 (hdrop hc))

/-- `needle in hay` on lists of characters. -/
def isInfixOf (needle : List Char) : List Char → Bool
  | [] => needle.isEmpty
  | c :: cs => needle.isPrefixOf (c :: cs) || isInfixOf needle cs

/-- `needle in hay`. -/
def strIn (needle hay : String) : Bool :=
  isInfixOf needle.toList hay.toList

theorem isInfixOf_append (front needle : List Char) :
    isInfixOf needle (front ++ needle) = true := by
  induction front with
  | nil => cases needle <;> simp [isInfixOf]
  | cons c front ih => simp [isInfixOf, ih]

theorem strIn_self (s : String) : strIn s s = true :=
  isInfixOf_append [] s.toList

theorem isInfixOf_iff {needle hay : List Char} :
    isInfixOf needle hay = true ↔ needle <:+: hay := by
  induction hay with
  | nil => simp [isInfixOf]
  | cons c cs ih =>
    rw [isInfixOf, Bool.or_eq_true, List.isPrefixOf_iff_prefix, ih, List.infix_cons_iff]

section Separated

variable {needle front back : List Char} {sep : Char}

/-- What does not have the separator does not reach over it. -/
theorem prefix_append_cons (h : sep ∉ needle) :
    needle <+: front ++ sep :: back ↔ needle <+: front := by
  refine ⟨fun hprefix ↦ ?_, fun hprefix ↦ hprefix.trans (List.prefix_append _ _)⟩
  rcases List.prefix_or_prefix_of_prefix hprefix (List.prefix_append front _) with hfront | hlonger
  · exact hfront
  · obtain ⟨extra, rfl⟩ := hlonger
    rcases extra with - | ⟨c, extra⟩
    · simp
    · obtain ⟨rfl, -⟩ := List.cons_prefix_cons.1 ((List.prefix_append_right_inj front).1 hprefix)
      exact absurd (List.mem_append_right front (List.mem_cons_self ..)) h

/-- So it lies on one side of it. -/
theorem infix_append_cons (h : sep ∉ needle) (hne : needle ≠ []) :
    needle <:+: front ++ sep :: back ↔ needle <:+: front ∨ needle <:+: back := by
  induction front with
  | nil =>
    have hprefix : ¬needle <+: [] ++ sep :: back := fun hprefix ↦
      hne (List.prefix_nil.1 ((prefix_append_cons h).1 hprefix))
    rw [List.nil_append] at hprefix
    simp [List.infix_cons_iff, hprefix, hne]
  | cons c front ih =>
    rw [List.cons_append, List.infix_cons_iff, ih, ← List.cons_append, prefix_append_cons h,
      List.infix_cons_iff, or_assoc]

/-- And of joined texts, in one of them. -/
theorem infix_intercalate {items : List (List Char)} (h : sep ∉ needle) (hne : needle ≠ []) :
    needle <:+: [sep].intercalate items ↔ ∃ item ∈ items, needle <:+: item := by
  induction items with
  | nil => simp [hne]
  | cons item items ih =>
    rcases items with - | ⟨next, items⟩
    · simp
    · rw [List.intercalate_cons_cons, List.append_assoc, List.singleton_append,
        infix_append_cons h hne, ih]
      exact (List.exists_mem_cons_iff _ _ _).symm

end Separated

/-- `s.lower()`, as characters. -/
def lower (s : String) : List Char :=
  s.toList.map Char.toLower

/-- `s.split(sep)`, where `sep` is one character. -/
def split (sep : Char) (s : String) : List String :=
  (s.toList.splitOn sep).map String.ofList

/-- `str.join(items)`, where `str` is one character. -/
def join (sep : Char) (items : List String) : String :=
  String.ofList ([sep].intercalate (items.map String.toList))

theorem split_ne_nil (sep : Char) (s : String) : split sep s ≠ [] := by
  simp [split]

/-- What does not have the separator is one piece. -/
theorem split_of_notMem {sep : Char} {s : String} (h : sep ∉ s.toList) : split sep s = [s] := by
  rw [split, List.splitOn_eq_singleton h, List.map_singleton, String.ofList_toList]

/-- The first piece ends before the first separator. -/
theorem split_append {sep : Char} {s : String} (h : sep ∉ s.toList) (t : String) :
    split sep (s ++ String.singleton sep ++ t) = s :: split sep t := by
  have htoList : (s ++ String.singleton sep ++ t).toList = s.toList ++ sep :: t.toList := by
    simp
  rw [split, htoList, List.splitOn_append_cons_self_of_not_mem h, List.map_cons,
    String.ofList_toList]
  rfl

/-- **`split`** undoes **`join`**. -/
theorem split_join {sep : Char} {items : List String} (h : ∀ item ∈ items, sep ∉ item.toList)
    (hne : items ≠ []) : split sep (join sep items) = items := by
  have hitems : ∀ cs ∈ items.map String.toList, sep ∉ cs := List.forall_mem_map.2 h
  rw [split, join, String.toList_ofList, List.splitOn_intercalate sep hitems (by simpa using hne),
    List.map_map]
  exact List.map_id'' (fun _ ↦ String.ofList_toList) _

theorem join_cons_cons (sep : Char) (item next : String) (items : List String) :
    join sep (item :: next :: items) =
      item ++ String.singleton sep ++ join sep (next :: items) := by
  rw [← String.toList_inj]
  simp [join, List.intercalate_cons_cons]

/-- `f.readlines()`: each line with its line break, and what follows the last line break if that is
not empty. -/
def readlines (text : String) : List String :=
  (split '\n' text).dropLast.map (· ++ String.singleton '\n') ++
    ((split '\n' text).getLast?.filter (· ≠ "")).toList

/-- The first line. -/
theorem readlines_append {line : String} (h : '\n' ∉ line.toList) (rest : String) :
    readlines (line ++ String.singleton '\n' ++ rest) =
      (line ++ String.singleton '\n') :: readlines rest := by
  have hne := split_ne_nil '\n' rest
  rw [readlines, split_append h, List.dropLast_cons_of_ne_nil hne, List.map_cons, List.cons_append,
    List.getLast?_cons_of_ne_nil hne]
  rfl

/-- A last line without a line break. -/
theorem readlines_of_notMem {line : String} (h : '\n' ∉ line.toList) (hne : line ≠ "") :
    readlines line = [line] := by
  rw [readlines, split_of_notMem h]
  simp [hne]

/-! ### Lists -/

/-- `xs.remove(x)`: the first occurrence goes, and a missing element raises. -/
def remove {α : Type} [DecidableEq α] (x : α) (xs : List α) : Except PyError (List α) :=
  if x ∈ xs then .ok (xs.erase x) else .error .notInList

/-- `sorted(xs, key=key)`: ascending and stable. -/
def sortByKey {α : Type} (key : α → ℤ) (xs : List α) : List α :=
  xs.insertionSort fun a b ↦ key a ≤ key b

/-- `sorted(xs, key=key, reverse=True)`: descending, and equal keys keep their order. -/
def sortByKeyReverse {α : Type} (key : α → ℤ) (xs : List α) : List α :=
  xs.insertionSort fun a b ↦ key b ≤ key a

section Sorting

variable {α : Type} (key : α → ℤ) (xs : List α)

theorem sortByKeyReverse_perm : (sortByKeyReverse key xs).Perm xs :=
  List.perm_insertionSort _ xs

theorem sortByKey_perm : (sortByKey key xs).Perm xs :=
  List.perm_insertionSort _ xs

theorem pairwise_sortByKeyReverse :
    (sortByKeyReverse key xs).Pairwise fun a b ↦ key b ≤ key a := by
  have htrans : IsTrans α fun a b ↦ key b ≤ key a := ⟨fun _ _ _ hab hbc ↦ hbc.trans hab⟩
  have htotal : Std.Total fun a b : α ↦ key b ≤ key a := ⟨fun a b ↦ le_total (key b) (key a)⟩
  exact List.pairwise_insertionSort _ xs

/-- Equal keys keep their order: what relates an element to those after it still does. -/
theorem pairwise_sortByKeyReverse_of_pairwise {S : α → α → Prop} (h : xs.Pairwise S) :
    (sortByKeyReverse key xs).Pairwise fun a b ↦ key b < key a ∨ key b = key a ∧ S a b := by
  have hinsert : ∀ (a : α) (ys : List α), (∀ b ∈ ys, S a b) →
      (ys.Pairwise fun a b ↦ key b < key a ∨ key b = key a ∧ S a b) →
        ((ys.orderedInsert (fun a b ↦ key b ≤ key a) a).Pairwise
          fun a b ↦ key b < key a ∨ key b = key a ∧ S a b) := by
    intro a ys hbefore hys
    induction ys with
    | nil => exact List.pairwise_singleton _ a
    | cons y ys ih =>
      obtain ⟨hy, hys'⟩ := List.pairwise_cons.1 hys
      rw [List.orderedInsert_cons]
      split
      · rename_i hle
        -- all of what follows has a key of at most that of `y`
        refine List.pairwise_cons.2 ⟨fun b hb ↦ ?_, hys⟩
        have hkey : key b ≤ key y := by
          rcases List.mem_cons.1 hb with rfl | hb
          · exact le_rfl
          · rcases hy b hb with hlt | heq
            · exact hlt.le
            · exact heq.1.le
        rcases (hkey.trans hle).lt_or_eq with hlt | heq
        · exact .inl hlt
        · exact .inr ⟨heq, hbefore b hb⟩
      · rename_i hlt
        refine List.pairwise_cons.2 ⟨fun b hb ↦ ?_, ih (fun b hb ↦ hbefore b (.tail _ hb)) hys'⟩
        rcases List.mem_orderedInsert _ |>.1 hb with rfl | hb
        · exact .inl (not_le.1 hlt)
        · exact hy b hb
  induction xs with
  | nil => exact List.Pairwise.nil
  | cons a xs ih =>
    obtain ⟨ha, hxs⟩ := List.pairwise_cons.1 h
    refine hinsert a _ (fun b hb ↦ ha b ?_) (ih hxs)
    exact (List.perm_insertionSort _ xs).mem_iff.1 hb

/-- The elements of one key keep their order. -/
theorem filter_sortByKey (k : ℤ) :
    (sortByKey key xs).filter (fun a ↦ key a = k) = xs.filter fun a ↦ key a = k := by
  induction xs with
  | nil => rfl
  | cons a xs ih =>
    -- what the sort puts before `a` has a smaller key
    have hbefore : ∀ b ∈ (sortByKey key xs).takeWhile (fun b ↦ ¬key a ≤ key b),
        ¬decide (key b = key a) = true := fun b hb ↦ by
      have hlt := List.mem_takeWhile_imp (p := fun b ↦ decide ¬key a ≤ key b) hb
      simp only [decide_eq_true_eq] at hlt ⊢
      omega
    rw [sortByKey, List.insertionSort_cons, List.orderedInsert_eq_take_drop, ← sortByKey,
      List.filter_append]
    rw [← List.takeWhile_append_dropWhile (p := fun b ↦ ¬key a ≤ key b)
      (l := sortByKey key xs), List.filter_append] at ih
    by_cases hk : key a = k
    · subst hk
      rw [List.filter_eq_nil_iff.2 hbefore, List.nil_append] at ih ⊢
      rw [List.filter_cons_of_pos (by simp), List.filter_cons_of_pos (by simp), ih]
    · rw [List.filter_cons_of_neg (by simpa using hk), List.filter_cons_of_neg (by simpa using hk),
        ih]

theorem pairwise_sortByKey : (sortByKey key xs).Pairwise fun a b ↦ key a ≤ key b := by
  have htrans : IsTrans α fun a b ↦ key a ≤ key b := ⟨fun _ _ _ hab hbc ↦ hab.trans hbc⟩
  have htotal : Std.Total fun a b : α ↦ key a ≤ key b := ⟨fun a b ↦ le_total (key a) (key b)⟩
  exact List.pairwise_insertionSort _ xs

/-- The first element of a descending sort is a maximum. -/
theorem le_head_sortByKeyReverse {a : α} {rest : List α}
    (h : sortByKeyReverse key xs = a :: rest) : ∀ b ∈ xs, key b ≤ key a := by
  have hsorted := pairwise_sortByKeyReverse key xs
  intro b hb
  have hmem : b ∈ a :: rest := h ▸ (sortByKeyReverse_perm key xs).mem_iff.2 hb
  rw [h] at hsorted
  rcases List.mem_cons.1 hmem with rfl | hrest
  · exact le_rfl
  · exact (List.pairwise_cons.1 hsorted).1 b hrest

/-- An ascending sort, searched for a key of at least `n`, gives a smallest one. -/
theorem find?_sortByKey {n : ℤ} {a : α}
    (h : (sortByKey key xs).find? (fun x ↦ key x ≥ n) = some a) :
    a ∈ xs ∧ n ≤ key a ∧ ∀ b ∈ xs, n ≤ key b → key a ≤ key b := by
  have hsorted := pairwise_sortByKey key xs
  obtain ⟨hfits, before, after, hsplit, hbefore⟩ := List.find?_eq_some_iff_append.1 h
  rw [hsplit] at hsorted
  have hmem : ∀ b, b ∈ xs ↔ b ∈ before ++ a :: after := fun b ↦ by
    rw [← hsplit]
    exact (sortByKey_perm key xs).mem_iff.symm
  refine ⟨(hmem a).2 (by simp), of_decide_eq_true hfits, fun b hb hn ↦ ?_⟩
  rcases List.mem_append.1 ((hmem b).1 hb) with hb | hb
  · -- what comes before is too small
    have hsmall := hbefore b hb
    simp only [ge_iff_le, decide_eq_true hn] at hsmall
    exact nomatch hsmall
  · rcases List.mem_cons.1 hb with rfl | hb
    · exact le_rfl
    · exact (List.pairwise_cons.1 (List.pairwise_append.1 hsorted).2.1).1 b hb

end Sorting

/-- What is tagged with a key, among what is tagged with several keys. -/
theorem filter_flatMap_tagged {κ α : Type} [DecidableEq κ] (f : κ → List α) {keys : List κ}
    (hnodup : keys.Nodup) {key : κ} (hkey : key ∈ keys) :
    ((keys.flatMap fun k ↦ (f k).map (Prod.mk k)).filter fun x ↦ x.1 = key).map Prod.snd =
      f key := by
  have hfilter : keys.filter (fun k ↦ k = key) = [key] := by
    rw [List.filter_eq, List.count_eq_one_of_mem hnodup hkey, List.replicate_one]
  have htagged : ((keys.flatMap fun k ↦ (f k).map (Prod.mk k)).filter fun x ↦ x.1 = key).map
      Prod.snd = (keys.filter fun k ↦ k = key).flatMap f := by
    clear hnodup hkey hfilter
    induction keys with
    | nil => rfl
    | cons k keys ih =>
      rw [List.flatMap_cons, List.filter_append, List.map_append, ih, List.filter_map]
      rcases eq_or_ne k key with rfl | hne
      · simp [Function.comp_def]
      · simp [Function.comp_def, hne]
  rw [htagged, hfilter, List.flatMap_singleton]

/-! ### Time -/

/-- A `datetime`, in microseconds. -/
abbrev Time := ℤ

/-- `(b - a).seconds`: Python normalises a difference to days, seconds in `[0, 86400)` and
microseconds, and `.seconds` is the middle part. -/
def timedeltaSeconds (a b : Time) : ℤ :=
  ((b - a) / 1000000) % 86400

example : timedeltaSeconds 0 (90000 * 1000000) = 3600 := by decide

end Python
