import DynamicTorque.Language.Builtins

/-!
# Digits outside ASCII

`unicode.isdigit` and `int` on a `unicode` text. `isdigit` knows the decimal digits of every script
and some signs that stand for a digit without being one of a decimal system, such as a superscript;
`int` reads the former and raises for the latter. The tables are those of Unicode 5.2.

* `returns_int_iff`: what `int` reads of the texts that `isdigit` accepts.
* `int_of_isdigit`: a text of ASCII digits is read as before.
-/

namespace Python.Unicode

/-- The character lies in one of the ranges. -/
def inRanges (ranges : List (ℕ × ℕ)) (c : Char) : Bool :=
  ranges.any fun r ↦ r.1 ≤ c.toNat ∧ c.toNat ≤ r.2

/-- The zeros that nine other decimal digits follow. -/
def zeros : List ℕ :=
  [0x30, 0x660, 0x6F0, 0x7C0, 0x966, 0x9E6, 0xA66, 0xAE6, 0xB66, 0xBE6, 0xC66, 0xCE6, 0xD66, 0xE50,
    0xED0, 0xF20, 0x1040, 0x1090, 0x17E0, 0x1810, 0x1946, 0x19D0, 0x1A80, 0x1A90, 0x1B50, 0x1BB0,
    0x1C40, 0x1C50, 0xA620, 0xA8D0, 0xA900, 0xA9D0, 0xAA50, 0xABF0, 0xFF10, 0x104A0, 0x1D7CE,
    0x1D7D8, 0x1D7E2, 0x1D7EC, 0x1D7F6]

/-- The value of a decimal digit. One of them has no others beside it. -/
def decimal (c : Char) : Option ℕ :=
  if c.toNat = 0x19DA then some 1
  else (zeros.find? fun z ↦ z ≤ c.toNat ∧ c.toNat ≤ z + 9).map fun z ↦ c.toNat - z

/-- The signs that stand for a digit and are not decimal. -/
def signs : List (ℕ × ℕ) :=
  [(0xB2, 0xB3), (0xB9, 0xB9), (0x1369, 0x1371), (0x2070, 0x2070), (0x2074, 0x2079),
    (0x2080, 0x2089), (0x2460, 0x2468), (0x2474, 0x247C), (0x2488, 0x2490), (0x24EA, 0x24EA),
    (0x24F5, 0x24FD), (0x24FF, 0x24FF), (0x2776, 0x277E), (0x2780, 0x2788), (0x278A, 0x2792),
    (0x10A40, 0x10A43), (0x10E60, 0x10E68), (0x1F100, 0x1F10A)]

/-- A digit of any kind. -/
def isDigit (c : Char) : Bool :=
  (decimal c).isSome || inRanges signs c

/-- `s.isdigit()`. -/
def isdigit (s : String) : Bool :=
  !s.toList.isEmpty && s.toList.all isDigit

/-- The blanks that XML can hold. -/
def blanks : List (ℕ × ℕ) :=
  [(0x9, 0xD), (0x20, 0x20), (0x85, 0x85), (0xA0, 0xA0), (0x1680, 0x1680), (0x180E, 0x180E),
    (0x2000, 0x200A), (0x2028, 0x2029), (0x202F, 0x202F), (0x205F, 0x205F), (0x3000, 0x3000)]

/-- `s.strip()` on a list of characters. -/
def strip (cs : List Char) : List Char :=
  ((cs.dropWhile (inRanges blanks)).reverse.dropWhile (inRanges blanks)).reverse

/-- The number that decimal digits make; none where there are none, or one is not decimal. -/
def number (cs : List Char) : Option ℕ :=
  if cs = [] then none
  else (cs.mapM decimal).map fun digits ↦ digits.foldl (fun n d ↦ 10 * n + d) 0

/-- The number with its sign, or what is raised. -/
def signed (s : String) (sign : ℤ) (cs : List Char) : Except PyError ℤ :=
  match number cs with
  | some n => .ok (sign * n)
  | none => .error (.valueError s)

/-- `int(s)`. -/
def int (s : String) : Except PyError ℤ :=
  match strip s.toList with
  | '-' :: cs => signed s (-1) cs
  | '+' :: cs => signed s 1 cs
  | cs => signed s 1 cs

/-- `int(text)` of an XML element; it may have no text. -/
def intOfText : Option String → Except PyError ℤ
  | none => .error .typeError
  | some text => int text

/-! ### Digits are neither blanks nor signs -/

theorem inRanges_eq_true_iff {ranges : List (ℕ × ℕ)} {c : Char} :
    inRanges ranges c = true ↔ ∃ r ∈ ranges, r.1 ≤ c.toNat ∧ c.toNat ≤ r.2 := by
  simp [inRanges]

/-- The ranges of all digits. -/
def digitRanges : List (ℕ × ℕ) :=
  (0x19DA, 0x19DA) :: (zeros.map fun z ↦ (z, z + 9)) ++ signs

theorem inRanges_of_isDigit {c : Char} (h : isDigit c = true) : inRanges digitRanges c = true := by
  rw [inRanges_eq_true_iff]
  rw [isDigit, Bool.or_eq_true] at h
  rcases h with hdecimal | hsign
  · rw [decimal] at hdecimal
    split at hdecimal
    · rename_i heq
      exact ⟨(0x19DA, 0x19DA), by simp [digitRanges], by simp [heq]⟩
    · rw [Option.isSome_map, List.find?_isSome] at hdecimal
      obtain ⟨z, hz, hrange⟩ := hdecimal
      refine ⟨(z, z + 9), ?_, by simpa using hrange⟩
      exact List.mem_append_left _ (List.mem_cons_of_mem _ (List.mem_map_of_mem hz))
  · obtain ⟨r, hr, hrange⟩ := inRanges_eq_true_iff.1 hsign
    exact ⟨r, List.mem_append_right _ hr, hrange⟩

/-- Nothing lies in two ranges that do not meet. -/
theorem not_inRanges {ranges others : List (ℕ × ℕ)}
    (hapart : ∀ r ∈ ranges, ∀ other ∈ others, r.2 < other.1 ∨ other.2 < r.1) {c : Char}
    (h : inRanges ranges c = true) : inRanges others c = false := by
  obtain ⟨r, hr, hlow, hhigh⟩ := inRanges_eq_true_iff.1 h
  refine Bool.eq_false_iff.2 fun hother ↦ ?_
  obtain ⟨other, hmem, hlow', hhigh'⟩ := inRanges_eq_true_iff.1 hother
  have := hapart r hr other hmem
  omega

theorem not_blank_of_isDigit {c : Char} (h : isDigit c = true) : inRanges blanks c = false :=
  not_inRanges (by decide) (inRanges_of_isDigit h)

theorem ne_of_isDigit {c d : Char} (h : isDigit c = true) (hd : isDigit d = false) : c ≠ d := by
  intro heq
  rw [heq, hd] at h
  exact Bool.false_ne_true h

/-! ### Reading -/

section Reading

variable {s : String} {n : ℤ}

theorem isDigit_of_isdigit (h : isdigit s = true) {c : Char} (hc : c ∈ s.toList) :
    isDigit c = true :=
  List.all_eq_true.1 (Bool.and_eq_true _ _ ▸ h).2 c hc

/-- What has no blanks is not stripped. -/
theorem strip_of_isdigit (h : isdigit s = true) : strip s.toList = s.toList := by
  have hall : ∀ c ∈ s.toList, inRanges blanks c = false := fun c hc ↦
    not_blank_of_isDigit (isDigit_of_isdigit h hc)
  have hleft : s.toList.dropWhile (inRanges blanks) = s.toList :=
    List.dropWhile_eq_self_iff.2 fun hl ↦ by simp [hall _ (List.getElem_mem hl)]
  have hright : s.toList.reverse.dropWhile (inRanges blanks) = s.toList.reverse :=
    List.dropWhile_eq_self_iff.2 fun hl ↦ by
      rw [hall _ (List.mem_reverse.1 (List.getElem_mem hl))]
      exact Bool.false_ne_true
  rw [strip, hleft, hright, List.reverse_reverse]

/-- Digits are read without a sign. -/
theorem int_eq_signed (h : isdigit s = true) : int s = signed s 1 s.toList := by
  rw [int, strip_of_isdigit h]
  split
  · rename_i cs hs
    exact absurd rfl (ne_of_isDigit (isDigit_of_isdigit h (c := '-') (by simp [hs])) (by decide))
  · rename_i cs hs
    exact absurd rfl (ne_of_isDigit (isDigit_of_isdigit h (c := '+') (by simp [hs])) (by decide))
  · rfl

theorem mapM_decimal_isSome {cs : List Char} :
    (cs.mapM decimal).isSome ↔ ∀ c ∈ cs, (decimal c).isSome := by
  induction cs with
  | nil => simp
  | cons c cs ih =>
    rw [List.forall_mem_cons, ← ih, List.mapM_cons]
    cases decimal c with
    | none => simp
    | some d => cases cs.mapM decimal <;> simp

/-- **Digits are read** if all of them are decimal. -/
theorem returns_int_iff (h : isdigit s = true) :
    Returns (int s) ↔ ∀ c ∈ s.toList, (decimal c).isSome := by
  have hne : s.toList ≠ [] := by
    intro hnil
    simp [isdigit, hnil] at h
  rw [int_eq_signed h, signed, number, if_neg hne, ← mapM_decimal_isSome]
  cases s.toList.mapM decimal with
  | none => simp
  | some digits => simp

/-- What digits are read as is natural. -/
theorem nat_of_int (h : isdigit s = true) (hn : int s = .ok n) : ∃ k : ℕ, n = k := by
  rw [int_eq_signed h, signed] at hn
  split at hn
  · rename_i k _
    exact ⟨k, by rw [← Except.ok.inj hn, one_mul]⟩
  · cases hn

/-- Stripping drops blanks only. -/
theorem mem_strip_of_not_blank {cs : List Char} {c : Char} (hc : c ∈ cs)
    (hblank : inRanges blanks c = false) : c ∈ strip cs := by
  have hdrop : ∀ {cs : List Char}, c ∈ cs → c ∈ cs.dropWhile (inRanges blanks) := by
    intro cs hc
    rw [← List.takeWhile_append_dropWhile (p := inRanges blanks) (l := cs)] at hc
    rcases List.mem_append.1 hc with htake | htail
    · exact absurd (List.mem_takeWhile_imp htake) (by simp [hblank])
    · exact htail
  exact List.mem_reverse.2 (hdrop (List.mem_reverse.2 (hdrop hc)))

/-- What `int` reads has decimal digits, blanks and a sign only. -/
theorem isSome_decimal_of_int_eq_ok (h : int s = .ok n) {c : Char} (hc : c ∈ s.toList)
    (hblank : inRanges blanks c = false) : (decimal c).isSome ∨ c = '-' ∨ c = '+' := by
  have hmem := mem_strip_of_not_blank hc hblank
  have hdigits : ∀ {cs : List Char} {sign : ℤ}, signed s sign cs = .ok n → c ∈ cs →
      (decimal c).isSome := by
    intro cs sign hok hcs
    rw [signed, number, if_neg (List.ne_nil_of_mem hcs)] at hok
    refine mapM_decimal_isSome.1 ?_ c hcs
    cases hdecimal : cs.mapM decimal with
    | none => simp [hdecimal] at hok
    | some _ => rfl
  rw [int] at h
  split at h
  · rename_i cs hs
    rw [hs] at hmem
    rcases List.mem_cons.1 hmem with hminus | hcs
    · exact .inr (.inl hminus)
    · exact .inl (hdigits h hcs)
  · rename_i cs hs
    rw [hs] at hmem
    rcases List.mem_cons.1 hmem with hplus | hcs
    · exact .inr (.inr hplus)
    · exact .inl (hdigits h hcs)
  · exact .inl (hdigits h hmem)

/-! ### ASCII -/

/-- The digits of ASCII come first in the table. -/
theorem decimal_of_isDigit {c : Char} (h : c.isDigit = true) :
    decimal c = some (c.toNat - '0'.toNat) := by
  rw [Char.isDigit, Bool.and_eq_true, decide_eq_true_iff, decide_eq_true_iff] at h
  have hlow : 48 ≤ c.toNat := UInt32.le_iff_toNat_le.1 h.1
  have hhigh : c.toNat ≤ 57 := UInt32.le_iff_toNat_le.1 h.2
  rw [decimal, if_neg (by omega), zeros, List.find?_cons_of_pos (by simp; omega)]
  rfl

theorem isdigit_of_isdigit (h : Python.isdigit s = true) : isdigit s = true := by
  rw [Python.isdigit, isDigits, Bool.and_eq_true] at h
  rw [isdigit, Bool.and_eq_true]
  refine ⟨h.1, List.all_eq_true.2 fun c hc ↦ ?_⟩
  rw [isDigit, decimal_of_isDigit (List.all_eq_true.1 h.2 c hc)]
  rfl

/-- **ASCII digits** are read as their decimal value. -/
theorem int_of_isdigit (h : Python.isdigit s = true) : int s = .ok (digitsValue s.toList) := by
  have hdigits : ∀ {cs : List Char}, (∀ c ∈ cs, c.isDigit = true) →
      cs.mapM decimal = some (cs.map fun c ↦ c.toNat - '0'.toNat) := by
    intro cs hcs
    induction cs with
    | nil => rfl
    | cons c cs ih =>
      rw [List.forall_mem_cons] at hcs
      rw [List.mapM_cons, decimal_of_isDigit hcs.1, ih hcs.2]
      rfl
  have hne : s.toList ≠ [] := by
    intro hnil
    simp [Python.isdigit, isDigits, hnil] at h
  rw [int_eq_signed (isdigit_of_isdigit h), signed, number, if_neg hne,
    hdigits fun c hc ↦ isDigit_of_mem_isDigits h hc, Option.map_some, List.foldl_map]
  show Except.ok (1 * _) = _
  rw [one_mul]
  rfl

end Reading

end Python.Unicode
