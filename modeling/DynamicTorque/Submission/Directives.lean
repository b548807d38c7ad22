import Mathlib.Data.List.Induction
import DynamicTorque.Model.QsubFilter

/-!
# Resource directives

What the submit filter makes of a line: of one that asks for cores, of one that asks for memory,
and of one that is not a directive. A number of cores is read up to its second significant digit,
an amount of memory is read whole.

* `leads_readLine_ncpus`, `leads_readLine_mem`, `leads_readLine_nodes`, `leads_readLine_of_other`:
  one line.
* `leads_foldlM_of_other`: lines that are not directives change nothing.
-/

open Python Atomic Regex Pattern

namespace DynamicTorque.QsubFilter

/-! ### Decimal numbers -/

/-- A positive decimal number, as it is written. Zeros may stand in front. -/
structure Decimal where
  digits : List Char
  isDigits : isDigits digits = true
  pos : 0 < digitsValue digits

/-- The number that the digits denote. -/
def Decimal.value (n : Decimal) : ℕ := digitsValue n.digits

theorem Decimal.value_pos (n : Decimal) : 0 < n.value := n.pos

/-- The first two digits of a number. -/
def leadingTwo (n : ℕ) : ℕ :=
  if n < 100 then n else leadingTwo (n / 10)
termination_by n

section

variable {zs ds : List Char} {d : Char}

/-- One more digit at the end. -/
theorem digitsValue_concat (cs : List Char) (c : Char) :
    digitsValue (cs ++ [c]) = 10 * digitsValue cs + (c.toNat - '0'.toNat) := by
  rw [digitsValue, List.foldl_append, digitsValue]
  rfl

/-- Zeros denote zero. -/
theorem digitsValue_of_zeros (hzs : ∀ c ∈ zs, c = '0') : digitsValue zs = 0 := by
  induction zs using List.reverseRecOn with
  | nil => rfl
  | append_singleton zs c ih =>
    rw [digitsValue_concat, ih fun c hc ↦ hzs c (List.mem_append_left _ hc),
      hzs c (List.mem_append_right _ (List.mem_singleton_self c))]
    rfl

/-- `[1-9]` matches the digits other than zero. -/
theorem digit19_iff {c : Char} : digit19 c = true ↔ c.isDigit = true ∧ c ≠ '0' := by
  have hne : c = '0' ↔ c.val.toNat = 48 := by
    rw [← Char.val_inj, ← UInt32.toNat_inj]
    rfl
  simp only [digit19, Char.isDigit, ne_eq, hne, Char.le_def, UInt32.le_iff_toNat_le, ge_iff_le,
    Bool.and_eq_true, decide_eq_true_eq]
  show 49 ≤ c.val.toNat ∧ c.val.toNat ≤ 57 ↔ (48 ≤ c.val.toNat ∧ c.val.toNat ≤ 57) ∧ _
  omega

/-- The codes of the digits. -/
theorem digit_bounds {c : Char} (hc : c.isDigit = true) :
    48 ≤ c.toNat ∧ c.toNat ≤ 57 := by
  rw [Char.isDigit, Bool.and_eq_true, decide_eq_true_iff, decide_eq_true_iff] at hc
  exact ⟨UInt32.le_iff_toNat_le.1 hc.1, UInt32.le_iff_toNat_le.1 hc.2⟩

/-- A digit other than zero counts for at least one. -/
theorem one_le_digit {c : Char} (hc : digit19 c = true) : 1 ≤ c.toNat - '0'.toNat := by
  obtain ⟨hdigit, hne⟩ := digit19_iff.1 hc
  have hbounds := digit_bounds hdigit
  have hzero : c.toNat ≠ '0'.toNat := fun h ↦ hne (Char.toNat_inj.1 h)
  show 1 ≤ c.toNat - 48
  have hzero : c.toNat ≠ 48 := hzero
  omega

/-- A positive number has a first significant digit. -/
theorem Decimal.exists_significant (n : Decimal) :
    ∃ zs d ds, n.digits = zs ++ d :: ds ∧ (∀ c ∈ zs, c = '0') ∧ digit19 d = true ∧
      ∀ c ∈ ds, c.isDigit = true := by
  have hall := fun c hc ↦ isDigit_of_mem_isDigits n.isDigits (c := c) hc
  have hsplit := List.takeWhile_append_dropWhile (p := fun c ↦ c = '0') (l := n.digits)
  have hzs : ∀ c ∈ n.digits.takeWhile (fun c ↦ c = '0'), c = '0' := fun c hc ↦
    of_decide_eq_true (List.mem_takeWhile_imp (p := fun c ↦ decide (c = '0')) hc)
  rcases hdrop : n.digits.dropWhile (fun c ↦ c = '0') with - | ⟨d, ds⟩
  · -- nothing but zeros
    rw [hdrop, List.append_nil] at hsplit
    rw [hsplit] at hzs
    exact absurd (digitsValue_of_zeros hzs) n.pos.ne'
  · rw [hdrop] at hsplit
    have hmem : ∀ c ∈ d :: ds, c.isDigit = true := fun c hc ↦
      hall c (hsplit ▸ List.mem_append_right _ hc)
    have hd : d ≠ '0' := by
      have := List.head?_dropWhile_not (fun c ↦ decide (c = '0')) n.digits
      rw [hdrop] at this
      simpa using this
    exact ⟨_, d, ds, hsplit.symm, hzs, digit19_iff.2 ⟨hmem d (List.mem_cons_self ..), hd⟩,
      fun c hc ↦ hmem c (.tail _ hc)⟩

/-- One more digit behind a significant one. -/
theorem digitsValue_concat_significant (zs ds : List Char) (d c : Char) :
    digitsValue (zs ++ d :: (ds ++ [c])) =
      10 * digitsValue (zs ++ d :: ds) + (c.toNat - '0'.toNat) := by
  rw [← digitsValue_concat, List.append_assoc, List.cons_append]

/-- Leading zeros do not count. -/
theorem digitsValue_significant (hzs : ∀ c ∈ zs, c = '0') (d : Char) :
    digitsValue (zs ++ [d]) = d.toNat - '0'.toNat := by
  rw [digitsValue_concat, digitsValue_of_zeros hzs, Nat.mul_zero, Nat.zero_add]

/-- A number with a significant digit is positive. -/
theorem one_le_digitsValue (hzs : ∀ c ∈ zs, c = '0') (hd : digit19 d = true) (ds : List Char) :
    1 ≤ digitsValue (zs ++ d :: ds) := by
  induction ds using List.reverseRecOn with
  | nil =>
    rw [digitsValue_significant hzs]
    exact one_le_digit hd
  | append_singleton ds c ih =>
    rw [digitsValue_concat_significant]
    omega

/-- What is left of a number after its second significant digit does not count. -/
theorem digitsValue_take (hzs : ∀ c ∈ zs, c = '0') (hd : digit19 d = true)
    (hds : ∀ c ∈ ds, c.isDigit = true) :
    digitsValue (zs ++ d :: ds.take 1) = leadingTwo (digitsValue (zs ++ d :: ds)) := by
  have hnine : ∀ c : Char, c.isDigit = true → c.toNat - '0'.toNat ≤ 9 := fun c hc ↦ by
    have hbounds := digit_bounds hc
    show c.toNat - 48 ≤ 9
    omega
  have hfirst := hnine d (digit19_iff.1 hd).1
  induction ds using List.reverseRecOn with
  | nil =>
    rw [List.take_nil, leadingTwo, if_pos]
    rw [digitsValue_significant hzs]
    omega
  | append_singleton ds c ih =>
    have hlast := hnine c (hds c (List.mem_append_right _ (List.mem_singleton_self c)))
    rw [digitsValue_concat_significant]
    rcases List.eq_nil_or_concat' ds with rfl | ⟨ds, e, rfl⟩
    · -- two digits
      rw [List.nil_append, List.take_one, List.head?_cons, Option.toList_some, leadingTwo, if_pos]
      · exact digitsValue_concat_significant zs [] d c
      · rw [digitsValue_significant hzs]
        omega
    · -- the last of three digits or more
      have hten : 10 ≤ digitsValue (zs ++ d :: (ds ++ [e])) := by
        have hone := one_le_digitsValue hzs hd ds
        rw [digitsValue_concat_significant]
        omega
      have hdiv : (10 * digitsValue (zs ++ d :: (ds ++ [e])) + (c.toNat - '0'.toNat)) / 10 =
          digitsValue (zs ++ d :: (ds ++ [e])) := by omega
      rw [leadingTwo, if_neg (by omega), hdiv,
        ← ih fun c hc ↦ hds c (List.mem_append_left _ hc),
        List.take_append_of_le_length (by rw [List.length_append, List.length_singleton]; omega)]

end

/-! ### The patterns on the lines -/

section

variable {zs ds tail : List Char} {d : Char}

/-- A single blank is matched as one. -/
theorem first_blank (c : Char) (hc : c ≠ ' ') (s : List Char) :
    blanks.first ([' '] ++ c :: s) = some ⟨[' '], [], c :: s⟩ := by
  refine first_star (List.forall_mem_singleton.2 rfl) fun c' hc' ↦ ?_
  obtain rfl := Option.some.inj hc'
  exact decide_eq_false hc

/-- All leading zeros are matched, and nothing else. -/
theorem first_zeros (hzs : ∀ c ∈ zs, c = '0') (hd : digit19 d = true) (s : List Char) :
    zeros.first (zs ++ d :: s) = some ⟨zs, [], d :: s⟩ := by
  refine first_star (fun c hc ↦ decide_eq_true (hzs c hc)) fun c hc ↦ ?_
  obtain rfl := Option.some.inj hc
  exact decide_eq_false (digit19_iff.1 hd).2

/-- A count ends after its second significant digit. -/
theorem first_count (hzs : ∀ c ∈ zs, c = '0') (hd : digit19 d = true)
    (hds : ∀ c ∈ ds, c.isDigit = true) (htail : ∀ c ∈ tail.head?, c.isDigit = false) :
    count.first (zs ++ d :: (ds ++ tail)) =
      some ⟨zs ++ d :: ds.take 1, [zs ++ d :: ds.take 1], ds.drop 1 ++ tail⟩ := by
  have hopt : (opt Char.isDigit).first (ds ++ tail) =
      some ⟨ds.take 1, [], ds.drop 1 ++ tail⟩ := by
    rcases ds with - | ⟨c, ds⟩
    · exact first_opt_of_stop htail
    · exact first_opt (hds c (List.mem_cons_self ..)) _
  exact first_group (first_seq (first_zeros hzs hd _) (first_seq (first_char hd _) hopt))

/-- An amount ends with its last digit. -/
theorem first_amount (hzs : ∀ c ∈ zs, c = '0') (hd : digit19 d = true)
    (hds : ∀ c ∈ ds, c.isDigit = true) (htail : ∀ c ∈ tail.head?, c.isDigit = false) :
    amount.first (zs ++ d :: (ds ++ tail)) =
      some ⟨zs ++ d :: ds, [zs ++ d :: ds], tail⟩ :=
  first_group (first_seq (first_zeros hzs hd _) (first_seq (first_char hd _)
    (first_star hds htail)))

/-- Every pattern for a resource asks for an equals sign. -/
theorem requires_eq (w : List Char) (hw : '=' ∈ w) (r : Pattern Char) :
    (seq (literal w) r).Requires '=' ∧ (seq blanks (seq (literal w) r)).Requires '=' :=
  ⟨(requires_literal hw).seq_left r, ((requires_literal hw).seq_left r).seq_right blanks⟩

end

/-- `#PBS -l` and what follows. -/
def resourceChars (tail : List Char) : List Char :=
  '#' :: 'P' :: 'B' :: 'S' :: ' ' :: '-' :: 'l' :: tail

/-- `#PBS -l ncpus=` and what follows. -/
def ncpusChars (tail : List Char) : List Char :=
  resourceChars (' ' :: 'n' :: 'c' :: 'p' :: 'u' :: 's' :: '=' :: tail)

/-- `#PBS -l nodes=1:ppn=` and what follows. -/
def nodesChars (tail : List Char) : List Char :=
  resourceChars (' ' :: 'n' :: 'o' :: 'd' :: 'e' :: 's' :: '=' ::
    '1' :: ':' :: 'p' :: 'p' :: 'n' :: '=' :: tail)

/-- `#PBS -l mem=` and what follows. -/
def memChars (tail : List Char) : List Char :=
  resourceChars (' ' :: 'm' :: 'e' :: 'm' :: '=' :: tail)

section

variable {tail : List Char} {zs ds : List Char} {d : Char}

/-- The directive for resources is none for an account. -/
theorem accountPattern_resourceChars (tail : List Char) :
    accountPattern.first (resourceChars (' ' :: tail)) = none := by
  simp [accountPattern, directive, blanks, literal, first, all, repeated, resourceChars,
    Match.andThen]

/-- It is recognised as one for resources. -/
theorem resourcePattern_resourceChars (tail : List Char) :
    (resourcePattern.first (resourceChars (' ' :: tail))).isSome = true := by
  simp [resourcePattern, directive, blanks, literal, first, all, repeated, resourceChars,
    Match.andThen, repeated_ne_nil]

/-- No pattern for a resource matches before the blank. -/
theorem search_resourceChars (tail : List Char) :
    nodesPattern.search (resourceChars tail) = nodesPattern.search tail ∧
      ncpusPattern.search (resourceChars tail) = ncpusPattern.search tail ∧
      memPattern.search (resourceChars tail) = memPattern.search tail := ⟨rfl, rfl, rfl⟩

/-- A directive for `ncpus` sets no number of nodes. -/
theorem nodesPattern_ncpus (h : '=' ∉ tail) : nodesPattern.search (ncpusChars tail) = none := by
  show nodesPattern.search tail = none
  exact search_eq_none (requires_eq _ (by decide) count).2 h

theorem ppnPattern_ncpus (h : '=' ∉ tail) : ppnPattern.search (ncpusChars tail) = none := by
  show ppnPattern.search tail = none
  exact search_eq_none (requires_eq _ (by decide) count).1 h

theorem memPattern_ncpus (h : '=' ∉ tail) : memPattern.search (ncpusChars tail) = none := by
  show memPattern.search tail = none
  exact search_eq_none (requires_eq _ (by decide) (seq amount unit)).2 h

/-- It sets the number of processors, from which at most two digits are read. -/
theorem ncpusPattern_ncpus (hzs : ∀ c ∈ zs, c = '0') (hd : digit19 d = true)
    (hds : ∀ c ∈ ds, c.isDigit = true) (htail : ∀ c ∈ tail.head?, c.isDigit = false) :
    ∃ m, ncpusPattern.search (ncpusChars (zs ++ d :: (ds ++ tail))) = some m ∧
      groupText m 0 = String.ofList (zs ++ d :: ds.take 1) := by
  have hfirst := first_seq (first_literal ['n', 'c', 'p', 'u', 's', '='] _)
    (first_count hzs hd hds htail)
  have hblank := search_of_first_none (r := ncpusPattern) (c := ' ')
    (s := ['n', 'c', 'p', 'u', 's', '='] ++ (zs ++ d :: (ds ++ tail))) rfl
  exact ⟨_, (search_resourceChars _).2.1.trans (hblank.trans (search_of_first hfirst)), rfl⟩

/-- A directive for memory sets no number of nodes. -/
theorem nodesPattern_mem (h : '=' ∉ tail) : nodesPattern.search (memChars tail) = none := by
  show nodesPattern.search tail = none
  exact search_eq_none (requires_eq _ (by decide) count).2 h

theorem ppnPattern_mem (h : '=' ∉ tail) : ppnPattern.search (memChars tail) = none := by
  show ppnPattern.search tail = none
  exact search_eq_none (requires_eq _ (by decide) count).1 h

theorem ncpusPattern_mem (h : '=' ∉ tail) : ncpusPattern.search (memChars tail) = none := by
  show ncpusPattern.search tail = none
  exact search_eq_none (requires_eq _ (by decide) count).1 h

/-- It sets the amount and the unit. -/
theorem memPattern_mem (hzs : ∀ c ∈ zs, c = '0') (hd : digit19 d = true)
    (hds : ∀ c ∈ ds, c.isDigit = true) (tail : List Char) :
    ∃ m, memPattern.search (memChars (zs ++ d :: (ds ++ 'k' :: 'b' :: tail))) = some m ∧
      groupText m 0 = String.ofList (zs ++ d :: ds) ∧ groupText m 1 = "kb" := by
  have hamount : amount.first (zs ++ d :: (ds ++ 'k' :: 'b' :: tail)) =
      some ⟨zs ++ d :: ds, [zs ++ d :: ds], 'k' :: 'b' :: tail⟩ :=
    first_amount hzs hd hds fun c hc ↦ by
      obtain rfl := Option.some.inj hc
      rfl
  have hunit : unit.first ('k' :: 'b' :: tail) = some ⟨['k', 'b'], [['k', 'b']], tail⟩ :=
    first_group (first_seq (first_char (by decide) _) (first_char (by decide) _))
  have hfirst := first_seq (first_blank 'm' (by decide) _)
    (first_seq (first_literal ['m', 'e', 'm', '='] _) (first_seq hamount hunit))
  exact ⟨_, (search_resourceChars _).2.2.trans (search_of_first hfirst), rfl, rfl⟩

/-- A directive for nodes sets their number, which is one. -/
theorem nodesPattern_nodes (tail : List Char) :
    ∃ m, nodesPattern.search (nodesChars tail) = some m ∧ groupText m 0 = "1" := by
  have hcount : count.first ([] ++ '1' :: ([] ++ ':' :: 'p' :: 'p' :: 'n' :: '=' :: tail)) =
      some ⟨['1'], [['1']], ':' :: 'p' :: 'p' :: 'n' :: '=' :: tail⟩ :=
    first_count (List.forall_mem_nil _) (by decide) (List.forall_mem_nil _) fun c hc ↦ by
      obtain rfl := Option.some.inj hc
      rfl
  have hfirst := first_seq (first_blank 'n' (by decide) _)
    (first_seq (first_literal ['n', 'o', 'd', 'e', 's', '='] _) hcount)
  exact ⟨_, (search_resourceChars _).1.trans (search_of_first hfirst), rfl⟩

end

/-! ### Runs, whatever has been written -/

/-- The part of the filter ends with this value, or is left in this way. -/
def Leads {α : Type} (x : Filter α) (r : Except Exit α) : Prop :=
  ∀ out, Ends x out (fun a _ ↦ r = .ok a) fun e _ ↦ r = .error e

section

variable {α β : Type} {x : Filter α} {f : α → Filter β} {a : α} {e : Exit}

/-- There is one way in which it ends. -/
theorem Leads.unique {r r' : Except Exit α} (h : Leads x r) (h' : Leads x r') : r = r' := by
  have hends := (h {}).and (h' {})
  rw [Ends] at hends
  split at hends
  · exact hends.1.trans hends.2.symm
  · exact hends.1.trans hends.2.symm

/-- Returning leads to what is returned. -/
theorem leads_pure (a : α) : Leads (pure a) (.ok a) := fun _ ↦ rfl

/-- Raising leads to the exception. -/
theorem leads_raise (e : PyError) : Leads (raise e : Filter α) (.error (.raised e)) := fun _ ↦ rfl

/-- A call that returns leads to its result. -/
theorem leads_call {y : Except PyError α} (h : y = .ok a) : Leads (call y) (.ok a) := by
  rw [h]
  exact leads_pure a

/-- What is written does not matter. -/
theorem leads_writeOut (line : String) : Leads (writeOut line) (.ok ()) := fun _ ↦ rfl

theorem leads_writeErr (message : Message) : Leads (writeErr message) (.ok ()) := fun _ ↦ rfl

/-- One step after another. -/
theorem Leads.bind {r : Except Exit β} (hx : Leads x (.ok a)) (hf : Leads (f a) r) :
    Leads (x >>= f) r := by
  intro out
  rw [ends_bind]
  refine (hx out).mono (fun a' out' ha ↦ ?_) fun _ _ h ↦ nomatch h
  rw [← Except.ok.inj ha]
  exact hf out'

/-- After an exit nothing follows. -/
theorem Leads.bind_error (hx : Leads x (.error e)) (f : α → Filter β) :
    Leads (x >>= f) (.error e) := by
  intro out
  rw [ends_bind]
  refine (hx out).mono (fun _ _ h ↦ nomatch h) fun e' _ h ↦ ?_
  rw [Except.error.inj h]

end

/-! ### One line -/

section

variable {line : String} {request : Request}

/-- A line that is no directive of the two kinds leaves the request as it was. -/
theorem leads_readLine_of_other (haccount : accountPattern.first line.toList = none)
    (hresource : (resourcePattern.first line.toList).isSome = false) :
    Leads (readLine request line) (.ok request) := by
  refine (leads_writeOut line).bind ?_
  rw [haccount, hresource]
  exact leads_pure request

/-- A line for a resource goes through the four parts. -/
theorem leads_readLine {tail : List Char} {r : Except Exit Request}
    (hline : line.toList = resourceChars (' ' :: tail))
    (h : Leads (do
      let request ← readNodes line request
      let request ← readPpn line request
      let request ← readNcpus line request
      readMem line request) r) :
    Leads (readLine request line) r := by
  have haccount := accountPattern_resourceChars tail
  have hresource := resourcePattern_resourceChars tail
  rw [← hline] at haccount hresource
  refine (leads_writeOut line).bind ?_
  rw [haccount, hresource]
  exact h

/-- A resource that does not name nodes leaves their number as it was. -/
theorem leads_readNodes (h : nodesPattern.search line.toList = none) :
    Leads (readNodes line request) (.ok request) := by
  rw [readNodes, h]
  exact leads_pure request

theorem leads_readPpn (h : ppnPattern.search line.toList = none) :
    Leads (readPpn line request) (.ok request) := by
  rw [readPpn, h]
  exact leads_pure request

theorem leads_readNcpus (h : ncpusPattern.search line.toList = none) :
    Leads (readNcpus line request) (.ok request) := by
  rw [readNcpus, h]
  exact leads_pure request

theorem leads_readMem (h : memPattern.search line.toList = none) :
    Leads (readMem line request) (.ok request) := by
  rw [readMem, h]
  exact leads_pure request

/-- What can follow on the line of a directive: blanks, a line break, or nothing. -/
def Ending (tail : List Char) : Prop := ∀ c ∈ tail, isSpace c = true

/-- What follows a number does not begin with a digit. -/
theorem Ending.head_not_isDigit {tail : List Char} (h : Ending tail) :
    ∀ c ∈ tail.head?, c.isDigit = false := by
  intro c hc
  by_contra hdigit
  have hspace := isSpace_of_isDigit (Bool.not_eq_false _ ▸ hdigit : c.isDigit = true)
  rw [h c (List.mem_of_mem_head? hc)] at hspace
  cases hspace

/-- There is no equals sign in a number, ... -/
theorem Decimal.eq_notMem (n : Decimal) : '=' ∉ n.digits := fun h ↦
  absurd (isDigit_of_mem_isDigits n.isDigits h) (by decide)

/-- ... nor in what follows it. -/
theorem Ending.eq_notMem {tail : List Char} (h : Ending tail) : '=' ∉ tail := fun hmem ↦
  absurd (h '=' hmem) (by decide)

/-- `int` of digits. -/
theorem int_digits {cs : List Char} (h : Python.isDigits cs = true) :
    int (String.ofList cs) = .ok (digitsValue cs) := by
  rw [int_of_isdigit, String.toList_ofList]
  rwa [isdigit, String.toList_ofList]

/-- So are the digits of a number up to its second significant one. -/
theorem isDigits_take {zs ds : List Char} {d : Char} (hzs : ∀ c ∈ zs, c = '0')
    (hd : digit19 d = true) (hds : ∀ c ∈ ds, c.isDigit = true) :
    Python.isDigits (zs ++ d :: ds.take 1) = true := by
  rw [Python.isDigits, Bool.and_eq_true]
  refine ⟨by simp, List.all_eq_true.2 fun c hc ↦ ?_⟩
  rcases List.mem_append.1 hc with hc | hc
  · rw [hzs c hc]
    rfl
  · rcases List.mem_cons.1 hc with rfl | hc
    · exact (digit19_iff.1 hd).1
    · exact hds c (List.mem_of_mem_take hc)

/-- **A line for cores** sets the count to the first two digits of the number. -/
theorem leads_readLine_ncpus (n : Decimal) {tail : List Char} (htail : Ending tail)
    (hline : line.toList = ncpusChars (n.digits ++ tail)) :
    Leads (readLine request line)
      (.ok { request with nodeCount := 1, ppnCount := leadingTwo n.value }) := by
  obtain ⟨zs, d, ds, hdigits, hzs, hd, hds⟩ := n.exists_significant
  have hnone : '=' ∉ n.digits ++ tail := fun h ↦
    (List.mem_append.1 h).elim n.eq_notMem htail.eq_notMem
  have hsplit : n.digits ++ tail = zs ++ d :: (ds ++ tail) := by
    rw [hdigits, List.append_assoc, List.cons_append]
  obtain ⟨m, hsearch, hgroup⟩ := ncpusPattern_ncpus hzs hd hds htail.head_not_isDigit
  have hcount : int (groupText m 0) = .ok (leadingTwo n.value) := by
    rw [hgroup, int_digits (isDigits_take hzs hd hds), digitsValue_take hzs hd hds, Decimal.value,
      hdigits]
  have hncpus : Leads (readNcpus line request)
      (.ok { request with nodeCount := 1, ppnCount := leadingTwo n.value }) := by
    rw [readNcpus, hline, hsplit, hsearch]
    exact (leads_call hcount).bind (leads_pure _)
  exact leads_readLine hline ((leads_readNodes (hline ▸ nodesPattern_ncpus hnone)).bind
    ((leads_readPpn (hline ▸ ppnPattern_ncpus hnone)).bind
      (hncpus.bind (leads_readMem (hline ▸ memPattern_ncpus hnone)))))

/-- **A line for memory** sets the amount. -/
theorem leads_readLine_mem (n : Decimal) {tail : List Char} (htail : Ending tail)
    (hline : line.toList = memChars (n.digits ++ 'k' :: 'b' :: tail)) :
    Leads (readLine request line) (.ok { request with memory := n.value }) := by
  obtain ⟨zs, d, ds, hdigits, hzs, hd, hds⟩ := n.exists_significant
  have hnone : '=' ∉ n.digits ++ 'k' :: 'b' :: tail := by
    simp [n.eq_notMem, htail.eq_notMem]
  have hsplit : n.digits ++ 'k' :: 'b' :: tail = zs ++ d :: (ds ++ 'k' :: 'b' :: tail) := by
    rw [hdigits, List.append_assoc, List.cons_append]
  obtain ⟨m, hsearch, hamount, hunit⟩ := memPattern_mem hzs hd hds tail
  have hmemory : int (groupText m 0) = .ok n.value := by
    rw [hamount, ← hdigits, int_digits n.isDigits]
    rfl
  have hmem : Leads (readMem line request) (.ok { request with memory := n.value }) := by
    rw [readMem, hline, hsplit, hsearch]
    refine (leads_call hmemory).bind ?_
    rw [hunit]
    exact leads_pure _
  exact leads_readLine hline ((leads_readNodes (hline ▸ nodesPattern_mem hnone)).bind
    ((leads_readPpn (hline ▸ ppnPattern_mem hnone)).bind
      ((leads_readNcpus (hline ▸ ncpusPattern_mem hnone)).bind hmem)))

/-- **A line for nodes** raises: the filter asks for the name of the user, and cannot. -/
theorem leads_readLine_nodes {tail : List Char} (hline : line.toList = nodesChars tail) :
    Leads (readLine request line) (.error (.raised pwdNotDefined)) := by
  obtain ⟨m, hsearch, hgroup⟩ := nodesPattern_nodes tail
  have hcount : int (groupText m 0) = .ok 1 := by
    rw [hgroup]
    decide +kernel
  have hnodes : Leads (readNodes line request) (.error (.raised pwdNotDefined)) := by
    rw [readNodes, hline, hsearch]
    exact (leads_call hcount).bind ((leads_raise _).bind_error _)
  exact leads_readLine hline (hnodes.bind_error _)

/-! ### Other lines -/

/-- The filter takes the line for a resource directive. -/
def isResource (line : String) : Bool := (resourcePattern.first line.toList).isSome

/-- The filter takes the line for an account directive. -/
def isAccount (line : String) : Bool := (accountPattern.first line.toList).isSome

/-- Lines without directives of the two kinds leave the request as it was. -/
theorem leads_foldlM_of_other {lines : List String} (haccount : ∀ line ∈ lines, ¬isAccount line)
    (hresource : ∀ line ∈ lines, ¬isResource line) :
    Leads (lines.foldlM readLine request) (.ok request) := by
  induction lines with
  | nil => exact leads_pure request
  | cons line lines ih =>
    rw [List.foldlM_cons]
    obtain ⟨hnotAccount, haccount⟩ := List.forall_mem_cons.1 haccount
    obtain ⟨hnotResource, hresource⟩ := List.forall_mem_cons.1 hresource
    exact (leads_readLine_of_other (Option.not_isSome_iff_eq_none.1 hnotAccount)
      (Bool.eq_false_iff.2 hnotResource)).bind (ih haccount hresource)

end

end DynamicTorque.QsubFilter
