import DynamicTorque.Language.Builtins
import Mathlib.Data.List.Induction

/-!
# Configuration files

The reader of the module `ConfigParser`: sections of options, comments and continuation lines, and
the texts that refer to other options. A file is read from its text.

`read_print`: what is printed as sections of options is read back, section by section and option by
option.
-/

namespace Python

/-! ### Lines -/

/-- A separator of an option and its value. -/
def isSeparator (c : Char) : Bool :=
  c = ':' || c = '='

/-- A blank line or a comment. The word `rem` begins one where nothing precedes it. -/
def skipsLine (line : List Char) : Bool :=
  strip line = [] || line.head? = some '#' || line.head? = some ';' ||
    (line.takeWhile fun c ↦ !isSpace c).map Char.toLower = ['r', 'e', 'm']

/-- The name of a section header. -/
def headerOf : List Char → Option (List Char)
  | '[' :: rest =>
    let name := rest.takeWhile (· ≠ ']')
    if name = [] ∨ rest.dropWhile (· ≠ ']') = [] then none else some name
  | _ => none

/-- What precedes the first semicolon, if the character before that is a blank. The character before
the first one is the last one. -/
def cutComment (value : List Char) : List Char :=
  match value.findIdx? (· = ';') with
  | none => value
  | some pos =>
    match if pos = 0 then value.getLast? else value[pos - 1]? with
    | some c => if isSpace c then value.take pos else value
    | none => value

/-- The value of an option line. -/
def valueOf (rest : List Char) : List Char :=
  let value := strip (cutComment (rest.dropWhile isSpace))
  if value = ['"', '"'] then [] else value

/-- The option and the value of a line. -/
def optionOf (line : List Char) : Option (List Char × List Char) :=
  match line.head?, line.dropWhile fun c ↦ !isSeparator c with
  | some c, _ :: rest =>
    if isSpace c || isSeparator c then none
    else
      let name := line.takeWhile fun c ↦ !isSeparator c
      some ((strip name).map Char.toLower, valueOf rest)
  | _, _ => none

/-! ### Files -/

/-- What has been read: the sections in their order, and the lines of each value, by section
(`none` for the section `DEFAULT`) and option. -/
structure ConfigParser where
  sections : List String
  nodup : sections.Nodup
  lines : Option String → Dict (List String)

namespace ConfigParser

/-- Nothing has been read. -/
def empty : ConfigParser where
  sections := []
  nodup := List.nodup_nil
  lines := fun _ ↦ ∅

/-- A section is entered. -/
def enter (parser : ConfigParser) (name : String) : ConfigParser :=
  if h : name ∈ parser.sections then parser
  else
    { parser with
      sections := parser.sections ++ [name]
      nodup := by simpa [List.nodup_append] using ⟨parser.nodup, fun a ha hname ↦ h (hname ▸ ha)⟩ }

/-- The lines of an option are changed. -/
def modify (parser : ConfigParser) (sect : Option String)
    (f : Dict (List String) → Dict (List String)) : ConfigParser :=
  { parser with lines := Function.update parser.lines sect (f (parser.lines sect)) }

@[simp] theorem lines_modify_self (parser : ConfigParser) (sect : Option String)
    (f : Dict (List String) → Dict (List String)) :
    (parser.modify sect f).lines sect = f (parser.lines sect) :=
  Function.update_self ..

theorem lines_modify_of_ne (parser : ConfigParser) {sect other : Option String}
    (h : other ≠ sect) (f : Dict (List String) → Dict (List String)) :
    (parser.modify sect f).lines other = parser.lines other :=
  Function.update_of_ne h ..

/-- The state of the reader: the section (`some none` for `DEFAULT`) and the option that a line may
continue, and whether a line could not be read. -/
structure Reading where
  parser : ConfigParser
  current : Option (Option String)
  option : Option String
  bogus : Bool

/-- A line that neither continues a value nor is skipped. -/
def Reading.readEntry (r : Reading) (line : List Char) : Except PyError Reading :=
  match headerOf line, r.current, optionOf line with
  | some name, _, _ =>
    let name := String.ofList name
    if name = "DEFAULT" then .ok { r with current := some none, option := none }
    else .ok { r with parser := r.parser.enter name, current := some (some name), option := none }
  | none, none, _ => .error (.exception "MissingSectionHeaderError")
  | none, some sect, some (name, value) =>
    let name := String.ofList name
    .ok { r with
      parser := r.parser.modify sect fun options ↦ options.insert name [String.ofList value]
      option := some name }
  | none, some _, none => .ok { r with bogus := true }

/-- A line. -/
def Reading.readLine (r : Reading) (line : List Char) : Except PyError Reading :=
  if skipsLine line then .ok r
  else
    match r.current, r.option with
    | some sect, some name =>
      if (line.head?.map isSpace).getD false then
        -- a continuation of the value
        .ok { r with
          parser := r.parser.modify sect fun options ↦
            options.insert name ((options.lookup name).getD [] ++ [String.ofList (strip line)]) }
      else r.readEntry line
    | _, _ => r.readEntry line

/-- `read`, of a text. Lines that cannot be read are reported together at the end. -/
def read (text : String) : Except PyError ConfigParser := do
  let r ← (text.toList.splitOn '\n').foldlM Reading.readLine ⟨empty, none, none, false⟩
  if r.bogus then .error (.exception "ParsingError") else pure r.parser

/-- The text of an option of a section, which may have it from the defaults; `none` where
`has_option` is false. -/
def get? (parser : ConfigParser) (sect option : String) : Option String :=
  if sect ∈ parser.sections then
    let key := String.ofList (lower option)
    (((parser.lines (some sect)).lookup key).or ((parser.lines none).lookup key)).map (join '\n')
  else none

/-- `_interpolate`: while a text refers to options it is formatted with their values, which is what
`percent` does, but not more than `depth` times. -/
def interpolate (percent : String → Except PyError String) : ℕ → String → Except PyError String
  | 0, value =>
    if strIn "%(" value then .error (.exception "InterpolationDepthError") else .ok value
  | depth + 1, value =>
    if strIn "%(" value then do
      let value ← percent value
      interpolate percent depth value
    else .ok value

/-- `get`, where `percent` formats a text with the options of a section; `none` where `has_option`
is false. -/
def get (parser : ConfigParser) (percent : String → String → Except PyError String)
    (sect option : String) : Option (Except PyError String) :=
  (parser.get? sect option).map (interpolate (percent sect) 10)

/-! ### Printing -/

/-- A name of a section that can be printed. -/
def PlainName (name : String) : Prop :=
  name ≠ "" ∧ name ≠ "DEFAULT" ∧ ']' ∉ name.toList ∧ '\n' ∉ name.toList

/-- The characters of the options that can be printed. -/
def optionChars : List Char :=
  "abcdefghijklmnopqrstuvwxyz0123456789_".toList

/-- An option that can be printed. -/
def PlainOption (option : String) : Prop :=
  option ≠ "" ∧ ∀ c ∈ option.toList, c ∈ optionChars

/-- A value that can be printed: one line without blanks around it and without a comment, which is
not the sign for an empty value. -/
def PlainValue (value : String) : Prop :=
  strip value.toList = value.toList ∧ '\n' ∉ value.toList ∧
    cutComment value.toList = value.toList ∧ value.toList ≠ ['"', '"']

instance (name : String) : Decidable (PlainName name) :=
  inferInstanceAs (Decidable (_ ∧ _))

instance (option : String) : Decidable (PlainOption option) :=
  have : Decidable (∀ c ∈ option.toList, c ∈ optionChars) := List.decidableBAll _ _
  inferInstanceAs (Decidable (_ ∧ _))

instance (value : String) : Decidable (PlainValue value) :=
  inferInstanceAs (Decidable (_ ∧ _))

/-- Sections of options that can be printed. -/
structure Document where
  sections : List (String × List (String × String))
  nodup : (sections.map Prod.fst).Nodup
  plainName : ∀ s ∈ sections, PlainName s.1
  nodup_options : ∀ s ∈ sections, (s.2.map Prod.fst).Nodup
  plainOption : ∀ s ∈ sections, ∀ o ∈ s.2, PlainOption o.1
  plainValue : ∀ s ∈ sections, ∀ o ∈ s.2, PlainValue o.2

/-- The line of a section. -/
def headerLine (name : String) : List Char :=
  '[' :: (name.toList ++ [']'])

/-- The line of an option. -/
def optionLine (o : String × String) : List Char :=
  o.1.toList ++ ':' :: ' ' :: o.2.toList

/-- The lines of sections. -/
def printLines (sections : List (String × List (String × String))) : List (List Char) :=
  sections.flatMap fun s ↦ headerLine s.1 :: s.2.map optionLine

/-- The text of a document. -/
def Document.print (doc : Document) : String :=
  String.ofList ((printLines doc.sections).flatMap (· ++ ['\n']))

section Lines

variable {name option value : String} {r : Reading}

theorem optionChar_spec {c : Char} (h : c ∈ optionChars) : isSpace c = false ∧
    isSeparator c = false ∧ c.toLower = c ∧ c ≠ '#' ∧ c ≠ ';' ∧ c ≠ '[' ∧ c ≠ '\n' := by
  have hall : optionChars.all (fun c ↦ decide (isSpace c = false ∧ isSeparator c = false ∧
      c.toLower = c ∧ c ≠ '#' ∧ c ≠ ';' ∧ c ≠ '[' ∧ c ≠ '\n')) = true := by
    decide
  exact of_decide_eq_true (List.all_eq_true.1 hall c h)

/-- A line that begins with a character that is neither a blank nor the sign of a comment, and that
does not begin with the word `rem`, is not skipped. -/
theorem skipsLine_cons {c : Char} {cs : List Char} (hspace : isSpace c = false) (hhash : c ≠ '#')
    (hsemicolon : c ≠ ';')
    (hrem : ((c :: cs).takeWhile fun c ↦ !isSpace c).map Char.toLower ≠ ['r', 'e', 'm']) :
    skipsLine (c :: cs) = false := by
  have hmem : c ∈ strip (c :: cs) := mem_strip_of_not_isSpace List.mem_cons_self hspace
  have hne : strip (c :: cs) ≠ [] := List.ne_nil_of_mem hmem
  simp [skipsLine, hne, hhash, hsemicolon, hrem]

/-- What begins with no blank continues no value. -/
theorem readLine_cons {c : Char} {cs : List Char} (hspace : isSpace c = false)
    (hskip : skipsLine (c :: cs) = false) : r.readLine (c :: cs) = r.readEntry (c :: cs) := by
  rw [Reading.readLine, if_neg (by simp [hskip])]
  split
  · rw [if_neg (by simp [hspace])]
  · rfl

/-- **A header** is read as the name of its section. -/
theorem readLine_header (h : PlainName name) : r.readLine (headerLine name) =
    .ok { r with parser := r.parser.enter name, current := some (some name), option := none } := by
  obtain ⟨hne, hdefault, hbracket, -⟩ := h
  have hskip : skipsLine (headerLine name) = false :=
    skipsLine_cons (by decide) (by decide) (by decide) fun hrem ↦ by
      have hbegins : isSpace '[' = false := by decide
      simp [hbegins] at hrem
  have hends : ∀ c ∈ name.toList, (decide (c ≠ ']')) = true := fun c hc ↦
    decide_eq_true fun heq ↦ hbracket (heq ▸ hc)
  have htake : (name.toList ++ [']']).takeWhile (· ≠ ']') = name.toList := by
    rw [List.takeWhile_append_of_pos hends]
    simp
  have hdrop : (name.toList ++ [']']).dropWhile (· ≠ ']') = [']'] := by
    rw [List.dropWhile_append_of_pos hends]
    simp
  have hheader : headerOf (headerLine name) = some name.toList := by
    show (if (name.toList ++ [']']).takeWhile (· ≠ ']') = [] ∨
      (name.toList ++ [']']).dropWhile (· ≠ ']') = [] then none else
        some ((name.toList ++ [']']).takeWhile (· ≠ ']'))) = _
    rw [htake, hdrop, if_neg]
    simpa using hne
  have hentry : r.readLine (headerLine name) = r.readEntry (headerLine name) :=
    readLine_cons (by decide) hskip
  rw [hentry, Reading.readEntry, hheader]
  show (if String.ofList name.toList = "DEFAULT" then _ else _) = _
  rw [String.ofList_toList, if_neg hdefault]

/-- What is stripped begins with no blank. -/
theorem dropWhile_strip (h : strip value.toList = value.toList) :
    value.toList.dropWhile isSpace = value.toList := by
  have hshorter : (strip value.toList).length ≤ (value.toList.dropWhile isSpace).length := by
    rw [strip, List.length_reverse]
    exact (List.dropWhile_suffix _).length_le.trans_eq List.length_reverse
  rw [h] at hshorter
  exact (List.dropWhile_suffix _).eq_of_length_le hshorter

/-- The value of a line is the one that was printed. -/
theorem valueOf_print (h : PlainValue value) : valueOf (' ' :: value.toList) = value.toList := by
  obtain ⟨hstrip, -, hcomment, hquotes⟩ := h
  have hdrop : (' ' :: value.toList).dropWhile isSpace = value.toList := by
    rw [List.dropWhile_cons_of_pos (by decide), dropWhile_strip hstrip]
  show (if strip (cutComment ((' ' :: value.toList).dropWhile isSpace)) = ['"', '"'] then []
    else strip (cutComment ((' ' :: value.toList).dropWhile isSpace))) = _
  rw [hdrop, hcomment, hstrip, if_neg hquotes]

/-- **An option** is read with its value. -/
theorem readLine_option (ho : PlainOption option) (hv : PlainValue value) {sect : Option String}
    (hcurrent : r.current = some sect) : r.readLine (optionLine (option, value)) =
      .ok { r with
        parser := r.parser.modify sect fun options ↦ options.insert option [value]
        option := some option } := by
  obtain ⟨hne, hchars⟩ := ho
  obtain ⟨c, cs, hoption⟩ : ∃ c cs, option.toList = c :: cs :=
    List.exists_cons_of_ne_nil (by simpa using hne)
  obtain ⟨hspace, hseparator, -, hhash, hsemicolon, hbracket, -⟩ :=
    optionChar_spec (hchars c (by rw [hoption]; exact List.mem_cons_self))
  have hinside : ∀ c ∈ option.toList, (!isSeparator c) = true := fun c hc ↦ by
    rw [(optionChar_spec (hchars c hc)).2.1]
    rfl
  have hline : optionLine (option, value) = c :: (cs ++ ':' :: ' ' :: value.toList) := by
    rw [optionLine, hoption, List.cons_append]
  have hword : ∀ c ∈ option.toList, (!isSpace c) = true := fun c hc ↦ by
    rw [(optionChar_spec (hchars c hc)).1]
    rfl
  have hskip : skipsLine (optionLine (option, value)) = false := by
    rw [hline]
    refine skipsLine_cons hspace hhash hsemicolon fun hrem ↦ ?_
    -- the first word has the colon
    rw [← hline, optionLine, List.takeWhile_append_of_pos hword,
      List.takeWhile_cons_of_pos (by decide)] at hrem
    have hcolon : ':' ∈ ['r', 'e', 'm'] := by
      rw [← hrem]
      exact List.mem_map.2 ⟨':', List.mem_append_right _ List.mem_cons_self, by decide⟩
    exact absurd hcolon (by decide)
  have htake : (optionLine (option, value)).takeWhile (fun c ↦ !isSeparator c) = option.toList := by
    rw [optionLine, List.takeWhile_append_of_pos hinside, List.takeWhile_cons_of_neg (by decide),
      List.append_nil]
  have hdrop : (optionLine (option, value)).dropWhile (fun c ↦ !isSeparator c) =
      ':' :: ' ' :: value.toList := by
    rw [optionLine, List.dropWhile_append_of_pos hinside, List.dropWhile_cons_of_neg (by decide)]
  have hname : (strip option.toList).map Char.toLower = option.toList := by
    rw [strip_eq_self fun c hc ↦ (optionChar_spec (hchars c hc)).1]
    exact (List.map_congr_left fun c hc ↦ (optionChar_spec (hchars c hc)).2.2.1).trans
      (List.map_id _)
  have hread : optionOf (optionLine (option, value)) = some (option.toList, value.toList) := by
    rw [optionOf, hdrop, htake, hline]
    show (if (isSpace c || isSeparator c) = true then none
      else some ((strip option.toList).map Char.toLower, valueOf (' ' :: value.toList))) = _
    rw [hname, valueOf_print hv, hspace, hseparator]
    rfl
  have hheader : headerOf (optionLine (option, value)) = none := by
    rw [hline, headerOf]
    rintro rest ⟨⟩
    exact hbracket rfl
  have hentry : r.readLine (optionLine (option, value)) =
      r.readEntry (optionLine (option, value)) := by
    rw [hline] at hskip ⊢
    exact readLine_cons hspace hskip
  rw [hentry, Reading.readEntry, hheader, hcurrent, hread]
  show Except.ok _ = _
  simp only [String.ofList_toList]

end Lines

/-! ### Reading what was printed -/

section Lookup

variable {α : Type} {pairs : List (String × α)} {key other : String} {a : α}

theorem lookup_of_notMem (h : key ∉ pairs.map Prod.fst) : pairs.lookup key = none := by
  rw [List.lookup_eq_none_iff]
  intro p hp
  have hne : key ≠ p.1 := fun heq ↦ h (heq ▸ List.mem_map_of_mem hp)
  simpa using hne

theorem lookup_concat_self (h : key ∉ pairs.map Prod.fst) :
    (pairs ++ [(key, a)]).lookup key = some a := by
  rw [List.lookup_append, lookup_of_notMem h, Option.none_or, List.lookup_cons_self]

theorem lookup_concat_of_ne (h : key ≠ other) :
    (pairs ++ [(other, a)]).lookup key = pairs.lookup key := by
  have hlast : [(other, a)].lookup key = none := lookup_of_notMem (by simpa using h)
  rw [List.lookup_append, hlast, Option.or_none]

end Lookup

/-- The values of some options are set, one after another. -/
def setAll (options : List (String × String)) (d : Dict (List String)) : Dict (List String) :=
  options.foldl (fun d o ↦ d.insert o.1 [o.2]) d

/-- What has been read are these sections. -/
structure Reads (sections : List (String × List (String × String))) (parser : ConfigParser) :
    Prop where
  names : parser.sections = sections.map Prod.fst
  defaults : parser.lines none = ∅
  lines : ∀ name, parser.lines (some name) = setAll ((sections.lookup name).getD []) ∅

section Run

variable {sections : List (String × List (String × String))} {parser : ConfigParser}
  {name : String} {options : List (String × String)} {r : Reading}

/-- The options of a section are set one after another. -/
theorem foldlM_optionLines (hoption : ∀ o ∈ options, PlainOption o.1)
    (hvalue : ∀ o ∈ options, PlainValue o.2) {sect : Option String}
    (hcurrent : r.current = some sect) :
    ∃ option, (options.map optionLine).foldlM Reading.readLine r =
      .ok { r with parser := r.parser.modify sect (setAll options), option := option } := by
  induction options generalizing r with
  | nil =>
    refine ⟨r.option, ?_⟩
    have hsame : r.parser.modify sect (setAll []) = r.parser := by
      show r.parser.modify sect id = r.parser
      rw [modify, id, Function.update_eq_self]
    rw [hsame]
    rfl
  | cons o options ih =>
    rw [List.forall_mem_cons] at hoption hvalue
    obtain ⟨option, hrest⟩ := ih hoption.2 hvalue.2
      (r := { r with
        parser := r.parser.modify sect fun options ↦ options.insert o.1 [o.2]
        option := some o.1 }) hcurrent
    refine ⟨option, ?_⟩
    rw [List.map_cons, List.foldlM_cons]
    have hline := readLine_option hoption.1 hvalue.1 hcurrent
    refine bind_eq_ok.2 ⟨_, hline, hrest.trans ?_⟩
    simp only [modify, Function.update_self, Function.update_idem]
    rfl

/-- A section that is new. -/
theorem Reads.section (h : Reads sections r.parser) (hnew : name ∉ sections.map Prod.fst)
    (hname : PlainName name) (hoption : ∀ o ∈ options, PlainOption o.1)
    (hvalue : ∀ o ∈ options, PlainValue o.2) :
    ∃ r', (headerLine name :: options.map optionLine).foldlM Reading.readLine r = .ok r' ∧
      Reads (sections ++ [(name, options)]) r'.parser ∧ r'.bogus = r.bogus := by
  have hentered : (r.parser.enter name).sections = sections.map Prod.fst ++ [name] := by
    rw [enter, dif_neg (by rwa [h.names])]
    show r.parser.sections ++ [name] = _
    rw [h.names]
  have hlines : (r.parser.enter name).lines = r.parser.lines := by
    rw [enter, dif_neg (by rwa [h.names])]
  obtain ⟨option, hrest⟩ := foldlM_optionLines hoption hvalue
    (r := { r with
      parser := r.parser.enter name
      current := some (some name)
      option := none }) rfl
  refine ⟨_, bind_eq_ok.2 ⟨_, readLine_header hname, hrest⟩, ?_, rfl⟩
  exact
    { names := by
        show (r.parser.enter name).sections = _
        rw [hentered, List.map_append]
        rfl
      defaults := by
        show ((r.parser.enter name).modify (some name) (setAll options)).lines none = _
        rw [lines_modify_of_ne _ (by simp), hlines, h.defaults]
      lines := fun other ↦ by
        show ((r.parser.enter name).modify (some name) (setAll options)).lines (some other) = _
        by_cases hother : other = name
        · subst hother
          rw [lines_modify_self, hlines, h.lines, lookup_of_notMem hnew, lookup_concat_self hnew]
          rfl
        · rw [lines_modify_of_ne _ (by simpa using hother), hlines, h.lines,
            lookup_concat_of_ne hother] }

/-- **The lines** of sections with different names are read as these sections. -/
theorem foldlM_printLines (doc : List (String × List (String × String)))
    (hnodup : ((sections ++ doc).map Prod.fst).Nodup) (hname : ∀ s ∈ doc, PlainName s.1)
    (hoption : ∀ s ∈ doc, ∀ o ∈ s.2, PlainOption o.1)
    (hvalue : ∀ s ∈ doc, ∀ o ∈ s.2, PlainValue o.2) (h : Reads sections r.parser) :
    ∃ r', (printLines doc).foldlM Reading.readLine r = .ok r' ∧
      Reads (sections ++ doc) r'.parser ∧ r'.bogus = r.bogus := by
  induction doc generalizing sections r with
  | nil => exact ⟨r, rfl, by rwa [List.append_nil], rfl⟩
  | cons s doc ih =>
    rw [List.forall_mem_cons] at hname hoption hvalue
    have hnew : s.1 ∉ sections.map Prod.fst := by
      rw [List.map_append, List.map_cons, List.nodup_append'] at hnodup
      exact fun hmem ↦ hnodup.2.2 hmem List.mem_cons_self
    obtain ⟨r₁, hread₁, h₁, hbogus₁⟩ := h.section hnew hname.1 hoption.1 hvalue.1
    obtain ⟨r₂, hread₂, h₂, hbogus₂⟩ := ih (by simpa using hnodup) hname.2 hoption.2 hvalue.2 h₁
    refine ⟨r₂, ?_, by simpa using h₂, hbogus₂.trans hbogus₁⟩
    have hlines : printLines (s :: doc) =
        (headerLine s.1 :: s.2.map optionLine) ++ printLines doc := by
      rw [printLines, List.flatMap_cons, ← printLines]
    rw [hlines, List.foldlM_append]
    exact bind_eq_ok.2 ⟨r₁, hread₁, hread₂⟩

theorem lookup_setAll (hnodup : (options.map Prod.fst).Nodup) (option : String) :
    (setAll options ∅).lookup option = (options.lookup option).map ([·]) := by
  induction options using List.reverseRecOn with
  | nil => rfl
  | append_singleton options o ih =>
    rw [List.map_append, List.nodup_append'] at hnodup
    have hlast : setAll (options ++ [o]) ∅ = (setAll options ∅).insert o.1 [o.2] := by
      rw [setAll, List.foldl_append]
      rfl
    rw [hlast]
    by_cases heq : option = o.1
    · subst heq
      have hnew : o.1 ∉ options.map Prod.fst := fun hmem ↦
        hnodup.2.2 hmem List.mem_cons_self
      rw [AList.lookup_insert, lookup_concat_self hnew]
      rfl
    · rw [AList.lookup_insert_ne heq, ih hnodup.1, lookup_concat_of_ne heq]

/-- A text of lines is split into them. -/
theorem splitOn_lines {lines : List (List Char)} (h : ∀ line ∈ lines, '\n' ∉ line) :
    (lines.flatMap (· ++ ['\n'])).splitOn '\n' = lines ++ [[]] := by
  induction lines with
  | nil => rfl
  | cons line lines ih =>
    rw [List.forall_mem_cons] at h
    rw [List.flatMap_cons, List.append_assoc, List.singleton_append,
      List.splitOn_append_cons_self_of_not_mem h.1, ih h.2, List.cons_append]

end Run

theorem Document.noBreak (doc : Document) : ∀ line ∈ printLines doc.sections, '\n' ∉ line := by
  intro line hline
  obtain ⟨s, hs, hline⟩ := List.mem_flatMap.1 hline
  rcases List.mem_cons.1 hline with rfl | hline
  · have hname := (doc.plainName s hs).2.2.2
    simp [headerLine, hname]
  · obtain ⟨o, ho, rfl⟩ := List.mem_map.1 hline
    have hvalue := (doc.plainValue s hs o ho).2.1
    have hoption : '\n' ∉ o.1.toList := fun hmem ↦
      (optionChar_spec ((doc.plainOption s hs o ho).2 _ hmem)).2.2.2.2.2.2 rfl
    simp [optionLine, hvalue, hoption]

/-- **What is printed is read back**: the sections in their order, each option with its value. -/
theorem read_print (doc : Document) : ∃ parser, read doc.print = .ok parser ∧
    parser.sections = doc.sections.map Prod.fst ∧ ∀ sect option, parser.get? sect option =
      (doc.sections.lookup sect).bind (List.lookup (String.ofList (lower option))) := by
  have hempty : Reads [] (⟨empty, none, none, false⟩ : Reading).parser := ⟨rfl, rfl, fun _ ↦ rfl⟩
  have hnodup : (([] ++ doc.sections).map Prod.fst).Nodup := doc.nodup
  obtain ⟨r, hread, h, hbogus⟩ := foldlM_printLines doc.sections hnodup
    doc.plainName doc.plainOption doc.plainValue hempty
  rw [List.nil_append] at h
  refine ⟨r.parser, ?_, h.names, fun sect option ↦ ?_⟩
  · rw [read, Document.print, String.toList_ofList, splitOn_lines doc.noBreak, List.foldlM_append]
    refine bind_eq_ok.2 ⟨r, bind_eq_ok.2 ⟨r, hread, ?_⟩, ?_⟩
    · -- nothing follows the last line
      rfl
    · rw [if_neg (by simp [hbogus])]
      rfl
  · rw [get?, h.names, h.defaults, h.lines]
    rcases hlookup : doc.sections.lookup sect with - | options
    · rw [if_neg]
      · rfl
      · intro hmem
        obtain ⟨s, hs, rfl⟩ := List.mem_map.1 hmem
        simpa using List.lookup_eq_none_iff.1 hlookup s hs
    · obtain ⟨front, back, hsections, -⟩ := List.lookup_eq_some_iff.1 hlookup
      have hmem : (sect, options) ∈ doc.sections := by simp [hsections]
      rw [if_pos (List.mem_map.2 ⟨_, hmem, rfl⟩)]
      show (((setAll options ∅).lookup _).or ((∅ : Dict (List String)).lookup _)).map _ = _
      rw [lookup_setAll (doc.nodup_options _ hmem), AList.lookup_empty, Option.or_none,
        Option.map_map]
      have hjoin : (join '\n' ∘ fun value ↦ [value]) = id := by
        funext value
        simp [join]
      rw [hjoin, Option.map_id]
      rfl

end ConfigParser

end Python
