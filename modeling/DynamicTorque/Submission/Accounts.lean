import Mathlib.Data.List.Infix
import DynamicTorque.Submission.Directives

/-!
# Accounts

A line of `accounts.conf` is the name of an account and the names of its users. The submit filter
looks for the user's name in the whole line, not among its fields, and takes the first field of a
line in which it finds it for an account of the user's.

* `strIn_line_iff`: the name is found exactly if it is part of one of the names on the line.
* `letsSubmit_iff`: so the check lets a user submit exactly if the first field of such a line is
  the account.
* `authorised_iff`: this is as it should be exactly if the user is listed for the account, or the
  user's name is part of no name on a line for it.
-/

open Python Atomic

namespace DynamicTorque.QsubFilter

/-! ### The file -/

/-- The name of an account or of a user. -/
structure Name where
  text : String
  ne_nil : text.toList ≠ []
  blank_notMem : ' ' ∉ text.toList
  break_notMem : '\n' ∉ text.toList

/-- A line of the file. -/
structure AccountLine where
  account : Name
  users : List Name

/-- The words of the line. -/
def AccountLine.names (line : AccountLine) : List Name := line.account :: line.users

/-- The line as it is written, without its line break. -/
def AccountLine.text (line : AccountLine) : String := join ' ' (line.names.map Name.text)

/-- The file: lines, and a last one that may lack its line break. -/
structure AccountsFile where
  lines : List AccountLine
  last : Option AccountLine

namespace AccountsFile

/-- The lines of the file, each with what ends it. -/
def ended (file : AccountsFile) : List (AccountLine × String) :=
  file.lines.map (·, "\n") ++ file.last.toList.map (·, "")

/-- The text of the file. -/
def text (file : AccountsFile) : String :=
  file.lines.foldr (fun line rest ↦ line.text ++ "\n" ++ rest)
    (file.last.elim "" AccountLine.text)

/-- The file lists the user for the account. -/
def Lists (file : AccountsFile) (account : String) (user : Name) : Prop :=
  ∃ line ∈ file.ended, line.1.account.text = account ∧ ∃ name ∈ line.1.users, name.text = user.text

end AccountsFile

section

variable {line : AccountLine} {user : Name} {ending : String}

/-! ### One line -/

/-- The name of a user is found exactly if it is part of one of the names. -/
theorem strIn_line_iff (hending : ending = "\n" ∨ ending = "") :
    strIn user.text (line.text ++ ending) = true ↔
      ∃ name ∈ line.names, strIn user.text name.text = true := by
  have htext : user.text.toList <:+: line.text.toList ++ ending.toList ↔
      user.text.toList <:+: line.text.toList := by
    rcases hending with rfl | rfl
    · have hbreak : "\n".toList = ['\n'] := rfl
      rw [hbreak, infix_append_cons user.break_notMem user.ne_nil]
      simp [user.ne_nil]
    · rw [String.toList_empty, List.append_nil]
  rw [strIn, isInfixOf_iff, String.toList_append, htext, AccountLine.text, join,
    String.toList_ofList, infix_intercalate user.blank_notMem user.ne_nil]
  simp [strIn, isInfixOf_iff]

/-- The first field of a line. Where no user follows, it goes on to the end of the line. -/
def AccountLine.field (line : AccountLine) (ending : String) : String :=
  if line.users = [] then line.account.text ++ ending else line.account.text

/-- The first word of a line, as `split` gives it. -/
theorem headD_split (hending : ending = "\n" ∨ ending = "") :
    (split ' ' (line.text ++ ending)).headD "" = line.field ending := by
  rcases line with ⟨account, users⟩
  rw [AccountLine.field, AccountLine.text, AccountLine.names]
  rcases users with - | ⟨name, users⟩
  · have hnone : ' ' ∉ (account.text ++ ending).toList := by
      rw [String.toList_append, List.mem_append]
      rcases hending with rfl | rfl
      · exact fun h ↦ h.elim account.blank_notMem (by decide)
      · exact fun h ↦ h.elim account.blank_notMem (by decide)
    have htext : join ' ' [account.text] = account.text := by
      rw [join, List.map_singleton, List.intercalate_singleton, String.ofList_toList]
    show (split ' ' (join ' ' [account.text] ++ ending)).headD "" = account.text ++ ending
    rw [htext, split_of_notMem hnone]
    rfl
  · have htext : join ' ' (account.text :: name.text :: users.map Name.text) ++ ending =
        account.text ++ String.singleton ' ' ++
          (join ' ' (name.text :: users.map Name.text) ++ ending) := by
      rw [join_cons_cons, String.append_assoc]
    show (split ' ' (join ' ' (account.text :: name.text :: users.map Name.text) ++ ending)).headD
      "" = account.text
    rw [htext, split_append account.blank_notMem]
    rfl

/-! ### The lines that are read -/

/-- There is no line break inside a line. -/
theorem break_notMem_text (line : AccountLine) : '\n' ∉ line.text.toList := by
  have hbreak : ' ' ∉ ['\n'] := by decide
  rw [AccountLine.text, join, String.toList_ofList, ← List.singleton_infix_iff,
    infix_intercalate hbreak (List.cons_ne_nil _ _)]
  rintro ⟨cs, hcs, hmem⟩
  obtain ⟨text, htext, rfl⟩ := List.mem_map.1 hcs
  obtain ⟨name, -, rfl⟩ := List.mem_map.1 htext
  exact name.break_notMem ((List.singleton_infix_iff _ _).1 hmem)

/-- No line is empty. -/
theorem text_ne_empty (line : AccountLine) : line.text ≠ "" := by
  intro hempty
  have hfound : strIn line.account.text (line.text ++ "") = true :=
    (strIn_line_iff (.inr rfl)).2 ⟨line.account, List.mem_cons_self .., strIn_self _⟩
  rw [hempty, strIn, isInfixOf_iff] at hfound
  exact line.account.ne_nil (List.infix_nil.1 hfound)

/-- The lines of the text are the lines of the file with their endings. -/
theorem readlines_text (file : AccountsFile) :
    readlines file.text = file.ended.map fun line ↦ line.1.text ++ line.2 := by
  rcases file with ⟨lines, last⟩
  induction lines with
  | nil =>
    rcases last with - | line
    · rfl
    · show readlines line.text = [line.text ++ ""]
      rw [readlines_of_notMem (break_notMem_text line) (text_ne_empty line), String.append_empty]
  | cons line lines ih =>
    show readlines (line.text ++ String.singleton '\n' ++ (AccountsFile.mk lines last).text) = _
    rw [readlines_append (break_notMem_text line), ih]
    rfl

/-- A line ends in a line break, or is the last one. -/
theorem ending_of_mem {file : AccountsFile} {line : AccountLine × String}
    (h : line ∈ file.ended) : line.2 = "\n" ∨ line.2 = "" := by
  rcases List.mem_append.1 h with h | h
  · obtain ⟨_, -, rfl⟩ := List.mem_map.1 h
    exact .inl rfl
  · obtain ⟨_, -, rfl⟩ := List.mem_map.1 h
    exact .inr rfl

end

/-! ### The check -/

/-- The check lets a user submit to an account. -/
def LetsSubmit (accounts user account : String) : Prop :=
  Leads (checkAccount ⟨user, some accounts⟩ (some account)) (.ok 0)

/-- The check of an account leads to the answer for its membership. -/
theorem leads_checkAccount {env : Environment} {tenants : List String}
    (h : getTenants env env.user = .ok tenants) (account : String) :
    Leads (checkAccount env (some account)) (.ok (if account ∈ tenants then 0 else -1)) := by
  refine (leads_call h).bind ?_
  by_cases hmem : account ∈ tenants
  · rw [if_neg (not_not.2 hmem), if_pos hmem]
    exact leads_pure 0
  · rw [if_pos hmem, if_neg hmem]
    exact (leads_writeErr _).bind ((leads_writeErr _).bind (leads_pure (-1)))

/-- What submission means for the lines of the text. -/
theorem letsSubmit_iff_mem {accounts user account : String} :
    LetsSubmit accounts user account ↔ ∃ line ∈ readlines accounts,
      strIn user line = true ∧ (split ' ' line).headD "" = account := by
  have htenants : getTenants ⟨user, some accounts⟩ user =
      .ok (((readlines accounts).filter fun line ↦ strIn user line).map
        fun line ↦ (split ' ' line).headD "") := rfl
  have hmem : account ∈ ((readlines accounts).filter fun line ↦ strIn user line).map
      (fun line ↦ (split ' ' line).headD "") ↔ ∃ line ∈ readlines accounts,
        strIn user line = true ∧ (split ' ' line).headD "" = account := by
    simp only [List.mem_map, List.mem_filter, and_assoc]
  have hcheck := leads_checkAccount htenants account
  rw [← hmem]
  constructor
  · intro hlets
    by_contra hnot
    rw [if_neg hnot] at hcheck
    cases Except.ok.inj (hlets.unique hcheck)
  · intro hin
    rwa [if_pos hin] at hcheck

/-- **What the check does**: it looks for the name on lines that begin with the account. -/
theorem letsSubmit_iff (file : AccountsFile) (user : Name) (account : String) :
    LetsSubmit file.text user.text account ↔ ∃ line ∈ file.ended,
      line.1.field line.2 = account ∧ ∃ name ∈ line.1.names, strIn user.text name.text = true := by
  rw [letsSubmit_iff_mem, readlines_text]
  constructor
  · rintro ⟨_, hmem, hfound, hfield⟩
    obtain ⟨line, hline, rfl⟩ := List.mem_map.1 hmem
    have hending := ending_of_mem hline
    exact ⟨line, hline, (headD_split hending).symm.trans hfield, (strIn_line_iff hending).1 hfound⟩
  · rintro ⟨line, hline, hfield, hname⟩
    have hending := ending_of_mem hline
    exact ⟨_, List.mem_map_of_mem hline, (strIn_line_iff hending).2 hname,
      (headD_split hending).trans hfield⟩

/-- Whoever is listed is let in. -/
theorem letsSubmit_of_lists {file : AccountsFile} {user : Name} {account : String}
    (h : file.Lists account user) : LetsSubmit file.text user.text account := by
  obtain ⟨line, hline, haccount, name, hname, huser⟩ := h
  refine (letsSubmit_iff file user account).2 ⟨line, hline, ?_, name, .tail _ hname, ?_⟩
  · rw [AccountLine.field, if_neg (List.ne_nil_of_mem hname)]
    exact haccount
  · rw [huser]
    exact strIn_self user.text

/-- **The check is right exactly if the user is listed, or the name is part of none of the names on
a line that begins with the account.** -/
theorem authorised_iff (file : AccountsFile) (user : Name) (account : String) :
    (LetsSubmit file.text user.text account ↔ file.Lists account user) ↔
      file.Lists account user ∨ ∀ line ∈ file.ended, line.1.field line.2 = account →
        ∀ name ∈ line.1.names, strIn user.text name.text = false := by
  constructor
  · intro hright
    refine or_iff_not_imp_left.2 fun hnot line hline hfield name hname ↦ ?_
    by_contra hfound
    exact hnot (hright.1 ((letsSubmit_iff file user account).2
      ⟨line, hline, hfield, name, hname, Bool.not_eq_false _ ▸ hfound⟩))
  · rintro (hlisted | hnone)
    · exact ⟨fun _ ↦ hlisted, letsSubmit_of_lists⟩
    · refine ⟨fun hlets ↦ ?_, letsSubmit_of_lists⟩
      obtain ⟨line, hline, hfield, name, hname, hfound⟩ :=
        (letsSubmit_iff file user account).1 hlets
      rw [hnone line hline hfield name hname] at hfound
      cases hfound

def physics : Name := ⟨"physics", by decide, by decide, by decide⟩

def bobby : Name := ⟨"bobby", by decide, by decide, by decide⟩

def bob : Name := ⟨"bob", by decide, by decide, by decide⟩

/-- Bobby is a user of the account, bob is not. -/
def bobbysAccount : AccountsFile := ⟨[⟨physics, [bobby]⟩], none⟩

/-- Bob is let in. -/
theorem bob_authorised :
    ¬(LetsSubmit bobbysAccount.text bob.text physics.text ↔
      bobbysAccount.Lists physics.text bob) := by
  intro hright
  have hfound : strIn bob.text bobby.text = true := by decide +kernel
  have hlets : LetsSubmit bobbysAccount.text bob.text physics.text :=
    (letsSubmit_iff bobbysAccount bob physics.text).2 ⟨(⟨physics, [bobby]⟩, "\n"),
      List.mem_cons_self .., if_neg (List.cons_ne_nil _ _), bobby,
      .tail _ (List.mem_cons_self ..), hfound⟩
  obtain ⟨line, hline, -, name, hname, heq⟩ := hright.1 hlets
  obtain rfl := List.mem_singleton.1 hline
  obtain rfl := List.mem_singleton.1 hname
  exact absurd heq (by decide)

end DynamicTorque.QsubFilter
