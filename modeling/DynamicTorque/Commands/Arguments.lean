import DynamicTorque.Cloud.ServerNames
import DynamicTorque.Model.Queries

/-!
# The arguments of the commands

A command line is a setting with the names of a VM put into it, split into words. For the settings
that the administrator may change, the words are those of the setting as long as what is put in is
plain (`commandWords_of_plain`). For the default settings they are written out
(`invocation_default`): each names the node once, except the reservation, which does not name it.
-/

open Python Shlex

namespace DynamicTorque

open Format (pieces)

variable {template : List Piece} {args : List String}

/-- A handler changes the exception, not whether there is one. -/
theorem returns_inTry_iff {α : Type} {x : Except PyError α} : Returns (inTry x) ↔ Returns x := by
  cases x <;> simp [inTry]

/-- The words of a setting, with its fields filled in. -/
def wordsOf (template : List Piece) (args : List String) : Except PyError (List String) :=
  (split kindOfPiece template).map
    (List.map fun word ↦ String.ofList (word.flatMap (Piece.fill args)))

/-- **Plain arguments.** If the arguments of a command are plain words, it is started with the words
of its setting, each field being replaced in the word where it stands: no argument adds a word,
ends one or opens a quotation. -/
theorem commandWords_of_plain (hfits : Fits template args.length) (h : ∀ arg ∈ args, Plain arg) :
    commandWords template args = wordsOf template args := by
  have hsplit := split_format hfits h
  rw [hfits.format] at hsplit
  have hwords : split kindOfChar (template.flatMap (Piece.fill args)) = _ := hsplit
  rw [commandWords, hfits.format]
  show shlexSplit (template.flatMap (Piece.fill args)) = _
  rw [shlexSplit, hwords, wordsOf]
  cases split kindOfPiece template <;> simp [Except.map]

theorem commandWords_of_plain_setNode :
    (∀ arg ∈ ["wn1", "properties", "+=", "gpu,fast"], Plain arg) ∧
      commandWords ({} : Commands).setNodeCommand ["wn1", "properties", "+=", "gpu,fast"] =
        wordsOf ({} : Commands).setNodeCommand ["wn1", "properties", "+=", "gpu,fast"] :=
  ⟨by decide +kernel, commandWords_of_plain (by decide +kernel) (by decide +kernel)⟩

/-! ### The default settings -/

/-- The words of a setting whose words are these. -/
theorem wordsOf_of_split {words : List String}
    (h : split kindOfPiece template = .ok (words.map pieces)) (args : List String) :
    wordsOf template args =
      .ok (words.map fun word ↦ String.ofList ((pieces word).flatMap (Piece.fill args))) := by
  rw [wordsOf, h]
  simp [Except.map]

/-- The words of the default settings, and of the two command lines that are not settings. -/
theorem split_default :
    split kindOfPiece ({} : Commands).pbsnodesCommand =
      .ok (["/usr/bin/pbsnodes", "{0}", "{1}"].map pieces) ∧
    split kindOfPiece ({} : Commands).addNodeCommand =
      .ok (["/usr/bin/qmgr", "-c", "create node {0}"].map pieces) ∧
    split kindOfPiece ({} : Commands).removeNodeCommand =
      .ok (["/usr/bin/qmgr", "-c", "delete node {0}"].map pieces) ∧
    split kindOfPiece ({} : Commands).setNodeCommand =
      .ok (["/usr/bin/qmgr", "-c", "set node {0} {1} {2} {3}"].map pieces) ∧
    split kindOfPiece ({} : Commands).setresCommand =
      .ok (["/usr/bin/setres", "-a", "{0}", "{1}"].map pieces) ∧
    split kindOfPiece (pieces "sed -i '/{0}/d' /etc/hosts") =
      .ok (["sed", "-i", "/{0}/d", "/etc/hosts"].map pieces) ∧
    split kindOfPiece (pieces "ssh-keygen -R {0}") =
      .ok (["ssh-keygen", "-R", "{0}"].map pieces) := by
  decide +kernel

section Default

variable (hostname a b c : String)

/-- The words of the default settings, and of the two fixed commands. -/
theorem wordsOf_pbsnodesCommand : wordsOf ({} : Commands).pbsnodesCommand [a, hostname] =
    .ok ["/usr/bin/pbsnodes", a, hostname] := by
  rw [wordsOf_of_split split_default.1]
  simp [pieces]

theorem wordsOf_addNodeCommand : wordsOf ({} : Commands).addNodeCommand [hostname] =
    .ok ["/usr/bin/qmgr", "-c", "create node " ++ hostname] := by
  rw [wordsOf_of_split split_default.2.1]
  simp [← String.toList_inj, pieces]

theorem wordsOf_removeNodeCommand : wordsOf ({} : Commands).removeNodeCommand [hostname] =
    .ok ["/usr/bin/qmgr", "-c", "delete node " ++ hostname] := by
  rw [wordsOf_of_split split_default.2.2.1]
  simp [← String.toList_inj, pieces]

theorem wordsOf_setNodeCommand : wordsOf ({} : Commands).setNodeCommand [hostname, a, b, c] =
    .ok ["/usr/bin/qmgr", "-c", "set node " ++ hostname ++ " " ++ a ++ " " ++ b ++ " " ++ c] := by
  rw [wordsOf_of_split split_default.2.2.2.1]
  simp [← String.toList_inj, pieces]

/-- The host name is the third argument, for which the setting has no field. -/
theorem wordsOf_setresCommand : wordsOf ({} : Commands).setresCommand [a, b, hostname] =
    .ok ["/usr/bin/setres", "-a", a, b] := by
  rw [wordsOf_of_split split_default.2.2.2.2.1]
  simp [pieces]

theorem wordsOf_sed : wordsOf (pieces "sed -i '/{0}/d' /etc/hosts") [hostname] =
    .ok ["sed", "-i", "/" ++ hostname ++ "/d", "/etc/hosts"] := by
  rw [wordsOf_of_split split_default.2.2.2.2.2.1]
  simp [← String.toList_inj, pieces]

theorem wordsOf_sshKeygen : wordsOf (pieces "ssh-keygen -R {0}") [hostname] =
    .ok ["ssh-keygen", "-R", hostname] := by
  rw [wordsOf_of_split split_default.2.2.2.2.2.2]
  simp [pieces]

end Default

/-- What the default settings start for a VM. -/
def Command.defaultInvocation (vm : VM) : Command → Invocation
  | .holdNode => .argv ["/usr/bin/pbsnodes", "-o", vm.hostname]
  | .releaseNode => .argv ["/usr/bin/pbsnodes", "-c", vm.hostname]
  | .removeNode => .argv ["/usr/bin/qmgr", "-c", "delete node " ++ vm.hostname]
  | .removeNodeFromHostsFile => .argv ["sed", "-i", "/" ++ vm.hostname ++ "/d", "/etc/hosts"]
  | .removeNodeFromKnownHostsFile => .argv ["ssh-keygen", "-R", vm.hostname]
  | .addNode _ => .argv ["/usr/bin/qmgr", "-c", "create node " ++ vm.hostname]
  | .setRes resType accountString =>
    match reservationOption resType with
    | none => .skipped
    | some resOpt => .argv ["/usr/bin/setres", "-a", resOpt, accountString]
  | .releaseRes => .shell ("/usr/bin/releaseres `/usr/bin/showres -n | grep User | grep " ++
    vm.hostname ++ " | awk '\x7bprint $3\x7d' `")
  | .setNodeProperty nodeProperty => .argv ["/usr/bin/qmgr", "-c",
    "set node " ++ vm.hostname ++ " properties = " ++ nodeProperty]
  | .addNodeProperty nodeProperty => .argv ["/usr/bin/qmgr", "-c",
    "set node " ++ vm.hostname ++ " properties += " ++ nodeProperty]
  | .setNp np => .argv ["/usr/bin/qmgr", "-c",
    "set node " ++ vm.hostname ++ " np = " ++ toString np]
  | .setNodeOnline => .argv ["/usr/bin/qmgr", "-c",
    "set node " ++ vm.hostname ++ " state = free"]
  | .postVmProvisionAction | .postVmDestroyAction | .postAddNodeAction
  | .postRemoveNodeAction => .skipped

/-- What a command is given besides the names of the VM is plain. -/
def Command.HasPlainText : Command → Prop
  | .setRes _ text | .setNodeProperty text | .addNodeProperty text => Plain text
  | _ => True

/-! ### Numbers and names are plain -/

/-- Digits are plain. -/
theorem kindOfChar_of_isDigit {c : Char} (h : c.isDigit = true) : kindOfChar c = .plain := by
  have hne : ∀ {x : Char}, x.isDigit = false → c ≠ x := fun hx heq ↦ by
    rw [heq, hx] at h
    cases h
  simp [kindOfChar, hne (x := ' ') rfl, hne (x := '\t') rfl, hne (x := '\r') rfl,
    hne (x := '\n') rfl, hne (x := '\'') rfl, hne (x := '"') rfl, hne (x := '\\') rfl]

/-- A plain text with plain characters behind it. -/
theorem plain_append {s t : String} (hs : Plain s) (ht : ∀ c ∈ t.toList, kindOfChar c = .plain) :
    Plain (s ++ t) := by
  refine ⟨fun h ↦ hs.1 (String.append_eq_empty_iff.1 h).1, fun c hc ↦ ?_⟩
  rw [String.toList_append, List.mem_append] at hc
  exact hc.elim (hs.2 c) (ht c)

/-- The decimal text of a number is plain, ... -/
theorem plain_repr (n : ℕ) : Plain n.repr := by
  refine ⟨Nat.repr_ne_empty, fun c hc ↦ kindOfChar_of_isDigit ?_⟩
  rw [Nat.toList_repr] at hc
  exact Nat.isDigit_of_mem_toDigits (by omega) (by omega) hc

/-- ... also with a sign. -/
theorem plain_toString (n : ℤ) : Plain (toString n) := by
  rw [Int.toString_eq_repr, Int.repr_eq_if]
  split
  · exact plain_repr _
  · exact plain_append (by simp [Plain, kindOfChar]) (plain_repr _).2

/-- The servers that are started have plain names, if the texts that make them are plain. -/
theorem plain_serverName {cfg : Config} {resource unique : String} (hcfg : Plain cfg.cloudVmPrefix)
    (hresource : Plain resource) (hunique : Plain unique) :
    Plain (serverName cfg resource unique) := by
  have hdash : Plain "-" := by simp [Plain, kindOfChar]
  exact plain_append (plain_append (plain_append (plain_append hcfg hdash.2) hresource.2) hdash.2)
    hunique.2

/-- The texts that a command is given besides what names the VM. -/
theorem plain_default :
    ∀ s ∈ ["-o", "-c", "-a", "-q", "=", "+=", "np", "properties", "state", "free"], Plain s := by
  simp [Plain, kindOfChar]

/-! ### The commands that are started -/

section Started

variable {words : List String} {k : ℕ}

/-- Plain arguments are filled into a setting whose words are known. -/
theorem inTry_commandWords (hfits : Fits template k) (hk : k = args.length)
    (h : ∀ arg ∈ args, Plain arg) (hwords : wordsOf template args = .ok words) :
    inTry (commandWords template args) = .ok words := by
  subst hk
  rw [commandWords_of_plain hfits h, hwords]
  rfl

/-- The same where the line is formatted for the log as well. -/
theorem loggedWords_eq_ok (hfits : Fits template k) (hk : k = args.length)
    (h : ∀ arg ∈ args, Plain arg) (hwords : wordsOf template args = .ok words) :
    loggedWords template args = .ok words := by
  subst hk
  rw [loggedWords, hfits.format]
  exact inTry_commandWords hfits rfl h hwords

end Started

/-- Each default setting has a field for no more arguments than it gets. -/
theorem fits_default :
    Fits ({} : Commands).pbsnodesCommand 2 ∧ Fits ({} : Commands).addNodeCommand 1 ∧
      Fits ({} : Commands).removeNodeCommand 1 ∧ Fits ({} : Commands).setNodeCommand 4 ∧
      Fits ({} : Commands).setresCommand 3 ∧ Fits ({} : Commands).releaseresCommand 1 ∧
      Fits (pieces "sed -i '/{0}/d' /etc/hosts") 1 ∧ Fits (pieces "ssh-keygen -R {0}") 1 := by
  decide +kernel

/-- **The default commands.** -/
theorem invocation_default {vm : VM} (hvm : Plain vm.hostname) {command : Command}
    (hcommand : command.HasPlainText) :
    command.invocation {} vm = .ok (command.defaultInvocation vm) := by
  obtain ⟨hpbsnodesFits, haddNode, hremoveNode, hsetNodeFits, hsetres, hreleaseres, hsed,
    hsshKeygen⟩ := fits_default
  have hone : ∀ arg ∈ [vm.hostname], Plain arg := List.forall_mem_singleton.2 hvm
  have hpbsnodes {a : String} (ha : Plain a) : ∀ arg ∈ [a, vm.hostname], Plain arg :=
    List.forall_mem_cons.2 ⟨ha, hone⟩
  have hsetNode {a b c : String} (ha : Plain a) (hb : Plain b) (hc : Plain c) :
      ∀ arg ∈ [vm.hostname, a, b, c], Plain arg := by simp [hvm, ha, hb, hc]
  have htext {a : String} (ha : a ∈ _) : Plain a := plain_default a ha
  cases command with
  | holdNode =>
    rw [Command.invocation, inTry_commandWords hpbsnodesFits rfl (hpbsnodes (htext (by simp)))
      (wordsOf_pbsnodesCommand _ _)]
    rfl
  | releaseNode =>
    rw [Command.invocation, inTry_commandWords hpbsnodesFits rfl (hpbsnodes (htext (by simp)))
      (wordsOf_pbsnodesCommand _ _)]
    rfl
  | removeNode =>
    rw [Command.invocation, inTry_commandWords hremoveNode rfl hone (wordsOf_removeNodeCommand _)]
    rfl
  | removeNodeFromHostsFile =>
    rw [Command.invocation, inTry_commandWords hsed rfl hone (wordsOf_sed _)]
    rfl
  | removeNodeFromKnownHostsFile =>
    rw [Command.invocation, inTry_commandWords hsshKeygen rfl hone (wordsOf_sshKeygen _)]
    rfl
  | addNode added =>
    rw [Command.invocation, loggedWords_eq_ok haddNode rfl hone (wordsOf_addNodeCommand _)]
    rfl
  | setRes resType accountString =>
    simp only [Command.invocation, Command.defaultInvocation]
    cases hoption : reservationOption resType with
    | none => rfl
    | some resOpt =>
      have hoptions : resOpt = "-a" ∨ resOpt = "-q" := by
        grind [reservationOption]
      have hresOpt : Plain resOpt := by
        rcases hoptions with rfl | rfl <;> exact htext (by simp)
      have hplain : ∀ arg ∈ [resOpt, accountString, vm.hostname], Plain arg :=
        List.forall_mem_cons.2 ⟨hresOpt, List.forall_mem_cons.2 ⟨hcommand, hone⟩⟩
      dsimp only
      rw [loggedWords_eq_ok hsetres rfl hplain (wordsOf_setresCommand _ _ _)]
      rfl
  | releaseRes =>
    have hfits : Fits ({} : Commands).releaseresCommand [vm.hostname].length := hreleaseres
    rw [Command.invocation, hfits.format]
    refine congrArg (Except.ok ∘ Invocation.shell) ?_
    simp [← String.toList_inj, pieces]
  | setNodeProperty nodeProperty =>
    rw [Command.invocation, loggedWords_eq_ok hsetNodeFits rfl
      (hsetNode (htext (by simp)) (htext (by simp)) hcommand) (wordsOf_setNodeCommand _ _ _ _)]
    simp [Command.defaultInvocation, String.append_assoc]
  | addNodeProperty nodeProperty =>
    rw [Command.invocation, loggedWords_eq_ok hsetNodeFits rfl
      (hsetNode (htext (by simp)) (htext (by simp)) hcommand) (wordsOf_setNodeCommand _ _ _ _)]
    simp [Command.defaultInvocation, String.append_assoc]
  | setNp np =>
    rw [Command.invocation, loggedWords_eq_ok hsetNodeFits rfl
      (hsetNode (htext (by simp)) (htext (by simp)) (plain_toString np))
      (wordsOf_setNodeCommand _ _ _ _)]
    simp [Command.defaultInvocation, String.append_assoc]
  | setNodeOnline =>
    rw [Command.invocation, inTry_commandWords hsetNodeFits rfl
      (hsetNode (htext (by simp)) (htext (by simp)) (htext (by simp)))
      (wordsOf_setNodeCommand _ _ _ _)]
    simp [Command.defaultInvocation, String.append_assoc]
  | postVmProvisionAction => rfl
  | postVmDestroyAction => rfl
  | postAddNodeAction => rfl
  | postRemoveNodeAction => rfl

/-- A server as `vm_start` names it. -/
theorem invocation_default_started :
    Command.removeNode.invocation {}
        (VM.init "1" (serverName {} "default" "3f2a") 4 none 0 none none "default") =
      .ok (.argv ["/usr/bin/qmgr", "-c", "delete node " ++ serverName {} "default" "3f2a"]) :=
  invocation_default
    (plain_serverName (by decide +kernel) (by decide +kernel) (by decide +kernel)) trivial

end DynamicTorque
