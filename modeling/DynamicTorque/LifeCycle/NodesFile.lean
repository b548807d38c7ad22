import DynamicTorque.Model.LocalCommands

/-!
# The text of the persistent file

`dump_nodes_to_persistent_file` writes a line `hostname np=cores property` for each VM, and
`read_nodes_from_persistent_file` takes what precedes the first space of each line.

* `noBreak_lineBody`: a line has no line break inside.
* `nodeOfLine_persistentLine`: a line is read as its hostname.
* `read_dump`: so the file is read as the hostnames, in order.
-/

open Python

namespace DynamicTorque

/-- A name without blanks. -/
def Unspaced (hostname : String) : Prop :=
  ∀ c ∈ hostname.toList, isSpace c = false

instance (hostname : String) : Decidable (Unspaced hostname) :=
  inferInstanceAs (Decidable (∀ c ∈ hostname.toList, isSpace c = false))

section Lines

variable {cfg : Config} {vm : VM}

theorem notMem_of_unspaced {hostname : String} (h : Unspaced hostname) {c : Char}
    (hc : isSpace c = true) : c ∉ hostname.toList := fun hmem ↦ by
  rw [h c hmem] at hc
  exact Bool.false_ne_true hc

/-- A number is printed with digits and a sign. -/
theorem notMem_toString (n : ℤ) : '\n' ∉ (toString n).toList := by
  have hdigits : ∀ k : ℕ, '\n' ∉ (Nat.repr k).toList := fun k hmem ↦ by
    rw [Nat.toList_repr] at hmem
    exact absurd (Nat.isDigit_of_mem_toDigits (by decide) (by decide) hmem) (by decide)
  rcases n with k | k
  · exact hdigits k
  · show '\n' ∉ ("-" ++ Nat.repr (k + 1)).toList
    rw [String.toList_append, List.mem_append, not_or]
    exact ⟨by decide, hdigits (k + 1)⟩

/-- The line of a VM, without its line break. -/
def VM.lineBody (cfg : Config) (vm : VM) : String :=
  vm.hostname ++ " np=" ++ toString vm.vcpuNumber ++ " " ++ cfg.nodeProperty

theorem noBreak_lineBody (hhost : Unspaced vm.hostname)
    (hproperty : '\n' ∉ cfg.nodeProperty.toList) : '\n' ∉ (vm.lineBody cfg).toList := by
  have hname : '\n' ∉ vm.hostname.toList := notMem_of_unspaced hhost (by decide)
  have hcores := notMem_toString vm.vcpuNumber
  simp only [VM.lineBody, String.toList_append, List.mem_append, not_or]
  exact ⟨⟨⟨⟨hname, by decide⟩, hcores⟩, by decide⟩, hproperty⟩

/-- **A line** is read as the hostname in it. -/
theorem nodeOfLine_persistentLine (hhost : Unspaced vm.hostname) :
    nodeOfLine (vm.persistentLine cfg) = vm.hostname := by
  have hspace : ' ' ∉ vm.hostname.toList := notMem_of_unspaced hhost (by decide)
  have hline : vm.persistentLine cfg = vm.hostname ++ String.singleton ' ' ++
      ("np=" ++ toString vm.vcpuNumber ++ " " ++ cfg.nodeProperty ++ String.singleton '\n') := by
    rw [VM.persistentLine, ← String.toList_inj]
    simp
  rw [nodeOfLine, hline, split_append hspace]
  show String.ofList (strip vm.hostname.toList) = vm.hostname
  rw [strip_eq_self hhost, String.ofList_toList]

end Lines

/-- The lines of the file. -/
theorem readlines_dump {cfg : Config} {vms : List VM} (hhost : ∀ vm ∈ vms, Unspaced vm.hostname)
    (hproperty : '\n' ∉ cfg.nodeProperty.toList) :
    readlines (dumpNodesToPersistentFile cfg vms) = vms.map (VM.persistentLine cfg) := by
  induction vms with
  | nil => rfl
  | cons vm vms ih =>
    rw [List.forall_mem_cons] at hhost
    rw [dumpNodesToPersistentFile, List.map_cons, String.join_cons, ← dumpNodesToPersistentFile]
    show readlines (vm.lineBody cfg ++ String.singleton '\n' ++ _) = _
    rw [readlines_append (noBreak_lineBody hhost.1 hproperty), ih hhost.2]
    rfl

/-- **The persistent file** is read as the hostnames of the VMs that were written, in order, each as
often as it was written. A name may be empty. -/
theorem read_dump (cfg : Config) (vms : List VM)
    (hhost : ∀ vm ∈ vms, Unspaced vm.hostname) (hproperty : '\n' ∉ cfg.nodeProperty.toList) :
    readNodesFromPersistentFile (some (dumpNodesToPersistentFile cfg vms)) =
      vms.map VM.hostname := by
  rw [readNodesFromPersistentFile, readlines_dump hhost hproperty, List.map_map]
  exact List.map_congr_left fun vm hvm ↦ nodeOfLine_persistentLine (hhost vm hvm)

/-- Two nodes of one name are read twice. -/
theorem read_dump_twice :
    readNodesFromPersistentFile (some (dumpNodesToPersistentFile { nodeProperty := "gpu" }
      [.init "1" "wn1" 4 none 0 none none "default",
        .init "2" "wn1" 8 none 0 none none "default"])) = ["wn1", "wn1"] := by
  have hname : Unspaced "wn1" := by
    simp [Unspaced, isSpace, Char.isWhitespace]
  refine read_dump { nodeProperty := "gpu" } _ (fun vm hvm ↦ ?_) (by decide)
  rcases List.mem_pair.1 hvm with rfl | rfl
  · exact hname
  · exact hname

end DynamicTorque
