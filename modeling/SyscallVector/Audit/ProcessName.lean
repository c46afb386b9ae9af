import SyscallVector.Audit.Transparency
import SyscallVector.Lib.WriteTrace

/-!
# The name of the process

`getProcessName` prints the path of the command line to a fresh buffer, reads the command line
over it and ignores how many bytes were read. What ends the name is a NUL of the command line,
or else whatever the buffer holds behind it.
-/
namespace SyscallVector.Audit

set_option autoImplicit false

open Lib Model

/-- The buffer holds a string that ends inside it and is what the command line says. -/
structure NamesProcess (contents buffer : List UInt8) : Prop where
  length : buffer.length = 4096
  terminated : (0 : UInt8) ∈ buffer
  text : cstr buffer = cstr contents

/-- There is a NUL in what is read, or the command line is as long as its own path, or it is
longer and the buffer happened to hold a NUL behind it. -/
def NameEnds (current : Pid) (env : HandlerEnv) (contents : List UInt8) : Prop :=
  (0 : UInt8) ∈ contents.take 4096 ∨ contents.length = (procPath current).length ∨
    (procPath current).length < contents.length ∧ env.nameBytes[contents.length]? = some 0

instance (current : Pid) (env : HandlerEnv) (contents : List UInt8) :
    Decidable (NameEnds current env contents) := inferInstanceAs (Decidable (_ ∨ _ ∨ _ ∧ _))

section
variable {current : Pid} {env : HandlerEnv} {contents : List UInt8}

theorem nul_not_mem_procPath (current : Pid) : (0 : UInt8) ∉ procPath current := by
  rw [procPath, List.mem_append, List.mem_append, not_or, not_or]
  exact ⟨⟨by decide, not_mem_decimal (by decide) _⟩, by decide⟩

theorem length_procPath_lt (current : Pid) : (procPath current).length < 4096 := by
  have hpid : current.1.val < 10 ^ 10 := current.1.isLt.trans (by decide)
  have hnumeral : (decimal current.1.val).length ≤ 10 :=
    (length_decimal_le_iff (by decide)).mpr hpid
  simp only [procPath, ascii, List.length_append, List.length_map, List.length_cons,
    List.length_nil]
  omega

/-- The buffer before the command line is read. -/
def printedPath (current : Pid) (env : HandlerEnv) : List UInt8 :=
  memcpyAt env.nameBytes 0 (procPath current ++ [0])

theorem printedPath_eq (current : Pid) (env : HandlerEnv) :
    printedPath current env =
      procPath current ++ 0 :: env.nameBytes.drop ((procPath current).length + 1) := by
  rw [printedPath, memcpyAt, List.take_zero, List.nil_append, Nat.zero_add, List.length_append,
    List.length_singleton, List.append_assoc, List.singleton_append]

theorem length_printedPath (current : Pid) (hbytes : env.nameBytes.length = 4096) :
    (printedPath current env).length = 4096 := by
  have hpath := length_procPath_lt current
  rw [printedPath_eq, List.length_append, List.length_cons, List.length_drop, hbytes]
  omega

/-- Where the buffer has a NUL: behind the path, and further on where it had one before. -/
theorem printedPath_nul_iff (current : Pid) (env : HandlerEnv) (i : Nat) :
    (printedPath current env)[i]? = some 0 ↔
      i = (procPath current).length ∨
        (procPath current).length < i ∧ env.nameBytes[i]? = some 0 := by
  rw [printedPath_eq]
  rcases Nat.lt_trichotomy i (procPath current).length with hlt | rfl | hgt
  · rw [List.getElem?_append_left hlt]
    refine iff_of_false (fun h => ?_) (by omega)
    exact nul_not_mem_procPath current (List.mem_of_getElem? h)
  · rw [List.getElem?_append_right le_rfl, Nat.sub_self, List.getElem?_cons_zero]
    exact iff_of_true rfl (.inl rfl)
  · have hnext : i - (procPath current).length = i - ((procPath current).length + 1) + 1 := by
      omega
    have hindex : (procPath current).length + 1 + (i - ((procPath current).length + 1)) = i := by
      omega
    rw [List.getElem?_append_right hgt.le, hnext, List.getElem?_cons_succ, List.getElem?_drop,
      hindex, or_iff_right hgt.ne', and_iff_right hgt]

/-- The buffer with the command line read over the path. -/
def readOver (current : Pid) (env : HandlerEnv) (contents : List UInt8) : List UInt8 :=
  memcpyAt (printedPath current env) 0 (contents.take 4096)

theorem getProcessName_readOver (current : Pid) (hname : env.name ≠ 0)
    (hfile : env.cmdline = some contents) :
    getProcessName current env = .ok (some (readOver current env contents)) := by
  rw [getProcessName, if_neg hname, hfile]
  rfl

theorem namesProcess_readOver_iff (current : Pid) (hbytes : env.nameBytes.length = 4096) :
    NamesProcess contents (readOver current env contents) ↔ NameEnds current env contents := by
  have hsize := length_printedPath current hbytes
  have hlength : (readOver current env contents).length = 4096 := by
    rw [readOver, length_memcpyAt, hsize]
    rw [hsize, Nat.zero_add]
    exact List.length_take_le ..
  have hstring := cstr_overwrite_iff (printedPath current env) contents
  rw [hsize, printedPath_nul_iff] at hstring
  exact ⟨fun h => hstring.mp ⟨h.terminated, h.text⟩,
    fun h => ⟨hlength, (hstring.mpr h).1, (hstring.mpr h).2⟩⟩

/-- For every process and every command line, the buffer that comes back is a string with the
text of the command line if and only if the command line ends within what is read, or the
buffer had a NUL right behind it. -/
theorem process_name_iff (current : Pid) (hname : env.name ≠ 0)
    (hbytes : env.nameBytes.length = 4096) (hfile : env.cmdline = some contents) :
    ∃ buffer, getProcessName current env = .ok (some buffer) ∧
      (NamesProcess contents buffer ↔ NameEnds current env contents) :=
  ⟨_, getProcessName_readOver current hname hfile, namesProcess_readOver_iff current hbytes⟩

/-- A name that ends is searched for `"httpd"` as far as the command line goes. -/
theorem namedHttpd_iff (hname : env.name ≠ 0) (hbytes : env.nameBytes.length = 4096)
    (hfile : env.cmdline = some contents) (hends : NameEnds current env contents) :
    NamedHttpd current env ↔ httpd <:+: cstr contents := by
  have hnames := (namesProcess_readOver_iff current hbytes).mpr hends
  rw [namedHttpd_read (getProcessName_readOver current hname hfile), strstr_isSome_iff rfl,
    hnames.text]

/-- Nothing behind the buffer is read of a name that ends. -/
theorem keepsToName_of_ends (hname : env.name ≠ 0) (hbytes : env.nameBytes.length = 4096)
    (hfile : env.cmdline = some contents) (hends : NameEnds current env contents)
    (call : OverriddenCall) : KeepsToName current env call := by
  have hread := getProcessName_readOver current hname hfile
  have hnames := (namesProcess_readOver_iff current hbytes).mpr hends
  cases call with
  | blockedOpen =>
    exact fun hsees _ => (seesHttpd_iff_of_nul hread hnames.terminated).mp hsees
  | read | write | «open» | close | link | unlink | mkdir | rmdir | loggedWrite => trivial

end

/-- Services that all succeed, for a process with this command line. -/
def commandEnv (contents : List UInt8) : HandlerEnv := { openEnv with cmdline := some contents }

/-- A command line of `a` and a NUL. -/
theorem process_name_ended :
    ∃ buffer, getProcessName task1 (commandEnv [97, 0]) = .ok (some buffer) ∧
      NamesProcess [97, 0] buffer := by
  have hname : (commandEnv [97, 0]).name ≠ 0 := by decide
  have hbytes : (commandEnv [97, 0]).nameBytes.length = 4096 := List.length_replicate
  obtain ⟨buffer, hread, hiff⟩ := process_name_iff task1 hname hbytes rfl
  exact ⟨buffer, hread, hiff.mpr (.inl (by decide))⟩

/-- A command line of `a` alone is followed by what is left of `/proc/1/cmdline`. -/
theorem process_name_not_ended :
    ¬∀ current env contents buffer, env.name ≠ 0 → env.nameBytes.length = 4096 →
      env.cmdline = some contents → getProcessName current env = .ok (some buffer) →
      NamesProcess contents buffer := by
  intro hall
  have hname : (commandEnv [97]).name ≠ 0 := by decide
  have hbytes : (commandEnv [97]).nameBytes.length = 4096 := List.length_replicate
  obtain ⟨buffer, hread, hiff⟩ := process_name_iff task1 hname hbytes rfl
  have hends : NameEnds task1 (commandEnv [97]) [97] :=
    hiff.mp (hall task1 (commandEnv [97]) [97] buffer hname hbytes rfl hread)
  exact absurd hends (by decide)

end SyscallVector.Audit
