import Mathlib.Algebra.Group.Nat.Defs
import Mathlib.Data.Fintype.Card
import SyscallVector.Lib.CString
import SyscallVector.Lib.LinkedList

/-!
# The data of the system call vectors

The structures of vector_struct.h and ioctl_module.h, the flavour bits of
overridden_syscalls.h, and the kernel state that the modules share: the list of
registered vectors, the module reference counts, the vector pointer of every
live task and the heap of chain nodes.
-/
namespace SyscallVector.Model

set_option autoImplicit false

open Lib (Fault CharArray)

/-- An `unsigned long` or a kernel pointer; 0 is NULL. -/
abbrev Address := UInt64

def ENOMEM : Int32 := 12
def EFAULT : Int32 := 14
def EINVAL : Int32 := 22

def maxVectorNameLen : Nat := 256
def maxBufferSize : Nat := 1024
def bufLen : Nat := 256

/-- `IS_ERR`: the last 4095 addresses encode error numbers. -/
def isErr (p : Address) : Bool := 0xfffffffffffff001 ≤ p

/-- `PTR_ERR`, assigned to an `int`. -/
def ptrErr (p : Address) : Int32 := p.toUInt32.toInt32

/-- The bytes of a string literal. -/
def ascii (cs : List Char) : List UInt8 := cs.map Char.toUInt8

/-- The modules that take part: the three that own vectors and the ioctl device. -/
inductive Module where
  | vector1
  | vector2
  | dynamicVector
  | ioctlModule
  deriving DecidableEq, Repr

/-- The modules whose symbols a module uses: `depends=` in the .mod.c files. -/
def Module.depends : Module → List Module
  | .vector1 => []
  | .vector2 => [.vector1]
  | .dynamicVector => [.vector1]
  | .ioctlModule => [.dynamicVector]

/-! ## Flavours -/

/-- The system calls that the vectors override, by their `__NR_` constants. -/
inductive SyscallNr where
  | read | write | open | close | link | unlink | mkdir | rmdir
  deriving DecidableEq, Repr

/-- The functions of overridden_syscalls.c. -/
inductive Handler where
  | overriddenRead | overriddenWrite | overriddenOpen | overriddenClose | overriddenLink
  | overriddenUnlink | overriddenMkdir | overriddenRmdir | blockedOpen | loggedWrite
  deriving DecidableEq, Repr

def READ_OVERRIDE : UInt32 := 1
def WRITE_OVERRIDE : UInt32 := 2
def OPEN_OVERRIDE : UInt32 := 4
def CLOSE_OVERRIDE : UInt32 := 8
def UNLINK_OVERRIDE : UInt32 := 16
def LINK_OVERRIDE : UInt32 := 32
def MKDIR_OVERRIDE : UInt32 := 64
def RMDIR_OVERRIDE : UInt32 := 128
def WRITE_LOGGED : UInt32 := 256
def OPEN_BLOCKED : UInt32 := 512

/-! ## Structures -/

/-- `struct overriddenSyscall`, one node of a vector's chain. -/
structure OverriddenSyscall where
  nrSyscall : SyscallNr
  funcPtr : Handler
  syscallTablePtr : Address
  nextSyscall : Address
  deriving DecidableEq, Repr

/-- The chain nodes that are allocated. -/
abbrev Heap := Address → Option OverriddenSyscall

/-- `struct struct_vector`; the `nextVector` links are the order of the list. A name of 256 bytes
and more leaves no NUL in `vectorName`, so the type does not ask for one. -/
structure StructVector where
  vectorId : UInt64
  vectorName : CharArray maxVectorNameLen
  overriddenSyscallsAddress : Address
  refcount : Int32
  overfuncsBitmap : UInt32
  vectorModule : Module
  deriving DecidableEq, Repr

/-- What vec_load_unload.c guards with `list_lock`: the vectors from
`vec_list_head` on, and the reference counts of the modules that own them. -/
structure Registry where
  vecList : List StructVector
  moduleRefs : Module → Int

/-- A positive `pid_t`. -/
abbrev Pid := { p : Fin (2 ^ 31) // p.val ≠ 0 }

/-- The state of the kernel and of the loaded modules. `tasks` gives the
`syscall_vector_info` of every live task, `listHead` the variable of that name in
each module, `listHeads` the entries `list_heads[0]` to `list_heads[i - 1]`. The
array ends after 256 entries; the entries stored past its end are kept as well,
since nothing else that the modules use lies there. -/
structure State where
  registry : Registry
  tasks : Pid → Option Address
  heap : Heap
  listHead : Module → Address
  listHeads : List Address
  loaded : Module → Bool

/-- `current->syscall_vector_info`. -/
def State.vectorInfo (s : State) (current : Pid) : Address := (s.tasks current).getD 0

/-- Assign `syscall_vector_info` of a live task. -/
def State.setVectorInfo (s : State) (current : Pid) (a : Address) : State :=
  { s with tasks := Function.update s.tasks current ((s.tasks current).map fun _ => a) }

def State.setListHead (s : State) (m : Module) (a : Address) : State :=
  { s with listHead := Function.update s.listHead m a }

/-- A module that is loaded uses symbols of this one. -/
def State.needed (s : State) (m : Module) : Bool :=
  [Module.vector1, .vector2, .dynamicVector, .ioctlModule].any fun m' =>
    s.loaded m' && m'.depends.contains m

/-! ## Requests -/

/-- `struct pid_n_buf`, with the buffer it points at left to `copy_to_user`. -/
structure PidNBuf where
  pid : Int32
  deriving DecidableEq, Repr

/-- What a request finds in user memory at `ioctl_param`, for each of the types
that the requests cast it to. -/
structure IoctlParam where
  userVectorName : List UInt8
  userPidBuf : PidNBuf
  userBitmap : UInt32
  deriving DecidableEq, Repr

/-- The results of the kernel services that one call uses: the addresses that its
allocations return, 0 for a failure, and whether its user copies are complete.
`node k` is the allocation that the `k`-th branch of a chain builder makes. -/
structure Env where
  buf : Address
  vectorName : Address
  pidBuf : Address
  kernelBitmap : Address
  reduceBuf : Address
  temp : Address
  vectorPrefix : Address
  node : Nat → Address
  va : Address
  copyFromUser : Bool
  copyToUser : Bool

/-! ## Field lemmas -/

namespace State
variable (s : State) (current : Pid) (a : Address) (m : Module)

@[simp] theorem setVectorInfo_registry : (s.setVectorInfo current a).registry = s.registry := rfl
@[simp] theorem setVectorInfo_heap : (s.setVectorInfo current a).heap = s.heap := rfl
@[simp] theorem setVectorInfo_listHead : (s.setVectorInfo current a).listHead = s.listHead := rfl
@[simp] theorem setVectorInfo_listHeads : (s.setVectorInfo current a).listHeads = s.listHeads := rfl
@[simp] theorem setVectorInfo_loaded : (s.setVectorInfo current a).loaded = s.loaded := rfl
@[simp] theorem setListHead_registry : (s.setListHead m a).registry = s.registry := rfl
@[simp] theorem setListHead_tasks : (s.setListHead m a).tasks = s.tasks := rfl
@[simp] theorem setListHead_heap : (s.setListHead m a).heap = s.heap := rfl
@[simp] theorem setListHead_listHeads : (s.setListHead m a).listHeads = s.listHeads := rfl
@[simp] theorem setListHead_loaded : (s.setListHead m a).loaded = s.loaded := rfl

theorem needed_eq_false_iff :
    s.needed m = false ↔ ∀ m' : Module, m ∈ m'.depends → s.loaded m' = false := by
  rw [needed, List.any_eq_false]
  constructor
  · intro h m' hm
    have hnot := h m' (by cases m' <;> decide)
    simpa [hm] using hnot
  · intro h m' _
    by_cases hm : m ∈ m'.depends
    · simp [h m' hm]
    · simp [hm]

theorem vectorInfo_of_live {s : State} {current : Pid} {a : Address}
    (h : s.tasks current = some a) : s.vectorInfo current = a := by
  rw [vectorInfo, h, Option.getD_some]

theorem setVectorInfo_tasks_of_live {s : State} {current : Pid} {b : Address}
    (h : s.tasks current = some b) :
    (s.setVectorInfo current a).tasks = Function.update s.tasks current (some a) := by
  rw [setVectorInfo, h, Option.map_some]

end State

/-- What can be read of a name without leaving its array. -/
theorem StructVector.strlen_vectorName_le (v : StructVector) :
    Lib.strlen v.vectorName ≤ maxVectorNameLen :=
  (Lib.strlen_le_length _).trans_eq v.vectorName.property

/-- A `pid_t` can tell apart no more tasks than an `int` can count. -/
theorem card_pid_lt : Fintype.card Pid < 2 ^ 31 := by simp

end SyscallVector.Model
