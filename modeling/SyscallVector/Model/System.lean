import SyscallVector.Lib.Transition
import SyscallVector.Model.IoctlModule

/-!
# The running system

The events that change the shared state, in any order and by any task: ioctl
calls, forks and exits of tasks, calls of the functions that vec_load_unload.c
exports, and unloading of a vector module. Each holds its mutex for its whole
duration, so an interleaving is a sequence of events.
-/
namespace SyscallVector.Model

set_option autoImplicit false

open Lib

/-! ## Exported functions -/

/-- A call of one of the functions that take or drop a reference. -/
inductive Call where
  | getVectorAddress (vectorName : List UInt8)
  | getVectorAddressFromId (bitmap : UInt32)
  | checkAnyCurrentVector (vecBitmap : UInt32)
  | incrementRefCountFromAddress (vectorAddress : Address)
  | reduceRefCount (vectorName : List UInt8)
  | reduceRefCountFromAddress (vectorAddress : Address)
  deriving DecidableEq, Repr

/-- What a call returns: an address, or the `int` of the other three functions. -/
inductive CallResult where
  | address (a : Address)
  | int (n : Int32)
  deriving DecidableEq, Repr

def Call.exec (r : Registry) : Call → Registry × CallResult
  | .getVectorAddress n => (Model.getVectorAddress r n).map id .address
  | .getVectorAddressFromId b => (Model.getVectorAddressFromId r b).map id .address
  | .checkAnyCurrentVector b => (Model.checkAnyCurrentVector r b).map id .address
  | .incrementRefCountFromAddress a => (Model.incrementRefCountFromAddress r a).map id .int
  | .reduceRefCount n => (Model.reduceRefCount r n).map id .int
  | .reduceRefCountFromAddress a => (Model.reduceRefCountFromAddress r a).map id .int

/-! ## Tasks -/

def CLONE_SYSCALLS : UInt64 := 0x00001000

/-- The `CLONE_SYSCALLS` block of `copy_process` in fork.cpy, for a fork that succeeds. -/
def copyProcess (s : State) (current child : Pid) (cloneFlags : UInt64) : State :=
  if cloneFlags &&& CLONE_SYSCALLS ≠ 0 then
    { s with
      registry := (incrementRefCountFromAddress s.registry (s.vectorInfo current)).1
      tasks := Function.update s.tasks child (some (s.vectorInfo current)) }
  else { s with tasks := Function.update s.tasks child (some 0) }

/-- The end of a task; the kernel's hook drops the reference of a vector it holds. -/
def exitTask (s : State) (current : Pid) : State :=
  let registry :=
    if s.vectorInfo current = 0 then s.registry
    else (reduceRefCountFromAddress s.registry (s.vectorInfo current)).1
  { s with registry := registry, tasks := Function.update s.tasks current none }

/-! ## Events -/

inductive Op where
  | ioctl (current : Pid) (ioctlRequest : UInt32) (param : IoctlParam) (env : Env)
  | copyProcess (current child : Pid) (cloneFlags : UInt64)
  | exit (current : Pid)
  | call (c : Call)
  | unregister (vectorAddress : Address)
  | rmmod (m : Module)

/-- `rmmod` of a vector module: its exit function, when its reference count is zero. The kernel
has a reference to a module for every loaded module that depends on it; `moduleRefs` counts the
others. Loading and unloading ioctl_module is no event. It depends on dynamic_vector, which
run_script unloads after it. -/
def rmmod (s : State) (m : Module) : Option State :=
  if s.loaded m = true ∧ s.needed m = false ∧ s.registry.moduleRefs m = 0 then
    let unloaded (t : State) : State := { t with loaded := Function.update t.loaded m false }
    match m with
    | .dynamicVector => (cleanupDynamicVector s).toOption.map unloaded
    | .ioctlModule => none
    | _ => (cleanupVector s m).toOption.map unloaded
  else none

/-- One event, if it can happen and returns. Only a live task makes a system call, and
`IOCTL_CREATE_FROM_BITMAP` runs code of dynamic_vector. -/
def step (s : State) : Op → Option State
  | .ioctl current request param env =>
    if (s.tasks current).isNone then none
    else if request = IOCTL_CREATE_FROM_BITMAP ∧ s.loaded .dynamicVector = false then none
    else (customIoctl s current request param env).toOption.map IoctlResult.state
  | .copyProcess current child flags =>
    if (s.tasks current).isSome ∧ (s.tasks child).isNone then
      some (Model.copyProcess s current child flags)
    else none
  | .exit current => if (s.tasks current).isNone then none else some (exitTask s current)
  | .call c => some { s with registry := (c.exec s.registry).1 }
  | .unregister a => some { s with registry := (unregisterSyscall s.registry a).1 }
  | .rmmod m => rmmod s m

/-! ## The kernel's part -/

/-- `kmalloc` returns NULL or a node that is not allocated, and the nodes that one
call allocates are distinct. -/
structure FreshNodes (heap : Heap) (node : Nat → Address) : Prop where
  unused : ∀ k, node k ≠ 0 → heap (node k) = none
  distinct : ∀ j k, j ≠ k → node j ≠ 0 → node j ≠ node k

/-- The allocations of an event obey the contract of `kmalloc`. -/
def Op.Fresh (s : State) : Op → Prop
  | .ioctl _ _ _ env => FreshNodes s.heap env.node
  | _ => True

/-- The requests that ioctl calls make. -/
def Op.IsIoctl : Op → Prop
  | .ioctl .. => True
  | _ => False

/-- The calls of `IOCTL_CREATE_FROM_BITMAP`. -/
def Op.IsCreate : Op → Prop
  | .ioctl _ request _ _ => request = IOCTL_CREATE_FROM_BITMAP
  | _ => False

/-! ## Boot -/

/-- The kernel before any module is loaded; no task holds a vector. -/
def kernelState (live : Pid → Bool) : State where
  registry := ⟨[], fun _ => 0⟩
  tasks p := if live p then some 0 else none
  heap _ := none
  listHead _ := 0
  listHeads := []
  loaded _ := false

/-- The order of run_script, with the results of the two loads that can fail. -/
def runScript (live : Pid → Bool) (node1 : Nat → Address) (va1 : Address)
    (node2 : Nat → Address) (va2 : Address) : Except Fault (State × Int32 × Int32) := do
  let (s, ret1) ← insmodVector1 (kernelState live) node1 va1
  let (s, ret2) ← insmodVector2 s node2 va2
  .ok (insmodDynamicVector s, ret1, ret2)

/-- The states that run_script builds when both vectors load. -/
def Booted (s : State) : Prop :=
  ∃ live node1 va1 node2 va2,
    FreshNodes (fun _ => none) node1 ∧ (∀ j k, node1 j ≠ 0 → node1 j ≠ node2 k) ∧
      FreshNodes (fun _ => none) node2 ∧
      runScript live node1 va1 node2 va2 = .ok (s, 0, 0)

end SyscallVector.Model
