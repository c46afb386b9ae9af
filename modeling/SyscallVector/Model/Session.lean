import SyscallVector.Model.Fork
import SyscallVector.Model.SysClone2

/-!
# Sessions

A session begins with a kernel without any of the modules. Besides the events of the running
system, the vector modules are loaded, tasks call `sys_clone2`, and forks fail half way. The
steps of run_script are such a session, and so are all the ways to go on from there.
-/
namespace SyscallVector.Model

set_option autoImplicit false

open Lib

/-- An event of a session. -/
inductive SessionOp where
  | system (op : Op)
  | insmod (m : Module) (kmalloc : Nat → Address) (va : Address)
  | clone (current : Pid) (flags id : UInt64) (fork : ForkResult)
  | forkFails (current : Pid) (cloneFlags : UInt64) (ioContext mm : Bool) (failed : ForkStep)
      (err : Int64)

/-- `insmod` of a module that owns vectors. Its variables are zero before `init_override`. -/
def load (s : State) (m : Module) (kmalloc : Nat → Address) (va : Address) :
    Except Fault (State × Int32) :=
  match m with
  | .vector1 => insmodVector1 (s.setListHead .vector1 0) kmalloc va
  | .vector2 => insmodVector2 (s.setListHead .vector2 0) kmalloc va
  | _ => .ok (insmodDynamicVector s, 0)

/-- The pid of the child that a fork creates is free. -/
def ForkResult.Free (s : State) : ForkResult → Prop
  | .child pid => s.tasks pid = none
  | .failed _ => True

instance (s : State) (fork : ForkResult) : Decidable (fork.Free s) := by
  cases fork <;> unfold ForkResult.Free <;> infer_instance

/-- One event of a session, if it can happen and returns. -/
def sessionStep (s : State) : SessionOp → Option State
  | .system op => step s op
  | .insmod m kmalloc va =>
    if m = .ioctlModule ∨ s.loaded m = true then none
    else (load s m kmalloc va).toOption.map Prod.fst
  | .clone current flags id fork =>
    if (s.tasks current).isSome ∧ fork.Free s then some (sysClone2 s current flags id fork).1
    else none
  | .forkFails current cloneFlags ioContext mm failed err =>
    if (s.tasks current).isSome then
      some (copyProcessFails s current cloneFlags ioContext mm failed err).state
    else none

/-- The allocations of an event obey the contract of `kmalloc`. -/
def SessionOp.Fresh (s : State) : SessionOp → Prop
  | .system op => op.Fresh s
  | .insmod _ kmalloc _ => FreshNodes s.heap kmalloc
  | _ => True

/-- The chain that a load leaves behind: when only its registration fails, `init_override`
returns the error and keeps the chain, but the module goes. -/
def lostChains (s : State) : SessionOp → List Address
  | .insmod m kmalloc va =>
    match load s m kmalloc va with
    | .error _ => []
    | .ok (t, ret) => if ret < 0 ∧ t.listHead m ≠ 0 then [t.listHead m] else []
  | _ => []

end SyscallVector.Model
