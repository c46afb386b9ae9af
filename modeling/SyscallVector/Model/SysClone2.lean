import SyscallVector.Model.System

/-!
# The clone system call

`sys_clone2` takes a reference for the child, either to the vector of its parent or to
the one with the given id, and then calls `_do_fork` with the vector's address as a
seventh argument.
-/
namespace SyscallVector.Model

set_option autoImplicit false

/-- What `_do_fork` comes to: the child it creates or an error number. -/
inductive ForkResult where
  | child (pid : Pid)
  | failed (err : Int64)
  deriving DecidableEq, Repr

/-- The `_do_fork` with seven parameters that sys_clone2.c declares: `CLONE_SYSCALLS` is
left to `copy_process`, and otherwise the child gets `vector_address`, where -1 stands
for no vector. A fork that fails leaves the registry alone. -/
def doFork (s : State) (current : Pid) (cloneFlags : UInt64) (vectorAddress : Address) :
    ForkResult → State × Int64
  | .failed err => (s, err)
  | .child pid =>
    if cloneFlags &&& CLONE_SYSCALLS ≠ 0 then
      (copyProcess s current pid cloneFlags, Int64.ofNat pid.1.val)
    else
      let info := if vectorAddress = -1 then 0 else vectorAddress
      ({ s with tasks := Function.update s.tasks pid (some info) }, Int64.ofNat pid.1.val)

/-- `sys_clone2`; `get_vector_address_from_id` takes the low half of `id` only. -/
def sysClone2 (s : State) (current : Pid) (flags id : UInt64) (fork : ForkResult) :
    State × Int64 :=
  if flags &&& CLONE_SYSCALLS ≠ 0 then
    let (registry, ret) := incrementRefCountFromAddress s.registry (s.vectorInfo current)
    let s := { s with registry := registry }
    if ret < 0 then (s, -1) else doFork s current flags 0 fork
  else
    let (registry, addr) := getVectorAddressFromId s.registry id.toUInt32
    let s := { s with registry := registry }
    doFork s current flags (if addr = 0 then -1 else addr) fork

/-- The part of `sys_clone2` before `_do_fork`: the state that it leaves and the address that
it passes on, if it does not return -1 at once. -/
def forkArgument (s : State) (current : Pid) (flags id : UInt64) : State × Option Address :=
  if flags &&& CLONE_SYSCALLS ≠ 0 then
    let (registry, ret) := incrementRefCountFromAddress s.registry (s.vectorInfo current)
    ({ s with registry := registry }, if ret < 0 then none else some 0)
  else
    let (registry, addr) := getVectorAddressFromId s.registry id.toUInt32
    ({ s with registry := registry }, some (if addr = 0 then -1 else addr))

theorem sysClone2_eq_doFork (s : State) (current : Pid) (flags id : UInt64) (fork : ForkResult) :
    sysClone2 s current flags id fork =
      match forkArgument s current flags id with
      | (t, none) => (t, -1)
      | (t, some addr) => doFork t current flags addr fork := by
  rw [sysClone2, forkArgument]
  by_cases hflags : flags &&& CLONE_SYSCALLS ≠ 0
  · rw [if_pos hflags, if_pos hflags]
    dsimp only
    by_cases hret : (incrementRefCountFromAddress s.registry (s.vectorInfo current)).2 < 0
    · rw [if_pos hret, if_pos hret]
    · rw [if_neg hret, if_neg hret]
  · rw [if_neg hflags, if_neg hflags]

end SyscallVector.Model
