import SyscallVector.Model.OverriddenSyscalls

/-!
# What an overridden call reads and holds

The same paths as the functions of overridden_syscalls.c, with the table that a call reads its
original from, and with the references that `loggedWrite` takes on the file it writes.
-/
namespace SyscallVector.Model

set_option autoImplicit false

open Lib

section
variable (s : State) (current : Pid) (env : HandlerEnv) (syscallTablePtr : Address)

/-! ## The table -/

/-- `*(syscallTablePtr + nr)`: the value of the variable then, if the call gets there. -/
def readTable : Option Address :=
  match ensureTablePtr s current syscallTablePtr 8787 with
  | .error _ => none
  | .ok (table, _, out) => if out then none else some table

/-- The common body reads the table after the name and the policy. -/
def overriddenTable (refuse : List UInt8 → Except Fault (Option Int32)) : Option Address :=
  match getProcessName current env with
  | .error _ => none
  | .ok none => none
  | .ok (some processName) =>
    match refuse processName with
    | .error _ => none
    | .ok (some _) => none
    | .ok none => readTable s current syscallTablePtr

def OverriddenCall.table : OverriddenCall → Option Address
  | .read _ _ _ => overriddenTable s current env syscallTablePtr allow
  | .write _ _ _ => overriddenTable s current env syscallTablePtr allow
  | .open _ _ _ => overriddenTable s current env syscallTablePtr allow
  | .close _ => overriddenTable s current env syscallTablePtr allow
  | .link _ _ => overriddenTable s current env syscallTablePtr allow
  | .unlink pathname => overriddenTable s current env syscallTablePtr (refuseProtected pathname)
  | .mkdir _ _ => overriddenTable s current env syscallTablePtr allow
  | .rmdir _ => overriddenTable s current env syscallTablePtr allow
  | .blockedOpen pathname _ _ =>
    overriddenTable s current env syscallTablePtr (refuseAccounts pathname env.behindName)
  | .loggedWrite _ _ _ => readTable s current syscallTablePtr

/-! ## References -/

/-- `fget` and `fput` on the `struct file` of a write. -/
inductive FileRef where
  | fget | fput
  deriving DecidableEq, Repr

/-- The references that `loggedWrite` takes and drops. `fget` takes one unless it returns
NULL; none of the ways on from there has an `fput`. -/
def loggedWriteRefs (fd : Int32) : List FileRef :=
  match ensureTablePtr s current syscallTablePtr 8787 with
  | .error _ => []
  | .ok (table, _, out) =>
    if out then []
    else if table = 0 then []
    else
      match getProcessName current env with
      | .error _ => []
      | .ok none => []
      | .ok (some _) =>
        if fd < 3 then []
        else
          match env.file with
          | none => []
          | some _ => [.fget]

end

/-- The number of references on a file. -/
def refsAfter (refs : Nat) : List FileRef → Nat
  | [] => refs
  | .fget :: events => refsAfter (refs + 1) events
  | .fput :: events => refsAfter (refs - 1) events

end SyscallVector.Model
