import SyscallVector.Lib.Memory
import SyscallVector.Model.OverriddenSyscalls

/-!
# User memory during an overridden call

The events of a call, replayed on the memory of the process. Each `copy_to_user` stores its
bytes; an original reads memory as it is when its turn comes, and leaves it alone.
-/
namespace SyscallVector.Model

set_option autoImplicit false

open Lib

/-- `PAGE_SIZE`. -/
def pageSize : Nat := 4096

/-- The services of a call of `loggedWrite` in a process with this memory: `copy_from_user`
finds the bytes at `buf`. -/
def HandlerEnv.withMemory (env : HandlerEnv) (m : Memory) (buf : Address) (count : UInt64) :
    HandlerEnv :=
  { env with userBuf := m.read buf count.toNat }

def memoryAfter (m : Memory) : List HandlerEvent → Memory
  | [] => m
  | .copyToUser dst bytes :: events => memoryAfter (m.write dst bytes) events
  | .original _ :: events => memoryAfter m events

/-- What a `write` takes out of memory. -/
def Invocation.payload (m : Memory) (call : Invocation) : List UInt8 :=
  match call.nr, call.args with
  | .write, .readWrite _ buf count => m.read buf count.toNat
  | _, _ => []

/-- The originals called, each with what it takes out of memory at that time. -/
def issued (m : Memory) : List HandlerEvent → List (Invocation × List UInt8)
  | [] => []
  | .copyToUser dst bytes :: events => issued (m.write dst bytes) events
  | .original call :: events => (call, call.payload m) :: issued m events

end SyscallVector.Model
