import SyscallVector.Lib.WriteTrace
import SyscallVector.Model.UserMemory

/-!
# The writes of `loggedWrite`

The same path as `loggedWrite`, with what its copy and its string functions write: the data
of the user to `kbuf`, the uid to `temp_str` and the line to `str`. `d_path` is told the size
of `kbuf` and keeps to it.
-/
namespace SyscallVector.Model

set_option autoImplicit false

open Lib

inductive LogBuffer where
  | kbuf | str | tempStr
  deriving DecidableEq, Repr

/-- The two pages, if they are allocated, and the array on the stack. -/
def LogBuffer.size (env : HandlerEnv) : LogBuffer → Nat
  | .kbuf => if env.kbuf = 0 then 0 else pageSize
  | .str => if env.str = 0 then 0 else pageSize
  | .tempStr => 32

/-- What `copy_from_user` stores: where user memory cannot be read, zeros. -/
def copiedFromUser (env : HandlerEnv) (count : UInt64) : List UInt8 :=
  let bytes := env.userBuf.take count.toNat
  bytes ++ zeroed (count.toNat - bytes.length)

/-- `"\n/*below code was added by the user: "`. -/
def logHeader : List UInt8 :=
  10 :: ascii ['/', '*', 'b', 'e', 'l', 'o', 'w', ' ', 'c', 'o', 'd', 'e', ' ', 'w', 'a', 's', ' ',
    'a', 'd', 'd', 'e', 'd', ' ', 'b', 'y', ' ', 't', 'h', 'e', ' ', 'u', 's', 'e', 'r', ':', ' ']

/-- `"*/\n\0"`. -/
def logTail : List UInt8 := ascii ['*', '/'] ++ [10, 0]

/-- The string functions on a page that `kzalloc` has returned. -/
def strWrites (uid : UInt32) : List (Write LogBuffer) :=
  let header := Write.strcpy .str logHeader
  let str := memcpyAt (zeroed pageSize) header.offset header.bytes
  let tempStr := sprintfD uid ++ [0]
  let numeral := Write.strcat .str str tempStr
  let str := memcpyAt str numeral.offset numeral.bytes
  [header, ⟨.tempStr, 0, tempStr⟩, numeral, Write.strncat .str str logTail 44444]

/-- The writes of the block for a path with `".c"`; a NULL `str` stops it at `strcpy`. -/
def logWrites (env : HandlerEnv) (count : UInt64) : List (Write LogBuffer) :=
  ⟨.kbuf, 0, copiedFromUser env count⟩ ::
    if !env.copyFromUser then []
    else if env.str = 0 then [Write.strcpy .str logHeader]
    else strWrites env.uid

def loggedWriteWrites (s : State) (current : Pid) (env : HandlerEnv) (syscallTablePtr : Address)
    (fd : Int32) (count : UInt64) : List (Write LogBuffer) :=
  match ensureTablePtr s current syscallTablePtr 8787 with
  | .error _ => []
  | .ok (table, _, out) =>
    if out then []
    else if table = 0 then []
    else
      match getProcessName current env with
      | .error _ => []
      | .ok none => []
      | .ok (some _) =>
        if fd < 3 then []
        else
          match env.file with
          | none => []
          | some path =>
            if env.kbuf = 0 then []
            else
              match path with
              | none => []
              | some path => if (strstr path dotC).isSome then logWrites env count else []

end SyscallVector.Model
