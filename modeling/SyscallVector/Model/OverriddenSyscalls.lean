import SyscallVector.Model.System

/-!
# The overridden system calls

The ten functions of overridden_syscalls.c that a vector can put in the place of a
system call. Each prints the name of the process, makes sure that the module's one
`syscallTablePtr` is set, and calls the original through it. Nine of them share their
body; `loggedWrite` does the same things in another order.
-/
namespace SyscallVector.Model

set_option autoImplicit false

open Lib

/-! ## Calls -/

/-- A string in user memory, if it can be read. -/
structure UserPath where
  address : Address
  chars : Option (List UInt8)
  deriving DecidableEq, Repr

/-- The arguments of an original, with the types of the pointer it is called through. -/
inductive SyscallArgs where
  | readWrite (fd : UInt32) (buf : Address) (count : UInt64)
  | open (pathname : Address) (flags : Int32) (mode : UInt32)
  | close (fd : Int32)
  | link (oldname newname : Address)
  | path (pathname : Address)
  | mkdir (pathname : Address) (mode : UInt32)
  deriving DecidableEq, Repr

/-- A call through the entry `nr` of the table at `table`. -/
structure Invocation where
  table : Address
  nr : SyscallNr
  args : SyscallArgs
  deriving DecidableEq, Repr

/-- What a process can see of an overridden call before it returns. -/
inductive HandlerEvent where
  | copyToUser (dst : Address) (bytes : List UInt8)
  | original (call : Invocation)
  deriving DecidableEq, Repr

/-- The kernel services of one overridden call: the results of `kmalloc`, `filp_open`,
`fget`, `d_path` and the user copies, and what each original returns after the events so
far. `behindName` is the memory from the end of the name buffer to the next NUL. `cmdline` is
`none` when `filp_open` returns an error pointer, and the inner option of `file` when `d_path`
does. -/
structure HandlerEnv where
  name : Address
  nameBytes : List UInt8
  behindName : List UInt8
  cmdline : Option (List UInt8)
  file : Option (Option (List UInt8))
  kbuf : Address
  userBuf : List UInt8
  copyFromUser : Bool
  str : Address
  uid : UInt32
  copyToUser : Bool
  copyBack : Bool
  original : List HandlerEvent → Invocation → Int64

/-- The static variable and the events after a call, and the value of `ret` if it returns. -/
structure HandlerOutcome where
  syscallTablePtr : Address
  events : List HandlerEvent
  ret : Except Fault Int32

/-- The return types of the functions. In all of them `ret` is an `int`. -/
inductive ReturnType where
  | int | sizeT
  deriving DecidableEq, Repr

/-- The `long` that the dispatcher reads after `return ret`. A conversion to `size_t` extends
the sign; a function that returns `int` sets the lower half of the register, and the upper half
is zero. -/
def ReturnType.toLong : ReturnType → Int32 → Int64
  | .int, ret => ret.toUInt32.toUInt64.toInt64
  | .sizeT, ret => ret.toInt64

/-- The value that the process gets. -/
def HandlerOutcome.returned (o : HandlerOutcome) (type : ReturnType) : Except Fault Int64 :=
  o.ret.map type.toLong

/-! ## Helpers -/

def procPath (current : Pid) : List UInt8 :=
  ascii ['/', 'p', 'r', 'o', 'c', '/'] ++ decimal current.1.val ++
    ascii ['/', 'c', 'm', 'd', 'l', 'i', 'n', 'e']

/-- `get_process_name`: the command line is read over the path that was printed to the
same buffer. An error pointer passes the test for NULL and is followed. -/
def getProcessName (current : Pid) (env : HandlerEnv) : Except Fault (Option (List UInt8)) :=
  if env.name = 0 then .ok none
  else
    match env.cmdline with
    | none => .error .danglingPointer
    | some contents =>
      let printed := memcpyAt env.nameBytes 0 (procPath current ++ [0])
      .ok (some (memcpyAt printed 0 (contents.take 4096)))

/-- `initSyscallTablePtr`, with the new value of the static variable. -/
def initSyscallTablePtr (s : State) (current : Pid) (syscallTablePtr : Address) :
    Except Fault (Address × Int32) :=
  if s.vectorInfo current ≠ 0 then
    let vecHead := s.vectorInfo current
    if vecHead = 0 then .ok (syscallTablePtr, -EFAULT)
    else
      match s.heap vecHead with
      | none => .error .danglingPointer
      | some head => .ok (head.syscallTablePtr, 0)
  else .ok (syscallTablePtr, 0)

/-- `if (syscallTablePtr == NULL)` and its block; the flag tells whether `goto out` is
taken. -/
def ensureTablePtr (s : State) (current : Pid) (syscallTablePtr : Address) (ret : Int32) :
    Except Fault (Address × Int32 × Bool) :=
  if syscallTablePtr = 0 then
    (initSyscallTablePtr s current syscallTablePtr).map fun (ptr, ret) => (ptr, ret, ret != 0)
  else .ok (syscallTablePtr, ret, false)

/-- Call an original after the given events. -/
def invoke (env : HandlerEnv) (events : List HandlerEvent) (call : Invocation) :
    List HandlerEvent × Int32 :=
  (events ++ [.original call], (env.original events call).toInt32)

def readString (p : UserPath) : Except Fault (List UInt8) :=
  match p.chars with
  | none => .error .danglingPointer
  | some chars => .ok chars

/-- The body of all functions but `loggedWrite`. `refuse` is what comes between the name
and the table: `goto out` with a value of `ret`, or nothing. -/
def overridden (s : State) (current : Pid) (env : HandlerEnv) (syscallTablePtr : Address)
    (nr : SyscallNr) (args : SyscallArgs)
    (refuse : List UInt8 → Except Fault (Option Int32)) : HandlerOutcome :=
  match getProcessName current env with
  | .error fault => ⟨syscallTablePtr, [], .error fault⟩
  | .ok none => ⟨syscallTablePtr, [], .ok 8787⟩
  | .ok (some processName) =>
    match refuse processName with
    | .error fault => ⟨syscallTablePtr, [], .error fault⟩
    | .ok (some ret) => ⟨syscallTablePtr, [], .ok ret⟩
    | .ok none =>
      match ensureTablePtr s current syscallTablePtr 8787 with
      | .error fault => ⟨syscallTablePtr, [], .error fault⟩
      | .ok (table, ret, out) =>
        if out then ⟨table, [], .ok ret⟩
        else if table = 0 then ⟨table, [], .error .nullPointer⟩
        else
          let (events, ret) := invoke env [] ⟨table, nr, args⟩
          ⟨table, events, .ok ret⟩

/-! ## Refusals -/

/-- Most functions have no policy. -/
def allow (_processName : List UInt8) : Except Fault (Option Int32) := .ok none

def dotProtected : List UInt8 := ascii ['.', 'p', 'r', 'o', 't', 'e', 'c', 't', 'e', 'd']

/-- The policy of `overriddenUnlink`, which leaves `ret` as it was initialised. -/
def refuseProtected (pathname : UserPath) (_processName : List UInt8) :
    Except Fault (Option Int32) :=
  (readString pathname).map fun path =>
    if (strstr path dotProtected).isSome then some 8787 else none

def httpd : List UInt8 := ascii ['h', 't', 't', 'p', 'd']

def etcPasswd : List UInt8 := ascii ['/', 'e', 't', 'c', '/', 'p', 'a', 's', 's', 'w', 'd']

def etcShadow : List UInt8 := ascii ['/', 'e', 't', 'c', '/', 's', 'h', 'a', 'd', 'o', 'w']

/-- The policy of `blockedOpen`, which looks at the path for `httpd` only. The search in a name
without a NUL goes on behind the buffer. -/
def refuseAccounts (pathname : UserPath) (behindName processName : List UInt8) :
    Except Fault (Option Int32) :=
  if (strstr (processName ++ behindName) httpd).isSome then
    (readString pathname).map fun path =>
      if (strstr path etcPasswd).isSome || (strstr path etcShadow).isSome then some (-1) else none
  else .ok none

/-! ## The ten functions -/

section
variable (s : State) (current : Pid) (env : HandlerEnv) (syscallTablePtr : Address)

def overriddenRead (fd : Int32) (buf : Address) (count : UInt64) : HandlerOutcome :=
  overridden s current env syscallTablePtr .read (.readWrite fd.toUInt32 buf count) allow

def overriddenWrite (fd : Int32) (buf : Address) (count : UInt64) : HandlerOutcome :=
  overridden s current env syscallTablePtr .write (.readWrite fd.toUInt32 buf count) allow

def overriddenOpen (pathname : UserPath) (flags : Int32) (mode : UInt32) : HandlerOutcome :=
  overridden s current env syscallTablePtr .open (.open pathname.address flags mode) allow

def overriddenClose (fd : Int32) : HandlerOutcome :=
  overridden s current env syscallTablePtr .close (.close fd) allow

def overriddenLink (oldname newname : UserPath) : HandlerOutcome :=
  overridden s current env syscallTablePtr .link (.link oldname.address newname.address) allow

def overriddenUnlink (pathname : UserPath) : HandlerOutcome :=
  overridden s current env syscallTablePtr .unlink (.path pathname.address)
    (refuseProtected pathname)

def overriddenMkdir (pathname : UserPath) (mode : UInt32) : HandlerOutcome :=
  overridden s current env syscallTablePtr .mkdir (.mkdir pathname.address mode) allow

def overriddenRmdir (pathname : UserPath) : HandlerOutcome :=
  overridden s current env syscallTablePtr .rmdir (.path pathname.address) allow

def blockedOpen (pathname : UserPath) (flags : Int32) (mode : UInt32) : HandlerOutcome :=
  overridden s current env syscallTablePtr .open (.open pathname.address flags mode)
    (refuseAccounts pathname env.behindName)

def dotC : List UInt8 := ascii ['.', 'c']

/-- `"\n/*below code was added by the user: %d*/\n"`. -/
def logLine (uid : UInt32) : List UInt8 :=
  10 :: ascii ['/', '*', 'b', 'e', 'l', 'o', 'w', ' ', 'c', 'o', 'd', 'e', ' ', 'w', 'a', 's',
    ' ', 'a', 'd', 'd', 'e', 'd', ' ', 'b', 'y', ' ', 't', 'h', 'e', ' ', 'u', 's', 'e', 'r', ':',
    ' '] ++
  sprintfD uid ++ ascii ['*', '/'] ++ [10]

/-- The block of `loggedWrite` for a path with `".c"`, and the write that follows it. -/
def logAndWrite (env : HandlerEnv) (table : Address) (fd : Int32) (buf : Address)
    (count : UInt64) : HandlerOutcome :=
  if !env.copyFromUser then ⟨table, [], .ok (-1)⟩
  else if env.str = 0 then ⟨table, [], .error .nullPointer⟩
  else if !env.copyToUser then ⟨table, [], .ok (-1)⟩
  else
    let str := logLine env.uid
    let (events, _) := invoke env [.copyToUser buf str]
      ⟨table, .write, .readWrite fd.toUInt32 buf (UInt64.ofNat (strlen str))⟩
    if !env.copyBack then ⟨table, events, .ok (-1)⟩
    else
      let (events, ret) := invoke env (events ++ [.copyToUser buf (env.userBuf.take count.toNat)])
        ⟨table, .write, .readWrite fd.toUInt32 buf count⟩
      ⟨table, events, .ok ret⟩

def loggedWrite (fd : Int32) (buf : Address) (count : UInt64) : HandlerOutcome :=
  match ensureTablePtr s current syscallTablePtr 8787 with
  | .error fault => ⟨syscallTablePtr, [], .error fault⟩
  | .ok (table, ret, out) =>
    if out then ⟨table, [], .ok ret⟩
    else if table = 0 then ⟨table, [], .error .nullPointer⟩
    else
      match getProcessName current env with
      | .error fault => ⟨table, [], .error fault⟩
      | .ok none => ⟨table, [], .ok ret⟩
      | .ok (some _) =>
        let (written, result) := invoke env [] ⟨table, .write, .readWrite fd.toUInt32 buf count⟩
        if fd < 3 then ⟨table, written, .ok result⟩
        else
          match env.file with
          | none => ⟨table, [], .ok ret⟩
          | some path =>
            if env.kbuf = 0 then ⟨table, [], .ok (-ENOMEM)⟩
            else
              match path with
              | none => ⟨table, [], .error .danglingPointer⟩
              | some path =>
                if (strstr path dotC).isSome then logAndWrite env table fd buf count
                else ⟨table, written, .ok result⟩

end

/-! ## Any of them -/

/-- A call of one of the ten functions with its arguments. -/
inductive OverriddenCall where
  | read (fd : Int32) (buf : Address) (count : UInt64)
  | write (fd : Int32) (buf : Address) (count : UInt64)
  | open (pathname : UserPath) (flags : Int32) (mode : UInt32)
  | close (fd : Int32)
  | link (oldname newname : UserPath)
  | unlink (pathname : UserPath)
  | mkdir (pathname : UserPath) (mode : UInt32)
  | rmdir (pathname : UserPath)
  | blockedOpen (pathname : UserPath) (flags : Int32) (mode : UInt32)
  | loggedWrite (fd : Int32) (buf : Address) (count : UInt64)
  deriving DecidableEq, Repr

/-- The declared return types. -/
def OverriddenCall.returnType : OverriddenCall → ReturnType
  | .read .. => .sizeT
  | .write .. => .int
  | .open .. => .int
  | .close .. => .int
  | .link .. => .int
  | .unlink .. => .int
  | .mkdir .. => .int
  | .rmdir .. => .int
  | .blockedOpen .. => .int
  | .loggedWrite .. => .sizeT

def OverriddenCall.exec (s : State) (current : Pid) (env : HandlerEnv)
    (syscallTablePtr : Address) : OverriddenCall → HandlerOutcome
  | .read fd buf count => overriddenRead s current env syscallTablePtr fd buf count
  | .write fd buf count => overriddenWrite s current env syscallTablePtr fd buf count
  | .open pathname flags mode => overriddenOpen s current env syscallTablePtr pathname flags mode
  | .close fd => overriddenClose s current env syscallTablePtr fd
  | .link oldname newname => overriddenLink s current env syscallTablePtr oldname newname
  | .unlink pathname => overriddenUnlink s current env syscallTablePtr pathname
  | .mkdir pathname mode => overriddenMkdir s current env syscallTablePtr pathname mode
  | .rmdir pathname => overriddenRmdir s current env syscallTablePtr pathname
  | .blockedOpen pathname flags mode =>
    Model.blockedOpen s current env syscallTablePtr pathname flags mode
  | .loggedWrite fd buf count => Model.loggedWrite s current env syscallTablePtr fd buf count

/-- The call that the process would have made without a vector. -/
def OverriddenCall.native (table : Address) : OverriddenCall → Invocation
  | .read fd buf count => ⟨table, .read, .readWrite fd.toUInt32 buf count⟩
  | .write fd buf count => ⟨table, .write, .readWrite fd.toUInt32 buf count⟩
  | .open pathname flags mode => ⟨table, .open, .open pathname.address flags mode⟩
  | .close fd => ⟨table, .close, .close fd⟩
  | .link oldname newname => ⟨table, .link, .link oldname.address newname.address⟩
  | .unlink pathname => ⟨table, .unlink, .path pathname.address⟩
  | .mkdir pathname mode => ⟨table, .mkdir, .mkdir pathname.address mode⟩
  | .rmdir pathname => ⟨table, .rmdir, .path pathname.address⟩
  | .blockedOpen pathname flags mode => ⟨table, .open, .open pathname.address flags mode⟩
  | .loggedWrite fd buf count => ⟨table, .write, .readWrite fd.toUInt32 buf count⟩

end SyscallVector.Model
