import SyscallVector.Lib.Interleaving
import SyscallVector.Model.Session

/-!
# Calls of the ioctl device in sections

`custom_ioctl` holds `mutexlock`, but forks, exits, clones and the exported functions that take
or drop a reference do not need it: they come between the statements of a call. What is atomic
are the bodies of the functions that hold `list_lock`, and single reads and writes of the
variables. Here each request is the sequence of these sections. `show_all_vectors` and
`show_my_vector` do not take `list_lock`; they read no field that changes while `mutexlock` is
held and no module is loaded or unloaded, so each is one section. So is the building of a chain,
whose nodes nobody else knows.
-/
namespace SyscallVector.Model

set_option autoImplicit false

open Lib

/-- What a call comes to: the result and the bytes copied to the user. -/
abbrev Returned := Except Fault (Int64 × Option (List UInt8))

abbrev Sections := Prog State Returned

/-- The body of a function that holds `list_lock`. -/
def withListLock {β : Type} (f : Registry → Registry × β) (next : β → Sections) : Sections :=
  .act (fun s => { s with registry := (f s.registry).1 }) fun s => next (f s.registry).2

def reading {β : Type} (f : State → β) (next : β → Sections) : Sections :=
  .act id fun s => next (f s)

def writing (f : State → State) (next : Sections) : Sections := .act f fun _ => next

def pinModule (m : Module) (next : Sections) : Sections :=
  writing (fun s => { s with registry := s.registry.tryModuleGet m }) next

/-- The chain nodes and `listHead` of dynamic_vector after statements on them. -/
def chainsAfter {β : Type} (f : Builder → Except Fault (Builder × β)) (s : State) : State :=
  match f ⟨s.heap, s.listHead .dynamicVector⟩ with
  | .error _ => s
  | .ok (b, _) => { s with heap := b.heap }.setListHead .dynamicVector b.listHead

/-- A call goes on after such statements unless they read or write through NULL. -/
def chainsThen {β : Type} (f : Builder → Except Fault (Builder × β)) (next : β → Sections)
    (s : State) : Sections :=
  match f ⟨s.heap, s.listHead .dynamicVector⟩ with
  | .error fault => .ret (.error fault)
  | .ok (_, x) => next x

/-- Statements on what nobody else uses. -/
def onChains {β : Type} (f : Builder → Except Fault (Builder × β)) (next : β → Sections) :
    Sections :=
  .act (chainsAfter f) (chainsThen f next)

/-- `module_put(THIS_MODULE)` and the end of the call. -/
def putAndReturn (result : Returned) : Sections :=
  writing (fun s => { s with registry := s.registry.modulePut .ioctlModule }) (.ret result)

def failWith (err : Int64) : Returned := .ok (err, none)

/-! ## The requests -/

/-- `if_assigned_reduce`. -/
def ifAssignedReduceSections (current : Pid) (env : Env) (next : Sections) : Sections :=
  reading (fun s => s.vectorInfo current) fun info =>
    if info = 0 then next
    else if env.reduceBuf = 0 then next
    else
      reading (fun s => (showMyVector s.registry (zeroed bufLen) (s.vectorInfo current)).1)
        fun buf =>
          if strncmp buf vectorNotAssigned 19 = 0 then next
          else withListLock (fun r => reduceRefCount r buf) fun _ => next

def ioctlSetSections (current : Pid) (param : IoctlParam) (env : Env) : Sections :=
  if env.vectorName = 0 then .ret (failWith (errno ENOMEM))
  else if isErr env.vectorName then .ret (failWith (ptrErr env.vectorName).toInt64)
  else
    pinModule .ioctlModule <|
      if !env.copyFromUser then putAndReturn (failWith (errno EINVAL))
      else
        withListLock (fun r => getVectorAddress r (copyVectorName param.userVectorName))
          fun vectorAddress =>
            if vectorAddress = 0 then putAndReturn (failWith (errno EINVAL))
            else
              ifAssignedReduceSections current env <|
                writing (fun s => s.setVectorInfo current 0) <|
                  writing (fun s => s.setVectorInfo current vectorAddress) <|
                    putAndReturn (failWith 0)

def ioctlRemoveSections (current : Pid) (param : IoctlParam) (env : Env) : Sections :=
  if env.vectorName = 0 then .ret (failWith (errno ENOMEM))
  else if isErr env.vectorName then .ret (failWith (ptrErr env.vectorName).toInt64)
  else
    pinModule .ioctlModule <|
      if !env.copyFromUser then putAndReturn (failWith (errno EINVAL))
      else
        withListLock (fun r => reduceRefCount r (copyVectorName param.userVectorName)) fun err =>
          if err < 0 then putAndReturn (failWith (errno EINVAL))
          else
            writing (fun s => s.setVectorInfo current 0) <| putAndReturn (failWith err.toInt64)

def copyOutSections (buf : List UInt8) (env : Env) : Sections :=
  if !env.copyToUser then putAndReturn (failWith (errno EFAULT))
  else putAndReturn (.ok (0, some (buf.take bufLen)))

def ioctlShowAllSections (env : Env) : Sections :=
  pinModule .ioctlModule <|
    reading (fun s => showAllVectors s.registry (zeroed bufLen)) fun shown =>
      copyOutSections (if shown.2 = 0 then memcpyAt shown.1 0 noVectorsPresent else shown.1) env

def ioctlShowMineSections (current : Pid) (env : Env) : Sections :=
  pinModule .ioctlModule <|
    reading (fun s => s.vectorInfo current) fun info =>
      reading (fun s => (showMyVector s.registry (zeroed bufLen) info).1) fun buf =>
        copyOutSections buf env

/-- `pid_task` and the read of `syscall_vector_info` through what it returns are one section. So
a task that ends between the two, whose `task_struct` the call would still read, does not show. -/
def ioctlVectorForPidSections (param : IoctlParam) (env : Env) : Sections :=
  pinModule .ioctlModule <|
    if env.pidBuf = 0 then .ret (.error .nullPointer)
    else if !env.copyFromUser then putAndReturn (failWith (errno EINVAL))
    else
      reading (fun s => (findVpid param.userPidBuf.pid).bind s.tasks) fun found =>
        match found with
        | none => .ret (.error .nullPointer)
        | some info =>
          reading (fun s => (showMyVector s.registry (zeroed bufLen) info).1) fun buf =>
            copyOutSections buf env

/-- The label `out`. -/
def undoSections (ret : UInt64) (next : Int32 → Sections) : Sections :=
  onChains (fun b => (deleteVector b.heap b.listHead).map fun heap => (⟨heap, 0⟩, ()))
    fun _ => next (toInt32 ret)

/-- Register the chain that was built and give it to the caller. -/
def installSections (current : Pid) (bitmap : UInt32) (name : List UInt8) (va : Address)
    (next : Int32 → Sections) : Sections :=
  pinModule .dynamicVector <|
    reading (fun s => s.listHead .dynamicVector) fun head =>
      withListLock (fun r => registerDynamicSyscall r va name head .dynamicVector bitmap) fun _ =>
        writing (fun s => s.setVectorInfo current head) <|
          writing (fun s => { s with listHeads := s.listHeads ++ [head] }) <|
            writing (fun s => s.setListHead .dynamicVector 0) <| next (toInt32 head)

/-- `add_vector_from_bitmap`. -/
def addVectorSections (current : Pid) (bitmap : UInt32) (env : Env) (next : Int32 → Sections) :
    Sections :=
  withListLock (fun r => checkAnyCurrentVector r bitmap) fun ret =>
    if ret ≠ 0 then
      writing (fun s => s.setVectorInfo current ret) <|
        writing (fun s => s.setListHead .dynamicVector 0) <| next (toInt32 ret)
    else if env.temp = 0 then
      writing (fun s => s.setListHead .dynamicVector 0) <| next (toInt32 ret)
    else if env.vectorPrefix = 0 then undoSections ret next
    else
      onChains (fun b => addBranches bitmap env.node 0 vectorBranches b ret) fun built =>
        if built.2 then undoSections built.1 next
        else installSections current bitmap (vectorPrefix ++ sprintfD bitmap) env.va next

def ioctlCreateSections (current : Pid) (param : IoctlParam) (env : Env) : Sections :=
  pinModule .ioctlModule <|
    if env.kernelBitmap = 0 then .ret (.error .nullPointer)
    else if !env.copyFromUser then putAndReturn (failWith (errno EINVAL))
    else if validateBitmap param.userBitmap ≠ 0 then
      putAndReturn (failWith (validateBitmap param.userBitmap).toInt64)
    else
      addVectorSections current param.userBitmap env fun err => putAndReturn (failWith err.toInt64)

def customIoctlSections (current : Pid) (ioctlRequest : UInt32) (param : IoctlParam) (env : Env) :
    Sections :=
  if env.buf = 0 then .ret (failWith (errno ENOMEM))
  else if ioctlRequest = IOCTL_SET then ioctlSetSections current param env
  else if ioctlRequest = IOCTL_REMOVE then ioctlRemoveSections current param env
  else if ioctlRequest = IOCTL_SHOW_ALL then ioctlShowAllSections env
  else if ioctlRequest = IOCTL_SHOW_MINE then ioctlShowMineSections current env
  else if ioctlRequest = IOCTL_VECTOR_FOR_PID then ioctlVectorForPidSections param env
  else if ioctlRequest = IOCTL_CREATE_FROM_BITMAP then ioctlCreateSections current param env
  else .ret (failWith (errno EINVAL))

/-! ## The others -/

/-- The events that do not need `mutexlock` and are not of this task. Of the exported functions
they have the six that take or drop a reference, not those that register and unregister.
Loading and unloading a module are none of them. -/
def SessionOp.byOthers (current : Pid) : SessionOp → Bool
  | .system (.copyProcess parent _ _) => parent != current
  | .system (.exit task) => task != current
  | .system (.call _) => true
  | .clone parent _ _ _ => parent != current
  | .forkFails parent _ _ _ _ _ => parent != current
  | _ => false

/-- What happens between the sections of a call by `current`. -/
def othersStep (current : Pid) (s : State) (op : SessionOp) : Option State :=
  if op.byOthers current then sessionStep s op else none

/-- The outcome of a call and its state, in the form of `custom_ioctl`. -/
def ioctlOutcome (x : State × Returned) : Except Fault IoctlResult :=
  x.2.map fun r => ⟨x.1, r.1, r.2⟩

/-- An ioctl call with its arguments. -/
structure IoctlCall where
  current : Pid
  request : UInt32
  param : IoctlParam
  env : Env

abbrev IoctlCall.op (c : IoctlCall) : SessionOp :=
  .system (.ioctl c.current c.request c.param c.env)

abbrev IoctlCall.sections (c : IoctlCall) : Sections :=
  customIoctlSections c.current c.request c.param c.env

/-- The call can be made, and its allocations obey the contract of `kmalloc`. -/
structure IoctlCall.Can (c : IoctlCall) (s : State) : Prop where
  live : (s.tasks c.current).isSome = true
  loaded : c.request = IOCTL_CREATE_FROM_BITMAP → s.loaded .dynamicVector = true
  fresh : FreshNodes s.heap c.env.node

/-- The system with every ioctl call in sections, under `mutexlock`. -/
def sectionedStep :
    State × Option (IoctlCall × Sections) → Move SessionOp IoctlCall →
      Option (State × Option (IoctlCall × Sections)) :=
  lockedStep (fun c => customIoctlSections c.current c.request c.param c.env)
    (fun c => othersStep c.current)
    (fun s op =>
      match op with
      | .system (.ioctl _ _ _ _) => none
      | op => sessionStep s op)
    fun r => r.isOk

end SyscallVector.Model
