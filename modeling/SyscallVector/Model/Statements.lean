import SyscallVector.Lib.CriticalSections
import SyscallVector.Model.Sections

/-!
# Statements and locks

The functions of vec_load_unload.c that hold `list_lock`, statement by statement: the search
goes from entry to entry, and `refcount` is read before it is written. The functions that call
them are code in which each such call takes `list_lock`; `custom_ioctl` holds `mutexlock` as
well. Forks, exits, `sys_clone2`, the exported functions and the init and exit functions of the
modules take no other lock. `show_all_vectors` and `show_my_vector` take none at all. Each is one
statement here, and so is what a module does to the nodes of its own chains. A walk of the list
beside an unload or an `unregister_syscall`, which could meet an entry that is freed, is
therefore not described; beside all other events (`KeepingOp`) no entry goes.
-/
namespace SyscallVector.Model

set_option autoImplicit false

open Lib

/-! ## The functions that hold `list_lock` -/

/-- A change of the list under `vec_list_head`. -/
def State.mapVecList (f : List StructVector → List StructVector) (s : State) : State :=
  { s with registry := { s.registry with vecList := f s.registry.vecList } }

/-- `try_module_get` and `module_put`, which are atomic. -/
def State.countModule (m : Module) (d : Int) (s : State) : State :=
  { s with
    registry := { s.registry with
      moduleRefs := Function.update s.registry.moduleRefs m (s.registry.moduleRefs m + d) } }

/-- `list_for_each_entry` from the entry at `i` on, which breaks at an entry that `stop` accepts.
At most `n` entries are left. -/
def listForEachEntry {β : Type} (stop : StructVector → Bool) (found : Nat → Prog State β)
    (missing : Prog State β) : Nat → Nat → Prog State β
  | 0, _ => missing
  | n + 1, i =>
    .act id fun s =>
      match s.registry.vecList[i]? with
      | none => missing
      | some datastructureptr =>
        if stop datastructureptr then found i else listForEachEntry stop found missing n (i + 1)

/-- The loop over all entries. `list_lock` keeps their number. -/
def searchEntries {β : Type} (stop : StructVector → Bool) (found : Nat → Prog State β)
    (missing : Prog State β) : Prog State β :=
  .act id fun s => listForEachEntry stop found missing s.registry.vecList.length 0

/-- Read a field of the entry at `i`. -/
def fetchEntry {β γ : Type} (i : Nat) (field : StructVector → γ) (other : γ)
    (next : γ → Prog State β) : Prog State β :=
  .act id fun s => next ((s.registry.vecList[i]?).elim other field)

/-- `datastructureptr->refcount = datastructureptr->refcount + d`. -/
def addToRefcount {β : Type} (i : Nat) (d : Int) (next : Prog State β) : Prog State β :=
  fetchEntry i StructVector.refcount 0 fun count =>
    .act (State.mapVecList fun vs => vs.modify i fun v =>
      { v with refcount := count + Int32.ofInt d }) fun _ => next

/-- `try_module_get(datastructureptr->vector_module)` or `module_put` of it. -/
def countEntryModule {β : Type} (i : Nat) (d : Int) (next : Prog State β) : Prog State β :=
  fetchEntry i StructVector.vectorModule .ioctlModule fun m =>
    .act (State.countModule m d) fun _ => next

def acquireStatements (k : Key) : Prog State Address :=
  searchEntries k.isMatch
    (fun i =>
      addToRefcount i 1 <|
        countEntryModule i 1 <|
          fetchEntry i StructVector.overriddenSyscallsAddress 0 fun va => .ret va)
    (.ret 0)

def releaseStatements (k : Key) : Prog State Int32 :=
  searchEntries k.isMatch
    (fun i =>
      addToRefcount i (-1) <|
        fetchEntry i StructVector.refcount (-1) fun refCnt =>
          countEntryModule i (-1) <| .ret refCnt)
    (.ret (-1))

def checkAnyCurrentVectorStatements (vecBitmap : UInt32) : Prog State Address :=
  acquireStatements (.bitmap vecBitmap)

def getVectorAddressStatements (vectorName : List UInt8) : Prog State Address :=
  acquireStatements (.name vectorName)

def getVectorAddressFromIdStatements (bitmap : UInt32) : Prog State Address :=
  acquireStatements (.bitmap bitmap)

def reduceRefCountStatements (vectorName : List UInt8) : Prog State Int32 :=
  releaseStatements (.name vectorName)

def reduceRefCountFromAddressStatements (vectorAddress : Address) : Prog State Int32 :=
  releaseStatements (.address vectorAddress)

def incrementRefCountFromAddressStatements (vectorAddress : Address) : Prog State Int32 :=
  searchEntries (Key.address vectorAddress).isMatch
    (fun i => addToRefcount i 1 <| countEntryModule i 1 <| .ret 0)
    (.ret (-1))

/-- `add_vector_address` and `add_dynamic_vector_address`; nobody else knows the entry before
`list_add`. -/
def addVectorStatements (va : Address) (v : StructVector) : Prog State Int32 :=
  if va = 0 then .ret (-ENOMEM)
  else if isErr va then .ret (ptrErr va)
  else .act (State.mapVecList (v :: ·)) fun _ => .ret 0

def registerSyscallStatements (va : Address) (vectorName : List UInt8) (vectorAddress : Address)
    (vectorModule : Module) (vecBitmap : UInt32) : Prog State Int32 :=
  addVectorStatements va (newVector vectorName vectorAddress 0 vectorModule vecBitmap)

def registerDynamicSyscallStatements (va : Address) (vectorName : List UInt8)
    (vectorAddress : Address) (vectorModule : Module) (vecBitmap : UInt32) : Prog State Int32 :=
  addVectorStatements va (newVector vectorName vectorAddress 1 vectorModule vecBitmap)

def unregisterSyscallStatements (vectorAddress : Address) : Prog State Int32 :=
  searchEntries (addressIs vectorAddress)
    (fun i =>
      fetchEntry i StructVector.refcount 0 fun count =>
        if count > 0 then .ret (-2222)
        else .act (State.mapVecList (·.eraseIdx i)) fun _ => .ret 0)
    (.ret (-EFAULT))

/-! ## Statements without `list_lock` -/

abbrev Statements := Code State Returned

def fetch {β : Type} (f : State → β) (next : β → Statements) : Statements :=
  .act id fun s => next (f s)

def store (f : State → State) (next : Statements) : Statements := .act f fun _ => next

def tryGetModule (m : Module) (next : Statements) : Statements :=
  store (fun s => { s with registry := s.registry.tryModuleGet m }) next

/-- `module_put(THIS_MODULE)` and the end of an ioctl call. -/
def putThisModule (result : Returned) : Statements :=
  store (fun s => { s with registry := s.registry.modulePut .ioctlModule }) (.ret result)

/-- The nodes and the `listHead` of a module after statements on them. -/
def builtAfter {β : Type} (m : Module) (f : Builder → Except Fault (Builder × β)) (s : State) :
    State :=
  match f ⟨s.heap, s.listHead m⟩ with
  | .error _ => s
  | .ok (b, _) => { s with heap := b.heap }.setListHead m b.listHead

def builtThen {β : Type} (m : Module) (f : Builder → Except Fault (Builder × β))
    (next : β → Statements) (s : State) : Statements :=
  match f ⟨s.heap, s.listHead m⟩ with
  | .error fault => .ret (.error fault)
  | .ok (_, x) => next x

/-- Statements of a module on the nodes of its chains. -/
def building {β : Type} (m : Module) (f : Builder → Except Fault (Builder × β))
    (next : β → Statements) : Statements :=
  .act (builtAfter m f) (builtThen m f next)

/-- `delete_vector(listHead)`; the head is NULL afterwards. -/
def deleteOwn (b : Builder) : Except Fault (Builder × Unit) :=
  (deleteVector b.heap b.listHead).map fun heap => (⟨heap, 0⟩, ())

def done (ret : Int64) : Statements := .ret (.ok (ret, none))

/-! ## `custom_ioctl` -/

def ifAssignedReduceStatements (current : Pid) (env : Env) (next : Statements) : Statements :=
  fetch (fun s => s.vectorInfo current) fun info =>
    if info = 0 then next
    else if env.reduceBuf = 0 then next
    else
      fetch (fun s => (showMyVector s.registry (zeroed bufLen) (s.vectorInfo current)).1)
        fun buf =>
          if strncmp buf vectorNotAssigned 19 = 0 then next
          else .critical (reduceRefCountStatements buf) fun _ => next

def ioctlSetStatements (current : Pid) (param : IoctlParam) (env : Env) : Statements :=
  if env.vectorName = 0 then .ret (failWith (errno ENOMEM))
  else if isErr env.vectorName then .ret (failWith (ptrErr env.vectorName).toInt64)
  else
    tryGetModule .ioctlModule <|
      if !env.copyFromUser then putThisModule (failWith (errno EINVAL))
      else
        .critical (getVectorAddressStatements (copyVectorName param.userVectorName))
          fun vectorAddress =>
            if vectorAddress = 0 then putThisModule (failWith (errno EINVAL))
            else
              ifAssignedReduceStatements current env <|
                store (fun s => s.setVectorInfo current 0) <|
                  store (fun s => s.setVectorInfo current vectorAddress) <|
                    putThisModule (failWith 0)

def ioctlRemoveStatements (current : Pid) (param : IoctlParam) (env : Env) : Statements :=
  if env.vectorName = 0 then .ret (failWith (errno ENOMEM))
  else if isErr env.vectorName then .ret (failWith (ptrErr env.vectorName).toInt64)
  else
    tryGetModule .ioctlModule <|
      if !env.copyFromUser then putThisModule (failWith (errno EINVAL))
      else
        .critical (reduceRefCountStatements (copyVectorName param.userVectorName)) fun err =>
          if err < 0 then putThisModule (failWith (errno EINVAL))
          else
            store (fun s => s.setVectorInfo current 0) <| putThisModule (failWith err.toInt64)

def copyOutStatements (buf : List UInt8) (env : Env) : Statements :=
  if !env.copyToUser then putThisModule (failWith (errno EFAULT))
  else putThisModule (.ok (0, some (buf.take bufLen)))

def ioctlShowAllStatements (env : Env) : Statements :=
  tryGetModule .ioctlModule <|
    fetch (fun s => showAllVectors s.registry (zeroed bufLen)) fun shown =>
      copyOutStatements (if shown.2 = 0 then memcpyAt shown.1 0 noVectorsPresent else shown.1) env

def ioctlShowMineStatements (current : Pid) (env : Env) : Statements :=
  tryGetModule .ioctlModule <|
    fetch (fun s => s.vectorInfo current) fun info =>
      fetch (fun s => (showMyVector s.registry (zeroed bufLen) info).1) fun buf =>
        copyOutStatements buf env

/-- `pid_task` and the read through what it returns are one statement; a task that ends between
the two does not show. -/
def ioctlVectorForPidStatements (param : IoctlParam) (env : Env) : Statements :=
  tryGetModule .ioctlModule <|
    if env.pidBuf = 0 then .ret (.error .nullPointer)
    else if !env.copyFromUser then putThisModule (failWith (errno EINVAL))
    else
      fetch (fun s => (findVpid param.userPidBuf.pid).bind s.tasks) fun found =>
        match found with
        | none => .ret (.error .nullPointer)
        | some info =>
          fetch (fun s => (showMyVector s.registry (zeroed bufLen) info).1) fun buf =>
            copyOutStatements buf env

def undoStatements (ret : UInt64) (next : Int32 → Statements) : Statements :=
  building .dynamicVector deleteOwn fun _ => next (toInt32 ret)

def installStatements (current : Pid) (bitmap : UInt32) (name : List UInt8) (va : Address)
    (next : Int32 → Statements) : Statements :=
  tryGetModule .dynamicVector <|
    fetch (fun s => s.listHead .dynamicVector) fun head =>
      .critical (registerDynamicSyscallStatements va name head .dynamicVector bitmap) fun _ =>
        store (fun s => s.setVectorInfo current head) <|
          store (fun s => { s with listHeads := s.listHeads ++ [head] }) <|
            store (fun s => s.setListHead .dynamicVector 0) <| next (toInt32 head)

def addVectorFromBitmapStatements (current : Pid) (bitmap : UInt32) (env : Env)
    (next : Int32 → Statements) : Statements :=
  .critical (checkAnyCurrentVectorStatements bitmap) fun ret =>
    if ret ≠ 0 then
      store (fun s => s.setVectorInfo current ret) <|
        store (fun s => s.setListHead .dynamicVector 0) <| next (toInt32 ret)
    else if env.temp = 0 then
      store (fun s => s.setListHead .dynamicVector 0) <| next (toInt32 ret)
    else if env.vectorPrefix = 0 then undoStatements ret next
    else
      building .dynamicVector (fun b => addBranches bitmap env.node 0 vectorBranches b ret)
        fun built =>
          if built.2 then undoStatements built.1 next
          else installStatements current bitmap (vectorPrefix ++ sprintfD bitmap) env.va next

def ioctlCreateStatements (current : Pid) (param : IoctlParam) (env : Env) : Statements :=
  tryGetModule .ioctlModule <|
    if env.kernelBitmap = 0 then .ret (.error .nullPointer)
    else if !env.copyFromUser then putThisModule (failWith (errno EINVAL))
    else if validateBitmap param.userBitmap ≠ 0 then
      putThisModule (failWith (validateBitmap param.userBitmap).toInt64)
    else
      addVectorFromBitmapStatements current param.userBitmap env fun err =>
        putThisModule (failWith err.toInt64)

/-- `custom_ioctl` between `mutex_lock` and `mutex_unlock`. -/
def customIoctlStatements (current : Pid) (ioctlRequest : UInt32) (param : IoctlParam)
    (env : Env) : Statements :=
  if env.buf = 0 then .ret (failWith (errno ENOMEM))
  else if ioctlRequest = IOCTL_SET then ioctlSetStatements current param env
  else if ioctlRequest = IOCTL_REMOVE then ioctlRemoveStatements current param env
  else if ioctlRequest = IOCTL_SHOW_ALL then ioctlShowAllStatements env
  else if ioctlRequest = IOCTL_SHOW_MINE then ioctlShowMineStatements current env
  else if ioctlRequest = IOCTL_VECTOR_FOR_PID then ioctlVectorForPidStatements param env
  else if ioctlRequest = IOCTL_CREATE_FROM_BITMAP then ioctlCreateStatements current param env
  else .ret (failWith (errno EINVAL))

/-! ## The others -/

def Call.statements : Call → Statements
  | .getVectorAddress n => .critical (getVectorAddressStatements n) fun va => done va.toInt64
  | .getVectorAddressFromId b =>
    .critical (getVectorAddressFromIdStatements b) fun va => done va.toInt64
  | .checkAnyCurrentVector b =>
    .critical (checkAnyCurrentVectorStatements b) fun ret => done ret.toInt64
  | .incrementRefCountFromAddress a =>
    .critical (incrementRefCountFromAddressStatements a) fun ret => done ret.toInt64
  | .reduceRefCount n => .critical (reduceRefCountStatements n) fun refCnt => done refCnt.toInt64
  | .reduceRefCountFromAddress a =>
    .critical (reduceRefCountFromAddressStatements a) fun refCnt => done refCnt.toInt64

/-- The `CLONE_SYSCALLS` block of `copy_process`, and the child that comes to be. -/
def copyProcessStatements (current child : Pid) (cloneFlags : UInt64) (next : Statements) :
    Statements :=
  if cloneFlags &&& CLONE_SYSCALLS ≠ 0 then
    fetch (fun s => s.vectorInfo current) fun info =>
      .critical (incrementRefCountFromAddressStatements info) fun _ =>
        fetch (fun s => s.vectorInfo current) fun info =>
          store (fun s => { s with tasks := Function.update s.tasks child (some info) }) next
  else store (fun s => { s with tasks := Function.update s.tasks child (some 0) }) next

def copyProcessFailsStatements (current : Pid) (cloneFlags : UInt64) (failed : ForkStep)
    (err : Int64) : Statements :=
  if cloneFlags &&& CLONE_SYSCALLS ≠ 0 then
    fetch (fun s => s.vectorInfo current) fun info =>
      .critical (incrementRefCountFromAddressStatements info) fun _ => done (failed.retval err)
  else done (failed.retval err)

def exitTaskStatements (current : Pid) : Statements :=
  fetch (fun s => s.vectorInfo current) fun info =>
    let gone := store (fun s => { s with tasks := Function.update s.tasks current none }) (done 0)
    if info = 0 then gone
    else .critical (reduceRefCountFromAddressStatements info) fun _ => gone

def doForkStatements (current : Pid) (cloneFlags : UInt64) (vectorAddress : Address) :
    ForkResult → Statements
  | .failed err => done err
  | .child pid =>
    if cloneFlags &&& CLONE_SYSCALLS ≠ 0 then
      copyProcessStatements current pid cloneFlags (done (Int64.ofNat pid.1.val))
    else
      let info := if vectorAddress = -1 then 0 else vectorAddress
      store (fun s => { s with tasks := Function.update s.tasks pid (some info) })
        (done (Int64.ofNat pid.1.val))

def sysClone2Statements (current : Pid) (flags id : UInt64) (fork : ForkResult) : Statements :=
  if flags &&& CLONE_SYSCALLS ≠ 0 then
    fetch (fun s => s.vectorInfo current) fun info =>
      .critical (incrementRefCountFromAddressStatements info) fun ret =>
        if ret < 0 then done (-1) else doForkStatements current flags 0 fork
  else
    .critical (getVectorAddressFromIdStatements id.toUInt32) fun addr =>
      doForkStatements current flags (if addr = 0 then -1 else addr) fork

/-- `initVector`, and the kernel's decision whether the module is loaded. -/
def initVectorStatements (m : Module) (vectorName : List UInt8)
    (syscalls : List (SyscallNr × Handler)) (bitmap : UInt32) (kmalloc : Nat → Address)
    (va : Address) : Statements :=
  let finished (ret : Int32) : Statements :=
    store (fun s => { s with loaded := Function.update s.loaded m (decide (0 ≤ ret)) })
      (done ret.toInt64)
  store (fun s => s.setListHead m 0) <|
    building m (fun b => addSyscalls kmalloc 0 syscalls b) fun ret =>
      if ret < 0 then building m deleteOwn fun _ => finished ret
      else
        fetch (fun s => s.listHead m) fun head =>
          .critical (registerSyscallStatements va vectorName head m bitmap) finished

def cleanupVectorStatements (m : Module) (next : Statements) : Statements :=
  fetch (fun s => s.listHead m) fun head =>
    .critical (unregisterSyscallStatements head) fun _ => building m deleteOwn fun _ => next

/-- `delete_vector` on one of the entries of `list_heads`. -/
def deleteHead (head : Address) (next : Statements) : Statements :=
  .act (fun s => (deleteVector s.heap head).toOption.elim s fun heap => { s with heap := heap })
    fun s =>
      match deleteVector s.heap head with
      | .error fault => .ret (.error fault)
      | .ok _ => next

def cleanupHeadsStatements (next : Statements) : List Address → Statements
  | [] => next
  | head :: heads =>
    .critical (unregisterSyscallStatements head) fun _ =>
      deleteHead head (cleanupHeadsStatements next heads)

/-- The init function of a module. -/
def loadStatements (kmalloc : Nat → Address) (va : Address) : Module → Statements
  | .vector1 => initVectorStatements .vector1 vector1Name vector1Syscalls vector1Bitmap kmalloc va
  | .vector2 => initVectorStatements .vector2 vector2Name vector2Syscalls vector2Bitmap kmalloc va
  | .dynamicVector => store insmodDynamicVector (done 0)
  | .ioctlModule => done 0

/-- The exit function of a module, which the kernel calls when its count is zero. -/
def unloadStatements (m : Module) : Statements :=
  let unloaded := store (fun s => { s with loaded := Function.update s.loaded m false }) (done 0)
  match m with
  | .ioctlModule => done 0
  | .dynamicVector =>
    fetch State.listHeads fun heads =>
      cleanupHeadsStatements (store (fun s => { s with listHeads := [] }) unloaded) heads
  | m => cleanupVectorStatements m unloaded

def SessionOp.statements : SessionOp → Statements
  | .system (.ioctl current request param env) => customIoctlStatements current request param env
  | .system (.copyProcess current child flags) =>
    copyProcessStatements current child flags (done 0)
  | .system (.exit current) => exitTaskStatements current
  | .system (.call c) => c.statements
  | .system (.unregister a) => .critical (unregisterSyscallStatements a) fun ret => done ret.toInt64
  | .system (.rmmod m) => unloadStatements m
  | .insmod m kmalloc va => loadStatements kmalloc va m
  | .clone current flags id fork => sysClone2Statements current flags id fork
  | .forkFails current flags _ _ failed err => copyProcessFailsStatements current flags failed err

/-- The event may take an entry out of the list and free it. -/
def SessionOp.removesEntries : SessionOp → Bool
  | .system (.unregister _) => true
  | .system (.rmmod _) => true
  | _ => false

/-- The events that leave every entry in the list. Beside them a walk without `list_lock` sees
the list as it was when it began, since `list_add` changes no entry in it but the first, and of
that one only the pointer back. -/
abbrev KeepingOp := { op : SessionOp // op.removesEntries = false }

/-! ## Threads -/

/-- The two mutexes; `list_lock` is taken inside `mutexlock`. -/
inductive Lock where
  | mutexlock | listLock
  deriving DecidableEq, Repr

def Lock.rank : Lock → Nat
  | .mutexlock => 0
  | .listLock => 1

/-- The label `out` of `custom_ioctl`. A call that faults does not come to it. -/
def unlockMutexlock (result : Returned) : Thread Lock State Returned :=
  match result with
  | .error _ => .ret result
  | .ok _ => .unlock .mutexlock (.ret result)

def SessionOp.takesMutexlock : SessionOp → Bool
  | .system (.ioctl ..) => true
  | _ => false

/-- The thread that runs an event. -/
def SessionOp.thread (op : SessionOp) : Thread Lock State Returned :=
  if op.takesMutexlock then .lock .mutexlock (op.statements.thread .listLock unlockMutexlock)
  else op.statements.thread .listLock .ret

/-- The same thread with every function that holds `list_lock` as one statement. -/
def SessionOp.sectionsThread (op : SessionOp) : Thread Lock State Returned :=
  if op.takesMutexlock then .lock .mutexlock (op.statements.sections.thread unlockMutexlock)
  else op.statements.sections.thread .ret

/-- Events at once, each in a thread of its own, on the given state. -/
def concurrently {τ : Type} (ops : τ → SessionOp) (s : State) : Machine τ Lock State Returned :=
  .start s fun t => (ops t).thread

def concurrentSections {τ : Type} (ops : τ → SessionOp) (s : State) :
    Machine τ Lock State Returned :=
  .start s fun t => (ops t).sectionsThread

end SyscallVector.Model
