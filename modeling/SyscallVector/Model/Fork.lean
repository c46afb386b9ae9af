import SyscallVector.Model.System

/-!
# Forks that fail

The exits of `copy_process` in fork.cpy after `dup_task_struct`: each step that can
fail jumps to a label, and the labels fall through to the next one down to
`bad_fork_free`. The `CLONE_SYSCALLS` block comes before all of these steps.
-/
namespace SyscallVector.Model

set_option autoImplicit false

def EAGAIN : Int64 := 11
def ERESTARTNOINTR : Int64 := 513

def CLONE_THREAD : UInt64 := 0x00010000

/-- What can fail after the `CLONE_SYSCALLS` block, in this order. -/
inductive ForkStep where
  | rlimitNproc | copyCreds | maxThreads | mpolDup | schedFork | perfEventInitTask | auditAlloc
  | copySemundo | copyFiles | copyFs | copySighand | copySignal | copyMm | copyNamespaces
  | copyIo | copyThreadTls | allocPid | cgroupCanFork | signalPending
  deriving DecidableEq, Repr

/-- The labels `bad_fork_*`. -/
inductive ForkLabel where
  | cancelCgroup | freePid | cleanupIo | cleanupNamespaces | cleanupMm | cleanupSignal
  | cleanupSighand | cleanupFs | cleanupFiles | cleanupSemundo | cleanupAudit | cleanupPerf
  | cleanupPolicy | cleanupThreadgroupLock | cleanupCount | free
  deriving DecidableEq, Repr

/-- The functions of the kernel that the labels call; each frees or puts something of the
child. -/
inductive KernelCall where
  | cgroupCancelFork | freePid | exitIoContext | exitTaskNamespaces | mmput | freeSignalStruct
  | cleanupSighand | exitFs | exitFiles | exitSem | auditFree | perfEventFreeTask | mpolPut
  | threadgroupChangeEnd | delayacctTskFree | decProcesses | exitCreds | freeTask
  deriving DecidableEq, Repr

/-- A statement at a label calls one of these, or could call a function of vec_load_unload.c. -/
inductive LabelCall where
  | kernel (function : KernelCall)
  | vector (call : Call)

/-- What the conditions at the labels read: `p->io_context`, `p->mm` and `CLONE_THREAD`. -/
structure ForkTask where
  ioContext : Bool
  mm : Bool
  thread : Bool
  deriving DecidableEq, Repr

def ForkStep.label : ForkStep → ForkLabel
  | .rlimitNproc => .free
  | .copyCreds => .free
  | .maxThreads => .cleanupCount
  | .mpolDup => .cleanupThreadgroupLock
  | .schedFork => .cleanupPolicy
  | .perfEventInitTask => .cleanupPolicy
  | .auditAlloc => .cleanupPerf
  | .copySemundo => .cleanupAudit
  | .copyFiles => .cleanupSemundo
  | .copyFs => .cleanupFiles
  | .copySighand => .cleanupFs
  | .copySignal => .cleanupSighand
  | .copyMm => .cleanupSignal
  | .copyNamespaces => .cleanupMm
  | .copyIo => .cleanupNamespaces
  | .copyThreadTls => .cleanupIo
  | .allocPid => .cleanupIo
  | .cgroupCanFork => .freePid
  | .signalPending => .cancelCgroup

/-- The statements at one label. -/
def ForkLabel.calls (p : ForkTask) : ForkLabel → List LabelCall
  | .cancelCgroup => [.kernel .cgroupCancelFork]
  | .freePid => [.kernel .freePid]
  | .cleanupIo => if p.ioContext then [.kernel .exitIoContext] else []
  | .cleanupNamespaces => [.kernel .exitTaskNamespaces]
  | .cleanupMm => if p.mm then [.kernel .mmput] else []
  | .cleanupSignal => if p.thread then [] else [.kernel .freeSignalStruct]
  | .cleanupSighand => [.kernel .cleanupSighand]
  | .cleanupFs => [.kernel .exitFs]
  | .cleanupFiles => [.kernel .exitFiles]
  | .cleanupSemundo => [.kernel .exitSem]
  | .cleanupAudit => [.kernel .auditFree]
  | .cleanupPerf => [.kernel .perfEventFreeTask]
  | .cleanupPolicy => [.kernel .mpolPut]
  | .cleanupThreadgroupLock => [.kernel .threadgroupChangeEnd, .kernel .delayacctTskFree]
  | .cleanupCount => [.kernel .decProcesses, .kernel .exitCreds]
  | .free => [.kernel .freeTask]

/-- The labels in the order of the source. -/
def forkLabels : List ForkLabel :=
  [.cancelCgroup, .freePid, .cleanupIo, .cleanupNamespaces, .cleanupMm, .cleanupSignal,
    .cleanupSighand, .cleanupFs, .cleanupFiles, .cleanupSemundo, .cleanupAudit, .cleanupPerf,
    .cleanupPolicy, .cleanupThreadgroupLock, .cleanupCount, .free]

/-- Control falls from a label through all that follow it. -/
def ForkLabel.unwind (p : ForkTask) (l : ForkLabel) : List LabelCall :=
  (forkLabels.dropWhile (· != l)).flatMap (ForkLabel.calls p)

/-- What a statement at a label does to the vectors. The kernel knows nothing of them. -/
def LabelCall.exec (r : Registry) : LabelCall → Registry
  | .kernel _ => r
  | .vector c => (c.exec r).1

/-- `retval` at the jump; `err` is what the function that fails returns. -/
def ForkStep.retval (err : Int64) : ForkStep → Int64
  | .rlimitNproc => -EAGAIN
  | .maxThreads => -EAGAIN
  | .signalPending => -ERESTARTNOINTR
  | _ => err

/-- What a failed `copy_process` leaves behind. -/
structure ForkFailure where
  state : State
  retval : Int64

/-- The `CLONE_SYSCALLS` block for a child that does not come to be. -/
def cloneSyscallsBlock (s : State) (current : Pid) (cloneFlags : UInt64) : State :=
  if cloneFlags &&& CLONE_SYSCALLS ≠ 0 then
    { s with registry := (incrementRefCountFromAddress s.registry (s.vectorInfo current)).1 }
  else s

def copyProcessFails (s : State) (current : Pid) (cloneFlags : UInt64) (ioContext mm : Bool)
    (failed : ForkStep) (err : Int64) : ForkFailure :=
  let before := cloneSyscallsBlock s current cloneFlags
  let calls := failed.label.unwind ⟨ioContext, mm, cloneFlags &&& CLONE_THREAD ≠ 0⟩
  { state := { before with registry := calls.foldl LabelCall.exec before.registry }
    retval := failed.retval err }

/-! ## What the labels undo -/

section
variable {p : ForkTask} {r : Registry}

theorem ForkLabel.calls_kernel (l : ForkLabel) : ∀ c ∈ l.calls p, ∃ f, c = .kernel f := by
  cases l with
  | cleanupIo | cleanupMm | cleanupSignal =>
    rw [calls]
    split <;> simp
  | _ => simp [calls]

theorem exec_kernel {cs : List LabelCall} (h : ∀ c ∈ cs, ∃ f, c = .kernel f) :
    cs.foldl LabelCall.exec r = r := by
  induction cs with
  | nil => rfl
  | cons c cs ih =>
    obtain ⟨f, rfl⟩ := h c List.mem_cons_self
    exact ih fun d hd => h d (List.mem_cons_of_mem _ hd)

/-- No label gives a reference back. -/
theorem exec_unwind (p : ForkTask) (l : ForkLabel) (r : Registry) :
    (l.unwind p).foldl LabelCall.exec r = r := by
  refine exec_kernel fun c hc => ?_
  obtain ⟨l', -, hmem⟩ := List.mem_flatMap.mp hc
  exact l'.calls_kernel c hmem

end

/-- Nothing is left of a failed `copy_process` but its `CLONE_SYSCALLS` block. -/
theorem copyProcessFails_state (s : State) (current : Pid) (cloneFlags : UInt64)
    (ioContext mm : Bool) (failed : ForkStep) (err : Int64) :
    (copyProcessFails s current cloneFlags ioContext mm failed err).state =
      cloneSyscallsBlock s current cloneFlags := by
  simp only [copyProcessFails, exec_unwind]

end SyscallVector.Model
