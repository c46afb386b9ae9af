import SyscallVector.Model.System

/-!
# What an ioctl call allocates and stores

The buffers that `custom_ioctl` and the functions it calls allocate and free, and the
entries of `list_heads` that they write, branch by branch as in the calls themselves. The
chain nodes of a call are in the heap of its state.
-/
namespace SyscallVector.Model

set_option autoImplicit false

/-! ## Buffers -/

/-- `buf` of `if_assigned_reduce`, which every path behind its allocation frees. -/
def ifAssignedReduceBuffers (s : State) (current : Pid) (env : Env) : StringUse :=
  if s.vectorInfo current = 0 then ⟨[], []⟩
  else if env.reduceBuf = 0 then ⟨[], []⟩
  else ⟨[env.reduceBuf], [env.reduceBuf]⟩

/-- The buffers allocated before the label `free_vector_name` and those that it frees,
around what the functions called in between use. -/
def freeVectorName (buffers : List Address) (inner : StringUse) : StringUse :=
  ⟨buffers ++ inner.allocated, inner.freed ++ buffers⟩

def ioctlSetBuffers (s : State) (current : Pid) (param : IoctlParam) (env : Env) : StringUse :=
  -- both jumps to `out` leave `buf` behind
  if env.vectorName = 0 then ⟨[env.buf], []⟩
  else if isErr env.vectorName then ⟨[env.buf], []⟩
  else if !env.copyFromUser then freeVectorName [env.buf, env.vectorName] ⟨[], []⟩
  else
    let (registry, vectorAddress) := getVectorAddress
      (s.registry.tryModuleGet .ioctlModule) (copyVectorName param.userVectorName)
    if vectorAddress = 0 then freeVectorName [env.buf, env.vectorName] ⟨[], []⟩
    else freeVectorName [env.buf, env.vectorName]
      (ifAssignedReduceBuffers { s with registry := registry } current env)

def ioctlRemoveBuffers (env : Env) : StringUse :=
  if env.vectorName = 0 then ⟨[env.buf], []⟩
  else if isErr env.vectorName then ⟨[env.buf], []⟩
  else freeVectorName [env.buf, env.vectorName] ⟨[], []⟩

def ioctlCreateBuffers (s : State) (param : IoctlParam) (env : Env) : StringUse :=
  let s := { s with registry := s.registry.tryModuleGet .ioctlModule }
  if !env.copyFromUser then freeVectorName [env.buf, env.kernelBitmap] ⟨[], []⟩
  else if validateBitmap param.userBitmap ≠ 0 then
    freeVectorName [env.buf, env.kernelBitmap] ⟨[], []⟩
  else freeVectorName [env.buf, env.kernelBitmap] (addVectorStrings s param.userBitmap env)

/-- The buffers of a call of `custom_ioctl` that returns. -/
def customIoctlBuffers (s : State) (current : Pid) (ioctlRequest : UInt32) (param : IoctlParam)
    (env : Env) : StringUse :=
  if env.buf = 0 then ⟨[], []⟩
  else if ioctlRequest = IOCTL_SET then ioctlSetBuffers s current param env
  else if ioctlRequest = IOCTL_REMOVE then ioctlRemoveBuffers env
  else if ioctlRequest = IOCTL_VECTOR_FOR_PID then freeVectorName [env.buf, env.pidBuf] ⟨[], []⟩
  else if ioctlRequest = IOCTL_CREATE_FROM_BITMAP then ioctlCreateBuffers s param env
  else freeVectorName [env.buf] ⟨[], []⟩

/-! ## Entries of `list_heads` -/

/-- The indices of the entries of `list_heads` that `add_vector_from_bitmap` writes; `i` is
the number of entries so far. -/
def addVectorStores (s : State) (bitmap : UInt32) (env : Env) : List Nat :=
  let (_, ret) := checkAnyCurrentVector s.registry bitmap
  if ret ≠ 0 then []
  else if env.temp = 0 then []
  else if env.vectorPrefix = 0 then []
  else
    match addBranches bitmap env.node 0 vectorBranches ⟨s.heap, s.listHead .dynamicVector⟩ ret with
    | .ok (_, _, false) => [s.listHeads.length]
    | _ => []

def customIoctlStores (s : State) (ioctlRequest : UInt32) (param : IoctlParam) (env : Env) :
    List Nat :=
  if env.buf = 0 then []
  else if ioctlRequest = IOCTL_CREATE_FROM_BITMAP then
    if env.kernelBitmap = 0 then []
    else if !env.copyFromUser then []
    else if validateBitmap param.userBitmap ≠ 0 then []
    else addVectorStores { s with registry := s.registry.tryModuleGet .ioctlModule }
      param.userBitmap env
  else []

def Op.stores (s : State) : Op → List Nat
  | .ioctl _ request param env => customIoctlStores s request param env
  | _ => []

end SyscallVector.Model
