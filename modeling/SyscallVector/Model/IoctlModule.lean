import SyscallVector.Model.VectorModules

/-!
# The ioctl device

`custom_ioctl` of ioctl_module.c, one definition for each request. A call runs
under `mutexlock` from its first statement to its last, so it is one step. A call
that reads or writes through NULL does not return.
-/
namespace SyscallVector.Model

set_option autoImplicit false

open Lib

/-! ## Requests -/

/-- `_IOC(dir, IOC_MAGIC, nr, sizeof(void *))` with `IOC_MAGIC` 23. -/
def ioc (dir nr : UInt32) : UInt32 :=
  dir <<< 30 ||| (8 : UInt32) <<< 16 ||| (23 : UInt32) <<< 8 ||| nr

def IOCTL_SET : UInt32 := ioc 1 1
def IOCTL_REMOVE : UInt32 := ioc 1 2
def IOCTL_SHOW_ALL : UInt32 := ioc 2 3
def IOCTL_SHOW_MINE : UInt32 := ioc 2 4
def IOCTL_VECTOR_FOR_PID : UInt32 := ioc 2 5
def IOCTL_CREATE_FROM_BITMAP : UInt32 := ioc 1 6

/-- What a call leaves behind: the state, the result and the bytes copied to the user. -/
structure IoctlResult where
  state : State
  err : Int64
  copied : Option (List UInt8)

/-- An error number as the `long` that `custom_ioctl` returns. -/
def errno (e : Int32) : Int64 := (-e).toInt64

/-- A call that ends without a copy to the user. -/
def returns (s : State) (err : Int64) : Except Fault IoctlResult := .ok ⟨s, err, none⟩

/-! ## Helpers -/

/-- `if_assigned_reduce`: the text that `show_my_vector` renders for the caller's
vector is the name given to `reduce_ref_count`. `custom_ioctl` ignores the result. -/
def ifAssignedReduce (s : State) (current : Pid) (env : Env) : State × Int32 :=
  if s.vectorInfo current = 0 then (s, 0)
  else if env.reduceBuf = 0 then (s, -ENOMEM)
  else
    let buf := (showMyVector s.registry (zeroed bufLen) (s.vectorInfo current)).1
    if strncmp buf vectorNotAssigned 19 = 0 then (s, 0)
    else
      let (registry, err) := reduceRefCount s.registry buf
      ({ s with registry := registry }, if err < 0 then -EINVAL else err)

/-- `validate_bitmap`. -/
def validateBitmap (bitmap : UInt32) : Int32 :=
  if bitmap &&& WRITE_OVERRIDE ≠ 0 ∧ bitmap &&& WRITE_LOGGED ≠ 0 then -EINVAL
  else if bitmap &&& OPEN_OVERRIDE ≠ 0 ∧ bitmap &&& OPEN_BLOCKED ≠ 0 then -EINVAL
  else if bitmap > 1023 then -EINVAL
  else 0

/-- The kernel's copy of the name at `ioctl_param`; `vector_length` is an `unsigned int`. -/
def copyVectorName (userVectorName : List UInt8) : List UInt8 :=
  let vectorLength := UInt32.ofNat (strlen userVectorName)
  userVectorName.take vectorLength.toNat

/-- The task that `find_vpid` finds under a number. -/
def findVpid (pid : Int32) : Option Pid :=
  if h : 0 < pid.toInt then
    some ⟨⟨pid.toInt.toNat, by have := pid.toInt_lt; omega⟩, by
      change pid.toInt.toNat ≠ 0
      omega⟩
  else none

/-! ## The branches of the switch -/

def ioctlSet (s : State) (current : Pid) (param : IoctlParam) (env : Env) :
    Except Fault IoctlResult :=
  if env.vectorName = 0 then returns s (errno ENOMEM)
  else if isErr env.vectorName then returns s (ptrErr env.vectorName).toInt64
  else
    let s := { s with registry := s.registry.tryModuleGet .ioctlModule }
    if !env.copyFromUser then
      returns { s with registry := s.registry.modulePut .ioctlModule } (errno EINVAL)
    else
      let (registry, vectorAddress) :=
        getVectorAddress s.registry (copyVectorName param.userVectorName)
      let s := { s with registry := registry }
      if vectorAddress = 0 then
        returns { s with registry := s.registry.modulePut .ioctlModule } (errno EINVAL)
      else
        let s := (ifAssignedReduce s current env).1
        let s := (s.setVectorInfo current 0).setVectorInfo current vectorAddress
        returns { s with registry := s.registry.modulePut .ioctlModule } 0

def ioctlRemove (s : State) (current : Pid) (param : IoctlParam) (env : Env) :
    Except Fault IoctlResult :=
  if env.vectorName = 0 then returns s (errno ENOMEM)
  else if isErr env.vectorName then returns s (ptrErr env.vectorName).toInt64
  else
    let s := { s with registry := s.registry.tryModuleGet .ioctlModule }
    if !env.copyFromUser then
      returns { s with registry := s.registry.modulePut .ioctlModule } (errno EINVAL)
    else
      let (registry, err) := reduceRefCount s.registry (copyVectorName param.userVectorName)
      let s := { s with registry := registry }
      if err < 0 then
        returns { s with registry := s.registry.modulePut .ioctlModule } (errno EINVAL)
      else
        let s := s.setVectorInfo current 0
        returns { s with registry := s.registry.modulePut .ioctlModule } err.toInt64

/-- The end of the three requests that show vectors: copy `buf` out, then drop the module. -/
def copyOut (s : State) (buf : List UInt8) (env : Env) : Except Fault IoctlResult :=
  let s := { s with registry := s.registry.modulePut .ioctlModule }
  if !env.copyToUser then returns s (errno EFAULT)
  else .ok ⟨s, 0, some (buf.take bufLen)⟩

def noVectorsPresent : List UInt8 :=
  ascii ['n', 'o', ' ', 'v', 'e', 'c', 't', 'o', 'r', 's', ' ', 'p', 'r', 'e', 's', 'e', 'n', 't']

def ioctlShowAll (s : State) (env : Env) : Except Fault IoctlResult :=
  let s := { s with registry := s.registry.tryModuleGet .ioctlModule }
  let (buf, ret) := showAllVectors s.registry (zeroed bufLen)
  let buf := if ret = 0 then memcpyAt buf 0 noVectorsPresent else buf
  copyOut s buf env

def ioctlShowMine (s : State) (current : Pid) (env : Env) : Except Fault IoctlResult :=
  let s := { s with registry := s.registry.tryModuleGet .ioctlModule }
  copyOut s (showMyVector s.registry (zeroed bufLen) (s.vectorInfo current)).1 env

def ioctlVectorForPid (s : State) (param : IoctlParam) (env : Env) : Except Fault IoctlResult :=
  let s := { s with registry := s.registry.tryModuleGet .ioctlModule }
  if env.pidBuf = 0 then .error .nullPointer
  else if !env.copyFromUser then
    returns { s with registry := s.registry.modulePut .ioctlModule } (errno EINVAL)
  else
    match (findVpid param.userPidBuf.pid).bind s.tasks with
    | none => .error .nullPointer
    | some info => copyOut s (showMyVector s.registry (zeroed bufLen) info).1 env

def ioctlCreateFromBitmap (s : State) (current : Pid) (param : IoctlParam) (env : Env) :
    Except Fault IoctlResult :=
  let s := { s with registry := s.registry.tryModuleGet .ioctlModule }
  if env.kernelBitmap = 0 then .error .nullPointer
  else if !env.copyFromUser then
    returns { s with registry := s.registry.modulePut .ioctlModule } (errno EINVAL)
  else
    let err := validateBitmap param.userBitmap
    if err ≠ 0 then
      returns { s with registry := s.registry.modulePut .ioctlModule } err.toInt64
    else
      match addVectorFromBitmap s current param.userBitmap env with
      | .error fault => .error fault
      | .ok (s, err) =>
        returns { s with registry := s.registry.modulePut .ioctlModule } err.toInt64

def customIoctl (s : State) (current : Pid) (ioctlRequest : UInt32) (param : IoctlParam)
    (env : Env) : Except Fault IoctlResult :=
  if env.buf = 0 then returns s (errno ENOMEM)
  else if ioctlRequest = IOCTL_SET then ioctlSet s current param env
  else if ioctlRequest = IOCTL_REMOVE then ioctlRemove s current param env
  else if ioctlRequest = IOCTL_SHOW_ALL then ioctlShowAll s env
  else if ioctlRequest = IOCTL_SHOW_MINE then ioctlShowMine s current env
  else if ioctlRequest = IOCTL_VECTOR_FOR_PID then ioctlVectorForPid s param env
  else if ioctlRequest = IOCTL_CREATE_FROM_BITMAP then ioctlCreateFromBitmap s current param env
  else returns s (errno EINVAL)

end SyscallVector.Model
