import SyscallVector.Model.Chain
import SyscallVector.Model.VecLoadUnload

/-!
# The vector modules

Loading and unloading of the modules that own vectors: vector1_module.c and
vector2_module.c, which each build one chain when they are loaded, and
dynamic_vector.c, which builds chains on request.
-/
namespace SyscallVector.Model

set_option autoImplicit false

open Lib

/-- The name that every module composes: `"Vector"` and the numeral of the bitmap. -/
def vectorPrefix : List UInt8 := ascii ['V', 'e', 'c', 't', 'o', 'r']

/-! ## vector1 and vector2 -/

def vector1Name : List UInt8 := ascii ['V', 'e', 'c', 't', 'o', 'r', '5', '5']

def vector2Name : List UInt8 := ascii ['V', 'e', 'c', 't', 'o', 'r', '9', '6', '8']

def vector1Syscalls : List (SyscallNr × Handler) :=
  [(.link, .overriddenLink), (.unlink, .overriddenUnlink), (.read, .overriddenRead),
    (.open, .overriddenOpen), (.write, .overriddenWrite)]

def vector2Syscalls : List (SyscallNr × Handler) :=
  [(.mkdir, .overriddenMkdir), (.rmdir, .overriddenRmdir), (.write, .loggedWrite),
    (.open, .blockedOpen), (.close, .overriddenClose)]

def vector1Bitmap : UInt32 :=
  READ_OVERRIDE + WRITE_OVERRIDE + OPEN_OVERRIDE + LINK_OVERRIDE + UNLINK_OVERRIDE

def vector2Bitmap : UInt32 :=
  MKDIR_OVERRIDE + RMDIR_OVERRIDE + WRITE_LOGGED + OPEN_BLOCKED + CLOSE_OVERRIDE

/-- The calls of `add_syscall_to_vector` in `initVector`, up to the first that fails. -/
def addSyscalls (kmalloc : Nat → Address) :
    Nat → List (SyscallNr × Handler) → Builder → Except Fault (Builder × Int32)
  | _, [], b => .ok (b, 0)
  | k, (nr, func) :: rest, b =>
    match addSyscallToVector b (kmalloc k) nr func with
    | .error fault => .error fault
    | .ok (b, ret) => if ret < 0 then .ok (b, ret) else addSyscalls kmalloc (k + 1) rest b

/-- `initVector`: build the chain and register it, or delete what was built. -/
def initVector (s : State) (m : Module) (vectorName : List UInt8)
    (syscalls : List (SyscallNr × Handler)) (bitmap : UInt32) (kmalloc : Nat → Address)
    (va : Address) : Except Fault (State × Int32) :=
  match addSyscalls kmalloc 0 syscalls ⟨s.heap, s.listHead m⟩ with
  | .error fault => .error fault
  | .ok (b, ret) =>
    let s := { s with heap := b.heap }.setListHead m b.listHead
    if ret < 0 then
      match deleteVector s.heap (s.listHead m) with
      | .error fault => .error fault
      | .ok heap => .ok ({ s with heap := heap }.setListHead m 0, ret)
    else
      let (registry, ret) := registerSyscall s.registry va vectorName (s.listHead m) m bitmap
      .ok ({ s with registry := registry }, ret)

/-- `init_override`; a module whose initialisation fails is not loaded. -/
def insmod (m : Module) (r : Except Fault (State × Int32)) : Except Fault (State × Int32) :=
  r.map fun (s, ret) =>
    ({ s with loaded := Function.update s.loaded m (decide (0 ≤ ret)) }, ret)

def insmodVector1 (s : State) (kmalloc : Nat → Address) (va : Address) :
    Except Fault (State × Int32) :=
  insmod .vector1 (initVector s .vector1 vector1Name vector1Syscalls vector1Bitmap kmalloc va)

def insmodVector2 (s : State) (kmalloc : Nat → Address) (va : Address) :
    Except Fault (State × Int32) :=
  insmod .vector2 (initVector s .vector2 vector2Name vector2Syscalls vector2Bitmap kmalloc va)

/-- `cleanup_override` of vector1 and vector2. -/
def cleanupVector (s : State) (m : Module) : Except Fault State :=
  let registry := (unregisterSyscall s.registry (s.listHead m)).1
  match deleteVector s.heap (s.listHead m) with
  | .error fault => .error fault
  | .ok heap => .ok ({ s with registry := registry, heap := heap }.setListHead m 0)

/-! ## dynamic_vector -/

/-- `init_override`; loading zeroes the module's variables. -/
def insmodDynamicVector (s : State) : State :=
  { s with
    listHeads := []
    loaded := Function.update s.loaded .dynamicVector true }.setListHead .dynamicVector 0

/-- The `if` statements of `add_vector_from_bitmap`: the bit tested and the node added. -/
def vectorBranches : List (UInt32 × SyscallNr × Handler) :=
  [(READ_OVERRIDE, .read, .overriddenRead),
    (WRITE_OVERRIDE, .write, .overriddenWrite),
    (OPEN_OVERRIDE, .open, .overriddenOpen),
    (CLOSE_OVERRIDE, .close, .overriddenClose),
    (LINK_OVERRIDE, .link, .overriddenLink),
    (UNLINK_OVERRIDE, .unlink, .overriddenUnlink),
    (WRITE_LOGGED, .write, .loggedWrite),
    (OPEN_BLOCKED, .open, .blockedOpen)]

/-- Run the branches. The `int` result of each addition goes into the `unsigned
long` variable `ret`, which `ret < 0` then tests; the flag tells whether the jump to
`free_vector_prefix` was taken. -/
def addBranches (bitmap : UInt32) (kmalloc : Nat → Address) :
    Nat → List (UInt32 × SyscallNr × Handler) → Builder → UInt64 →
      Except Fault (Builder × UInt64 × Bool)
  | _, [], b, ret => .ok (b, ret, false)
  | k, (bit, nr, func) :: rest, b, ret =>
    if bitmap &&& bit ≠ 0 then
      match addSyscallToVector b (kmalloc k) nr func with
      | .error fault => .error fault
      | .ok (b, err) =>
        let ret := err.toInt64.toUInt64
        if ret < 0 then .ok (b, ret, true)
        else addBranches bitmap kmalloc (k + 1) rest b ret
    else addBranches bitmap kmalloc (k + 1) rest b ret

/-- An `unsigned long` returned as an `int`. -/
def toInt32 (x : UInt64) : Int32 := x.toUInt32.toInt32

/-- The label `out`: free what was built and return. -/
def undoVector (s : State) (ret : UInt64) : Except Fault (State × Int32) :=
  match deleteVector s.heap (s.listHead .dynamicVector) with
  | .error fault => .error fault
  | .ok heap => .ok ({ s with heap := heap }.setListHead .dynamicVector 0, toInt32 ret)

/-- Register the chain that was built and give it to the caller. -/
def installVector (s : State) (current : Pid) (bitmap : UInt32) (name : List UInt8)
    (va : Address) : State × Int32 :=
  let head := s.listHead .dynamicVector
  let registry := (registerDynamicSyscall (s.registry.tryModuleGet .dynamicVector) va name head
    .dynamicVector bitmap).1
  let s := { s with registry := registry }.setVectorInfo current head
  ({ s with listHeads := s.listHeads ++ [head] }.setListHead .dynamicVector 0, toInt32 head)

def addVectorFromBitmap (s : State) (current : Pid) (bitmap : UInt32) (env : Env) :
    Except Fault (State × Int32) :=
  let (registry, ret) := checkAnyCurrentVector s.registry bitmap
  let s := { s with registry := registry }
  if ret ≠ 0 then
    .ok ((s.setVectorInfo current ret).setListHead .dynamicVector 0, toInt32 ret)
  else if env.temp = 0 then .ok (s.setListHead .dynamicVector 0, toInt32 ret)
  else if env.vectorPrefix = 0 then undoVector s ret
  else
    match addBranches bitmap env.node 0 vectorBranches ⟨s.heap, s.listHead .dynamicVector⟩ ret with
    | .error fault => .error fault
    | .ok (b, ret, jumped) =>
      let s := { s with heap := b.heap }.setListHead .dynamicVector b.listHead
      if jumped then undoVector s ret
      else .ok (installVector s current bitmap (vectorPrefix ++ sprintfD bitmap) env.va)

/-- The strings that one call allocates, and those that it frees. -/
structure StringUse where
  allocated : List Address
  freed : List Address

/-- `temp` and `vector_prefix` on the way through `add_vector_from_bitmap`; only the labels
`free_vector_prefix` and `out` free them. -/
def addVectorStrings (s : State) (bitmap : UInt32) (env : Env) : StringUse :=
  let (_, ret) := checkAnyCurrentVector s.registry bitmap
  if ret ≠ 0 then ⟨[], []⟩
  else if env.temp = 0 then ⟨[], []⟩
  else if env.vectorPrefix = 0 then ⟨[env.temp], [env.temp]⟩
  else
    match addBranches bitmap env.node 0 vectorBranches ⟨s.heap, s.listHead .dynamicVector⟩ ret with
    | .ok (_, _, true) => ⟨[env.temp, env.vectorPrefix], [env.vectorPrefix, env.temp]⟩
    | _ => ⟨[env.temp, env.vectorPrefix], []⟩

/-- The loop of `cleanup_override` over `list_heads`. -/
def cleanupHeads : List Address → State → Except Fault State
  | [], s => .ok s
  | head :: heads, s =>
    let registry := (unregisterSyscall s.registry head).1
    match deleteVector s.heap head with
    | .error fault => .error fault
    | .ok heap => cleanupHeads heads { s with registry := registry, heap := heap }

def cleanupDynamicVector (s : State) : Except Fault State :=
  (cleanupHeads s.listHeads s).map fun s => { s with listHeads := [] }

end SyscallVector.Model
