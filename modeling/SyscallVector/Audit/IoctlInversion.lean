import SyscallVector.Audit.Building
import SyscallVector.Audit.Rendering

/-!
# What one ioctl call can do

Every branch of `custom_ioctl` takes and drops a reference to its own module, so
these cancel. What is left is inverted once here: a call that returns either
leaves the state alone or does one of five things, each given by the state before
it. `CreateOutcome` does the same for `add_vector_from_bitmap`.
-/
namespace SyscallVector.Audit

set_option autoImplicit false

open Lib Model

/-! ## The reference to the ioctl module -/

section
variable (r : Registry) (m m' : Module) (k : Key) (d : Int)

theorem lookup_tryModuleGet : (r.tryModuleGet m).lookup k = r.lookup k := rfl

theorem adjust_tryModuleGet :
    (r.tryModuleGet m).adjust k d = (r.adjust k d).tryModuleGet m := by
  cases h : r.lookup k with
  | none => rw [adjust_none h, adjust_none ((lookup_tryModuleGet r m k).trans h)]
  | some v =>
    rw [adjust_some h, adjust_some ((lookup_tryModuleGet r m k).trans h)]
    simp only [Registry.tryModuleGet, Registry.mk.injEq, true_and]
    by_cases hm : v.vectorModule = m
    · rw [hm]
      simp only [Function.update_idem, Function.update_self]
      congr 1
      omega
    · rw [Function.update_of_ne hm, Function.update_of_ne (Ne.symm hm), Function.update_comm hm]

theorem tryModuleGet_comm :
    (r.tryModuleGet m).tryModuleGet m' = (r.tryModuleGet m').tryModuleGet m := by
  simp only [Registry.tryModuleGet, Registry.mk.injEq, true_and]
  by_cases hm : m = m'
  · rw [hm]
  · rw [Function.update_of_ne (Ne.symm hm), Function.update_of_ne hm, Function.update_comm hm]

theorem addVector_tryModuleGet (va : Address) (v : StructVector) :
    (r.tryModuleGet m).addVector va v =
      ((r.addVector va v).1.tryModuleGet m, (r.addVector va v).2) := by
  unfold Registry.addVector
  split
  · rfl
  · split <;> rfl

theorem acquire_tryModuleGet :
    (r.tryModuleGet m).acquire k = ((r.acquire k).1.tryModuleGet m, (r.acquire k).2) := by
  rw [Registry.acquire, adjust_tryModuleGet]
  rfl

end

/-- `try_module_get` on the registry of a state. -/
def getModule (s : State) (m : Module) : State :=
  { s with registry := s.registry.tryModuleGet m }

/-- `module_put` on the registry of a state. -/
def putModule (s : State) (m : Module) : State :=
  { s with registry := s.registry.modulePut m }

theorem putModule_getModule (s : State) (m : Module) : putModule (getModule s m) m = s := by
  rw [putModule, getModule]
  simp only [tryModuleGet_modulePut]

/-! ## The held vector is never released -/

/-- No name is empty or contains a newline. -/
def PlainNames (r : Registry) : Prop :=
  ∀ v ∈ r.vecList, cstr v.vectorName ≠ [] ∧ (10 : UInt8) ∉ cstr v.vectorName

theorem PlainNames.adjust {r : Registry} (h : PlainNames r) (k : Key) (d : Int) :
    PlainNames (r.adjust k d) := by
  exact forall_mem_adjust (fun _ hv => hv) h k

/-- A name without NUL that is followed by a newline is no registered name. -/
theorem lookup_line_none {r : Registry} (h : PlainNames r) {line : List UInt8}
    (hline : cstr line = [] ∨ (10 : UInt8) ∈ cstr line) : r.lookup (.name line) = none := by
  refine List.find?_eq_none.mpr fun v hv hmatch => ?_
  have heq : cstr line = cstr v.vectorName :=
    (strcmp_eq_zero_iff _ _).mp (by simpa [Key.isMatch] using hmatch)
  rw [heq] at hline
  rcases hline with hnil | hmem
  · exact (h v hv).1 hnil
  · exact (h v hv).2 hmem

/-- With plain names, `if_assigned_reduce` changes nothing: the text it passes on is
never the name of a vector. -/
theorem ifAssignedReduce_plain {s : State} (h : PlainNames s.registry) (current : Pid)
    (env : Env) : (ifAssignedReduce s current env).1 = s := by
  unfold ifAssignedReduce
  by_cases h0 : s.vectorInfo current = 0
  · rw [if_pos h0]
  · rw [if_neg h0]
    split
    · rfl
    · dsimp only
      split
      · rfl
      · have hnone := lookup_line_none h (showMyVector_line (r := s.registry) h0)
        rw [reduceRefCount, Registry.release, adjust_none hnone]

/-! ## Creation -/

/-- Give the caller the chain at `a`; `listHead` is cleared. -/
def holdDynamic (s : State) (current : Pid) (a : Address) : State :=
  (s.setVectorInfo current a).setListHead .dynamicVector 0

/-- The registry after a search for a bitmap, successful or not. -/
def searched (s : State) (bitmap : UInt32) : State :=
  { s with registry := s.registry.adjust (.bitmap bitmap) 1 }

/-- The entry that `add_vector_from_bitmap` registers. -/
def dynamicEntry (bitmap : UInt32) (a : Address) : StructVector :=
  newVector (vectorPrefix ++ sprintfD bitmap) a 1 .dynamicVector bitmap

/-- The registry after a search and a registration; the latter may fail. -/
def registered (r : Registry) (bitmap : UInt32) (a va : Address) : Registry :=
  let r := (r.adjust (.bitmap bitmap) 1).tryModuleGet .dynamicVector
  if Good va then pushVector r (dynamicEntry bitmap a) else r

/-- The state after a build: the new chain is held, recorded and, if `va` is good,
registered. -/
def builtState (s : State) (current : Pid) (bitmap : UInt32) (b : Builder) (va : Address) :
    State where
  registry := registered s.registry bitmap b.listHead va
  tasks := (s.setVectorInfo current b.listHead).tasks
  heap := b.heap
  listHead := Function.update s.listHead .dynamicVector 0
  listHeads := s.listHeads ++ [b.listHead]
  loaded := s.loaded

theorem installVector_builtState (s : State) (current : Pid) (bitmap : UInt32) (b : Builder)
    (va : Address) :
    installVector ({ searched s bitmap with heap := b.heap }.setListHead .dynamicVector b.listHead)
        current bitmap (vectorPrefix ++ sprintfD bitmap) va =
      (builtState s current bitmap b va, toInt32 b.listHead) := by
  have hhead : Function.update s.listHead .dynamicVector b.listHead .dynamicVector = b.listHead :=
    Function.update_self ..
  have hreg : (registerDynamicSyscall ((s.registry.adjust (.bitmap bitmap) 1).tryModuleGet
      .dynamicVector) va (vectorPrefix ++ sprintfD bitmap) b.listHead .dynamicVector bitmap).1 =
      registered s.registry bitmap b.listHead va := by
    rw [registerDynamicSyscall, addDynamicVectorAddress, registered]
    by_cases hva : Good va
    · rw [addVector_good _ hva, if_pos hva]
      rfl
    · obtain ⟨err, -, hbad⟩ := addVector_bad ((s.registry.adjust (.bitmap bitmap) 1).tryModuleGet
        .dynamicVector) hva (newVector (vectorPrefix ++ sprintfD bitmap) b.listHead 1
          .dynamicVector bitmap)
      rw [hbad, if_neg hva]
  simp only [installVector, State.setListHead, searched, hhead, hreg, builtState,
    State.setVectorInfo, Function.update_idem]

/-- The address that the search for a bitmap returns. -/
def foundChain (s : State) (bitmap : UInt32) : Address :=
  (s.registry.lookup (.bitmap bitmap)).elim 0 StructVector.overriddenSyscallsAddress

theorem foundChain_some {s : State} {bitmap : UInt32} {v : StructVector}
    (hv : s.registry.lookup (.bitmap bitmap) = some v) :
    foundChain s bitmap = v.overriddenSyscallsAddress := by
  rw [foundChain, hv]
  rfl

/-- What `add_vector_from_bitmap` can do when it returns. -/
inductive CreateOutcome (s : State) (current : Pid) (bitmap : UInt32) (env : Env) :
    State → Int32 → Prop
  | reuse {v : StructVector} : s.registry.lookup (.bitmap bitmap) = some v →
      v.overriddenSyscallsAddress ≠ 0 →
      CreateOutcome s current bitmap env
        (holdDynamic (searched s bitmap) current v.overriddenSyscallsAddress)
        (toInt32 v.overriddenSyscallsAddress)
  | abandon {heap : Heap} :
      foundChain s bitmap = 0 →
      (env.temp = 0 ∧ heap = s.heap ∨
        env.vectorPrefix = 0 ∧ deleteVector s.heap (s.listHead .dynamicVector) = .ok heap) →
      CreateOutcome s current bitmap env
        ({ searched s bitmap with heap := heap }.setListHead .dynamicVector 0) 0
  | build {b : Builder} {ret : UInt64} :
      foundChain s bitmap = 0 →
      env.temp ≠ 0 → env.vectorPrefix ≠ 0 →
      addBranches bitmap env.node 0 vectorBranches ⟨s.heap, s.listHead .dynamicVector⟩ 0 =
        .ok (b, ret, false) →
      CreateOutcome s current bitmap env (builtState s current bitmap b env.va)
        (toInt32 b.listHead)

theorem addVectorFromBitmap_eq (s : State) (current : Pid) (bitmap : UInt32) (env : Env) :
    addVectorFromBitmap s current bitmap env =
      if foundChain s bitmap ≠ 0 then
        .ok (holdDynamic (searched s bitmap) current (foundChain s bitmap),
          toInt32 (foundChain s bitmap))
      else if env.temp = 0 then
        .ok ((searched s bitmap).setListHead .dynamicVector 0, toInt32 (foundChain s bitmap))
      else if env.vectorPrefix = 0 then undoVector (searched s bitmap) (foundChain s bitmap)
      else
        match addBranches bitmap env.node 0 vectorBranches
            ⟨s.heap, s.listHead .dynamicVector⟩ (foundChain s bitmap) with
        | .error fault => .error fault
        | .ok (b, ret, jumped) =>
          let s := { searched s bitmap with heap := b.heap }.setListHead .dynamicVector b.listHead
          if jumped then undoVector s ret
          else .ok (installVector s current bitmap (vectorPrefix ++ sprintfD bitmap) env.va) := rfl

/-- `ret` is unsigned, so the jump to `free_vector_prefix` is never taken. -/
theorem addBranches_not_jumped {bitmap : UInt32} {kmalloc : Nat → Address} {k : Nat}
    {rows : List (UInt32 × SyscallNr × Handler)} {b b' : Builder} {ret ret' : UInt64}
    {jumped : Bool} (h : addBranches bitmap kmalloc k rows b ret = .ok (b', ret', jumped)) :
    jumped = false := by
  induction rows generalizing k b ret with
  | nil =>
    cases h
    rfl
  | cons row rows ih =>
    obtain ⟨bit, nr, func⟩ := row
    rw [addBranches] at h
    by_cases hbit : bitmap &&& bit ≠ 0
    · rw [if_pos hbit] at h
      cases hadd : addSyscallToVector b (kmalloc k) nr func with
      | error fault => rw [hadd] at h; cases h
      | ok p =>
        rw [hadd] at h
        simp only [UInt64.not_lt_zero, ↓reduceIte] at h
        exact ih h
    · rw [if_neg hbit] at h
      exact ih h

theorem undoVector_ok {s t : State} {ret : UInt64} {err : Int32}
    (h : undoVector s ret = .ok (t, err)) :
    ∃ heap, deleteVector s.heap (s.listHead .dynamicVector) = .ok heap ∧
      ({ s with heap := heap } : State).setListHead .dynamicVector 0 = t ∧ toInt32 ret = err := by
  rw [undoVector] at h
  cases hdel : deleteVector s.heap (s.listHead .dynamicVector) with
  | error fault => rw [hdel] at h; cases h
  | ok heap =>
    rw [hdel] at h
    cases h
    exact ⟨heap, rfl, rfl, rfl⟩

theorem addVectorFromBitmap_cases {s t : State} {current : Pid} {bitmap : UInt32} {env : Env}
    {err : Int32} (h : addVectorFromBitmap s current bitmap env = .ok (t, err)) :
    CreateOutcome s current bitmap env t err := by
  rw [addVectorFromBitmap_eq] at h
  by_cases hret : foundChain s bitmap = 0
  · rw [if_neg (not_not_intro hret), hret] at h
    by_cases htemp : env.temp = 0
    · rw [if_pos htemp] at h
      cases h
      exact .abandon hret (.inl ⟨htemp, rfl⟩)
    · rw [if_neg htemp] at h
      by_cases hpre : env.vectorPrefix = 0
      · rw [if_pos hpre] at h
        obtain ⟨heap, hdel, rfl, rfl⟩ := undoVector_ok h
        exact .abandon hret (.inr ⟨hpre, hdel⟩)
      · rw [if_neg hpre] at h
        cases hadd : addBranches bitmap env.node 0 vectorBranches
            ⟨s.heap, s.listHead .dynamicVector⟩ 0 with
        | error fault => rw [hadd] at h; cases h
        | ok p =>
          obtain ⟨b, ret, jumped⟩ := p
          obtain rfl := addBranches_not_jumped hadd
          rw [hadd] at h
          dsimp only at h
          rw [if_neg Bool.false_ne_true, installVector_builtState] at h
          cases h
          exact .build hret htemp hpre hadd
  · rw [if_pos hret] at h
    cases hv : s.registry.lookup (.bitmap bitmap) with
    | none => exact absurd (by rw [foundChain, hv]; rfl) hret
    | some v =>
      rw [foundChain_some hv] at h hret
      cases h
      exact .reuse hv hret

theorem undoVector_getModule (s : State) (m : Module) (ret : UInt64) :
    undoVector (getModule s m) ret =
      (undoVector s ret).map fun p => (getModule p.1 m, p.2) := by
  unfold undoVector
  have hheap : (getModule s m).heap = s.heap := rfl
  have hhead : (getModule s m).listHead = s.listHead := rfl
  rw [hheap, hhead]
  cases deleteVector s.heap (s.listHead .dynamicVector) <;> rfl

theorem installVector_getModule (s : State) (m : Module) (current : Pid) (bitmap : UInt32)
    (name : List UInt8) (va : Address) :
    installVector (getModule s m) current bitmap name va =
      (getModule (installVector s current bitmap name va).1 m,
        (installVector s current bitmap name va).2) := by
  unfold installVector registerDynamicSyscall addDynamicVectorAddress
  have hreg : (getModule s m).registry.tryModuleGet .dynamicVector =
      (s.registry.tryModuleGet .dynamicVector).tryModuleGet m := tryModuleGet_comm ..
  simp only [hreg, addVector_tryModuleGet]
  rfl

/-- A reference to another module passes through a creation untouched. -/
theorem addVectorFromBitmap_getModule (s : State) (m : Module) (current : Pid) (bitmap : UInt32)
    (env : Env) :
    addVectorFromBitmap (getModule s m) current bitmap env =
      (addVectorFromBitmap s current bitmap env).map fun p => (getModule p.1 m, p.2) := by
  unfold addVectorFromBitmap checkAnyCurrentVector
  have hacq := acquire_tryModuleGet s.registry m (.bitmap bitmap)
  have hreg : (getModule s m).registry = s.registry.tryModuleGet m := rfl
  simp only [hreg, hacq]
  split
  · rfl
  · split
    · rfl
    · split
      · exact undoVector_getModule
          { s with registry := (s.registry.acquire (.bitmap bitmap)).1 } m _
      · have hheap : (getModule s m).heap = s.heap := rfl
        have hhead : (getModule s m).listHead = s.listHead := rfl
        simp only [hheap, hhead]
        cases addBranches bitmap env.node 0 vectorBranches
            ⟨s.heap, s.listHead .dynamicVector⟩
            (s.registry.acquire (.bitmap bitmap)).2 with
        | error fault => rfl
        | ok p =>
          obtain ⟨b, ret, jumped⟩ := p
          let mid : State := { s with
            registry := (s.registry.acquire (.bitmap bitmap)).1
            heap := b.heap }
          cases jumped with
          | true =>
            exact undoVector_getModule (mid.setListHead .dynamicVector b.listHead) m ret
          | false =>
            exact congrArg Except.ok (installVector_getModule
              (mid.setListHead .dynamicVector b.listHead) m current bitmap _ env.va)

/-! ## The requests -/

/-- The name at `ioctl_param` reaches the kernel. -/
structure NameRead (env : Env) : Prop where
  buf : env.buf ≠ 0
  name : env.vectorName ≠ 0
  notErr : isErr env.vectorName = false
  copied : env.copyFromUser = true

/-- The bitmap at `ioctl_param` reaches the kernel. -/
structure BitmapRead (env : Env) : Prop where
  buf : env.buf ≠ 0
  bitmap : env.kernelBitmap ≠ 0
  copied : env.copyFromUser = true

section
variable {s : State} {current : Pid} {request : UInt32} {param : IoctlParam} {env : Env}

theorem customIoctl_noBuffer (hbuf : env.buf = 0) :
    customIoctl s current request param env = returns s (errno ENOMEM) := by
  rw [customIoctl, if_pos hbuf]

/-! The switch, request by request. -/

theorem customIoctl_setRequest (hbuf : env.buf ≠ 0) :
    customIoctl s current IOCTL_SET param env = ioctlSet s current param env := by
  rw [customIoctl, if_neg hbuf, if_pos rfl]

theorem customIoctl_removeRequest (hbuf : env.buf ≠ 0) :
    customIoctl s current IOCTL_REMOVE param env = ioctlRemove s current param env := by
  rw [customIoctl, if_neg hbuf, if_neg (by decide), if_pos rfl]

theorem customIoctl_showAllRequest (hbuf : env.buf ≠ 0) :
    customIoctl s current IOCTL_SHOW_ALL param env = ioctlShowAll s env := by
  rw [customIoctl, if_neg hbuf, if_neg (by decide), if_neg (by decide), if_pos rfl]

theorem customIoctl_showMineRequest (hbuf : env.buf ≠ 0) :
    customIoctl s current IOCTL_SHOW_MINE param env = ioctlShowMine s current env := by
  rw [customIoctl, if_neg hbuf, if_neg (by decide), if_neg (by decide), if_neg (by decide),
    if_pos rfl]

theorem customIoctl_pidRequest (hbuf : env.buf ≠ 0) :
    customIoctl s current IOCTL_VECTOR_FOR_PID param env = ioctlVectorForPid s param env := by
  rw [customIoctl, if_neg hbuf, if_neg (by decide), if_neg (by decide), if_neg (by decide),
    if_neg (by decide), if_pos rfl]

theorem customIoctl_createRequest (hbuf : env.buf ≠ 0) :
    customIoctl s current IOCTL_CREATE_FROM_BITMAP param env =
      ioctlCreateFromBitmap s current param env := by
  rw [customIoctl, if_neg hbuf, if_neg (by decide), if_neg (by decide), if_neg (by decide),
    if_neg (by decide), if_neg (by decide), if_pos rfl]

/-- The name that `IOCTL_SET` and `IOCTL_REMOVE` look up. -/
abbrev nameKey (param : IoctlParam) : Key := .name (copyVectorName param.userVectorName)

theorem customIoctl_set (hread : NameRead env) :
    customIoctl s current IOCTL_SET param env =
      match s.registry.lookup (nameKey param) with
      | none => returns s (errno EINVAL)
      | some v =>
        let found := { s with registry := s.registry.adjust (nameKey param) 1 }
        if v.overriddenSyscallsAddress = 0 then returns found (errno EINVAL)
        else
          returns (putModule ((((ifAssignedReduce (getModule found .ioctlModule) current
            env).1.setVectorInfo current 0).setVectorInfo current
              v.overriddenSyscallsAddress)) .ioctlModule) 0 := by
  have hlook : (getModule s .ioctlModule).registry.lookup (nameKey param) =
      s.registry.lookup (nameKey param) := rfl
  have hreg : ({ getModule s .ioctlModule with
      registry := (getModule s .ioctlModule).registry.adjust (nameKey param) 1 } : State) =
      getModule { s with registry := s.registry.adjust (nameKey param) 1 } .ioctlModule := by
    simp only [getModule, adjust_tryModuleGet]
  rw [customIoctl_setRequest hread.buf, ioctlSet, if_neg hread.name]
  simp only [hread.notErr, hread.copied, Bool.not_true, Bool.false_eq_true, ↓reduceIte,
    getVectorAddress, Registry.acquire]
  change (if (Option.elim ((getModule s .ioctlModule).registry.lookup (nameKey param)) 0
    StructVector.overriddenSyscallsAddress) = 0 then
      returns (putModule { getModule s .ioctlModule with
        registry := (getModule s .ioctlModule).registry.adjust (nameKey param) 1 }
          .ioctlModule) (errno EINVAL)
    else returns (putModule (((ifAssignedReduce { getModule s .ioctlModule with
        registry := (getModule s .ioctlModule).registry.adjust (nameKey param) 1 } current
          env).1.setVectorInfo current 0).setVectorInfo current
            (Option.elim ((getModule s .ioctlModule).registry.lookup (nameKey param)) 0
              StructVector.overriddenSyscallsAddress)) .ioctlModule) 0) = _
  rw [hlook, hreg, putModule_getModule]
  cases h : s.registry.lookup (nameKey param) with
  | none =>
    rw [adjust_none h]
    rfl
  | some v => rfl

theorem customIoctl_remove (hread : NameRead env) :
    customIoctl s current IOCTL_REMOVE param env =
      match s.registry.lookup (nameKey param) with
      | none => returns s (errno EINVAL)
      | some v =>
        let dropped := { s with registry := s.registry.adjust (nameKey param) (-1) }
        if (v.addRef (-1)).refcount < 0 then returns dropped (errno EINVAL)
        else returns (dropped.setVectorInfo current 0) (v.addRef (-1)).refcount.toInt64 := by
  have hlook : (getModule s .ioctlModule).registry.lookup (nameKey param) =
      s.registry.lookup (nameKey param) := rfl
  have hreg : ({ getModule s .ioctlModule with
      registry := (getModule s .ioctlModule).registry.adjust (nameKey param) (-1) } : State) =
      getModule { s with registry := s.registry.adjust (nameKey param) (-1) } .ioctlModule := by
    simp only [getModule, adjust_tryModuleGet]
  rw [customIoctl_removeRequest hread.buf, ioctlRemove, if_neg hread.name]
  simp only [hread.notErr, hread.copied, Bool.not_true, Bool.false_eq_true, ↓reduceIte,
    reduceRefCount, Registry.release]
  change (if (Option.elim ((getModule s .ioctlModule).registry.lookup (nameKey param)) (-1)
      fun v => (v.addRef (-1)).refcount) < 0 then
      returns (putModule { getModule s .ioctlModule with
        registry := (getModule s .ioctlModule).registry.adjust (nameKey param) (-1) }
          .ioctlModule) (errno EINVAL)
    else returns (putModule ({ getModule s .ioctlModule with
        registry := (getModule s .ioctlModule).registry.adjust (nameKey param) (-1) }.setVectorInfo
          current 0) .ioctlModule)
        (Option.elim ((getModule s .ioctlModule).registry.lookup (nameKey param)) (-1)
          fun v => (v.addRef (-1)).refcount).toInt64) = _
  rw [hlook, hreg, putModule_getModule]
  cases h : s.registry.lookup (nameKey param) with
  | none =>
    rw [adjust_none h]
    rfl
  | some v =>
    change (if (v.addRef (-1)).refcount < 0 then _ else _) = ite _ _ _
    by_cases hneg : (v.addRef (-1)).refcount < 0
    · rw [if_pos hneg, if_pos hneg]
    · have hput : putModule ((getModule { s with
          registry := s.registry.adjust (nameKey param) (-1) } .ioctlModule).setVectorInfo
            current 0) .ioctlModule =
          (putModule (getModule { s with
            registry := s.registry.adjust (nameKey param) (-1) } .ioctlModule)
              .ioctlModule).setVectorInfo current 0 := rfl
      rw [if_neg hneg, if_neg hneg, hput, putModule_getModule]
      rfl

theorem customIoctl_create (hread : BitmapRead env) (hvalid : validateBitmap param.userBitmap = 0) :
    customIoctl s current IOCTL_CREATE_FROM_BITMAP param env =
      (addVectorFromBitmap s current param.userBitmap env).map fun p =>
        ⟨p.1, p.2.toInt64, none⟩ := by
  rw [customIoctl_createRequest hread.buf, ioctlCreateFromBitmap, if_neg hread.bitmap]
  simp only [hread.copied, Bool.not_true, Bool.false_eq_true, ↓reduceIte, hvalid, ne_eq,
    not_true_eq_false]
  have hget := addVectorFromBitmap_getModule s .ioctlModule current param.userBitmap env
  rw [getModule] at hget
  rw [hget]
  cases addVectorFromBitmap s current param.userBitmap env with
  | error fault => rfl
  | ok p =>
    change returns (putModule (getModule p.1 .ioctlModule) .ioctlModule) p.2.toInt64 = _
    rw [putModule_getModule]
    rfl

/-! ## The inversion -/

/-- What a call that returns has done. -/
inductive IoctlEffect (s : State) (current : Pid) (request : UInt32) (param : IoctlParam)
    (env : Env) : IoctlResult → Prop
  | unchanged (err : Int64) (copied : Option (List UInt8)) :
      IoctlEffect s current request param env ⟨s, err, copied⟩
  | setNull {v : StructVector} : request = IOCTL_SET → NameRead env →
      s.registry.lookup (nameKey param) = some v → v.overriddenSyscallsAddress = 0 →
      IoctlEffect s current request param env
        ⟨{ s with registry := s.registry.adjust (nameKey param) 1 }, errno EINVAL, none⟩
  | set {v : StructVector} : request = IOCTL_SET → NameRead env →
      s.registry.lookup (nameKey param) = some v → v.overriddenSyscallsAddress ≠ 0 →
      IoctlEffect s current request param env
        ⟨({ s with registry := s.registry.adjust (nameKey param) 1 } : State).setVectorInfo current
          v.overriddenSyscallsAddress, 0, none⟩
  | removeDeficit {v : StructVector} : request = IOCTL_REMOVE → NameRead env →
      s.registry.lookup (nameKey param) = some v → (v.addRef (-1)).refcount < 0 →
      IoctlEffect s current request param env
        ⟨{ s with registry := s.registry.adjust (nameKey param) (-1) }, errno EINVAL, none⟩
  | remove {v : StructVector} : request = IOCTL_REMOVE → NameRead env →
      s.registry.lookup (nameKey param) = some v → ¬(v.addRef (-1)).refcount < 0 →
      IoctlEffect s current request param env
        ⟨({ s with registry := s.registry.adjust (nameKey param) (-1) } : State).setVectorInfo
          current 0, (v.addRef (-1)).refcount.toInt64, none⟩
  | create {t : State} {err : Int32} : request = IOCTL_CREATE_FROM_BITMAP → BitmapRead env →
      validateBitmap param.userBitmap = 0 →
      CreateOutcome s current param.userBitmap env t err →
      IoctlEffect s current request param env ⟨t, err.toInt64, none⟩

variable {result : IoctlResult}

theorem setVectorInfo_setVectorInfo (s : State) (current : Pid) (a b : Address) :
    (s.setVectorInfo current a).setVectorInfo current b = s.setVectorInfo current b := by
  simp [State.setVectorInfo, Function.comp_def]

theorem putModule_setVectorInfo (s : State) (m : Module) (current : Pid) (a : Address) :
    putModule (s.setVectorInfo current a) m = (putModule s m).setVectorInfo current a := rfl

theorem PlainNames.getModule {s : State} (h : PlainNames s.registry) (m : Module) :
    PlainNames (getModule s m).registry := h

theorem copyOut_eq (s : State) (buf : List UInt8) (env : Env) :
    copyOut (getModule s .ioctlModule) buf env =
      if !env.copyToUser then returns s (errno EFAULT)
      else .ok ⟨s, 0, some (buf.take bufLen)⟩ := by
  change (if !env.copyToUser then returns (putModule (getModule s .ioctlModule) .ioctlModule)
      (errno EFAULT)
    else .ok ⟨putModule (getModule s .ioctlModule) .ioctlModule, 0, some (buf.take bufLen)⟩) = _
  rw [putModule_getModule]

theorem copyOut_getModule {buf : List UInt8}
    (h : copyOut (getModule s .ioctlModule) buf env = .ok result) : result.state = s := by
  rw [copyOut_eq] at h
  cases hcopy : env.copyToUser <;> rw [hcopy] at h <;> cases h <;> rfl

/-- With plain names, setting a vector that is found leaves the vector held before alone. -/
theorem customIoctl_set_found {v : StructVector} (hplain : PlainNames s.registry)
    (hread : NameRead env) (hv : s.registry.lookup (nameKey param) = some v)
    (ha : v.overriddenSyscallsAddress ≠ 0) :
    customIoctl s current IOCTL_SET param env =
      returns (({ s with registry := s.registry.adjust (nameKey param) 1 } : State).setVectorInfo
        current v.overriddenSyscallsAddress) 0 := by
  rw [customIoctl_set hread, hv]
  dsimp only
  rw [if_neg ha, setVectorInfo_setVectorInfo,
    ifAssignedReduce_plain ((hplain.adjust _ _).getModule (s := { s with
      registry := s.registry.adjust (nameKey param) 1 }) .ioctlModule),
    putModule_setVectorInfo, putModule_getModule]

theorem customIoctl_set_effect (hplain : PlainNames s.registry) (hread : NameRead env)
    (h : customIoctl s current IOCTL_SET param env = .ok result) :
    IoctlEffect s current IOCTL_SET param env result := by
  cases hv : s.registry.lookup (nameKey param) with
  | none =>
    rw [customIoctl_set hread, hv] at h
    cases h
    exact .unchanged ..
  | some v =>
    by_cases ha : v.overriddenSyscallsAddress = 0
    · rw [customIoctl_set hread, hv] at h
      dsimp only at h
      rw [if_pos ha] at h
      cases h
      exact .setNull rfl hread hv ha
    · rw [customIoctl_set_found hplain hread hv ha] at h
      cases h
      exact .set rfl hread hv ha

theorem customIoctl_remove_effect (hread : NameRead env)
    (h : customIoctl s current IOCTL_REMOVE param env = .ok result) :
    IoctlEffect s current IOCTL_REMOVE param env result := by
  rw [customIoctl_remove hread] at h
  cases hv : s.registry.lookup (nameKey param) with
  | none =>
    rw [hv] at h
    cases h
    exact .unchanged ..
  | some v =>
    rw [hv] at h
    dsimp only at h
    by_cases hneg : (v.addRef (-1)).refcount < 0
    · rw [if_pos hneg] at h
      cases h
      exact .removeDeficit rfl hread hv hneg
    · rw [if_neg hneg] at h
      cases h
      exact .remove rfl hread hv hneg

theorem customIoctl_create_effect (hread : BitmapRead env)
    (hvalid : validateBitmap param.userBitmap = 0)
    (h : customIoctl s current IOCTL_CREATE_FROM_BITMAP param env = .ok result) :
    IoctlEffect s current IOCTL_CREATE_FROM_BITMAP param env result := by
  rw [customIoctl_create hread hvalid] at h
  cases hadd : addVectorFromBitmap s current param.userBitmap env with
  | error fault => rw [hadd] at h; cases h
  | ok p =>
    rw [hadd] at h
    cases h
    exact .create rfl hread hvalid (addVectorFromBitmap_cases hadd)

/-- A name that does not reach the kernel leaves nothing behind. -/
theorem customIoctl_name_unread (hreq : request = IOCTL_SET ∨ request = IOCTL_REMOVE)
    (hread : ¬NameRead env) (h : customIoctl s current request param env = .ok result) :
    result.state = s := by
  by_cases hbuf : env.buf = 0
  · rw [customIoctl_noBuffer hbuf] at h
    cases h
    rfl
  have hunread : env.vectorName = 0 ∨ isErr env.vectorName = true ∨ env.copyFromUser = false := by
    by_contra hall
    push Not at hall
    obtain ⟨hname, herr, hcopy⟩ := hall
    exact hread ⟨hbuf, hname, by simpa using herr, by simpa using hcopy⟩
  have hput : putModule (getModule s .ioctlModule) .ioctlModule = s := putModule_getModule ..
  by_cases hname : env.vectorName = 0
  · rcases hreq with rfl | rfl <;>
      · simp only [customIoctl, ioctlSet, ioctlRemove, if_neg hbuf, hname] at h
        cases h
        rfl
  · cases herr : isErr env.vectorName with
    | true =>
      rcases hreq with rfl | rfl <;>
        · simp only [customIoctl, ioctlSet, ioctlRemove, if_neg hbuf, if_neg hname, herr] at h
          cases h
          rfl
    | false =>
      have hcopy : env.copyFromUser = false := by simpa [hname, herr] using hunread
      rcases hreq with rfl | rfl <;>
        · simp only [customIoctl, ioctlSet, ioctlRemove, if_neg hbuf, if_neg hname, herr,
            hcopy] at h
          cases h
          exact hput

/-- A bitmap that does not reach the kernel, or is refused, leaves nothing behind. -/
theorem customIoctl_bitmap_unread
    (hread : ¬(BitmapRead env ∧ validateBitmap param.userBitmap = 0))
    (h : customIoctl s current IOCTL_CREATE_FROM_BITMAP param env = .ok result) :
    result.state = s := by
  by_cases hbuf : env.buf = 0
  · rw [customIoctl_noBuffer hbuf] at h
    cases h
    rfl
  have hput : putModule (getModule s .ioctlModule) .ioctlModule = s := putModule_getModule ..
  rw [customIoctl_createRequest hbuf, ioctlCreateFromBitmap] at h
  by_cases hbitmap : env.kernelBitmap = 0
  · rw [if_pos hbitmap] at h
    cases h
  · rw [if_neg hbitmap] at h
    cases hcopy : env.copyFromUser with
    | false =>
      rw [hcopy] at h
      cases h
      exact hput
    | true =>
      have hvalid : validateBitmap param.userBitmap ≠ 0 := fun hv =>
        hread ⟨⟨hbuf, hbitmap, hcopy⟩, hv⟩
      simp only [hcopy, Bool.not_true, Bool.false_eq_true, ↓reduceIte, ne_eq, hvalid,
        not_false_eq_true] at h
      cases h
      exact hput

theorem customIoctl_show (hset : request ≠ IOCTL_SET) (hremove : request ≠ IOCTL_REMOVE)
    (hcreate : request ≠ IOCTL_CREATE_FROM_BITMAP)
    (h : customIoctl s current request param env = .ok result) : result.state = s := by
  by_cases hbuf : env.buf = 0
  · rw [customIoctl_noBuffer hbuf] at h
    cases h
    rfl
  rw [customIoctl, if_neg hbuf, if_neg hset, if_neg hremove] at h
  by_cases hall : request = IOCTL_SHOW_ALL
  · rw [if_pos hall] at h
    exact copyOut_getModule h
  · rw [if_neg hall] at h
    by_cases hmine : request = IOCTL_SHOW_MINE
    · rw [if_pos hmine] at h
      exact copyOut_getModule h
    · rw [if_neg hmine] at h
      by_cases hpid : request = IOCTL_VECTOR_FOR_PID
      · rw [if_pos hpid, ioctlVectorForPid] at h
        by_cases hpidBuf : env.pidBuf = 0
        · rw [if_pos hpidBuf] at h
          cases h
        · rw [if_neg hpidBuf] at h
          cases hcopy : env.copyFromUser with
          | false =>
            rw [hcopy] at h
            cases h
            exact putModule_getModule s .ioctlModule
          | true =>
            rw [hcopy, if_neg (by decide)] at h
            split at h
            · cases h
            · exact copyOut_getModule h
      · rw [if_neg hpid, if_neg hcreate] at h
        cases h
        rfl

/-- The inversion of `custom_ioctl`. -/
theorem customIoctl_cases (hplain : PlainNames s.registry)
    (h : customIoctl s current request param env = .ok result) :
    IoctlEffect s current request param env result := by
  have hunchanged (hs : result.state = s) : IoctlEffect s current request param env result := by
    obtain ⟨t, err, copied⟩ := result
    obtain rfl : t = s := hs
    exact .unchanged err copied
  by_cases hset : request = IOCTL_SET
  · subst hset
    by_cases hread : NameRead env
    · exact customIoctl_set_effect hplain hread h
    · exact hunchanged (customIoctl_name_unread (.inl rfl) hread h)
  · by_cases hremove : request = IOCTL_REMOVE
    · subst hremove
      by_cases hread : NameRead env
      · exact customIoctl_remove_effect hread h
      · exact hunchanged (customIoctl_name_unread (.inr rfl) hread h)
    · by_cases hcreate : request = IOCTL_CREATE_FROM_BITMAP
      · subst hcreate
        by_cases hread : BitmapRead env ∧ validateBitmap param.userBitmap = 0
        · exact customIoctl_create_effect hread.1 hread.2 h
        · exact hunchanged (customIoctl_bitmap_unread hread h)
      · exact hunchanged (customIoctl_show hset hremove hcreate h)

end

end SyscallVector.Audit
