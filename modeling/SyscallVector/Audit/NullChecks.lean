import SyscallVector.Audit.Boot
import SyscallVector.Audit.IoctlInversion

/-!
# Pointers that nobody checks

`custom_ioctl` checks its buffer and the copy of a name. It checks neither the task that
`IOCTL_VECTOR_FOR_PID` looks up nor the buffers that this request and
`IOCTL_CREATE_FROM_BITMAP` copy to. Everywhere else a NULL leads to an error number.
-/
namespace SyscallVector.Audit

set_option autoImplicit false

open Lib Model

/-- The task whose pid is in the parameter. -/
def namedTask (s : State) (param : IoctlParam) : Option Address :=
  (findVpid param.userPidBuf.pid).bind s.tasks

/-- One of the objects that a call allocates or looks up itself is NULL. -/
def MeetsNull (s : State) (request : UInt32) (param : IoctlParam) (env : Env) : Prop :=
  env.buf = 0 ∨
    (request = IOCTL_SET ∨ request = IOCTL_REMOVE) ∧ env.vectorName = 0 ∨
    request = IOCTL_VECTOR_FOR_PID ∧
      (env.pidBuf = 0 ∨ env.copyFromUser = true ∧ namedTask s param = none) ∨
    request = IOCTL_CREATE_FROM_BITMAP ∧ env.kernelBitmap = 0

/-- The call follows no NULL, and reports those that it meets. -/
structure NullSafe (s : State) (current : Pid) (request : UInt32) (param : IoctlParam)
    (env : Env) : Prop where
  noFault : customIoctl s current request param env ≠ .error .nullPointer
  reported : MeetsNull s request param env →
    ∃ result, customIoctl s current request param env = .ok result ∧ result.err < 0

/-- None of the pointers that the call does not check is NULL. -/
def UncheckedPresent (s : State) (request : UInt32) (param : IoctlParam) (env : Env) : Prop :=
  env.buf = 0 ∨
    (request = IOCTL_VECTOR_FOR_PID →
      env.pidBuf ≠ 0 ∧ (env.copyFromUser = true → namedTask s param ≠ none)) ∧
    (request = IOCTL_CREATE_FROM_BITMAP → env.kernelBitmap ≠ 0)

/-! ## Creation -/

section
variable {s : State} {current : Pid} {request : UInt32} {param : IoctlParam} {env : Env}
  {fault : Fault}

theorem addSyscallToVector_fault {b : Builder} {syscall : Address} {nr : SyscallNr}
    {func : Handler} (h : addSyscallToVector b syscall nr func = .error fault) :
    fault ≠ .nullPointer := by
  unfold addSyscallToVector at h
  split at h
  · cases h
  · split at h
    · cases h
    · dsimp only at h
      split at h
      · cases h
      · split at h
        · rename_i hlast
          cases h
          exact lastCell_fault hlast
        · cases h

theorem addBranches_fault {bitmap : UInt32} {kmalloc : Nat → Address} {k : Nat}
    {rows : List (UInt32 × SyscallNr × Handler)} {b : Builder} {ret : UInt64}
    (h : addBranches bitmap kmalloc k rows b ret = .error fault) : fault ≠ .nullPointer := by
  induction rows generalizing k b ret with
  | nil => cases h
  | cons row rows ih =>
    obtain ⟨bit, nr, func⟩ := row
    rw [addBranches] at h
    split at h
    · split at h
      · rename_i hadd
        cases h
        exact addSyscallToVector_fault hadd
      · dsimp only at h
        split at h
        · cases h
        · exact ih h
    · exact ih h

theorem deleteVector_fault {heap : Heap} {p : Address} (h : deleteVector heap p = .error fault) :
    fault ≠ .nullPointer := by
  rw [deleteVector] at h
  split at h
  · cases h
  · exact freeCells_fault h

theorem undoVector_fault {ret : UInt64} (h : undoVector s ret = .error fault) :
    fault ≠ .nullPointer := by
  rw [undoVector] at h
  split at h
  · rename_i hdelete
    cases h
    exact deleteVector_fault hdelete
  · cases h

/-- A creation that goes wrong has followed a pointer of its chain. -/
theorem addVectorFromBitmap_fault {bitmap : UInt32}
    (h : addVectorFromBitmap s current bitmap env = .error fault) : fault ≠ .nullPointer := by
  rw [addVectorFromBitmap_eq] at h
  split at h
  · cases h
  · split at h
    · cases h
    · split at h
      · exact undoVector_fault h
      · split at h
        · rename_i hadd
          cases h
          exact addBranches_fault hadd
        · dsimp only at h
          split at h
          · exact undoVector_fault h
          · cases h

/-! ## The requests -/

theorem copyOut_returns (s : State) (buf : List UInt8) (env : Env) :
    ∃ result, copyOut s buf env = .ok result := by
  rw [copyOut]
  split <;> exact ⟨_, rfl⟩

theorem ifAssignedReduce_heap (s : State) (current : Pid) (env : Env) :
    (ifAssignedReduce s current env).1.heap = s.heap := by
  rw [ifAssignedReduce]
  split
  · rfl
  · split
    · rfl
    · dsimp only
      split <;> rfl

/-- `IOCTL_SET` returns on every path, and has no business with the chains. -/
theorem ioctlSet_returns (s : State) (current : Pid) (param : IoctlParam) (env : Env) :
    ∃ result, ioctlSet s current param env = .ok result ∧ result.state.heap = s.heap := by
  rw [ioctlSet]
  split
  · exact ⟨_, rfl, rfl⟩
  · split
    · exact ⟨_, rfl, rfl⟩
    · dsimp only
      split
      · exact ⟨_, rfl, rfl⟩
      · split
        · exact ⟨_, rfl, rfl⟩
        · exact ⟨_, rfl, ifAssignedReduce_heap ..⟩

theorem ioctlRemove_returns (s : State) (current : Pid) (param : IoctlParam) (env : Env) :
    ∃ result, ioctlRemove s current param env = .ok result ∧ result.state.heap = s.heap := by
  rw [ioctlRemove]
  split
  · exact ⟨_, rfl, rfl⟩
  · split
    · exact ⟨_, rfl, rfl⟩
    · dsimp only
      split
      · exact ⟨_, rfl, rfl⟩
      · split <;> exact ⟨_, rfl, rfl⟩

theorem customIoctl_name_returns (s : State) (current : Pid) (param : IoctlParam)
    (hreq : request = IOCTL_SET ∨ request = IOCTL_REMOVE) (hbuf : env.buf ≠ 0) :
    ∃ result, customIoctl s current request param env = .ok result ∧
      result.state.heap = s.heap := by
  rcases hreq with rfl | rfl
  · rw [customIoctl_setRequest hbuf]
    exact ioctlSet_returns ..
  · rw [customIoctl_removeRequest hbuf]
    exact ioctlRemove_returns ..

/-- A call that returns, and meets no NULL, is safe. -/
theorem NullSafe.of_returns (h : ∃ result, customIoctl s current request param env = .ok result)
    (hnone : ¬MeetsNull s request param env) : NullSafe s current request param env := by
  obtain ⟨result, hcall⟩ := h
  refine ⟨fun hfault => ?_, fun hmeets => absurd hmeets hnone⟩
  rw [hcall] at hfault
  cases hfault

/-- A call that meets a NULL is safe when it returns `-ENOMEM`. -/
theorem NullSafe.of_enomem {t : State} (h : customIoctl s current request param env =
    returns t (errno ENOMEM)) : NullSafe s current request param env := by
  refine ⟨fun hfault => ?_, fun _ => ⟨_, h, (by decide : errno ENOMEM < 0)⟩⟩
  rw [h] at hfault
  cases hfault

theorem nullSafe_name (hreq : request = IOCTL_SET ∨ request = IOCTL_REMOVE) (hbuf : env.buf ≠ 0) :
    NullSafe s current request param env := by
  by_cases hname : env.vectorName = 0
  · refine NullSafe.of_enomem (t := s) ?_
    rcases hreq with rfl | rfl
    · rw [customIoctl_setRequest hbuf, ioctlSet, if_pos hname]
    · rw [customIoctl_removeRequest hbuf, ioctlRemove, if_pos hname]
  · obtain ⟨result, hcall, -⟩ := customIoctl_name_returns s current param hreq hbuf
    refine NullSafe.of_returns ⟨result, hcall⟩ ?_
    rintro (h | ⟨-, h⟩ | ⟨rfl, -⟩ | ⟨rfl, -⟩)
    · exact hbuf h
    · exact hname h
    · exact absurd hreq (by decide)
    · exact absurd hreq (by decide)

theorem nullSafe_pid_iff (hbuf : env.buf ≠ 0) :
    NullSafe s current IOCTL_VECTOR_FOR_PID param env ↔
      env.pidBuf ≠ 0 ∧ (env.copyFromUser = true → namedTask s param ≠ none) := by
  have hmeets (h : MeetsNull s IOCTL_VECTOR_FOR_PID param env) :
      env.pidBuf = 0 ∨ env.copyFromUser = true ∧ namedTask s param = none := by
    rcases h with h | ⟨h, -⟩ | ⟨-, h⟩ | ⟨h, -⟩
    · exact absurd h hbuf
    · exact absurd h (by decide)
    · exact h
    · exact absurd h (by decide)
  have hcall : customIoctl s current IOCTL_VECTOR_FOR_PID param env =
      ioctlVectorForPid s param env := customIoctl_pidRequest hbuf
  rw [ioctlVectorForPid] at hcall
  by_cases hpid : env.pidBuf = 0
  · rw [if_pos hpid] at hcall
    exact iff_of_false (fun h => h.noFault hcall) fun h => h.1 hpid
  · rw [if_neg hpid] at hcall
    cases hcopy : env.copyFromUser with
    | false =>
      rw [hcopy] at hcall hmeets
      refine iff_of_true (NullSafe.of_returns ⟨_, hcall⟩ fun h => ?_)
        ⟨hpid, fun h => absurd h Bool.false_ne_true⟩
      rcases hmeets h with h | h
      · exact hpid h
      · exact absurd h.1 Bool.false_ne_true
    | true =>
      rw [hcopy, if_neg (by decide)] at hcall
      cases htask : namedTask s param with
      | none =>
        rw [namedTask] at htask
        simp only [htask] at hcall
        exact iff_of_false (fun h => h.noFault hcall) fun h => h.2 rfl rfl
      | some info =>
        refine iff_of_true (NullSafe.of_returns ?_ fun h => ?_) ⟨hpid, fun _ => by simp⟩
        · rw [namedTask] at htask
          simp only [htask] at hcall
          rw [hcall]
          exact copyOut_returns ..
        · rcases hmeets h with h | h
          · exact hpid h
          · rw [htask] at h
            exact absurd h.2 (by simp)

/-- With its buffer, a creation goes wrong only along a chain. -/
theorem ioctlCreateFromBitmap_fault {fault : Fault} (hbitmap : env.kernelBitmap ≠ 0)
    (h : ioctlCreateFromBitmap s current param env = .error fault) : fault ≠ .nullPointer := by
  rw [ioctlCreateFromBitmap, if_neg hbitmap] at h
  split at h
  · cases h
  · dsimp only at h
    split at h
    · cases h
    · split at h
      · rename_i hadd
        cases h
        exact addVectorFromBitmap_fault hadd
      · cases h

theorem nullSafe_create_iff (hbuf : env.buf ≠ 0) :
    NullSafe s current IOCTL_CREATE_FROM_BITMAP param env ↔ env.kernelBitmap ≠ 0 := by
  have hcall : customIoctl s current IOCTL_CREATE_FROM_BITMAP param env =
      ioctlCreateFromBitmap s current param env := customIoctl_createRequest hbuf
  by_cases hbitmap : env.kernelBitmap = 0
  · rw [ioctlCreateFromBitmap, if_pos hbitmap] at hcall
    exact iff_of_false (fun h => h.noFault hcall) fun h => h hbitmap
  · refine iff_of_true ⟨fun hfault => ?_, fun h => ?_⟩ hbitmap
    · rw [hcall] at hfault
      exact ioctlCreateFromBitmap_fault hbitmap hfault rfl
    · rcases h with h | ⟨h, -⟩ | ⟨h, -⟩ | ⟨-, h⟩
      · exact absurd h hbuf
      · exact absurd h (by decide)
      · exact absurd h (by decide)
      · exact absurd h hbitmap

theorem nullSafe_other (hbuf : env.buf ≠ 0) (hset : request ≠ IOCTL_SET)
    (hremove : request ≠ IOCTL_REMOVE) (hpid : request ≠ IOCTL_VECTOR_FOR_PID)
    (hcreate : request ≠ IOCTL_CREATE_FROM_BITMAP) : NullSafe s current request param env := by
  refine NullSafe.of_returns ?_ ?_
  · rw [customIoctl, if_neg hbuf, if_neg hset, if_neg hremove]
    split
    · exact copyOut_returns ..
    · split
      · exact copyOut_returns ..
      · exact ⟨_, rfl⟩
  · rintro (h | ⟨h | h, -⟩ | ⟨h, -⟩ | ⟨h, -⟩)
    · exact hbuf h
    · exact hset h
    · exact hremove h
    · exact hpid h
    · exact hcreate h

/-- A call follows no NULL and reports those that it meets if and only if the pointers that
it does not check are not NULL. -/
theorem null_safe_iff (s : State) (current : Pid) (request : UInt32) (param : IoctlParam)
    (env : Env) : NullSafe s current request param env ↔ UncheckedPresent s request param env := by
  by_cases hbuf : env.buf = 0
  · exact iff_of_true (NullSafe.of_enomem (customIoctl_noBuffer hbuf)) (.inl hbuf)
  · rw [UncheckedPresent, or_iff_right hbuf]
    by_cases hpid : request = IOCTL_VECTOR_FOR_PID
    · subst hpid
      have hother : IOCTL_VECTOR_FOR_PID ≠ IOCTL_CREATE_FROM_BITMAP := by decide
      rw [nullSafe_pid_iff hbuf, imp_iff_right rfl]
      exact (and_iff_left fun h => absurd h hother).symm
    · by_cases hcreate : request = IOCTL_CREATE_FROM_BITMAP
      · subst hcreate
        rw [nullSafe_create_iff hbuf, imp_iff_right rfl, and_iff_right]
        exact fun h => absurd h (by decide)
      · refine iff_of_true ?_ ⟨fun h => absurd h hpid, fun h => absurd h hcreate⟩
        by_cases hset : request = IOCTL_SET
        · exact nullSafe_name (.inl hset) hbuf
        · by_cases hremove : request = IOCTL_REMOVE
          · exact nullSafe_name (.inr hremove) hbuf
          · exact nullSafe_other hbuf hset hremove hpid hcreate

/-- No task has the pid 5 after boot. -/
theorem null_not_safe : ¬∀ s current request param env, NullSafe s current request param env := by
  intro hall
  have hsafe := hall sampleBoot task1 IOCTL_VECTOR_FOR_PID ⟨[], ⟨5⟩, 0⟩ (sampleEnv 12288)
  exact hsafe.noFault rfl

end

end SyscallVector.Audit
