import SyscallVector.Audit.ListLock

/-!
# Events alone

With each function that holds `list_lock` as one section, the statements of `custom_ioctl` are
its sections. The statements of any event that nobody interrupts are the event.
-/
namespace SyscallVector.Audit

set_option autoImplicit false

open Lib Model

/-! ## Ioctl calls -/

section
variable {β : Type} {current : Pid} {param : IoctlParam} {env : Env}

theorem sections_ite (c : Prop) [Decidable c] (a b : Statements) :
    Code.sections (if c then a else b) = if c then a.sections else b.sections :=
  apply_ite Code.sections c a b

theorem sections_ifAssignedReduce (next : Statements) :
    (ifAssignedReduceStatements current env next).sections =
      ifAssignedReduceSections current env next.sections := by
  simp only [ifAssignedReduceStatements, fetch, Code.sections, sections_ite,
    reduceRefCountStatements, run_releaseStatements]
  rfl

theorem sections_ioctlSet :
    (ioctlSetStatements current param env).sections = ioctlSetSections current param env := by
  simp only [ioctlSetStatements, tryGetModule, putThisModule, store, sections_ite,
    sections_ifAssignedReduce, getVectorAddressStatements, run_acquireStatements, Code.sections]
  rfl

theorem sections_ioctlRemove :
    (ioctlRemoveStatements current param env).sections = ioctlRemoveSections current param env := by
  simp only [ioctlRemoveStatements, tryGetModule, putThisModule, store, sections_ite,
    reduceRefCountStatements, run_releaseStatements, Code.sections]
  rfl

theorem sections_copyOut (buf : List UInt8) :
    (copyOutStatements buf env).sections = copyOutSections buf env := by
  rw [copyOutStatements, sections_ite]
  rfl

theorem sections_ioctlShowAll :
    (ioctlShowAllStatements env).sections = ioctlShowAllSections env := by
  simp only [ioctlShowAllStatements, tryGetModule, store, fetch, Code.sections, sections_copyOut]
  rfl

theorem sections_ioctlShowMine :
    (ioctlShowMineStatements current env).sections = ioctlShowMineSections current env := by
  simp only [ioctlShowMineStatements, tryGetModule, store, fetch, Code.sections, sections_copyOut]
  rfl

theorem sections_ioctlVectorForPid :
    (ioctlVectorForPidStatements param env).sections = ioctlVectorForPidSections param env := by
  refine congrArg (pinModule .ioctlModule) ?_
  rw [sections_ite, sections_ite]
  split
  · rfl
  · split
    · rfl
    · refine congrArg (Prog.act id) (funext fun s => ?_)
      dsimp only
      cases (findVpid param.userPidBuf.pid).bind s.tasks with
      | none => rfl
      | some info => exact congrArg (Prog.act id) (funext fun s => sections_copyOut _)

theorem sections_building (f : Builder → Except Fault (Builder × β)) (next : β → Statements) :
    (building .dynamicVector f next).sections = onChains f fun x => (next x).sections := by
  refine congrArg (Prog.act (chainsAfter f)) (funext fun s => ?_)
  rw [builtThen, chainsThen]
  cases f ⟨s.heap, s.listHead .dynamicVector⟩ <;> rfl

theorem sections_undo (ret : UInt64) (next : Int32 → Statements) :
    (undoStatements ret next).sections = undoSections ret fun err => (next err).sections :=
  sections_building ..

theorem sections_install {bitmap : UInt32} {name : List UInt8} {va : Address}
    (next : Int32 → Statements) :
    (installStatements current bitmap name va next).sections =
      installSections current bitmap name va fun err => (next err).sections := by
  simp only [installStatements, tryGetModule, store, fetch, registerDynamicSyscallStatements,
    run_addVectorStatements, Code.sections]
  rfl

theorem sections_addVectorFromBitmap {bitmap : UInt32} (next : Int32 → Statements) :
    (addVectorFromBitmapStatements current bitmap env next).sections =
      addVectorSections current bitmap env fun err => (next err).sections := by
  simp only [addVectorFromBitmapStatements, checkAnyCurrentVectorStatements, store, sections_ite,
    run_acquireStatements, sections_undo, sections_building, sections_install, Code.sections]
  rfl

theorem sections_ioctlCreate :
    (ioctlCreateStatements current param env).sections = ioctlCreateSections current param env := by
  simp only [ioctlCreateStatements, tryGetModule, putThisModule, store, sections_ite,
    sections_addVectorFromBitmap, Code.sections]
  rfl

/-- With the functions that hold `list_lock` as one section each, `custom_ioctl` is what its
sections are. -/
theorem sections_customIoctl (current : Pid) (request : UInt32) (param : IoctlParam) (env : Env) :
    (customIoctlStatements current request param env).sections =
      customIoctlSections current request param env := by
  simp only [customIoctlStatements, sections_ite, sections_ioctlSet, sections_ioctlRemove,
    sections_ioctlShowAll, sections_ioctlShowMine, sections_ioctlVectorForPid,
    sections_ioctlCreate]
  rfl

end

/-! ## All events -/

section
variable {s t : State} {β : Type} {current : Pid}

theorem alone_copyProcess (child : Pid) (flags : UInt64) (next : Statements) (s : State) :
    (copyProcessStatements current child flags next).sections.run s =
      next.sections.run (copyProcess s current child flags) := by
  rw [copyProcessStatements, sections_ite, copyProcess]
  split
  · simp only [fetch, store, Code.sections, Prog.run, id, run_incrementStatements]
    rfl
  · rfl

theorem alone_exitTask (s : State) :
    (exitTaskStatements current).sections.run s = (exitTask s current, .ok (0, none)) := by
  simp only [exitTaskStatements, fetch, Code.sections, Prog.run, id, exitTask, sections_ite]
  split
  · rfl
  · simp only [reduceRefCountFromAddressStatements, Prog.run, run_releaseStatements]
    rfl

theorem alone_doFork (flags : UInt64) (addr : Address) (fork : ForkResult) (s : State) :
    (doForkStatements current flags addr fork).sections.run s =
      ((doFork s current flags addr fork).1, .ok ((doFork s current flags addr fork).2, none)) := by
  cases fork with
  | failed err => rfl
  | child pid =>
    rw [doForkStatements, sections_ite, doFork]
    split
    · exact alone_copyProcess ..
    · rfl

theorem alone_sysClone2 (flags i : UInt64) (fork : ForkResult) (s : State) :
    (sysClone2Statements current flags i fork).sections.run s =
      ((sysClone2 s current flags i fork).1,
        .ok ((sysClone2 s current flags i fork).2, none)) := by
  rw [sysClone2Statements, sections_ite, sysClone2]
  split
  · simp only [fetch, Code.sections, Prog.run, id, run_incrementStatements, sections_ite]
    split
    · rfl
    · exact alone_doFork ..
  · simp only [getVectorAddressFromIdStatements, Code.sections, Prog.run, run_acquireStatements]
    exact alone_doFork ..

theorem alone_call (c : Call) (s : State) :
    ∃ result, c.statements.sections.run s =
      ({ s with registry := (c.exec s.registry).1 }, .ok result) := by
  cases c with
  | getVectorAddress n =>
    simp only [Call.statements, getVectorAddressStatements, Code.sections, Prog.run,
      run_acquireStatements]
    exact ⟨_, rfl⟩
  | getVectorAddressFromId b =>
    simp only [Call.statements, getVectorAddressFromIdStatements, Code.sections, Prog.run,
      run_acquireStatements]
    exact ⟨_, rfl⟩
  | checkAnyCurrentVector b =>
    simp only [Call.statements, checkAnyCurrentVectorStatements, Code.sections, Prog.run,
      run_acquireStatements]
    exact ⟨_, rfl⟩
  | incrementRefCountFromAddress a =>
    simp only [Call.statements, Code.sections, Prog.run, run_incrementStatements]
    exact ⟨_, rfl⟩
  | reduceRefCount n =>
    simp only [Call.statements, reduceRefCountStatements, Code.sections, Prog.run,
      run_releaseStatements]
    exact ⟨_, rfl⟩
  | reduceRefCountFromAddress a =>
    simp only [Call.statements, reduceRefCountFromAddressStatements, Code.sections, Prog.run,
      run_releaseStatements]
    exact ⟨_, rfl⟩

theorem run_building {m : Module} {f : Builder → Except Fault (Builder × β)} {b : Builder} {x : β}
    (h : f ⟨s.heap, s.listHead m⟩ = .ok (b, x)) (next : β → Statements) :
    (building m f next).sections.run s =
      (next x).sections.run ({ s with heap := b.heap }.setListHead m b.listHead) := by
  simp only [building, Code.sections, Prog.run, builtThen, builtAfter, h]

theorem run_deleteOwn {m : Module} {heap : Heap} (h : deleteVector s.heap (s.listHead m) = .ok heap)
    (next : Unit → Statements) :
    (building m deleteOwn next).sections.run s =
      (next ()).sections.run ({ s with heap := heap }.setListHead m 0) :=
  run_building (b := ⟨heap, 0⟩) (by rw [deleteOwn, h]; rfl) next

theorem alone_initVector {m : Module} {name : List UInt8} {syscalls : List (SyscallNr × Handler)}
    {bitmap : UInt32} {kmalloc : Nat → Address} {va : Address} {ret : Int32}
    (h : insmod m (initVector (s.setListHead m 0) m name syscalls bitmap kmalloc va) =
      .ok (t, ret)) :
    (initVectorStatements m name syscalls bitmap kmalloc va).sections.run s =
      (t, .ok (ret.toInt64, none)) := by
  simp only [initVectorStatements, store, Code.sections, Prog.run]
  generalize s.setListHead m 0 = s at h
  rw [insmod, initVector] at h
  cases hadd : addSyscalls kmalloc 0 syscalls ⟨s.heap, s.listHead m⟩ with
  | error fault =>
    rw [hadd] at h
    cases h
  | ok built =>
    obtain ⟨b, err⟩ := built
    rw [hadd] at h
    rw [run_building hadd, sections_ite]
    dsimp only at h
    by_cases herr : err < 0
    · rw [if_pos herr] at h ⊢
      cases hdelete : deleteVector ({ s with heap := b.heap }.setListHead m b.listHead).heap
          (({ s with heap := b.heap }.setListHead m b.listHead).listHead m) with
      | error fault =>
        rw [hdelete] at h
        cases h
      | ok heap =>
        rw [hdelete] at h
        rw [run_deleteOwn hdelete]
        cases h
        rfl
    · rw [if_neg herr] at h ⊢
      simp only [fetch, registerSyscallStatements, Code.sections, Prog.run,
        run_addVectorStatements]
      cases h
      rfl

theorem alone_cleanupVector {m : Module} (next : Statements) (h : cleanupVector s m = .ok t) :
    (cleanupVectorStatements m next).sections.run s = next.sections.run t := by
  simp only [cleanupVectorStatements, fetch, Code.sections, Prog.run, id,
    run_unregisterStatements]
  rw [cleanupVector] at h
  cases hdelete : deleteVector s.heap (s.listHead m) with
  | error fault =>
    rw [hdelete] at h
    cases h
  | ok heap =>
    rw [hdelete] at h
    have hown : deleteVector
        ({ s with registry := (unregisterSyscall s.registry (s.listHead m)).1 } : State).heap
        (({ s with registry := (unregisterSyscall s.registry (s.listHead m)).1 } :
          State).listHead m) = .ok heap := hdelete
    rw [run_deleteOwn hown]
    cases h
    rfl

theorem alone_cleanupHeads (next : Statements) {heads : List Address}
    (h : cleanupHeads heads s = .ok t) :
    (cleanupHeadsStatements next heads).sections.run s = next.sections.run t := by
  induction heads generalizing s with
  | nil =>
    cases h
    rfl
  | cons head heads ih =>
    simp only [cleanupHeadsStatements, deleteHead, Code.sections, Prog.run,
      run_unregisterStatements]
    rw [cleanupHeads] at h
    cases hdelete : deleteVector s.heap head with
    | error fault =>
      rw [hdelete] at h
      cases h
    | ok heap =>
      rw [hdelete] at h
      exact ih h

theorem alone_unload {m : Module} (h : rmmod s m = some t) :
    (unloadStatements m).sections.run s = (t, .ok (0, none)) := by
  obtain ⟨-, -, -, u, rfl, ⟨rfl, w, hheads, rfl⟩ | ⟨rfl | rfl, hclean⟩⟩ := rmmod_cases h
  · exact alone_cleanupHeads _ hheads
  · exact alone_cleanupVector _ hclean
  · exact alone_cleanupVector _ hclean

theorem alone_customIoctl {request : UInt32} {param : IoctlParam} {env : Env}
    {result : IoctlResult} (h : customIoctl s current request param env = .ok result) :
    ∃ returned, (customIoctlStatements current request param env).sections.run s =
      (result.state, .ok returned) := by
  have houtcome := outcome_customIoctl s current request param env
  rw [← sections_customIoctl, h] at houtcome
  generalize (customIoctlStatements current request param env).sections.run s = x at houtcome
  obtain ⟨u, returned⟩ := x
  cases returned with
  | error fault => cases houtcome
  | ok returned =>
    cases houtcome
    exact ⟨returned, rfl⟩

/-- Run alone, the statements of an event that can happen are the event. -/
theorem statements_alone {op : SessionOp} (h : sessionStep s op = some t) :
    ∃ returned, op.statements.sections.run s = (t, .ok returned) := by
  cases op with
  | system op =>
    cases op with
    | ioctl current request param env =>
      obtain ⟨-, -, result, hcall, rfl⟩ := step_ioctl h
      exact alone_customIoctl hcall
    | copyProcess current child flags =>
      obtain ⟨-, h⟩ := Option.ite_none_right_eq_some.mp h
      obtain rfl := Option.some.inj h
      exact ⟨_, alone_copyProcess child flags _ s⟩
    | exit current =>
      obtain ⟨-, h⟩ := Option.ite_none_left_eq_some.mp h
      obtain rfl := Option.some.inj h
      exact ⟨_, alone_exitTask s⟩
    | call c =>
      obtain rfl := Option.some.inj h
      exact alone_call c s
    | unregister a =>
      obtain rfl := Option.some.inj h
      simp only [SessionOp.statements, Code.sections, Prog.run, run_unregisterStatements]
      exact ⟨_, rfl⟩
    | rmmod m => exact ⟨_, alone_unload h⟩
  | insmod m kmalloc va =>
    obtain ⟨hcan, h⟩ := Option.ite_none_left_eq_some.mp h
    obtain ⟨⟨u, ret⟩, hload, rfl⟩ := Option.map_eq_some_iff.mp h
    have hload : load s m kmalloc va = .ok (u, ret) := by
      cases hr : load s m kmalloc va with
      | error fault =>
        rw [hr] at hload
        cases hload
      | ok r =>
        rw [hr] at hload
        exact congrArg Except.ok (Option.some.inj hload)
    cases m with
    | vector1 | vector2 => exact ⟨_, alone_initVector hload⟩
    | dynamicVector =>
      cases hload
      exact ⟨_, rfl⟩
    | ioctlModule => exact absurd (.inl rfl) hcan
  | clone current flags i fork =>
    obtain ⟨-, h⟩ := Option.ite_none_right_eq_some.mp h
    obtain rfl := Option.some.inj h
    exact ⟨_, alone_sysClone2 flags i fork s⟩
  | forkFails current flags ioContext mm failed err =>
    obtain ⟨-, h⟩ := Option.ite_none_right_eq_some.mp h
    obtain rfl := Option.some.inj h
    simp only [SessionOp.statements, copyProcessFailsStatements, copyProcessFails_state,
      cloneSyscallsBlock, sections_ite]
    split
    · simp only [fetch, Code.sections, Prog.run, id, run_incrementStatements]
      exact ⟨_, rfl⟩
    · exact ⟨_, rfl⟩

end

end SyscallVector.Audit
