import SyscallVector.Model.System

/-!
# What one event can do

A step that is defined tells what was the case before it: the task that calls is live,
the pid of a child is free, the module that is unloaded has no references. Each event is
inverted once here, and what it does is stated by the state before it.
-/
namespace SyscallVector.Audit

set_option autoImplicit false

open Lib Model

/-! ## Tasks -/

section
variable {s t : State} {current : Pid}

/-- An ioctl event, inverted through the call it makes. -/
theorem step_ioctl {request : UInt32} {param : IoctlParam} {env : Env}
    (h : step s (.ioctl current request param env) = some t) :
    (∃ a, s.tasks current = some a) ∧
      (request = IOCTL_CREATE_FROM_BITMAP → s.loaded .dynamicVector = true) ∧
      ∃ result, customIoctl s current request param env = .ok result ∧ result.state = t := by
  rw [step] at h
  cases hlive : s.tasks current with
  | none => simp [hlive] at h
  | some a =>
    rw [if_neg (by simp [hlive])] at h
    by_cases hload : request = IOCTL_CREATE_FROM_BITMAP ∧ s.loaded .dynamicVector = false
    · rw [if_pos hload] at h
      cases h
    · rw [if_neg hload] at h
      refine ⟨⟨a, rfl⟩, fun hreq => by simpa [hreq] using hload, ?_⟩
      cases hcall : customIoctl s current request param env with
      | error fault => rw [hcall] at h; cases h
      | ok result =>
        rw [hcall] at h
        exact ⟨result, rfl, Option.some.inj h⟩

theorem step_copyProcess {child : Pid} {flags : UInt64}
    (h : step s (.copyProcess current child flags) = some t) :
    (∃ a, s.tasks current = some a) ∧ s.tasks child = none ∧
      t = copyProcess s current child flags := by
  rw [step] at h
  split at h
  case isTrue hlive =>
    exact ⟨Option.isSome_iff_exists.mp hlive.1, by simpa using hlive.2, (Option.some.inj h).symm⟩
  case isFalse => cases h

theorem step_exit (h : step s (.exit current) = some t) :
    (∃ a, s.tasks current = some a) ∧ t = exitTask s current := by
  rw [step] at h
  split at h
  case isTrue => cases h
  case isFalse hlive =>
    refine ⟨?_, (Option.some.inj h).symm⟩
    cases htask : s.tasks current with
    | none => rw [htask] at hlive; exact absurd rfl hlive
    | some a => exact ⟨a, rfl⟩

/-- A fork of a task with the pointer `a`. -/
theorem copyProcess_live {a : Address} (h : s.tasks current = some a) (child : Pid)
    (flags : UInt64) :
    copyProcess s current child flags =
      if flags &&& CLONE_SYSCALLS ≠ 0 then
        { s with
          registry := s.registry.adjust (.address a) 1
          tasks := Function.update s.tasks child (some a) }
      else { s with tasks := Function.update s.tasks child (some 0) } := by
  rw [copyProcess, State.vectorInfo_of_live h]
  rfl

/-- The end of a task with the pointer `a`. -/
theorem exitTask_live {a : Address} (h : s.tasks current = some a) :
    exitTask s current =
      { s with
        registry := if a = 0 then s.registry else s.registry.adjust (.address a) (-1)
        tasks := Function.update s.tasks current none } := by
  rw [exitTask, State.vectorInfo_of_live h]
  rfl

/-! ## Unloading -/

theorem cleanupVector_ok {m : Module} (h : cleanupVector s m = .ok t) :
    ∃ heap, deleteVector s.heap (s.listHead m) = .ok heap ∧
      ({ s with
        registry := (unregisterSyscall s.registry (s.listHead m)).1
        heap := heap } : State).setListHead m 0 = t := by
  unfold cleanupVector at h
  dsimp only at h
  split at h
  case h_1 => cases h
  case h_2 heap hdel =>
    cases h
    exact ⟨heap, hdel, rfl⟩

/-- What each round of the loop over `list_heads` preserves. -/
theorem cleanupHeads_invariant {heads : List Address} (P : State → Prop)
    (hround : ∀ s a heap, P s →
      P { s with registry := (unregisterSyscall s.registry a).1, heap := heap })
    (hs : P s) (h : cleanupHeads heads s = .ok t) : P t := by
  induction heads generalizing s with
  | nil =>
    cases h
    exact hs
  | cons head heads ih =>
    rw [cleanupHeads] at h
    cases hdel : deleteVector s.heap head with
    | error fault => simp only [hdel] at h; cases h
    | ok heap =>
      simp only [hdel] at h
      exact ih (hround s head heap hs) h

/-- A module that is unloaded is not needed and has no references, and its exit function has
returned. -/
theorem rmmod_cases {m : Module} (h : rmmod s m = some t) :
    s.loaded m = true ∧ s.needed m = false ∧ s.registry.moduleRefs m = 0 ∧
      ∃ u, { u with loaded := Function.update u.loaded m false } = t ∧
        ((m = .dynamicVector ∧
            ∃ w, cleanupHeads s.listHeads s = .ok w ∧ { w with listHeads := [] } = u) ∨
          (m = .vector1 ∨ m = .vector2) ∧ cleanupVector s m = .ok u) := by
  have hok {r : Except Fault State} {u : State} (hr : r.toOption = some u) : r = .ok u := by
    cases r with
    | error fault => cases hr
    | ok w => exact congrArg Except.ok (Option.some.inj hr)
  unfold rmmod at h
  split at h
  case isFalse => cases h
  case isTrue hcan =>
    refine ⟨hcan.1, hcan.2.1, hcan.2.2, ?_⟩
    cases m with
    | vector1 =>
      obtain ⟨u, hu, hut⟩ := Option.map_eq_some_iff.mp h
      exact ⟨u, hut, .inr ⟨.inl rfl, hok hu⟩⟩
    | vector2 =>
      obtain ⟨u, hu, hut⟩ := Option.map_eq_some_iff.mp h
      exact ⟨u, hut, .inr ⟨.inr rfl, hok hu⟩⟩
    | ioctlModule => cases h
    | dynamicVector =>
      obtain ⟨u, hu, hut⟩ := Option.map_eq_some_iff.mp h
      have hclean := hok hu
      unfold cleanupDynamicVector at hclean
      cases hheads : cleanupHeads s.listHeads s with
      | error fault => rw [hheads] at hclean; cases hclean
      | ok w =>
        rw [hheads] at hclean
        exact ⟨u, hut, .inl ⟨rfl, w, rfl, Except.ok.inj hclean⟩⟩

end

end SyscallVector.Audit
