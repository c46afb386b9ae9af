import SyscallVector.Audit.CloneAccounting
import SyscallVector.Audit.Loading
import SyscallVector.Audit.UseAfterFree

/-!
# Events of a session

Clones and forks that fail, inverted like the other events, and what every session keeps from
its first load on.
-/
namespace SyscallVector.Audit

set_option autoImplicit false

open Lib Model

section
variable {s t : State} {current child : Pid} {flags id : UInt64} {fork : ForkResult}

/-! ## Clones -/

/-- What `sys_clone2` searches for. -/
def cloneKey (s : State) (current : Pid) (flags id : UInt64) : Key :=
  if flags &&& CLONE_SYSCALLS ≠ 0 then infoKey s current else .bitmap id.toUInt32

/-- What `sys_clone2` can do. -/
inductive CloneOutcome (s : State) (current : Pid) (flags id : UInt64) : ForkResult → State → Prop
  | refused {fork : ForkResult} : flags &&& CLONE_SYSCALLS ≠ 0 →
      s.registry.lookup (infoKey s current) = none → CloneOutcome s current flags id fork s
  | failed (err : Int64) :
      CloneOutcome s current flags id (.failed err)
        { s with registry := s.registry.adjust (cloneKey s current flags id) 1 }
  | inherited {child : Pid} {v : StructVector} : flags &&& CLONE_SYSCALLS ≠ 0 →
      s.registry.lookup (infoKey s current) = some v →
      CloneOutcome s current flags id (.child child)
        { s with
          registry := (s.registry.adjust (infoKey s current) 1).adjust (infoKey s current) 1
          tasks := Function.update s.tasks child (some (s.vectorInfo current)) }
  | byId {child : Pid} : ¬flags &&& CLONE_SYSCALLS ≠ 0 →
      CloneOutcome s current flags id (.child child)
        { s with
          registry := s.registry.adjust (.bitmap id.toUInt32) 1
          tasks := Function.update s.tasks child (some (vectorById s id)) }

theorem sysClone2_cases (s : State) (current : Pid) (flags id : UInt64) (fork : ForkResult) :
    CloneOutcome s current flags id fork (sysClone2 s current flags id fork).1 := by
  by_cases hflags : flags &&& CLONE_SYSCALLS ≠ 0
  · cases hv : s.registry.lookup (infoKey s current) with
    | none =>
      rw [sysClone2_unregistered hflags hv]
      exact .refused hflags hv
    | some v =>
      cases fork with
      | failed err =>
        have hkey : cloneKey s current flags id = infoKey s current := if_pos hflags
        rw [sysClone2_inherit hflags hv, doFork, ← hkey]
        exact .failed err
      | child pid =>
        rw [sysClone2_inherit_child hflags hv]
        exact .inherited hflags hv
  · cases fork with
    | failed err =>
      have hkey : cloneKey s current flags id = .bitmap id.toUInt32 := if_neg hflags
      rw [sysClone2_byId hflags, doFork, ← hkey]
      exact .failed err
    | child pid =>
      rw [sysClone2_byId_child hflags]
      exact .byId hflags

theorem sessionStep_clone (h : sessionStep s (.clone current flags id fork) = some t) :
    (∃ a, s.tasks current = some a) ∧ fork.Free s ∧ CloneOutcome s current flags id fork t := by
  rw [sessionStep] at h
  split at h
  case isTrue hcan =>
    obtain rfl := Option.some.inj h
    exact ⟨Option.isSome_iff_exists.mp hcan.1, hcan.2, sysClone2_cases ..⟩
  case isFalse => cases h

/-! ## Forks that fail -/

theorem sessionStep_forkFails {ioContext mm : Bool} {failed : ForkStep} {err : Int64}
    (h : sessionStep s (.forkFails current flags ioContext mm failed err) = some t) :
    (∃ a, s.tasks current = some a) ∧
      t = if flags &&& CLONE_SYSCALLS ≠ 0 then
          { s with registry := s.registry.adjust (infoKey s current) 1 }
        else s := by
  rw [sessionStep] at h
  split at h
  case isTrue hlive =>
    rw [copyProcessFails_state] at h
    exact ⟨Option.isSome_iff_exists.mp hlive, (Option.some.inj h).symm⟩
  case isFalse => cases h

/-! ## What a session keeps -/

/-- The events that neither load nor unload, and are no ioctl calls, only move counts and
pointers. -/
theorem cloneOutcome_moves (h : CloneOutcome s current flags id fork t) :
    ∃ registry tasks, t = { s with registry := registry, tasks := tasks } ∧
      (Named s.registry → Named registry) := by
  cases h with
  | refused => exact ⟨s.registry, s.tasks, rfl, fun h => h⟩
  | failed => exact ⟨_, s.tasks, rfl, fun h => h.adjust _ 1⟩
  | inherited => exact ⟨_, _, rfl, fun h => (h.adjust _ 1).adjust _ 1⟩
  | byId => exact ⟨_, _, rfl, fun h => h.adjust _ 1⟩

theorem wellNamed_staticEntry (m : Module) (a : Address) : WellNamed (staticEntry m a) := by
  rw [staticEntry]
  split
  · exact wellNamed_bootVector1 a
  · exact wellNamed_bootVector2 a

theorem loadOutcome_idle {m : Module} {lost : List Address} (hs : Idle s)
    (h : LoadOutcome s m t lost) : Idle t := by
  have hother (hm : m = .vector1 ∨ m = .vector2) (a : Address) :
      Function.update s.listHead m a .dynamicVector = 0 := by
    refine (Function.update_of_ne ?_ ..).trans hs.listHead
    rcases hm with rfl | rfl <;> decide
  cases h with
  | dynamic =>
    have hhead : (insmodDynamicVector s).listHead .dynamicVector = 0 := by
      simp [insmodDynamicVector, State.setListHead]
    exact ⟨hs.named, hhead⟩
  | undone hm => exact ⟨hs.named, hother hm 0⟩
  | unregistered hm => exact ⟨hs.named, hother hm _⟩
  | registered hm => exact ⟨hs.named.push (wellNamed_staticEntry m _), hother hm _⟩

theorem sessionStep_idle {op : SessionOp} (hs : Idle s) (hfresh : op.Fresh s)
    (h : sessionStep s op = some t) : Idle t := by
  cases op with
  | system op => exact step_idle hs h
  | insmod m node va => exact loadOutcome_idle hs (sessionStep_insmod hfresh h).2
  | clone current flags id fork =>
    obtain ⟨-, -, houtcome⟩ := sessionStep_clone h
    obtain ⟨registry, tasks, rfl, hnamed⟩ := cloneOutcome_moves houtcome
    exact ⟨hnamed hs.named, hs.listHead⟩
  | forkFails current flags =>
    obtain ⟨-, rfl⟩ := sessionStep_forkFails h
    split
    · exact ⟨hs.named.adjust _ 1, hs.listHead⟩
    · exact hs

theorem kernelState_idle (live : Pid → Bool) : Idle (kernelState live) :=
  ⟨fun _ hv => absurd hv List.not_mem_nil, rfl⟩

end

end SyscallVector.Audit
