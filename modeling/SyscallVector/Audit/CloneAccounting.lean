import SyscallVector.Audit.FailedRequest
import SyscallVector.Model.Fork
import SyscallVector.Model.SysClone2

/-!
# References taken by clone

`sys_clone2` and the `CLONE_SYSCALLS` block of `copy_process` each take a reference
for the child, and neither gives one back. A child that inherits its parent's vector is
therefore counted twice, one that gets a vector by id once, and one whose creation
fails is counted all the same.
-/
namespace SyscallVector.Audit

set_option autoImplicit false

open Lib Model

/-- The count of the vector with the chain `a` is one higher, and no other count moved. -/
structure RaisedAt (a : Address) (r r' : Registry) : Prop where
  entries : r'.vecList = r.vecList.map (moveAt a 1)
  exact : ∀ v ∈ r.vecList, v.overriddenSyscallsAddress = a →
    (v.addRef 1).refcount.toInt = v.refcount.toInt + 1

/-- The child is counted once, and inherits when it is to share the calls of its parent. -/
structure ChildCounted (s t : State) (current child : Pid) (flags : UInt64) : Prop where
  held : ∃ a, t.tasks child = some a ∧ RaisedAt a s.registry t.registry
  inherited : flags &&& CLONE_SYSCALLS ≠ 0 → t.tasks child = s.tasks current

section
variable {r : Registry} {k : Key} {v : StructVector} {a : Address}

theorem distinctAddresses_of_nodup (h : (addresses r).Nodup) : DistinctAddresses r := by
  refine List.Pairwise.imp ?_ h
  intro a b hne _
  exact hne

theorem RaisedAt.null (h : (0 : Address) ∉ addresses r) : RaisedAt 0 r r := by
  have hne : ∀ v ∈ r.vecList, v.overriddenSyscallsAddress ≠ 0 := fun v hv h0 =>
    h (h0 ▸ mem_addresses hv)
  refine ⟨?_, fun v hv h0 => absurd h0 (hne v hv)⟩
  conv_lhs => rw [← List.map_id r.vecList]
  exact List.map_congr_left fun v hv => (moveAt_of_ne 1 (hne v hv)).symm

/-- Taking one reference raises the count of the vector found, and no other. -/
theorem raisedAt_adjust_iff (h : DistinctAddresses r) (hv : r.lookup k = some v)
    (h0 : v.overriddenSyscallsAddress ≠ 0) :
    RaisedAt a r (r.adjust k 1) ↔
      v.overriddenSyscallsAddress = a ∧ v.refcount ≠ Int32.maxValue := by
  have hmap := h.adjust_eq_map hv h0 1
  constructor
  · rintro ⟨hentries, hexact⟩
    have hmem := lookup_mem hv
    rw [hmap] at hentries
    have hat := List.map_inj_left.mp hentries v hmem
    rw [moveAt_self 1 rfl] at hat
    have ha : v.overriddenSyscallsAddress = a := by
      by_contra hne
      rw [moveAt_of_ne 1 hne] at hat
      exact addRef_ne_self (by decide) v hat
    exact ⟨ha, (toInt_addRef_one_iff v).mp (hexact v hmem ha)⟩
  · rintro ⟨rfl, hmax⟩
    refine ⟨hmap, fun w hw he => ?_⟩
    rw [h.eq_of_address (lookup_mem hv) hw h0 he]
    exact (toInt_addRef_one_iff v).mpr hmax

/-- Two references to one vector are one too many. -/
theorem not_raisedAt_twice (h : DistinctAddresses r) (hv : r.lookup (.address a) = some v)
    (h0 : a ≠ 0) : ¬RaisedAt a r ((r.adjust (.address a) 1).adjust (.address a) 1) := by
  rintro ⟨hentries, -⟩
  have ha := lookup_address hv
  have hmap := h.adjust_eq_map hv (ha.symm ▸ h0) 1
  have hmem : v.addRef 1 ∈ (r.adjust (.address a) 1).vecList := by
    rw [hmap]
    exact List.mem_map.mpr ⟨v, lookup_mem hv, moveAt_self 1 rfl⟩
  obtain ⟨w, hw⟩ := lookup_ne_none (k := .address a) hmem
    ((Key.isMatch_addRef _ 1 v).trans (lookup_isMatch hv))
  have hmap' := (h.adjust (.address a) 1).adjust_eq_map hw ((lookup_address hw).symm ▸ h0) 1
  rw [hmap', hmap, lookup_address hw, ha, List.map_map] at hentries
  have hat := List.map_inj_left.mp hentries v (lookup_mem hv)
  rw [Function.comp_apply, moveAt_self 1 ha, moveAt_addRef, if_pos ha] at hat
  exact addRef_ne_addRef (by decide) v hat

end

/-! ## What `sys_clone2` comes to -/

section
variable {s : State} {current : Pid} {flags : UInt64}

/-- The search for the vector of the caller. -/
abbrev infoKey (s : State) (current : Pid) : Key := .address (s.vectorInfo current)

/-- With `CLONE_SYSCALLS`, a clone fails when the vector of the parent is not registered. -/
theorem sysClone2_unregistered (hflags : flags &&& CLONE_SYSCALLS ≠ 0)
    (hv : s.registry.lookup (infoKey s current) = none) (id : UInt64) (fork : ForkResult) :
    sysClone2 s current flags id fork = (s, -1) := by
  rw [sysClone2, if_pos hflags, incrementRefCountFromAddress, hv, adjust_none hv]
  rfl

/-- Otherwise the fork follows one reference to that vector. -/
theorem sysClone2_inherit {v : StructVector} (hflags : flags &&& CLONE_SYSCALLS ≠ 0)
    (hv : s.registry.lookup (infoKey s current) = some v) (id : UInt64) (fork : ForkResult) :
    sysClone2 s current flags id fork =
      doFork { s with registry := s.registry.adjust (infoKey s current) 1 } current flags 0
        fork := by
  rw [sysClone2, if_pos hflags, incrementRefCountFromAddress, hv]
  rfl

/-- Without the flag, it follows the search for the id. -/
theorem sysClone2_byId (hflags : ¬flags &&& CLONE_SYSCALLS ≠ 0) (id : UInt64)
    (fork : ForkResult) :
    sysClone2 s current flags id fork =
      doFork { s with registry := s.registry.adjust (.bitmap id.toUInt32) 1 } current flags
        (if foundChain s id.toUInt32 = 0 then -1 else foundChain s id.toUInt32) fork := by
  rw [sysClone2, if_neg hflags]
  rfl

/-- The vector that a child gets by id; the two addresses that stand for none are lost. -/
def vectorById (s : State) (id : UInt64) : Address :=
  if foundChain s id.toUInt32 = -1 then 0 else foundChain s id.toUInt32

variable {child : Pid}

/-- A child that inherits is counted by `sys_clone2` and again by `copy_process`. -/
theorem sysClone2_inherit_child {v : StructVector} (hflags : flags &&& CLONE_SYSCALLS ≠ 0)
    (hv : s.registry.lookup (infoKey s current) = some v) (id : UInt64) :
    sysClone2 s current flags id (.child child) =
      ({ s with
        registry := (s.registry.adjust (infoKey s current) 1).adjust (infoKey s current) 1
        tasks := Function.update s.tasks child (some (s.vectorInfo current)) },
        Int64.ofNat child.1.val) := by
  rw [sysClone2_inherit hflags hv, doFork]
  dsimp only
  rw [if_pos hflags, copyProcess, if_pos hflags]
  rfl

theorem sysClone2_byId_child (hflags : ¬flags &&& CLONE_SYSCALLS ≠ 0) (id : UInt64) :
    sysClone2 s current flags id (.child child) =
      ({ s with
        registry := s.registry.adjust (.bitmap id.toUInt32) 1
        tasks := Function.update s.tasks child (some (vectorById s id)) },
        Int64.ofNat child.1.val) := by
  rw [sysClone2_byId hflags, doFork]
  dsimp only
  rw [if_neg hflags, vectorById]
  by_cases h0 : foundChain s id.toUInt32 = 0
  · rw [if_pos h0, h0, if_pos rfl, if_neg (by decide)]
  · rw [if_neg h0]

theorem pid_nonneg (p : Pid) : (0 : Int64) ≤ Int64.ofNat p.1.val := by
  have hlt := p.1.isLt
  rw [Int64.le_iff_toInt_le, Int64.toInt_ofNat_of_lt (by omega), Int64.toInt_zero]
  exact Int.natCast_nonneg _

/-! ## Clones that succeed -/

theorem childCounted_iff {r : Registry} {x : Address} :
    ChildCounted s
        { s with registry := r, tasks := Function.update s.tasks child (some x) } current child
        flags ↔
      RaisedAt x s.registry r ∧ (flags &&& CLONE_SYSCALLS ≠ 0 → s.tasks current = some x) := by
  have hself : Function.update s.tasks child (some x) child = some x := Function.update_self ..
  constructor
  · rintro ⟨⟨y, hy, hraised⟩, hinherited⟩
    obtain rfl : x = y := Option.some.inj (hself.symm.trans hy)
    exact ⟨hraised, fun h => (hinherited h).symm.trans hself⟩
  · rintro ⟨hraised, hinherited⟩
    exact ⟨⟨x, hself, hraised⟩, fun h => hself.trans (hinherited h).symm⟩

/-- When it succeeds, `sys_clone2` counts the child exactly once if and only if the child
does not inherit, and the vector with the given id can be told from "no vector" and has a
count that can still grow. -/
theorem clone_counts_child_iff {s : State} (hdistinct : (addresses s.registry).Nodup)
    (hnull : (0 : Address) ∉ addresses s.registry) (current child : Pid) (flags id : UInt64) :
    (0 ≤ (sysClone2 s current flags id (.child child)).2 →
        ChildCounted s (sysClone2 s current flags id (.child child)).1 current child flags) ↔
      if flags &&& CLONE_SYSCALLS ≠ 0 then s.registry.lookup (infoKey s current) = none
      else ∀ v, s.registry.lookup (.bitmap id.toUInt32) = some v →
        v.overriddenSyscallsAddress ≠ -1 ∧ v.refcount ≠ Int32.maxValue := by
  have hd := distinctAddresses_of_nodup hdistinct
  have hne {k : Key} {v : StructVector} (hv : s.registry.lookup k = some v) :
      v.overriddenSyscallsAddress ≠ 0 := fun h0 => hnull (h0 ▸ mem_addresses (lookup_mem hv))
  by_cases hflags : flags &&& CLONE_SYSCALLS ≠ 0
  · rw [if_pos hflags]
    cases hv : s.registry.lookup (infoKey s current) with
    | none =>
      rw [sysClone2_unregistered hflags hv]
      exact iff_of_true (fun h => absurd h (by decide : ¬(0 : Int64) ≤ -1)) rfl
    | some v =>
      rw [sysClone2_inherit_child hflags hv, childCounted_iff]
      refine iff_of_false (fun h => ?_) (by simp)
      exact not_raisedAt_twice hd hv (lookup_address hv ▸ hne hv) (h (pid_nonneg child)).1
  · rw [if_neg hflags, sysClone2_byId_child hflags, childCounted_iff,
      and_iff_left fun h => absurd h hflags]
    refine (imp_iff_right (pid_nonneg child)).trans ?_
    cases hv : s.registry.lookup (.bitmap id.toUInt32) with
    | none =>
      have hnone : vectorById s id = 0 := by
        rw [vectorById, foundChain, hv]
        rfl
      rw [hnone, adjust_none hv]
      exact iff_of_true (RaisedAt.null hnull) (by simp)
    | some v =>
      have hvector : v.overriddenSyscallsAddress = vectorById s id ↔
          v.overriddenSyscallsAddress ≠ -1 := by
        rw [vectorById, foundChain_some hv]
        by_cases h : v.overriddenSyscallsAddress = -1
        · rw [if_pos h, h]
          decide
        · rw [if_neg h]
          exact iff_of_true rfl h
      rw [raisedAt_adjust_iff hd hv (hne hv), hvector]
      simp

/-- Right after boot, a child with the vector of id 55 is counted once. -/
theorem clone_counts_child_boot :
    ChildCounted sampleBoot (sysClone2 sampleBoot task1 0 55 (.child childTask)).1 task1 childTask
      0 := by
  have hcan : ∀ v, sampleBoot.registry.lookup (.bitmap (55 : UInt64).toUInt32) = some v →
      v.overriddenSyscallsAddress ≠ -1 ∧ v.refcount ≠ Int32.maxValue := by
    intro v hv
    have hall : ∀ v ∈ sampleBoot.registry.vecList,
        v.overriddenSyscallsAddress ≠ -1 ∧ v.refcount ≠ Int32.maxValue := by decide
    exact hall v (lookup_mem hv)
  have hiff := clone_counts_child_iff (s := sampleBoot) (by decide) (by decide) task1 childTask 0 55
  rw [if_neg (by decide)] at hiff
  exact hiff.mpr hcan (pid_nonneg childTask)

/-- The state after task 1 has taken the vector of vector1. -/
def holdingState : State :=
  (step sampleBoot (.ioctl task1 IOCTL_SET (nameParam vector1Name) (sampleEnv 12288))).getD
    sampleBoot

/-- A child that inherits `Vector55` raises its count by two. -/
theorem clone_counts_child_twice :
    ¬∀ s current child flags id, (addresses s.registry).Nodup →
      (0 : Address) ∉ addresses s.registry → s.tasks child = none →
      0 ≤ (sysClone2 s current flags id (.child child)).2 →
      ChildCounted s (sysClone2 s current flags id (.child child)).1 current child flags := by
  intro hall
  obtain ⟨v, hv⟩ : ∃ v, holdingState.registry.lookup (infoKey holdingState task1) = some v :=
    ⟨_, rfl⟩
  have hcounted := hall holdingState task1 childTask CLONE_SYSCALLS 0 (by decide) (by decide) rfl
  rw [sysClone2_inherit_child (by decide) hv, childCounted_iff] at hcounted
  have hraised := (hcounted (pid_nonneg childTask)).1
  exact not_raisedAt_twice (distinctAddresses_of_nodup (by decide)) hv (by decide) hraised

end

/-! ## Clones that fail -/

theorem adjust_eq_self_iff (r : Registry) (k : Key) {d : Int} (hd : d ≠ 0) :
    r.adjust k d = r ↔ r.lookup k = none := by
  cases hv : r.lookup k with
  | none => simp [adjust_none hv]
  | some v =>
    refine iff_of_false (fun h => ?_) (by simp)
    exact adjust_changes hv hd (congrArg (fun r => r.moduleRefs v.vectorModule) h)

/-- A clone that fails has left no reference behind if and only if it found no vector to
take one to: the parent's, when `CLONE_SYSCALLS` is set, or else, in `sys_clone2` only, the
one with the given id. -/
theorem failed_clone_unchanged_iff (s : State) (current : Pid) (flags : UInt64) :
    (∀ ioContext mm failed err,
      (copyProcessFails s current flags ioContext mm failed err).state.registry = s.registry ↔
        (flags &&& CLONE_SYSCALLS ≠ 0 → s.registry.lookup (infoKey s current) = none)) ∧
    ∀ id err, err < 0 →
      ((sysClone2 s current flags id (.failed err)).1.registry = s.registry ↔
        if flags &&& CLONE_SYSCALLS ≠ 0 then s.registry.lookup (infoKey s current) = none
        else s.registry.lookup (.bitmap id.toUInt32) = none) := by
  constructor
  · intro ioContext mm failed err
    rw [copyProcessFails_state, cloneSyscallsBlock]
    by_cases hflags : flags &&& CLONE_SYSCALLS ≠ 0
    · rw [if_pos hflags, imp_iff_right hflags]
      exact adjust_eq_self_iff _ _ (by decide)
    · rw [if_neg hflags]
      exact iff_of_true rfl fun h => absurd h hflags
  · intro id err _
    by_cases hflags : flags &&& CLONE_SYSCALLS ≠ 0
    · rw [if_pos hflags]
      cases hv : s.registry.lookup (infoKey s current) with
      | none => simp [sysClone2_unregistered hflags hv]
      | some v =>
        rw [sysClone2_inherit hflags hv, ← hv]
        exact adjust_eq_self_iff _ _ (by decide)
    · rw [if_neg hflags, sysClone2_byId hflags]
      exact adjust_eq_self_iff _ _ (by decide)

/-- A clone by an id that nobody registered leaves nothing behind. -/
theorem failed_clone_unknown_id :
    (sysClone2 sampleBoot task1 0 7 (.failed (-EAGAIN))).1.registry = sampleBoot.registry := by
  have hiff := (failed_clone_unchanged_iff sampleBoot task1 0).2 7 (-EAGAIN) (by decide)
  rw [if_neg (by decide)] at hiff
  exact hiff.mpr (by decide)

/-- A fork at the process limit keeps the reference for the child that it did not create, and
so does a clone by id. -/
theorem failed_clone_leaks :
    ¬(∀ s current flags ioContext mm failed err,
      (copyProcessFails s current flags ioContext mm failed err).state.registry = s.registry) ∧
    ¬∀ s current flags id err, err < 0 →
      (sysClone2 s current flags id (.failed err)).1.registry = s.registry := by
  constructor
  · intro hall
    have hsame := hall holdingState task1 CLONE_SYSCALLS false true .rlimitNproc 0
    exact absurd (congrArg (fun r => r.moduleRefs .vector1) hsame) (by decide)
  · intro hall
    have hsame := hall sampleBoot task1 0 55 (-EAGAIN) (by decide)
    exact absurd (congrArg (fun r => r.moduleRefs .vector1) hsame) (by decide)

end SyscallVector.Audit
