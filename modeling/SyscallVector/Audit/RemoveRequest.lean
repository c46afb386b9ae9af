import SyscallVector.Audit.SetRequest

/-!
# Removing a vector

`IOCTL_REMOVE` drops a reference to the vector whose name it is given and clears the
pointer of the caller, without asking whether the caller holds that vector, and drops
the reference even where it then reports a failure.
-/
namespace SyscallVector.Audit

set_option autoImplicit false

open Lib Model

/-- The count of some vector, or the pointer of the caller, is another. -/
def Changes (s t : State) (current : Pid) : Prop :=
  t.registry.vecList ≠ s.registry.vecList ∨ t.tasks current ≠ s.tasks current

/-- The caller held a vector of this name; it has one reference less, the caller holds
none, and nothing else has changed. -/
structure ReleasedOwn (s t : State) (current : Pid) (name : List UInt8) : Prop where
  released : ∃ as u bs, s.registry.vecList = as ++ u :: bs ∧
    t.registry.vecList = as ++ u.addRef (-1) :: bs ∧ cstr u.vectorName = cstr name ∧
    u.overriddenSyscallsAddress ≠ 0 ∧ s.tasks current = some u.overriddenSyscallsAddress ∧
    (u.addRef (-1)).refcount.toInt = u.refcount.toInt - 1
  tasks : t.tasks = Function.update s.tasks current (some 0)

/-- The vector that the name finds, if there is one, has this name, is held by the caller
and has a reference to drop. -/
def OwnsNamed (s : State) (current : Pid) (param : IoctlParam) : Prop :=
  ∀ v, s.registry.lookup (nameKey param) = some v →
    cstr v.vectorName = cstr param.userVectorName ∧ v.overriddenSyscallsAddress ≠ 0 ∧
      s.tasks current = some v.overriddenSyscallsAddress ∧ 0 < v.refcount

section
variable {s : State} {current : Pid} {param : IoctlParam} {env : Env}

theorem refcount_pos_ne_min {x : Int32} (h : 0 < x) : x ≠ Int32.minValue := by
  rintro rfl
  exact absurd h (by decide)

/-- A count that does not become negative was positive, unless it wraps. -/
theorem refcount_pos {v : StructVector} (hneg : ¬(v.addRef (-1)).refcount < 0)
    (hmin : v.refcount ≠ Int32.minValue) : 0 < v.refcount := by
  rw [addRef_neg_iff, not_and, Int32.not_le] at hneg
  exact hneg (Int32.lt_of_le_of_ne (Int32.minValue_le _) hmin.symm)

theorem not_changes_self : ¬Changes s s current := fun h => h.elim (fun h => h rfl) fun h => h rfl

/-- A reference that is dropped shows in the list. -/
theorem changes_dropped {t : State} {v : StructVector}
    (hv : s.registry.lookup (nameKey param) = some v)
    (ht : t.registry = s.registry.adjust (nameKey param) (-1)) : Changes s t current := by
  left
  obtain ⟨as, bs, hsplit, hupdated, -, -⟩ := updateFirst_split (f := StructVector.addRef (-1)) hv
  rw [ht, adjust_vecList, hupdated, hsplit]
  intro he
  exact addRef_ne_self (by decide) v (List.cons.inj (List.append_cancel_left he)).1

/-- What the entry released was, if the search found `v`. -/
theorem releasedOwn_found {t : State} {v : StructVector} {name : List UInt8}
    (hv : s.registry.lookup (nameKey param) = some v)
    (ht : t.registry = s.registry.adjust (nameKey param) (-1))
    (h : ReleasedOwn s t current name) :
    cstr v.vectorName = cstr name ∧ v.overriddenSyscallsAddress ≠ 0 ∧
      s.tasks current = some v.overriddenSyscallsAddress ∧ v.refcount ≠ Int32.minValue := by
  obtain ⟨as, u, bs, hbefore, hafter, hname, h0, hheld, hexact⟩ := h.released
  obtain ⟨as', bs', hsplit, hupdated, -, -⟩ := updateFirst_split (f := StructVector.addRef (-1)) hv
  rw [ht, adjust_vecList, hupdated] at hafter
  rw [hsplit] at hbefore
  obtain rfl : v = u := eq_of_replaced hbefore hafter
    (addRef_ne_self (by decide) v) (addRef_ne_self (by decide) u)
  exact ⟨hname, h0, hheld, (toInt_addRef_neg_one_iff v).mp hexact⟩

/-- A request by a task that owns what it names releases exactly that. -/
theorem releasedOwn_of_owns {v : StructVector}
    (hv : s.registry.lookup (nameKey param) = some v)
    (hname : cstr v.vectorName = cstr param.userVectorName)
    (h0 : v.overriddenSyscallsAddress ≠ 0)
    (hheld : s.tasks current = some v.overriddenSyscallsAddress)
    (hmin : v.refcount ≠ Int32.minValue) :
    ReleasedOwn s (({ s with registry := s.registry.adjust (nameKey param) (-1) } :
      State).setVectorInfo current 0) current param.userVectorName := by
  obtain ⟨as, bs, hsplit, hupdated, -, -⟩ := updateFirst_split (f := StructVector.addRef (-1)) hv
  refine ⟨⟨as, v, bs, hsplit, ?_, hname, h0, hheld, (toInt_addRef_neg_one_iff v).mpr hmin⟩, ?_⟩
  · rw [← hupdated]
    exact adjust_vecList ..
  · exact State.setVectorInfo_tasks_of_live 0 hheld

/-- An `IOCTL_REMOVE` that changes anything releases the caller's own vector of that name,
and nothing else, if and only if the name is not read, or the vector it finds has that
name, is held by the caller, and has a positive count. -/
theorem remove_releases_own_iff (s : State) (current : Pid) (param : IoctlParam) (env : Env) :
    (∀ result, customIoctl s current IOCTL_REMOVE param env = .ok result →
        Changes s result.state current →
        ReleasedOwn s result.state current param.userVectorName) ↔
      (NameRead env → OwnsNamed s current param) := by
  by_cases hread : NameRead env
  · rw [imp_iff_right hread, customIoctl_remove hread]
    cases hv : s.registry.lookup (nameKey param) with
    | none =>
      refine iff_of_true (fun result hcall hchanges => ?_) fun v hfound => ?_
      · cases hcall
        exact absurd hchanges not_changes_self
      · rw [hv] at hfound
        cases hfound
    | some v =>
      dsimp only
      by_cases hneg : (v.addRef (-1)).refcount < 0
      · -- the pointer of the caller stays, although the reference is gone
        rw [if_pos hneg]
        refine iff_of_false (fun hall => ?_) fun howns => ?_
        · have hreleased := hall _ rfl (changes_dropped hv rfl)
          obtain ⟨-, h0, hheld, -⟩ := releasedOwn_found hv rfl hreleased
          have hnull : s.tasks current = some 0 :=
            (congrFun hreleased.tasks current).trans (Function.update_self ..)
          exact h0 (Option.some.inj (hheld.symm.trans hnull))
        · obtain ⟨-, -, -, hpos⟩ := howns v hv
          exact absurd hpos (Int32.not_lt.mpr ((addRef_neg_iff v).mp hneg).2)
      · rw [if_neg hneg]
        constructor
        · intro hall w hw
          obtain rfl : v = w := Option.some.inj (hv.symm.trans hw)
          obtain ⟨hname, h0, hheld, hmin⟩ :=
            releasedOwn_found hv rfl (hall _ rfl (changes_dropped hv rfl))
          exact ⟨hname, h0, hheld, refcount_pos hneg hmin⟩
        · intro howns result hcall _
          obtain ⟨hname, h0, hheld, hpos⟩ := howns v hv
          cases hcall
          exact releasedOwn_of_owns hv hname h0 hheld (refcount_pos_ne_min hpos)
  · refine iff_of_true (fun result hcall hchanges => ?_) fun h => absurd h hread
    rw [customIoctl_name_unread (.inr rfl) hread hcall] at hchanges
    exact absurd hchanges not_changes_self

end

/-- After boot, a task that holds nothing drops the reference that task 1 has taken. -/
theorem remove_releases_other :
    ¬∀ boot s current param env result, Booted boot →
      Run step (fun _ op => op.IsIoctl) boot s → (∃ a, s.tasks current = some a) →
      customIoctl s current IOCTL_REMOVE param env = .ok result →
      Changes s result.state current →
      ReleasedOwn s result.state current param.userVectorName := by
  intro hall
  let set : Op := .ioctl task1 IOCTL_SET (nameParam vector1Name) (sampleEnv 12288)
  have hioctl : set.IsIoctl := trivial
  have hrun : Run step (fun _ op => op.IsIoctl) sampleBoot holdingState :=
    Run.single (a := set) hioctl rfl
  obtain ⟨v, hv, hmodule⟩ : ∃ v, holdingState.registry.lookup (nameKey (nameParam vector1Name)) =
      some v ∧ v.vectorModule = .vector1 := ⟨_, rfl, rfl⟩
  obtain ⟨result, hcall, hregistry⟩ : ∃ result, customIoctl holdingState task2 IOCTL_REMOVE
      (nameParam vector1Name) (sampleEnv 12288) = .ok result ∧ result.state.registry =
        holdingState.registry.adjust (nameKey (nameParam vector1Name)) (-1) := by
    rw [customIoctl_remove nameRead_sampleEnv, hv]
    dsimp only
    split <;> exact ⟨_, rfl, rfl⟩
  have hreleased := hall sampleBoot holdingState task2 (nameParam vector1Name) (sampleEnv 12288)
    result booted_sampleBoot hrun ⟨0, by decide⟩ hcall (changes_dropped hv hregistry)
  obtain ⟨-, h0, hheld, -⟩ := releasedOwn_found hv hregistry hreleased
  have hnull : holdingState.tasks task2 = some 0 := by decide
  exact h0 (Option.some.inj (hheld.symm.trans hnull))

end SyscallVector.Audit
