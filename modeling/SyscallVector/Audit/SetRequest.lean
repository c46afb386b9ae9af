import SyscallVector.Audit.CloneAccounting
import SyscallVector.Audit.VectorNames

/-!
# Setting a vector

`IOCTL_SET` is to move the caller from one vector to another. The vector left behind is
looked up by the three lines that `show_my_vector` prints for it, and no name has a
newline, so its reference is never dropped.
-/
namespace SyscallVector.Audit

set_option autoImplicit false

open Lib Model

/-- The task holds a registered vector. -/
structure Holds (s : State) (current : Pid) (v : StructVector) : Prop where
  registered : v ∈ s.registry.vecList
  held : s.tasks current = some v.overriddenSyscallsAddress

/-- One reference has gone from `u` to `v`, for the vectors and for their modules, and the
caller holds `v`. -/
structure Transferred (s t : State) (current : Pid) (u v : StructVector) : Prop where
  entries : t.registry.vecList = s.registry.vecList.map fun w =>
    moveAt v.overriddenSyscallsAddress 1 (moveAt u.overriddenSyscallsAddress (-1) w)
  modules : ∀ m, t.registry.moduleRefs m =
    s.registry.moduleRefs m + (if m = v.vectorModule then 1 else 0) -
      if m = u.vectorModule then 1 else 0
  tasks : t.tasks = Function.update s.tasks current (some v.overriddenSyscallsAddress)

/-- A name of the form that the modules register. -/
def NumeralName (v : StructVector) : Prop :=
  ∃ n : Nat, cstr v.vectorName = vectorPrefix ++ decimal n

/-- A registry with such names and with chains, none of them twice. -/
structure Apart (r : Registry) : Prop where
  named : ∀ v ∈ r.vecList, NumeralName v
  names : (r.vecList.map fun v => cstr v.vectorName).Nodup
  chains : (addresses r).Nodup
  notNull : (0 : Address) ∉ addresses r

section
variable {s : State} {current : Pid} {param : IoctlParam} {env : Env} {r : Registry}
  {u v : StructVector}

theorem Apart.plain (h : Apart r) : PlainNames r := by
  intro v hv
  obtain ⟨n, hn⟩ := h.named v hv
  rw [hn]
  exact ⟨by simp [vectorPrefix, ascii], not_mem_name (by decide) (by decide) n⟩

/-- The kernel copies a name whole, unless its length wraps. -/
theorem cstr_copyVectorName {name : List UInt8} (h : strlen name < 2 ^ 32) :
    cstr (copyVectorName name) = cstr name := by
  have hcopy : copyVectorName name = cstr name := by
    change name.take (UInt32.ofNat (strlen name)).toNat = cstr name
    rw [UInt32.toNat_ofNat', Nat.mod_eq_of_lt h, take_strlen]
  rw [hcopy, cstr_eq_self (not_mem_cstr name)]

theorem Apart.lookup_name (h : Apart r) (hv : v ∈ r.vecList)
    (hname : cstr param.userVectorName = cstr v.vectorName) :
    r.lookup (nameKey param) = some v := by
  have hshort : strlen param.userVectorName < 2 ^ 32 := by
    have hle := v.strlen_vectorName_le
    rw [strlen, ← hname] at hle
    exact hle.trans_lt (by decide)
  have hmatch (w : StructVector) :
      (nameKey param).isMatch w = true ↔ cstr v.vectorName = cstr w.vectorName := by
    rw [← hname, ← cstr_copyVectorName hshort, ← strcmp_eq_zero_iff]
    simp [Key.isMatch]
  refine find?_eq_of_unique hv ((hmatch v).mpr rfl) fun w hw hwmatch => ?_
  exact List.inj_on_of_nodup_map h.names hw hv ((hmatch w).mp hwmatch).symm

/-- Raising `v` alone is no transfer from `u`, whichever of the two are the same. -/
theorem not_transferred_of_raised {t : State} (hu : u ∈ s.registry.vecList)
    (ht : t.registry.vecList = s.registry.vecList.map (moveAt v.overriddenSyscallsAddress 1)) :
    ¬Transferred s t current u v := by
  intro h
  have hentries := h.entries
  rw [ht] at hentries
  have hat := List.map_inj_left.mp hentries u hu
  rw [moveAt_self (-1) rfl] at hat
  by_cases he : u.overriddenSyscallsAddress = v.overriddenSyscallsAddress
  · rw [moveAt_self 1 he, moveAt_addRef, if_pos he] at hat
    exact addRef_ne_addRef (by decide) u hat
  · rw [moveAt_of_ne 1 he, moveAt_addRef, if_neg he] at hat
    exact addRef_ne_self (by decide) u hat.symm

/-- A task that holds a registered vector and sets a registered vector succeeds, and no
reference is transferred: the count of the vector that it leaves stays as it was. -/
theorem set_never_transfers (hr : Apart s.registry) (hu : Holds s current u)
    (hv : v ∈ s.registry.vecList) (hname : cstr param.userVectorName = cstr v.vectorName)
    (hread : NameRead env) :
    ∃ t, customIoctl s current IOCTL_SET param env = .ok ⟨t, 0, none⟩ ∧
      ¬Transferred s t current u v := by
  have hfound := hr.lookup_name hv hname
  have h0 : v.overriddenSyscallsAddress ≠ 0 := fun h => hr.notNull (h ▸ mem_addresses hv)
  refine ⟨_, customIoctl_set_found hr.plain hread hfound h0,
    not_transferred_of_raised hu.registered ?_⟩
  exact (distinctAddresses_of_nodup hr.chains).adjust_eq_map hfound h0 1

end

/-! ## From `Vector55` to `Vector968` -/

/-- The names in a reachable registry have this form. -/
theorem WellNamed.numeralName {v : StructVector} (h : WellNamed v) : NumeralName v :=
  ⟨v.overfuncsBitmap.toNat, h.name⟩

theorem apart_holdingState : Apart holdingState.registry := by
  have hstep : step sampleBoot (.ioctl task1 IOCTL_SET (nameParam vector1Name) (sampleEnv 12288)) =
      some holdingState := rfl
  have hnamed := step_named (booted_named booted_sampleBoot) hstep
  exact ⟨fun v hv => (hnamed v hv).numeralName, by decide, by decide, by decide⟩

theorem nameRead_sampleEnv : NameRead (sampleEnv 12288) := ⟨by decide, by decide, by decide, rfl⟩

/-- Task 1 holds `Vector55` and sets `Vector968`. -/
theorem set_never_transfers_boot :
    ∃ (u v : StructVector) (t : State), cstr u.vectorName = vector1Name ∧
      cstr v.vectorName = vector2Name ∧
      customIoctl holdingState task1 IOCTL_SET (nameParam vector2Name) (sampleEnv 12288) =
        .ok ⟨t, 0, none⟩ ∧ ¬Transferred holdingState t task1 u v := by
  obtain ⟨u, hu, huname⟩ : ∃ u, Holds holdingState task1 u ∧ cstr u.vectorName = vector1Name :=
    ⟨_, ⟨List.mem_cons_of_mem _ List.mem_cons_self, rfl⟩, by decide⟩
  obtain ⟨v, hv, hvname⟩ : ∃ v, v ∈ holdingState.registry.vecList ∧
      cstr v.vectorName = vector2Name := ⟨_, List.mem_cons_self, by decide⟩
  have hname : cstr (nameParam vector2Name).userVectorName = cstr v.vectorName := by
    rw [hvname]
    decide
  obtain ⟨t, hcall, hnot⟩ := set_never_transfers apart_holdingState hu hv hname nameRead_sampleEnv
  exact ⟨u, v, t, huname, hvname, hcall, hnot⟩

/-- `Vector55` is still counted for the task that has left it. -/
theorem set_keeps_old_reference :
    ¬∀ (s : State) (current : Pid) (param : IoctlParam) (env : Env) (u v : StructVector),
      Apart s.registry → Holds s current u → v ∈ s.registry.vecList →
      cstr param.userVectorName = cstr v.vectorName → NameRead env → env.reduceBuf ≠ 0 →
      ∃ t, customIoctl s current IOCTL_SET param env = .ok ⟨t, 0, none⟩ ∧
        Transferred s t current u v := by
  intro hall
  obtain ⟨u, hu, hmodule⟩ : ∃ u, Holds holdingState task1 u ∧ u.vectorModule = .vector1 :=
    ⟨_, ⟨List.mem_cons_of_mem _ List.mem_cons_self, rfl⟩, rfl⟩
  obtain ⟨v, hv, hvname, hvmodule⟩ : ∃ v, v ∈ holdingState.registry.vecList ∧
      cstr v.vectorName = vector2Name ∧ v.vectorModule = .vector2 :=
    ⟨_, List.mem_cons_self, by decide, rfl⟩
  obtain ⟨t, hcall, htransferred⟩ := hall holdingState task1 (nameParam vector2Name)
    (sampleEnv 12288) u v apart_holdingState hu hv (by rw [hvname]; decide) nameRead_sampleEnv
    (by decide)
  have hrefs := htransferred.modules .vector1
  rw [hmodule, hvmodule] at hrefs
  have hafter : (customIoctl holdingState task1 IOCTL_SET (nameParam vector2Name)
      (sampleEnv 12288)).toOption.map (fun result => result.state.registry.moduleRefs .vector1) =
      some 1 := by decide
  rw [hcall] at hafter
  have hone : t.registry.moduleRefs .vector1 = 1 := Option.some.inj hafter
  rw [hrefs] at hone
  exact absurd hone (by decide)

end SyscallVector.Audit
