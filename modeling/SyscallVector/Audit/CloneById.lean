import SyscallVector.Audit.CloneAccounting

/-!
# The vector with the requested id

`sys_clone2` takes the id as an `unsigned long` and the search behind it compares an
`unsigned int` with the bitmaps. The address that the search returns is NULL when it finds
nothing, and also when it finds a vector that has no chain.
-/
namespace SyscallVector.Audit

set_option autoImplicit false

open Lib Model

/-- The id is resolved: the address passed on is that of a registered vector with the id, and
its count is one higher and nothing else in the list changed; or no vector has the id, and -1
is passed on with the registry unchanged. -/
inductive Resolves (s : State) (id : UInt64) (t : State) (addr : Address) : Prop
  | registered {as bs : List StructVector} {v : StructVector} :
      s.registry.vecList = as ++ v :: bs → v.vectorId = id → v.overriddenSyscallsAddress = addr →
      t.registry.vecList = as ++ v.addRef 1 :: bs →
      (v.addRef 1).refcount.toInt = v.refcount.toInt + 1 → Resolves s id t addr
  | absent : (∀ v ∈ s.registry.vecList, v.vectorId ≠ id) → addr = -1 →
      t.registry = s.registry → Resolves s id t addr

/-- Whatever vector the search finds, the id fits the search, and the vector has a chain and
a count that can still grow. -/
def Resolvable (s : State) (id : UInt64) : Prop :=
  ∀ v, s.registry.lookup (.bitmap id.toUInt32) = some v →
    id.toNat < 2 ^ 32 ∧ v.overriddenSyscallsAddress ≠ 0 ∧ v.refcount ≠ Int32.maxValue

section
variable {s t : State} {flags id : UInt64} {addr : Address} {v : StructVector}

/-- The id of a vector is the number that its bitmap has. -/
theorem WellNamed.id_eq_iff (h : WellNamed v) :
    v.vectorId = id ↔ v.overfuncsBitmap = id.toUInt32 ∧ id.toNat < 2 ^ 32 := by
  have hlt := v.overfuncsBitmap.toNat_lt
  rw [h.id, ← UInt64.toNat_inj, ← UInt32.toNat_inj, UInt32.toNat_toUInt64, UInt64.toNat_toUInt32]
  omega

/-- The part of `sys_clone2` that searches for an id. -/
theorem forkArgument_byId (current : Pid) (hflags : flags &&& CLONE_SYSCALLS = 0) :
    forkArgument s current flags id =
      ({ s with registry := s.registry.adjust (.bitmap id.toUInt32) 1 },
        some (if foundChain s id.toUInt32 = 0 then -1 else foundChain s id.toUInt32)) := by
  rw [forkArgument, if_neg (not_not_intro hflags)]
  rfl

/-- Nothing is found under an id that no vector has. -/
theorem resolves_notFound (hnamed : Named s.registry)
    (hv : s.registry.lookup (.bitmap id.toUInt32) = none) : Resolves s id s (-1) := by
  refine .absent (fun v hmem hid => ?_) rfl rfl
  have hbitmap := ((hnamed v hmem).id_eq_iff.mp hid).1
  have hmatch : (Key.bitmap id.toUInt32).isMatch v = true := by simpa [Key.isMatch] using hbitmap
  exact List.find?_eq_none.mp hv v hmem hmatch

/-- A vector that is found has its count raised, so it has to be the one with the id and its
address the one passed on. -/
theorem resolves_found_iff (hnamed : Named s.registry)
    (hv : s.registry.lookup (.bitmap id.toUInt32) = some v)
    (ht : t.registry = s.registry.adjust (.bitmap id.toUInt32) 1) :
    Resolves s id t addr ↔
      id.toNat < 2 ^ 32 ∧ v.overriddenSyscallsAddress = addr ∧ v.refcount ≠ Int32.maxValue := by
  have hwell := hnamed v (lookup_mem hv)
  have hbitmap : v.overfuncsBitmap = id.toUInt32 := by simpa [Key.isMatch] using lookup_isMatch hv
  obtain ⟨as, bs, hl, hu, -, -⟩ := updateFirst_split (f := StructVector.addRef 1) hv
  have hafter : t.registry.vecList = as ++ v.addRef 1 :: bs := by rw [ht, adjust_vecList, hu]
  constructor
  · intro h
    cases h with
    | registered hlist hid haddress hraised hexact =>
      obtain rfl := eq_of_replaced (hl.symm.trans hlist) (hafter.symm.trans hraised)
        (addRef_ne_self (by decide) _) (addRef_ne_self (by decide) _)
      exact ⟨(hwell.id_eq_iff.mp hid).2, haddress, (toInt_addRef_one_iff v).mp hexact⟩
    | absent _ _ hsame =>
      have hkept := (adjust_eq_self_iff s.registry (.bitmap id.toUInt32) (by decide)).mp
        (ht.symm.trans hsame)
      rw [hkept] at hv
      cases hv
  · rintro ⟨hfits, haddress, hmax⟩
    exact .registered hl (hwell.id_eq_iff.mpr ⟨hbitmap, hfits⟩) haddress hafter
      ((toInt_addRef_one_iff v).mpr hmax)

/-- A clone by id calls `_do_fork`, and has resolved the id if and only if no vector is found
for its low half, or the vector found has the id, a chain and a count that can still grow. -/
theorem clone_resolves_id_iff {boot : State} {guard : State → Op → Prop} (hboot : Booted boot)
    (hrun : Run step guard boot s) (current : Pid) (hflags : flags &&& CLONE_SYSCALLS = 0)
    (id : UInt64) :
    ∃ t addr, forkArgument s current flags id = (t, some addr) ∧
      (Resolves s id t addr ↔ Resolvable s id) := by
  have hnamed : Named s.registry := (run_idle hboot hrun).named
  refine ⟨_, _, forkArgument_byId current hflags, ?_⟩
  cases hv : s.registry.lookup (.bitmap id.toUInt32) with
  | none =>
    have hnone : foundChain s id.toUInt32 = 0 := by
      rw [foundChain, hv]
      rfl
    rw [if_pos hnone, adjust_none hv]
    exact iff_of_true (resolves_notFound hnamed hv) fun v hfound => by
      rw [hv] at hfound
      cases hfound
  | some v =>
    have hresolvable : Resolvable s id ↔
        id.toNat < 2 ^ 32 ∧ v.overriddenSyscallsAddress ≠ 0 ∧ v.refcount ≠ Int32.maxValue := by
      simp [Resolvable, hv]
    rw [resolves_found_iff hnamed hv rfl, hresolvable, foundChain_some hv]
    by_cases h0 : v.overriddenSyscallsAddress = 0
    · rw [if_pos h0, h0]
      exact iff_of_false (fun h => absurd h.2.1 (by decide)) fun h => absurd rfl h.2.1
    · rw [if_neg h0]
      simp [h0]

end

/-- Right after boot the id 55 is that of `Vector55`. -/
theorem clone_resolves_boot :
    ∃ t addr, forkArgument sampleBoot task1 0 55 = (t, some addr) ∧
      Resolves sampleBoot 55 t addr := by
  have hrun : Run step (fun _ op => op.IsIoctl) sampleBoot sampleBoot := .refl
  obtain ⟨t, addr, hcall, hiff⟩ := clone_resolves_id_iff booted_sampleBoot hrun task1
    (by decide : (0 : UInt64) &&& CLONE_SYSCALLS = 0) 55
  refine ⟨t, addr, hcall, hiff.mpr fun v hv => ⟨by decide, ?_⟩⟩
  have hall : ∀ v ∈ sampleBoot.registry.vecList,
      v.overriddenSyscallsAddress ≠ 0 ∧ v.refcount ≠ Int32.maxValue := by decide
  exact hall v (lookup_mem hv)

/-- The id 2^32 + 55, which no vector has, takes a reference to `Vector55`. -/
theorem clone_resolves_wrong_id :
    ¬∀ boot s current flags id t addr, Booted boot →
      Run step (fun _ op => op.IsIoctl) boot s → flags &&& CLONE_SYSCALLS = 0 →
      forkArgument s current flags id = (t, some addr) → Resolves s id t addr := by
  intro hall
  have hflags : (0 : UInt64) &&& CLONE_SYSCALLS = 0 := by decide
  obtain ⟨v, hv⟩ : ∃ v,
      sampleBoot.registry.lookup (.bitmap (4294967351 : UInt64).toUInt32) = some v := ⟨_, rfl⟩
  have hcall : forkArgument sampleBoot task1 0 4294967351 = _ := forkArgument_byId task1 hflags
  have hresolves := hall sampleBoot sampleBoot task1 0 4294967351 _ _ booted_sampleBoot .refl hflags
    hcall
  rw [resolves_found_iff (booted_named booted_sampleBoot) hv rfl] at hresolves
  exact absurd hresolves.1 (by decide)

end SyscallVector.Audit
