import SyscallVector.Audit.CreatedVector

/-!
# The result of a creation

`add_vector_from_bitmap` returns the address of a chain as an `int`, and `custom_ioctl`
widens it to a `long`. What is left of the address is its low half, read as a signed number;
a caller that tests it for a negative value tests bit 31.
-/
namespace SyscallVector.Audit

set_option autoImplicit false

open Lib Model

/-- The chain whose address a creation returns: that of the first vector with the bitmap, or
the first node allocated for a bit that is set. -/
def returnedChain (s : State) (bitmap : UInt32) (env : Env) : Address :=
  if foundChain s bitmap ≠ 0 then foundChain s bitmap else headOf bitmap env.node 0 vectorBranches

/-- Bit 31 of an address is clear. -/
def LowHalfPositive (a : Address) : Prop := a.toUInt32 < 0x80000000

instance (a : Address) : Decidable (LowHalfPositive a) := inferInstanceAs (Decidable (_ < _))

section
variable {s : State} {current : Pid} {bitmap : UInt32} {env : Env}

/-- The two conversions keep the sign of the low half. -/
theorem toInt64_toInt32_nonneg_iff (a : Address) :
    0 ≤ (toInt32 a).toInt64 ↔ LowHalfPositive a := by
  have hwiden : 0 ≤ (toInt32 a).toInt64 ↔ 0 ≤ toInt32 a := Int32.toInt64_le (a := 0)
  have hlt := a.toUInt32.toNat_lt
  have hbound : (a.toUInt32 < 0x80000000) = (a.toUInt32.toNat < 2 ^ 31) := rfl
  rw [hwiden, LowHalfPositive, hbound, Int32.le_iff_toInt_le, toInt32, toInt_toInt32,
    Int32.toInt_zero, Int.bmod_def]
  omega

/-- What a creation returns when no allocation fails. -/
theorem createOutcome_result {t : State} {err : Int32} (hhead : s.listHead .dynamicVector = 0)
    (halloc : AllocSucceed env) (h : CreateOutcome s current bitmap env t err) :
    err = toInt32 (returnedChain s bitmap env) := by
  rw [returnedChain]
  cases h with
  | reuse hv h0 =>
    have hfound := foundChain_some hv
    rw [hfound, if_pos h0]
  | abandon _ hfail =>
    rcases hfail with ⟨htemp, -⟩ | ⟨hpre, -⟩
    · exact absurd htemp halloc.temp
    · exact absurd hpre halloc.vectorPrefix
  | build hfound _ _ hadd =>
    rw [if_neg (not_not_intro hfound), addBranches_listHead hadd, if_pos hhead]

/-- In every state that any events lead to, a creation without failures returns, and a
number that is not negative if and only if bit 31 of the address is clear. -/
theorem creation_nonneg_iff {boot : State} (hboot : Booted boot)
    (hrun : Run step (fun _ _ => True) boot s) (current : Pid) (param : IoctlParam)
    (hvalid : validateBitmap param.userBitmap = 0) (env : Env)
    (hfresh : FreshNodes s.heap env.node) (halloc : AllocSucceed env)
    (hcopy : env.copyFromUser = true) :
    ∃ result, customIoctl s current IOCTL_CREATE_FROM_BITMAP param env = .ok result ∧
      (0 ≤ result.err ↔ LowHalfPositive (returnedChain s param.userBitmap env)) := by
  have hidle : Idle s := run_idle hboot hrun
  obtain ⟨t, err, hcall, houtcome⟩ := customIoctl_create_returns current hidle.listHead hfresh
    ⟨halloc.buf, halloc.kernelBitmap, hcopy⟩ hvalid
  refine ⟨⟨t, err.toInt64, none⟩, hcall, ?_⟩
  rw [createOutcome_result hidle.listHead halloc houtcome]
  exact toInt64_toInt32_nonneg_iff _

end

/-- A first node at 12288. -/
theorem creation_nonneg_low :
    ∃ result, customIoctl sampleBoot task1 IOCTL_CREATE_FROM_BITMAP (bitmapParam 1)
        (sampleEnv 12288) = .ok result ∧ 0 ≤ result.err := by
  obtain ⟨result, hcall, hiff⟩ := creation_nonneg_iff booted_sampleBoot .refl task1
    (bitmapParam 1) (by decide) (sampleEnv 12288) freshNodes_sampleBoot allocSucceed_sampleEnv rfl
  exact ⟨result, hcall, hiff.mpr (by decide)⟩

/-- Services that succeed, with nodes at the addresses of a kernel's linear mapping. -/
def kernelEnv : Env := sampleEnv 0xffff880080001000

/-- `Vector1` is created with a chain at an address whose bit 31 is set. -/
theorem creation_looks_failed :
    ¬∀ boot s current param env result, Booted boot → Run step CompleteIoctl boot s →
      validateBitmap param.userBitmap = 0 → FreshNodes s.heap env.node → AllocSucceed env →
      env.copyFromUser = true →
      customIoctl s current IOCTL_CREATE_FROM_BITMAP param env = .ok result →
      0 ≤ result.err := by
  intro hall
  obtain ⟨result, hcall, hneg⟩ : ∃ result, customIoctl sampleBoot task1 IOCTL_CREATE_FROM_BITMAP
      (bitmapParam 1) kernelEnv = .ok result ∧ ¬0 ≤ result.err := ⟨_, rfl, by decide⟩
  have hfresh : FreshNodes sampleBoot.heap kernelEnv.node :=
    freshNodes_slab (by decide) (by decide)
  have halloc : AllocSucceed kernelEnv := by constructor <;> decide
  exact hneg (hall sampleBoot sampleBoot task1 (bitmapParam 1) kernelEnv result booted_sampleBoot
    .refl (by decide) hfresh halloc rfl hcall)

end SyscallVector.Audit
