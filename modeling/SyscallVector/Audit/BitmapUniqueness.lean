import SyscallVector.Audit.IoctlRuns

/-!
# One vector for each bitmap

`check_any_current_vector` returns 0 both when it finds nothing and when it finds a
vector without a chain. A request for a bitmap whose vector has no chain therefore
registers the bitmap again; without such requests the bitmaps stay distinct.
-/
namespace SyscallVector.Audit

set_option autoImplicit false

open Lib Model

/-- The call would register a bitmap whose vector has no chain. -/
structure NullAgain (s : State) (request : UInt32) (param : IoctlParam) (env : Env) : Prop where
  request : request = IOCTL_CREATE_FROM_BITMAP
  read : BitmapRead env
  valid : validateBitmap param.userBitmap = 0
  temp : env.temp ≠ 0
  vectorPrefix : env.vectorPrefix ≠ 0
  va : Good env.va
  found : ∃ v, s.registry.lookup (.bitmap param.userBitmap) = some v ∧
    v.overriddenSyscallsAddress = 0

/-- An ioctl call other than those. -/
def NoNullAgain (s : State) : Op → Prop
  | .ioctl _ request param env => ¬NullAgain s request param env
  | _ => False

section
variable {s : State} {current : Pid} {request : UInt32} {param : IoctlParam} {env : Env}
  {result : IoctlResult}

/-- A call that registers a bitmap, and is not one of those, registers a new one. -/
theorem Registers.new (h : Registers s request param env) (hnot : ¬NullAgain s request param env) :
    param.userBitmap ∉ s.registry.vecList.map StructVector.overfuncsBitmap := by
  intro hmem
  obtain ⟨w, hw, hbitmap⟩ := List.mem_map.mp hmem
  obtain ⟨v, hv⟩ := lookup_ne_none (k := .bitmap param.userBitmap) hw
    (by simpa [Key.isMatch] using hbitmap)
  have hnull : v.overriddenSyscallsAddress = 0 := (foundChain_some hv).symm.trans h.notFound
  exact hnot ⟨h.request, h.read, h.valid, h.temp, h.vectorPrefix, h.va, v, hv, hnull⟩

theorem effect_nodup
    (hs : (s.registry.vecList.map StructVector.overfuncsBitmap).Nodup)
    (hnot : ¬NullAgain s request param env)
    (h : IoctlEffect s current request param env result) :
    (result.state.registry.vecList.map StructVector.overfuncsBitmap).Nodup := by
  rcases effect_bitmaps h with he | ⟨hreg, he⟩
  · rwa [he]
  · rw [he]
    exact List.nodup_cons.mpr ⟨hreg.new hnot, hs⟩

/-- The excluded calls are harmful: one that returns leaves its bitmap registered twice. -/
theorem nullAgain_duplicates (hidle : Idle s) (hfresh : FreshNodes s.heap env.node)
    (hagain : NullAgain s request param env)
    (h : customIoctl s current request param env = .ok result) :
    ¬(result.state.registry.vecList.map StructVector.overfuncsBitmap).Nodup := by
  obtain ⟨v, hv, hnull⟩ := hagain.found
  have hmem : param.userBitmap ∈ s.registry.vecList.map StructVector.overfuncsBitmap := by
    have hbitmap : v.overfuncsBitmap = param.userBitmap := by
      simpa [Key.isMatch] using lookup_isMatch hv
    exact hbitmap ▸ List.mem_map_of_mem (lookup_mem hv)
  obtain ⟨t, err, hcall, houtcome⟩ := customIoctl_create_returns current hidle.listHead hfresh
    hagain.read hagain.valid
  rw [hagain.request, hcall] at h
  cases h
  cases houtcome with
  | reuse hw hne =>
    obtain rfl := Option.some.inj (hv.symm.trans hw)
    exact absurd hnull hne
  | abandon _ hfail =>
    rcases hfail with ⟨htemp, -⟩ | ⟨hpre, -⟩
    · exact absurd htemp hagain.temp
    · exact absurd hpre hagain.vectorPrefix
  | @build b =>
    change ¬((registered s.registry param.userBitmap b.listHead env.va).vecList.map
      StructVector.overfuncsBitmap).Nodup
    rw [registered, if_pos hagain.va]
    intro hnodup
    refine (List.nodup_cons.mp hnodup).1 ?_
    change param.userBitmap ∈ (s.registry.adjust _ 1).vecList.map StructVector.overfuncsBitmap
    rw [adjust_bitmaps]
    exact hmem

end

theorem booted_nodup {s : State} (h : Booted s) :
    (s.registry.vecList.map StructVector.overfuncsBitmap).Nodup := by
  obtain ⟨a₁, a₂, ps₁, ps₂, hshape⟩ := booted_shape h
  rw [hshape.registry]
  change [vector2Bitmap, vector1Bitmap].Nodup
  decide

theorem run_nodup {boot s : State} (hboot : Booted boot) (hrun : Run step NoNullAgain boot s) :
    Idle s ∧ (s.registry.vecList.map StructVector.overfuncsBitmap).Nodup := by
  apply ioctlRun_invariant (fun s => (s.registry.vecList.map StructVector.overfuncsBitmap).Nodup)
    hboot (booted_nodup hboot) ?_ ?_ hrun
  · intro s op hg
    cases op with
    | ioctl => trivial
    | copyProcess | exit | call | unregister | rmmod => exact hg.elim
  · intro s current request param env result _ hs hg _ heffect
    exact effect_nodup hs hg heffect

/-- Distinct bitmaps have distinct ids and distinct names. -/
theorem WellNamed.apart {v w : StructVector} (hv : WellNamed v) (hw : WellNamed w)
    (h : v.overfuncsBitmap ≠ w.overfuncsBitmap) :
    v.vectorId ≠ w.vectorId ∧ cstr v.vectorName ≠ cstr w.vectorName := by
  constructor
  · rw [hv.id, hw.id]
    exact fun he => h (UInt32.toUInt64_inj.mp he)
  · rw [hv.name, hw.name, Ne, List.append_cancel_left_eq, decimal_injective.eq_iff]
    exact fun he => h (UInt32.toNat_inj.mp he)

/-- In every run without those calls no two registered vectors have one bitmap, one id
or one name, and a further request for a registered bitmap does not grow the list. -/
theorem bitmaps_unique {boot s : State} (hboot : Booted boot)
    (hrun : Run step NoNullAgain boot s) :
    s.registry.vecList.Pairwise (fun v w => v.overfuncsBitmap ≠ w.overfuncsBitmap ∧
      v.vectorId ≠ w.vectorId ∧ cstr v.vectorName ≠ cstr w.vectorName) ∧
    ∀ current request param env result, ¬NullAgain s request param env →
      param.userBitmap ∈ s.registry.vecList.map StructVector.overfuncsBitmap →
      customIoctl s current request param env = .ok result →
      result.state.registry.vecList.length = s.registry.vecList.length := by
  obtain ⟨hidle, hnodup⟩ := run_nodup hboot hrun
  constructor
  · refine (List.pairwise_map.mp hnodup).imp_of_mem fun {v w} hv hw hne => ⟨hne, ?_⟩
    exact (hidle.named v hv).apart (hidle.named w hw) hne
  · intro current request param env result hnot hmem hcall
    rcases effect_bitmaps (customIoctl_cases hidle.named.plain hcall) with he | ⟨hreg, -⟩
    · simpa using congrArg List.length he
    · exact absurd hmem (hreg.new hnot)

/-- A second request for the bitmap 1 finds the vector of the first. -/
theorem bitmaps_unique_repeat :
    ∃ s, step sampleBoot (.ioctl task1 IOCTL_CREATE_FROM_BITMAP (bitmapParam 1)
        (sampleEnv 12288)) = some s ∧
      ∀ result, customIoctl s task2 IOCTL_CREATE_FROM_BITMAP (bitmapParam 1) (sampleEnv 16384) =
        .ok result → result.state.registry.vecList.length = s.registry.vecList.length := by
  let op : Op := .ioctl task1 IOCTL_CREATE_FROM_BITMAP (bitmapParam 1) (sampleEnv 12288)
  obtain ⟨s, hs⟩ : ∃ s, step sampleBoot op = some s := ⟨_, rfl⟩
  have hfirst : NoNullAgain sampleBoot op := by
    rintro ⟨-, -, -, -, -, -, v, hv, -⟩
    have hnone : sampleBoot.registry.lookup (.bitmap 1) = none := by decide
    exact absurd (hnone.symm.trans hv) (by simp)
  have hlook : (step sampleBoot op).map (fun t => (t.registry.lookup (.bitmap 1)).map
      StructVector.overriddenSyscallsAddress) = some (some 12288) := by decide
  rw [hs] at hlook
  have haddr : (s.registry.lookup (.bitmap 1)).map StructVector.overriddenSyscallsAddress =
      some 12288 := Option.some.inj hlook
  have hsecond : ¬NullAgain s IOCTL_CREATE_FROM_BITMAP (bitmapParam 1) (sampleEnv 16384) := by
    rintro ⟨-, -, -, -, -, -, v, hv, hnull⟩
    change s.registry.lookup (.bitmap 1) = some v at hv
    rw [hv, Option.map_some, hnull] at haddr
    exact absurd haddr (by decide)
  have hmem : (bitmapParam 1).userBitmap ∈
      s.registry.vecList.map StructVector.overfuncsBitmap := by
    obtain ⟨v, hv, -⟩ := Option.map_eq_some_iff.mp haddr
    have hbitmap : v.overfuncsBitmap = 1 := by simpa [Key.isMatch] using lookup_isMatch hv
    exact List.mem_map.mpr ⟨v, lookup_mem hv, hbitmap⟩
  have hunique := bitmaps_unique booted_sampleBoot (Run.single hfirst hs)
  exact ⟨s, hs, fun result hcall => hunique.2 _ _ _ _ result hsecond hmem hcall⟩

/-- Two requests for `mkdir` alone, which no branch implements, register 64 twice. -/
theorem bitmaps_repeated :
    ¬∀ boot s, Booted boot → Run step (fun s op => op.IsIoctl ∧ op.Fresh s) boot s →
      s.registry.vecList.Pairwise fun v w => v.overfuncsBitmap ≠ w.overfuncsBitmap := by
  intro hall
  let script : List Op :=
    [.ioctl task1 IOCTL_CREATE_FROM_BITMAP (bitmapParam 64) nodelessEnv,
      .ioctl task1 IOCTL_CREATE_FROM_BITMAP (bitmapParam 64) nodelessEnv]
  obtain ⟨s, hs⟩ : ∃ s, steps step sampleBoot script = some s := ⟨_, rfl⟩
  have hrun : Run step (fun s op => op.IsIoctl ∧ op.Fresh s) sampleBoot s := by
    refine Run.of_steps (fun t op hop => ?_) hs
    simp only [script, List.mem_cons, List.not_mem_nil, or_false, or_self] at hop
    rw [hop]
    exact ⟨trivial, freshNodes_nodelessEnv t.heap⟩
  have hpair := hall sampleBoot s booted_sampleBoot hrun
  have hbitmaps : (steps step sampleBoot script).map
      (fun t => t.registry.vecList.map StructVector.overfuncsBitmap) =
        some [64, 64, 968, 55] := by decide
  rw [hs] at hbitmaps
  have hlist : s.registry.vecList.map StructVector.overfuncsBitmap = [64, 64, 968, 55] :=
    Option.some.inj hbitmaps
  rw [← List.pairwise_map (f := StructVector.overfuncsBitmap) (R := (· ≠ ·)), hlist] at hpair
  exact absurd hpair (by decide)

end SyscallVector.Audit
