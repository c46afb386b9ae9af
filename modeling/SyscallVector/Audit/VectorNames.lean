import SyscallVector.Audit.Addresses
import SyscallVector.Audit.Boot
import SyscallVector.Audit.Events
import SyscallVector.Audit.IoctlInversion

/-!
# Names, ids and bitmaps

Every module composes the name of a vector from its bitmap, two of them by hand.
`WellNamed` says what they agree on; it holds of every entry in every reachable
registry, and it makes the searches by name, by id and by bitmap the same search,
since a numeral determines its number.
-/
namespace SyscallVector.Audit

set_option autoImplicit false

open Lib Model

/-- The fields of an entry that its bitmap determines. -/
structure WellNamed (v : StructVector) : Prop where
  id : v.vectorId = v.overfuncsBitmap.toUInt64
  name : cstr v.vectorName = vectorPrefix ++ decimal v.overfuncsBitmap.toNat
  terminated : (0 : UInt8) ∈ v.vectorName.val
  valid : v.overfuncsBitmap.toNat ≤ 1023

def Named (r : Registry) : Prop := ∀ v ∈ r.vecList, WellNamed v

/-! ## Composing a name -/

theorem validateBitmap_le {b : UInt32} (h : validateBitmap b = 0) : b.toNat ≤ 1023 := by
  unfold validateBitmap at h
  split at h
  · exact absurd h (by decide)
  · split at h
    · exact absurd h (by decide)
    · split at h
      · exact absurd h (by decide)
      case isFalse hle => exact UInt32.le_iff_toNat_le.mp (UInt32.not_lt.mp hle)

theorem sprintfD_eq_decimal {b : UInt32} (h : b.toNat ≤ 1023) : sprintfD b = decimal b.toNat := by
  have hint : b.toInt32.toInt = b.toNat := by
    rw [toInt_toInt32, Int.bmod_def]
    omega
  rw [sprintfD, hint, decimalInt_of_nonneg (Int.natCast_nonneg _), Int.toNat_natCast]

theorem not_mem_name {c : UInt8} (hc : isDigit c = false) (hp : c ∉ vectorPrefix) (n : Nat) :
    c ∉ vectorPrefix ++ decimal n := by
  rw [List.mem_append]
  rintro (hmem | hmem)
  · exact hp hmem
  · exact not_mem_decimal hc n hmem

theorem nul_not_mem_name (n : Nat) : (0 : UInt8) ∉ vectorPrefix ++ decimal n :=
  not_mem_name (by decide) (by decide) n

theorem length_name_le {n : Nat} (h : n ≤ 1023) : (vectorPrefix ++ decimal n).length ≤ 10 := by
  have hdec : (decimal n).length ≤ 4 := (length_decimal_le_iff (by decide)).mpr (by omega)
  have hpre : vectorPrefix.length = 6 := rfl
  rw [List.length_append]
  omega

theorem wellNamed_newVector {b : UInt32} (hb : b.toNat ≤ 1023) (a : Address) (count : Int32)
    (m : Module) : WellNamed (newVector (vectorPrefix ++ decimal b.toNat) a count m b) := by
  have hnul := nul_not_mem_name b.toNat
  have hlen := length_name_le hb
  have hname : (newVector (vectorPrefix ++ decimal b.toNat) a count m b).vectorName.val =
      vectorPrefix ++ decimal b.toNat ++
        zeroed (maxVectorNameLen - (vectorPrefix ++ decimal b.toNat).length) := by
    rw [newVector, strlen, cstr_eq_self hnul, List.take_length]
    exact CharArray.copy_val (hlen.trans (by decide))
  refine ⟨rfl, ?_, ?_, hb⟩
  · rw [hname, cstr_append_zeroed hnul]
    rfl
  · rw [hname, zeroed, List.mem_append]
    right
    exact List.mem_replicate.mpr ⟨by rw [maxVectorNameLen]; omega, rfl⟩

theorem wellNamed_dynamicEntry {b : UInt32} (hb : validateBitmap b = 0) (a : Address) :
    WellNamed (dynamicEntry b a) := by
  rw [dynamicEntry, sprintfD_eq_decimal (validateBitmap_le hb)]
  exact wellNamed_newVector (validateBitmap_le hb) ..

/-- The two hand-written names are those of their bitmaps. -/
theorem wellNamed_bootVector1 (a : Address) : WellNamed (bootVector1 a) :=
  wellNamed_newVector (b := vector1Bitmap) (by decide) a 0 .vector1

theorem wellNamed_bootVector2 (a : Address) : WellNamed (bootVector2 a) :=
  wellNamed_newVector (b := vector2Bitmap) (by decide) a 0 .vector2

/-! ## Preservation -/

section
variable {r : Registry}

theorem Named.adjust (h : Named r) (k : Key) (d : Int) : Named (r.adjust k d) := by
  refine forall_mem_adjust (fun v hv => ?_) h k
  obtain ⟨hid, hname, hterm, hvalid⟩ := hv
  exact ⟨hid, hname, hterm, hvalid⟩

theorem Named.push (h : Named r) {v : StructVector} (hv : WellNamed v) :
    Named (pushVector r v) := by
  intro w hw
  rcases List.mem_cons.mp hw with rfl | hw
  · exact hv
  · exact h w hw

theorem Named.unregister (h : Named r) (a : Address) : Named (unregisterSyscall r a).1 := by
  rcases unregisterSyscall_cases r a with ⟨-, hr⟩ | ⟨v, -, ⟨-, hr⟩ | ⟨-, hr⟩⟩
  · rwa [hr]
  · rwa [hr]
  · rw [hr]
    exact fun v hv => h v (List.mem_of_mem_eraseP hv)

theorem Named.registered (h : Named r) {b : UInt32} (hb : validateBitmap b = 0) (a va : Address) :
    Named (registered r b a va) := by
  unfold Audit.registered
  split
  · exact Named.push (h.adjust _ 1) (wellNamed_dynamicEntry hb a)
  · exact h.adjust _ 1

/-- A registered name is not empty and has no newline. -/
theorem Named.plain (h : Named r) : PlainNames r := by
  intro v hv
  rw [(h v hv).name]
  exact ⟨by simp [vectorPrefix, ascii], not_mem_name (by decide) (by decide) _⟩

end

theorem rmmod_named {s t : State} {m : Module} (hs : Named s.registry) (h : rmmod s m = some t) :
    Named t.registry := by
  obtain ⟨-, -, -, u, rfl, ⟨rfl, w, hclean, rfl⟩ | ⟨-, hclean⟩⟩ := rmmod_cases h
  · have hw : Named w.registry := cleanupHeads_invariant (fun s => Named s.registry)
      (fun _ a _ hs => hs.unregister a) hs hclean
    exact hw
  · obtain ⟨heap, -, rfl⟩ := cleanupVector_ok hclean
    exact hs.unregister _

theorem effect_named {s : State} {current : Pid} {request : UInt32} {param : IoctlParam} {env : Env}
    {result : IoctlResult} (hs : Named s.registry)
    (h : IoctlEffect s current request param env result) : Named result.state.registry := by
  cases h with
  | unchanged => exact hs
  | setNull | set => exact hs.adjust _ 1
  | removeDeficit | remove => exact hs.adjust _ (-1)
  | create _ _ hvalid hcreate =>
    cases hcreate with
    | reuse | abandon => exact hs.adjust _ 1
    | build => exact Named.registered hs hvalid _ _

theorem step_named {s t : State} {op : Op} (hs : Named s.registry) (h : step s op = some t) :
    Named t.registry := by
  cases op with
  | ioctl current request param env =>
    obtain ⟨-, -, result, hcall, rfl⟩ := step_ioctl h
    exact effect_named hs (customIoctl_cases hs.plain hcall)
  | copyProcess current child flags =>
    obtain ⟨-, -, rfl⟩ := step_copyProcess h
    unfold copyProcess
    split
    · exact hs.adjust _ 1
    · exact hs
  | exit current =>
    obtain ⟨-, rfl⟩ := step_exit h
    unfold exitTask
    dsimp only
    split
    · exact hs
    · exact hs.adjust _ (-1)
  | call c =>
    obtain rfl := Option.some.inj h
    cases c <;> exact hs.adjust _ _
  | unregister a =>
    obtain rfl := Option.some.inj h
    exact hs.unregister a
  | rmmod m => exact rmmod_named hs h

theorem booted_named {s : State} (h : Booted s) : Named s.registry := by
  obtain ⟨a₁, a₂, ps₁, ps₂, hshape⟩ := booted_shape h
  rw [hshape.registry]
  intro v hv
  simp only [List.mem_cons, List.not_mem_nil, or_false] at hv
  rcases hv with rfl | rfl
  · exact wellNamed_bootVector2 a₂
  · exact wellNamed_bootVector1 a₁

/-- Whatever the events, every registered vector is named after its bitmap. -/
theorem run_named {s t : State} {guard : State → Op → Prop} (hs : Booted s)
    (hrun : Run step guard s t) : Named t.registry :=
  hrun.invariant (fun s => Named s.registry) (fun _ _ _ h _ hstep => step_named h hstep)
    (booted_named hs)

/-! ## The three searches -/

theorem lookup_congr {r : Registry} {k k' : Key} (h : ∀ v ∈ r.vecList, k.isMatch v = k'.isMatch v) :
    r.lookup k = r.lookup k' := List.find?_congr h

theorem acquire_congr {r : Registry} {k k' : Key}
    (h : ∀ v ∈ r.vecList, k.isMatch v = k'.isMatch v) : r.acquire k = r.acquire k' := by
  have hlook := lookup_congr h
  have hlist : updateFirst k.isMatch (StructVector.addRef 1) r.vecList =
      updateFirst k'.isMatch (StructVector.addRef 1) r.vecList := updateFirst_congr h
  rw [Registry.acquire, Registry.acquire, Registry.adjust, Registry.adjust, hlook, hlist]

/-- The name of a bitmap matches exactly the entries with that bitmap. -/
theorem isMatch_name_iff {n : List UInt8} {b : UInt32}
    (hn : cstr n = vectorPrefix ++ decimal b.toNat) {v : StructVector} (hv : WellNamed v) :
    (Key.name n).isMatch v = (Key.bitmap b).isMatch v := by
  have hiff : strcmp n v.vectorName = 0 ↔ v.overfuncsBitmap = b := by
    rw [strcmp_eq_zero_iff, hn, hv.name, List.append_cancel_left_eq, decimal_injective.eq_iff]
    exact ⟨fun h => UInt32.toNat_inj.mp h.symm, fun h => h ▸ rfl⟩
  rw [Bool.eq_iff_iff]
  simpa [Key.isMatch] using hiff

theorem lookups_agree {r : Registry} (hr : Named r) {n : List UInt8} {b : UInt32}
    (hn : cstr n = vectorPrefix ++ decimal b.toNat) :
    getVectorAddress r n = checkAnyCurrentVector r b :=
  acquire_congr fun v hv => isMatch_name_iff hn (hr v hv)

/-- In every registry that loading the two modules and any further events lead to,
the id and the name of each vector follow from its bitmap, the name ends inside its
array, and the three searches for one bitmap do the same. -/
theorem vectors_named_by_bitmap {s t : State} (hs : Booted s)
    (hrun : Run step (fun _ _ => True) s t) :
    (∀ v ∈ t.registry.vecList, v.vectorId = v.overfuncsBitmap.toUInt64 ∧
      cstr v.vectorName = vectorPrefix ++ decimal v.overfuncsBitmap.toNat ∧
      v.vectorName.val.length = maxVectorNameLen ∧ (0 : UInt8) ∈ v.vectorName.val) ∧
    ∀ (b : UInt32) (n : List UInt8), cstr n = vectorPrefix ++ decimal b.toNat →
      getVectorAddress t.registry n = getVectorAddressFromId t.registry b ∧
      getVectorAddressFromId t.registry b = checkAnyCurrentVector t.registry b := by
  have hnamed := run_named hs hrun
  refine ⟨fun v hv => ?_, fun b n hn => ⟨lookups_agree hnamed hn, rfl⟩⟩
  obtain ⟨hid, hname, hterm, -⟩ := hnamed v hv
  exact ⟨hid, hname, v.vectorName.property, hterm⟩

/-- Task 1 asks twice for the bitmap 1; the searches for `Vector1` agree afterwards. -/
def namesScript : List Op :=
  [.ioctl task1 IOCTL_CREATE_FROM_BITMAP (bitmapParam 1) (sampleEnv 12288),
    .ioctl task1 IOCTL_CREATE_FROM_BITMAP (bitmapParam 1) (sampleEnv 16384)]

theorem vectors_named_after_script :
    ∃ t, steps step sampleBoot namesScript = some t ∧ t.registry.vecList.length = 3 ∧
      getVectorAddressFromId t.registry 1 = checkAnyCurrentVector t.registry 1 := by
  obtain ⟨t, ht⟩ : ∃ t, steps step sampleBoot namesScript = some t := ⟨_, rfl⟩
  have hrun : Run step (fun _ _ => True) sampleBoot t := Run.of_steps (fun _ _ _ => trivial) ht
  have hagree := (vectors_named_by_bitmap booted_sampleBoot hrun).2 1
    (vectorPrefix ++ decimal 1) (by decide)
  refine ⟨t, ht, ?_, hagree.2⟩
  have hlen : (steps step sampleBoot namesScript).map (fun t => t.registry.vecList.length) =
      some 3 := by decide
  rw [ht] at hlen
  exact Option.some.inj hlen

end SyscallVector.Audit
