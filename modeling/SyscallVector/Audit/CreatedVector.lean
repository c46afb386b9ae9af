import SyscallVector.Audit.ChainIntegrity

/-!
# What a created vector implements

`add_vector_from_bitmap` has no branch for `mkdir` and none for `rmdir`. A request
gets all the flavours of its bitmap when it asks for neither, or when it is the
bitmap of vector2, whose chain is then reused.
-/
namespace SyscallVector.Audit

set_option autoImplicit false

open Lib Model

/-- Every allocation that one call makes succeeds. -/
structure AllocSucceed (env : Env) : Prop where
  buf : env.buf ≠ 0
  vectorName : Good env.vectorName
  pidBuf : env.pidBuf ≠ 0
  kernelBitmap : env.kernelBitmap ≠ 0
  reduceBuf : env.reduceBuf ≠ 0
  temp : env.temp ≠ 0
  vectorPrefix : env.vectorPrefix ≠ 0
  node : ∀ k < vectorBranches.length, Good (env.node k)
  va : Good env.va

/-- The chain from `p` on has, for every flavour of the bitmap, a node with its system
call and handler. -/
def ImplementsAll (heap : Heap) (p : Address) (bitmap : UInt32) : Prop :=
  ∃ ps, ChainAt heap p ps ∧
    ∀ row ∈ flavours, bitmap &&& row.1 ≠ 0 → some row.2 ∈ entriesAt heap ps

/-- The entries of the vector with a bitmap, by the module that builds it. -/
def expectedEntries (bitmap : UInt32) : List (SyscallNr × Handler) :=
  if bitmap = vector1Bitmap then vector1Syscalls
  else if bitmap = vector2Bitmap then vector2Syscalls
  else selectedRows bitmap vectorBranches

/-! ## The entries that a bitmap gets -/

theorem builtRows_allocSucceed {env : Env} (h : AllocSucceed env) (bitmap : UInt32) :
    builtRows bitmap env.node 0 vectorBranches = selectedRows bitmap vectorBranches :=
  builtRows_of_good fun j _ hj => h.node j (by omega)

theorem mem_selectedRows {bitmap : UInt32} {rows : List (UInt32 × SyscallNr × Handler)}
    {e : SyscallNr × Handler} :
    e ∈ selectedRows bitmap rows ↔ ∃ row ∈ rows, bitmap &&& row.1 ≠ 0 ∧ row.2 = e := by
  simp [selectedRows, and_assoc]

/-- The flavours without a branch are `mkdir` and `rmdir`. -/
theorem flavours_without_branch :
    ∀ row ∈ flavours, row ∈ vectorBranches ∨
      (row.1 = MKDIR_OVERRIDE ∨ row.1 = RMDIR_OVERRIDE) ∧
        row.2 ∉ vectorBranches.map Prod.snd := by decide

theorem mkdir_mem_flavours :
    (MKDIR_OVERRIDE, SyscallNr.mkdir, Handler.overriddenMkdir) ∈ flavours := by decide

theorem rmdir_mem_flavours :
    (RMDIR_OVERRIDE, SyscallNr.rmdir, Handler.overriddenRmdir) ∈ flavours := by decide

/-- The branches implement all the flavours of a bitmap without the two bits. -/
theorem selectedRows_implement_iff (bitmap : UInt32) :
    (∀ row ∈ flavours, bitmap &&& row.1 ≠ 0 → row.2 ∈ selectedRows bitmap vectorBranches) ↔
      bitmap &&& MKDIR_OVERRIDE = 0 ∧ bitmap &&& RMDIR_OVERRIDE = 0 := by
  have hbranch {e : SyscallNr × Handler} (he : e ∈ selectedRows bitmap vectorBranches) :
      e ∈ vectorBranches.map Prod.snd := by
    obtain ⟨row, hrow, -, rfl⟩ := mem_selectedRows.mp he
    exact List.mem_map_of_mem hrow
  constructor
  · intro hall
    constructor
    · by_contra hbit
      exact absurd (hbranch (hall _ mkdir_mem_flavours hbit)) (by decide)
    · by_contra hbit
      exact absurd (hbranch (hall _ rmdir_mem_flavours hbit)) (by decide)
  · rintro ⟨hmkdir, hrmdir⟩ row hrow hbit
    rcases flavours_without_branch row hrow with hmem | ⟨heq | heq, -⟩
    · exact mem_selectedRows.mpr ⟨row, hmem, hbit, rfl⟩
    · rw [heq] at hbit
      exact absurd hmkdir hbit
    · rw [heq] at hbit
      exact absurd hrmdir hbit

theorem expectedEntries_implement_iff (bitmap : UInt32) :
    (∀ row ∈ flavours, bitmap &&& row.1 ≠ 0 → row.2 ∈ expectedEntries bitmap) ↔
      bitmap &&& MKDIR_OVERRIDE = 0 ∧ bitmap &&& RMDIR_OVERRIDE = 0 ∨ bitmap = vector2Bitmap := by
  rw [expectedEntries]
  by_cases h₁ : bitmap = vector1Bitmap
  · rw [if_pos h₁, h₁]
    decide
  · rw [if_neg h₁]
    by_cases h₂ : bitmap = vector2Bitmap
    · rw [if_pos h₂, h₂]
      decide
    · rw [if_neg h₂, selectedRows_implement_iff, or_iff_left h₂]

theorem implementsAll_iff {heap : Heap} {p : Address} {entries : List (SyscallNr × Handler)}
    (h : Chain heap p entries) (bitmap : UInt32) :
    ImplementsAll heap p bitmap ↔ ∀ row ∈ flavours, bitmap &&& row.1 ≠ 0 → row.2 ∈ entries := by
  obtain ⟨ps, hps, hent⟩ := h
  have hmem (e : SyscallNr × Handler) : some e ∈ entriesAt heap ps ↔ e ∈ entries := by
    rw [hent, List.mem_map_of_injective (Option.some_injective _)]
  constructor
  · rintro ⟨qs, hqs, hall⟩ row hrow hbit
    obtain rfl := hps.unique hqs
    exact (hmem row.2).mp (hall row hrow hbit)
  · intro hall
    exact ⟨ps, hps, fun row hrow hbit => (hmem row.2).mpr (hall row hrow hbit)⟩

/-! ## Runs in which every allocation succeeds -/

/-- Every registered vector has the entries of its bitmap, and those of the two loaded
modules are registered. -/
structure Complete (s : State) : Prop where
  chains : ∀ v ∈ s.registry.vecList,
    Chain s.heap v.overriddenSyscallsAddress (expectedEntries v.overfuncsBitmap)
  vector1 : vector1Bitmap ∈ s.registry.vecList.map StructVector.overfuncsBitmap
  vector2 : vector2Bitmap ∈ s.registry.vecList.map StructVector.overfuncsBitmap

def CompleteIoctl (s : State) : Op → Prop
  | .ioctl _ _ _ env => FreshNodes s.heap env.node ∧ AllocSucceed env
  | _ => False

theorem booted_complete {s : State} (h : Booted s) : Complete s := by
  obtain ⟨a₁, a₂, ps₁, ps₂, hshape⟩ := booted_shape h
  constructor
  case chains =>
    rw [hshape.registry]
    intro v hv
    simp only [List.mem_cons, List.not_mem_nil, or_false] at hv
    rcases hv with rfl | rfl
    · exact ⟨ps₂, hshape.chain₂, hshape.entries₂⟩
    · exact ⟨ps₁, hshape.chain₁, hshape.entries₁⟩
  case vector1 =>
    rw [hshape.registry]
    exact List.mem_cons_of_mem _ List.mem_cons_self
  case vector2 =>
    rw [hshape.registry]
    exact List.mem_cons_self

section
variable {s : State} {current : Pid} {request : UInt32} {param : IoctlParam} {env : Env}
  {result : IoctlResult}

/-- The vector that a search for a bitmap finds has the entries of that bitmap. -/
theorem Complete.found (hs : Complete s) {bitmap : UInt32} {v : StructVector}
    (hv : s.registry.lookup (.bitmap bitmap) = some v) :
    Chain s.heap v.overriddenSyscallsAddress (expectedEntries bitmap) := by
  have hbitmap : v.overfuncsBitmap = bitmap := by simpa [Key.isMatch] using lookup_isMatch hv
  rw [← hbitmap]
  exact hs.chains v (lookup_mem hv)

/-- A search for a registered bitmap with entries finds a chain. -/
theorem Complete.foundChain_ne (hs : Complete s) {bitmap : UInt32}
    (hmem : bitmap ∈ s.registry.vecList.map StructVector.overfuncsBitmap)
    (hne : expectedEntries bitmap ≠ []) : foundChain s bitmap ≠ 0 := by
  obtain ⟨w, hw, hbitmap⟩ := List.mem_map.mp hmem
  obtain ⟨v, hv⟩ := lookup_ne_none (k := .bitmap bitmap) hw (by simpa [Key.isMatch] using hbitmap)
  rw [foundChain_some hv]
  exact fun h0 => hne ((chain_null_iff (hs.found hv)).mp h0)

theorem Complete.expected_of_notFound (hs : Complete s) {bitmap : UInt32}
    (h : foundChain s bitmap = 0) :
    expectedEntries bitmap = selectedRows bitmap vectorBranches := by
  have h₁ : bitmap ≠ vector1Bitmap := fun he =>
    hs.foundChain_ne hs.vector1 (by decide) (he ▸ h)
  have h₂ : bitmap ≠ vector2Bitmap := fun he =>
    hs.foundChain_ne hs.vector2 (by decide) (he ▸ h)
  rw [expectedEntries, if_neg h₁, if_neg h₂]

theorem effect_complete (hhead : s.listHead .dynamicVector = 0)
    (hfresh : FreshNodes s.heap env.node) (halloc : AllocSucceed env) (hs : Complete s)
    (h : IoctlEffect s current request param env result) : Complete result.state := by
  have hbitmaps (bitmap : UInt32)
      (hmem : bitmap ∈ s.registry.vecList.map StructVector.overfuncsBitmap) :
      bitmap ∈ result.state.registry.vecList.map StructVector.overfuncsBitmap := by
    rcases effect_bitmaps h with he | ⟨-, he⟩
    · rwa [he]
    · rw [he]
      exact List.mem_cons_of_mem _ hmem
  refine ⟨?_, hbitmaps _ hs.vector1, hbitmaps _ hs.vector2⟩
  apply effect_vectors (P := fun heap v =>
    Chain heap v.overriddenSyscallsAddress (expectedEntries v.overfuncsBitmap))
    (fun _ _ _ hv => hv) (fun _ _ _ hgrown hv => hv.extends hgrown) ?_ hhead hfresh hs.chains h
  intro b _ hfound hbuilt
  rw [builtRows_allocSucceed halloc] at hbuilt
  change Chain b.heap b.listHead (expectedEntries param.userBitmap)
  rw [hs.expected_of_notFound hfound]
  exact hbuilt.chain_of

theorem run_complete {boot : State} (hboot : Booted boot) (hrun : Run step CompleteIoctl boot s) :
    Idle s ∧ Complete s := by
  apply ioctlRun_invariant Complete hboot (booted_complete hboot) ?_ ?_ hrun
  · intro s op hg
    cases op with
    | ioctl => trivial
    | copyProcess | exit | call | unregister | rmmod => exact hg.elim
  · intro s current request param env result hidle hs hg _ heffect
    exact effect_complete hidle.listHead hg.1 hg.2 hs heffect

/-- A creation that cannot fail gives its task a chain with the entries of the bitmap. -/
theorem create_expected {t : State} {err : Int32} (hidle : Idle s) (hs : Complete s)
    (hlive : ∃ a, s.tasks current = some a) (hfresh : FreshNodes s.heap env.node)
    (halloc : AllocSucceed env) {bitmap : UInt32} (h : CreateOutcome s current bitmap env t err) :
    Chain t.heap (t.vectorInfo current) (expectedEntries bitmap) := by
  obtain ⟨a, ha⟩ := hlive
  have hinfo (b : Address) : (s.setVectorInfo current b).vectorInfo current = b := by
    apply State.vectorInfo_of_live
    rw [State.setVectorInfo_tasks_of_live b ha]
    exact Function.update_self ..
  cases h with
  | @reuse v hv _ =>
    change Chain s.heap ((s.setVectorInfo current v.overriddenSyscallsAddress).vectorInfo current) _
    rw [hinfo]
    exact hs.found hv
  | abandon _ hfail =>
    rcases hfail with ⟨htemp, -⟩ | ⟨hpre, -⟩
    · exact absurd htemp halloc.temp
    · exact absurd hpre halloc.vectorPrefix
  | @build b _ hfound _ _ hadd =>
    have hbuilt := createBuilt hidle.listHead hfresh hadd
    change Chain b.heap ((s.setVectorInfo current b.listHead).vectorInfo current) _
    rw [hinfo, hs.expected_of_notFound hfound, ← builtRows_allocSucceed halloc]
    exact hbuilt.chain_of

end

/-- A creation with valid bitmap and without failures returns, and the chain that its
task then holds implements every flavour of the bitmap exactly when the bitmap asks
neither for `mkdir` nor for `rmdir`, or is that of vector2. -/
theorem created_vector_implements_iff {boot s : State} (hboot : Booted boot)
    (hrun : Run step CompleteIoctl boot s) (current : Pid) (hlive : ∃ a, s.tasks current = some a)
    (param : IoctlParam) (hvalid : validateBitmap param.userBitmap = 0) (env : Env)
    (hfresh : FreshNodes s.heap env.node) (halloc : AllocSucceed env)
    (hcopy : env.copyFromUser = true) :
    ∃ result, customIoctl s current IOCTL_CREATE_FROM_BITMAP param env = .ok result ∧
      (ImplementsAll result.state.heap (result.state.vectorInfo current) param.userBitmap ↔
        param.userBitmap &&& MKDIR_OVERRIDE = 0 ∧ param.userBitmap &&& RMDIR_OVERRIDE = 0 ∨
          param.userBitmap = vector2Bitmap) := by
  obtain ⟨hidle, hs⟩ := run_complete hboot hrun
  obtain ⟨t, err, hcall, houtcome⟩ := customIoctl_create_returns current hidle.listHead hfresh
    ⟨halloc.buf, halloc.kernelBitmap, hcopy⟩ hvalid
  have hchain := create_expected hidle hs hlive hfresh halloc houtcome
  refine ⟨⟨t, err.toInt64, none⟩, hcall, ?_⟩
  rw [implementsAll_iff hchain, expectedEntries_implement_iff]

theorem allocSucceed_sampleEnv : AllocSucceed (sampleEnv 12288) := by
  constructor <;> decide

/-- The flavours 1, 2 and 8 right after boot. -/
theorem created_vector_implements_eleven :
    ∃ result, customIoctl sampleBoot task1 IOCTL_CREATE_FROM_BITMAP (bitmapParam 11)
        (sampleEnv 12288) = .ok result ∧
      ImplementsAll result.state.heap (result.state.vectorInfo task1) 11 := by
  obtain ⟨result, hcall, hiff⟩ := created_vector_implements_iff booted_sampleBoot .refl task1
    ⟨0, by decide⟩ (bitmapParam 11) (by decide) (sampleEnv 12288) freshNodes_sampleBoot
    allocSucceed_sampleEnv rfl
  exact ⟨result, hcall, hiff.mpr (.inl ⟨by decide, by decide⟩)⟩

/-- A request for `mkdir` alone succeeds right after boot and gets no chain at all. -/
theorem created_vector_lacks_mkdir :
    ¬∀ boot s current param env result, Booted boot → Run step CompleteIoctl boot s →
      (∃ a, s.tasks current = some a) → validateBitmap param.userBitmap = 0 →
      FreshNodes s.heap env.node → AllocSucceed env → env.copyFromUser = true →
      customIoctl s current IOCTL_CREATE_FROM_BITMAP param env = .ok result → 0 ≤ result.err →
      ImplementsAll result.state.heap (result.state.vectorInfo current) param.userBitmap := by
  intro hall
  obtain ⟨result, hcall, herr, hinfo⟩ : ∃ result, customIoctl sampleBoot task1
      IOCTL_CREATE_FROM_BITMAP (bitmapParam 64) (sampleEnv 12288) = .ok result ∧
      0 ≤ result.err ∧ result.state.vectorInfo task1 = 0 := ⟨_, rfl, by decide, by decide⟩
  have himplements := hall sampleBoot sampleBoot task1 (bitmapParam 64) (sampleEnv 12288) result
    booted_sampleBoot .refl ⟨0, by decide⟩ (by decide) freshNodes_sampleBoot
    allocSucceed_sampleEnv rfl hcall herr
  rw [hinfo] at himplements
  obtain ⟨ps, hps, hentries⟩ := himplements
  obtain rfl := hps.eq_nil_iff.mpr rfl
  exact absurd (hentries _ mkdir_mem_flavours (by decide)) List.not_mem_nil

end SyscallVector.Audit
