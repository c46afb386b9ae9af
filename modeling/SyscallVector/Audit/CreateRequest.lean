import SyscallVector.Audit.CreatedVector
import SyscallVector.Audit.SetRequest

/-!
# Installing a vector by its bitmap

`IOCTL_CREATE_FROM_BITMAP` gives the caller the registered vector with the bitmap or a
new one. Neither path drops the reference of the vector that the caller held before, a
bitmap without a branch gets no chain, and a search that finds a vector without a chain
raises its count before the bitmap is registered again.
-/
namespace SyscallVector.Audit

set_option autoImplicit false

open Lib Model

/-! ## Distinct chains along a run -/

section
variable {s : State} {current : Pid} {request : UInt32} {param : IoctlParam} {env : Env}
  {result : IoctlResult} {a : Address}

/-- The chain of a registered vector is allocated. -/
theorem allocated_of_registered (hs : ∀ v ∈ s.registry.vecList, FaithfulChain s.heap v)
    (ha : a ∈ addresses s.registry) (h0 : a ≠ 0) : s.heap a ≠ none := by
  obtain ⟨v, hv, rfl⟩ := List.mem_map.mp ha
  obtain ⟨entries, ⟨ps, hps, -⟩, -⟩ := hs v hv
  obtain ⟨n, hn⟩ := hps.allocated _ (hps.head_mem h0)
  simp [hn]

/-- The head of a chain that was built was free before. -/
theorem built_head_free {heap : Heap} {b : Builder} {entries : List (SyscallNr × Handler)}
    (h : Built heap b entries) (h0 : b.listHead ≠ 0) : heap b.listHead = none := by
  obtain ⟨ps, hps, -, hfree⟩ := h.chain
  exact hfree _ (hps.head_mem h0)

/-- A new chain belongs to no registered vector. -/
theorem built_not_registered (hs : ∀ v ∈ s.registry.vecList, FaithfulChain s.heap v) {b : Builder}
    {entries : List (SyscallNr × Handler)} (hbuilt : Built s.heap b entries)
    (h0 : b.listHead ≠ 0) : b.listHead ∉ addresses s.registry := fun hmem =>
  allocated_of_registered hs hmem h0 (built_head_free hbuilt h0)

/-- A creation keeps the chains apart if the one it builds is not registered. -/
theorem createOutcome_distinct {t : State} {bitmap : UInt32} {err : Int32}
    (hs : DistinctAddresses s.registry)
    (hnew : ∀ b ret, foundChain s bitmap = 0 → env.temp ≠ 0 → env.vectorPrefix ≠ 0 →
      addBranches bitmap env.node 0 vectorBranches ⟨s.heap, s.listHead .dynamicVector⟩ 0 =
        .ok (b, ret, false) → b.listHead ≠ 0 → b.listHead ∉ addresses s.registry)
    (h : CreateOutcome s current bitmap env t err) : DistinctAddresses t.registry := by
  cases h with
  | reuse | abandon => exact hs.adjust _ 1
  | @build b ret hfound htemp hpre hadd =>
    change DistinctAddresses (registered s.registry bitmap b.listHead env.va)
    rw [registered]
    split
    · refine DistinctAddresses.push (hs.adjust _ 1) fun h0 => ?_
      change b.listHead ∉ addresses (s.registry.adjust (.bitmap bitmap) 1)
      rw [addresses_adjust]
      exact hnew b ret hfound htemp hpre hadd h0
    · exact hs.adjust _ 1

theorem effect_distinct (hhead : s.listHead .dynamicVector = 0)
    (hfresh : FreshNodes s.heap env.node)
    (hchains : ∀ v ∈ s.registry.vecList, FaithfulChain s.heap v)
    (hs : DistinctAddresses s.registry)
    (h : IoctlEffect s current request param env result) :
    DistinctAddresses result.state.registry := by
  cases h with
  | unchanged => exact hs
  | setNull | set => exact hs.adjust _ 1
  | removeDeficit | remove => exact hs.adjust _ (-1)
  | create _ _ _ hcreate =>
    refine createOutcome_distinct hs (fun b ret _ _ _ hadd => ?_) hcreate
    exact built_not_registered hchains (createBuilt hhead hfresh hadd)

theorem booted_distinct (h : Booted s) : DistinctAddresses s.registry := by
  obtain ⟨a₁, a₂, ps₁, ps₂, hshape⟩ := booted_shape h
  obtain ⟨-, -, hne⟩ := hshape.heads_ne
  rw [hshape.registry]
  change [a₂, a₁].Pairwise fun a b => a ≠ 0 → a ≠ b
  rw [List.pairwise_pair]
  exact fun _ => hne

/-- Along a run of ioctl calls no two vectors share a chain. -/
theorem run_distinct {boot : State} (hboot : Booted boot) (hrun : Run step FreshIoctl boot s) :
    Idle s ∧ (∀ v ∈ s.registry.vecList, FaithfulChain s.heap v) ∧
      DistinctAddresses s.registry := by
  refine ioctlRun_invariant
    (fun s => (∀ v ∈ s.registry.vecList, FaithfulChain s.heap v) ∧ DistinctAddresses s.registry)
    hboot ⟨booted_chains hboot, booted_distinct hboot⟩ (fun _ _ h => h.1) ?_ hrun
  intro s current request param env result hidle hs hg _ heffect
  exact ⟨effect_chains hidle.listHead hg.2 hs.1 heffect,
    effect_distinct hidle.listHead hg.2 hs.1 hs.2 heffect⟩

end

/-! ## What is asked of a creation -/

/-- The caller holds a registered vector. -/
def HoldsRegistered (s : State) (current : Pid) : Prop :=
  s.vectorInfo current ≠ 0 ∧ s.vectorInfo current ∈ addresses s.registry

/-- Drop a reference to the vector that the caller holds, if it holds another than the one
at `a`. -/
def dropHeld (s : State) (current : Pid) (a : Address) (v : StructVector) : StructVector :=
  if s.vectorInfo current ≠ 0 ∧ s.vectorInfo current ≠ a then
    moveAt (s.vectorInfo current) (-1) v
  else v

/-- The caller holds the vector with the bitmap, which has one reference more or is new
and has one; another vector that the caller held has one less, and nothing else changed. -/
inductive Installed (s t : State) (current : Pid) (bitmap : UInt32) : Prop
  | reused {v : StructVector} : v ∈ s.registry.vecList → v.overfuncsBitmap = bitmap →
      v.overriddenSyscallsAddress ≠ 0 →
      t.tasks = Function.update s.tasks current (some v.overriddenSyscallsAddress) →
      (v.addRef 1).refcount.toInt = v.refcount.toInt + 1 →
      t.registry.vecList = (s.registry.vecList.map
        (dropHeld s current v.overriddenSyscallsAddress)).map
          (moveAt v.overriddenSyscallsAddress 1) →
      Installed s t current bitmap
  | registered {w : StructVector} : w.overfuncsBitmap = bitmap →
      w.overriddenSyscallsAddress ≠ 0 → w.refcount = 1 →
      t.tasks = Function.update s.tasks current (some w.overriddenSyscallsAddress) →
      t.registry.vecList = w :: s.registry.vecList.map
        (dropHeld s current w.overriddenSyscallsAddress) →
      Installed s t current bitmap

/-- The creations that install: a vector with a chain is found, its count can still grow,
and the caller holds it or no registered vector; or none is found, the bitmap has a bit
with a branch, and the caller holds no registered vector. -/
inductive Installs (s : State) (current : Pid) (bitmap : UInt32) : Prop
  | reuse {v : StructVector} : s.registry.lookup (.bitmap bitmap) = some v →
      v.overriddenSyscallsAddress ≠ 0 → v.refcount ≠ Int32.maxValue →
      (s.vectorInfo current = v.overriddenSyscallsAddress ∨ ¬HoldsRegistered s current) →
      Installs s current bitmap
  | register : s.registry.lookup (.bitmap bitmap) = none →
      (∃ row ∈ vectorBranches, bitmap &&& row.1 ≠ 0) → ¬HoldsRegistered s current →
      Installs s current bitmap

section
variable {s : State} {current : Pid} {bitmap : UInt32} {a : Address}

/-- Nothing is dropped when the caller holds the same vector again, or no registered one. -/
theorem map_dropHeld (h : s.vectorInfo current = a ∨ ¬HoldsRegistered s current) :
    s.registry.vecList.map (dropHeld s current a) = s.registry.vecList := by
  conv_rhs => rw [← List.map_id s.registry.vecList]
  refine List.map_congr_left fun w hw => ?_
  rw [dropHeld]
  split
  · rename_i hleft
    have hnot := h.resolve_left hleft.2
    refine moveAt_of_ne (-1) fun he => hnot ⟨hleft.1, ?_⟩
    exact he ▸ mem_addresses hw
  · rfl

/-- Otherwise some entry has to change. -/
theorem exists_dropHeld (h : ¬(s.vectorInfo current = a ∨ ¬HoldsRegistered s current)) :
    ∃ w ∈ s.registry.vecList, w.overriddenSyscallsAddress ≠ a ∧
      dropHeld s current a w = w.addRef (-1) := by
  push Not at h
  obtain ⟨hne, hheld⟩ := h
  obtain ⟨w, hw, hinfo⟩ := List.mem_map.mp hheld.2
  refine ⟨w, hw, hinfo ▸ hne, ?_⟩
  rw [dropHeld, if_pos ⟨hheld.1, hne⟩, moveAt_self (-1) hinfo]

/-- Dropping the held vector leaves vectors without a chain alone. -/
theorem dropHeld_null {w : StructVector} (h : w.overriddenSyscallsAddress = 0) :
    dropHeld s current a w = w := by
  rw [dropHeld]
  split
  · rename_i hleft
    exact moveAt_of_ne (-1) fun he => hleft.1 (he.symm.trans h)
  · rfl

/-- The pointer that a task got tells which chain it got. -/
theorem update_tasks_inj {tasks : Pid → Option Address} {b : Address}
    (h : Function.update tasks current (some a) = Function.update tasks current (some b)) :
    a = b := by
  have hat := congrFun h current
  rw [Function.update_self, Function.update_self] at hat
  exact Option.some.inj hat

/-- A vector that is found is installed unless its count wraps or another is left behind. -/
theorem reuse_installed_iff {v : StructVector} (hdistinct : DistinctAddresses s.registry)
    (hlive : ∃ a, s.tasks current = some a)
    (hv : s.registry.lookup (.bitmap bitmap) = some v) (h0 : v.overriddenSyscallsAddress ≠ 0) :
    Installed s (holdDynamic (searched s bitmap) current v.overriddenSyscallsAddress) current
        bitmap ↔
      v.refcount ≠ Int32.maxValue ∧
        (s.vectorInfo current = v.overriddenSyscallsAddress ∨ ¬HoldsRegistered s current) := by
  obtain ⟨held, hlive⟩ := hlive
  have hmem := lookup_mem hv
  have hbitmap : v.overfuncsBitmap = bitmap := by simpa [Key.isMatch] using lookup_isMatch hv
  have hentries : (holdDynamic (searched s bitmap) current
      v.overriddenSyscallsAddress).registry.vecList =
        s.registry.vecList.map (moveAt v.overriddenSyscallsAddress 1) :=
    hdistinct.adjust_eq_map hv h0 1
  have htasks : (holdDynamic (searched s bitmap) current v.overriddenSyscallsAddress).tasks =
      Function.update s.tasks current (some v.overriddenSyscallsAddress) :=
    State.setVectorInfo_tasks_of_live _ hlive
  constructor
  · intro h
    cases h with
    | @reused w hw _ _ hgot hexact hafter =>
      have haddress := update_tasks_inj (htasks.symm.trans hgot)
      obtain rfl := hdistinct.eq_of_address hmem hw h0 haddress.symm
      refine ⟨(toInt_addRef_one_iff w).mp hexact, ?_⟩
      by_contra hleft
      obtain ⟨u, hu, hne, hdrop⟩ := exists_dropHeld hleft
      rw [hentries, List.map_map] at hafter
      have hat := List.map_inj_left.mp hafter u hu
      rw [Function.comp_apply, hdrop, moveAt_of_ne 1 hne, moveAt_addRef, if_neg hne] at hat
      exact addRef_ne_self (by decide) u hat.symm
    | registered _ _ _ _ hafter =>
      have hlength := congrArg List.length (hentries.symm.trans hafter)
      rw [List.length_cons, List.length_map, List.length_map] at hlength
      omega
  · rintro ⟨hmax, hleft⟩
    refine .reused hmem hbitmap h0 htasks ((toInt_addRef_one_iff v).mpr hmax) ?_
    rw [map_dropHeld hleft, hentries]

/-- A new vector is installed if it has a chain, no vector had its bitmap, and none is left
behind. -/
theorem build_installed_iff {b : Builder} {va : Address} (hva : Good va)
    (hlive : ∃ a, s.tasks current = some a) (hfound : foundChain s bitmap = 0)
    (hnew : b.listHead ≠ 0 → b.listHead ∉ addresses s.registry) :
    Installed s (builtState s current bitmap b va) current bitmap ↔
      s.registry.lookup (.bitmap bitmap) = none ∧ b.listHead ≠ 0 ∧
        ¬HoldsRegistered s current := by
  obtain ⟨held, hlive⟩ := hlive
  have hentries : (builtState s current bitmap b va).registry.vecList =
      dynamicEntry bitmap b.listHead :: (s.registry.adjust (.bitmap bitmap) 1).vecList := by
    change (registered s.registry bitmap b.listHead va).vecList = _
    rw [registered, if_pos hva]
    rfl
  have htasks : (builtState s current bitmap b va).tasks =
      Function.update s.tasks current (some b.listHead) :=
    State.setVectorInfo_tasks_of_live _ hlive
  constructor
  · intro h
    cases h with
    | reused _ _ _ _ _ hafter =>
      have hlength := congrArg List.length (hentries.symm.trans hafter)
      rw [List.length_cons, List.length_map, List.length_map, adjust_vecList,
        length_updateFirst] at hlength
      omega
    | @registered w _ h0 _ hgot hafter =>
      have haddress := update_tasks_inj (htasks.symm.trans hgot)
      rw [← haddress] at h0 hafter
      have hrest := (List.cons.inj (hentries.symm.trans hafter)).2
      have hnone : s.registry.lookup (.bitmap bitmap) = none := by
        cases hv : s.registry.lookup (.bitmap bitmap) with
        | none => rfl
        | some v =>
          rw [adjust_vecList] at hrest
          have hat := apply_of_updateFirst_eq_map hv hrest
          rw [dropHeld_null ((foundChain_some hv).symm.trans hfound)] at hat
          exact absurd hat (addRef_ne_self (by decide) v)
      refine ⟨hnone, h0, fun hheld => ?_⟩
      have hleft : ¬(s.vectorInfo current = b.listHead ∨ ¬HoldsRegistered s current) := by
        rintro (he | hnot)
        · exact hnew h0 (he ▸ hheld.2)
        · exact hnot hheld
      obtain ⟨u, hu, -, hdrop⟩ := exists_dropHeld hleft
      rw [adjust_none hnone, ← List.map_id s.registry.vecList, List.map_map] at hrest
      have hat := List.map_inj_left.mp hrest u hu
      rw [Function.comp_apply, id, hdrop] at hat
      exact addRef_ne_self (by decide) u hat.symm
  · rintro ⟨hnone, h0, hheld⟩
    refine .registered (w := dynamicEntry bitmap b.listHead) rfl h0 rfl htasks ?_
    rw [hentries, adjust_none hnone]
    exact congrArg _ (map_dropHeld (a := b.listHead) (.inr hheld)).symm

theorem installs_found_iff {v : StructVector} (hv : s.registry.lookup (.bitmap bitmap) = some v)
    (h0 : v.overriddenSyscallsAddress ≠ 0) :
    Installs s current bitmap ↔
      v.refcount ≠ Int32.maxValue ∧
        (s.vectorInfo current = v.overriddenSyscallsAddress ∨ ¬HoldsRegistered s current) := by
  constructor
  · intro h
    cases h with
    | reuse hw _ hmax hleft =>
      obtain rfl := Option.some.inj (hv.symm.trans hw)
      exact ⟨hmax, hleft⟩
    | register hnone _ _ =>
      rw [hv] at hnone
      cases hnone
  · exact fun h => .reuse hv h0 h.1 h.2

theorem installs_notFound_iff (hfound : foundChain s bitmap = 0) :
    Installs s current bitmap ↔
      s.registry.lookup (.bitmap bitmap) = none ∧
        (∃ row ∈ vectorBranches, bitmap &&& row.1 ≠ 0) ∧ ¬HoldsRegistered s current := by
  constructor
  · intro h
    cases h with
    | reuse hv h0 _ _ => exact absurd ((foundChain_some hv).symm.trans hfound) h0
    | register hnone hrow hheld => exact ⟨hnone, hrow, hheld⟩
  · exact fun h => .register h.1 h.2.1 h.2.2

/-- When no allocation fails, a bitmap gets a chain if it has a bit with a branch. -/
theorem headOf_ne_zero_iff {env : Env} (halloc : AllocSucceed env) (bitmap : UInt32) :
    headOf bitmap env.node 0 vectorBranches ≠ 0 ↔
      ∃ row ∈ vectorBranches, bitmap &&& row.1 ≠ 0 := by
  rw [ne_eq, headOf_eq_zero_iff, builtRows_allocSucceed halloc]
  constructor
  · intro h
    obtain ⟨e, he⟩ := List.exists_mem_of_ne_nil _ h
    obtain ⟨row, hrow, hbit, -⟩ := mem_selectedRows.mp he
    exact ⟨row, hrow, hbit⟩
  · rintro ⟨row, hrow, hbit⟩
    exact List.ne_nil_of_mem (mem_selectedRows.mpr ⟨row, hrow, hbit, rfl⟩)

theorem createOutcome_installed_iff {t : State} {err : Int32} {env : Env}
    (hhead : s.listHead .dynamicVector = 0)
    (hchains : ∀ v ∈ s.registry.vecList, FaithfulChain s.heap v)
    (hdistinct : DistinctAddresses s.registry) (hlive : ∃ a, s.tasks current = some a)
    (hfresh : FreshNodes s.heap env.node) (halloc : AllocSucceed env)
    (h : CreateOutcome s current bitmap env t err) :
    Installed s t current bitmap ↔ Installs s current bitmap := by
  cases h with
  | reuse hv h0 => rw [reuse_installed_iff hdistinct hlive hv h0, installs_found_iff hv h0]
  | abandon _ hfail =>
    rcases hfail with ⟨htemp, -⟩ | ⟨hpre, -⟩
    · exact absurd htemp halloc.temp
    · exact absurd hpre halloc.vectorPrefix
  | build hfound _ _ hadd =>
    have hlistHead := addBranches_listHead hadd
    rw [if_pos hhead] at hlistHead
    have hbuilt := createBuilt hhead hfresh hadd
    rw [build_installed_iff halloc.va hlive hfound (built_not_registered hchains hbuilt),
      installs_notFound_iff hfound, hlistHead, headOf_ne_zero_iff halloc]

end

/-- In every reachable state, a creation with a valid bitmap and without failures returns,
and installs a vector with the bitmap if and only if it is one of those that `Installs`
lists. -/
theorem create_installs_iff {boot s : State} (hboot : Booted boot)
    (hrun : Run step FreshIoctl boot s) (current : Pid) (hlive : ∃ a, s.tasks current = some a)
    (param : IoctlParam) (hvalid : validateBitmap param.userBitmap = 0) (env : Env)
    (hfresh : FreshNodes s.heap env.node) (halloc : AllocSucceed env)
    (hcopy : env.copyFromUser = true) :
    ∃ result, customIoctl s current IOCTL_CREATE_FROM_BITMAP param env = .ok result ∧
      (Installed s result.state current param.userBitmap ↔
        Installs s current param.userBitmap) := by
  obtain ⟨hidle, hchains, hdistinct⟩ := run_distinct hboot hrun
  obtain ⟨t, err, hcall, houtcome⟩ := customIoctl_create_returns current hidle.listHead hfresh
    ⟨halloc.buf, halloc.kernelBitmap, hcopy⟩ hvalid
  exact ⟨_, hcall, createOutcome_installed_iff hidle.listHead hchains hdistinct hlive hfresh
    halloc houtcome⟩

/-- The first creation after boot installs. -/
theorem create_installs_boot :
    ∃ result, customIoctl sampleBoot task1 IOCTL_CREATE_FROM_BITMAP (bitmapParam 11)
        (sampleEnv 12288) = .ok result ∧ Installed sampleBoot result.state task1 11 := by
  obtain ⟨result, hcall, hiff⟩ := create_installs_iff booted_sampleBoot .refl task1
    ⟨0, by decide⟩ (bitmapParam 11) (by decide) (sampleEnv 12288) freshNodes_sampleBoot
    allocSucceed_sampleEnv rfl
  have hinstalls : Installs sampleBoot task1 11 :=
    .register (by decide) (by decide) fun h => h.1 (by decide)
  exact ⟨result, hcall, hiff.mpr hinstalls⟩

/-- A task that holds `Vector55` and asks for the bitmap of vector2 keeps its reference to
`Vector55`. -/
theorem create_keeps_old_reference :
    ¬∀ boot s current param env result, Booted boot → Run step FreshIoctl boot s →
      (∃ a, s.tasks current = some a) → validateBitmap param.userBitmap = 0 →
      FreshNodes s.heap env.node → AllocSucceed env → env.copyFromUser = true →
      customIoctl s current IOCTL_CREATE_FROM_BITMAP param env = .ok result →
      Installed s result.state current param.userBitmap := by
  intro hall
  let set : Op := .ioctl task1 IOCTL_SET (nameParam vector1Name) (sampleEnv 12288)
  have hset : FreshIoctl sampleBoot set := freshIoctl freshNodes_sampleBoot
  have hrun : Run step FreshIoctl sampleBoot holdingState := Run.single (a := set) hset rfl
  have hlive : ∃ a, holdingState.tasks task1 = some a := ⟨_, rfl⟩
  have hfresh : FreshNodes holdingState.heap (sampleEnv 12288).node := freshNodes_sampleBoot
  obtain ⟨hidle, hchains, hdistinct⟩ := run_distinct booted_sampleBoot hrun
  have hvalid : validateBitmap (bitmapParam 968).userBitmap = 0 := by decide
  obtain ⟨t, err, hcall, houtcome⟩ := customIoctl_create_returns task1 hidle.listHead hfresh
    ⟨by decide, by decide, rfl⟩ hvalid
  have hinstalled := hall sampleBoot holdingState task1 (bitmapParam 968) (sampleEnv 12288) _
    booted_sampleBoot hrun hlive hvalid hfresh allocSucceed_sampleEnv rfl hcall
  rw [createOutcome_installed_iff hidle.listHead hchains hdistinct hlive hfresh
    allocSucceed_sampleEnv houtcome] at hinstalled
  obtain ⟨v, hv, haddress⟩ : ∃ v, holdingState.registry.lookup (.bitmap 968) = some v ∧
      v.overriddenSyscallsAddress = 8192 := ⟨_, rfl, rfl⟩
  have hheld : HoldsRegistered holdingState task1 := ⟨by decide, by decide⟩
  obtain ⟨-, hleft⟩ := (installs_found_iff hv (by rw [haddress]; decide)).mp hinstalled
  rw [haddress] at hleft
  exact hleft.elim (by decide) fun hnot => hnot hheld

end SyscallVector.Audit
