import SyscallVector.Audit.VectorNames

/-!
# Runs of ioctl calls

From boot on, any number of tasks make any requests. Between two calls the
`listHead` of dynamic_vector is NULL, so every chain is built from nothing, and an
invariant of such a run has to be checked against the effects of one call only.
-/
namespace SyscallVector.Audit

set_option autoImplicit false

open Lib Model

section
variable {s t : State} {current : Pid} {request : UInt32} {param : IoctlParam} {env : Env}
  {result : IoctlResult}

theorem createOutcome_listHead {bitmap : UInt32} {err : Int32}
    (h : CreateOutcome s current bitmap env t err) : t.listHead .dynamicVector = 0 := by
  cases h with
  | reuse => exact Function.update_self Module.dynamicVector (0 : Address) s.listHead
  | abandon => exact Function.update_self Module.dynamicVector (0 : Address) s.listHead
  | build => exact Function.update_self Module.dynamicVector (0 : Address) s.listHead

/-- Every path through a creation clears `listHead`, and nothing else sets it. -/
theorem effect_listHead (hs : s.listHead .dynamicVector = 0)
    (h : IoctlEffect s current request param env result) :
    result.state.listHead .dynamicVector = 0 := by
  cases h with
  | unchanged | setNull | set | removeDeficit | remove => exact hs
  | create _ _ _ hcreate => exact createOutcome_listHead hcreate

/-- What holds between the calls of every run of ioctl calls. -/
structure Idle (s : State) : Prop where
  named : Named s.registry
  listHead : s.listHead .dynamicVector = 0

theorem booted_idle (h : Booted s) : Idle s := by
  obtain ⟨a₁, a₂, ps₁, ps₂, hshape⟩ := booted_shape h
  exact ⟨booted_named h, hshape.dynamicHead⟩

/-- Unloading clears the variable of vector1 or of vector2 only. -/
theorem rmmod_listHead {m : Module} (h : rmmod s m = some t) :
    t.listHead .dynamicVector = s.listHead .dynamicVector := by
  obtain ⟨-, -, -, u, rfl, ⟨rfl, w, hclean, rfl⟩ | ⟨hm, hclean⟩⟩ := rmmod_cases h
  · have hw : w.listHead .dynamicVector = s.listHead .dynamicVector :=
      cleanupHeads_invariant (fun w => w.listHead .dynamicVector = s.listHead .dynamicVector)
        (fun _ _ _ hw => hw) rfl hclean
    exact hw
  · obtain ⟨heap, -, rfl⟩ := cleanupVector_ok hclean
    refine Function.update_of_ne ?_ ..
    rcases hm with rfl | rfl <;> decide

theorem step_idle {op : Op} (hs : Idle s) (h : step s op = some t) : Idle t := by
  refine ⟨step_named hs.named h, ?_⟩
  cases op with
  | ioctl current request param env =>
    obtain ⟨-, -, result, hcall, rfl⟩ := step_ioctl h
    exact effect_listHead hs.listHead (customIoctl_cases hs.named.plain hcall)
  | copyProcess current child flags =>
    obtain ⟨-, -, rfl⟩ := step_copyProcess h
    unfold copyProcess
    split <;> exact hs.listHead
  | exit current =>
    obtain ⟨-, rfl⟩ := step_exit h
    exact hs.listHead
  | call | unregister =>
    obtain rfl := Option.some.inj h
    exact hs.listHead
  | rmmod m => exact (rmmod_listHead h).trans hs.listHead

theorem run_idle {boot : State} {guard : State → Op → Prop} (hboot : Booted boot)
    (hrun : Run step guard boot s) : Idle s :=
  hrun.invariant Idle (fun _ _ _ hs _ h => step_idle hs h) (booted_idle hboot)

/-- The induction over a run of ioctl calls, each with its effect. -/
theorem ioctlRun_invariant {boot : State} {guard : State → Op → Prop} (I : State → Prop)
    (hboot : Booted boot) (hinit : I boot) (hguard : ∀ s op, guard s op → op.IsIoctl)
    (hstep : ∀ s current request param env result, Idle s → I s →
      guard s (.ioctl current request param env) → (∃ a, s.tasks current = some a) →
      IoctlEffect s current request param env result → I result.state)
    (hrun : Run step guard boot s) : Idle s ∧ I s := by
  apply hrun.invariant (fun s => Idle s ∧ I s)
  · intro s op t hs hg h
    cases op with
    | ioctl current request param env =>
      obtain ⟨hlive, -, result, hcall, rfl⟩ := step_ioctl h
      have heffect := customIoctl_cases hs.1.named.plain hcall
      exact ⟨step_idle hs.1 h, hstep _ _ _ _ _ _ hs.1 hs.2 hg hlive heffect⟩
    | copyProcess | exit | call | unregister | rmmod => exact (hguard _ _ hg).elim
  · exact ⟨booted_idle hboot, hinit⟩

/-! ## Creation returns -/

/-- With fresh nodes a creation finds no cycle and no dangling pointer. -/
theorem addVectorFromBitmap_returns (current : Pid) (bitmap : UInt32)
    (hhead : s.listHead .dynamicVector = 0) (hfresh : FreshNodes s.heap env.node) :
    ∃ t err, addVectorFromBitmap s current bitmap env = .ok (t, err) := by
  cases h : addVectorFromBitmap s current bitmap env with
  | ok p => exact ⟨p.1, p.2, rfl⟩
  | error fault =>
    exfalso
    rw [addVectorFromBitmap_eq] at h
    split at h
    · cases h
    · split at h
      · cases h
      · split at h
        · have hhead' : (searched s bitmap).listHead .dynamicVector = 0 := hhead
          rw [undoVector, deleteVector, if_pos hhead'] at h
          cases h
        · obtain ⟨b, ret, hadd, -⟩ := addBranches_built vectorBranches bitmap
            (foundChain s bitmap) (Built.start s.heap) (freshFrom_zero hfresh)
          rw [hhead, hadd] at h
          cases h

theorem customIoctl_create_returns (current : Pid) (hhead : s.listHead .dynamicVector = 0)
    (hfresh : FreshNodes s.heap env.node) (hread : BitmapRead env)
    (hvalid : validateBitmap param.userBitmap = 0) :
    ∃ t err, customIoctl s current IOCTL_CREATE_FROM_BITMAP param env =
        .ok ⟨t, err.toInt64, none⟩ ∧
      CreateOutcome s current param.userBitmap env t err := by
  obtain ⟨t, err, hadd⟩ := addVectorFromBitmap_returns current param.userBitmap hhead hfresh
  refine ⟨t, err, ?_, addVectorFromBitmap_cases hadd⟩
  rw [customIoctl_create hread hvalid, hadd]
  rfl

/-! ## The heap -/

/-- A build is a chain of the rows that were added, on nodes that were free. -/
theorem createBuilt {bitmap : UInt32} {b : Builder} {ret : UInt64}
    (hhead : s.listHead .dynamicVector = 0) (hfresh : FreshNodes s.heap env.node)
    (hadd : addBranches bitmap env.node 0 vectorBranches ⟨s.heap, s.listHead .dynamicVector⟩ 0 =
      .ok (b, ret, false)) :
    Built s.heap b (builtRows bitmap env.node 0 vectorBranches) := by
  obtain ⟨b', ret', hadd', hbuilt⟩ := addBranches_built vectorBranches bitmap 0
    (Built.start s.heap) (freshFrom_zero hfresh)
  rw [hhead, hadd'] at hadd
  cases hadd
  exact hbuilt

/-- No call frees a node or writes to one that was allocated before it. -/
theorem effect_extends (hhead : s.listHead .dynamicVector = 0)
    (hfresh : FreshNodes s.heap env.node)
    (h : IoctlEffect s current request param env result) : Extends s.heap result.state.heap := by
  cases h with
  | unchanged | setNull | set | removeDeficit | remove => exact Extends.refl s.heap
  | create _ _ _ hcreate =>
    cases hcreate with
    | reuse => exact Extends.refl s.heap
    | abandon _ hfail =>
      rcases hfail with ⟨-, rfl⟩ | ⟨-, hdel⟩
      · exact Extends.refl s.heap
      · rw [deleteVector, if_pos hhead] at hdel
        cases hdel
        exact Extends.refl s.heap
    | build _ _ _ hadd => exact (createBuilt hhead hfresh hadd).grown

/-- The call registers a new vector. -/
structure Registers (s : State) (request : UInt32) (param : IoctlParam) (env : Env) : Prop where
  request : request = IOCTL_CREATE_FROM_BITMAP
  read : BitmapRead env
  valid : validateBitmap param.userBitmap = 0
  notFound : foundChain s param.userBitmap = 0
  temp : env.temp ≠ 0
  vectorPrefix : env.vectorPrefix ≠ 0
  va : Good env.va

theorem adjust_bitmaps (r : Registry) (k : Key) (d : Int) :
    (r.adjust k d).vecList.map StructVector.overfuncsBitmap =
      r.vecList.map StructVector.overfuncsBitmap :=
  adjust_map r k d StructVector.overfuncsBitmap fun _ => rfl

/-- The bitmaps of the list stay, or a new one goes in front of them. -/
theorem effect_bitmaps (h : IoctlEffect s current request param env result) :
    result.state.registry.vecList.map StructVector.overfuncsBitmap =
        s.registry.vecList.map StructVector.overfuncsBitmap ∨
      Registers s request param env ∧
        result.state.registry.vecList.map StructVector.overfuncsBitmap =
          param.userBitmap :: s.registry.vecList.map StructVector.overfuncsBitmap := by
  cases h with
  | unchanged => exact .inl rfl
  | setNull | set => exact .inl (adjust_bitmaps _ _ 1)
  | removeDeficit | remove => exact .inl (adjust_bitmaps _ _ (-1))
  | create hreq hread hvalid hcreate =>
    cases hcreate with
    | reuse | abandon => exact .inl (adjust_bitmaps _ _ 1)
    | @build b _ hfound htemp hpre _ =>
      change (registered s.registry param.userBitmap b.listHead env.va).vecList.map _ = _ ∨ _ ∧
        (registered s.registry param.userBitmap b.listHead env.va).vecList.map _ = _
      by_cases hva : Good env.va
      · refine .inr ⟨⟨hreq, hread, hvalid, hfound, htemp, hpre, hva⟩, ?_⟩
        rw [registered, if_pos hva]
        exact congrArg (param.userBitmap :: ·) (adjust_bitmaps s.registry _ 1)
      · refine .inl ?_
        rw [registered, if_neg hva]
        exact adjust_bitmaps s.registry _ 1

/-- A property of the registered vectors that does not mention their counts, survives
allocation and holds of each vector that is built, holds after a call. -/
theorem effect_vectors {P : Heap → StructVector → Prop}
    (hcount : ∀ heap v d, P heap v → P heap (v.addRef d))
    (hgrow : ∀ heap heap' v, Extends heap heap' → P heap v → P heap' v)
    (hbuild : ∀ b, validateBitmap param.userBitmap = 0 → foundChain s param.userBitmap = 0 →
      Built s.heap b (builtRows param.userBitmap env.node 0 vectorBranches) →
      P b.heap (dynamicEntry param.userBitmap b.listHead))
    (hhead : s.listHead .dynamicVector = 0) (hfresh : FreshNodes s.heap env.node)
    (hs : ∀ v ∈ s.registry.vecList, P s.heap v)
    (h : IoctlEffect s current request param env result) :
    ∀ v ∈ result.state.registry.vecList, P result.state.heap v := by
  have hextends := effect_extends hhead hfresh h
  have hkept (k : Key) (d : Int) :
      ∀ v ∈ (s.registry.adjust k d).vecList, P result.state.heap v :=
    forall_mem_adjust (fun v hv => hcount _ v d hv) (fun v hv => hgrow _ _ v hextends (hs v hv)) k
  cases h with
  | unchanged => exact hs
  | setNull | set => exact hkept _ 1
  | removeDeficit | remove => exact hkept _ (-1)
  | create _ _ hvalid hcreate =>
    cases hcreate with
    | reuse | abandon => exact hkept _ 1
    | @build b _ hfound _ _ hadd =>
      have hbuilt := createBuilt hhead hfresh hadd
      intro v hv
      change v ∈ (registered s.registry param.userBitmap b.listHead env.va).vecList at hv
      unfold registered at hv
      split at hv
      · rcases List.mem_cons.mp hv with rfl | hv
        · exact hbuild b hvalid hfound hbuilt
        · exact hkept _ 1 v hv
      · exact hkept _ 1 v hv

end

end SyscallVector.Audit
