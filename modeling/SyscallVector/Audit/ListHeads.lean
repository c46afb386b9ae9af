import SyscallVector.Audit.IoctlRuns
import SyscallVector.Model.IoctlTraces

/-!
# The entries of list_heads

Every call that builds a chain stores its head in `list_heads`, also when the bitmap is
registered already or nothing could be registered. Nothing compares the index with the 256
entries of the array.
-/
namespace SyscallVector.Audit

set_option autoImplicit false

open Lib Model

/-- The call gets as far as building a chain: the bitmap is read and valid, no chain is found
for it, and both strings are allocated. -/
structure Builds (s : State) (request : UInt32) (param : IoctlParam) (env : Env) : Prop where
  request : request = IOCTL_CREATE_FROM_BITMAP
  read : BitmapRead env
  valid : validateBitmap param.userBitmap = 0
  notFound : foundChain s param.userBitmap = 0
  temp : env.temp ≠ 0
  vectorPrefix : env.vectorPrefix ≠ 0

instance (env : Env) : Decidable (BitmapRead env) :=
  decidable_of_iff (env.buf ≠ 0 ∧ env.kernelBitmap ≠ 0 ∧ env.copyFromUser = true)
    ⟨fun h => ⟨h.1, h.2.1, h.2.2⟩, fun h => ⟨h.buf, h.bitmap, h.copied⟩⟩

instance (s : State) (request : UInt32) (param : IoctlParam) (env : Env) :
    Decidable (Builds s request param env) :=
  decidable_of_iff (request = IOCTL_CREATE_FROM_BITMAP ∧ BitmapRead env ∧
      validateBitmap param.userBitmap = 0 ∧ foundChain s param.userBitmap = 0 ∧ env.temp ≠ 0 ∧
      env.vectorPrefix ≠ 0)
    ⟨fun h => ⟨h.1, h.2.1, h.2.2.1, h.2.2.2.1, h.2.2.2.2.1, h.2.2.2.2.2⟩,
      fun h => ⟨h.request, h.read, h.valid, h.notFound, h.temp, h.vectorPrefix⟩⟩

/-- The entries of the array. -/
def listHeadsLength : Nat := 256

/-- The calls that store to `list_heads`. -/
def takesSlot (s : State) : Op → Bool
  | .ioctl _ request param env => decide (Builds s request param env)
  | _ => false

section
variable {s t : State} {current : Pid} {param : IoctlParam} {env : Env} {result : IoctlResult}

/-- What a creation that returns has done with the heap and with `list_heads`. -/
inductive CreateTrace (s : State) (current : Pid) (param : IoctlParam) (env : Env) :
    IoctlResult → Prop
  | built {b : Builder} {ret : UInt64} {result : IoctlResult} :
      Builds s IOCTL_CREATE_FROM_BITMAP param env →
      addBranches param.userBitmap env.node 0 vectorBranches
        ⟨s.heap, s.listHead .dynamicVector⟩ 0 = .ok (b, ret, false) →
      result.state = builtState s current param.userBitmap b env.va →
      CreateTrace s current param env result
  | kept {result : IoctlResult} : ¬Builds s IOCTL_CREATE_FROM_BITMAP param env →
      result.state.listHeads = s.listHeads →
      (∀ a, s.heap a = none → result.state.heap a = none) → CreateTrace s current param env result

theorem deleteVector_none {heap heap' : Heap} {p a : Address}
    (h : deleteVector heap p = .ok heap') (ha : heap a = none) : heap' a = none := by
  rw [deleteVector] at h
  split at h
  · cases h
    exact ha
  · exact freeCells_none h ha

theorem createTrace (h : customIoctl s current IOCTL_CREATE_FROM_BITMAP param env = .ok result) :
    CreateTrace s current param env result := by
  by_cases hread : BitmapRead env ∧ validateBitmap param.userBitmap = 0
  · rw [customIoctl_create hread.1 hread.2] at h
    cases hadd : addVectorFromBitmap s current param.userBitmap env with
    | error fault =>
      rw [hadd] at h
      cases h
    | ok p =>
      obtain ⟨u, err⟩ := p
      rw [hadd] at h
      cases h
      cases addVectorFromBitmap_cases hadd with
      | reuse hv h0 =>
        refine .kept (fun hbuilds => ?_) rfl fun _ ha => ha
        exact h0 ((foundChain_some hv).symm.trans hbuilds.notFound)
      | abandon _ hfail =>
        refine .kept (fun hbuilds => ?_) rfl fun a ha => ?_
        · rcases hfail with ⟨htemp, -⟩ | ⟨hpre, -⟩
          · exact hbuilds.temp htemp
          · exact hbuilds.vectorPrefix hpre
        · rcases hfail with ⟨-, rfl⟩ | ⟨-, hdelete⟩
          · exact ha
          · exact deleteVector_none hdelete ha
      | build hfound htemp hpre hbranches =>
        exact .built ⟨rfl, hread.1, hread.2, hfound, htemp, hpre⟩ hbranches rfl
  · have hsame := customIoctl_bitmap_unread hread h
    refine .kept (fun hbuilds => hread ⟨hbuilds.read, hbuilds.valid⟩) ?_ ?_
    · rw [hsame]
    · rw [hsame]
      exact fun _ ha => ha

/-! ## One call -/

/-- A call that builds stores at the index that the counter has. -/
theorem stores_builds {b : Builder} {ret : UInt64}
    (h : Builds s IOCTL_CREATE_FROM_BITMAP param env)
    (hadd : addBranches param.userBitmap env.node 0 vectorBranches
      ⟨s.heap, s.listHead .dynamicVector⟩ 0 = .ok (b, ret, false)) :
    customIoctlStores s IOCTL_CREATE_FROM_BITMAP param env = [s.listHeads.length] := by
  have hsearch : addVectorStores (getModule s .ioctlModule) param.userBitmap env =
      [s.listHeads.length] := by
    have hret : ((getModule s .ioctlModule).registry.lookup (.bitmap param.userBitmap)).elim 0
        StructVector.overriddenSyscallsAddress = 0 := h.notFound
    have hbranches : addBranches param.userBitmap env.node 0 vectorBranches
        ⟨(getModule s .ioctlModule).heap, (getModule s .ioctlModule).listHead .dynamicVector⟩ 0 =
          .ok (b, ret, false) := hadd
    simp only [addVectorStores, checkAnyCurrentVector, Registry.acquire, hret, hbranches, h.temp,
      h.vectorPrefix, ne_eq, not_true_eq_false, ↓reduceIte]
    rfl
  rw [customIoctlStores, if_neg h.read.buf, if_pos rfl, if_neg h.read.bitmap,
    if_neg (by simp [h.read.copied]), if_neg (not_not_intro h.valid)]
  exact hsearch

/-- Every other call stores nothing. -/
theorem stores_not_builds (h : ¬Builds s IOCTL_CREATE_FROM_BITMAP param env) :
    customIoctlStores s IOCTL_CREATE_FROM_BITMAP param env = [] := by
  rw [customIoctlStores]
  by_cases hbuf : env.buf = 0
  · rw [if_pos hbuf]
  · rw [if_neg hbuf, if_pos rfl]
    by_cases hbitmap : env.kernelBitmap = 0
    · rw [if_pos hbitmap]
    · rw [if_neg hbitmap]
      by_cases hcopy : env.copyFromUser = true
      · rw [if_neg (by simp [hcopy])]
        by_cases hvalid : validateBitmap param.userBitmap = 0
        · rw [if_neg (not_not_intro hvalid)]
          change (if foundChain s param.userBitmap ≠ 0 then [] else _) = _
          by_cases hfound : foundChain s param.userBitmap = 0
          · rw [if_neg (not_not_intro hfound)]
            by_cases htemp : env.temp = 0
            · rw [if_pos htemp]
            · rw [if_neg htemp, if_pos]
              by_contra hpre
              exact h ⟨rfl, ⟨hbuf, hbitmap, hcopy⟩, hvalid, hfound, htemp, hpre⟩
          · rw [if_pos hfound]
        · rw [if_pos hvalid]
      · rw [if_pos (by simpa using hcopy)]

/-- A creation stores at the next index and moves it on, or does neither. -/
theorem step_stores {op : Op} (hop : op.IsCreate) (h : step s op = some t) :
    op.stores s = (if takesSlot s op then [s.listHeads.length] else []) ∧
      t.listHeads.length = s.listHeads.length + if takesSlot s op then 1 else 0 := by
  cases op with
  | ioctl current request param env =>
    obtain rfl : request = IOCTL_CREATE_FROM_BITMAP := hop
    obtain ⟨-, -, result, hcall, rfl⟩ := step_ioctl h
    change customIoctlStores s IOCTL_CREATE_FROM_BITMAP param env =
      (if decide (Builds s IOCTL_CREATE_FROM_BITMAP param env) = true then _ else _) ∧ _ =
        _ + if decide (Builds s IOCTL_CREATE_FROM_BITMAP param env) = true then 1 else 0
    cases createTrace hcall with
    | built hbuilds hadd hstate =>
      rw [if_pos (decide_eq_true hbuilds), if_pos (decide_eq_true hbuilds), hstate]
      exact ⟨stores_builds hbuilds hadd, List.length_append⟩
    | kept hnot hheads _ =>
      have hfalse : ¬decide (Builds s IOCTL_CREATE_FROM_BITMAP param env) = true := by
        simpa using hnot
      rw [if_neg hfalse, if_neg hfalse, hheads]
      exact ⟨stores_not_builds hnot, rfl⟩
  | copyProcess | exit | call | unregister | rmmod => exact hop.elim

/-! ## A bitmap that is built again and again -/

/-- A request for the bitmap 192, which has no branch. -/
def branchlessOp : Op := .ioctl task1 IOCTL_CREATE_FROM_BITMAP (bitmapParam 192) nodelessEnv

/-- No vector with the bitmap 192 has a chain, and task 1 can ask for one. -/
structure Branchless (s : State) : Prop where
  live : ∃ a, s.tasks task1 = some a
  loaded : s.loaded .dynamicVector = true
  head : s.listHead .dynamicVector = 0
  null : foundChain s 192 = 0

theorem branchless_step {s : State} (hs : Branchless s) :
    ∃ t, step s branchlessOp = some t ∧ takesSlot s branchlessOp = true ∧ Branchless t := by
  have hread : BitmapRead nodelessEnv := ⟨by decide, by decide, rfl⟩
  have hbuilds : Builds s IOCTL_CREATE_FROM_BITMAP (bitmapParam 192) nodelessEnv :=
    ⟨rfl, hread, by decide, hs.null, by decide, by decide⟩
  have hvalid : validateBitmap (bitmapParam 192).userBitmap = 0 := by decide
  obtain ⟨t, err, hcall, -⟩ := customIoctl_create_returns task1 hs.head
    (freshNodes_nodelessEnv s.heap) hread hvalid
  obtain ⟨held, hlive⟩ := hs.live
  have hstep : step s branchlessOp = some t := by
    rw [branchlessOp, step, if_neg (by simp [hlive]), if_neg (by simp [hs.loaded]), hcall]
    rfl
  refine ⟨t, hstep, decide_eq_true hbuilds, ?_⟩
  cases createTrace hcall with
  | kept hnot _ _ => exact absurd hbuilds hnot
  | @built b ret _ _ hadd hstate =>
    have hsame : addBranches (bitmapParam 192).userBitmap nodelessEnv.node 0 vectorBranches
        ⟨s.heap, s.listHead .dynamicVector⟩ 0 =
          .ok (⟨s.heap, s.listHead .dynamicVector⟩, 0, false) := rfl
    rw [hsame] at hadd
    cases hadd
    obtain rfl : t = builtState s task1 192 ⟨s.heap, s.listHead .dynamicVector⟩ 1 := hstate
    refine ⟨⟨s.listHead .dynamicVector, ?_⟩, hs.loaded, ?_, hs.head⟩
    · change (s.setVectorInfo task1 _).tasks task1 = _
      rw [State.setVectorInfo_tasks_of_live _ hlive, Function.update_self]
    · exact Function.update_self Module.dynamicVector (0 : Address) s.listHead

theorem branchless_run {s : State} (hs : Branchless s) (n : Nat) :
    ∃ t, steps step s (List.replicate n branchlessOp) = some t ∧
      (taken step takesSlot s (List.replicate n branchlessOp)).length = n := by
  induction n generalizing s with
  | zero => exact ⟨s, rfl, rfl⟩
  | succ n ih =>
    obtain ⟨m, hstep, htakes, hm⟩ := branchless_step hs
    obtain ⟨t, hrest, hcount⟩ := ih hm
    refine ⟨t, ?_, ?_⟩
    · rw [List.replicate_succ, steps, hstep]
      exact hrest
    · rw [List.replicate_succ, taken, outputs_cons hstep, if_pos htakes, List.length_append,
        List.length_singleton, Nat.add_comm]
      exact congrArg (· + 1) hcount

theorem branchless_boot : Branchless (insmodDynamicVector sampleBoot) :=
  ⟨⟨0, by decide⟩, by decide, by decide, by decide⟩

/-! ## Whole runs -/

/-- The stores of a sequence of creations go to consecutive entries. -/
theorem stores_eq_range' {ops : List Op} (hops : ∀ op ∈ ops, op.IsCreate)
    (hrun : steps step s ops = some t) :
    outputs step Op.stores s ops =
      List.range' s.listHeads.length (taken step takesSlot s ops).length :=
  outputs_counter (fun s => s.listHeads.length)
    (fun _ _ _ hop hstep => step_stores hop hstep) hops hrun

/-- After a load of dynamic_vector, the stores of a sequence of creations all stay inside
`list_heads` if and only if at most 256 of the calls build a chain. -/
theorem list_heads_in_bounds_iff {ops : List Op} (hops : ∀ op ∈ ops, op.IsCreate)
    (hrun : steps step (insmodDynamicVector s) ops = some t) :
    (∀ i ∈ outputs step Op.stores (insmodDynamicVector s) ops, i < listHeadsLength) ↔
      (taken step takesSlot (insmodDynamicVector s) ops).length ≤ listHeadsLength := by
  have hstart : (insmodDynamicVector s).listHeads.length = 0 := rfl
  rw [stores_eq_range' hops hrun, hstart]
  constructor
  · intro hall
    by_contra hmany
    have hlast := hall listHeadsLength (List.mem_range'_1.mpr ⟨Nat.zero_le _, by omega⟩)
    exact absurd hlast (Nat.lt_irrefl _)
  · intro hfew i hi
    have hbounds := (List.mem_range'_1.mp hi).2
    omega

end

/-- 256 requests for the bitmap 192 fill `list_heads` to its end. -/
theorem list_heads_in_bounds_full :
    ∃ t, steps step (insmodDynamicVector sampleBoot)
        (List.replicate listHeadsLength branchlessOp) = some t ∧
      ∀ i ∈ outputs step Op.stores (insmodDynamicVector sampleBoot)
        (List.replicate listHeadsLength branchlessOp), i < listHeadsLength := by
  obtain ⟨t, ht, hcount⟩ := branchless_run branchless_boot listHeadsLength
  refine ⟨t, ht, (list_heads_in_bounds_iff (fun op hop => ?_) ht).mpr hcount.le⟩
  obtain rfl := List.eq_of_mem_replicate hop
  rfl

/-- The last of 257 requests for the bitmap 192 stores behind the end of `list_heads`. -/
theorem list_heads_overrun :
    ¬∀ s ops t, (∀ op ∈ ops, op.IsCreate ∧ ∀ s, op.Fresh s) →
      steps step (insmodDynamicVector s) ops = some t →
      ∀ i ∈ outputs step Op.stores (insmodDynamicVector s) ops, i < listHeadsLength := by
  intro hall
  obtain ⟨t, hrun, hcount⟩ := branchless_run branchless_boot (listHeadsLength + 1)
  have hops : ∀ op ∈ List.replicate (listHeadsLength + 1) branchlessOp,
      op.IsCreate ∧ ∀ s, op.Fresh s := by
    intro op hop
    obtain rfl := List.eq_of_mem_replicate hop
    exact ⟨rfl, fun s => freshNodes_nodelessEnv s.heap⟩
  have hstart : (insmodDynamicVector sampleBoot).listHeads.length = 0 := rfl
  have hbounds := hall sampleBoot _ t hops hrun
  rw [stores_eq_range' (fun op hop => (hops op hop).1) hrun, hcount, hstart] at hbounds
  have hlast := hbounds listHeadsLength (List.mem_range'_1.mpr ⟨Nat.zero_le _, by omega⟩)
  exact absurd hlast (Nat.lt_irrefl _)

end SyscallVector.Audit
