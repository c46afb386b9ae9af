import SyscallVector.Audit.ReferenceLedger

/-!
# A vector in use pins its module

The counter of a module is to cover the counts of its vectors. Counts are signed and
`reduce_ref_count` has no lower guard, so a vector of dynamic_vector that goes below
zero hides a use of another. While no release finds the count of a dynamic vector at
zero or below, every surplus stays non-negative and the cover holds.
-/
namespace SyscallVector.Audit

set_option autoImplicit false

open Lib Model

/-- An event that drops a reference, and the key it searches for. -/
inductive Releases (s : State) : Op → Key → Prop
  | remove {current : Pid} {request : UInt32} {param : IoctlParam} {env : Env} :
      request = IOCTL_REMOVE → NameRead env →
      Releases s (.ioctl current request param env) (nameKey param)
  | exit {current : Pid} : s.vectorInfo current ≠ 0 →
      Releases s (.exit current) (.address (s.vectorInfo current))

theorem releases_ioctl {s : State} {current : Pid} {request : UInt32} {param : IoctlParam}
    {env : Env} {k : Key} (h : Releases s (.ioctl current request param env) k) :
    request = IOCTL_REMOVE := by
  cases h with
  | remove hreq _ => exact hreq

/-- The events by which tasks take and drop references. -/
def IsReferenceOp : Op → Prop
  | .ioctl .. | .copyProcess .. | .exit _ => True
  | _ => False

/-- No release finds a dynamic vector at zero or below, or a count at `INT_MIN`. -/
structure NoDeficit (s : State) (op : Op) : Prop where
  reference : IsReferenceOp op
  covered : ∀ k v, Releases s op k → s.registry.lookup k = some v →
    (v.vectorModule = .dynamicVector → 0 < v.refcount) ∧ v.refcount ≠ Int32.minValue

/-- The least exact count of a vector of a module. -/
def leastCount (m : Module) : ℤ := if m = .dynamicVector then 0 else -2 ^ 31

/-- Every module covers the exact counts of its vectors; the modules other than
dynamic_vector own one vector each. -/
structure Pinned (l : Ledger StructVector) (r : Registry) : Prop where
  recorded : Recorded l r
  backed : ∀ m, 0 ≤ surplus l r m
  least : ∀ e ∈ l, leastCount e.1.vectorModule ≤ e.2
  single : (r.vecList.map StructVector.vectorModule).Pairwise fun m m' =>
    m = m' → m = .dynamicVector

section
variable {l : Ledger StructVector} {r : Registry} {k : Key} {d : ℤ}

theorem Pinned.adjust (h : Pinned l r)
    (hd : ∀ v c, r.lookup k = some v → v.refcount = Int32.ofInt c →
      leastCount v.vectorModule ≤ c → leastCount v.vectorModule ≤ c + d) :
    ∃ l', Pinned l' (r.adjust k d) := by
  refine ⟨ledgerMove k d l, h.recorded.adjust k d, fun m => ?_, ?_, ?_⟩
  · rw [surplus_adjust h.recorded]
    exact h.backed m
  · cases hv : r.lookup k with
    | none =>
      have hnone : (l.map Prod.fst).find? k.isMatch = none := by rwa [h.recorded.entries]
      rw [ledgerMove, move_of_find?_none hnone]
      exact h.least
    | some v =>
      obtain ⟨c, hc⟩ := h.recorded.found hv
      have hmem := entryOf_mem hc
      have hnew := hd v c hv (h.recorded.counts _ hmem) (h.least _ hmem)
      intro e he
      rcases mem_updateFirst he with he | ⟨e', he', rfl⟩
      · exact h.least e he
      · obtain rfl := Option.some.inj (hc.symm.trans he')
        exact hnew
  · rw [adjust_map r k d StructVector.vectorModule fun _ => rfl]
    exact h.single

theorem Pinned.acquire (h : Pinned l r) (k : Key) : ∃ l', Pinned l' (r.adjust k 1) :=
  h.adjust fun _ _ _ _ hc => by omega

/-- A release that leaves the count above its least value. -/
theorem Pinned.release (h : Pinned l r)
    (hcover : ∀ v, r.lookup k = some v →
      (v.vectorModule = .dynamicVector → 0 < v.refcount) ∧ v.refcount ≠ Int32.minValue) :
    ∃ l', Pinned l' (r.adjust k (-1)) := by
  refine h.adjust fun v c hv hcount hleast => ?_
  obtain ⟨hdynamic, hmin⟩ := hcover v hv
  unfold leastCount at hleast ⊢
  by_cases hm : v.vectorModule = .dynamicVector
  · rw [if_pos hm] at hleast ⊢
    have hne : c ≠ 0 := by
      rintro rfl
      rw [hcount] at hdynamic
      exact absurd (hdynamic hm) (by decide)
    omega
  · rw [if_neg hm] at hleast ⊢
    have hne : c ≠ -2 ^ 31 := by
      rintro rfl
      exact hmin (hcount.trans (by decide))
    omega

theorem Pinned.registered (h : Pinned l r) (bitmap : UInt32) (a va : Address) :
    ∃ l', Pinned l' (registered r bitmap a va) := by
  obtain ⟨l', h'⟩ := h.acquire (.bitmap bitmap)
  have hrecorded := h'.recorded.tryModuleGet .dynamicVector
  rw [Audit.registered]
  by_cases hva : Good va
  · rw [if_pos hva]
    refine ⟨(dynamicEntry bitmap a, 1) :: l', hrecorded.push (by rfl), fun m => ?_, ?_, ?_⟩
    · rw [surplus_push, surplus_tryModuleGet]
      have hbacked := h'.backed m
      change 0 ≤ _ - if Module.dynamicVector = m then (1 : ℤ) else 0
      omega
    · intro e he
      rcases List.mem_cons.mp he with rfl | he
      · change leastCount .dynamicVector ≤ 1
        decide
      · exact h'.least e he
    · refine List.pairwise_cons.mpr ⟨fun m _ _ => rfl, h'.single⟩
  · rw [if_neg hva]
    refine ⟨l', hrecorded, fun m => ?_, h'.least, h'.single⟩
    rw [surplus_tryModuleGet]
    have hbacked := h'.backed m
    split <;> omega

/-- A positive count is the truncation of a positive exact count. -/
theorem Pinned.pos (h : Pinned l r) {v : StructVector} {c : ℤ} (he : (v, c) ∈ l)
    (hv : 0 < v.refcount) : 0 < c := by
  have hcount := h.recorded.counts _ he
  have hleast := h.least _ he
  change v.refcount = Int32.ofInt c at hcount
  change leastCount v.vectorModule ≤ c at hleast
  have hfloor : -2 ^ 31 ≤ c := by
    unfold leastCount at hleast
    split at hleast <;> omega
  rw [hcount, Int32.lt_iff_toInt_lt, Int32.toInt_ofInt, Int32.toInt_zero, Int.bmod_def] at hv
  have hsize : (Int32.size : ℤ) = 2 ^ 32 := rfl
  by_contra hneg
  rw [hsize] at hv
  omega

/-- The count of a module covers each exact count of its vectors. -/
theorem Pinned.covers (h : Pinned l r) {v : StructVector} {c : ℤ} (he : (v, c) ∈ l) :
    c ≤ r.moduleRefs v.vectorModule := by
  obtain ⟨as, bs, hl⟩ := List.append_of_mem he
  have hsingle := h.single
  rw [← h.recorded.entries, hl, List.map_map, List.map_append, List.map_cons,
    List.pairwise_append, List.pairwise_cons] at hsingle
  obtain ⟨-, ⟨hafter, -⟩, hbefore⟩ := hsingle
  have hother : ∀ e' ∈ as ++ bs, e'.1.vectorModule = v.vectorModule → 0 ≤ e'.2 := by
    intro e' he' hm
    have hdynamic : e'.1.vectorModule = .dynamicVector := by
      rcases List.mem_append.mp he' with hmem | hmem
      · exact hbefore _ (List.mem_map_of_mem hmem) _ List.mem_cons_self hm
      · exact hm.trans (hafter _ (List.mem_map_of_mem hmem) hm.symm)
    have hmem : e' ∈ l := by
      rw [hl]
      rcases List.mem_append.mp he' with hmem | hmem
      · exact List.mem_append_left _ hmem
      · exact List.mem_append_right _ (List.mem_cons_of_mem _ hmem)
    have hleast := h.least e' hmem
    rwa [hdynamic] at hleast
  have hle := le_total StructVector.vectorModule (v, c) hother
  rw [← hl] at hle
  have hbacked := h.backed v.vectorModule
  rw [surplus] at hbacked
  change c ≤ total StructVector.vectorModule l v.vectorModule at hle
  omega

end

/-! ## Runs -/

theorem booted_pinned {s : State} (h : Booted s) : ∃ l, Pinned l s.registry := by
  obtain ⟨l, hrecorded, hzero, hsurplus⟩ := booted_recorded h
  obtain ⟨a₁, a₂, ps₁, ps₂, hshape⟩ := booted_shape h
  refine ⟨l, hrecorded, fun m => (hsurplus m).ge, fun e he => ?_, ?_⟩
  · rw [hzero e he]
    unfold leastCount
    split <;> decide
  · rw [hshape.registry]
    change [Module.vector2, Module.vector1].Pairwise _
    decide

theorem effect_pinned {s : State} {current : Pid} {request : UInt32} {param : IoctlParam}
    {env : Env} {result : IoctlResult} {l : Ledger StructVector} (hs : Pinned l s.registry)
    (hg : NoDeficit s (.ioctl current request param env))
    (h : IoctlEffect s current request param env result) :
    ∃ l', Pinned l' result.state.registry := by
  cases h with
  | unchanged => exact ⟨l, hs⟩
  | setNull | set => exact hs.acquire _
  | removeDeficit hreq hread | remove hreq hread =>
    exact hs.release fun v hv => hg.covered _ v (.remove hreq hread) hv
  | create _ _ _ hcreate =>
    cases hcreate with
    | reuse | abandon => exact hs.acquire _
    | build => exact hs.registered _ _ _

theorem step_pinned {s t : State} {op : Op} (hs : Named s.registry ∧ ∃ l, Pinned l s.registry)
    (hg : NoDeficit s op) (h : step s op = some t) :
    Named t.registry ∧ ∃ l, Pinned l t.registry := by
  obtain ⟨hnamed, l, hpinned⟩ := hs
  refine ⟨step_named hnamed h, ?_⟩
  cases op with
  | ioctl current request param env =>
    obtain ⟨-, -, result, hcall, rfl⟩ := step_ioctl h
    exact effect_pinned hpinned hg (customIoctl_cases hnamed.plain hcall)
  | copyProcess current child flags =>
    obtain ⟨-, -, rfl⟩ := step_copyProcess h
    unfold copyProcess
    split
    · exact hpinned.acquire _
    · exact ⟨l, hpinned⟩
  | exit current =>
    obtain ⟨-, rfl⟩ := step_exit h
    unfold exitTask
    dsimp only
    split
    case isTrue => exact ⟨l, hpinned⟩
    case isFalse hinfo => exact hpinned.release fun v hv => hg.covered _ v (.exit hinfo) hv
  | call | unregister | rmmod => exact hg.reference.elim

/-- In every run without such releases the module of a vector in use has a positive
count, so a module that can be unloaded has no vector in use. -/
theorem vector_in_use_pins_module {boot s : State} (hboot : Booted boot)
    (hrun : Run step NoDeficit boot s) :
    (∀ v ∈ s.registry.vecList, 0 < v.refcount → 0 < s.registry.moduleRefs v.vectorModule) ∧
      ∀ m t, rmmod s m = some t → ∀ v ∈ s.registry.vecList, v.vectorModule = m →
        v.refcount ≤ 0 := by
  obtain ⟨-, l, hpinned⟩ := hrun.invariant
    (fun s => Named s.registry ∧ ∃ l, Pinned l s.registry)
    (fun _ _ _ hs hg h => step_pinned hs hg h) ⟨booted_named hboot, booted_pinned hboot⟩
  have hpins : ∀ v ∈ s.registry.vecList, 0 < v.refcount →
      0 < s.registry.moduleRefs v.vectorModule := by
    intro v hv hcount
    obtain ⟨c, hc⟩ := hpinned.recorded.count hv
    exact lt_of_lt_of_le (hpinned.pos hc hcount) (hpinned.covers hc)
  refine ⟨hpins, fun m t hunload v hv hm => ?_⟩
  obtain ⟨-, -, hzero, -⟩ := rmmod_cases hunload
  by_contra hcount
  have hpos := hpins v hv (Int32.not_le.mp hcount)
  rw [hm, hzero] at hpos
  exact absurd hpos (by decide)

/-- Task 1 creates and holds `Vector1`, which pins dynamic_vector. -/
theorem vector_in_use_pins_dynamic :
    ∃ s, step sampleBoot (.ioctl task1 IOCTL_CREATE_FROM_BITMAP (bitmapParam 1)
        (sampleEnv 12288)) = some s ∧
      ∀ v ∈ s.registry.vecList, 0 < v.refcount → 0 < s.registry.moduleRefs v.vectorModule := by
  let op : Op := .ioctl task1 IOCTL_CREATE_FROM_BITMAP (bitmapParam 1) (sampleEnv 12288)
  obtain ⟨s, hs⟩ : ∃ s, step sampleBoot op = some s := ⟨_, rfl⟩
  have hguard : NoDeficit sampleBoot op := by
    exact ⟨trivial, fun k v hrel _ => absurd (releases_ioctl hrel) (by decide)⟩
  exact ⟨s, hs, (vector_in_use_pins_module booted_sampleBoot (Run.single hguard hs)).1⟩

/-- Task 1 holds `Vector1`; task 2 creates `Vector64` and removes it twice. The count of
dynamic_vector is then zero while `Vector1` is in use. -/
theorem vector_in_use_unpinned :
    ¬∀ boot s, Booted boot → Run step (fun s op => IsReferenceOp op ∧ op.Fresh s) boot s →
      ∀ v ∈ s.registry.vecList, 0 < v.refcount → 0 < s.registry.moduleRefs v.vectorModule := by
  intro hall
  let first : Op := .ioctl task1 IOCTL_CREATE_FROM_BITMAP (bitmapParam 1) (sampleEnv 12288)
  let name64 : IoctlParam := nameParam (vectorPrefix ++ decimal 64)
  let script : List Op :=
    [.ioctl task2 IOCTL_CREATE_FROM_BITMAP (bitmapParam 64) nodelessEnv,
      .ioctl task2 IOCTL_REMOVE name64 nodelessEnv, .ioctl task2 IOCTL_REMOVE name64 nodelessEnv]
  obtain ⟨m, hm⟩ : ∃ m, step sampleBoot first = some m := ⟨_, rfl⟩
  obtain ⟨s, hs⟩ : ∃ s, steps step sampleBoot (first :: script) = some s := ⟨_, rfl⟩
  have hrest : steps step m script = some s := by
    rw [steps, hm] at hs
    exact hs
  have hrun : Run step (fun s op => IsReferenceOp op ∧ op.Fresh s) m s := by
    refine Run.of_steps (fun t op hop => ?_) hrest
    simp only [script, List.mem_cons, List.not_mem_nil, or_false] at hop
    rcases hop with rfl | rfl | rfl <;> exact ⟨trivial, freshNodes_nodelessEnv t.heap⟩
  have hguard : IsReferenceOp first ∧ first.Fresh sampleBoot := ⟨trivial, freshNodes_sampleBoot⟩
  have hfirst : Run step (fun s op => IsReferenceOp op ∧ op.Fresh s) sampleBoot m :=
    Run.single hguard hm
  have hcounts : (steps step sampleBoot (first :: script)).map (fun t =>
      (t.registry.vecList.map fun v => (v.refcount, v.vectorModule),
        t.registry.moduleRefs .dynamicVector)) =
      some ([(-1, .dynamicVector), (1, .dynamicVector), (0, .vector2), (0, .vector1)], 0) := by
    decide
  rw [hs] at hcounts
  obtain ⟨hlist, hzero⟩ := Prod.mk.inj (Option.some.inj hcounts)
  have hmem : ((1 : Int32), Module.dynamicVector) ∈
      s.registry.vecList.map fun v => (v.refcount, v.vectorModule) := by
    rw [hlist]
    decide
  obtain ⟨v, hv, hpair⟩ := List.mem_map.mp hmem
  obtain ⟨hcount, hmodule⟩ := Prod.mk.inj hpair
  have hpos := hall sampleBoot s booted_sampleBoot (hfirst.trans hrun) v hv
    (by rw [hcount]; decide)
  rw [hmodule, hzero] at hpos
  exact absurd hpos (by decide)

end SyscallVector.Audit
