import SyscallVector.Audit.Building

/-!
# The state that run_script builds

Two vectors are registered, vector2 first, with reference count zero; no task
holds a vector; their chains hold the calls of their modules and share no node.
-/
namespace SyscallVector.Audit

set_option autoImplicit false

open Lib Model

def bootVector1 (a : Address) : StructVector := newVector vector1Name a 0 .vector1 vector1Bitmap

def bootVector2 (a : Address) : StructVector := newVector vector2Name a 0 .vector2 vector2Bitmap

/-- What holds after boot, with the heads and the nodes of the two chains. -/
structure BootShape (s : State) (a₁ a₂ : Address) (ps₁ ps₂ : List Address) : Prop where
  registry : s.registry = ⟨[bootVector2 a₂, bootVector1 a₁], fun _ => 0⟩
  tasks : ∀ p a, s.tasks p = some a → a = 0
  listHeads : s.listHeads = []
  listHead₁ : s.listHead .vector1 = a₁
  listHead₂ : s.listHead .vector2 = a₂
  dynamicHead : s.listHead .dynamicVector = 0
  loaded₁ : s.loaded .vector1 = true
  loaded₂ : s.loaded .vector2 = true
  chain₁ : ChainAt s.heap a₁ ps₁
  entries₁ : entriesAt s.heap ps₁ = vector1Syscalls.map some
  chain₂ : ChainAt s.heap a₂ ps₂
  entries₂ : entriesAt s.heap ps₂ = vector2Syscalls.map some
  disjoint : ∀ a ∈ ps₁, a ∉ ps₂

/-- `initVector` that reports success has built and registered its whole chain. -/
theorem initVector_ok {s t : State} {m : Module} {name : List UInt8}
    {rows : List (SyscallNr × Handler)} {bitmap : UInt32} {node : Nat → Address} {va : Address}
    (hnil : s.listHead m = 0) (hfresh : FreshNodes s.heap node)
    (h : initVector s m name rows bitmap node va = .ok (t, 0)) :
    ∃ b, Built s.heap b rows ∧
      (∀ a, (∀ j, a ≠ node j) → s.heap a = none → b.heap a = none) ∧
      t = { s with
        heap := b.heap
        registry := pushVector s.registry (newVector name b.listHead 0 m bitmap)
        listHead := Function.update s.listHead m b.listHead } := by
  unfold initVector at h
  cases hadd : addSyscalls node 0 rows ⟨s.heap, s.listHead m⟩ with
  | error fault => rw [hadd] at h; cases h
  | ok p =>
    obtain ⟨b, ret⟩ := p
    rw [hadd] at h
    dsimp only at h
    by_cases hret : ret < 0
    · rw [if_pos hret] at h
      split at h
      · cases h
      · have hzero : ret = 0 := congrArg Prod.snd (Except.ok.inj h)
        rw [hzero] at hret
        exact absurd hret (by decide)
    · rw [if_neg hret] at h
      rw [hnil] at hadd
      obtain ⟨hbuilt, hframe⟩ :=
        addSyscalls_built (Built.start s.heap) (freshFrom_zero hfresh) hadd hret
      have hhead : Function.update s.listHead m b.listHead m = b.listHead := Function.update_self ..
      rw [registerSyscall, addVectorAddress] at h
      simp only [State.setListHead, hhead] at h
      by_cases hva : Good va
      · rw [addVector_good _ hva] at h
        refine ⟨b, hbuilt, hframe, ?_⟩
        exact (congrArg Prod.fst (Except.ok.inj h)).symm
      · obtain ⟨err, hneg, hbad⟩ := addVector_bad s.registry hva
          (newVector name b.listHead 0 m bitmap)
        rw [hbad] at h
        have hzero : err = 0 := congrArg Prod.snd (Except.ok.inj h)
        rw [hzero] at hneg
        exact absurd hneg (by decide)

theorem insmod_ok {m : Module} {r : Except Fault (State × Int32)} {t : State}
    (h : insmod m r = .ok (t, 0)) :
    ∃ s, r = .ok (s, 0) ∧ t = { s with loaded := Function.update s.loaded m true } := by
  cases r with
  | error fault => cases h
  | ok p =>
    obtain ⟨s, ret⟩ := p
    obtain rfl : ret = 0 := congrArg Prod.snd (Except.ok.inj h)
    exact ⟨s, rfl, (congrArg Prod.fst (Except.ok.inj h)).symm⟩

theorem runScript_loads {live : Pid → Bool} {node1 node2 : Nat → Address} {va1 va2 : Address}
    {s : State} {err1 err2 : Int32}
    (h : runScript live node1 va1 node2 va2 = .ok (s, err1, err2)) :
    ∃ s₁ ret1 s₂ ret2, insmodVector1 (kernelState live) node1 va1 = .ok (s₁, ret1) ∧
      insmodVector2 s₁ node2 va2 = .ok (s₂, ret2) ∧
      insmodDynamicVector s₂ = s ∧ ret1 = err1 ∧ ret2 = err2 := by
  rw [runScript] at h
  cases hload1 : insmodVector1 (kernelState live) node1 va1 with
  | error fault => rw [hload1] at h; cases h
  | ok p =>
    obtain ⟨s₁, ret1⟩ := p
    rw [hload1] at h
    change (insmodVector2 s₁ node2 va2 >>= _) = _ at h
    cases hload2 : insmodVector2 s₁ node2 va2 with
    | error fault => rw [hload2] at h; cases h
    | ok q =>
      obtain ⟨s₂, ret2⟩ := q
      rw [hload2] at h
      cases h
      exact ⟨s₁, err1, s₂, err2, rfl, hload2, rfl, rfl, rfl⟩

theorem booted_shape {s : State} (h : Booted s) : ∃ a₁ a₂ ps₁ ps₂, BootShape s a₁ a₂ ps₁ ps₂ := by
  obtain ⟨live, node1, va1, node2, va2, hfresh1, hapart, hfresh2, hrun⟩ := h
  obtain ⟨s₁, _, s₂, _, hload1, hload2, rfl, rfl, rfl⟩ := runScript_loads hrun
  obtain ⟨t₁, hinit1, rfl⟩ := insmod_ok hload1
  obtain ⟨b₁, hbuilt1, hframe1, rfl⟩ := initVector_ok rfl hfresh1 hinit1
  obtain ⟨t₂, hinit2, rfl⟩ := insmod_ok hload2
  have hfree : FreshNodes b₁.heap node2 :=
    ⟨fun k hk => hframe1 _ (fun j hj => hapart j k (hj ▸ hk) hj.symm) rfl, hfresh2.distinct⟩
  obtain ⟨b₂, hbuilt2, -, rfl⟩ := initVector_ok rfl hfree hinit2
  obtain ⟨ps₁, hps₁, hent₁, -⟩ := hbuilt1.chain
  obtain ⟨ps₂, hps₂, hent₂, hnew₂⟩ := hbuilt2.chain
  refine ⟨b₁.listHead, b₂.listHead, ps₁, ps₂, ?_⟩
  constructor
  case registry => rfl
  case tasks =>
    intro p a hp
    change (if live p then some (0 : Address) else none) = some a at hp
    split at hp
    · exact (Option.some.inj hp).symm
    · cases hp
  case listHeads => rfl
  case listHead₁ => rfl
  case listHead₂ => rfl
  case dynamicHead => rfl
  case loaded₁ => rfl
  case loaded₂ => rfl
  case chain₁ => exact hps₁.extends hbuilt2.grown
  case entries₁ => exact (entriesAt_extends hps₁ hbuilt2.grown).trans hent₁
  case chain₂ => exact hps₂
  case entries₂ => exact hent₂
  case disjoint =>
    intro a ha₁ ha₂
    obtain ⟨n, hn⟩ := hps₁.allocated a ha₁
    have hnone : b₁.heap a = none := hnew₂ a ha₂
    rw [hn] at hnone
    cases hnone

/-- Neither chain is NULL, and they differ. -/
theorem BootShape.heads_ne {s : State} {a₁ a₂ : Address} {ps₁ ps₂ : List Address}
    (h : BootShape s a₁ a₂ ps₁ ps₂) : a₁ ≠ 0 ∧ a₂ ≠ 0 ∧ a₂ ≠ a₁ := by
  have h₁ : a₁ ≠ 0 := fun h0 => by
    have hnil := (chain_null_iff ⟨ps₁, h.chain₁, h.entries₁⟩).mp h0
    exact absurd hnil (by decide)
  have h₂ : a₂ ≠ 0 := fun h0 => by
    have hnil := (chain_null_iff ⟨ps₂, h.chain₂, h.entries₂⟩).mp h0
    exact absurd hnil (by decide)
  refine ⟨h₁, h₂, fun he => ?_⟩
  exact h.disjoint a₁ (h.chain₁.head_mem h₁) (he ▸ h.chain₂.head_mem h₂)

/-! ## A boot that succeeds -/

/-- A block of sixteen nodes from `base` on; every later allocation fails. -/
def slab (base : Nat) (k : Nat) : Address := if k < 16 then UInt64.ofNat (base + 32 * k) else 0

theorem toNat_slab {base k : Nat} (hbase : base + 512 ≤ 2 ^ 64) (hk : k < 16) :
    (slab base k).toNat = base + 32 * k := by
  rw [slab, if_pos hk, UInt64.toNat_ofNat', Nat.mod_eq_of_lt (by omega)]

theorem slab_ne_zero {base k : Nat} (h : slab base k ≠ 0) : k < 16 := by
  by_contra hk
  exact h (by rw [slab, if_neg hk])

/-- Blocks that do not overlap have no node in common. -/
theorem slab_ne_slab {base base' j k : Nat} (hbase : base + 512 ≤ base')
    (hbase' : base' + 512 ≤ 2 ^ 64) (hj : slab base j ≠ 0) : slab base j ≠ slab base' k := by
  intro he
  have hj' := slab_ne_zero hj
  have hk' := slab_ne_zero (he ▸ hj)
  have hnat := congrArg UInt64.toNat he
  rw [toNat_slab (by omega) hj', toNat_slab hbase' hk'] at hnat
  omega

theorem freshNodes_slab {heap : Heap} {base : Nat} (hbase : base + 512 ≤ 2 ^ 64)
    (hfree : ∀ k < 16, heap (slab base k) = none) : FreshNodes heap (slab base) := by
  refine ⟨fun k hk => hfree k (slab_ne_zero hk), fun j k hjk hj he => ?_⟩
  have hj' := slab_ne_zero hj
  have hk' := slab_ne_zero (he ▸ hj)
  have hnat := congrArg UInt64.toNat he
  rw [toNat_slab hbase hj', toNat_slab hbase hk'] at hnat
  omega

/-- The tasks 1, 2 and 3. -/
def sampleLive (p : Pid) : Bool := p.1.val ≤ 3

def task1 : Pid := ⟨1, by decide⟩

def task2 : Pid := ⟨2, by decide⟩

/-- A pid that no task has after boot. -/
def childTask : Pid := ⟨5, by decide⟩

/-- The state after run_script, with the chains in the blocks at 4096 and 8192. -/
def sampleBoot : State :=
  ((runScript sampleLive (slab 4096) 1 (slab 8192) 1).toOption.map Prod.fst).getD
    (kernelState sampleLive)

theorem booted_sampleBoot : Booted sampleBoot :=
  ⟨sampleLive, slab 4096, 1, slab 8192, 1, freshNodes_slab (by decide) fun _ _ => rfl,
    fun _ _ hj => slab_ne_slab (by decide) (by decide) hj,
    freshNodes_slab (by decide) fun _ _ => rfl, rfl⟩

theorem freshNodes_sampleBoot : FreshNodes sampleBoot.heap (slab 12288) :=
  freshNodes_slab (by decide) (by decide)

/-- Services that all succeed; the nodes come from the block at `base`. -/
def sampleEnv (base : Nat) : Env where
  buf := 1
  vectorName := 1
  pidBuf := 1
  kernelBitmap := 1
  reduceBuf := 1
  temp := 1
  vectorPrefix := 1
  node := slab base
  va := 1
  copyFromUser := true
  copyToUser := true

/-- Services that succeed, except that no node can be allocated. -/
def nodelessEnv : Env := { sampleEnv 0 with node := fun _ => 0 }

theorem freshNodes_nodelessEnv (heap : Heap) : FreshNodes heap nodelessEnv.node :=
  ⟨fun _ hk => absurd rfl hk, fun _ _ _ hj => absurd rfl hj⟩

def nameParam (name : List UInt8) : IoctlParam := ⟨name, ⟨0⟩, 0⟩

def bitmapParam (bitmap : UInt32) : IoctlParam := ⟨[], ⟨0⟩, bitmap⟩

end SyscallVector.Audit
