import SyscallVector.Audit.IoctlRuns

/-!
# The chains of registered vectors

Every node of a registered vector's chain is a flavour that its bitmap asks for,
and no system call is overridden twice: `validate_bitmap` refuses the two pairs of
bits that share a call. A chain stays as it was built, since later calls only
write to nodes that they allocate.
-/
namespace SyscallVector.Audit

set_option autoImplicit false

open Lib Model

/-- The ten flavours: the bit, the system call and the handler. -/
def flavours : List (UInt32 × SyscallNr × Handler) :=
  [(READ_OVERRIDE, .read, .overriddenRead),
    (WRITE_OVERRIDE, .write, .overriddenWrite),
    (OPEN_OVERRIDE, .open, .overriddenOpen),
    (CLOSE_OVERRIDE, .close, .overriddenClose),
    (UNLINK_OVERRIDE, .unlink, .overriddenUnlink),
    (LINK_OVERRIDE, .link, .overriddenLink),
    (MKDIR_OVERRIDE, .mkdir, .overriddenMkdir),
    (RMDIR_OVERRIDE, .rmdir, .overriddenRmdir),
    (WRITE_LOGGED, .write, .loggedWrite),
    (OPEN_BLOCKED, .open, .blockedOpen)]

/-- Every entry is a flavour of the bitmap, and no system call occurs twice. -/
structure Faithful (bitmap : UInt32) (entries : List (SyscallNr × Handler)) : Prop where
  flavour : ∀ e ∈ entries, ∃ row ∈ flavours, row.2 = e ∧ bitmap &&& row.1 ≠ 0
  once : (entries.map Prod.fst).Nodup

def FaithfulChain (heap : Heap) (v : StructVector) : Prop :=
  ∃ es, Chain heap v.overriddenSyscallsAddress es ∧ Faithful v.overfuncsBitmap es

/-! ## The branch table -/

/-- Two branches for one system call are the two for `write` or the two for `open`. -/
theorem vectorBranches_pairwise :
    vectorBranches.Pairwise fun row row' => row.2.1 = row'.2.1 →
      row.1 = WRITE_OVERRIDE ∧ row'.1 = WRITE_LOGGED ∨
        row.1 = OPEN_OVERRIDE ∧ row'.1 = OPEN_BLOCKED := by decide

theorem vectorBranches_subset : ∀ row ∈ vectorBranches, row ∈ flavours := by decide

theorem validateBitmap_exclusive {b : UInt32} (h : validateBitmap b = 0) :
    ¬(b &&& WRITE_OVERRIDE ≠ 0 ∧ b &&& WRITE_LOGGED ≠ 0) ∧
      ¬(b &&& OPEN_OVERRIDE ≠ 0 ∧ b &&& OPEN_BLOCKED ≠ 0) := by
  constructor
  · intro hwrite
    rw [validateBitmap, if_pos hwrite] at h
    exact absurd h (by decide)
  · intro hopen
    rw [validateBitmap, if_pos hopen] at h
    split at h <;> exact absurd h (by decide)

/-- The rows that a valid bitmap selects override each system call once. -/
theorem selected_once {b : UInt32} (h : validateBitmap b = 0) :
    ((selectedRows b vectorBranches).map Prod.fst).Nodup := by
  obtain ⟨hwrite, hopen⟩ := validateBitmap_exclusive h
  rw [selectedRows, List.map_map, List.Nodup, List.pairwise_map]
  refine (vectorBranches_pairwise.filter _).imp_of_mem fun {row row'} hrow hrow' hpair heq => ?_
  have hbit : b &&& row.1 ≠ 0 := by simpa using (List.mem_filter.mp hrow).2
  have hbit' : b &&& row'.1 ≠ 0 := by simpa using (List.mem_filter.mp hrow').2
  rcases hpair heq with ⟨h₁, h₂⟩ | ⟨h₁, h₂⟩
  · exact hwrite ⟨h₁ ▸ hbit, h₂ ▸ hbit'⟩
  · exact hopen ⟨h₁ ▸ hbit, h₂ ▸ hbit'⟩

theorem faithful_builtRows {b : UInt32} (h : validateBitmap b = 0) (node : Nat → Address) :
    Faithful b (builtRows b node 0 vectorBranches) := by
  have hsub := builtRows_sublist b node 0 vectorBranches
  refine ⟨fun e he => ?_, (selected_once h).sublist (hsub.map Prod.fst)⟩
  obtain ⟨row, hrow, rfl⟩ := List.mem_map.mp (hsub.subset he)
  obtain ⟨hmem, hbit⟩ := List.mem_filter.mp hrow
  exact ⟨row, vectorBranches_subset row hmem, rfl, by simpa using hbit⟩

theorem vector1_faithful : Faithful vector1Bitmap vector1Syscalls :=
  ⟨by decide, by decide⟩

theorem vector2_faithful : Faithful vector2Bitmap vector2Syscalls :=
  ⟨by decide, by decide⟩

/-! ## Runs -/

theorem booted_chains {s : State} (h : Booted s) :
    ∀ v ∈ s.registry.vecList, FaithfulChain s.heap v := by
  obtain ⟨a₁, a₂, ps₁, ps₂, hshape⟩ := booted_shape h
  rw [hshape.registry]
  intro v hv
  simp only [List.mem_cons, List.not_mem_nil, or_false] at hv
  rcases hv with rfl | rfl
  · exact ⟨vector2Syscalls, ⟨ps₂, hshape.chain₂, hshape.entries₂⟩, vector2_faithful⟩
  · exact ⟨vector1Syscalls, ⟨ps₁, hshape.chain₁, hshape.entries₁⟩, vector1_faithful⟩

theorem effect_chains {s : State} {current : Pid} {request : UInt32} {param : IoctlParam}
    {env : Env} {result : IoctlResult} (hhead : s.listHead .dynamicVector = 0)
    (hfresh : FreshNodes s.heap env.node) (hs : ∀ v ∈ s.registry.vecList, FaithfulChain s.heap v)
    (h : IoctlEffect s current request param env result) :
    ∀ v ∈ result.state.registry.vecList, FaithfulChain result.state.heap v := by
  refine effect_vectors (fun _ _ _ hv => hv) ?_ ?_ hhead hfresh hs h
  · rintro heap heap' v hgrown ⟨es, hchain, hfaithful⟩
    exact ⟨es, hchain.extends hgrown, hfaithful⟩
  · intro b hvalid _ hbuilt
    exact ⟨_, hbuilt.chain_of, faithful_builtRows hvalid env.node⟩

/-- Calls by any tasks, with any bitmaps and any failing allocations. -/
def FreshIoctl (s : State) (op : Op) : Prop := op.IsIoctl ∧ op.Fresh s

theorem freshIoctl {s : State} {current : Pid} {request : UInt32} {param : IoctlParam} {env : Env}
    (h : FreshNodes s.heap env.node) : FreshIoctl s (.ioctl current request param env) :=
  ⟨trivial, h⟩

theorem run_chains {boot s : State} (hboot : Booted boot) (hrun : Run step FreshIoctl boot s) :
    Idle s ∧ ∀ v ∈ s.registry.vecList, FaithfulChain s.heap v :=
  ioctlRun_invariant (fun s => ∀ v ∈ s.registry.vecList, FaithfulChain s.heap v) hboot
    (booted_chains hboot) (fun _ _ h => h.1)
    (fun _ _ _ _ _ _ hidle hs hg _ heffect => effect_chains hidle.listHead hg.2 hs heffect) hrun

/-- Along a run nothing is freed and no node that exists is written. -/
theorem run_extends {s t : State} (hs : Idle s) (hrun : Run step FreshIoctl s t) :
    Extends s.heap t.heap := by
  have hboth : Idle t ∧ Extends s.heap t.heap := by
    apply hrun.invariant (fun t => Idle t ∧ Extends s.heap t.heap)
    · intro t op u ht hg hstep
      cases op with
      | ioctl current request param env =>
        obtain ⟨-, -, result, hcall, rfl⟩ := step_ioctl hstep
        have heffect := customIoctl_cases ht.1.named.plain hcall
        exact ⟨step_idle ht.1 hstep,
          ht.2.trans (effect_extends ht.1.listHead hg.2 heffect)⟩
      | copyProcess | exit | call | unregister | rmmod => exact hg.1.elim
    · exact ⟨hs, Extends.refl s.heap⟩
  exact hboth.2

/-- In every reachable state the chain of each registered vector ends in NULL and
holds flavours of its bitmap only, no call twice; and in every later state it has the
same nodes with the same contents. -/
theorem registered_chains_intact {boot s t : State} (hboot : Booted boot)
    (hrun : Run step FreshIoctl boot s) (hlater : Run step FreshIoctl s t) :
    ∀ v ∈ s.registry.vecList, ∃ (ps : List Address) (entries : List (SyscallNr × Handler)),
      ChainAt s.heap v.overriddenSyscallsAddress ps ∧
      entriesAt s.heap ps = entries.map some ∧
      (∀ e ∈ entries, ∃ row ∈ flavours, row.2 = e ∧ v.overfuncsBitmap &&& row.1 ≠ 0) ∧
      (entries.map Prod.fst).Nodup ∧
      ChainAt t.heap v.overriddenSyscallsAddress ps ∧ ∀ a ∈ ps, t.heap a = s.heap a := by
  obtain ⟨hidle, hchains⟩ := run_chains hboot hrun
  have hextends := run_extends hidle hlater
  intro v hv
  obtain ⟨entries, ⟨ps, hps, hent⟩, hflavour, honce⟩ := hchains v hv
  refine ⟨ps, entries, hps, hent, hflavour, honce, hps.extends hextends, fun a ha => ?_⟩
  obtain ⟨n, hn⟩ := hps.allocated a ha
  rw [hn, hextends a n hn]

/-- The first creation after boot leaves the chains of vector1 and vector2 as they were. -/
theorem registered_chains_intact_create :
    ∃ t, step sampleBoot (.ioctl task1 IOCTL_CREATE_FROM_BITMAP (bitmapParam 1)
        (sampleEnv 12288)) = some t ∧
      ∀ v ∈ sampleBoot.registry.vecList, ∃ ps, ChainAt t.heap v.overriddenSyscallsAddress ps ∧
        ∀ a ∈ ps, t.heap a = sampleBoot.heap a := by
  obtain ⟨t, ht⟩ : ∃ t, step sampleBoot (.ioctl task1 IOCTL_CREATE_FROM_BITMAP (bitmapParam 1)
      (sampleEnv 12288)) = some t := ⟨_, rfl⟩
  refine ⟨t, ht, fun v hv => ?_⟩
  obtain ⟨ps, -, -, -, -, -, hchain, hsame⟩ := registered_chains_intact booted_sampleBoot .refl
    (Run.single (freshIoctl freshNodes_sampleBoot) ht) v hv
  exact ⟨ps, hchain, hsame⟩

end SyscallVector.Audit
