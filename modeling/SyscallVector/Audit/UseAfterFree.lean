import SyscallVector.Audit.ChainOwnership

/-!
# No use after free

Tasks make requests, fork and end, and modules are unloaded, in any order. The
pointers of the tasks stay good as long as every `IOCTL_REMOVE` is by a task that
owns the reference it drops. `reduce_ref_count` does not ask who calls it, so a task
can drop the reference of another one; the module is then unloaded under it.
-/
namespace SyscallVector.Audit

set_option autoImplicit false

open Lib Model

/-- The chains of vector1 and vector2 that are loaded. -/
def staticChains (s : State) : List (Module × Address) :=
  ([Module.vector1, .vector2].filter s.loaded).map fun m => (m, s.listHead m)

def dynamicChains (heads : List Address) : List (Module × Address) :=
  heads.map fun a => (.dynamicVector, a)

/-- The chains that loaded modules own, with their modules. -/
def owned (s : State) : List (Module × Address) := dynamicChains s.listHeads ++ staticChains s

/-- What holds in every state of a run without foreign releases. -/
structure Guarded (s : State) : Prop where
  idle : Idle s
  safe : ∃ l, Safe s.registry s.tasks s.heap (owned s) l

/-! ## Boot -/

/-- The two chains are on nodes of their own. -/
theorem BootShape.forest {s : State} {a₁ a₂ : Address} {ps₁ ps₂ : List Address}
    (h : BootShape s a₁ a₂ ps₁ ps₂) : Forest OverriddenSyscall.nextSyscall 0 s.heap [a₁, a₂] := by
  constructor
  · intro a ha
    simp only [List.mem_cons, List.not_mem_nil, or_false] at ha
    rcases ha with rfl | rfl
    · exact ⟨ps₁, h.chain₁⟩
    · exact ⟨ps₂, h.chain₂⟩
  · have hapart (qs₁ qs₂ : List Address) (h₁ : ChainAt s.heap a₁ qs₁)
        (h₂ : ChainAt s.heap a₂ qs₂) : ∀ a ∈ qs₁, a ∉ qs₂ := by
      obtain rfl := h.chain₁.unique h₁
      obtain rfl := h.chain₂.unique h₂
      exact h.disjoint
    simpa using hapart

theorem booted_safe {s : State} (h : Booted s) :
    ∃ l, Safe s.registry s.tasks s.heap (owned s) l := by
  obtain ⟨l, hrecorded, hzero, hsurplus⟩ := booted_recorded h
  obtain ⟨a₁, a₂, ps₁, ps₂, hshape⟩ := booted_shape h
  have howned : owned s = [(.vector1, a₁), (.vector2, a₂)] := by
    simp [owned, staticChains, dynamicChains, hshape.listHeads, hshape.loaded₁, hshape.loaded₂,
      hshape.listHead₁, hshape.listHead₂]
  have hidle (a : Address) (h0 : a ≠ 0) (p : Pid) : s.tasks p ≠ some a := fun hp =>
    h0 (hshape.tasks p a hp)
  refine ⟨l, ?_⟩
  rw [howned]
  constructor
  case recorded => exact hrecorded
  case backed => exact fun m => (hsurplus m).ge
  case counts => exact fun e he => (hzero e he).ge
  case covers =>
    intro e he h0
    rw [(holders_eq_zero_iff s.tasks _).mpr (hidle _ h0), hzero e he]
    exact le_refl _
  case distinct =>
    rw [hshape.registry]
    change [a₂, a₁].Pairwise _
    simp [hshape.heads_ne.2.2]
  case owners =>
    rw [hshape.registry]
    intro v hv _
    simp only [List.mem_cons, List.not_mem_nil, or_false] at hv
    rcases hv with rfl | rfl
    · exact List.mem_cons_of_mem _ List.mem_cons_self
    · exact List.mem_cons_self
  case forest => exact hshape.forest
  case pointers => exact fun p a hp h0 => absurd hp (hidle a h0 p)

/-! ## Events -/

/-- Unloading and the events of the tasks that use vectors. -/
def IsTaskOp : Op → Prop
  | .call _ | .unregister _ => False
  | _ => True

/-- A release by name is by a task that is entitled to it. -/
structure OwnReleases (s : State) (op : Op) : Prop where
  task : IsTaskOp op
  fresh : op.Fresh s
  entitled : ∀ current param env v, op = .ioctl current IOCTL_REMOVE param env →
    NameRead env → s.registry.lookup (nameKey param) = some v → Entitled s.tasks current v

section
variable {s t : State} {current : Pid} {request : UInt32} {param : IoctlParam} {env : Env}
  {result : IoctlResult} {l : Ledger StructVector}

/-- dynamic_vector's `listHead` is no owned chain. -/
theorem staticChains_setListHead (s : State) (a : Address) :
    staticChains (s.setListHead .dynamicVector a) = staticChains s := by
  refine List.map_congr_left fun m hm => ?_
  have hne : m ≠ .dynamicVector := by
    rintro rfl
    exact absurd (List.mem_of_mem_filter hm) (by decide)
  exact congrArg (m, ·) (Function.update_of_ne hne ..)

theorem owned_setListHead (s : State) (a : Address) :
    owned (s.setListHead .dynamicVector a) = owned s := by
  rw [owned, staticChains_setListHead]
  rfl

theorem createOutcome_safe {bitmap : UInt32} {err : Int32} (hs : Idle s)
    (hsafe : Safe s.registry s.tasks s.heap (owned s) l)
    (hlive : ∃ a, s.tasks current = some a) (hfresh : FreshNodes s.heap env.node)
    (h : CreateOutcome s current bitmap env t err) :
    ∃ l', Safe t.registry t.tasks t.heap (owned t) l' := by
  obtain ⟨b, hb⟩ := hlive
  cases h with
  | @reuse v hv _ =>
    rw [holdDynamic, owned_setListHead]
    change ∃ l', Safe (s.registry.adjust (.bitmap bitmap) 1)
      (s.setVectorInfo current v.overriddenSyscallsAddress).tasks s.heap (owned s) l'
    rw [State.setVectorInfo_tasks_of_live _ hb]
    exact hsafe.take hv current
  | @abandon heap _ hheap =>
    have hsame : heap = s.heap := by
      rcases hheap with ⟨-, rfl⟩ | ⟨-, hdelete⟩
      · rfl
      · rw [deleteVector, if_pos hs.listHead] at hdelete
        exact (Except.ok.inj hdelete).symm
    rw [owned_setListHead, hsame]
    exact hsafe.acquire (.bitmap bitmap)
  | @build b' _ _ _ _ hadd =>
    obtain ⟨l', h'⟩ := hsafe.build (createBuilt hs.listHead hfresh hadd) bitmap env.va current
    have howned : (owned s ++ [(Module.dynamicVector, b'.listHead)]).Perm
        (owned (builtState s current bitmap b' env.va)) := by
      have hstatic : staticChains (builtState s current bitmap b' env.va) = staticChains s :=
        staticChains_setListHead s 0
      have hdynamic : dynamicChains (builtState s current bitmap b' env.va).listHeads =
          dynamicChains s.listHeads ++ [(.dynamicVector, b'.listHead)] := List.map_append
      rw [owned, owned, hstatic, hdynamic, List.append_assoc, List.append_assoc]
      exact List.perm_append_comm.append_left _
    refine ⟨l', ?_⟩
    change Safe _ (s.setVectorInfo current b'.listHead).tasks b'.heap _ l'
    rw [State.setVectorInfo_tasks_of_live _ hb]
    exact h'.perm howned

theorem effect_safe (hs : Idle s) (hsafe : Safe s.registry s.tasks s.heap (owned s) l)
    (hlive : ∃ a, s.tasks current = some a)
    (hg : OwnReleases s (.ioctl current request param env))
    (h : IoctlEffect s current request param env result) :
    ∃ l', Safe result.state.registry result.state.tasks result.state.heap
      (owned result.state) l' := by
  cases h with
  | unchanged => exact ⟨l, hsafe⟩
  | setNull => exact hsafe.acquire (nameKey param)
  | @set v _ _ hv _ =>
    obtain ⟨b, hb⟩ := hlive
    change ∃ l', Safe _ (s.setVectorInfo current v.overriddenSyscallsAddress).tasks _ (owned s) l'
    rw [State.setVectorInfo_tasks_of_live _ hb]
    exact hsafe.take hv current
  | removeDeficit hreq hread hv hneg =>
    subst hreq
    exact hsafe.releaseKept hv (hg.entitled current param env _ rfl hread hv) hneg
  | remove hreq hread hv _ =>
    subst hreq
    obtain ⟨b, hb⟩ := hlive
    change ∃ l', Safe _ (s.setVectorInfo current 0).tasks _ (owned s) l'
    rw [State.setVectorInfo_tasks_of_live _ hb]
    exact hsafe.release hv (hg.entitled current param env _ rfl hread hv) fun a ha =>
      (Option.some.inj ha).symm
  | create _ _ _ hcreate => exact createOutcome_safe hs hsafe hlive hg.fresh hcreate

/-- The child of a fork inherits the chain of its parent, together with a reference if
the chain is registered. -/
theorem copyProcess_safe (hsafe : Safe s.registry s.tasks s.heap (owned s) l) {a : Address}
    (hlive : s.tasks current = some a) (child : Pid) (flags : UInt64) :
    ∃ l', Safe (copyProcess s current child flags).registry
      (copyProcess s current child flags).tasks (copyProcess s current child flags).heap
      (owned (copyProcess s current child flags)) l' := by
  rw [copyProcess_live hlive]
  split
  case isTrue =>
    cases hv : s.registry.lookup (.address a) with
    | some v =>
      obtain rfl := lookup_address hv
      exact hsafe.take hv child
    | none =>
      dsimp only
      rw [adjust_none hv]
      refine ⟨l, hsafe.retask (fun b hb _ => holders_update_le fun he => ?_) fun p b hp _ => ?_⟩
      · exact not_mem_addresses hv (Option.some.inj he ▸ hb)
      · rcases holds_of_update hp with hold | he
        · exact ⟨p, hold⟩
        · exact ⟨current, hlive.trans he⟩
  case isFalse => exact ⟨l, hsafe.clear child fun a ha => (Option.some.inj ha).symm⟩

/-- The exit hook drops the reference that a task took with its pointer. -/
theorem exitTask_safe (hsafe : Safe s.registry s.tasks s.heap (owned s) l) {a : Address}
    (hlive : s.tasks current = some a) :
    ∃ l', Safe (exitTask s current).registry (exitTask s current).tasks
      (exitTask s current).heap (owned (exitTask s current)) l' := by
  have hnone : ∀ b : Address, (none : Option Address) = some b → b = 0 := fun _ hb => nomatch hb
  rw [exitTask_live hlive]
  dsimp only
  split
  case isTrue => exact ⟨l, hsafe.clear current hnone⟩
  case isFalse h0 =>
    cases hv : s.registry.lookup (.address a) with
    | some v =>
      obtain rfl := lookup_address hv
      exact hsafe.release hv (.inl ⟨h0, hlive⟩) hnone
    | none =>
      rw [adjust_none hv]
      exact ⟨l, hsafe.clear current hnone⟩

/-! ## Unloading -/

/-- The loop of `cleanup_override` returns and leaves the chains of the other modules. -/
theorem cleanupHeads_safe {own : List (Module × Address)} (heads : List Address)
    (hsafe : Safe s.registry s.tasks s.heap (dynamicChains heads ++ own) l)
    (hrefs : s.registry.moduleRefs .dynamicVector = 0) :
    ∃ registry heap l', cleanupHeads heads s = .ok { s with registry := registry, heap := heap } ∧
      Safe registry s.tasks heap own l' := by
  induction heads generalizing s l with
  | nil => exact ⟨s.registry, s.heap, l, rfl, hsafe⟩
  | cons a heads ih =>
    obtain ⟨heap, l₁, hdelete, hsafe₁⟩ := hsafe.retire hrefs
    let s₁ : State := { s with registry := (unregisterSyscall s.registry a).1, heap := heap }
    have hrefs₁ : s₁.registry.moduleRefs .dynamicVector = 0 := by
      rw [unregisterSyscall_moduleRefs]
      exact hrefs
    obtain ⟨registry, heap', l', hrest, hsafe'⟩ := ih (s := s₁) hsafe₁ hrefs₁
    refine ⟨registry, heap', l', ?_, hsafe'⟩
    rw [cleanupHeads]
    simp only [hdelete]
    exact hrest

theorem cleanupVector_safe {m : Module} (hm : m = .vector1 ∨ m = .vector2)
    (hsafe : Safe s.registry s.tasks s.heap (owned s) l) (hloaded : s.loaded m = true)
    (hrefs : s.registry.moduleRefs m = 0) (h : cleanupVector s m = .ok t) :
    ∃ l', Safe t.registry t.tasks t.heap
      (owned { t with loaded := Function.update t.loaded m false }) l' := by
  -- the chain of the module and those that stay
  have howned (registry : Registry) (heap : Heap) : (owned s).Perm ((m, s.listHead m) ::
      owned { ({ s with registry := registry, heap := heap } : State).setListHead m 0 with
        loaded := Function.update s.loaded m false }) := by
    rw [owned, owned]
    refine List.Perm.trans (List.Perm.append_left _ ?_) List.perm_middle
    rcases hm with rfl | rfl
    · cases h2 : s.loaded .vector2 <;>
        simp [staticChains, hloaded, h2, State.setListHead]
    · cases h1 : s.loaded .vector1 <;>
        simp [staticChains, hloaded, h1, State.setListHead, List.Perm.swap]
  obtain ⟨heap, l', hdelete, hsafe'⟩ :=
    (hsafe.perm (howned s.registry s.heap)).retire hrefs
  obtain ⟨heap', hdelete', rfl⟩ := cleanupVector_ok h
  obtain rfl := Except.ok.inj (hdelete.symm.trans hdelete')
  exact ⟨l', hsafe'⟩

theorem rmmod_safe {m : Module} (hsafe : Safe s.registry s.tasks s.heap (owned s) l)
    (h : rmmod s m = some t) :
    ∃ l', Safe t.registry t.tasks t.heap (owned t) l' := by
  obtain ⟨hloaded, -, hrefs, u, rfl, ⟨rfl, w, hclean, rfl⟩ | ⟨hm, hclean⟩⟩ := rmmod_cases h
  · obtain ⟨registry, heap, l', hclean', hsafe'⟩ := cleanupHeads_safe s.listHeads hsafe hrefs
    obtain rfl := Except.ok.inj (hclean'.symm.trans hclean)
    have howned : staticChains s = owned { s with
        registry := registry
        heap := heap
        listHeads := []
        loaded := Function.update s.loaded .dynamicVector false } := by
      simp [owned, dynamicChains, staticChains, List.filter_cons]
    rw [howned] at hsafe'
    exact ⟨l', hsafe'⟩
  · exact cleanupVector_safe hm hsafe hloaded hrefs hclean

/-! ## Runs -/

theorem step_guarded {op : Op} (hs : Guarded s) (hg : OwnReleases s op)
    (h : step s op = some t) : Guarded t := by
  refine ⟨step_idle hs.idle h, ?_⟩
  obtain ⟨l, hsafe⟩ := hs.safe
  cases op with
  | ioctl current request param env =>
    obtain ⟨hlive, -, result, hcall, rfl⟩ := step_ioctl h
    exact effect_safe hs.idle hsafe hlive hg (customIoctl_cases hs.idle.named.plain hcall)
  | copyProcess current child flags =>
    obtain ⟨⟨a, hlive⟩, -, rfl⟩ := step_copyProcess h
    exact copyProcess_safe hsafe hlive child flags
  | exit current =>
    obtain ⟨⟨a, hlive⟩, rfl⟩ := step_exit h
    exact exitTask_safe hsafe hlive
  | rmmod m => exact rmmod_safe hsafe h
  | call | unregister => exact hg.task.elim

end

/-- In every run without foreign releases, each pointer that a task holds is the head of
a chain that is still there. A chain is freed by an unload only and unloads allocate
nothing, so no such pointer was dangling before a reuse of its address either. -/
theorem held_chains_live {boot s : State} (hboot : Booted boot)
    (hrun : Run step OwnReleases boot s) {p : Pid} {a : Address} (hp : s.tasks p = some a)
    (h0 : a ≠ 0) : s.heap a ≠ none ∧ ∃ ps, ChainAt s.heap a ps := by
  have hguarded : Guarded s := hrun.invariant Guarded
    (fun _ _ _ hs hg h => step_guarded hs hg h) ⟨booted_idle hboot, booted_safe hboot⟩
  obtain ⟨l, hsafe⟩ := hguarded.safe
  exact hsafe.chain hp h0

/-- Task 1 takes `Vector55`; its chain starts in the block at 4096. -/
theorem held_chains_live_set :
    ∃ s, step sampleBoot (.ioctl task1 IOCTL_SET (nameParam vector1Name) nodelessEnv) = some s ∧
      s.tasks task1 = some 4096 ∧ s.heap 4096 ≠ none ∧ ∃ ps, ChainAt s.heap 4096 ps := by
  let op : Op := .ioctl task1 IOCTL_SET (nameParam vector1Name) nodelessEnv
  obtain ⟨s, hs⟩ : ∃ s, step sampleBoot op = some s := ⟨_, rfl⟩
  have htask : (step sampleBoot op).map (fun t => t.tasks task1) = some (some 4096) := by decide
  rw [hs] at htask
  have hheld : s.tasks task1 = some 4096 := Option.some.inj htask
  have hguard : OwnReleases sampleBoot op := by
    refine ⟨trivial, freshNodes_nodelessEnv _, fun _ _ _ _ hop => ?_⟩
    have hrequest : IOCTL_SET = IOCTL_REMOVE := by
      injection hop
    exact absurd hrequest (by decide)
  exact ⟨s, hs, hheld, held_chains_live booted_sampleBoot (Run.single hguard hs) hheld (by decide)⟩

/-- Task 1 takes `Vector968`, task 2 removes it, and vector2, which no module depends on, can be
unloaded: the pointer of task 1 is then to a chain that is gone. -/
theorem held_chain_freed :
    ¬∀ boot s, Booted boot → Run step (fun s op => IsTaskOp op ∧ op.Fresh s) boot s →
      ∀ p a, s.tasks p = some a → a ≠ 0 → s.heap a ≠ none := by
  intro hall
  let script : List Op :=
    [.ioctl task1 IOCTL_SET (nameParam vector2Name) nodelessEnv,
      .ioctl task2 IOCTL_REMOVE (nameParam vector2Name) nodelessEnv, .rmmod .vector2]
  obtain ⟨s, hs⟩ : ∃ s, steps step sampleBoot script = some s := ⟨_, rfl⟩
  have hrun : Run step (fun s op => IsTaskOp op ∧ op.Fresh s) sampleBoot s := by
    refine Run.of_steps (fun t op hop => ?_) hs
    simp only [script, List.mem_cons, List.not_mem_nil, or_false] at hop
    rcases hop with rfl | rfl | rfl
    · exact ⟨trivial, freshNodes_nodelessEnv t.heap⟩
    · exact ⟨trivial, freshNodes_nodelessEnv t.heap⟩
    · exact ⟨trivial, trivial⟩
  have hpointer : (steps step sampleBoot script).map (fun t => (t.tasks task1, t.heap 8192)) =
      some (some 8192, none) := by
    decide
  rw [hs] at hpointer
  obtain ⟨htask, hfreed⟩ := Prod.mk.inj (Option.some.inj hpointer)
  exact hall sampleBoot s booted_sampleBoot hrun task1 8192 htask (by decide) hfreed

end SyscallVector.Audit
