import SyscallVector.Audit.Sessions

/-!
# Where every chain node is

Whatever happens in a session, whoever is right or wrong about the reference counts, each node
that is allocated is on a chain that a loaded module will delete, or on one that a failed load
has left behind. So the exit functions always find their chains, and an unloaded system keeps
no node but the lost ones.
-/
namespace SyscallVector.Audit

set_option autoImplicit false

open Lib Model

/-- The chains that loaded modules own, and those that are lost, share no node and hold every
node that is allocated. -/
structure Accounted (s : State) (lost : List Address) : Prop where
  idle : Idle s
  unloaded : s.loaded .dynamicVector = false → s.listHeads = []
  forest : Forest OverriddenSyscall.nextSyscall 0 s.heap ((owned s).map Prod.snd ++ lost)
  spans : Spans OverriddenSyscall.nextSyscall 0 s.heap ((owned s).map Prod.snd ++ lost)

/-- The log of a session, with what each event obeys. -/
abbrev AccountedRun (x y : State × List Address) : Prop :=
  Run (logged sessionStep lostChains) (fun x op => op.Fresh x.1) x y

section
variable {s t : State} {heap heap' : Heap} {a : Address} {heads lost lost' : List Address}
  {m : Module}

/-! ## Heaps -/

/-- Every node that is left is as it was. -/
def Pruned (heap heap' : Heap) : Prop :=
  ∀ a, heap' a ≠ none → heap' a = heap a

/-- Deleting one chain of a forest returns, and frees its nodes only. -/
theorem deleteVector_fells (hforest : Forest OverriddenSyscall.nextSyscall 0 heap (a :: heads))
    (hspans : Spans OverriddenSyscall.nextSyscall 0 heap (a :: heads)) :
    ∃ heap', deleteVector heap a = .ok heap' ∧ Pruned heap heap' ∧
      Forest OverriddenSyscall.nextSyscall 0 heap' heads ∧
      Spans OverriddenSyscall.nextSyscall 0 heap' heads := by
  obtain ⟨ps, hps⟩ := hforest.segs a List.mem_cons_self
  have hkeep (b : Address) (hb : b ∉ ps) : (if b ∈ ps then none else heap b) = heap b := if_neg hb
  refine ⟨_, deleteVector_chain hps, fun b hb => ?_, Forest.fell hforest hps hkeep, ?_⟩
  · by_cases hmem : b ∈ ps
    · exact absurd (if_pos hmem) hb
    · exact hkeep b hmem
  · exact Spans.fell hspans hforest hps hkeep fun b hb => if_pos hb

/-- A chain that has grown on free nodes joins the accounts. -/
theorem Grown.plants {nodes : List (Address × SyscallNr × Handler)} {b : Builder}
    (h : Grown heap nodes b) (hforest : Forest OverriddenSyscall.nextSyscall 0 heap heads)
    (hspans : Spans OverriddenSyscall.nextSyscall 0 heap heads) :
    Forest OverriddenSyscall.nextSyscall 0 b.heap (b.listHead :: heads) ∧
      Spans OverriddenSyscall.nextSyscall 0 b.heap (b.listHead :: heads) :=
  ⟨hforest.plant h.extends h.chain h.fresh, hspans.plant h.extends h.chain h.frame⟩

theorem cleanupHeads_fells {rest : List Address}
    (hforest : Forest OverriddenSyscall.nextSyscall 0 s.heap (heads ++ rest))
    (hspans : Spans OverriddenSyscall.nextSyscall 0 s.heap (heads ++ rest)) :
    ∃ registry heap, cleanupHeads heads s = .ok { s with registry := registry, heap := heap } ∧
      Pruned s.heap heap ∧ Forest OverriddenSyscall.nextSyscall 0 heap rest ∧
      Spans OverriddenSyscall.nextSyscall 0 heap rest := by
  induction heads generalizing s with
  | nil => exact ⟨s.registry, s.heap, rfl, fun _ _ => rfl, hforest, hspans⟩
  | cons a heads ih =>
    obtain ⟨heap, hdelete, hpruned, hforest', hspans'⟩ := deleteVector_fells hforest hspans
    obtain ⟨registry, heap', hclean, hpruned', hdone⟩ :=
      ih (s := { s with registry := (unregisterSyscall s.registry a).1, heap := heap })
        hforest' hspans'
    refine ⟨registry, heap', ?_, fun b hb => ?_, hdone⟩
    · rw [cleanupHeads]
      simp only [hdelete]
      exact hclean
    · have hkept : heap' b = heap b := hpruned' b hb
      exact hkept.trans (hpruned b (hkept ▸ hb))

/-! ## Owners -/

theorem owned_builtState (s : State) (current : Pid) (bitmap : UInt32) (b : Builder)
    (va : Address) :
    (owned (builtState s current bitmap b va)).Perm ((.dynamicVector, b.listHead) :: owned s) := by
  have hstatic : staticChains (builtState s current bitmap b va) = staticChains s :=
    staticChains_setListHead s 0
  have hdynamic : dynamicChains (builtState s current bitmap b va).listHeads =
      dynamicChains s.listHeads ++ [(.dynamicVector, b.listHead)] := List.map_append
  rw [owned, hstatic, hdynamic, List.append_assoc, List.singleton_append]
  exact List.perm_middle

/-- The chains of vector1 and vector2 after one of them has come or gone. -/
theorem staticChains_update (s : State) (hm : m = .vector1 ∨ m = .vector2) (a : Address)
    (registry : Registry) (heap : Heap) :
    (staticChains { s with
        registry := registry
        heap := heap
        listHead := Function.update s.listHead m a
        loaded := Function.update s.loaded m true }).Perm
      ((m, a) :: staticChains { s with loaded := Function.update s.loaded m false }) := by
  rcases hm with rfl | rfl
  · cases h : s.loaded .vector2 <;> simp [staticChains, h]
  · cases h : s.loaded .vector1 <;> simp [staticChains, h, List.Perm.swap]

/-- A module that is not loaded owns nothing, whatever its variable says. -/
theorem staticChains_unloaded (s : State) (hm : m = .vector1 ∨ m = .vector2) (a : Address)
    (registry : Registry) (heap : Heap) :
    staticChains { s with
        registry := registry
        heap := heap
        listHead := Function.update s.listHead m a
        loaded := Function.update s.loaded m false } =
      staticChains { s with loaded := Function.update s.loaded m false } := by
  rcases hm with rfl | rfl
  · cases h : s.loaded .vector2 <;> simp [staticChains, h]
  · cases h : s.loaded .vector1 <;> simp [staticChains, h]

/-- What the other modules own. -/
def othersOwned (s : State) (m : Module) : List (Module × Address) :=
  dynamicChains s.listHeads ++ staticChains { s with loaded := Function.update s.loaded m false }

theorem owned_of_loaded (hm : m = .vector1 ∨ m = .vector2) (h : s.loaded m = true) :
    (owned s).Perm ((m, s.listHead m) :: othersOwned s m) := by
  have hperm := staticChains_update s hm (s.listHead m) s.registry s.heap
  rw [Function.update_eq_self, ← h, Function.update_eq_self] at hperm
  exact (hperm.append_left (dynamicChains s.listHeads)).trans List.perm_middle

theorem owned_of_unloaded (h : s.loaded m = false) : owned s = othersOwned s m := by
  rw [othersOwned, ← h, Function.update_eq_self]
  rfl

theorem owned_insmodDynamicVector (hnil : s.listHeads = []) :
    owned (insmodDynamicVector s) = owned s := by
  have hstatic : staticChains (insmodDynamicVector s) = staticChains s := by
    refine (staticChains_setListHead _ 0).trans ?_
    simp [staticChains, List.filter_cons]
  rw [owned, owned, hstatic, hnil]
  rfl

/-- A load that fails leaves the module without a chain. -/
theorem owned_failedLoad (hm : m = .vector1 ∨ m = .vector2) (h : s.loaded m = false) (a : Address)
    (heap : Heap) :
    owned { s with
        heap := heap
        listHead := Function.update s.listHead m a
        loaded := Function.update s.loaded m false } = owned s := by
  rw [owned_of_unloaded h, othersOwned, ← staticChains_unloaded s hm a s.registry heap]
  rfl

/-- One that succeeds makes it the owner of what it has built. -/
theorem owned_load (hm : m = .vector1 ∨ m = .vector2) (h : s.loaded m = false) (a : Address)
    (registry : Registry) (heap : Heap) :
    (owned { s with
        registry := registry
        heap := heap
        listHead := Function.update s.listHead m a
        loaded := Function.update s.loaded m true }).Perm ((m, a) :: owned s) := by
  have hstatic := staticChains_update s hm a registry heap
  rw [owned_of_unloaded h]
  exact (hstatic.append_left (dynamicChains s.listHeads)).trans List.perm_middle

/-! ## Events of the running system -/

/-- Counts and pointers may move; chains may not. -/
theorem Accounted.moves (h : Accounted s lost) (hidle : Idle t) (hheap : t.heap = s.heap)
    (howned : owned t = owned s) (hheads : t.listHeads = s.listHeads)
    (hloaded : t.loaded = s.loaded) : Accounted t lost := by
  constructor
  · exact hidle
  · rw [hheads, hloaded]
    exact h.unloaded
  · rw [hheap, howned]
    exact h.forest
  · rw [hheap, howned]
    exact h.spans

/-- The allocated nodes are those on the chains. -/
theorem Accounted.node_iff (h : Accounted s lost) (a : Address) :
    s.heap a ≠ none ↔
      ∃ p ∈ (owned s).map Prod.snd ++ lost, ∃ ps, ChainAt s.heap p ps ∧ a ∈ ps := by
  refine ⟨h.spans a, ?_⟩
  rintro ⟨p, -, ps, hps, ha⟩
  obtain ⟨n, hn⟩ := hps.allocated a ha
  rw [hn]
  exact Option.some_ne_none n

/-- Accounts of the chains in another order. -/
theorem Accounted.of_perm {heads : List Address}
    (hforest : Forest OverriddenSyscall.nextSyscall 0 t.heap heads)
    (hspans : Spans OverriddenSyscall.nextSyscall 0 t.heap heads) (hidle : Idle t)
    (hunloaded : t.loaded .dynamicVector = false → t.listHeads = [])
    (hperm : heads.Perm ((owned t).map Prod.snd ++ lost)) : Accounted t lost :=
  ⟨hidle, hunloaded, hforest.perm hperm, hspans.perm hperm⟩

theorem createOutcome_accounted {current : Pid} {bitmap : UInt32} {env : Env} {err : Int32}
    (h : Accounted s lost) (hidle : Idle t) (hloaded : s.loaded .dynamicVector = true)
    (hfresh : FreshNodes s.heap env.node) (hcreate : CreateOutcome s current bitmap env t err) :
    Accounted t lost := by
  cases hcreate with
  | reuse =>
    exact h.moves hidle rfl ((owned_setListHead _ 0).trans rfl) rfl rfl
  | @abandon heap _ hheap =>
    have hsame : heap = s.heap := by
      rcases hheap with ⟨-, rfl⟩ | ⟨-, hdelete⟩
      · rfl
      · rw [deleteVector, if_pos h.idle.listHead] at hdelete
        exact (Except.ok.inj hdelete).symm
    exact h.moves hidle hsame ((owned_setListHead _ 0).trans rfl) rfl rfl
  | @build b _ _ _ _ hadd =>
    obtain ⟨b', ret, nodes, hadd', hgrown⟩ :=
      addBranches_grown vectorBranches bitmap 0 (Grown.start s.heap) (freshFrom_zero hfresh)
    rw [h.idle.listHead, hadd'] at hadd
    obtain rfl : b' = b := congrArg Prod.fst (Except.ok.inj hadd)
    obtain ⟨hforest, hspans⟩ := hgrown.plants h.forest h.spans
    have hperm := ((owned_builtState s current bitmap b' env.va).map Prod.snd).append_right lost
    refine Accounted.of_perm hforest hspans hidle (fun hunloaded => ?_) hperm.symm
    exact absurd (hunloaded.symm.trans hloaded) Bool.false_ne_true

theorem effect_accounted {current : Pid} {request : UInt32} {param : IoctlParam} {env : Env}
    {result : IoctlResult} (h : Accounted s lost) (hidle : Idle result.state)
    (hloaded : request = IOCTL_CREATE_FROM_BITMAP → s.loaded .dynamicVector = true)
    (hfresh : FreshNodes s.heap env.node)
    (heffect : IoctlEffect s current request param env result) : Accounted result.state lost := by
  cases heffect with
  | unchanged | setNull | set | removeDeficit | remove => exact h.moves hidle rfl rfl rfl rfl
  | create hreq _ _ hcreate =>
    exact createOutcome_accounted h hidle (hloaded hreq) hfresh hcreate

/-! ## Unloading -/

/-- The exit function of a loaded module returns. -/
theorem rmmod_accounted (h : Accounted s lost) (hm : m ≠ .ioctlModule)
    (hloaded : s.loaded m = true) (hneeded : s.needed m = false)
    (hrefs : s.registry.moduleRefs m = 0) :
    ∃ t, rmmod s m = some t ∧ Pruned s.heap t.heap ∧ Accounted t lost := by
  have hcan : s.loaded m = true ∧ s.needed m = false ∧ s.registry.moduleRefs m = 0 :=
    ⟨hloaded, hneeded, hrefs⟩
  by_cases hstatic : m = .vector1 ∨ m = .vector2
  · have hperm := ((owned_of_loaded hstatic hloaded).map Prod.snd).append_right lost
    obtain ⟨heap, hdelete, hpruned, hforest, hspans⟩ :=
      deleteVector_fells (h.forest.perm hperm) (h.spans.perm hperm)
    let t : State := { s with
      registry := (unregisterSyscall s.registry (s.listHead m)).1
      heap := heap
      listHead := Function.update s.listHead m 0
      loaded := Function.update s.loaded m false }
    have hclean : cleanupVector s m = .ok (({ s with
        registry := (unregisterSyscall s.registry (s.listHead m)).1
        heap := heap } : State).setListHead m 0) := by
      rw [cleanupVector, hdelete]
    have hrmmod : rmmod s m = some t := by
      rcases hstatic with rfl | rfl <;>
        · rw [rmmod, if_pos hcan]
          dsimp only
          rw [hclean]
          rfl
    have howned : owned t = othersOwned s m :=
      congrArg (dynamicChains s.listHeads ++ ·) (staticChains_unloaded s hstatic 0 _ heap)
    have hstep : step s (.rmmod m) = some t := hrmmod
    have hidle := step_idle h.idle hstep
    refine ⟨t, hrmmod, hpruned, hidle, fun hunloaded => ?_, ?_, ?_⟩
    · refine h.unloaded (Eq.trans ?_ hunloaded)
      refine (Function.update_of_ne ?_ ..).symm
      rcases hstatic with rfl | rfl <;> decide
    · rw [howned]
      exact hforest
    · rw [howned]
      exact hspans
  · obtain rfl : m = .dynamicVector := by
      cases m with
      | dynamicVector => rfl
      | vector1 => exact absurd (.inl rfl) hstatic
      | vector2 => exact absurd (.inr rfl) hstatic
      | ioctlModule => exact absurd rfl hm
    have hheads : (owned s).map Prod.snd ++ lost =
        s.listHeads ++ ((staticChains s).map Prod.snd ++ lost) := by
      rw [owned, List.map_append, List.append_assoc, dynamicChains, List.map_map]
      exact congrArg (· ++ _) (List.map_id _)
    obtain ⟨registry, heap, hclean, hpruned, hforest, hspans⟩ :=
      cleanupHeads_fells (hheads ▸ h.forest) (hheads ▸ h.spans)
    let t : State := { s with
      registry := registry
      heap := heap
      listHeads := []
      loaded := Function.update s.loaded .dynamicVector false }
    have hrmmod : rmmod s .dynamicVector = some t := by
      rw [rmmod, if_pos hcan]
      dsimp only
      rw [cleanupDynamicVector, hclean]
      rfl
    have howned : owned t = staticChains s := by
      simp [owned, dynamicChains, staticChains, t, List.filter_cons]
    have hstep : step s (.rmmod .dynamicVector) = some t := hrmmod
    have hidle := step_idle h.idle hstep
    refine ⟨t, hrmmod, hpruned, hidle, fun _ => rfl, ?_, ?_⟩
    · rw [howned]
      exact hforest
    · rw [howned]
      exact hspans

/-! ## Steps -/

theorem step_accounted {op : Op} (h : Accounted s lost) (hfresh : op.Fresh s)
    (hstep : step s op = some t) : Accounted t lost := by
  have hidle := step_idle h.idle hstep
  cases op with
  | ioctl current request param env =>
    obtain ⟨-, hloaded, result, hcall, rfl⟩ := step_ioctl hstep
    exact effect_accounted h hidle hloaded hfresh (customIoctl_cases h.idle.named.plain hcall)
  | copyProcess current child flags =>
    obtain ⟨⟨a, hlive⟩, -, rfl⟩ := step_copyProcess hstep
    rw [copyProcess_live hlive] at hidle ⊢
    by_cases hflags : flags &&& CLONE_SYSCALLS ≠ 0
    · rw [if_pos hflags] at hidle ⊢
      exact h.moves hidle rfl rfl rfl rfl
    · rw [if_neg hflags] at hidle ⊢
      exact h.moves hidle rfl rfl rfl rfl
  | exit current =>
    obtain ⟨⟨a, hlive⟩, rfl⟩ := step_exit hstep
    rw [exitTask_live hlive] at hidle ⊢
    exact h.moves hidle rfl rfl rfl rfl
  | call c | unregister a =>
    obtain rfl := Option.some.inj hstep
    exact h.moves hidle rfl rfl rfl rfl
  | rmmod m =>
    change rmmod s m = some t at hstep
    obtain ⟨hloaded, hneeded, hrefs, u, -, hm⟩ := rmmod_cases hstep
    have hne : m ≠ .ioctlModule := by
      rintro rfl
      simp at hm
    obtain ⟨t', ht', -, haccounted⟩ := rmmod_accounted h hne hloaded hneeded hrefs
    obtain rfl : t' = t := Option.some.inj (ht'.symm.trans hstep)
    exact haccounted

/-- What a load builds is owned if the module stays, and lost if it goes. -/
theorem loadOutcome_accounted (h : Accounted s lost) (hunloaded : s.loaded m = false)
    (houtcome : LoadOutcome s m t lost') : Accounted t (lost ++ lost') := by
  have hidle := loadOutcome_idle h.idle houtcome
  have hdynamic (hm : m = .vector1 ∨ m = .vector2) (b : Bool) :
      Function.update s.loaded m b .dynamicVector = s.loaded .dynamicVector := by
    refine Function.update_of_ne ?_ ..
    rcases hm with rfl | rfl <;> decide
  cases houtcome with
  | dynamic hm =>
    subst hm
    rw [List.append_nil]
    refine Accounted.of_perm h.forest h.spans hidle (fun _ => rfl) ?_
    rw [owned_insmodDynamicVector (h.unloaded hunloaded)]
  | undone hm =>
    rw [List.append_nil]
    refine Accounted.of_perm h.forest h.spans hidle (fun hgone => ?_) ?_
    · exact h.unloaded ((hdynamic hm false).symm.trans hgone)
    · rw [owned_failedLoad hm hunloaded]
  | @unregistered b nodes hm hgrown =>
    obtain ⟨hforest, hspans⟩ := hgrown.plants h.forest h.spans
    refine Accounted.of_perm hforest hspans hidle (fun hgone => ?_) ?_
    · exact h.unloaded ((hdynamic hm false).symm.trans hgone)
    · rw [owned_failedLoad hm hunloaded, ← List.append_assoc]
      exact (List.perm_append_singleton _ _).symm
  | @registered b nodes hm hgrown =>
    obtain ⟨hforest, hspans⟩ := hgrown.plants h.forest h.spans
    rw [List.append_nil]
    refine Accounted.of_perm hforest hspans hidle (fun hgone => ?_) ?_
    · exact h.unloaded ((hdynamic hm true).symm.trans hgone)
    · exact (((owned_load hm hunloaded _ _ _).map Prod.snd).append_right lost).symm

theorem session_accounted {x y : State × List Address} {op : SessionOp}
    (h : Accounted x.1 x.2) (hfresh : op.Fresh x.1)
    (hstep : logged sessionStep lostChains x op = some y) : Accounted y.1 y.2 := by
  obtain ⟨hmove, hlost⟩ := logged_eq_some hstep
  have hidle := sessionStep_idle h.idle hfresh hmove
  rw [hlost]
  cases op with
  | system op =>
    change Accounted y.1 (x.2 ++ [])
    rw [List.append_nil]
    exact step_accounted h hfresh hmove
  | insmod m node va =>
    obtain ⟨hunloaded, houtcome⟩ := sessionStep_insmod hfresh hmove
    exact loadOutcome_accounted h hunloaded houtcome
  | clone current flags id fork =>
    obtain ⟨-, -, houtcome⟩ := sessionStep_clone hmove
    obtain ⟨registry, tasks, ht, -⟩ := cloneOutcome_moves houtcome
    change Accounted y.1 (x.2 ++ [])
    rw [List.append_nil]
    rw [ht] at hidle ⊢
    exact h.moves hidle rfl rfl rfl rfl
  | forkFails current flags =>
    obtain ⟨-, ht⟩ := sessionStep_forkFails hmove
    change Accounted y.1 (x.2 ++ [])
    rw [List.append_nil]
    rw [ht] at hidle ⊢
    by_cases hflags : flags &&& CLONE_SYSCALLS ≠ 0
    · rw [if_pos hflags] at hidle ⊢
      exact h.moves hidle rfl rfl rfl rfl
    · rw [if_neg hflags] at hidle ⊢
      exact h.moves hidle rfl rfl rfl rfl

end

/-! ## Sessions -/

theorem kernelState_accounted (live : Pid → Bool) : Accounted (kernelState live) [] where
  idle := kernelState_idle live
  unloaded := fun _ => rfl
  forest := ⟨fun _ hp => absurd hp List.not_mem_nil, .nil⟩
  spans := spans_nil_iff.mpr rfl

section
variable {live : Pid → Bool} {s : State} {lost : List Address}

theorem AccountedRun.accounted (h : AccountedRun (kernelState live, []) (s, lost)) :
    Accounted s lost :=
  Run.invariant (fun x => Accounted x.1 x.2) (fun _ _ _ => session_accounted)
    (kernelState_accounted live) h

/-- Unloading takes exactly the module's own chains out of the accounts. -/
theorem rmmod_owned {t : State} {m : Module} (h : rmmod s m = some t) :
    owned t = (owned s).filter fun o => o.1 ≠ m := by
  have hdynamic (hm : m ≠ .dynamicVector) :
      (dynamicChains s.listHeads).filter (fun o => o.1 ≠ m) = dynamicChains s.listHeads := by
    refine List.filter_eq_self.mpr fun o ho => ?_
    obtain ⟨a, -, rfl⟩ := List.mem_map.mp ho
    exact decide_eq_true hm.symm
  obtain ⟨-, -, -, u, rfl, ⟨rfl, w, hclean, rfl⟩ | ⟨hm, hclean⟩⟩ := rmmod_cases h
  · have hmodules := cleanupHeads_invariant
      (fun w => w.listHead = s.listHead ∧ w.loaded = s.loaded) (fun _ _ _ h => h) ⟨rfl, rfl⟩ hclean
    have hgone : (dynamicChains s.listHeads).filter (fun o => o.1 ≠ .dynamicVector) = [] := by
      simp [dynamicChains]
    rw [owned, owned, List.filter_append, hgone]
    cases h1 : s.loaded .vector1 <;> cases h2 : s.loaded .vector2 <;>
      simp [dynamicChains, staticChains, hmodules, h1, h2]
  · obtain ⟨heap, -, rfl⟩ := cleanupVector_ok hclean
    rw [owned, owned, List.filter_append]
    rcases hm with rfl | rfl
    · rw [hdynamic (by decide)]
      cases h1 : s.loaded .vector1 <;> cases h2 : s.loaded .vector2 <;>
        simp [staticChains, State.setListHead, h1, h2]
    · rw [hdynamic (by decide)]
      cases h1 : s.loaded .vector1 <;> cases h2 : s.loaded .vector2 <;>
        simp [staticChains, State.setListHead, h1, h2]

/-- In every state of a session the chains that loaded modules own and the lost ones share no
node, and the nodes on them are the allocated ones. Once the modules are unloaded, no node
is left but the lost ones. -/
theorem session_nodes_accounted (h : AccountedRun (kernelState live, []) (s, lost)) :
    Forest OverriddenSyscall.nextSyscall 0 s.heap ((owned s).map Prod.snd ++ lost) ∧
      (∀ a, s.heap a ≠ none ↔
        ∃ p ∈ (owned s).map Prod.snd ++ lost, ∃ ps, ChainAt s.heap p ps ∧ a ∈ ps) ∧
      ((∀ m, s.loaded m = false) → lost = [] → s.heap = fun _ => none) := by
  have haccounted := h.accounted
  refine ⟨haccounted.forest, haccounted.node_iff, fun hgone hlost => ?_⟩
  have howned : owned s = [] := by
    simp [owned, dynamicChains, staticChains, haccounted.unloaded (hgone _), hgone]
  have hspans := haccounted.spans
  rw [howned, hlost] at hspans
  exact spans_nil_iff.mp hspans

/-- The node is on a chain of the module. -/
def OnChainOf (s : State) (m : Module) (a : Address) : Prop :=
  ∃ o ∈ owned s, o.1 = m ∧ ∃ ps, ChainAt s.heap o.2 ps ∧ a ∈ ps

/-- The chains that are left are as they were. -/
theorem Pruned.extends {heap heap' : Heap} (h : Pruned heap heap') : Extends heap' heap := by
  intro a n ha
  rw [← h a (ha ▸ Option.some_ne_none n)]
  exact ha

section
variable {t : State} {m : Module} {a : Address}

/-- Unloading frees the nodes on the chains of the module: a node that is left is on a chain
that is left, and no two chains share one. -/
theorem rmmod_frees_nodes (h : Accounted s lost) (hrmmod : rmmod s m = some t)
    (hpruned : Pruned s.heap t.heap) (hafter : Accounted t lost) (ha : OnChainOf s m a) :
    t.heap a = none := by
  obtain ⟨o, ho, hm, ps, hps, hmem⟩ := ha
  by_contra hleft
  obtain ⟨q, hq, qs, hqs, hmemq⟩ := hafter.spans a hleft
  rw [rmmod_owned hrmmod] at hq
  have hsplit := (((owned s).filter_append_perm fun o => o.1 = m).map Prod.snd).append_right lost
  have hown : o.2 ∈ ((owned s).filter fun o => o.1 = m).map Prod.snd :=
    List.mem_map_of_mem (List.mem_filter.mpr ⟨ho, decide_eq_true hm⟩)
  have hforest := h.forest.perm hsplit.symm
  rw [List.map_append, List.append_assoc] at hforest
  have hrest : q ∈ ((owned s).filter fun o => !decide (o.1 = m)).map Prod.snd ++ lost := by
    simpa only [decide_not] using hq
  exact (List.pairwise_append.mp hforest.apart).2.2 o.2 hown q hrest ps qs hps
    (hqs.extends hpruned.extends) a hmem hmemq

/-- It leaves every other node as it is. -/
theorem rmmod_keeps_nodes (h : Accounted s lost) (hrmmod : rmmod s m = some t)
    (hpruned : Pruned s.heap t.heap) (hafter : Accounted t lost) (ha : ¬OnChainOf s m a) :
    t.heap a = s.heap a := by
  by_cases hfree : s.heap a = none
  · by_contra hne
    exact hne (hpruned a fun hnone => hne (hnone.trans hfree.symm))
  · obtain ⟨q, hq, qs, hqs, hmem⟩ := h.spans a hfree
    have hstays : q ∈ (owned t).map Prod.snd ++ lost := by
      rw [rmmod_owned hrmmod]
      rcases List.mem_append.mp hq with hq | hlost
      · obtain ⟨o, ho, rfl⟩ := List.mem_map.mp hq
        have hother : o.1 ≠ m := fun hm => ha ⟨o, ho, hm, qs, hqs, hmem⟩
        exact List.mem_append_left _
          (List.mem_map_of_mem (List.mem_filter.mpr ⟨ho, decide_eq_true hother⟩))
      · exact List.mem_append_right _ hlost
    obtain ⟨rs, hrs⟩ := hafter.forest.segs q hstays
    obtain rfl := (hrs.extends hpruned.extends).unique hqs
    obtain ⟨n, hn⟩ := hrs.allocated a hmem
    exact hpruned a (hn ▸ Option.some_ne_none n)

/-- In every state of a session, unloading a loaded module without references that no loaded
module depends on returns without a fault. It frees every node on the chains of the module and
leaves all others as they are, so that the chains of the other modules and the lost ones stay,
and hold every node that is left. -/
theorem session_unload_returns (h : AccountedRun (kernelState live, []) (s, lost))
    (hm : m ≠ .ioctlModule) (hloaded : s.loaded m = true) (hneeded : s.needed m = false)
    (hrefs : s.registry.moduleRefs m = 0) :
    ∃ t, sessionStep s (.system (.rmmod m)) = some t ∧
      (∀ a, OnChainOf s m a → t.heap a = none) ∧
      (∀ a, ¬OnChainOf s m a → t.heap a = s.heap a) ∧
      Forest OverriddenSyscall.nextSyscall 0 t.heap
        (((owned s).filter fun o => o.1 ≠ m).map Prod.snd ++ lost) ∧
      ∀ a, t.heap a ≠ none ↔ ∃ p ∈ ((owned s).filter fun o => o.1 ≠ m).map Prod.snd ++ lost,
        ∃ ps, ChainAt t.heap p ps ∧ a ∈ ps := by
  have haccounted := h.accounted
  obtain ⟨t, ht, hpruned, hafter⟩ := rmmod_accounted haccounted hm hloaded hneeded hrefs
  refine ⟨t, ht, fun a => rmmod_frees_nodes haccounted ht hpruned hafter,
    fun a => rmmod_keeps_nodes haccounted ht hpruned hafter, ?_, fun a => ?_⟩
  · rw [← rmmod_owned ht]
    exact hafter.forest
  · rw [← rmmod_owned ht]
    exact hafter.node_iff a

end

/-! ## A session that loses a chain -/

/-- The first load of vector1 fails at its registration. -/
def failedLoad : State :=
  (sessionStep (kernelState sampleLive) (.insmod .vector1 (slab 4096) 0)).getD
    (kernelState sampleLive)

/-- The second one succeeds. -/
def secondLoad : State :=
  (sessionStep failedLoad (.insmod .vector1 (slab 8192) 1)).getD failedLoad

theorem secondLoad_accounted :
    AccountedRun (kernelState sampleLive, []) (secondLoad, [4096]) := by
  have hfirst : AccountedRun (kernelState sampleLive, []) (failedLoad, [4096]) :=
    Run.single (a := .insmod .vector1 (slab 4096) 0)
      (freshNodes_slab (by decide) fun _ _ => rfl) rfl
  refine .next (a := .insmod .vector1 (slab 8192) 1) hfirst ?_ rfl
  exact freshNodes_slab (by decide) (by decide)

theorem session_nodes_accounted_lossy :
    secondLoad.registry.vecList.length = 1 ∧ ∀ a, secondLoad.heap a ≠ none ↔
      ∃ p ∈ [8192, 4096], ∃ ps, ChainAt secondLoad.heap p ps ∧ a ∈ ps :=
  ⟨rfl, (session_nodes_accounted secondLoad_accounted).2.1⟩

theorem session_unload_returns_lossy :
    ∃ t, sessionStep secondLoad (.system (.rmmod .vector1)) = some t ∧
      (∀ a, OnChainOf secondLoad .vector1 a → t.heap a = none) ∧
      (∀ a, ¬OnChainOf secondLoad .vector1 a → t.heap a = secondLoad.heap a) ∧
      Forest OverriddenSyscall.nextSyscall 0 t.heap [4096] ∧
      ∀ a, t.heap a ≠ none ↔ ∃ p ∈ [4096], ∃ ps, ChainAt t.heap p ps ∧ a ∈ ps :=
  session_unload_returns secondLoad_accounted (by decide) rfl rfl rfl

end

end SyscallVector.Audit
