import SyscallVector.Audit.ChainLifetime
import SyscallVector.Model.Session

/-!
# What loading a module can do

vector1 and vector2 build a chain when they are loaded and register it. Every way through
`initVector` is inverted once here: it deletes what it built, or it keeps the chain and
registers it, or it keeps the chain and fails.
-/
namespace SyscallVector.Audit

set_option autoImplicit false

open Lib Model

/-! ## Chains that grow -/

section
variable {heap : Heap} {nodes : List (Address × SyscallNr × Handler)} {b : Builder}
  {node : Nat → Address} {k : Nat}

theorem Grown.start (heap : Heap) : Grown heap [] ⟨heap, 0⟩ :=
  ⟨.nil, rfl, fun _ _ => rfl, by simp⟩

theorem Grown.extends (h : Grown heap nodes b) : Extends heap b.heap := by
  intro a n ha
  rw [h.frame a fun hmem => ?_]
  · exact ha
  · rw [h.fresh a hmem] at ha
    cases ha

theorem Grown.built (h : Grown heap nodes b) : Built heap b (nodes.map Prod.snd) := by
  refine ⟨h.extends, nodes.map Prod.fst, h.chain, ?_, h.fresh⟩
  rw [h.entries, List.map_map]
  rfl

theorem Grown.head_ne (h : Grown heap nodes b) (hne : nodes ≠ []) : b.listHead ≠ 0 := by
  intro h0
  have hnil := h.chain.eq_nil_iff.mpr h0
  exact hne (List.map_eq_nil_iff.mp hnil)

/-- One node more, or a refusal, with the later nodes still free. -/
theorem Grown.next (h : Grown heap nodes b) (hfresh : FreshFrom b.heap node k) (nr : SyscallNr)
    (func : Handler) :
    (∃ b', addSyscallToVector b (node k) nr func = .ok (b', 0) ∧
        Grown heap (nodes ++ [(node k, nr, func)]) b' ∧ FreshFrom b'.heap node (k + 1)) ∨
      ∃ ret, ret < 0 ∧ addSyscallToVector b (node k) nr func = .ok (b, ret) := by
  by_cases hgood : Good (node k)
  · have hfree := hfresh.unused k (le_refl k) hgood.1
    obtain ⟨b', hadd, hgrown⟩ := h.add hgood hfree nr func
    refine .inl ⟨b', hadd, hgrown, hfresh.next fun a hne ha => ?_⟩
    -- the node is on neither chain
    have hold : a ∉ nodes.map Prod.fst := by
      intro hmem
      obtain ⟨n, hn⟩ := h.chain.allocated a hmem
      rw [ha] at hn
      cases hn
    have hnew : a ∉ (nodes ++ [(node k, nr, func)]).map Prod.fst := by
      rw [List.map_append]
      simp only [List.map_cons, List.map_nil, List.mem_append, List.mem_singleton, not_or]
      exact ⟨hold, hne⟩
    rw [hgrown.frame a hnew, ← h.frame a hold, ha]
  · exact .inr (addSyscallToVector_bad b nr func hgood)

/-- `addSyscalls` returns; what it has built is a chain on free nodes, of every row if it
reports success. -/
theorem addSyscalls_grown (rows : List (SyscallNr × Handler)) (h : Grown heap nodes b)
    (hfresh : FreshFrom b.heap node k) :
    ∃ b' ret nodes', addSyscalls node k rows b = .ok (b', ret) ∧ Grown heap nodes' b' ∧
      (ret < 0 ∨ ret = 0 ∧ nodes'.map Prod.snd = nodes.map Prod.snd ++ rows) := by
  induction rows generalizing k b nodes with
  | nil => exact ⟨b, 0, nodes, rfl, h, .inr ⟨rfl, (List.append_nil _).symm⟩⟩
  | cons row rows ih =>
    obtain ⟨nr, func⟩ := row
    rw [addSyscalls]
    rcases h.next hfresh nr func with ⟨b₁, hadd, hgrown, hlater⟩ | ⟨ret, hneg, hadd⟩
    · obtain ⟨b', ret, nodes', hrest, hgrown', hret⟩ := ih hgrown hlater
      have hnot : ¬(0 : Int32) < 0 := by decide
      refine ⟨b', ret, nodes', ?_, hgrown', ?_⟩
      · simp only [hadd, hnot, ↓reduceIte]
        exact hrest
      · simpa using hret
    · refine ⟨b, ret, nodes, ?_, h, .inl hneg⟩
      simp only [hadd, hneg, ↓reduceIte]

/-- `addBranches` returns with a chain on free nodes. -/
theorem addBranches_grown (rows : List (UInt32 × SyscallNr × Handler)) (bitmap : UInt32)
    (ret : UInt64) (h : Grown heap nodes b) (hfresh : FreshFrom b.heap node k) :
    ∃ b' ret' nodes', addBranches bitmap node k rows b ret = .ok (b', ret', false) ∧
      Grown heap nodes' b' := by
  induction rows generalizing k b nodes ret with
  | nil => exact ⟨b, ret, nodes, rfl, h⟩
  | cons row rows ih =>
    obtain ⟨bit, nr, func⟩ := row
    rw [addBranches]
    by_cases hbit : bitmap &&& bit ≠ 0
    · rw [if_pos hbit]
      rcases h.next hfresh nr func with ⟨b₁, hadd, hgrown, hlater⟩ | ⟨err, -, hadd⟩
      · simp only [hadd, UInt64.not_lt_zero, ↓reduceIte]
        exact ih _ hgrown hlater
      · simp only [hadd, UInt64.not_lt_zero, ↓reduceIte]
        exact ih _ h hfresh.mono
    · rw [if_neg hbit]
      exact ih ret h hfresh.mono

end

/-! ## The ways through a load -/

/-- The entry that vector1 or vector2 registers. -/
def staticEntry (m : Module) (a : Address) : StructVector :=
  if m = .vector1 then bootVector1 a else bootVector2 a

theorem staticEntry_address (m : Module) (a : Address) :
    (staticEntry m a).overriddenSyscallsAddress = a := by
  rw [staticEntry]
  split <;> rfl

theorem staticEntry_refcount (m : Module) (a : Address) : (staticEntry m a).refcount = 0 := by
  rw [staticEntry]
  split <;> rfl

theorem staticEntry_module {m : Module} (hm : m = .vector1 ∨ m = .vector2) (a : Address) :
    (staticEntry m a).vectorModule = m := by
  rcases hm with rfl | rfl <;> rfl

/-- What a load leaves behind, with the chain that is lost. -/
inductive LoadOutcome (s : State) (m : Module) : State → List Address → Prop
  | dynamic : m = .dynamicVector → LoadOutcome s m (insmodDynamicVector s) []
  | undone : m = .vector1 ∨ m = .vector2 →
      LoadOutcome s m
        { s with
          listHead := Function.update s.listHead m 0
          loaded := Function.update s.loaded m false } []
  | unregistered {b : Builder} {nodes : List (Address × SyscallNr × Handler)} :
      m = .vector1 ∨ m = .vector2 → Grown s.heap nodes b → nodes ≠ [] →
      LoadOutcome s m
        { s with
          heap := b.heap
          listHead := Function.update s.listHead m b.listHead
          loaded := Function.update s.loaded m false } [b.listHead]
  | registered {b : Builder} {nodes : List (Address × SyscallNr × Handler)} :
      m = .vector1 ∨ m = .vector2 → Grown s.heap nodes b → nodes ≠ [] →
      LoadOutcome s m
        { s with
          registry := pushVector s.registry (staticEntry m b.listHead)
          heap := b.heap
          listHead := Function.update s.listHead m b.listHead
          loaded := Function.update s.loaded m true } []

section
variable {s t : State} {m : Module} {node : Nat → Address} {va : Address}

/-- `initVector` of a module whose variables are zero always returns. -/
theorem initVector_cases (hnil : s.listHead m = 0) (hfresh : FreshNodes s.heap node)
    (name : List UInt8) (rows : List (SyscallNr × Handler)) (bitmap : UInt32) (va : Address) :
    (∃ ret, ret < 0 ∧
        initVector s m name rows bitmap node va = .ok (s.setListHead m 0, ret)) ∨
      ∃ b nodes, Grown s.heap nodes b ∧ nodes.map Prod.snd = rows ∧
        ((∃ ret, ret < 0 ∧ initVector s m name rows bitmap node va =
            .ok (({ s with heap := b.heap } : State).setListHead m b.listHead, ret)) ∨
          initVector s m name rows bitmap node va =
            .ok (({ s with
              heap := b.heap
              registry := pushVector s.registry (newVector name b.listHead 0 m bitmap) }
                : State).setListHead m b.listHead, 0)) := by
  obtain ⟨b, ret, nodes, hadd, hgrown, hret⟩ :=
    addSyscalls_grown rows (Grown.start s.heap) (freshFrom_zero hfresh)
  have hhead (f : Module → Address) (a : Address) : Function.update f m a m = a :=
    Function.update_self ..
  unfold initVector
  rw [hnil, hadd]
  dsimp only
  rcases hret with hneg | ⟨rfl, hrows⟩
  · refine .inl ⟨ret, hneg, ?_⟩
    have hdelete := hgrown.deleteVector
    simp only [hneg, ↓reduceIte, State.setListHead, hhead, hdelete, Function.update_idem]
  · have hnot : ¬(0 : Int32) < 0 := by decide
    refine .inr ⟨b, nodes, hgrown, hrows, ?_⟩
    simp only [hnot, ↓reduceIte, State.setListHead, hhead, registerSyscall, addVectorAddress]
    by_cases hva : Good va
    · right
      rw [addVector_good _ hva]
    · left
      obtain ⟨err, hneg, hbad⟩ :=
        addVector_bad s.registry hva (newVector name b.listHead 0 m bitmap)
      rw [hbad]
      exact ⟨err, hneg, rfl⟩

/-- A load of vector1 or vector2, with the chain that it leaves behind if it fails. -/
theorem insmod_cases {name : List UInt8} {rows : List (SyscallNr × Handler)} {bitmap : UInt32}
    (hm : m = .vector1 ∨ m = .vector2) (hfresh : FreshNodes s.heap node) (hrows : rows ≠ [])
    (hentry : ∀ a, newVector name a 0 m bitmap = staticEntry m a) (va : Address) :
    ∃ t ret,
      insmod m (initVector (s.setListHead m 0) m name rows bitmap node va) = .ok (t, ret) ∧
        LoadOutcome s m t (if ret < 0 ∧ t.listHead m ≠ 0 then [t.listHead m] else []) := by
  have hhead (f : Module → Address) (a : Address) : Function.update f m a m = a :=
    Function.update_self ..
  have hfailed {ret : Int32} (hneg : ret < 0) : decide (0 ≤ ret) = false :=
    decide_eq_false (Int32.not_le.mpr hneg)
  have hnil : (s.setListHead m 0).listHead m = 0 := hhead ..
  rcases initVector_cases hnil hfresh name rows bitmap va with
    ⟨ret, hneg, hinit⟩ | ⟨b, nodes, hgrown, hnodes, ⟨ret, hneg, hinit⟩ | hinit⟩
  · refine ⟨_, ret, by rw [hinit, insmod, Except.map], ?_⟩
    simp only [State.setListHead, hhead, ne_eq, not_true_eq_false, and_false, ↓reduceIte,
      Function.update_idem, hfailed hneg]
    exact .undone hm
  · have hne : nodes ≠ [] := fun h => hrows (by rw [← hnodes, h, List.map_nil])
    have hlost := hgrown.head_ne hne
    refine ⟨_, ret, by rw [hinit, insmod, Except.map], ?_⟩
    simp only [State.setListHead, hhead, hneg, hlost, ne_eq, not_false_eq_true, and_self,
      ↓reduceIte, Function.update_idem, hfailed hneg]
    exact .unregistered hm hgrown hne
  · have hne : nodes ≠ [] := fun h => hrows (by rw [← hnodes, h, List.map_nil])
    have hnot : ¬(0 : Int32) < 0 := by decide
    have hloaded : decide ((0 : Int32) ≤ 0) = true := by decide
    refine ⟨_, 0, by rw [hinit, insmod, Except.map], ?_⟩
    simp only [State.setListHead, hnot, false_and, ↓reduceIte, Function.update_idem, hentry,
      hloaded]
    exact .registered hm hgrown hne

theorem load_cases (hm : m ≠ .ioctlModule) (hfresh : FreshNodes s.heap node) (va : Address) :
    ∃ t ret, load s m node va = .ok (t, ret) ∧
      LoadOutcome s m t (lostChains s (.insmod m node va)) := by
  have hfind (h : ∃ t ret, load s m node va = .ok (t, ret) ∧
      LoadOutcome s m t (if ret < 0 ∧ t.listHead m ≠ 0 then [t.listHead m] else [])) :
      ∃ t ret, load s m node va = .ok (t, ret) ∧
        LoadOutcome s m t (lostChains s (.insmod m node va)) := by
    obtain ⟨t, ret, hload, houtcome⟩ := h
    refine ⟨t, ret, hload, ?_⟩
    rw [lostChains, hload]
    exact houtcome
  cases m with
  | vector1 =>
    exact hfind (insmod_cases (.inl rfl) hfresh (List.cons_ne_nil _ _) (fun _ => rfl) va)
  | vector2 =>
    exact hfind (insmod_cases (.inr rfl) hfresh (List.cons_ne_nil _ _) (fun _ => rfl) va)
  | dynamicVector =>
    refine hfind ⟨insmodDynamicVector s, 0, rfl, ?_⟩
    rw [if_neg fun h => absurd h.1 (by decide)]
    exact .dynamic rfl
  | ioctlModule => exact absurd rfl hm

/-- A load, inverted. -/
theorem sessionStep_insmod (hfresh : FreshNodes s.heap node)
    (h : sessionStep s (.insmod m node va) = some t) :
    s.loaded m = false ∧ LoadOutcome s m t (lostChains s (.insmod m node va)) := by
  rw [sessionStep] at h
  split at h
  case isTrue => cases h
  case isFalse hcan =>
    obtain ⟨hm, hloaded⟩ := not_or.mp hcan
    obtain ⟨t', ret, hload, houtcome⟩ := load_cases hm hfresh va
    rw [hload] at h
    obtain rfl : t' = t := Option.some.inj h
    exact ⟨by simpa using hloaded, houtcome⟩

end

end SyscallVector.Audit
