import SyscallVector.Audit.Boot

/-!
# A chain from its first node to its last

`add_syscall_to_vector` finds the end of the chain by walking it, and `delete_vector` walks a
chain that shrinks behind it. Both return: a chain that was built node by node holds the nodes
in the order of the calls, and nothing else in the heap has changed.
-/
namespace SyscallVector.Audit

set_option autoImplicit false

open Lib Model

/-- Calls of `add_syscall_to_vector` that returned 0, one after the other. `kmalloc` has found
each node in free memory. -/
inductive Appended (b₀ : Builder) : List (Address × SyscallNr × Handler) → Builder → Prop
  | start : Appended b₀ [] b₀
  | next {nodes : List (Address × SyscallNr × Handler)} {b b' : Builder} {node : Address}
      {nr : SyscallNr} {func : Handler} : Appended b₀ nodes b → node ≠ 0 → b.heap node = none →
      addSyscallToVector b node nr func = .ok (b', 0) →
      Appended b₀ (nodes ++ [(node, nr, func)]) b'

/-- The heap holds a chain of the nodes on memory that was free, and is otherwise as it was. -/
structure Grown (heap : Heap) (nodes : List (Address × SyscallNr × Handler)) (b : Builder) :
    Prop where
  chain : ChainAt b.heap b.listHead (nodes.map Prod.fst)
  entries : entriesAt b.heap (nodes.map Prod.fst) = nodes.map fun node => some node.2
  frame : ∀ a, a ∉ nodes.map Prod.fst → b.heap a = heap a
  fresh : ∀ a ∈ nodes.map Prod.fst, heap a = none

section
variable {heap : Heap} {nodes : List (Address × SyscallNr × Handler)} {b b' : Builder}
  {node : Address} {nr : SyscallNr} {func : Handler}

theorem good_of_added (h : addSyscallToVector b node nr func = .ok (b', 0)) : Good node := by
  by_contra hbad
  obtain ⟨ret, hneg, hfail⟩ := addSyscallToVector_bad b nr func hbad
  rw [h] at hfail
  cases hfail
  exact absurd hneg (by decide)

/-! ## One node more -/

theorem Grown.add (h : Grown heap nodes b) (hgood : Good node) (hfree : b.heap node = none)
    (nr : SyscallNr) (func : Handler) :
    ∃ b', addSyscallToVector b node nr func = .ok (b', 0) ∧
      Grown heap (nodes ++ [(node, nr, func)]) b' := by
  obtain ⟨b', hadd, hchain, hentries, hframe, -⟩ :=
    addSyscallToVector_append h.chain hgood.1 hgood.2 hfree nr func
  have hmap : (nodes ++ [(node, nr, func)]).map Prod.fst = nodes.map Prod.fst ++ [node] :=
    List.map_append
  have hnew : node ∉ nodes.map Prod.fst := by
    intro hmem
    obtain ⟨n, hn⟩ := h.chain.allocated node hmem
    rw [hfree] at hn
    cases hn
  refine ⟨b', hadd, ?_⟩
  constructor
  · rw [hmap]
    exact hchain
  · rw [hmap, hentries, h.entries, List.map_append]
    rfl
  · intro a ha
    rw [hmap] at ha
    rw [hframe a ha]
    exact h.frame a fun hmem => ha (List.mem_append_left _ hmem)
  · intro a ha
    rw [hmap] at ha
    rcases List.mem_append.mp ha with ha | ha
    · exact h.fresh a ha
    · obtain rfl := List.mem_singleton.mp ha
      exact (h.frame a hnew).symm.trans hfree

/-- Whatever the allocation yields, the call returns. -/
theorem Grown.returns (h : Grown heap nodes b) (hfree : b.heap node = none) (nr : SyscallNr)
    (func : Handler) :
    ∃ b' ret, addSyscallToVector b node nr func = .ok (b', ret) ∧ (ret = 0 ↔ Good node) := by
  by_cases hgood : Good node
  · obtain ⟨b', hadd, -⟩ := h.add hgood hfree nr func
    exact ⟨b', 0, hadd, iff_of_true rfl hgood⟩
  · obtain ⟨ret, hneg, hfail⟩ := addSyscallToVector_bad b nr func hgood
    refine ⟨b, ret, hfail, iff_of_false (fun h0 => ?_) hgood⟩
    rw [h0] at hneg
    exact absurd hneg (by decide)

/-! ## All of them -/

theorem Appended.grown (h : Appended ⟨heap, 0⟩ nodes b) : Grown heap nodes b := by
  induction h with
  | start => exact ⟨.nil, rfl, fun _ _ => rfl, by simp⟩
  | next _ _ hfree hadd ih =>
    obtain ⟨b'', hadd', hgrown⟩ := ih.add (good_of_added hadd) hfree _ _
    rw [hadd] at hadd'
    cases hadd'
    exact hgrown

/-- Deleting the chain leaves the heap from before its first node. -/
theorem Grown.deleteVector (h : Grown heap nodes b) :
    Model.deleteVector b.heap b.listHead = .ok heap := by
  rw [deleteVector_chain h.chain]
  congr 1
  funext a
  by_cases ha : a ∈ nodes.map Prod.fst
  · rw [if_pos ha, h.fresh a ha]
  · rw [if_neg ha, h.frame a ha]

/-- After any number of calls from an empty chain, the chain is the nodes added, in order and
each once, with their entries; no other node has changed, and the next call returns.
`delete_vector` returns, frees each of the nodes once and nothing else, and does not come back
to a node that it has freed. -/
theorem chain_built_and_freed (h : Appended ⟨heap, 0⟩ nodes b) :
    ChainAt b.heap b.listHead (nodes.map Prod.fst) ∧ (nodes.map Prod.fst).Nodup ∧
    entriesAt b.heap (nodes.map Prod.fst) = nodes.map (fun node => some node.2) ∧
    (∀ a, a ∉ nodes.map Prod.fst → b.heap a = heap a) ∧
    (∀ node nr func, b.heap node = none →
      ∃ b' ret, addSyscallToVector b node nr func = .ok (b', ret) ∧ (ret = 0 ↔ Good node)) ∧
    Model.deleteVector b.heap b.listHead = .ok heap ∧
    freed (deleteVectorAccesses b.heap b.listHead) = nodes.map Prod.fst ∧
    NoUseAfterFree (deleteVectorAccesses b.heap b.listHead) := by
  have hgrown := h.grown
  obtain ⟨hfreed, hsafe⟩ := deleteVectorAccesses_chain hgrown.chain
  refine ⟨hgrown.chain, hgrown.chain.nodup, hgrown.entries, hgrown.frame, ?_,
    hgrown.deleteVector, hfreed, hsafe⟩
  exact fun node nr func hfree => hgrown.returns hfree nr func

end

/-- Two nodes in an empty heap. -/
theorem chain_built_and_freed_two :
    ∃ b, Appended ⟨fun _ => none, 0⟩
        [(4096, .link, .overriddenLink), (4160, .read, .overriddenRead)] b ∧
      ChainAt b.heap b.listHead [4096, 4160] ∧ Model.deleteVector b.heap b.listHead =
        .ok fun _ => none := by
  have hstart : Grown (fun _ => none) [] ⟨fun _ => none, 0⟩ :=
    ⟨.nil, rfl, fun _ _ => rfl, by simp⟩
  obtain ⟨b₁, hfirst, hgrown⟩ := hstart.add (by decide : Good 4096) rfl .link .overriddenLink
  have hfree : b₁.heap 4160 = none := hgrown.frame 4160 (by decide)
  obtain ⟨b₂, hsecond, -⟩ := hgrown.add (by decide : Good 4160) hfree .read .overriddenRead
  have happended : Appended ⟨fun _ => none, 0⟩
      [(4096, .link, .overriddenLink), (4160, .read, .overriddenRead)] b₂ :=
    .next (.next .start (by decide) rfl hfirst) (by decide) hfree hsecond
  obtain ⟨hchain, -, -, -, -, hdelete, -⟩ := chain_built_and_freed happended
  exact ⟨b₂, happended, hchain, hdelete⟩

end SyscallVector.Audit
