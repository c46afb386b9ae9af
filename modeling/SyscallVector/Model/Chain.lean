import Mathlib.Data.UInt
import SyscallVector.Lib.CellTrace
import SyscallVector.Model.VectorStruct

/-!
# Building and deleting chains

`add_syscall_to_vector` and `delete_vector`, which vector1_module.c,
vector2_module.c and dynamic_vector.c each contain. Both follow `nextSyscall`
pointers; the step budget `walkBudget` exceeds the number of addresses, so only a
cyclic chain exhausts it.
-/
namespace SyscallVector.Model

set_option autoImplicit false

open Lib

def walkBudget : Nat := 2 ^ 64

/-- The heap and the `listHead` variable of the module that builds a chain. -/
structure Builder where
  heap : Heap
  listHead : Address

/-- `add_syscall_to_vector`; `syscall` is what `kmalloc` returns. -/
def addSyscallToVector (b : Builder) (syscall : Address) (nrSyscall : SyscallNr)
    (funcPtr : Handler) : Except Fault (Builder × Int32) :=
  if syscall = 0 then .ok (b, -ENOMEM)
  else if isErr syscall then .ok (b, ptrErr syscall)
  else
    let heap := setCell b.heap syscall (some ⟨nrSyscall, funcPtr, 0, 0⟩)
    if b.listHead = 0 then .ok (⟨heap, syscall⟩, 0)
    else
      match lastCell OverriddenSyscall.nextSyscall 0 heap walkBudget b.listHead with
      | .error fault => .error fault
      | .ok temp =>
        let linked := (heap temp).map fun n => { n with nextSyscall := syscall }
        .ok (⟨setCell heap temp linked, b.listHead⟩, 0)

/-- `delete_vector` on the chain that starts at `listHeads`. -/
def deleteVector (heap : Heap) (listHeads : Address) : Except Fault Heap :=
  if listHeads = 0 then .ok heap
  else freeCells OverriddenSyscall.nextSyscall 0 heap walkBudget listHeads

/-- What `delete_vector` does with the nodes, in order. -/
def deleteVectorAccesses (heap : Heap) (listHeads : Address) : List (CellAccess Address) :=
  if listHeads = 0 then []
  else freeAccesses OverriddenSyscall.nextSyscall 0 heap walkBudget listHeads

/-! ## Chains -/

/-- The nodes from `p` on are `ps`, each once, up to NULL. -/
abbrev ChainAt (heap : Heap) (p : Address) (ps : List Address) : Prop :=
  Seg OverriddenSyscall.nextSyscall 0 heap p ps

/-- The system call number and the handler of a node. -/
def OverriddenSyscall.entry (n : OverriddenSyscall) : SyscallNr × Handler :=
  (n.nrSyscall, n.funcPtr)

/-- The entries of the nodes at the given addresses, as far as they are allocated. -/
def entriesAt (heap : Heap) (ps : List Address) : List (Option (SyscallNr × Handler)) :=
  ps.map fun p => (heap p).map OverriddenSyscall.entry

/-- The chain from `p` on ends in NULL and holds these entries in this order. -/
def Chain (heap : Heap) (p : Address) (entries : List (SyscallNr × Handler)) : Prop :=
  ∃ ps, ChainAt heap p ps ∧ entriesAt heap ps = entries.map some

theorem chainAt_length_le {heap : Heap} {p : Address} {ps : List Address}
    (h : ChainAt heap p ps) : ps.length ≤ walkBudget := by
  have hinj : Function.Injective UInt64.toFin := fun a b hab => UInt64.toFin_inj.mp hab
  have hnodup : (ps.map UInt64.toFin).Nodup := h.nodup.map hinj
  have hle := hnodup.length_le_card
  rw [List.length_map, Fintype.card_fin] at hle
  exact hle

theorem entriesAt_extends {heap heap' : Heap} {p : Address} {ps : List Address}
    (h : ChainAt heap p ps) (he : Extends heap heap') :
    entriesAt heap' ps = entriesAt heap ps := by
  refine List.map_congr_left fun a ha => ?_
  obtain ⟨n, hn⟩ := h.allocated a ha
  rw [hn, he a n hn]

/-- A chain survives every change that only allocates. -/
theorem Chain.extends {heap heap' : Heap} {p : Address} {entries : List (SyscallNr × Handler)}
    (h : Chain heap p entries) (he : Extends heap heap') : Chain heap' p entries := by
  obtain ⟨ps, hps, hent⟩ := h
  exact ⟨ps, hps.extends he, (entriesAt_extends hps he).trans hent⟩

theorem chain_null_iff {heap : Heap} {p : Address} {es : List (SyscallNr × Handler)}
    (h : Chain heap p es) : p = 0 ↔ es = [] := by
  obtain ⟨ps, hps, he⟩ := h
  rw [← hps.eq_nil_iff]
  constructor
  · rintro rfl
    simpa [entriesAt] using he
  · rintro rfl
    simpa [entriesAt] using he

/-! ## One append -/

/-- Link the node at `q` behind the node at `last`. -/
def link (heap : Heap) (last q : Address) : Heap :=
  setCell heap last ((heap last).map fun n => { n with nextSyscall := q })

theorem link_of_ne {heap : Heap} {a last q : Address} (h : a ≠ last) :
    link heap last q a = heap a := setCell_of_ne h ..

/-- Linking changes no number and no handler. -/
theorem link_entry (heap : Heap) (last q a : Address) :
    (link heap last q a).map OverriddenSyscall.entry = (heap a).map OverriddenSyscall.entry := by
  by_cases ha : a = last
  · subst ha
    rw [link, setCell_self]
    cases heap a <;> rfl
  · rw [link_of_ne ha]

theorem chainAt_link {heap : Heap} {p q : Address} {ps : List Address} {n : OverriddenSyscall}
    (h : ChainAt heap p ps) (hne : ps ≠ []) (hq : q ≠ 0) (hqps : q ∉ ps)
    (hn : n.nextSyscall = 0) (hqheap : heap q = some n) :
    ChainAt (link heap (ps.getLast hne) q) p (ps ++ [q]) := by
  obtain ⟨last, hlast⟩ := h.allocated _ (List.getLast_mem hne)
  have happend := h.append hne (fun n => { n with nextSyscall := q }) (fun _ => rfl)
    hq hqps hlast hn hqheap
  rw [link, hlast]
  exact happend

/-- What a builder has made of a heap: a chain of its own on fresh addresses. -/
structure Built (heap₀ : Heap) (b : Builder) (entries : List (SyscallNr × Handler)) : Prop where
  grown : Extends heap₀ b.heap
  chain : ∃ ps, ChainAt b.heap b.listHead ps ∧ entriesAt b.heap ps = entries.map some ∧
    ∀ a ∈ ps, heap₀ a = none

theorem Built.start (heap : Heap) : Built heap ⟨heap, 0⟩ [] :=
  ⟨Extends.refl heap, [], .nil, rfl, by simp⟩

theorem Built.chain_of {heap₀ : Heap} {b : Builder} {entries : List (SyscallNr × Handler)}
    (h : Built heap₀ b entries) : Chain b.heap b.listHead entries := by
  obtain ⟨ps, hps, hent, -⟩ := h.chain
  exact ⟨ps, hps, hent⟩

section
variable {heap₀ : Heap} {b : Builder} {entries : List (SyscallNr × Handler)} {syscall : Address}

theorem Built.fresh₀ (hb : Built heap₀ b entries) (hfresh : b.heap syscall = none) :
    heap₀ syscall = none := by
  cases h : heap₀ syscall with
  | none => rfl
  | some n =>
    have := hb.grown syscall n h
    rw [hfresh] at this
    cases this

/-- The first node becomes the head. -/
theorem addSyscallToVector_first (h0 : syscall ≠ 0) (he : isErr syscall = false)
    (hnil : b.listHead = 0) (nr : SyscallNr) (func : Handler) :
    addSyscallToVector b syscall nr func =
      .ok (⟨setCell b.heap syscall (some ⟨nr, func, 0, 0⟩), syscall⟩, 0) := by
  simp [addSyscallToVector, h0, he, hnil]

/-- A further node goes behind the last one. -/
theorem addSyscallToVector_next {ps : List Address} (h0 : syscall ≠ 0)
    (he : isErr syscall = false) (hfresh : b.heap syscall = none)
    (hps : ChainAt b.heap b.listHead ps) (hne : ps ≠ []) (nr : SyscallNr) (func : Handler) :
    addSyscallToVector b syscall nr func =
      .ok (⟨link (setCell b.heap syscall (some ⟨nr, func, 0, 0⟩)) (ps.getLast hne) syscall,
        b.listHead⟩, 0) := by
  have hhead : b.listHead ≠ 0 := fun h => hne (hps.eq_nil_iff.mpr h)
  have hps' := hps.extends (extends_setCell_fresh hfresh (some ⟨nr, func, 0, 0⟩))
  have hlast := hps'.lastCell_eq hne (chainAt_length_le hps')
  simp only [addSyscallToVector, h0, he, hhead, ↓reduceIte, hlast, Bool.false_eq_true]
  rfl

/-- A node that is not allocated comes to stand at the end of a chain, and no other node
outside the chain changes. -/
theorem addSyscallToVector_append {ps : List Address} (hps : ChainAt b.heap b.listHead ps)
    (h0 : syscall ≠ 0) (he : isErr syscall = false) (hfresh : b.heap syscall = none)
    (nr : SyscallNr) (func : Handler) :
    ∃ b', addSyscallToVector b syscall nr func = .ok (b', 0) ∧
      ChainAt b'.heap b'.listHead (ps ++ [syscall]) ∧
      entriesAt b'.heap (ps ++ [syscall]) = entriesAt b.heap ps ++ [some (nr, func)] ∧
      (∀ a, a ∉ ps ++ [syscall] → b'.heap a = b.heap a) ∧
      b'.listHead = if b.listHead = 0 then syscall else b.listHead := by
  let heap : Heap := setCell b.heap syscall (some ⟨nr, func, 0, 0⟩)
  have hcell : heap syscall = some ⟨nr, func, 0, 0⟩ := setCell_self ..
  have hgrown : Extends b.heap heap := extends_setCell_fresh hfresh _
  have hother (a : Address) (ha : a ≠ syscall) : heap a = b.heap a := setCell_of_ne ha ..
  by_cases hnil : b.listHead = 0
  · obtain rfl := hps.eq_nil_iff.mpr hnil
    refine ⟨⟨heap, syscall⟩, addSyscallToVector_first h0 he hnil nr func, .cons h0 hcell .nil, ?_,
      fun a ha => hother a (by simpa using ha), by rw [if_pos hnil]⟩
    simp [entriesAt, hcell, OverriddenSyscall.entry]
  · have hne : ps ≠ [] := fun h => hnil (hps.eq_nil_iff.mp h)
    have hnot : syscall ∉ ps := by
      intro hmem
      obtain ⟨n, hn⟩ := hps.allocated _ hmem
      rw [hfresh] at hn
      cases hn
    let heap' := link heap (ps.getLast hne) syscall
    refine ⟨⟨heap', b.listHead⟩, addSyscallToVector_next h0 he hfresh hps hne nr func,
      chainAt_link (hps.extends hgrown) hne h0 hnot rfl hcell, ?_, fun a ha => ?_,
      by rw [if_neg hnil]⟩
    · have hkeep : entriesAt heap' (ps ++ [syscall]) = entriesAt heap (ps ++ [syscall]) :=
        List.map_congr_left fun a _ => link_entry heap _ _ a
      rw [hkeep, ← entriesAt_extends hps hgrown]
      simp [entriesAt, hcell, OverriddenSyscall.entry]
    · -- the one old node that is written is the last of this chain
      obtain ⟨hps', hsyscall⟩ := not_or.mp (List.mem_append.not.mp ha)
      have hlast : a ≠ ps.getLast hne := fun h => hps' (h ▸ List.getLast_mem hne)
      exact (link_of_ne hlast).trans (hother a (by simpa using hsyscall))

/-- A successful allocation at a fresh address appends one node to what was built. -/
theorem addSyscallToVector_built (hb : Built heap₀ b entries) (h0 : syscall ≠ 0)
    (he : isErr syscall = false) (hfresh : b.heap syscall = none) (nr : SyscallNr)
    (func : Handler) :
    ∃ b', addSyscallToVector b syscall nr func = .ok (b', 0) ∧
      Built heap₀ b' (entries ++ [(nr, func)]) ∧
      b'.listHead = (if b.listHead = 0 then syscall else b.listHead) ∧
      ∀ a, a ≠ syscall → b.heap a = none → b'.heap a = none := by
  obtain ⟨ps, hps, hent, hnew⟩ := hb.chain
  obtain ⟨b', hadd, hchain, hentries, hframe, hhead⟩ :=
    addSyscallToVector_append hps h0 he hfresh nr func
  -- `heap₀` holds no node of the chain, old or new
  have hnone : ∀ a ∈ ps ++ [syscall], heap₀ a = none := by
    intro a ha
    rcases List.mem_append.mp ha with ha | ha
    · exact hnew a ha
    · obtain rfl := List.mem_singleton.mp ha
      exact hb.fresh₀ hfresh
  refine ⟨b', hadd, ⟨fun a n ha => ?_, ps ++ [syscall], hchain, ?_, hnone⟩, hhead, ?_⟩
  · have hmem : a ∉ ps ++ [syscall] := by
      intro hmem
      rw [hnone a hmem] at ha
      cases ha
    exact (hframe a hmem).trans (hb.grown a n ha)
  · rw [hentries, hent, List.map_append]
    rfl
  · intro a ha hn
    refine (hframe a fun hmem => ?_).trans hn
    rcases List.mem_append.mp hmem with hmem | hmem
    · obtain ⟨n, hn'⟩ := hps.allocated a hmem
      rw [hn] at hn'
      cases hn'
    · exact ha (List.mem_singleton.mp hmem)

end

/-! ## Deletion -/

/-- `delete_vector` on a chain returns and frees exactly its nodes. -/
theorem deleteVector_chain {heap : Heap} {p : Address} {ps : List Address}
    (h : ChainAt heap p ps) :
    deleteVector heap p = .ok fun a => if a ∈ ps then none else heap a := by
  by_cases hp : p = 0
  · obtain rfl := h.eq_nil_iff.mpr hp
    simp [deleteVector, hp]
  · have hne : ps ≠ [] := fun hnil => hp (h.eq_nil_iff.mp hnil)
    rw [deleteVector, if_neg hp, h.freeCells_eq hne (chainAt_length_le h)]

/-- It frees them in order and comes back to none. -/
theorem deleteVectorAccesses_chain {heap : Heap} {p : Address} {ps : List Address}
    (h : ChainAt heap p ps) :
    freed (deleteVectorAccesses heap p) = ps ∧ NoUseAfterFree (deleteVectorAccesses heap p) := by
  rw [deleteVectorAccesses]
  by_cases hp : p = 0
  · obtain rfl := h.eq_nil_iff.mpr hp
    rw [if_pos hp]
    exact ⟨rfl, .nil⟩
  · have hne : ps ≠ [] := fun hnil => hp (h.eq_nil_iff.mp hnil)
    obtain ⟨hfreed, -, hsafe⟩ := h.freeAccesses hne (chainAt_length_le h)
    rw [if_neg hp]
    exact ⟨hfreed, hsafe⟩

end SyscallVector.Model
