import SyscallVector.Lib.LinkedList

/-!
# The accesses of a freeing walk

`freeAccesses` lists what the walk of `freeCells` does with the heap, in order. On a
NULL-terminated list it frees the cells one after the other, each once, and never comes back
to a cell that it has freed.
-/
namespace SyscallVector.Lib

set_option autoImplicit false

universe u v
variable {A : Type u} {N : Type v}

inductive CellAccess (A : Type u) where
  | read (a : A)
  | free (a : A)
  deriving DecidableEq, Repr

def CellAccess.cell : CellAccess A → A
  | .read a => a
  | .free a => a

/-- The cells that are freed, in order. -/
def freed : List (CellAccess A) → List A
  | [] => []
  | .read _ :: accesses => freed accesses
  | .free a :: accesses => a :: freed accesses

/-- What comes after the freeing of a cell does not touch the cell. -/
def NoUseAfterFree (accesses : List (CellAccess A)) : Prop :=
  accesses.Pairwise fun x y => ∀ a, x = .free a → y.cell ≠ a

section
variable [DecidableEq A] (next : N → A) (null : A)

/-- The loop tests the `next` of a cell, reads it again to go on, and frees the cell. The
cell that ends the loop is freed behind it. -/
def freeAccesses (heap : A → Option N) : Nat → A → List (CellAccess A)
  | 0, _ => []
  | fuel + 1, p =>
    match heap p with
    | none => [.read p]
    | some n =>
      if next n = null then [.read p, .free p]
      else .read p :: .read p :: .free p :: freeAccesses (setCell heap p none) fuel (next n)

end

variable {next : N → A} {null : A} {heap : A → Option N} {p : A} {ps : List A}

theorem noUseAfterFree_read {accesses : List (CellAccess A)} (h : NoUseAfterFree accesses)
    (a : A) : NoUseAfterFree (.read a :: accesses) := by
  refine List.pairwise_cons.mpr ⟨fun x _ b hb => ?_, h⟩
  cases hb

theorem noUseAfterFree_free {accesses : List (CellAccess A)} (h : NoUseAfterFree accesses)
    {a : A} (ha : ∀ x ∈ accesses, x.cell ≠ a) : NoUseAfterFree (.free a :: accesses) := by
  refine List.pairwise_cons.mpr ⟨fun x hx b hb => ?_, h⟩
  cases hb
  exact ha x hx

/-- On a list, the walk frees its cells in order, and touches no other. -/
theorem Seg.freeAccesses [DecidableEq A] (h : Seg next null heap p ps) (hne : ps ≠ [])
    {fuel : Nat} (hf : ps.length ≤ fuel) :
    freed (freeAccesses next null heap fuel p) = ps ∧
      (∀ x ∈ freeAccesses next null heap fuel p, x.cell ∈ ps) ∧
      NoUseAfterFree (freeAccesses next null heap fuel p) := by
  induction ps generalizing heap p fuel with
  | nil => exact absurd rfl hne
  | cons a ps ih =>
    cases fuel with
    | zero => simp at hf
    | succ fuel =>
      have hna : a ∉ ps := (List.nodup_cons.mp h.nodup).1
      cases h with
      | @cons _ n _ hp hn ht =>
        rw [Lib.freeAccesses, hn]
        dsimp only
        by_cases hnull : next n = null
        · obtain rfl := ht.eq_nil_iff.mpr hnull
          rw [if_pos hnull]
          refine ⟨rfl, by simp [CellAccess.cell], ?_⟩
          exact noUseAfterFree_read (noUseAfterFree_free .nil (by simp)) a
        · have hps : ps ≠ [] := fun h => hnull (ht.eq_nil_iff.mp h)
          obtain ⟨hfreed, hcells, hsafe⟩ :=
            ih (ht.frame_setCell hna none) hps (Nat.le_of_succ_le_succ hf)
          rw [if_neg hnull]
          refine ⟨congrArg (a :: ·) hfreed, ?_, ?_⟩
          · simp only [List.forall_mem_cons]
            refine ⟨List.mem_cons_self, List.mem_cons_self, List.mem_cons_self, fun x hx => ?_⟩
            exact List.mem_cons_of_mem a (hcells x hx)
          · -- the rest of the walk stays in the rest of the list, which does not hold `a`
            have hrest : ∀ x ∈ Lib.freeAccesses next null (setCell heap a none) fuel (next n),
                x.cell ≠ a := fun x hx he => hna (he ▸ hcells x hx)
            exact noUseAfterFree_read (noUseAfterFree_read
              (noUseAfterFree_free hsafe hrest) a) a

end SyscallVector.Lib
