import Mathlib.Data.Fintype.Card
import Mathlib.Tactic.SplitIfs

/-!
# Counting the holders of a resource

Each of finitely many owners may hold one resource. `holders own k` is the
number of owners that hold `k`, the number an exact reference count shows. It
changes by one owner at a time: an update of a single owner takes one holder
from the resource it gave up and adds one to the resource it received.
-/
namespace SyscallVector.Lib

set_option autoImplicit false

universe u v
variable {ι : Type u} {κ : Type v} [Fintype ι] [DecidableEq ι] [DecidableEq κ]

/-- The number of owners that hold `k`. -/
def holders (own : ι → Option κ) (k : κ) : Nat :=
  (Finset.univ.filter fun i => own i = some k).card

variable (own : ι → Option κ) (i : ι) (k : κ)

omit [DecidableEq ι] in
theorem holders_le_card : holders own k ≤ Fintype.card ι := Finset.card_le_univ _

omit [DecidableEq ι] in
theorem holders_pos {own : ι → Option κ} {i : ι} {k : κ} (h : own i = some k) :
    0 < holders own k :=
  Finset.card_pos.mpr ⟨i, by simp [h]⟩

omit [DecidableEq ι] in
theorem holders_eq_zero_iff : holders own k = 0 ↔ ∀ i, own i ≠ some k := by
  simp [holders, Finset.filter_eq_empty_iff]

omit [Fintype ι] [DecidableEq κ] in
/-- Who holds a resource after an update held it before or received it. -/
theorem holds_of_update {own : ι → Option κ} {i j : ι} {x : Option κ} {k : κ}
    (h : Function.update own i x j = some k) : own j = some k ∨ x = some k := by
  by_cases hj : j = i
  · subst hj
    rw [Function.update_self] at h
    exact .inr h
  · rw [Function.update_of_ne hj] at h
    exact .inl h

/-- What one owner gives up and receives is all that changes. -/
theorem holders_update (x : Option κ) :
    holders (Function.update own i x) k + (if own i = some k then 1 else 0) =
      holders own k + (if x = some k then 1 else 0) := by
  have hrest : (Finset.univ.filter fun j => Function.update own i x j = some k).erase i =
      (Finset.univ.filter fun j => own j = some k).erase i := by
    ext j
    by_cases hj : j = i <;> simp [hj]
  have hcard (f : ι → Option κ) :
      ((Finset.univ.filter fun j => f j = some k).erase i).card + (if f i = some k then 1 else 0) =
        holders f k := by
    by_cases hi : f i = some k
    · rw [if_pos hi, Finset.card_erase_add_one (by simp [hi])]
      rfl
    · rw [if_neg hi, Finset.erase_eq_of_notMem (by simp [hi])]
      rfl
  have hnew := hcard (Function.update own i x)
  have hold := hcard own
  rw [hrest, Function.update_self] at hnew
  omega

/-- An owner that does not receive a resource adds no holder to it. -/
theorem holders_update_le {own : ι → Option κ} {i : ι} {k : κ} {x : Option κ} (hx : x ≠ some k) :
    holders (Function.update own i x) k ≤ holders own k := by
  have h := holders_update own i k x
  rw [if_neg hx] at h
  omega

theorem holders_update_le_succ (x : Option κ) :
    holders (Function.update own i x) k ≤ holders own k + 1 := by
  have h := holders_update own i k x
  split at h <;> split at h <;> omega

/-- An owner that receives a resource it does not hold adds one holder to it. -/
theorem holders_update_take {own : ι → Option κ} {i : ι} {k : κ} (h : own i ≠ some k) :
    holders (Function.update own i (some k)) k = holders own k + 1 := by
  simpa [h] using holders_update own i k (some k)

/-- An owner that gives its resource up takes one holder from it. -/
theorem holders_update_drop {own : ι → Option κ} {i : ι} {k : κ} {x : Option κ}
    (h : own i = some k) (hx : x ≠ some k) :
    holders (Function.update own i x) k + 1 = holders own k := by
  simpa [h, hx] using holders_update own i k x

/-- A resource that is neither given up nor received keeps its holders. -/
theorem holders_update_other {own : ι → Option κ} {i : ι} {k : κ} {x : Option κ}
    (h : own i ≠ some k) (hx : x ≠ some k) :
    holders (Function.update own i x) k = holders own k := by
  simpa [h, hx] using holders_update own i k x

end SyscallVector.Lib
