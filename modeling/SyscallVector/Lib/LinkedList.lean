import Mathlib.Data.List.Nodup
import Mathlib.Data.Finset.Card
import Mathlib.Data.Fintype.Card

/-!
# NULL-terminated lists in a heap

A heap maps addresses to the cells that are allocated. `Seg next null heap p ps`
says that following `next` from `p` visits exactly the addresses `ps`, each once,
and ends at `null`. The two loops of a singly linked list, the search for the
last cell and the walk that frees every cell, are given with a step budget and
shown to end within the length of the list.
-/
namespace SyscallVector.Lib

set_option autoImplicit false

/-- How a pointer program goes wrong. -/
inductive Fault where
  | nullPointer
  | danglingPointer
  | endlessLoop
  deriving DecidableEq, Repr

section

universe u v
variable {A : Type u} {N : Type v} [DecidableEq A]

/-- Store a cell, or with `none` free it. -/
def setCell (heap : A → Option N) (p : A) (cell : Option N) : A → Option N :=
  Function.update heap p cell

omit [DecidableEq A] in
/-- `heap'` holds every cell of `heap` unchanged. -/
def Extends (heap heap' : A → Option N) : Prop := ∀ a n, heap a = some n → heap' a = some n

variable (next : N → A) (null : A)

inductive Seg (heap : A → Option N) : A → List A → Prop
  | nil : Seg heap null []
  | cons {p : A} {n : N} {ps : List A} : p ≠ null → heap p = some n →
      Seg heap (next n) ps → Seg heap p (p :: ps)

/-- The search for the cell whose `next` is NULL. -/
def lastCell (heap : A → Option N) : Nat → A → Except Fault A
  | 0, _ => .error .endlessLoop
  | fuel + 1, p =>
    match heap p with
    | none => .error .danglingPointer
    | some n => if next n = null then .ok p else lastCell heap fuel (next n)

/-- The walk that frees each cell after reading its `next`. -/
def freeCells (heap : A → Option N) : Nat → A → Except Fault (A → Option N)
  | 0, _ => .error .endlessLoop
  | fuel + 1, p =>
    match heap p with
    | none => .error .danglingPointer
    | some n =>
      if next n = null then .ok (setCell heap p none)
      else freeCells (setCell heap p none) fuel (next n)

variable {next null} {heap heap' : A → Option N} {p q : A} {ps qs : List A} {n : N}

omit [DecidableEq A] in
theorem Extends.refl (heap : A → Option N) : Extends heap heap := fun _ _ h => h

omit [DecidableEq A] in
theorem Extends.trans {heap'' : A → Option N} (h : Extends heap heap')
    (h' : Extends heap' heap'') : Extends heap heap'' := fun a n ha => h' a n (h a n ha)

@[simp] theorem setCell_self (heap : A → Option N) (p : A) (cell : Option N) :
    setCell heap p cell p = cell := Function.update_self ..

theorem setCell_of_ne {a p : A} (h : a ≠ p) (heap : A → Option N) (cell : Option N) :
    setCell heap p cell a = heap a := Function.update_of_ne h ..

theorem extends_setCell_fresh (hp : heap p = none) (cell : Option N) :
    Extends heap (setCell heap p cell) := by
  intro a n ha
  have hne : a ≠ p := by
    rintro rfl
    rw [hp] at ha
    cases ha
  rw [setCell_of_ne hne, ha]

omit [DecidableEq A] in
theorem Seg.eq_nil_iff (h : Seg next null heap p ps) : ps = [] ↔ p = null := by
  cases h with
  | nil => simp
  | cons hp _ _ => simp [hp]

omit [DecidableEq A] in
theorem Seg.head_mem (h : Seg next null heap p ps) (hp : p ≠ null) : p ∈ ps := by
  cases h with
  | nil => exact absurd rfl hp
  | cons _ _ _ => exact List.mem_cons_self

omit [DecidableEq A] in
theorem Seg.allocated (h : Seg next null heap p ps) : ∀ a ∈ ps, ∃ n, heap a = some n := by
  induction h with
  | nil => simp
  | cons _ hn _ ih =>
    intro a ha
    rcases List.mem_cons.mp ha with rfl | ha
    · exact ⟨_, hn⟩
    · exact ih a ha

omit [DecidableEq A] in
/-- The cells of a list depend on the heap only. -/
theorem Seg.unique (h : Seg next null heap p ps) (h' : Seg next null heap p qs) : ps = qs := by
  induction h generalizing qs with
  | nil =>
    cases h' with
    | nil => rfl
    | cons hp _ _ => exact absurd rfl hp
  | cons hp hn _ ih =>
    cases h' with
    | nil => exact absurd rfl hp
    | cons _ hn' ht =>
      obtain rfl := Option.some.inj (hn.symm.trans hn')
      rw [ih ht]

omit [DecidableEq A] in
/-- A list that agrees with the heap on its own cells is unaffected elsewhere. -/
theorem Seg.frame (h : Seg next null heap p ps) (hf : ∀ a ∈ ps, heap' a = heap a) :
    Seg next null heap' p ps := by
  induction h with
  | nil => exact .nil
  | cons hp hn _ ih =>
    refine .cons hp ((hf _ List.mem_cons_self).trans hn) (ih fun a ha => ?_)
    exact hf a (List.mem_cons_of_mem _ ha)

omit [DecidableEq A] in
theorem Seg.extends (h : Seg next null heap p ps) (he : Extends heap heap') :
    Seg next null heap' p ps := by
  refine h.frame fun a ha => ?_
  obtain ⟨n, hn⟩ := h.allocated a ha
  rw [hn, he a n hn]

theorem Seg.frame_setCell (h : Seg next null heap p ps) {a : A} (ha : a ∉ ps)
    (cell : Option N) : Seg next null (setCell heap a cell) p ps := by
  refine h.frame fun b hb => setCell_of_ne (fun hba => ?_) heap cell
  exact ha (hba ▸ hb)

omit [DecidableEq A] in
/-- Every cell starts the rest of the list. -/
theorem Seg.suffix (h : Seg next null heap p ps) :
    ∀ a ∈ ps, ∃ qs, Seg next null heap a qs ∧ qs <:+ ps := by
  induction h with
  | nil => simp
  | cons hp hn ht ih =>
    intro a ha
    rcases List.mem_cons.mp ha with rfl | ha
    · exact ⟨_, .cons hp hn ht, List.suffix_refl _⟩
    · obtain ⟨qs, hq, hs⟩ := ih a ha
      exact ⟨qs, hq, hs.trans (List.suffix_cons _ _)⟩

omit [DecidableEq A] in
/-- A NULL-terminated list has no cycle. -/
theorem Seg.nodup (h : Seg next null heap p ps) : ps.Nodup := by
  induction h with
  | nil => exact List.nodup_nil
  | @cons p n ps hp hn ht ih =>
    refine List.nodup_cons.mpr ⟨fun hmem => ?_, ih⟩
    obtain ⟨qs, hq, hs⟩ := ht.suffix p hmem
    have heq := hq.unique (.cons hp hn ht)
    have hle := hs.length_le
    rw [heq, List.length_cons] at hle
    omega

/-- The tail search ends at the last cell. -/
theorem Seg.lastCell_eq (h : Seg next null heap p ps) (hne : ps ≠ []) {fuel : Nat}
    (hf : ps.length ≤ fuel) : lastCell next null heap fuel p = .ok (ps.getLast hne) := by
  induction h generalizing fuel with
  | nil => exact absurd rfl hne
  | @cons p n ps hp hn ht ih =>
    cases fuel with
    | zero => simp at hf
    | succ fuel =>
      rw [lastCell, hn]
      by_cases hnull : next n = null
      · obtain rfl := ht.eq_nil_iff.mpr hnull
        simp [hnull]
      · have hps : ps ≠ [] := fun h => hnull (ht.eq_nil_iff.mp h)
        simp only [hnull, ↓reduceIte]
        rw [ih hps (by simpa using hf), List.getLast_cons hps]

/-- The freeing walk frees exactly the cells of the list. -/
theorem Seg.freeCells_eq (h : Seg next null heap p ps) (hne : ps ≠ []) {fuel : Nat}
    (hf : ps.length ≤ fuel) :
    freeCells next null heap fuel p = .ok fun a => if a ∈ ps then none else heap a := by
  induction ps generalizing heap p fuel with
  | nil => exact absurd rfl hne
  | cons a ps ih =>
    cases fuel with
    | zero => simp at hf
    | succ fuel =>
      have hnodup := h.nodup
      cases h with
      | @cons _ n _ hp hn ht =>
        rw [freeCells, hn]
        by_cases hnull : next n = null
        · obtain rfl := ht.eq_nil_iff.mpr hnull
          simp only [hnull, ↓reduceIte, List.mem_singleton]
          congr 1
          funext b
          by_cases hb : b = a <;> simp [setCell, hb]
        · have hps : ps ≠ [] := fun h => hnull (ht.eq_nil_iff.mp h)
          have hna : a ∉ ps := (List.nodup_cons.mp hnodup).1
          simp only [hnull, ↓reduceIte]
          rw [ih (ht.frame_setCell hna none) hps (by simpa using hf)]
          congr 1
          funext b
          by_cases hb : b = a
          · subst hb
            simp [setCell]
          · simp [setCell, hb]

/-- The search starts at a cell and follows no NULL. -/
theorem lastCell_fault {fuel : Nat} {fault : Fault}
    (h : lastCell next null heap fuel p = .error fault) : fault ≠ .nullPointer := by
  induction fuel generalizing p with
  | zero =>
    rw [lastCell] at h
    cases h
    decide
  | succ fuel ih =>
    rw [lastCell] at h
    split at h
    · cases h
      decide
    · split at h
      · cases h
      · exact ih h

theorem freeCells_fault {fuel : Nat} {fault : Fault}
    (h : freeCells next null heap fuel p = .error fault) : fault ≠ .nullPointer := by
  induction fuel generalizing heap p with
  | zero =>
    rw [freeCells] at h
    cases h
    decide
  | succ fuel ih =>
    rw [freeCells] at h
    split at h
    · cases h
      decide
    · split at h
      · cases h
      · exact ih h

/-- The freeing walk allocates nothing. -/
theorem freeCells_none {fuel : Nat} {a : A} (h : freeCells next null heap fuel p = .ok heap')
    (ha : heap a = none) : heap' a = none := by
  induction fuel generalizing heap p with
  | zero => cases h
  | succ fuel ih =>
    have hstep : setCell heap p none a = none := by
      by_cases hap : a = p
      · rw [hap, setCell_self]
      · rw [setCell_of_ne hap, ha]
    rw [freeCells] at h
    split at h
    · cases h
    · split at h
      · cases h
        exact hstep
      · exact ih h hstep

/-- Linking a fresh cell behind the last one appends it to the list. -/
theorem Seg.append (h : Seg next null heap p ps) (hne : ps ≠ [])
    (setNext : N → N) (hset : ∀ m, next (setNext m) = q) (hq : q ≠ null) (hqps : q ∉ ps)
    {last : N} (hlast : heap (ps.getLast hne) = some last) (hn : next n = null)
    (hqheap : heap q = some n) :
    Seg next null (setCell heap (ps.getLast hne) (some (setNext last))) p (ps ++ [q]) := by
  induction h with
  | nil => exact absurd rfl hne
  | @cons p m ps hp hm ht ih =>
    by_cases hnil : ps = []
    · subst hnil
      obtain rfl := Option.some.inj (hm.symm.trans hlast)
      have hqp : q ≠ p := fun h => hqps (by simp [h])
      refine .cons (n := setNext m) hp (by simp [setCell]) ?_
      rw [hset]
      refine .cons hq (n := n) ?_ ?_
      · rw [setCell_of_ne (by simpa using hqp), hqheap]
      · rw [hn]; exact .nil
    · have hlast' : heap (ps.getLast hnil) = some last := by
        rw [← hlast, List.getLast_cons hnil]
      have hnodup : (p :: ps).Nodup := (Seg.cons hp hm ht).nodup
      have hpne : p ≠ ps.getLast hnil := fun h =>
        (List.nodup_cons.mp hnodup).1 (h ▸ List.getLast_mem hnil)
      rw [List.getLast_cons hnil]
      refine .cons hp ?_ (ih hnil (fun h => hqps (List.mem_cons_of_mem _ h)) hlast')
      rw [setCell_of_ne hpne, hm]

end

end SyscallVector.Lib
