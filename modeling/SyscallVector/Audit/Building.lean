import SyscallVector.Model.System

/-!
# What the chain builders build

`addSyscalls` appends its rows or stops at the first allocation that fails;
`addBranches` skips a row whose bit is clear or whose allocation fails. The head
is the first node allocated, and with fresh nodes the chain holds the rows that
were added, in their order, on addresses that were free before.
-/
namespace SyscallVector.Audit

set_option autoImplicit false

open Lib Model

/-- An address that `kmalloc` returns on success. -/
def Good (p : Address) : Prop := p ≠ 0 ∧ isErr p = false

instance (p : Address) : Decidable (Good p) := inferInstanceAs (Decidable (_ ∧ _))

theorem not_good {p : Address} (h : ¬Good p) : p = 0 ∨ isErr p = true := by
  by_contra hor
  push Not at hor
  exact h ⟨hor.1, by simpa using hor.2⟩

theorem toInt_toInt32 (x : UInt32) : x.toInt32.toInt = (x.toNat : Int).bmod (2 ^ 32) :=
  BitVec.toInt_eq_toNat_bmod _

/-- One less is negative exactly for the counts from just above `INT_MIN` up to zero. -/
theorem addRef_neg_iff (v : StructVector) :
    (v.addRef (-1)).refcount < 0 ↔ Int32.minValue < v.refcount ∧ v.refcount ≤ 0 := by
  have hmin : Int32.minValue.toInt = -2147483648 := rfl
  have hone : (Int32.ofInt (-1)).toInt = -1 := rfl
  have hlo := v.refcount.le_toInt
  have hhi := v.refcount.toInt_lt
  rw [StructVector.addRef_refcount, Int32.lt_iff_toInt_lt, Int32.lt_iff_toInt_lt,
    Int32.le_iff_toInt_le, Int32.toInt_add, hone, hmin, Int32.toInt_zero, Int.bmod_def]
  omega

theorem addRef_ne_self {d : Int} (hd : Int32.ofInt d ≠ 0) (v : StructVector) : v.addRef d ≠ v := by
  intro he
  have hcount := congrArg StructVector.refcount he
  rw [StructVector.addRef_refcount, Int32.add_eq_left] at hcount
  exact hd hcount

theorem addRef_ne_addRef {d e : Int} (h : Int32.ofInt d ≠ Int32.ofInt e) (v : StructVector) :
    v.addRef d ≠ v.addRef e := by
  intro he
  have hcount := congrArg StructVector.refcount he
  rw [StructVector.addRef_refcount, StructVector.addRef_refcount] at hcount
  exact h (Int32.add_right_inj _ |>.mp hcount)

/-- One more is one more, unless the `int` wraps. -/
theorem toInt_addRef_one_iff (v : StructVector) :
    (v.addRef 1).refcount.toInt = v.refcount.toInt + 1 ↔ v.refcount ≠ Int32.maxValue := by
  have hmax : Int32.maxValue.toInt = 2147483647 := rfl
  have hone : (Int32.ofInt 1).toInt = 1 := rfl
  have hlo := v.refcount.le_toInt
  have hhi := v.refcount.toInt_lt
  rw [StructVector.addRef_refcount, Ne, ← Int32.toInt_inj, Int32.toInt_add, hone, hmax,
    Int.bmod_def]
  omega

/-- One less is one less, unless the `int` wraps. -/
theorem toInt_addRef_neg_one_iff (v : StructVector) :
    (v.addRef (-1)).refcount.toInt = v.refcount.toInt - 1 ↔ v.refcount ≠ Int32.minValue := by
  have hmin : Int32.minValue.toInt = -2147483648 := rfl
  have hone : (Int32.ofInt (-1)).toInt = -1 := rfl
  have hlo := v.refcount.le_toInt
  have hhi := v.refcount.toInt_lt
  rw [StructVector.addRef_refcount, Ne, ← Int32.toInt_inj, Int32.toInt_add, hone, hmin,
    Int.bmod_def]
  omega

theorem ptrErr_neg {p : Address} (h : isErr p = true) : ptrErr p < 0 := by
  have hle : 18446744073709547521 ≤ p.toNat := by
    simpa [isErr, UInt64.le_iff_toNat_le] using h
  have hlt := p.toNat_lt
  rw [ptrErr, Int32.lt_iff_toInt_lt, toInt_toInt32, UInt64.toNat_toUInt32, Int.bmod_def,
    Int32.toInt_zero]
  omega

/-- A new entry at the head of the list. -/
def pushVector (r : Registry) (v : StructVector) : Registry :=
  { r with vecList := v :: r.vecList }

theorem addVector_good (r : Registry) {va : Address} (h : Good va) (v : StructVector) :
    r.addVector va v = (pushVector r v, 0) := by
  rw [Registry.addVector, if_neg h.1, if_neg (by simp [h.2])]
  rfl

theorem addVector_bad (r : Registry) {va : Address} (h : ¬Good va) (v : StructVector) :
    ∃ err, err < 0 ∧ r.addVector va v = (r, err) := by
  by_cases h0 : va = 0
  · exact ⟨-ENOMEM, by decide, by rw [Registry.addVector, if_pos h0]⟩
  · have he : isErr va = true := (not_good h).resolve_left h0
    exact ⟨ptrErr va, ptrErr_neg he, by rw [Registry.addVector, if_neg h0, if_pos he]⟩

section
variable {b b' : Builder} {nr : SyscallNr} {func : Handler} {ret : Int32} {syscall : Address}

/-- A failed allocation is reported as a negative number. -/
theorem addSyscallToVector_bad (b : Builder) (nr : SyscallNr) (func : Handler)
    (h : ¬Good syscall) :
    ∃ ret, ret < 0 ∧ addSyscallToVector b syscall nr func = .ok (b, ret) := by
  by_cases h0 : syscall = 0
  · exact ⟨-ENOMEM, by decide, by rw [addSyscallToVector, if_pos h0]⟩
  · have he : isErr syscall = true := (not_good h).resolve_left h0
    exact ⟨ptrErr syscall, ptrErr_neg he, by rw [addSyscallToVector, if_neg h0, if_pos he]⟩

theorem addSyscallToVector_listHead (h : addSyscallToVector b syscall nr func = .ok (b', ret)) :
    b'.listHead = if b.listHead = 0 ∧ Good syscall then syscall else b.listHead := by
  by_cases hgood : Good syscall
  · rw [addSyscallToVector, if_neg hgood.1, if_neg (by simp [hgood.2])] at h
    by_cases hnil : b.listHead = 0
    · simp only [hnil, ↓reduceIte] at h
      cases h
      rw [if_pos ⟨hnil, hgood⟩]
    · simp only [hnil, ↓reduceIte] at h
      rw [if_neg fun hand => hnil hand.1]
      split at h
      · cases h
      · cases h
        rfl
  · obtain ⟨ret', -, hret⟩ := addSyscallToVector_bad b nr func hgood
    rw [hret] at h
    cases h
    rw [if_neg fun hand => hgood hand.2]

end

/-! ## The nodes still to be allocated -/

/-- From the `k`-th on, the allocations return free and distinct nodes. -/
structure FreshFrom (heap : Heap) (node : Nat → Address) (k : Nat) : Prop where
  unused : ∀ j, k ≤ j → node j ≠ 0 → heap (node j) = none
  distinct : ∀ i j, i ≠ j → node i ≠ 0 → node i ≠ node j

theorem freshFrom_zero {heap : Heap} {node : Nat → Address} (h : FreshNodes heap node) :
    FreshFrom heap node 0 := ⟨fun j _ hj => h.unused j hj, h.distinct⟩

theorem FreshFrom.mono {heap : Heap} {node : Nat → Address} {k : Nat} (h : FreshFrom heap node k) :
    FreshFrom heap node (k + 1) := ⟨fun j hj => h.unused j (by omega), h.distinct⟩

/-- One append leaves the later nodes free. -/
theorem FreshFrom.next {heap heap' : Heap} {node : Nat → Address} {k : Nat}
    (h : FreshFrom heap node k)
    (hframe : ∀ a, a ≠ node k → heap a = none → heap' a = none) :
    FreshFrom heap' node (k + 1) := by
  refine ⟨fun j hj hj0 => ?_, h.distinct⟩
  have hne : node j ≠ node k := h.distinct j k (by omega) hj0
  exact hframe _ hne (h.unused j (by omega) hj0)

section
variable {heap₀ : Heap} {b b' : Builder} {entries : List (SyscallNr × Handler)}
  {node : Nat → Address} {k : Nat}

/-- `addSyscalls` that reports success has appended every row, on its own nodes. -/
theorem addSyscalls_built {rows : List (SyscallNr × Handler)} {ret : Int32}
    (hb : Built heap₀ b entries) (hfresh : FreshFrom b.heap node k)
    (h : addSyscalls node k rows b = .ok (b', ret)) (hret : ¬ret < 0) :
    Built heap₀ b' (entries ++ rows) ∧
      ∀ a, (∀ j, a ≠ node j) → b.heap a = none → b'.heap a = none := by
  induction rows generalizing k b entries with
  | nil =>
    cases h
    rw [List.append_nil]
    exact ⟨hb, fun a _ ha => ha⟩
  | cons row rows ih =>
    obtain ⟨nr, func⟩ := row
    rw [addSyscalls] at h
    by_cases hgood : Good (node k)
    · obtain ⟨b₁, hadd, hb₁, -, hframe⟩ := addSyscallToVector_built hb hgood.1 hgood.2
        (hfresh.unused k (le_refl k) hgood.1) nr func
      rw [hadd] at h
      have hnot : ¬(0 : Int32) < 0 := by decide
      simp only [hnot, ↓reduceIte] at h
      obtain ⟨hbuilt, hrest⟩ := ih hb₁ (hfresh.next hframe) h
      rw [List.append_assoc] at hbuilt
      exact ⟨hbuilt, fun a hne ha => hrest a hne (hframe a (hne k) ha)⟩
    · obtain ⟨ret', hneg, hadd⟩ := addSyscallToVector_bad b nr func hgood
      rw [hadd] at h
      simp only [hneg, ↓reduceIte] at h
      cases h
      exact absurd hneg hret

/-! ## The branches of dynamic_vector -/

/-- The rows of the branch table that a request adds: the bit is set and the
allocation succeeds. -/
def builtRows (bitmap : UInt32) (node : Nat → Address) :
    Nat → List (UInt32 × SyscallNr × Handler) → List (SyscallNr × Handler)
  | _, [] => []
  | k, (bit, e) :: rows =>
    if bitmap &&& bit ≠ 0 ∧ Good (node k) then e :: builtRows bitmap node (k + 1) rows
    else builtRows bitmap node (k + 1) rows

/-- The first node that a request adds, NULL if it adds none. -/
def headOf (bitmap : UInt32) (node : Nat → Address) :
    Nat → List (UInt32 × SyscallNr × Handler) → Address
  | _, [] => 0
  | k, (bit, _) :: rows =>
    if bitmap &&& bit ≠ 0 ∧ Good (node k) then node k else headOf bitmap node (k + 1) rows

theorem addBranches_listHead {bitmap : UInt32} {rows : List (UInt32 × SyscallNr × Handler)}
    {ret ret' : UInt64} {jumped : Bool}
    (h : addBranches bitmap node k rows b ret = .ok (b', ret', jumped)) :
    b'.listHead = if b.listHead = 0 then headOf bitmap node k rows else b.listHead := by
  induction rows generalizing k b ret with
  | nil =>
    cases h
    rw [headOf]
    split
    · assumption
    · rfl
  | cons row rows ih =>
    obtain ⟨bit, nr, func⟩ := row
    rw [addBranches] at h
    rw [headOf]
    by_cases hbit : bitmap &&& bit ≠ 0
    · rw [if_pos hbit] at h
      cases hadd : addSyscallToVector b (node k) nr func with
      | error fault => rw [hadd] at h; cases h
      | ok p =>
        obtain ⟨b₁, err⟩ := p
        rw [hadd] at h
        simp only [UInt64.not_lt_zero, ↓reduceIte] at h
        rw [ih h, addSyscallToVector_listHead hadd]
        by_cases hgood : Good (node k)
        · have hnode := hgood.1
          by_cases hnil : b.listHead = 0 <;> simp [hnil, hgood, hbit, hnode]
        · by_cases hnil : b.listHead = 0 <;> simp [hnil, hgood]
    · have hskip : ¬(bitmap &&& bit ≠ 0 ∧ Good (node k)) := fun hand => hbit hand.1
      rw [if_neg hbit] at h
      rw [ih h, if_neg hskip]

/-- With fresh nodes `addBranches` returns, and has appended the rows it added. -/
theorem addBranches_built (rows : List (UInt32 × SyscallNr × Handler)) (bitmap : UInt32)
    (ret : UInt64) (hb : Built heap₀ b entries) (hfresh : FreshFrom b.heap node k) :
    ∃ b' ret', addBranches bitmap node k rows b ret = .ok (b', ret', false) ∧
      Built heap₀ b' (entries ++ builtRows bitmap node k rows) := by
  induction rows generalizing k b entries ret with
  | nil => exact ⟨b, ret, rfl, by rwa [builtRows, List.append_nil]⟩
  | cons row rows ih =>
    obtain ⟨bit, nr, func⟩ := row
    rw [addBranches, builtRows]
    by_cases hbit : bitmap &&& bit ≠ 0
    · rw [if_pos hbit]
      by_cases hgood : Good (node k)
      · obtain ⟨b₁, hadd, hb₁, -, hframe⟩ := addSyscallToVector_built hb hgood.1 hgood.2
          (hfresh.unused k (le_refl k) hgood.1) nr func
        obtain ⟨b', ret', hrest, hbuilt⟩ := ih ((0 : Int32).toInt64.toUInt64) hb₁
          (hfresh.next hframe)
        rw [List.append_assoc] at hbuilt
        refine ⟨b', ret', ?_, ?_⟩
        · simp only [hadd, UInt64.not_lt_zero, ↓reduceIte]
          exact hrest
        · rw [if_pos ⟨hbit, hgood⟩]
          exact hbuilt
      · obtain ⟨err, -, hadd⟩ := addSyscallToVector_bad b nr func hgood
        obtain ⟨b', ret', hrest, hbuilt⟩ := ih err.toInt64.toUInt64 hb hfresh.mono
        refine ⟨b', ret', ?_, ?_⟩
        · simp only [hadd, UInt64.not_lt_zero, ↓reduceIte]
          exact hrest
        · rw [if_neg fun hand => hgood hand.2]
          exact hbuilt
    · rw [if_neg hbit, if_neg fun hand => hbit hand.1]
      exact ih ret hb hfresh.mono

end

/-- The chain is NULL exactly when no row was added. -/
theorem headOf_eq_zero_iff (bitmap : UInt32) (node : Nat → Address) (k : Nat)
    (rows : List (UInt32 × SyscallNr × Handler)) :
    headOf bitmap node k rows = 0 ↔ builtRows bitmap node k rows = [] := by
  induction rows generalizing k with
  | nil => simp [headOf, builtRows]
  | cons row rows ih =>
    obtain ⟨bit, e⟩ := row
    rw [headOf, builtRows]
    by_cases hadd : bitmap &&& bit ≠ 0 ∧ Good (node k)
    · rw [if_pos hadd, if_pos hadd]
      exact iff_of_false hadd.2.1 (List.cons_ne_nil _ _)
    · rw [if_neg hadd, if_neg hadd]
      exact ih (k + 1)

/-- The rows whose bit is set in a bitmap. -/
def selectedRows (bitmap : UInt32) (rows : List (UInt32 × SyscallNr × Handler)) :
    List (SyscallNr × Handler) :=
  (rows.filter fun row => bitmap &&& row.1 ≠ 0).map Prod.snd

/-- When every allocation succeeds, the rows added are those whose bit is set. -/
theorem builtRows_of_good {bitmap : UInt32} {node : Nat → Address} {k : Nat}
    {rows : List (UInt32 × SyscallNr × Handler)}
    (hgood : ∀ j, k ≤ j → j < k + rows.length → Good (node j)) :
    builtRows bitmap node k rows = selectedRows bitmap rows := by
  induction rows generalizing k with
  | nil => rfl
  | cons row rows ih =>
    obtain ⟨bit, e⟩ := row
    rw [List.length_cons] at hgood
    have hk := hgood k (le_refl k) (by omega)
    have hrest := ih (k := k + 1) fun j hj hlt => hgood j (by omega) (by omega)
    by_cases hbit : bitmap &&& bit ≠ 0
    · rw [builtRows, if_pos ⟨hbit, hk⟩, hrest, selectedRows, selectedRows,
        List.filter_cons_of_pos (by simpa using hbit)]
      rfl
    · rw [builtRows, if_neg fun hand => hbit hand.1, hrest, selectedRows, selectedRows,
        List.filter_cons_of_neg (by simpa using hbit)]

/-- Whatever fails, only rows whose bit is set are added, each at most once. -/
theorem builtRows_sublist (bitmap : UInt32) (node : Nat → Address) (k : Nat)
    (rows : List (UInt32 × SyscallNr × Handler)) :
    (builtRows bitmap node k rows).Sublist (selectedRows bitmap rows) := by
  induction rows generalizing k with
  | nil => exact List.Sublist.refl _
  | cons row rows ih =>
    obtain ⟨bit, e⟩ := row
    rw [selectedRows]
    by_cases hbit : bitmap &&& bit ≠ 0
    · rw [List.filter_cons_of_pos (by simpa using hbit), List.map_cons, builtRows]
      split
      · exact (ih (k + 1)).cons_cons e
      · exact (ih (k + 1)).cons e
    · rw [builtRows, if_neg fun hand => hbit hand.1,
        List.filter_cons_of_neg (by simpa using hbit)]
      exact ih (k + 1)

end SyscallVector.Audit
