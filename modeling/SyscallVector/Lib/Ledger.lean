import Mathlib.Algebra.Order.BigOperators.Group.List
import SyscallVector.Lib.FirstMatch

/-!
# Ledgers of exact counts

A program counts the uses of its entries in machine integers and adds them up in one
counter for each group of entries. A ledger pairs every entry with its exact,
unbounded count. Moving the count of the first match moves the total of its group by
the same amount, so the distance between a group's counter and its total is kept
when both are moved together.
-/
namespace SyscallVector.Lib

set_option autoImplicit false

universe u v
variable {α : Type u} {ι : Type v} [DecidableEq ι]

abbrev Ledger (α : Type u) := List (α × ℤ)

/-- The sum of the counts of the entries of a group. -/
def total (group : α → ι) (l : Ledger α) (i : ι) : ℤ :=
  (l.map fun e => if group e.1 = i then e.2 else 0).sum

/-- The first entry that a key of the entries accepts. -/
def entryOf (p : α → Bool) (l : Ledger α) : Option (α × ℤ) := l.find? fun e => p e.1

/-- Change the first match by `f` and its count by `d`. -/
def move (p : α → Bool) (f : α → α) (d : ℤ) (l : Ledger α) : Ledger α :=
  updateFirst (fun e => p e.1) (fun e => (f e.1, e.2 + d)) l

variable {group : α → ι} {p : α → Bool} {f : α → α} {d : ℤ} {l : Ledger α} {e : α × ℤ}

omit [DecidableEq ι] in
theorem map_fst_move (p : α → Bool) (f : α → α) (d : ℤ) (l : Ledger α) :
    (move p f d l).map Prod.fst = updateFirst p f (l.map Prod.fst) :=
  updateFirst_map Prod.fst (fun _ => rfl) (fun _ => rfl) l

omit [DecidableEq ι] in
/-- The ledger resolves a key to the entry that the list resolves it to. -/
theorem entryOf_of_find? {x : α} (h : (l.map Prod.fst).find? p = some x) :
    ∃ c, entryOf p l = some (x, c) := by
  rw [List.find?_map] at h
  obtain ⟨⟨y, c⟩, hy, rfl⟩ := Option.map_eq_some_iff.mp h
  exact ⟨c, hy⟩

omit [DecidableEq ι] in
theorem move_of_find?_none (h : (l.map Prod.fst).find? p = none) : move p f d l = l := by
  rw [List.find?_map] at h
  exact updateFirst_of_find?_none (Option.map_eq_none_iff.mp h)

omit [DecidableEq ι] in
theorem entryOf_mem (h : entryOf p l = some e) : e ∈ l := List.mem_of_find?_eq_some h

omit [DecidableEq ι] in
/-- The ledger around the first match, before and after a move. -/
theorem move_split (h : entryOf p l = some e) :
    ∃ as bs, l = as ++ e :: bs ∧ move p f d l = as ++ (f e.1, e.2 + d) :: bs := by
  obtain ⟨as, bs, hl, hu, -, -⟩ := updateFirst_split (f := fun e => (f e.1, e.2 + d)) h
  exact ⟨as, bs, hl, hu⟩

theorem total_move (hf : ∀ a, group (f a) = group a) (h : entryOf p l = some e) (i : ι) :
    total group (move p f d l) i = total group l i + if group e.1 = i then d else 0 := by
  have hsum := sum_updateFirst (f := fun e => (f e.1, e.2 + d))
    (fun e => if group e.1 = i then e.2 else 0) h
  rw [total, move, hsum, total]
  simp only [hf]
  split <;> abel

theorem total_cons (e : α × ℤ) (l : Ledger α) (i : ι) :
    total group (e :: l) i = (if group e.1 = i then e.2 else 0) + total group l i := rfl

theorem total_append (l l' : Ledger α) (i : ι) :
    total group (l ++ l') i = total group l i + total group l' i := by
  rw [total, List.map_append, List.sum_append]
  rfl

theorem total_eraseP (h : entryOf p l = some e) (i : ι) :
    total group (l.eraseP fun e => p e.1) i =
      total group l i - if group e.1 = i then e.2 else 0 :=
  sum_eraseP (fun e : α × ℤ => if group e.1 = i then e.2 else 0) h

omit [DecidableEq ι] in
theorem map_fst_eraseP (p : α → Bool) (l : Ledger α) :
    (l.eraseP fun e => p e.1).map Prod.fst = (l.map Prod.fst).eraseP p := by
  induction l with
  | nil => rfl
  | cons e l ih => cases h : p e.1 <;> simp [h, ih]

theorem total_nonneg (group : α → ι) (i : ι) (h : ∀ e ∈ l, group e.1 = i → 0 ≤ e.2) :
    0 ≤ total group l i := by
  refine List.sum_nonneg fun x hx => ?_
  obtain ⟨e, he, rfl⟩ := List.mem_map.mp hx
  split
  case isTrue hg => exact h e he hg
  case isFalse => exact le_refl 0

/-- A count is at most the total of its group when no other count of the group is negative. -/
theorem le_total (group : α → ι) (e : α × ℤ) {as bs : Ledger α}
    (h : ∀ e' ∈ as ++ bs, group e'.1 = group e.1 → 0 ≤ e'.2) :
    e.2 ≤ total group (as ++ e :: bs) (group e.1) := by
  have has := total_nonneg group (group e.1) fun e' he' => h e' (List.mem_append_left bs he')
  have hbs := total_nonneg group (group e.1) fun e' he' => h e' (List.mem_append_right as he')
  have hsplit : total group (as ++ e :: bs) (group e.1) =
      total group as (group e.1) + (e.2 + total group bs (group e.1)) := by
    rw [total, List.map_append, List.sum_append, List.map_cons, List.sum_cons, if_pos rfl]
    rfl
  rw [hsplit]
  omega

/-- Where no count is negative and a total is not positive, the counts of its group are zero. -/
theorem eq_zero_of_total_nonpos (h : ∀ e' ∈ l, 0 ≤ e'.2) (he : e ∈ l)
    (htotal : total group l (group e.1) ≤ 0) : e.2 = 0 := by
  obtain ⟨as, bs, rfl⟩ := List.append_of_mem he
  have hle := le_total group e fun e' he' _ =>
    h e' (((List.sublist_cons_self e bs).append_left as).mem he')
  have hnonneg := h e he
  omega

/-- A group of one entry. -/
theorem total_of_unique {as bs : Ledger α} (h : ∀ e' ∈ as ++ bs, group e'.1 ≠ group e.1) :
    total group (as ++ e :: bs) (group e.1) = e.2 := by
  have hzero (xs : Ledger α) (hxs : ∀ e' ∈ xs, group e'.1 ≠ group e.1) :
      total group xs (group e.1) = 0 := by
    refine List.sum_eq_zero fun x hx => ?_
    obtain ⟨e', he', rfl⟩ := List.mem_map.mp hx
    exact if_neg (hxs e' he')
  rw [total_append, total_cons, if_pos rfl,
    hzero as fun e' he' => h e' (List.mem_append_left _ he'),
    hzero bs fun e' he' => h e' (List.mem_append_right _ he')]
  omega

end SyscallVector.Lib
