import Mathlib.Algebra.BigOperators.Group.List.Basic
import Mathlib.Data.List.Find
import Mathlib.Tactic.Abel

/-!
# Updating the first match of a list

A registry kept as a list is searched from its head and the first entry that
matches a key is changed in place. `updateFirst` is that change. An update that
keeps the key of every entry never changes what a search resolves to, so such
updates commute and can be accounted for entry by entry.
-/
namespace SyscallVector.Lib

set_option autoImplicit false

universe u v
variable {α : Type u} {β : Type v}

/-- A list around its first entry with a property. -/
theorem exists_first {P : α → Prop} {l : List α} (h : ∃ a ∈ l, P a) :
    ∃ as a bs, l = as ++ a :: bs ∧ (∀ b ∈ as, ¬P b) ∧ P a := by
  classical
  obtain ⟨a, ha, hp⟩ := h
  obtain ⟨b, as, bs, hbefore, hb, hl, -⟩ :=
    List.exists_of_eraseP (p := fun a => decide (P a)) ha (decide_eq_true hp)
  exact ⟨as, b, bs, hl, by simpa using hbefore, by simpa using hb⟩

/-- Apply `f` to the first entry that `p` accepts and leave the others alone. -/
def updateFirst (p : α → Bool) (f : α → α) : List α → List α
  | [] => []
  | x :: xs => if p x then f x :: xs else x :: updateFirst p f xs

variable {p q : α → Bool} {f g : α → α} {l : List α} {x : α}

theorem updateFirst_cons_pos {xs : List α} (h : p x = true) :
    updateFirst p f (x :: xs) = f x :: xs := by simp [updateFirst, h]

theorem updateFirst_cons_neg {xs : List α} (h : p x = false) :
    updateFirst p f (x :: xs) = x :: updateFirst p f xs := by simp [updateFirst, h]

@[simp] theorem length_updateFirst (p : α → Bool) (f : α → α) (l : List α) :
    (updateFirst p f l).length = l.length := by
  induction l with
  | nil => rfl
  | cons y ys ih => cases h : p y <;> simp [updateFirst, h, ih]

theorem updateFirst_of_find?_none (h : l.find? p = none) : updateFirst p f l = l := by
  induction l with
  | nil => rfl
  | cons y ys ih =>
    cases hy : p y with
    | true => simp [hy] at h
    | false =>
      rw [List.find?_cons_of_neg (by simp [hy])] at h
      rw [updateFirst_cons_neg hy, ih h]

/-- Keys that agree on the list update the same entry. -/
theorem updateFirst_congr (h : ∀ a ∈ l, p a = q a) : updateFirst p f l = updateFirst q f l := by
  induction l with
  | nil => rfl
  | cons y ys ih =>
    have hys := ih fun a ha => h a (List.mem_cons_of_mem y ha)
    rw [updateFirst, updateFirst, h y List.mem_cons_self, hys]

/-- The list around the first match, before and after the update. -/
theorem updateFirst_split (h : l.find? p = some x) :
    ∃ as bs, l = as ++ x :: bs ∧ updateFirst p f l = as ++ f x :: bs ∧
      (∀ a ∈ as, p a = false) ∧ p x = true := by
  induction l with
  | nil => simp at h
  | cons y ys ih =>
    cases hy : p y with
    | true =>
      rw [List.find?_cons_of_pos hy] at h
      obtain rfl := Option.some.inj h
      exact ⟨[], ys, rfl, updateFirst_cons_pos hy, by simp, hy⟩
    | false =>
      rw [List.find?_cons_of_neg (by simp [hy])] at h
      obtain ⟨as, bs, hl, hu, has, hx⟩ := ih h
      refine ⟨y :: as, bs, by rw [hl]; rfl, ?_, ?_, hx⟩
      · rw [updateFirst_cons_neg hy, hu]; rfl
      · intro a ha
        rcases List.mem_cons.mp ha with rfl | ha
        · exact hy
        · exact has a ha

/-- Where the first match is the only entry with its key, the update changes the entries
with that key. -/
theorem updateFirst_eq_map {κ : Type v} [DecidableEq κ] (key : α → κ) (h : l.find? p = some x)
    (hapart : ∀ as bs, l = as ++ x :: bs → ∀ y ∈ as ++ bs, key y ≠ key x) :
    updateFirst p f l = l.map fun y => if key y = key x then f y else y := by
  obtain ⟨as, bs, hl, hu, -, -⟩ := updateFirst_split (f := f) h
  have hother : ∀ y ∈ as ++ bs, (if key y = key x then f y else y) = y := fun y hy =>
    if_neg (hapart as bs hl y hy)
  have has : (as.map fun y => if key y = key x then f y else y) = as :=
    (List.map_congr_left fun y hy => hother y (List.mem_append_left _ hy)).trans (List.map_id' as)
  have hbs : (bs.map fun y => if key y = key x then f y else y) = bs :=
    (List.map_congr_left fun y hy => hother y (List.mem_append_right _ hy)).trans (List.map_id' bs)
  rw [hu, hl, List.map_append, List.map_cons, has, hbs, if_pos rfl]

/-- A projection that `f` keeps is kept along the whole list. -/
theorem map_updateFirst (k : α → β) (hk : ∀ a, k (f a) = k a) (l : List α) :
    (updateFirst p f l).map k = l.map k := by
  induction l with
  | nil => rfl
  | cons y ys ih => cases h : p y <;> simp [updateFirst, h, ih, hk]

/-- An update of the first match that a map brings about too changes it as the map does. -/
theorem apply_of_updateFirst_eq_map (h : l.find? p = some x) (he : updateFirst p f l = l.map g) :
    f x = g x := by
  obtain ⟨as, bs, hl, hu, -, -⟩ := updateFirst_split (f := f) h
  rw [hu, hl, List.map_append, List.map_cons] at he
  exact (List.cons.inj (List.append_inj_right he (List.length_map g).symm)).1

/-- Two lists that differ in one place differ in no other. -/
theorem eq_of_replaced {as bs as' bs' : List α} {y y' z z' : α}
    (h : as ++ y :: bs = as' ++ z :: bs') (h' : as ++ y' :: bs = as' ++ z' :: bs')
    (hy : y' ≠ y) (hz : z' ≠ z) : y = z := by
  induction as generalizing as' with
  | nil =>
    cases as' with
    | nil => exact (List.cons.inj h).1
    | cons c as' => exact absurd ((List.cons.inj h').1.trans (List.cons.inj h).1.symm) hy
  | cons c as ih =>
    cases as' with
    | nil => exact absurd ((List.cons.inj h').1.symm.trans (List.cons.inj h).1) hz
    | cons c' as' => exact ih (List.cons.inj h).2 (List.cons.inj h').2

/-- An update of the projected list, seen through the projection. -/
theorem updateFirst_map (k : α → β) {p' : β → Bool} {f' : β → β}
    (hp : ∀ a, p' (k a) = p a) (hf : ∀ a, k (f a) = f' (k a)) (l : List α) :
    (updateFirst p f l).map k = updateFirst p' f' (l.map k) := by
  induction l with
  | nil => rfl
  | cons y ys ih => cases h : p y <;> simp [updateFirst, h, hp, hf, ih]

theorem mem_updateFirst {y : α} (h : y ∈ updateFirst p f l) :
    y ∈ l ∨ ∃ x, l.find? p = some x ∧ y = f x := by
  cases hl : l.find? p with
  | none => rw [updateFirst_of_find?_none hl] at h; exact .inl h
  | some x =>
    obtain ⟨as, bs, he, hu, -, -⟩ := updateFirst_split (f := f) hl
    rw [hu] at h
    rcases List.mem_append.mp h with h | h
    · exact .inl (by simp [he, h])
    · rcases List.mem_cons.mp h with rfl | h
      · exact .inr ⟨x, rfl, rfl⟩
      · exact .inl (by simp [he, h])

/-- A search whose key the update keeps resolves to the same place. -/
theorem find?_updateFirst (hq : ∀ a, q (f a) = q a) (l : List α) :
    (updateFirst p f l).find? q = none ∧ l.find? q = none ∨
      ∃ x y, l.find? q = some x ∧ (updateFirst p f l).find? q = some y ∧ (y = x ∨ y = f x) := by
  induction l with
  | nil => exact .inl ⟨rfl, rfl⟩
  | cons z zs ih =>
    cases hp : p z with
    | true =>
      rw [updateFirst_cons_pos hp]
      cases hz : q z with
      | true =>
        exact .inr ⟨z, f z, List.find?_cons_of_pos hz,
          List.find?_cons_of_pos ((hq z).trans hz), .inr rfl⟩
      | false =>
        rw [List.find?_cons_of_neg (by simp [hq, hz]), List.find?_cons_of_neg (by simp [hz])]
        cases hs : zs.find? q with
        | none => exact .inl ⟨rfl, rfl⟩
        | some w => exact .inr ⟨w, w, rfl, rfl, .inl rfl⟩
    | false =>
      rw [updateFirst_cons_neg hp]
      cases hz : q z with
      | true =>
        exact .inr ⟨z, z, List.find?_cons_of_pos hz, List.find?_cons_of_pos hz, .inl rfl⟩
      | false =>
        rw [List.find?_cons_of_neg (by simp [hz]), List.find?_cons_of_neg (by simp [hz])]
        exact ih

/-- What a search reads through a projection that the update keeps is unchanged. -/
theorem find?_updateFirst_map (k : α → β) (hk : ∀ a, k (f a) = k a) (hq : ∀ a, q (f a) = q a)
    (l : List α) : ((updateFirst p f l).find? q).map k = (l.find? q).map k := by
  rcases find?_updateFirst (p := p) hq l with ⟨h, h'⟩ | ⟨x, y, h, h', hy⟩
  · rw [h, h']
  · rw [h, h']
    rcases hy with rfl | rfl
    · rfl
    · exact congrArg some (hk x)

/-- Updates that keep each other's key and commute on one entry commute. -/
theorem updateFirst_comm (hpg : ∀ a, p (g a) = p a) (hqf : ∀ a, q (f a) = q a)
    (hfg : ∀ a, f (g a) = g (f a)) (l : List α) :
    updateFirst p f (updateFirst q g l) = updateFirst q g (updateFirst p f l) := by
  induction l with
  | nil => rfl
  | cons y ys ih =>
    cases hp : p y <;> cases hq : q y <;> simp [updateFirst, hp, hq, hpg, hqf, hfg, ih]

/-- The update acts at the index that the search finds and nowhere else. -/
theorem getElem?_updateFirst (p : α → Bool) (f : α → α) (l : List α) (i : Nat) :
    (updateFirst p f l)[i]? = if l.findIdx? p = some i then l[i]?.map f else l[i]? := by
  induction l generalizing i with
  | nil => simp
  | cons y ys ih =>
    cases hy : p y with
    | true => cases i <;> simp [updateFirst, hy, List.findIdx?_cons]
    | false =>
      cases i with
      | zero => simp [updateFirst, hy, List.findIdx?_cons]
      | succ i => simp [updateFirst, hy, List.findIdx?_cons, ih]

/-- Changing the entry at the index that the search finds. -/
theorem updateFirst_eq_modify {i : Nat} (h : l.findIdx? p = some i) (hx : l[i]? = some x)
    (hfg : g x = f x) : updateFirst p f l = l.modify i g := by
  refine List.ext_getElem? fun j => ?_
  rw [getElem?_updateFirst, List.getElem?_modify, h]
  by_cases hj : i = j
  · subst hj
    simp [hx, hfg]
  · simp [hj]

theorem findIdx?_updateFirst (hq : ∀ a, q (f a) = q a) (l : List α) :
    (updateFirst p f l).findIdx? q = l.findIdx? q := by
  induction l with
  | nil => rfl
  | cons y ys ih => cases h : p y <;> simp [updateFirst, h, List.findIdx?_cons, hq, ih]

/-- A weight summed over the list changes by what it changes at the first match. -/
theorem sum_updateFirst {M : Type v} [AddCommGroup M] (w : α → M) (h : l.find? p = some x) :
    ((updateFirst p f l).map w).sum = (l.map w).sum + (w (f x) - w x) := by
  obtain ⟨as, bs, hl, hu, -, -⟩ := updateFirst_split (f := f) h
  rw [hu, hl]
  simp only [List.map_append, List.map_cons, List.sum_append, List.sum_cons]
  abel

/-- The list around the first match, before and after its removal. -/
theorem eraseP_split (h : l.find? p = some x) :
    ∃ as bs, l = as ++ x :: bs ∧ l.eraseP p = as ++ bs ∧
      (∀ a ∈ as, p a = false) ∧ p x = true := by
  induction l with
  | nil => simp at h
  | cons y ys ih =>
    cases hy : p y with
    | true =>
      rw [List.find?_cons_of_pos hy] at h
      obtain rfl := Option.some.inj h
      exact ⟨[], ys, rfl, List.eraseP_cons_of_pos hy, by simp, hy⟩
    | false =>
      rw [List.find?_cons_of_neg (by simp [hy])] at h
      obtain ⟨as, bs, hl, he, has, hx⟩ := ih h
      refine ⟨y :: as, bs, by rw [hl]; rfl, ?_, ?_, hx⟩
      · rw [List.eraseP_cons_of_neg (by simp [hy]), he]; rfl
      · intro a ha
        rcases List.mem_cons.mp ha with rfl | ha
        · exact hy
        · exact has a ha

/-- Removing the first match removes its weight. -/
theorem sum_eraseP {M : Type v} [AddCommGroup M] (w : α → M) (h : l.find? p = some x) :
    ((l.eraseP p).map w).sum = (l.map w).sum - w x := by
  obtain ⟨as, bs, hl, he, -, -⟩ := eraseP_split h
  rw [he, hl]
  simp only [List.map_append, List.map_cons, List.sum_append, List.sum_cons]
  abel

/-- A search resolves to an entry that is the only one to match. -/
theorem find?_eq_of_unique (hx : x ∈ l) (hp : p x = true)
    (hu : ∀ y ∈ l, p y = true → y = x) : l.find? p = some x := by
  cases h : l.find? p with
  | none => exact absurd hp (List.find?_eq_none.mp h x hx)
  | some y => rw [hu y (List.mem_of_find?_eq_some h) (List.find?_some h)]

end SyscallVector.Lib
