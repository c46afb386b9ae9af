import SyscallVector.Model.IoctlModule

/-!
# The text of an entry

`show_all_vectors` and `show_my_vector` fill a zeroed buffer through a moving
pointer. Each field leaves the text written so far, then its own string and a
newline, then zeros; three fields make an entry.
-/
namespace SyscallVector.Audit

set_option autoImplicit false

open Lib Model

theorem field_zeroed (pre text : List UInt8) (n : Nat) :
    (Cursor.mk (pre ++ zeroed n) pre.length pre.length).field text =
      ⟨pre ++ (cstr text ++ [10]) ++ zeroed (n - (strlen text + 1)),
        pre.length + (strlen text + 1), pre.length + (strlen text + 1)⟩ := by
  have hlen : pre.length + strlen text = (pre ++ cstr text).length := by
    rw [List.length_append, strlen]
  simp only [Cursor.field, take_strlen, memcpyAt_append]
  rw [hlen, memcpyAt_append]
  simp [List.append_assoc, strlen, Nat.sub_sub, Nat.add_assoc]

/-- The bytes that one entry adds to a listing. -/
def entryText (v : StructVector) : List UInt8 :=
  cstr v.vectorName ++ [10] ++ (cstr (sprintfLu v.vectorId) ++ [10]) ++
    (cstr (sprintfD v.overfuncsBitmap) ++ [10])

theorem entry_zeroed (pre : List UInt8) (v : StructVector) (n : Nat) :
    (Cursor.mk (pre ++ zeroed n) pre.length pre.length).entry v =
      ⟨pre ++ entryText v ++ zeroed (n - (entryText v).length),
        (pre ++ entryText v).length, (pre ++ entryText v).length⟩ := by
  have hstep (p text : List UInt8) (k : Nat) :
      (Cursor.mk (p ++ zeroed k) p.length p.length).field text =
        ⟨(p ++ (cstr text ++ [10])) ++ zeroed (k - (cstr text ++ [10]).length),
          (p ++ (cstr text ++ [10])).length, (p ++ (cstr text ++ [10])).length⟩ := by
    rw [field_zeroed]
    simp [strlen]
  rw [Cursor.entry, hstep, hstep, hstep]
  simp [entryText, List.append_assoc, Nat.sub_sub, Nat.add_assoc, Nat.add_comm,
    Nat.add_left_comm]

theorem showMyVector_line {r : Registry} {a : Address} (ha : a ≠ 0) :
    cstr (showMyVector r (zeroed bufLen) a).1 = [] ∨
      (10 : UInt8) ∈ cstr (showMyVector r (zeroed bufLen) a).1 := by
  rw [showMyVector, if_neg ha]
  cases h : r.vecList.find? (addressIs a) with
  | none =>
    left
    exact cstr_append_zeroed (s := []) (by simp) bufLen
  | some v =>
    right
    have he := entry_zeroed [] v bufLen
    simp only [List.nil_append, List.length_nil] at he
    dsimp only
    rw [he]
    -- the name has no NUL, so the string reaches at least to the newline behind it
    have hsplit : entryText v ++ zeroed (bufLen - (entryText v).length) =
        cstr v.vectorName ++ 10 :: (cstr (sprintfLu v.vectorId) ++ [10] ++
          (cstr (sprintfD v.overfuncsBitmap) ++ [10]) ++
          zeroed (bufLen - (entryText v).length)) := by
      simp [entryText]
    rw [hsplit]
    have hpos : ∀ x ∈ cstr v.vectorName, (x != 0) = true := by
      intro x hx
      have : x ≠ 0 := fun h0 => not_mem_cstr v.vectorName (h0 ▸ hx)
      simpa using this
    rw [cstr, List.takeWhile_append_of_pos hpos, List.takeWhile_cons_of_pos (by decide)]
    simp

end SyscallVector.Audit
