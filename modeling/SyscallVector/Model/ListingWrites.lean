import SyscallVector.Lib.WriteTrace
import SyscallVector.Model.VecLoadUnload

/-!
# The writes of `show_all_vectors`

The same loop as `showAllVectors`, with what each of its statements writes: to
the module's `buffer` through `current_ptr`, to `temp_str`, and at the end to the
buffer that `custom_ioctl` allocated.
-/
namespace SyscallVector.Model

set_option autoImplicit false

open Lib

inductive Target where
  | buffer | tempStr | userBuffer
  deriving DecidableEq, Repr

def Target.size : Target → Nat
  | .buffer => maxBufferSize
  | .tempStr => 8
  | .userBuffer => bufLen

/-- `sprintf` to `temp_str`, with the NUL it ends in. -/
def sprintfWrite (text : List UInt8) : Write Target := ⟨.tempStr, 0, text ++ [0]⟩

/-- The `memcpy` of a string to `current_ptr` and the newline behind it. -/
def Cursor.fieldWrites (c : Cursor) (text : List UInt8) : List (Write Target) :=
  [⟨.buffer, c.currentPtr, text.take (strlen text)⟩,
    ⟨.buffer, c.currentPtr + strlen text, [10]⟩]

def Cursor.entryWrites (c : Cursor) (v : StructVector) : List (Write Target) :=
  let name := c.field v.vectorName
  let id := name.field (sprintfLu v.vectorId)
  c.fieldWrites v.vectorName ++
    (sprintfWrite (sprintfLu v.vectorId) :: name.fieldWrites (sprintfLu v.vectorId)) ++
    (⟨.tempStr, 0, zeroed 8⟩ :: sprintfWrite (sprintfD v.overfuncsBitmap) ::
      id.fieldWrites (sprintfD v.overfuncsBitmap))

def entriesWrites : List StructVector → Cursor → List (Write Target)
  | [], _ => []
  | v :: vs, c =>
    if c.ret > maxBufferSize then [] else c.entryWrites v ++ entriesWrites vs (c.entry v)

/-- The start of `current_ptr`, after the `memset`. -/
def Cursor.start : Cursor := ⟨zeroed maxBufferSize, 0, 0⟩

def showAllWrites (r : Registry) : List (Write Target) :=
  let c := showEntries r.vecList .start
  ⟨.buffer, 0, zeroed maxBufferSize⟩ :: entriesWrites r.vecList .start ++
    [⟨.userBuffer, 0, c.buffer.take c.ret⟩]

/-! ## The trace and the contents -/

theorem replay_fieldWrites (c : Cursor) (text : List UInt8) :
    replay .buffer (c.fieldWrites text) c.buffer = (c.field text).buffer := rfl

theorem replay_entryWrites (c : Cursor) (v : StructVector) :
    replay .buffer (c.entryWrites v) c.buffer = (c.entry v).buffer := by
  rw [Cursor.entryWrites]
  simp only [replay_append, replay_fieldWrites]
  rfl

theorem replay_entriesWrites (vs : List StructVector) (c : Cursor) :
    replay .buffer (entriesWrites vs c) c.buffer = (showEntries vs c).buffer := by
  induction vs generalizing c with
  | nil => rfl
  | cons v vs ih =>
    rw [entriesWrites, showEntries]
    by_cases hfull : c.ret > maxBufferSize
    · rw [if_pos hfull, if_pos hfull]
      rfl
    · rw [if_neg hfull, if_neg hfull, replay_append, replay_entryWrites]
      exact ih (c.entry v)

/-! ## Where the writes of an entry end -/

section
variable (c : Cursor) (text : List UInt8) (v : StructVector)

@[simp] theorem field_currentPtr :
    (c.field text).currentPtr = c.currentPtr + (strlen text + 1) := rfl

@[simp] theorem field_ret : (c.field text).ret = c.ret + (strlen text + 1) := rfl

theorem fieldWrites_end :
    ∀ w ∈ c.fieldWrites text, w.target = .buffer ∧
      w.offset + w.bytes.length ≤ (c.field text).currentPtr := by
  intro w hw
  rw [field_currentPtr]
  simp only [Cursor.fieldWrites, List.mem_cons, List.not_mem_nil, or_false] at hw
  rcases hw with rfl | rfl
  · refine ⟨rfl, ?_⟩
    have hle := List.length_take_le (strlen text) text
    dsimp only
    omega
  · exact ⟨rfl, le_refl _⟩

/-- A write of one entry goes to the text up to the next entry, or to `temp_str`. -/
theorem entryWrites_end :
    ∀ w ∈ c.entryWrites v,
      w.target = .buffer ∧ w.offset + w.bytes.length ≤ (c.entry v).currentPtr ∨
        w = ⟨.tempStr, 0, zeroed 8⟩ ∨ w = sprintfWrite (sprintfLu v.vectorId) ∨
          w = sprintfWrite (sprintfD v.overfuncsBitmap) := by
  intro w hw
  have hfield {c' : Cursor} {text : List UInt8} (hw : w ∈ c'.fieldWrites text)
      (hle : (c'.field text).currentPtr ≤ (c.entry v).currentPtr) :
      w.target = .buffer ∧ w.offset + w.bytes.length ≤ (c.entry v).currentPtr :=
    ⟨(fieldWrites_end c' text w hw).1, (fieldWrites_end c' text w hw).2.trans hle⟩
  simp only [Cursor.entryWrites, List.mem_append, List.mem_cons] at hw
  rcases hw with (hw | rfl | hw) | rfl | rfl | hw
  · refine .inl (hfield hw ?_)
    simp only [Cursor.entry, field_currentPtr]
    omega
  · exact .inr (.inr (.inl rfl))
  · refine .inl (hfield hw ?_)
    simp only [Cursor.entry, field_currentPtr]
    omega
  · exact .inr (.inl rfl)
  · exact .inr (.inr (.inr rfl))
  · exact .inl (hfield hw (le_refl _))

theorem entry_currentPtr_le : c.currentPtr ≤ (c.entry v).currentPtr := by
  simp only [Cursor.entry, field_currentPtr]
  omega

end

theorem showEntries_currentPtr_le (vs : List StructVector) (c : Cursor) :
    c.currentPtr ≤ (showEntries vs c).currentPtr := by
  induction vs generalizing c with
  | nil => exact le_refl _
  | cons v vs ih =>
    rw [showEntries]
    split
    · exact le_refl _
    · exact (entry_currentPtr_le c v).trans (ih (c.entry v))

theorem entriesWrites_end (vs : List StructVector) (c : Cursor) :
    ∀ w ∈ entriesWrites vs c,
      w.target = .buffer ∧ w.offset + w.bytes.length ≤ (showEntries vs c).currentPtr ∨
        w = ⟨.tempStr, 0, zeroed 8⟩ ∨ ∃ v ∈ vs, w = sprintfWrite (sprintfLu v.vectorId) ∨
          w = sprintfWrite (sprintfD v.overfuncsBitmap) := by
  induction vs generalizing c with
  | nil => simp [entriesWrites]
  | cons v vs ih =>
    rw [entriesWrites, showEntries]
    by_cases hfull : c.ret > maxBufferSize
    · rw [if_pos hfull]
      simp
    · rw [if_neg hfull, if_neg hfull]
      intro w hw
      rcases List.mem_append.mp hw with hw | hw
      · rcases entryWrites_end c v w hw with ⟨ht, hle⟩ | hzero | hprint
        · exact .inl ⟨ht, hle.trans (showEntries_currentPtr_le vs _)⟩
        · exact .inr (.inl hzero)
        · exact .inr (.inr ⟨v, List.mem_cons_self, hprint⟩)
      · rcases ih (c.entry v) w hw with hin | hzero | ⟨v', hv', hprint⟩
        · exact .inl hin
        · exact .inr (.inl hzero)
        · exact .inr (.inr ⟨v', List.mem_cons_of_mem v hv', hprint⟩)

/-- Replaying the trace gives what `show_all_vectors` leaves in the caller's buffer. -/
theorem replay_showAllWrites (r : Registry) (userBuffer : List UInt8) :
    replay .userBuffer (showAllWrites r) userBuffer = (showAllVectors r userBuffer).1 := by
  have hentries : ∀ w ∈ entriesWrites r.vecList .start, w.target ≠ .userBuffer := by
    intro w hw
    rcases entriesWrites_end r.vecList .start w hw with ⟨ht, -⟩ | rfl | ⟨v, -, rfl | rfl⟩
    · rw [ht]
      decide
    all_goals exact (by decide : Target.tempStr ≠ .userBuffer)
  have hmemset : Target.buffer ≠ .userBuffer := by decide
  rw [showAllWrites, replay_append,
    replay_of_forall_ne (List.forall_mem_cons.mpr ⟨hmemset, hentries⟩)]
  rfl

end SyscallVector.Model
