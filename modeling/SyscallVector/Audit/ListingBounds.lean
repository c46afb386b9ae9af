import SyscallVector.Audit.Listing
import SyscallVector.Model.ListingWrites

/-!
# Where the listing is written

An entry of the listing takes twelve bytes for a bitmap of one digit and three more
for each further digit. `show_all_vectors` compares its length with the size of its own
buffer, and before an entry only; the buffer of `custom_ioctl` is a quarter of that, so
the listing stays in bounds exactly when its entries fit the smaller one.
-/
namespace SyscallVector.Audit

set_option autoImplicit false

open Lib Model

/-- The bytes that an entry takes: its bitmap three times, `Vector` and three newlines. -/
def entrySize (bitmap : UInt32) : Nat :=
  if bitmap < 10 then 12 else if bitmap < 100 then 15 else if bitmap < 1000 then 18 else 21

/-- The entries of the registry fit the buffer of `custom_ioctl`. -/
def ListingFits (r : Registry) : Prop :=
  (r.vecList.map fun v => entrySize v.overfuncsBitmap).sum ≤ bufLen

instance (r : Registry) : Decidable (ListingFits r) := Nat.decLe ..

/-! ## Sizes -/

theorem length_decimal_bitmap {b : UInt32} (hb : b.toNat ≤ 1023) :
    9 + 3 * (decimal b.toNat).length = entrySize b := by
  have hone : (decimal b.toNat).length ≤ 1 ↔ b.toNat < 10 := length_decimal_le_iff (by decide)
  have htwo : (decimal b.toNat).length ≤ 2 ↔ b.toNat < 100 := length_decimal_le_iff (by decide)
  have hthree : (decimal b.toNat).length ≤ 3 ↔ b.toNat < 1000 := length_decimal_le_iff (by decide)
  have hfour : (decimal b.toNat).length ≤ 4 ↔ b.toNat < 10000 := length_decimal_le_iff (by decide)
  have hpos := List.length_pos_of_ne_nil (decimal_ne_nil b.toNat)
  have h10 : (b < 10) = (b.toNat < 10) := rfl
  have h100 : (b < 100) = (b.toNat < 100) := rfl
  have h1000 : (b < 1000) = (b.toNat < 1000) := rfl
  rw [entrySize]
  simp only [h10, h100, h1000]
  split
  · omega
  · split
    · omega
    · split <;> omega

theorem length_entryText {v : StructVector} (hv : WellNamed v) :
    (entryText v).length = entrySize v.overfuncsBitmap := by
  have hpre : vectorPrefix.length = 6 := rfl
  have hid : v.vectorId.toNat = v.overfuncsBitmap.toNat := by rw [hv.id, UInt32.toNat_toUInt64]
  rw [entryText_lines hv, hv.name, hid, ← length_decimal_bitmap hv.valid]
  simp only [List.length_append, List.length_cons, List.length_nil, hpre]
  omega

theorem length_listing {vs : List StructVector} (hvs : ∀ v ∈ vs, WellNamed v) :
    (listing vs).length = (vs.map fun v => entrySize v.overfuncsBitmap).sum := by
  rw [listing, List.length_flatMap]
  exact congrArg List.sum (List.map_congr_left fun v hv => length_entryText (hvs v hv))

/-! ## The cursor -/

theorem entry_ret (c : Cursor) (v : StructVector) :
    (c.entry v).ret = c.ret + (entryText v).length := by
  simp only [Cursor.entry, field_ret, entryText, List.length_append, List.length_cons,
    List.length_nil, strlen]
  omega

/-- `ret` and `current_ptr` advance together, and the buffer is filled up to there. -/
structure Filled (c : Cursor) : Prop where
  offset : c.currentPtr = c.ret
  covered : c.ret ≤ c.buffer.length

theorem Filled.field {c : Cursor} (h : Filled c) (text : List UInt8) : Filled (c.field text) := by
  have hcover {dst : List UInt8} {off : Nat} (src : List UInt8) (hoff : off ≤ dst.length) :
      off + src.length ≤ (memcpyAt dst off src).length := by
    rw [memcpyAt, List.length_append, List.length_append, List.length_take_of_le hoff]
    omega
  have hoffset := h.offset
  have hcovered := h.covered
  have htake : (text.take (strlen text)).length = strlen text :=
    List.length_take_of_le (strlen_le_length text)
  have hcopy := hcover (text.take (strlen text)) (hoffset ▸ hcovered)
  rw [htake] at hcopy
  refine ⟨by rw [field_currentPtr, field_ret, hoffset], ?_⟩
  have hnewline := hcover [10] hcopy
  rw [field_ret, ← hoffset]
  exact hnewline

theorem Filled.entry {c : Cursor} (h : Filled c) (v : StructVector) : Filled (c.entry v) :=
  ((h.field _).field _).field _

theorem Filled.entries {vs : List StructVector} {c : Cursor} (h : Filled c) :
    Filled (showEntries vs c) := by
  induction vs generalizing c with
  | nil => exact h
  | cons v vs ih =>
    rw [showEntries]
    split
    · exact h
    · exact ih (h.entry v)

theorem filled_start : Filled .start := ⟨rfl, Nat.zero_le _⟩

/-- The result is at most the length of the whole listing. -/
theorem showEntries_ret_le (vs : List StructVector) (c : Cursor) :
    (showEntries vs c).ret ≤ c.ret + (listing vs).length := by
  induction vs generalizing c with
  | nil => exact Nat.le_add_right ..
  | cons v vs ih =>
    have hrest := ih (c.entry v)
    rw [entry_ret] at hrest
    rw [showEntries, listing, List.flatMap_cons, List.length_append]
    split
    · omega
    · rw [listing] at hrest
      omega

/-- It is less only after the loop has found the buffer full. -/
theorem le_showEntries_ret {vs : List StructVector} {c : Cursor}
    (h : (showEntries vs c).ret ≤ maxBufferSize) :
    c.ret + (listing vs).length ≤ (showEntries vs c).ret := by
  induction vs generalizing c with
  | nil => exact le_refl _
  | cons v vs ih =>
    rw [showEntries] at h ⊢
    by_cases hfull : c.ret > maxBufferSize
    · rw [if_pos hfull] at h
      omega
    · rw [if_neg hfull] at h ⊢
      have hrest := ih h
      rw [entry_ret] at hrest
      rw [listing, List.flatMap_cons, List.length_append, ← listing]
      omega

theorem showAll_ret_iff (r : Registry) :
    (showEntries r.vecList .start).ret ≤ bufLen ↔ (listing r.vecList).length ≤ bufLen := by
  have hle := showEntries_ret_le r.vecList .start
  have hstart : Cursor.start.ret = 0 := rfl
  constructor
  · intro h
    have hge := le_showEntries_ret (h.trans (by decide : bufLen ≤ maxBufferSize))
    omega
  · intro h
    omega

/-! ## The bounds -/

/-- `sprintf` of an id or a bitmap needs five bytes at most. -/
theorem sprintfWrite_inBounds {v : StructVector} (hv : WellNamed v) :
    (sprintfWrite (sprintfLu v.vectorId)).InBounds Target.size ∧
      (sprintfWrite (sprintfD v.overfuncsBitmap)).InBounds Target.size := by
  have hdigits : (decimal v.overfuncsBitmap.toNat).length ≤ 4 :=
    (length_decimal_le_iff (by decide)).mpr (by have := hv.valid; omega)
  have hfit {text : List UInt8} (h : text.length ≤ 4) :
      (sprintfWrite text).InBounds Target.size := by
    change 0 + (text ++ [0]).length ≤ 8
    rw [List.length_append, List.length_singleton]
    omega
  constructor
  · apply hfit
    rw [sprintfLu, hv.id, UInt32.toNat_toUInt64]
    exact hdigits
  · apply hfit
    rw [sprintfD_eq_decimal hv.valid]
    exact hdigits

theorem showAllWrites_inBounds_iff {r : Registry} (hr : Named r) :
    (∀ w ∈ showAllWrites r, w.InBounds Target.size) ↔
      (showEntries r.vecList .start).ret ≤ bufLen := by
  have hfilled : Filled (showEntries r.vecList .start) := filled_start.entries
  have hlast : ((showEntries r.vecList .start).buffer.take
      (showEntries r.vecList .start).ret).length = (showEntries r.vecList .start).ret :=
    List.length_take_of_le hfilled.covered
  constructor
  · intro hall
    have hcopy := hall ⟨.userBuffer, 0, _⟩ (List.mem_append_right _ List.mem_cons_self)
    change 0 + List.length (List.take _ _) ≤ bufLen at hcopy
    rwa [hlast, Nat.zero_add] at hcopy
  · intro hret w hw
    rcases List.mem_append.mp hw with hw | hw
    · rcases List.mem_cons.mp hw with rfl | hw
      · exact Nat.le_of_eq (by rw [length_zeroed]; rfl)
      · rcases entriesWrites_end r.vecList .start w hw with ⟨ht, hle⟩ | rfl | ⟨v, hv, rfl | rfl⟩
        · rw [hfilled.offset] at hle
          rw [Write.InBounds, ht]
          exact hle.trans (hret.trans (by decide))
        · decide
        · exact (sprintfWrite_inBounds (hr v hv)).1
        · exact (sprintfWrite_inBounds (hr v hv)).2
    · obtain rfl := List.mem_singleton.mp hw
      change 0 + List.length (List.take _ _) ≤ bufLen
      rw [hlast, Nat.zero_add]
      exact hret

/-- In every reachable registry the writes of `show_all_vectors` all stay in their buffers
exactly when the entries fit the buffer of `custom_ioctl`. -/
theorem listing_in_bounds_iff {boot s : State} {guard : State → Op → Prop} (hboot : Booted boot)
    (hrun : Run step guard boot s) :
    (∀ w ∈ showAllWrites s.registry, w.InBounds Target.size) ↔ ListingFits s.registry := by
  have hnamed := run_named hboot hrun
  rw [showAllWrites_inBounds_iff hnamed, showAll_ret_iff, length_listing hnamed, ListingFits]

/-- The two entries after boot take 33 bytes. -/
theorem listing_in_bounds_boot :
    ListingFits sampleBoot.registry ∧
      ∀ w ∈ showAllWrites sampleBoot.registry, w.InBounds Target.size := by
  have hfits : ListingFits sampleBoot.registry := by decide
  have hrun : Run step (fun _ op => op.IsIoctl) sampleBoot sampleBoot := .refl
  exact ⟨hfits, (listing_in_bounds_iff booted_sampleBoot hrun).mpr hfits⟩

/-- Thirteen requests for the bitmap 192, which has no branch and is registered each time. -/
def crowdScript : List Op :=
  List.replicate 13 (.ioctl task1 IOCTL_CREATE_FROM_BITMAP (bitmapParam 192) nodelessEnv)

theorem listing_overflows :
    ¬∀ boot s, Booted boot → Run step (fun s op => op.IsCreate ∧ op.Fresh s) boot s →
      ∀ w ∈ showAllWrites s.registry, w.InBounds Target.size := by
  intro hall
  obtain ⟨t, ht, hfits⟩ : ∃ t, steps step sampleBoot crowdScript = some t ∧
      ¬ListingFits t.registry := ⟨_, rfl, by decide⟩
  have hguard : ∀ s, ∀ op ∈ crowdScript, op.IsCreate ∧ op.Fresh s := by
    intro s op hop
    obtain rfl := List.eq_of_mem_replicate hop
    exact ⟨rfl, freshNodes_nodelessEnv s.heap⟩
  have hrun : Run step (fun s op => op.IsCreate ∧ op.Fresh s) sampleBoot t :=
    Run.of_steps hguard ht
  have hbounds := hall sampleBoot t booted_sampleBoot hrun
  rw [showAllWrites_inBounds_iff (run_named booted_sampleBoot hrun), showAll_ret_iff,
    length_listing (run_named booted_sampleBoot hrun)] at hbounds
  exact hfits hbounds

end SyscallVector.Audit
