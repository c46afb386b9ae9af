import SyscallVector.Audit.IoctlRuns
import SyscallVector.Model.UserIoctl

/-!
# The listing decodes to the registry

`show_all_vectors` writes three lines for each entry and `display_vectors` reads
tokens in groups of three. No field is empty and none contains a newline, so the
groups never shift.
-/
namespace SyscallVector.Audit

set_option autoImplicit false

open Lib Model

/-! ## The encoder -/

/-- The bytes of a whole listing. -/
def listing (vs : List StructVector) : List UInt8 := vs.flatMap entryText

/-- A listing that fits is written entry by entry behind what is already there. -/
theorem showEntries_zeroed (vs : List StructVector) (pre : List UInt8) (n : Nat)
    (h : (showEntries vs ⟨pre ++ zeroed n, pre.length, pre.length⟩).ret ≤ maxBufferSize) :
    showEntries vs ⟨pre ++ zeroed n, pre.length, pre.length⟩ =
      ⟨pre ++ listing vs ++ zeroed (n - (listing vs).length), (pre ++ listing vs).length,
        (pre ++ listing vs).length⟩ := by
  induction vs generalizing pre n with
  | nil => simp [showEntries, listing]
  | cons v vs ih =>
    rw [showEntries] at h ⊢
    by_cases hfull : pre.length > maxBufferSize
    · rw [if_pos hfull] at h
      exact absurd h (Nat.not_le.mpr hfull)
    · rw [if_neg hfull, entry_zeroed] at h ⊢
      rw [ih _ _ h]
      simp [listing, List.append_assoc, Nat.sub_sub]

theorem showAllVectors_listing {r : Registry}
    (h : (showAllVectors r (zeroed bufLen)).2 ≤ 255) :
    showAllVectors r (zeroed bufLen) =
      (listing r.vecList ++ zeroed (bufLen - (listing r.vecList).length),
        (listing r.vecList).length) ∧ (listing r.vecList).length ≤ 255 := by
  have hret : (showEntries r.vecList ⟨zeroed maxBufferSize, 0, 0⟩).ret ≤ 255 := h
  have hshow := showEntries_zeroed r.vecList [] maxBufferSize (le_trans hret (by decide))
  simp only [List.nil_append, List.length_nil] at hshow
  rw [hshow] at hret
  refine ⟨?_, hret⟩
  rw [showAllVectors, hshow]
  simp only [List.take_left, memcpyAt_zeroed]

/-! ## The decoder -/

/-- What is shown for one entry. -/
def shownEntry (v : StructVector) : List Shown :=
  [.vectorName (cstr v.vectorName), .vectorId (decimal v.vectorId.toNat),
    showBitmap v.overfuncsBitmap.toInt32]

/-- The three lines of an entry with a proper name. -/
theorem entryText_lines {v : StructVector} (hv : WellNamed v) :
    entryText v = cstr v.vectorName ++ 10 :: (decimal v.vectorId.toNat ++
      10 :: (decimal v.overfuncsBitmap.toNat ++ [10])) := by
  have hid : cstr (sprintfLu v.vectorId) = decimal v.vectorId.toNat :=
    cstr_eq_self (not_mem_decimal (by decide) _)
  have hbitmap : cstr (sprintfD v.overfuncsBitmap) = decimal v.overfuncsBitmap.toNat := by
    rw [sprintfD_eq_decimal hv.valid]
    exact cstr_eq_self (not_mem_decimal (by decide) _)
  rw [entryText, hid, hbitmap]
  simp

/-- `strtol` gives the bitmap back. -/
theorem ofInt_strtol_decimal {b : UInt32} (hb : b.toNat ≤ 1023) :
    Int32.ofInt (strtol (decimal b.toNat)) = b.toInt32 := by
  rw [strtol_decimal (by omega), ← Int32.toInt_inj, toInt_toInt32, Int32.toInt_ofInt]
  rfl

theorem displayTokens_entry {v : StructVector} (hv : WellNamed v) (k : Nat) (rest : List UInt8) :
    displayTokens (3 * k + 1) (entryText v ++ rest) =
      shownEntry v ++ displayTokens (3 * (k + 1) + 1) rest := by
  have hname : cstr v.vectorName ≠ [] := by
    rw [hv.name]
    simp [vectorPrefix, ascii]
  have hnameLine : (10 : UInt8) ∉ cstr v.vectorName := by
    rw [hv.name]
    exact not_mem_name (by decide) (by decide) _
  have hline (n : Nat) : (10 : UInt8) ∉ decimal n := not_mem_decimal (by decide) n
  have hone : (3 * k + 1) % 3 = 1 := by omega
  have htwo : (3 * k + 1 + 1) % 3 = 2 := by omega
  have hzero : (3 * k + 1 + 1 + 1) % 3 = 0 := by omega
  rw [entryText_lines hv]
  simp only [List.append_assoc, List.cons_append, List.nil_append]
  rw [displayTokens_line hname hnameLine, displayTokens_line (decimal_ne_nil _) (hline _),
    displayTokens_line (decimal_ne_nil _) (hline _)]
  simp only [showToken, hone, htwo, hzero, ofInt_strtol_decimal hv.valid]
  rfl

theorem displayTokens_listing {vs : List StructVector} (hvs : ∀ v ∈ vs, WellNamed v) (k : Nat) :
    displayTokens (3 * k + 1) (listing vs) = vs.flatMap shownEntry := by
  induction vs generalizing k with
  | nil => exact displayTokens_none (strtok_nil 10) _
  | cons v vs ih =>
    have hrest := ih (fun w hw => hvs w (List.mem_cons_of_mem v hw)) (k + 1)
    rw [listing, List.flatMap_cons, displayTokens_entry (hvs v List.mem_cons_self),
      List.flatMap_cons, ← hrest]
    rfl

theorem nul_not_mem_listing {vs : List StructVector} (hvs : ∀ v ∈ vs, WellNamed v) :
    (0 : UInt8) ∉ listing vs := by
  rw [listing, List.mem_flatMap]
  rintro ⟨v, hv, hmem⟩
  rw [entryText_lines (hvs v hv), (hvs v hv).name] at hmem
  simp only [List.mem_append, List.mem_cons, List.not_mem_nil, or_false] at hmem
  rcases hmem with hname | hnl | hid | hnl | hbitmap | hnl
  · exact nul_not_mem_name _ (List.mem_append.mpr hname)
  · exact absurd hnl (by decide)
  · exact not_mem_decimal (by decide) _ hid
  · exact absurd hnl (by decide)
  · exact not_mem_decimal (by decide) _ hbitmap
  · exact absurd hnl (by decide)

theorem displayVectors_listing {vs : List StructVector} (hvs : ∀ v ∈ vs, WellNamed v) (n : Nat) :
    displayVectors (listing vs ++ zeroed n) = vs.flatMap shownEntry := by
  rw [displayVectors, cstr_append_zeroed (nul_not_mem_listing hvs)]
  exact displayTokens_listing hvs 0

/-- The tokens taken in groups of three: name, id and bitmap. -/
def shownTriples : List Shown → List (List UInt8 × Nat × UInt32)
  | .vectorName name :: .vectorId id :: .bitNo bitmap _ :: rest =>
    (name, digitsValue id, bitmap.toUInt32) :: shownTriples rest
  | _ => []

theorem shownTriples_entries (vs : List StructVector) :
    shownTriples (vs.flatMap shownEntry) = vs.map fun v =>
      (cstr v.vectorName, v.vectorId.toNat, v.overfuncsBitmap) := by
  induction vs with
  | nil => rfl
  | cons v vs ih =>
    rw [List.flatMap_cons, List.map_cons, ← ih]
    simp [shownEntry, showBitmap, shownTriples]

/-! ## The request -/

theorem customIoctl_showAll (s : State) (current : Pid) (param : IoctlParam) {env : Env}
    (hbuf : env.buf ≠ 0) (hcopy : env.copyToUser = true)
    (hne : (showAllVectors s.registry (zeroed bufLen)).2 ≠ 0) :
    customIoctl s current IOCTL_SHOW_ALL param env =
      .ok ⟨s, 0, some ((showAllVectors s.registry (zeroed bufLen)).1.take bufLen)⟩ := by
  rw [customIoctl_showAllRequest hbuf]
  change copyOut (getModule s .ioctlModule)
    (if (showAllVectors s.registry (zeroed bufLen)).2 = 0
      then memcpyAt (showAllVectors s.registry (zeroed bufLen)).1 0 noVectorsPresent
      else (showAllVectors s.registry (zeroed bufLen)).1) env = _
  rw [if_neg hne, copyOut_eq, hcopy]
  rfl

/-- For a registry that is not empty and whose listing has at most 255 bytes,
`display_vectors` shows the entries of the registry, three tokens each, in its order. -/
theorem listing_decodes {boot s : State} (hboot : Booted boot)
    (hrun : Run step (fun _ op => op.IsIoctl) boot s) (hne : s.registry.vecList ≠ [])
    (hfits : (showAllVectors s.registry (zeroed bufLen)).2 ≤ 255) (current : Pid)
    (param : IoctlParam) (env : Env) (hbuf : env.buf ≠ 0) (hcopy : env.copyToUser = true) :
    ∃ bytes, customIoctl s current IOCTL_SHOW_ALL param env = .ok ⟨s, 0, some bytes⟩ ∧
      bytes.length = bufLen ∧
      displayVectors bytes = s.registry.vecList.flatMap shownEntry ∧
      shownTriples (displayVectors bytes) = s.registry.vecList.map fun v =>
        (cstr v.vectorName, v.vectorId.toNat, v.overfuncsBitmap) := by
  have hidle : Idle s := run_idle hboot hrun
  obtain ⟨hshow, hlen⟩ := showAllVectors_listing hfits
  have hpos : (showAllVectors s.registry (zeroed bufLen)).2 ≠ 0 := by
    obtain ⟨v, vs, hvs⟩ := List.exists_cons_of_ne_nil hne
    rw [hshow, hvs]
    simp [listing, entryText]
  have htake : (showAllVectors s.registry (zeroed bufLen)).1.take bufLen =
      listing s.registry.vecList ++ zeroed (bufLen - (listing s.registry.vecList).length) := by
    rw [hshow]
    apply List.take_of_length_le
    rw [List.length_append, length_zeroed, bufLen]
    omega
  have hdisplay := displayVectors_listing hidle.named (bufLen - (listing s.registry.vecList).length)
  refine ⟨_, customIoctl_showAll s current param hbuf hcopy hpos, ?_, ?_, ?_⟩
  · rw [htake, List.length_append, length_zeroed, bufLen]
    omega
  · rw [htake, hdisplay]
  · rw [htake, hdisplay, shownTriples_entries]

/-- The listing right after boot. -/
theorem listing_decodes_boot :
    ∃ bytes, customIoctl sampleBoot task1 IOCTL_SHOW_ALL (nameParam []) (sampleEnv 12288) =
        .ok ⟨sampleBoot, 0, some bytes⟩ ∧
      shownTriples (displayVectors bytes) = [(vector2Name, 968, 968), (vector1Name, 55, 55)] := by
  have hne : sampleBoot.registry.vecList ≠ [] := by decide
  have hfits : (showAllVectors sampleBoot.registry (zeroed bufLen)).2 ≤ 255 := by decide
  obtain ⟨bytes, hcall, -, -, htriples⟩ := listing_decodes booted_sampleBoot .refl hne hfits task1
    (nameParam []) (sampleEnv 12288) (by decide) rfl
  refine ⟨bytes, hcall, ?_⟩
  rw [htriples]
  decide

end SyscallVector.Audit
