import SyscallVector.Audit.LoggedWrite
import SyscallVector.Model.LoggedWrites

/-!
# The buffers of a logged write

The log line is short and composed in a page of its own, which nobody checks for NULL. The
data is copied to a page of the same size, as many bytes as the caller asks to write.
-/
namespace SyscallVector.Audit

set_option autoImplicit false

open Lib Model

/-- The call gets as far as copying the data. -/
structure CopiesData (s : State) (current : Pid) (env : HandlerEnv) (ptr : Address)
    (fd : Int32) : Prop where
  table : usedTable s current ptr ≠ 0
  name : env.name ≠ 0
  cmdline : env.cmdline ≠ none
  kbuf : env.kbuf ≠ 0
  source : WritesSource env fd

section
variable {s : State} {current : Pid} {env : HandlerEnv} {ptr : Address} {fd : Int32}
  {count : UInt64} {uid : UInt32}

/-! ## The trace and the contents -/

theorem logLine_eq (uid : UInt32) :
    logLine uid = logHeader ++ sprintfD uid ++ cstr logTail := by
  have htail : cstr logTail = ascii ['*', '/'] ++ [10] := by decide
  rw [htail, logLine, logHeader, ← List.append_assoc]

theorem cstr_tempStr (uid : UInt32) : cstr (sprintfD uid ++ [0]) = sprintfD uid :=
  cstr_append_nul (not_mem_decimalInt (by decide) (by decide) _) []

theorem nul_not_mem_header_numeral (uid : UInt32) : (0 : UInt8) ∉ logHeader ++ sprintfD uid := by
  rw [List.mem_append, not_or]
  exact ⟨by decide, not_mem_decimalInt (by decide) (by decide) _⟩

/-- The page after `strcpy`. -/
theorem str_header :
    memcpyAt (zeroed pageSize) 0 (logHeader ++ [0]) =
      logHeader ++ zeroed (pageSize - logHeader.length) := by
  have hlt : logHeader.length < pageSize := by decide
  have hstart : memcpyAt ([] ++ zeroed pageSize) ([] : List UInt8).length (logHeader ++ [0]) =
      [] ++ logHeader ++ zeroed (pageSize - logHeader.length) := memcpyAt_string hlt
  exact hstart

/-- The page after `strcat`. -/
theorem str_numeral (uid : UInt32) :
    memcpyAt (logHeader ++ zeroed (pageSize - logHeader.length)) logHeader.length
        (sprintfD uid ++ [0]) =
      logHeader ++ sprintfD uid ++
        zeroed (pageSize - logHeader.length - (sprintfD uid).length) := by
  have hnumeral := length_sprintfD_le uid
  have hheader : logHeader.length = 37 := rfl
  refine memcpyAt_string ?_
  rw [hheader, pageSize]
  omega

/-- Each string goes behind the one before it. -/
theorem strWrites_eq (uid : UInt32) :
    strWrites uid =
      [⟨.str, 0, logHeader ++ [0]⟩, ⟨.tempStr, 0, sprintfD uid ++ [0]⟩,
        ⟨.str, logHeader.length, sprintfD uid ++ [0]⟩,
        ⟨.str, (logHeader ++ sprintfD uid).length, cstr logTail ++ [0]⟩] := by
  have hheader : cstr logHeader = logHeader := cstr_eq_self (by decide)
  have htail : (cstr logTail).take 44444 = cstr logTail :=
    List.take_of_length_le (by decide)
  have hfirst := strlen_append_zeroed (s := logHeader) (by decide) (pageSize - logHeader.length)
  have hsecond := strlen_append_zeroed (nul_not_mem_header_numeral uid)
    (pageSize - logHeader.length - (sprintfD uid).length)
  rw [strWrites]
  simp only [Write.strcpy, Write.strcat, Write.strncat, cstr_tempStr, str_header, str_numeral,
    hheader, htail, hfirst, hsecond]

/-- What the string functions leave in `str` is the log line. -/
theorem replay_str (uid : UInt32) :
    cstr (replay .str (strWrites uid) (zeroed pageSize)) = logLine uid := by
  have hnumeral := length_sprintfD_le uid
  have hheader : logHeader.length = 37 := rfl
  have htail : (cstr logTail).length = 3 := rfl
  have hfits : (cstr logTail).length <
      pageSize - logHeader.length - (sprintfD uid).length := by
    rw [htail, hheader, pageSize]
    omega
  rw [strWrites_eq]
  simp only [replay, List.foldl_cons, List.foldl_nil, reduceCtorEq, ↓reduceIte]
  rw [str_header, str_numeral, memcpyAt_string hfits, ← logLine_eq,
    cstr_append_zeroed (nul_not_mem_logLine uid)]

theorem length_copiedFromUser (env : HandlerEnv) (count : UInt64) :
    (copiedFromUser env count).length = count.toNat := by
  have hle : (env.userBuf.take count.toNat).length ≤ count.toNat := List.length_take_le ..
  rw [copiedFromUser, List.length_append, length_zeroed]
  omega

/-- As long as the data fits, `kbuf` holds what `loggedWrite` puts back afterwards. -/
theorem replay_kbuf (hcopy : env.copyFromUser = true) (hstr : env.str ≠ 0)
    (hread : count.toNat ≤ env.userBuf.length) {contents : List UInt8} :
    (replay .kbuf (logWrites env count) contents).take count.toNat =
      env.userBuf.take count.toNat := by
  have hother : ∀ w ∈ strWrites env.uid, w.target ≠ .kbuf := by
    rw [strWrites_eq]
    simp
  have hcopied : copiedFromUser env count = env.userBuf.take count.toNat := by
    have hlength : (env.userBuf.take count.toNat).length = count.toNat :=
      List.length_take_of_le hread
    rw [copiedFromUser, hlength, Nat.sub_self, zeroed, List.replicate_zero, List.append_nil]
  have hfirst : replay .kbuf (⟨.kbuf, 0, copiedFromUser env count⟩ :: strWrites env.uid) contents =
      replay .kbuf (strWrites env.uid) (memcpyAt contents 0 (copiedFromUser env count)) :=
    replay_cons_of_eq rfl
  rw [logWrites, if_neg (by simp [hcopy]), if_neg hstr, hfirst, replay_of_forall_ne hother,
    hcopied, memcpyAt, List.take_zero, List.nil_append]
  exact List.take_left' (List.length_take_of_le hread)

/-! ## Bounds -/

theorem strWrites_in_bounds (hstr : env.str ≠ 0) :
    ∀ w ∈ strWrites env.uid, w.InBounds (LogBuffer.size env) := by
  have hnumeral := length_sprintfD_le env.uid
  have hheader : logHeader.length = 37 := rfl
  have htail : (cstr logTail).length = 3 := rfl
  have hpage : LogBuffer.size env .str = 4096 := if_neg hstr
  have htemp : LogBuffer.size env .tempStr = 32 := rfl
  rw [strWrites_eq]
  simp only [List.mem_cons, List.not_mem_nil, or_false, forall_eq_or_imp, forall_eq,
    Write.InBounds, List.length_append, List.length_singleton, hpage, htemp, hheader, htail]
  omega

theorem logWrites_in_bounds_iff (hkbuf : env.kbuf ≠ 0) :
    (∀ w ∈ logWrites env count, w.InBounds (LogBuffer.size env)) ↔
      count.toNat ≤ pageSize ∧ (env.copyFromUser = true → env.str ≠ 0) := by
  have hdata : Write.InBounds (LogBuffer.size env) ⟨.kbuf, 0, copiedFromUser env count⟩ ↔
      count.toNat ≤ pageSize := by
    have hsize : LogBuffer.size env .kbuf = pageSize := if_neg hkbuf
    rw [Write.InBounds, length_copiedFromUser, hsize, Nat.zero_add]
  rw [logWrites, List.forall_mem_cons, hdata]
  refine and_congr_right fun _ => ?_
  by_cases hcopy : env.copyFromUser = true
  · rw [if_neg (by simp [hcopy]), imp_iff_right hcopy]
    by_cases hstr : env.str = 0
    · rw [if_pos hstr]
      refine iff_of_false (fun h => ?_) (not_not_intro hstr)
      have hsize : LogBuffer.size env .str = 0 := if_pos hstr
      have hfirst := h _ List.mem_cons_self
      change 0 + (cstr logHeader ++ [0]).length ≤ LogBuffer.size env .str at hfirst
      rw [hsize] at hfirst
      exact absurd hfirst (by decide)
    · rw [if_neg hstr]
      exact iff_of_true (strWrites_in_bounds hstr) hstr
  · rw [if_pos (by simpa using hcopy)]
    exact iff_of_true (by simp) fun h => absurd h hcopy

/-- The block is entered or nothing is written. -/
theorem loggedWriteWrites_cases (s : State) (current : Pid) (env : HandlerEnv) (ptr : Address)
    (fd : Int32) (count : UInt64) :
    CopiesData s current env ptr fd ∧
        loggedWriteWrites s current env ptr fd count = logWrites env count ∨
      ¬CopiesData s current env ptr fd ∧ loggedWriteWrites s current env ptr fd count = [] := by
  have hstart := tableAndName s current env ptr
  rw [loggedWriteWrites]
  generalize ensureTablePtr s current ptr 8787 = found at hstart ⊢
  generalize getProcessName current env = name at hstart ⊢
  cases hstart with
  | lost _ hnull | noTable hnull => exact .inr ⟨fun h => h.table hnull, rfl⟩
  | unnamed htable hname =>
    dsimp only
    rw [if_neg Bool.false_ne_true, if_neg htable]
    exact .inr ⟨fun h => h.name hname, rfl⟩
  | unopened htable _ hopen =>
    dsimp only
    rw [if_neg Bool.false_ne_true, if_neg htable]
    exact .inr ⟨fun h => h.cmdline hopen, rfl⟩
  | named htable hname hopen =>
    dsimp only
    rw [if_neg Bool.false_ne_true, if_neg htable]
    by_cases hfd : fd < 3
    · rw [if_pos hfd]
      exact .inr ⟨fun h => h.source.1 hfd, rfl⟩
    · rw [if_neg hfd]
      have hfile (h : CopiesData s current env ptr fd) :
          ∃ path, env.file = some (some path) ∧ (strstr path dotC).isSome = true := by
        obtain ⟨path, hpath, hin⟩ := h.source.2
        exact ⟨path, hpath, (strstr_isSome_iff rfl).mpr hin⟩
      cases hfound : env.file with
      | none =>
        refine .inr ⟨fun h => ?_, rfl⟩
        obtain ⟨path, hpath, -⟩ := hfile h
        exact nomatch hfound.symm.trans hpath
      | some found =>
        dsimp only
        by_cases hkbuf : env.kbuf = 0
        · rw [if_pos hkbuf]
          exact .inr ⟨fun h => h.kbuf hkbuf, rfl⟩
        · rw [if_neg hkbuf]
          cases found with
          | none =>
            refine .inr ⟨fun h => ?_, rfl⟩
            obtain ⟨path, hpath, -⟩ := hfile h
            exact nomatch hfound.symm.trans hpath
          | some path =>
            dsimp only
            by_cases hin : (strstr path dotC).isSome = true
            · rw [if_pos hin]
              have hsource : WritesSource env fd :=
                ⟨hfd, path, hfound, (strstr_isSome_iff rfl).mp hin⟩
              exact .inl ⟨⟨htable, hname, hopen, hkbuf, hsource⟩, rfl⟩
            · rw [if_neg hin]
              refine .inr ⟨fun h => ?_, rfl⟩
              obtain ⟨path', hpath, hin'⟩ := hfile h
              rw [hfound] at hpath
              cases hpath
              exact hin hin'

/-- Every call, whatever it is asked to write, stays inside its buffers if and only if it
does not copy the data, or the data fits the page and, if it is all there, `str` is not
NULL. -/
theorem log_buffers_in_bounds_iff (s : State) (current : Pid) (env : HandlerEnv) (ptr : Address)
    (fd : Int32) (count : UInt64) :
    (∀ w ∈ loggedWriteWrites s current env ptr fd count, w.InBounds (LogBuffer.size env)) ↔
      (CopiesData s current env ptr fd →
        count.toNat ≤ pageSize ∧ (env.copyFromUser = true → env.str ≠ 0)) := by
  rcases loggedWriteWrites_cases s current env ptr fd count with ⟨hcopies, hws⟩ | ⟨hnot, hws⟩
  · rw [hws, imp_iff_right hcopies]
    exact logWrites_in_bounds_iff hcopies.kbuf
  · rw [hws]
    exact iff_of_true (by simp) fun h => absurd h hnot

end

/-- A write of 4097 bytes to a source file overruns `kbuf`. -/
theorem log_buffers_overrun :
    ¬∀ s current env ptr fd count, ∀ w ∈ loggedWriteWrites s current env ptr fd count,
      w.InBounds (LogBuffer.size env) := by
  intro hall
  have hcopies : CopiesData sampleBoot task1 sourceEnv 65536 3 :=
    ⟨by decide, by decide, by decide, by decide, writesSource_sourceEnv⟩
  rcases loggedWriteWrites_cases sampleBoot task1 sourceEnv 65536 3 4097 with ⟨-, hws⟩ | ⟨hnot, -⟩
  · have hin := hall sampleBoot task1 sourceEnv 65536 3 4097
    rw [hws] at hin
    exact absurd ((logWrites_in_bounds_iff hcopies.kbuf).mp hin).1 (by decide)
  · exact hnot hcopies

end SyscallVector.Audit
