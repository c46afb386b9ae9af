import SyscallVector.Audit.Transparency
import SyscallVector.Model.UserMemory

/-!
# A logged write and the memory of the caller

`loggedWrite` borrows the buffer of the caller for the log line and puts the saved bytes
back afterwards. It saves as many bytes as the caller writes, however long the line is.
-/
namespace SyscallVector.Audit

set_option autoImplicit false

open Lib Model

/-- Every allocation and every user copy of the call succeeds, and the data fits the page
that it is saved in. -/
structure Served (env : HandlerEnv) (count : UInt64) : Prop where
  name : env.name ≠ 0
  kbuf : env.kbuf ≠ 0
  str : env.str ≠ 0
  fits : count.toNat ≤ pageSize
  copyFromUser : env.copyFromUser = true
  copyToUser : env.copyToUser = true
  copyBack : env.copyBack = true

/-! ## The two writes -/

/-- What happens before the data is written. -/
def lineEvents (env : HandlerEnv) (m : Memory) (table : Address) (fd : Int32) (buf : Address)
    (count : UInt64) : List HandlerEvent :=
  [.copyToUser buf (logLine env.uid), .original (lineCall env table fd buf),
    .copyToUser buf (m.read buf count.toNat)]

/-- What the original returns for the data. -/
def dataResult (env : HandlerEnv) (m : Memory) (table : Address) (fd : Int32) (buf : Address)
    (count : UInt64) : Int64 :=
  env.original (lineEvents env m table fd buf count) (dataCall table fd buf count)

section
variable {s : State} {current : Pid} {env : HandlerEnv} {ptr table : Address} {fd : Int32}
  {buf : Address} {count : UInt64} {m : Memory}

theorem length_sprintfD_le (x : UInt32) : (sprintfD x).length ≤ 11 := by
  have hbound : x.toInt32.toInt.natAbs < 10 ^ 10 := by
    have hlow := x.toInt32.le_toInt
    have hhigh := x.toInt32.toInt_lt
    omega
  exact length_decimalInt_le (by decide) hbound

theorem length_logLine (uid : UInt32) : (logLine uid).length = 40 + (sprintfD uid).length := by
  simp only [logLine, ascii, List.map_cons, List.map_nil, List.cons_append, List.nil_append,
    List.length_cons, List.length_append, List.length_nil]
  omega

/-- The line is far shorter than memory, and than the page it is composed in. -/
theorem length_logLine_le (uid : UInt32) : (logLine uid).length ≤ 51 := by
  have hnumeral := length_sprintfD_le uid
  rw [length_logLine]
  omega

/-- When nothing fails, the line and the data both go out. -/
theorem logAndWrite_served (hserved : Served env count) :
    logAndWrite (env.withMemory m buf count) table fd buf count =
      ⟨table, lineEvents env m table fd buf count ++ [.original (dataCall table fd buf count)],
        .ok (dataResult env m table fd buf count).toInt32⟩ := by
  have houtcome := logAndWrite_outcome (env.withMemory m buf count) table fd buf count
  have hsaved : (env.withMemory m buf count).userBuf.take count.toNat =
      m.read buf count.toNat := List.take_of_length_le (Memory.length_read ..).le
  generalize logAndWrite (env.withMemory m buf count) table fd buf count = o at houtcome
  cases houtcome with
  | uncopied hcopy => exact absurd (hcopy.symm.trans hserved.copyFromUser) Bool.false_ne_true
  | noPage _ hstr => exact absurd hstr hserved.str
  | unwritten _ _ hcopy => exact absurd (hcopy.symm.trans hserved.copyToUser) Bool.false_ne_true
  | lineOnly _ hcopy => exact absurd (hcopy.symm.trans hserved.copyBack) Bool.false_ne_true
  | written =>
    rw [hsaved]
    rfl

/-! ## The memory afterwards -/

/-- The call gets to the block for source files. -/
def WritesSource (env : HandlerEnv) (fd : Int32) : Prop := ¬fd < 3 ∧ SourceFile env

theorem Unlogged.not_writesSource (h : Unlogged env fd) : ¬WritesSource env fd := by
  rintro ⟨hfd, path, hfile, hin⟩
  obtain ⟨-, path', hfile', hnone⟩ := h.resolve_left hfd
  rw [hfile] at hfile'
  cases hfile'
  exact (strstr_eq_none_iff path dotC).mp hnone hin

/-- A call without failures that returns leaves memory as it was if and only if it does not
log, or the line ends within the data, or what follows the data reads like the line. -/
theorem memory_restored_iff (hserved : Served env count) {ret : Int32}
    (hret : (loggedWrite s current (env.withMemory m buf count) ptr fd buf count).ret = .ok ret) :
    memoryAfter m
        (loggedWrite s current (env.withMemory m buf count) ptr fd buf count).events = m ↔
      (WritesSource env fd → ∀ i (h : i < (logLine env.uid).length), count.toNat ≤ i →
        m (buf + UInt64.ofNat i) = (logLine env.uid)[i]) := by
  have houtcome := loggedWrite_outcome s current (env.withMemory m buf count) ptr fd buf count
  generalize loggedWrite s current (env.withMemory m buf count) ptr fd buf count = o
    at houtcome hret
  cases houtcome with
  | noTable => cases hret
  | unnamed _ hname => exact absurd hname hserved.name
  | unopened => cases hret
  | noFile _ _ _ _ hfile =>
    refine iff_of_true rfl ?_
    rintro ⟨-, path, hpath, -⟩
    exact nomatch hfile.symm.trans hpath
  | noBuffer _ _ _ _ _ hkbuf => exact absurd hkbuf hserved.kbuf
  | noPath => cases hret
  | logged _ _ _ hfd _ hfile hin =>
    have hsource : WritesSource env fd := ⟨hfd, _, hfile, (strstr_isSome_iff rfl).mp hin⟩
    have hshort : (logLine env.uid).length ≤ 2 ^ 64 :=
      (length_logLine_le env.uid).trans (by decide)
    rw [logAndWrite_served hserved, imp_iff_right hsource]
    exact Memory.restore_eq_iff m buf count.toNat hshort
  | plain _ _ _ hunlogged =>
    have hnot : ¬WritesSource env fd := Unlogged.not_writesSource hunlogged
    exact iff_of_true rfl fun h => absurd h hnot

end

/-- Services that all succeed, for a file `a.c`. -/
def sourceEnv : HandlerEnv := { openEnv with file := some (some (97 :: dotC)) }

theorem served_sourceEnv {count : UInt64} (h : count.toNat ≤ pageSize) : Served sourceEnv count :=
  ⟨by decide, by decide, by decide, h, rfl, rfl, rfl⟩

theorem writesSource_sourceEnv : WritesSource sourceEnv 3 :=
  ⟨by decide, 97 :: dotC, rfl, [97], [], rfl⟩

/-- Data of 64 bytes is longer than the line. -/
theorem memory_restored_long :
    memoryAfter (fun _ => 0) (loggedWrite sampleBoot task1
      (sourceEnv.withMemory (fun _ => 0) 4096 64) 65536 3 4096 64).events = fun _ => 0 := by
  have hret : (loggedWrite sampleBoot task1 (sourceEnv.withMemory (fun _ => 0) 4096 64) 65536 3
      4096 64).ret = .ok 0 := rfl
  refine (memory_restored_iff (served_sourceEnv (by decide)) hret).mpr fun _ i hi hle => ?_
  have hshort := length_logLine_le sourceEnv.uid
  have hcount : (64 : UInt64).toNat = 64 := rfl
  omega

/-- The write of 17 bytes that the tests make leaves a part of the line behind them. -/
theorem memory_not_restored :
    ¬∀ s current env ptr fd buf count m ret, Served env count →
      (loggedWrite s current (env.withMemory m buf count) ptr fd buf count).ret = .ok ret →
      memoryAfter m
        (loggedWrite s current (env.withMemory m buf count) ptr fd buf count).events = m := by
  intro hall
  have hsame := hall sampleBoot task1 sourceEnv 65536 3 4096 17 (fun _ => 0) 0
    (served_sourceEnv (by decide)) rfl
  exact absurd (congrFun hsame 4113) (by decide)

/-! ## What is delivered -/

section
variable {s : State} {current : Pid} {env : HandlerEnv} {ptr table : Address} {fd : Int32}
  {buf : Address} {count : UInt64} {m : Memory}

/-- Two writes go out through one table: the log line, and then the bytes that the buffer
held on entry. The call returns the result of the second. -/
structure Delivers (env : HandlerEnv) (m : Memory) (fd : Int32) (buf : Address) (count : UInt64)
    (o : HandlerOutcome) : Prop where
  writes : ∃ table length, issued m o.events =
    [(⟨table, .write, .readWrite fd.toUInt32 buf length⟩, logLine env.uid),
      (⟨table, .write, .readWrite fd.toUInt32 buf count⟩, m.read buf count.toNat)]
  result : ∃ earlier call, o.events = earlier ++ [.original call] ∧
    o.returned .sizeT = .ok (env.original earlier call)

theorem not_delivers {o : HandlerOutcome} (h : o.events = []) :
    ¬Delivers env m fd buf count o := by
  rintro ⟨⟨table, length, hwrites⟩, -⟩
  rw [h] at hwrites
  cases hwrites

/-- The line and the data are in the buffer when their turn comes. -/
theorem issued_served (hserved : Served env count) :
    issued m (lineEvents env m table fd buf count ++
        [.original (dataCall table fd buf count)]) =
      [(lineCall env table fd buf, logLine env.uid),
        (dataCall table fd buf count, m.read buf count.toNat)] := by
  have hpage : pageSize ≤ 2 ^ 64 := by decide
  have hline : (m.write buf (logLine env.uid)).read buf (logLine env.uid).length =
      logLine env.uid :=
    Memory.read_write m buf ((length_logLine_le env.uid).trans (by decide))
  have hsaved : (m.read buf count.toNat).length ≤ 2 ^ 64 := by
    rw [Memory.length_read]
    exact hserved.fits.trans hpage
  have hdata := Memory.read_write (m.write buf (logLine env.uid)) buf hsaved
  have hcount : (UInt64.ofNat (logLine env.uid).length).toNat = (logLine env.uid).length := by
    rw [UInt64.toNat_ofNat']
    exact Nat.mod_eq_of_lt ((length_logLine_le env.uid).trans_lt (by decide))
  rw [Memory.length_read] at hdata
  simp only [lineEvents, List.cons_append, List.nil_append, issued, Invocation.payload, lineCall,
    dataCall, hcount, hline, hdata]

/-- A result comes back unchanged if and only if it fits an `int`. -/
theorem toInt64_toInt32_iff (x : Int64) : x.toInt32.toInt64 = x ↔ ∃ y : Int32, x = y.toInt64 := by
  constructor
  · exact fun h => ⟨x.toInt32, h.symm⟩
  · rintro ⟨y, rfl⟩
    rw [Int32.toInt32_toInt64]

theorem delivers_served_iff (hserved : Served env count) :
    Delivers env m fd buf count (logAndWrite (env.withMemory m buf count) table fd buf count) ↔
      ∃ x : Int32, dataResult env m table fd buf count = x.toInt64 := by
  rw [logAndWrite_served hserved, ← toInt64_toInt32_iff]
  constructor
  · rintro ⟨-, earlier, call, hevents, hresult⟩
    obtain ⟨hearlier, hcall⟩ := List.append_inj' hevents rfl
    cases hcall
    rw [← hearlier] at hresult
    exact Except.ok.inj hresult
  · intro hfits
    exact ⟨⟨table, _, issued_served hserved⟩, _, _, rfl, congrArg Except.ok hfits⟩

/-- A write to a source file without failures delivers the line and the data if and only if
the command line opens, there is a table, and the result of the second write fits an `int`. -/
theorem log_delivered_iff (s : State) (current : Pid) (ptr : Address) (hserved : Served env count)
    (hsource : WritesSource env fd) (m : Memory) :
    Delivers env m fd buf count
        (loggedWrite s current (env.withMemory m buf count) ptr fd buf count) ↔
      env.cmdline ≠ none ∧ usedTable s current ptr ≠ 0 ∧
        ∃ x : Int32, dataResult env m (usedTable s current ptr) fd buf count = x.toInt64 := by
  have houtcome := loggedWrite_outcome s current (env.withMemory m buf count) ptr fd buf count
  generalize loggedWrite s current (env.withMemory m buf count) ptr fd buf count = o at houtcome
  obtain ⟨hfd, path, hpath, -⟩ := id hsource
  cases houtcome with
  | noTable hnull => exact iff_of_false (not_delivers rfl) fun h => h.2.1 hnull
  | unnamed _ hname => exact absurd hname hserved.name
  | unopened _ _ hopen => exact iff_of_false (not_delivers rfl) fun h => h.1 hopen
  | noFile _ _ _ _ hfile => exact nomatch hfile.symm.trans hpath
  | noBuffer _ _ _ _ _ hkbuf => exact absurd hkbuf hserved.kbuf
  | noPath _ _ _ _ _ hfile => exact nomatch hfile.symm.trans hpath
  | logged htable _ hopen _ _ _ _ =>
    rw [delivers_served_iff hserved]
    exact ⟨fun h => ⟨hopen, htable, h⟩, fun h => h.2.2⟩
  | plain _ _ _ hunlogged => exact absurd hsource (Unlogged.not_writesSource hunlogged)

end

/-- Five bytes for `a.c`. -/
theorem log_delivered_five :
    Delivers sourceEnv (fun _ => 65) 3 4096 5 (loggedWrite sampleBoot task1
      (sourceEnv.withMemory (fun _ => 65) 4096 5) 65536 3 4096 5) := by
  have htable : usedTable sampleBoot task1 65536 ≠ 0 := by decide
  exact (log_delivered_iff sampleBoot task1 65536 (served_sourceEnv (by decide))
    writesSource_sourceEnv (fun _ => 65)).mpr ⟨by decide, htable, 0, rfl⟩

/-- Nothing is written for a process whose command line cannot be opened. -/
theorem log_not_delivered :
    ¬∀ s current env ptr fd buf count m, Served env count → WritesSource env fd →
      usedTable s current ptr ≠ 0 →
      (∀ events call, ∃ x : Int32, env.original events call = x.toInt64) →
      Delivers env m fd buf count
        (loggedWrite s current (env.withMemory m buf count) ptr fd buf count) := by
  intro hall
  have hserved : Served { sourceEnv with cmdline := none } 5 :=
    ⟨by decide, by decide, by decide, by decide, rfl, rfl, rfl⟩
  have hdelivers := hall sampleBoot task1 { sourceEnv with cmdline := none } 65536 3 4096 5
    (fun _ => 65) hserved writesSource_sourceEnv (by decide) fun _ _ => ⟨0, rfl⟩
  exact not_delivers rfl hdelivers

end SyscallVector.Audit
