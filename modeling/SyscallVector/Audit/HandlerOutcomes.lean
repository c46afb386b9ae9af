import SyscallVector.Audit.Boot
import SyscallVector.Model.OverriddenSyscalls

/-!
# What an overridden call can do

The ways through the common body, and through `loggedWrite`, each with its events, the
static variable it leaves and its result. Later proofs go through these two inversions
and never open a body again.
-/
namespace SyscallVector.Audit

set_option autoImplicit false

open Lib Model

/-- The table in the head node of the vector that a task holds, NULL without one. -/
def ownTable (s : State) (current : Pid) : Address :=
  if s.vectorInfo current = 0 then 0
  else (s.heap (s.vectorInfo current)).elim 0 OverriddenSyscall.syscallTablePtr

/-- The table that a call goes through: the cached one, or else that of the caller. -/
def usedTable (s : State) (current : Pid) (ptr : Address) : Address :=
  if ptr = 0 then ownTable s current else ptr

/-- The name is read, and the call is not refused. -/
def Passes (current : Pid) (env : HandlerEnv)
    (refuse : List UInt8 → Except Fault (Option Int32)) : Prop :=
  ∃ processName, getProcessName current env = .ok (some processName) ∧
    refuse processName = .ok none

section
variable {s : State} {current : Pid} {env : HandlerEnv} {ptr : Address}

theorem getProcessName_null (h : env.name = 0) : getProcessName current env = .ok none := by
  rw [getProcessName, if_pos h]

theorem getProcessName_err (h : env.name ≠ 0) (hfile : env.cmdline = none) :
    getProcessName current env = .error .danglingPointer := by
  rw [getProcessName, if_neg h, hfile]

theorem getProcessName_read (current : Pid) (h : env.name ≠ 0) {contents : List UInt8}
    (hfile : env.cmdline = some contents) :
    ∃ processName, getProcessName current env = .ok (some processName) := by
  rw [getProcessName, if_neg h, hfile]
  exact ⟨_, rfl⟩

theorem opened_of_read {processName : List UInt8}
    (hread : getProcessName current env = .ok (some processName)) :
    env.name ≠ 0 ∧ env.cmdline ≠ none := by
  have hname : env.name ≠ 0 := by
    intro h
    rw [getProcessName_null h] at hread
    cases hread
  refine ⟨hname, fun h => ?_⟩
  rw [getProcessName_err hname h] at hread
  cases hread

theorem not_passes_unnamed {refuse : List UInt8 → Except Fault (Option Int32)}
    (h : env.name = 0) : ¬Passes current env refuse := by
  rintro ⟨processName, hread, -⟩
  rw [getProcessName_null h] at hread
  cases hread

theorem not_passes_unopened {refuse : List UInt8 → Except Fault (Option Int32)}
    (h : env.name ≠ 0) (hfile : env.cmdline = none) : ¬Passes current env refuse := by
  rintro ⟨processName, hread, -⟩
  rw [getProcessName_err h hfile] at hread
  cases hread

/-- With the name read, only the policy decides. -/
theorem passes_read {refuse : List UInt8 → Except Fault (Option Int32)}
    {processName : List UInt8} (hread : getProcessName current env = .ok (some processName)) :
    Passes current env refuse ↔ refuse processName = .ok none := by
  constructor
  · rintro ⟨processName', hread', hallow⟩
    rw [hread] at hread'
    cases hread'
    exact hallow
  · exact fun hallow => ⟨processName, hread, hallow⟩

/-- The table is found, or there is none to find. -/
theorem ensureTablePtr_cases (s : State) (current : Pid) (ptr : Address) (ret : Int32) :
    ensureTablePtr s current ptr ret =
        .ok (usedTable s current ptr, if ptr = 0 then 0 else ret, false) ∨
      ptr = 0 ∧ usedTable s current ptr = 0 ∧
        ∃ fault, ensureTablePtr s current ptr ret = .error fault := by
  rw [ensureTablePtr, usedTable]
  by_cases hptr : ptr = 0
  · rw [if_pos hptr, if_pos hptr, if_pos hptr, initSyscallTablePtr, ownTable]
    by_cases hinfo : s.vectorInfo current = 0
    · rw [if_neg (not_not_intro hinfo), if_pos hinfo, hptr]
      exact .inl rfl
    · rw [if_pos hinfo, if_neg hinfo]
      dsimp only
      rw [if_neg hinfo]
      cases hhead : s.heap (s.vectorInfo current) with
      | none => exact .inr ⟨hptr, rfl, _, rfl⟩
      | some head => exact .inl rfl
  · rw [if_neg hptr, if_neg hptr, if_neg hptr]
    exact .inl rfl

end

/-! ## The common body -/

/-- The ways through `overridden`. -/
inductive OverriddenOutcome (s : State) (current : Pid) (env : HandlerEnv) (ptr : Address)
    (nr : SyscallNr) (args : SyscallArgs) (refuse : List UInt8 → Except Fault (Option Int32)) :
    HandlerOutcome → Prop
  | unnamed : env.name = 0 →
      OverriddenOutcome s current env ptr nr args refuse ⟨ptr, [], .ok 8787⟩
  | refused {processName : List UInt8} {ret : Int32} :
      getProcessName current env = .ok (some processName) → refuse processName = .ok (some ret) →
      OverriddenOutcome s current env ptr nr args refuse ⟨ptr, [], .ok ret⟩
  | unopened {fault : Fault} : env.name ≠ 0 → env.cmdline = none →
      OverriddenOutcome s current env ptr nr args refuse ⟨ptr, [], .error fault⟩
  | unreadable {processName : List UInt8} {fault : Fault} :
      getProcessName current env = .ok (some processName) → refuse processName = .error fault →
      OverriddenOutcome s current env ptr nr args refuse ⟨ptr, [], .error fault⟩
  | noTable {fault : Fault} : Passes current env refuse → usedTable s current ptr = 0 →
      OverriddenOutcome s current env ptr nr args refuse ⟨0, [], .error fault⟩
  | forwarded : Passes current env refuse → usedTable s current ptr ≠ 0 →
      OverriddenOutcome s current env ptr nr args refuse
        ⟨usedTable s current ptr, [.original ⟨usedTable s current ptr, nr, args⟩],
          .ok (env.original [] ⟨usedTable s current ptr, nr, args⟩).toInt32⟩

theorem overridden_outcome (s : State) (current : Pid) (env : HandlerEnv) (ptr : Address)
    (nr : SyscallNr) (args : SyscallArgs) (refuse : List UInt8 → Except Fault (Option Int32)) :
    OverriddenOutcome s current env ptr nr args refuse
      (overridden s current env ptr nr args refuse) := by
  rw [overridden]
  by_cases hname : env.name = 0
  · rw [getProcessName_null hname]
    exact .unnamed hname
  · cases hfile : env.cmdline with
    | none =>
      rw [getProcessName_err hname hfile]
      exact .unopened hname hfile
    | some contents =>
      obtain ⟨processName, hread⟩ := getProcessName_read current hname hfile
      rw [hread]
      dsimp only
      cases hrefuse : refuse processName with
      | error fault => exact .unreadable hread hrefuse
      | ok ret =>
        cases ret with
        | some ret => exact .refused hread hrefuse
        | none =>
          have hpass : Passes current env refuse := ⟨processName, hread, hrefuse⟩
          rcases ensureTablePtr_cases s current ptr 8787 with htable | ⟨hptr, hnull, fault, htable⟩
          · rw [htable]
            dsimp only
            rw [if_neg Bool.false_ne_true]
            by_cases hnull : usedTable s current ptr = 0
            · rw [if_pos hnull, hnull]
              exact .noTable hpass hnull
            · rw [if_neg hnull]
              exact .forwarded hpass hnull
          · rw [htable, hptr]
            exact .noTable hpass (hptr ▸ hnull)

/-! ## The body of `loggedWrite` -/

/-- The write goes out as it is: to a standard stream, or to a file whose path has no
`".c"`. -/
def Unlogged (env : HandlerEnv) (fd : Int32) : Prop :=
  fd < 3 ∨ env.kbuf ≠ 0 ∧ ∃ path, env.file = some (some path) ∧ strstr path dotC = none

/-- What `ret` holds between the table and the next assignment to it. -/
def pendingRet (ptr : Address) : Int32 := if ptr = 0 then 0 else 8787

/-- The first half of `loggedWrite`: what comes of the table and of the name. -/
inductive TableAndName (s : State) (current : Pid) (env : HandlerEnv) (ptr : Address) :
    Except Fault (Address × Int32 × Bool) → Except Fault (Option (List UInt8)) → Prop
  | lost {fault : Fault} {name : Except Fault (Option (List UInt8))} : ptr = 0 →
      usedTable s current ptr = 0 → TableAndName s current env ptr (.error fault) name
  | noTable {ret : Int32} {name : Except Fault (Option (List UInt8))} :
      usedTable s current ptr = 0 → TableAndName s current env ptr (.ok (0, ret, false)) name
  | unnamed : usedTable s current ptr ≠ 0 → env.name = 0 →
      TableAndName s current env ptr (.ok (usedTable s current ptr, pendingRet ptr, false))
        (.ok none)
  | unopened {fault : Fault} : usedTable s current ptr ≠ 0 → env.name ≠ 0 →
      env.cmdline = none →
      TableAndName s current env ptr (.ok (usedTable s current ptr, pendingRet ptr, false))
        (.error fault)
  | named {processName : List UInt8} : usedTable s current ptr ≠ 0 → env.name ≠ 0 →
      env.cmdline ≠ none →
      TableAndName s current env ptr (.ok (usedTable s current ptr, pendingRet ptr, false))
        (.ok (some processName))

theorem tableAndName (s : State) (current : Pid) (env : HandlerEnv) (ptr : Address) :
    TableAndName s current env ptr (ensureTablePtr s current ptr 8787)
      (getProcessName current env) := by
  rcases ensureTablePtr_cases s current ptr 8787 with htable | ⟨hptr, hnull, fault, htable⟩
  · rw [htable]
    by_cases hnull : usedTable s current ptr = 0
    · rw [hnull]
      exact .noTable hnull
    · by_cases hname : env.name = 0
      · rw [getProcessName_null hname]
        exact .unnamed hnull hname
      · cases hopen : env.cmdline with
        | none =>
          rw [getProcessName_err hname hopen]
          exact .unopened hnull hname hopen
        | some contents =>
          obtain ⟨processName, hread⟩ := getProcessName_read current hname hopen
          rw [hread]
          exact .named hnull hname (by simp [hopen])
  · rw [htable]
    exact .lost hptr hnull

/-- The ways through `loggedWrite`. -/
inductive LoggedOutcome (s : State) (current : Pid) (env : HandlerEnv) (ptr : Address)
    (fd : Int32) (buf : Address) (count : UInt64) : HandlerOutcome → Prop
  | noTable {fault : Fault} : usedTable s current ptr = 0 →
      LoggedOutcome s current env ptr fd buf count ⟨0, [], .error fault⟩
  | unnamed : usedTable s current ptr ≠ 0 → env.name = 0 →
      LoggedOutcome s current env ptr fd buf count
        ⟨usedTable s current ptr, [], .ok (pendingRet ptr)⟩
  | unopened {fault : Fault} : usedTable s current ptr ≠ 0 → env.name ≠ 0 →
      env.cmdline = none →
      LoggedOutcome s current env ptr fd buf count
        ⟨usedTable s current ptr, [], .error fault⟩
  | noFile : usedTable s current ptr ≠ 0 → env.name ≠ 0 → env.cmdline ≠ none → ¬fd < 3 →
      env.file = none →
      LoggedOutcome s current env ptr fd buf count
        ⟨usedTable s current ptr, [], .ok (pendingRet ptr)⟩
  | noBuffer : usedTable s current ptr ≠ 0 → env.name ≠ 0 → env.cmdline ≠ none → ¬fd < 3 →
      env.file ≠ none → env.kbuf = 0 →
      LoggedOutcome s current env ptr fd buf count
        ⟨usedTable s current ptr, [], .ok (-ENOMEM)⟩
  | noPath {fault : Fault} : usedTable s current ptr ≠ 0 → env.name ≠ 0 → env.cmdline ≠ none →
      ¬fd < 3 → env.kbuf ≠ 0 → env.file = some none →
      LoggedOutcome s current env ptr fd buf count
        ⟨usedTable s current ptr, [], .error fault⟩
  | logged {path : List UInt8} : usedTable s current ptr ≠ 0 → env.name ≠ 0 →
      env.cmdline ≠ none → ¬fd < 3 → env.kbuf ≠ 0 → env.file = some (some path) →
      (strstr path dotC).isSome = true →
      LoggedOutcome s current env ptr fd buf count
        (logAndWrite env (usedTable s current ptr) fd buf count)
  | plain : usedTable s current ptr ≠ 0 → env.name ≠ 0 → env.cmdline ≠ none → Unlogged env fd →
      LoggedOutcome s current env ptr fd buf count
        ⟨usedTable s current ptr,
          [.original ⟨usedTable s current ptr, .write, .readWrite fd.toUInt32 buf count⟩],
          .ok (env.original [] ⟨usedTable s current ptr, .write,
            .readWrite fd.toUInt32 buf count⟩).toInt32⟩

theorem loggedWrite_outcome (s : State) (current : Pid) (env : HandlerEnv) (ptr : Address)
    (fd : Int32) (buf : Address) (count : UInt64) :
    LoggedOutcome s current env ptr fd buf count
      (loggedWrite s current env ptr fd buf count) := by
  have hstart := tableAndName s current env ptr
  rw [loggedWrite]
  generalize ensureTablePtr s current ptr 8787 = found at hstart ⊢
  generalize getProcessName current env = name at hstart ⊢
  cases hstart with
  | lost hptr hnull =>
    rw [hptr]
    exact .noTable (hptr ▸ hnull)
  | noTable hnull => exact .noTable hnull
  | unnamed htable hname =>
    dsimp only
    rw [if_neg Bool.false_ne_true, if_neg htable]
    exact .unnamed htable hname
  | unopened htable hname hopen =>
    dsimp only
    rw [if_neg Bool.false_ne_true, if_neg htable]
    exact .unopened htable hname hopen
  | named htable hname hopen =>
    dsimp only
    rw [if_neg Bool.false_ne_true, if_neg htable]
    by_cases hfd : fd < 3
    · rw [if_pos hfd]
      exact .plain htable hname hopen (.inl hfd)
    · rw [if_neg hfd]
      cases hfile : env.file with
      | none => exact .noFile htable hname hopen hfd hfile
      | some found =>
        dsimp only
        by_cases hkbuf : env.kbuf = 0
        · rw [if_pos hkbuf]
          exact .noBuffer htable hname hopen hfd (by simp [hfile]) hkbuf
        · rw [if_neg hkbuf]
          cases found with
          | none => exact .noPath htable hname hopen hfd hkbuf hfile
          | some path =>
            dsimp only
            by_cases hc : (strstr path dotC).isSome = true
            · rw [if_pos hc]
              exact .logged htable hname hopen hfd hkbuf hfile hc
            · rw [if_neg hc]
              have hnone : strstr path dotC = none := by simpa using hc
              exact .plain htable hname hopen (.inr ⟨hkbuf, path, hfile, hnone⟩)

/-! ## The block for source files -/

/-- The original call for the log line. -/
def lineCall (env : HandlerEnv) (table : Address) (fd : Int32) (buf : Address) : Invocation :=
  ⟨table, .write, .readWrite fd.toUInt32 buf (UInt64.ofNat (logLine env.uid).length)⟩

/-- The original call for the data. -/
def dataCall (table : Address) (fd : Int32) (buf : Address) (count : UInt64) : Invocation :=
  ⟨table, .write, .readWrite fd.toUInt32 buf count⟩

/-- What has to succeed before the line can be written. -/
def LineReady (env : HandlerEnv) : Prop :=
  env.copyFromUser = true ∧ env.str ≠ 0 ∧ env.copyToUser = true

/-- The ways through the block: `-1` before the line, `-1` behind it, or the data as well. -/
inductive LogOutcome (env : HandlerEnv) (table : Address) (fd : Int32) (buf : Address)
    (count : UInt64) : HandlerOutcome → Prop
  | uncopied : env.copyFromUser = false → LogOutcome env table fd buf count ⟨table, [], .ok (-1)⟩
  | noPage {fault : Fault} : env.copyFromUser = true → env.str = 0 →
      LogOutcome env table fd buf count ⟨table, [], .error fault⟩
  | unwritten : env.copyFromUser = true → env.str ≠ 0 → env.copyToUser = false →
      LogOutcome env table fd buf count ⟨table, [], .ok (-1)⟩
  | lineOnly : LineReady env → env.copyBack = false →
      LogOutcome env table fd buf count
        ⟨table, [.copyToUser buf (logLine env.uid), .original (lineCall env table fd buf)],
          .ok (-1)⟩
  | written : LineReady env → env.copyBack = true →
      LogOutcome env table fd buf count
        ⟨table,
          [.copyToUser buf (logLine env.uid), .original (lineCall env table fd buf),
            .copyToUser buf (env.userBuf.take count.toNat),
            .original (dataCall table fd buf count)],
          .ok (env.original
            [.copyToUser buf (logLine env.uid), .original (lineCall env table fd buf),
              .copyToUser buf (env.userBuf.take count.toNat)]
            (dataCall table fd buf count)).toInt32⟩

theorem nul_not_mem_logLine (uid : UInt32) : (0 : UInt8) ∉ logLine uid := by
  have hnumeral : (0 : UInt8) ∉ sprintfD uid := not_mem_decimalInt (by decide) (by decide) _
  rw [logLine, List.mem_append, List.mem_append, List.mem_append, not_or, not_or, not_or]
  exact ⟨⟨⟨by decide, hnumeral⟩, by decide⟩, by decide⟩

section
variable {env : HandlerEnv} {table : Address} {fd : Int32} {buf : Address} {count : UInt64}

theorem logAndWrite_outcome (env : HandlerEnv) (table : Address) (fd : Int32) (buf : Address)
    (count : UInt64) :
    LogOutcome env table fd buf count (logAndWrite env table fd buf count) := by
  have hlength : strlen (logLine env.uid) = (logLine env.uid).length := by
    rw [strlen, cstr_eq_self (nul_not_mem_logLine _)]
  rw [logAndWrite]
  cases hfrom : env.copyFromUser with
  | false => exact .uncopied hfrom
  | true =>
    rw [if_neg (by decide)]
    by_cases hstr : env.str = 0
    · rw [if_pos hstr]
      exact .noPage hfrom hstr
    · rw [if_neg hstr]
      cases hto : env.copyToUser with
      | false => exact .unwritten hfrom hstr hto
      | true =>
        have hready : LineReady env := ⟨hfrom, hstr, hto⟩
        dsimp only [invoke]
        rw [hlength, if_neg (by decide)]
        cases hback : env.copyBack with
        | false => exact .lineOnly hready hback
        | true => exact .written hready hback

/-- Both writes of a logged call go through the same table. -/
theorem logAndWrite_table :
    (logAndWrite env table fd buf count).syscallTablePtr = table ∧
      ∀ call, .original call ∈ (logAndWrite env table fd buf count).events →
        call.table = table := by
  have houtcome := logAndWrite_outcome env table fd buf count
  generalize logAndWrite env table fd buf count = o at houtcome
  cases houtcome with
  | uncopied | noPage | unwritten => exact ⟨rfl, by simp⟩
  | lineOnly =>
    refine ⟨rfl, fun call hcall => ?_⟩
    simp only [List.mem_cons, List.not_mem_nil, or_false, reduceCtorEq, false_or,
      HandlerEvent.original.injEq] at hcall
    rw [hcall]
    rfl
  | written =>
    refine ⟨rfl, fun call hcall => ?_⟩
    simp only [List.mem_cons, List.not_mem_nil, or_false, reduceCtorEq, false_or,
      HandlerEvent.original.injEq] at hcall
    rcases hcall with rfl | rfl <;> rfl

end

/-! ## Any of the ten -/

/-- What a function does between the name and the table. -/
def refusal (env : HandlerEnv) : OverriddenCall → List UInt8 → Except Fault (Option Int32)
  | .unlink pathname => refuseProtected pathname
  | .blockedOpen pathname _ _ => refuseAccounts pathname env.behindName
  | _ => allow

/-- The ways through any of the ten; nine are the common body with their own policy. -/
inductive CallOutcome (s : State) (current : Pid) (env : HandlerEnv) (ptr : Address) :
    OverriddenCall → HandlerOutcome → Prop
  | logged {fd : Int32} {buf : Address} {count : UInt64} {o : HandlerOutcome} :
      LoggedOutcome s current env ptr fd buf count o →
      CallOutcome s current env ptr (.loggedWrite fd buf count) o
  | common {call : OverriddenCall} {o : HandlerOutcome} :
      (∀ fd buf count, call ≠ .loggedWrite fd buf count) →
      OverriddenOutcome s current env ptr (call.native (usedTable s current ptr)).nr
        (call.native (usedTable s current ptr)).args (refusal env call) o →
      CallOutcome s current env ptr call o

theorem exec_outcome (s : State) (current : Pid) (env : HandlerEnv) (ptr : Address)
    (call : OverriddenCall) : CallOutcome s current env ptr call (call.exec s current env ptr) := by
  cases call with
  | loggedWrite => exact .logged (loggedWrite_outcome ..)
  | read | write | «open» | close | link | unlink | mkdir | rmdir | blockedOpen =>
    exact .common (by simp) (overridden_outcome ..)

theorem native_eta (call : OverriddenCall) (table : Address) :
    (⟨table, (call.native table).nr, (call.native table).args⟩ : Invocation) =
      call.native table := by cases call <;> rfl

end SyscallVector.Audit
