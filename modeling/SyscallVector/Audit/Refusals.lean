import SyscallVector.Audit.Transparency

/-!
# Calls that are not passed on

A call that does not run the original should tell the process so with a negative result.
`ret` starts as 8787, and `initSyscallTablePtr` overwrites it with 0; the exits that do
not assign it again return one of the two. Those that assign an error to it return `int`,
all but `loggedWrite`, and an `int` is no negative `long`. Other exits are not reached at all:
they lie behind a pointer that nothing has checked.
-/
namespace SyscallVector.Audit

set_option autoImplicit false

open Lib Model

/-- A call that has not run an original returns, and a negative number. -/
def Reported (type : ReturnType) (o : HandlerOutcome) : Prop :=
  (∀ inv, .original inv ∉ o.events) → ∃ ret, o.returned type = .ok ret ∧ ret < 0

/-- The log line can be composed: the user's buffer cannot be copied, or there is a page
for the text. -/
def LogComposed (env : HandlerEnv) : Prop := env.copyFromUser = false ∨ env.str ≠ 0

/-- What the exits of a function depend on, apart from its name buffer and its command line.
Only `loggedWrite` has exits that report a failure. -/
def ExitsCovered (s : State) (current : Pid) (env : HandlerEnv) (ptr : Address) :
    OverriddenCall → Prop
  | .loggedWrite fd _ _ =>
    usedTable s current ptr ≠ 0 ∧
      (fd < 3 ∨ env.file ≠ none ∧
        (env.kbuf = 0 ∨ env.file ≠ some none ∧ (SourceFile env → LogComposed env)))
  | call =>
    PathReadable current env call ∧ Allowed current env call ∧ usedTable s current ptr ≠ 0

section
variable {s : State} {current : Pid} {env : HandlerEnv} {ptr : Address} {call : OverriddenCall}
  {type : ReturnType}

theorem reported_iff {table : Address} {ret : Int32} :
    Reported type ⟨table, [], .ok ret⟩ ↔ type.toLong ret < 0 := by
  have hvalue : (⟨table, [], .ok ret⟩ : HandlerOutcome).returned type = .ok (type.toLong ret) :=
    rfl
  rw [Reported, hvalue]
  constructor
  · intro h
    obtain ⟨_, hret, hlt⟩ := h fun _ => List.not_mem_nil
    cases hret
    exact hlt
  · exact fun hlt _ => ⟨_, rfl, hlt⟩

theorem reported_sizeT_iff {table : Address} {ret : Int32} :
    Reported .sizeT ⟨table, [], .ok ret⟩ ↔ ret < 0 :=
  reported_iff.trans (Int32.toInt64_lt (b := 0))

/-- A function that returns `int` reports nothing. -/
theorem not_reported_int {table : Address} {ret : Int32} :
    ¬Reported .int ⟨table, [], .ok ret⟩ := fun h =>
  absurd (reported_iff.mp h) (Int64.not_lt.mpr (toLong_int_nonneg ret))

theorem not_reported_fault {table : Address} {fault : Fault} :
    ¬Reported type ⟨table, [], .error fault⟩ := by
  intro h
  obtain ⟨ret, hret, -⟩ := h fun _ => List.not_mem_nil
  cases hret

theorem reported_of_invoked {o : HandlerOutcome} {inv : Invocation}
    (h : .original inv ∈ o.events) : Reported type o := fun hnone => absurd h (hnone inv)

/-- A logged write whose log line is composed runs an original or returns -1. -/
theorem logAndWrite_reported_iff {table : Address} {fd : Int32} {buf : Address} {count : UInt64} :
    Reported .sizeT (logAndWrite env table fd buf count) ↔ LogComposed env := by
  have houtcome := logAndWrite_outcome env table fd buf count
  rw [LogComposed]
  generalize logAndWrite env table fd buf count = o at houtcome
  cases houtcome with
  | uncopied hcopy => exact iff_of_true (reported_sizeT_iff.mpr (by decide)) (.inl hcopy)
  | noPage hcopy hstr =>
    exact iff_of_false not_reported_fault fun h =>
      h.elim (fun hfalse => by simp [hcopy] at hfalse) fun hne => hne hstr
  | unwritten _ hstr => exact iff_of_true (reported_sizeT_iff.mpr (by decide)) (.inr hstr)
  | lineOnly hready | written hready =>
    have hline (rest : List HandlerEvent) : .original (lineCall env table fd buf) ∈
        .copyToUser buf (logLine env.uid) :: .original (lineCall env table fd buf) :: rest :=
      List.mem_cons_of_mem _ List.mem_cons_self
    exact iff_of_true (reported_of_invoked (hline _)) (.inr hready.2.1)

/-- What is pending after the table is no error. -/
theorem pendingRet_nonneg (ptr : Address) : ¬pendingRet ptr < 0 := by
  rw [pendingRet]
  split <;> decide

theorem loggedOutcome_reported_iff {fd : Int32} {buf : Address} {count : UInt64}
    {o : HandlerOutcome} (houtcome : LoggedOutcome s current env ptr fd buf count o) :
    Reported .sizeT o ↔
      env.name ≠ 0 ∧ env.cmdline ≠ none ∧
        ExitsCovered s current env ptr (.loggedWrite fd buf count) := by
  rw [ExitsCovered]
  cases houtcome with
  | noTable hnull => exact iff_of_false not_reported_fault fun h => h.2.2.1 hnull
  | unnamed _ hname =>
    exact iff_of_false (fun h => pendingRet_nonneg ptr (reported_sizeT_iff.mp h)) fun h => h.1 hname
  | unopened _ _ hopen => exact iff_of_false not_reported_fault fun h => h.2.1 hopen
  | noFile _ _ _ hfd hfile =>
    exact iff_of_false (fun h => pendingRet_nonneg ptr (reported_sizeT_iff.mp h)) fun h =>
      (h.2.2.2.resolve_left hfd).1 hfile
  | noBuffer hnull hname hopen _ hfile hkbuf =>
    exact iff_of_true (reported_sizeT_iff.mpr (by decide))
      ⟨hname, hopen, hnull, .inr ⟨hfile, .inl hkbuf⟩⟩
  | noPath _ _ _ hfd hkbuf hfile =>
    exact iff_of_false not_reported_fault fun h =>
      ((h.2.2.2.resolve_left hfd).2.resolve_left hkbuf).1 hfile
  | logged hnull hname hopen hfd hkbuf hfile hin =>
    have hsource : SourceFile env := ⟨_, hfile, (strstr_isSome_iff rfl).mp hin⟩
    rw [logAndWrite_reported_iff]
    constructor
    · intro h
      exact ⟨hname, hopen, hnull, .inr ⟨by simp [hfile], .inr ⟨by simp [hfile], fun _ => h⟩⟩⟩
    · exact fun h => ((h.2.2.2.resolve_left hfd).2.resolve_left hkbuf).2 hsource
  | plain hnull hname hopen hunlogged =>
    refine iff_of_true (reported_of_invoked (List.mem_singleton_self _)) ⟨hname, hopen, hnull, ?_⟩
    refine hunlogged.imp_right ?_
    rintro ⟨-, path, hfile, hnone⟩
    refine ⟨by simp [hfile], .inr ⟨by simp [hfile], ?_⟩⟩
    rintro ⟨path', hfile', hin⟩
    rw [hfile] at hfile'
    cases hfile'
    rw [← strstr_isSome_iff rfl, hnone] at hin
    cases hin

/-- Where the body is the common one, a call is covered if it runs the original. -/
theorem overriddenOutcome_reported_iff {nr : SyscallNr} {args : SyscallArgs} {o : HandlerOutcome}
    (hnot : ∀ fd buf count, call ≠ .loggedWrite fd buf count)
    (houtcome : OverriddenOutcome s current env ptr nr args (refusal env call) o) :
    Reported call.returnType o ↔
      Passes current env (refusal env call) ∧ usedTable s current ptr ≠ 0 := by
  cases houtcome with
  | unnamed hname =>
    refine iff_of_false (fun h => ?_) fun h => not_passes_unnamed hname h.1
    have hneg := reported_iff.mp h
    cases htype : call.returnType <;> rw [htype] at hneg <;> exact absurd hneg (by decide)
  | unopened hname hopen =>
    exact iff_of_false not_reported_fault fun h => not_passes_unopened hname hopen h.1
  | refused hread hrefuse =>
    have hblocked : ¬Passes current env (refusal env call) := by
      rw [passes_read hread, hrefuse]
      exact nofun
    have hpolicy := policy_outcome hread hnot
    rw [hrefuse] at hpolicy
    -- both functions with a policy return `int`
    cases hpolicy with
    | refusedUnlink hcall | refusedOpen hcall =>
      subst hcall
      exact iff_of_false not_reported_int fun h => hblocked h.1
  | unreadable hread hrefuse =>
    refine iff_of_false not_reported_fault fun h => ?_
    have hallow := (passes_read hread).mp h.1
    rw [hrefuse] at hallow
    cases hallow
  | noTable _ hnull => exact iff_of_false not_reported_fault fun h => h.2 hnull
  | forwarded hpass hne =>
    exact iff_of_true (reported_of_invoked (List.mem_singleton_self _)) ⟨hpass, hne⟩

theorem exitsCovered_common (hnot : ∀ fd buf count, call ≠ .loggedWrite fd buf count) :
    ExitsCovered s current env ptr call ↔
      PathReadable current env call ∧ Allowed current env call ∧ usedTable s current ptr ≠ 0 := by
  cases call with
  | loggedWrite fd buf count => exact absurd rfl (hnot fd buf count)
  | read | write | «open» | close | link | unlink | mkdir | rmdir | blockedOpen => exact Iff.rfl

/-- Each of the ten functions either runs an original, or returns, and a negative number, if
and only if the name buffer is allocated, the command line opens and its exits are covered. -/
theorem refusal_reported_iff (s : State) (current : Pid) (env : HandlerEnv) (ptr : Address)
    (call : OverriddenCall) :
    Reported call.returnType (call.exec s current env ptr) ↔
      env.name ≠ 0 ∧ env.cmdline ≠ none ∧ ExitsCovered s current env ptr call := by
  have houtcome := exec_outcome s current env ptr call
  generalize call.exec s current env ptr = o at houtcome
  cases houtcome with
  | logged houtcome => exact loggedOutcome_reported_iff houtcome
  | common hnot houtcome =>
    rw [overriddenOutcome_reported_iff hnot houtcome, exitsCovered_common hnot]
    by_cases hname : env.name = 0
    · exact iff_of_false (fun h => not_passes_unnamed hname h.1) fun h => h.1 hname
    · rw [passes_iff hname hnot, and_iff_right hname, and_assoc, and_assoc]

/-- The refusal to unlink a protected file looks like a success. -/
theorem refusal_not_reported :
    ∃ (s : State) (current : Pid) (env : HandlerEnv) (ptr : Address) (call : OverriddenCall),
      (∀ inv, .original inv ∉ (call.exec s current env ptr).events) ∧
        (call.exec s current env ptr).returned call.returnType = .ok 8787 := by
  have hname : openEnv.name ≠ 0 := by decide
  obtain ⟨processName, hread⟩ := getProcessName_read task1 hname rfl
  have hexec : (OverriddenCall.unlink ⟨4096, some dotProtected⟩).exec sampleBoot task1 openEnv
      65536 = ⟨65536, [], .ok 8787⟩ := by
    change overridden sampleBoot task1 openEnv 65536 .unlink (.path 4096)
      (refuseProtected ⟨4096, some dotProtected⟩) = _
    rw [overridden, hread]
    rfl
  refine ⟨sampleBoot, task1, openEnv, 65536, .unlink ⟨4096, some dotProtected⟩, ?_, ?_⟩
  · rw [hexec]
    exact fun _ => List.not_mem_nil
  · rw [hexec]
    rfl

end

end SyscallVector.Audit
