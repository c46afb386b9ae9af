import SyscallVector.Audit.SyscallTable

/-!
# Calls that are passed on

Outside their policies the overridden functions are to be invisible: the original is
called once, with the caller's arguments, and its result is what the process gets. They
are, as long as every string that they look at themselves can be read and ends in its buffer,
and no error comes back through an `int`. A command line that cannot be opened is followed as
if it could, and so is a bad pointer from the user.
-/
namespace SyscallVector.Audit

set_option autoImplicit false

open Lib Model

/-! ## The policies -/

/-- The path can be read and has `".protected"` in it. -/
def ProtectedPath (pathname : UserPath) : Prop :=
  ∃ path, pathname.chars = some path ∧ dotProtected <:+: cstr path

/-- The path can be read and has one of the account files in it. -/
def AccountPath (pathname : UserPath) : Prop :=
  ∃ path, pathname.chars = some path ∧ (etcPasswd <:+: cstr path ∨ etcShadow <:+: cstr path)

/-- The name of the process is read and has `"httpd"` in it. -/
def NamedHttpd (current : Pid) (env : HandlerEnv) : Prop :=
  ∃ processName, getProcessName current env = .ok (some processName) ∧ httpd <:+: cstr processName

/-- What `strstr` reads of the name has `"httpd"` in it. A name without a NUL is read on behind
its buffer. -/
def SeesHttpd (current : Pid) (env : HandlerEnv) : Prop :=
  ∃ processName, getProcessName current env = .ok (some processName) ∧
    httpd <:+: cstr (processName ++ env.behindName)

/-- The path of the written file is found and has `".c"` in it. -/
def SourceFile (env : HandlerEnv) : Prop :=
  ∃ path, env.file = some (some path) ∧ dotC <:+: cstr path

/-- The calls that no policy is about. -/
def Plain (current : Pid) (env : HandlerEnv) : OverriddenCall → Prop
  | .unlink pathname => ¬ProtectedPath pathname
  | .blockedOpen pathname _ _ => ¬(NamedHttpd current env ∧ AccountPath pathname)
  | .loggedWrite fd _ _ => fd < 3 ∨ env.file ≠ none ∧ env.kbuf ≠ 0 ∧ ¬SourceFile env
  | _ => True

/-- The path that a policy has to look at can be read. -/
def PathReadable (current : Pid) (env : HandlerEnv) : OverriddenCall → Prop
  | .unlink pathname => pathname.chars ≠ none
  | .blockedOpen pathname _ _ => SeesHttpd current env → pathname.chars ≠ none
  | .loggedWrite fd _ _ => ¬fd < 3 → env.file ≠ some none
  | _ => True

/-- The policy of the function does not refuse the call. -/
def Allowed (current : Pid) (env : HandlerEnv) : OverriddenCall → Prop
  | .unlink pathname => ¬ProtectedPath pathname
  | .blockedOpen pathname _ _ => ¬(SeesHttpd current env ∧ AccountPath pathname)
  | _ => True

/-- An open of an account file is not refused for what lies behind a name without a NUL. -/
def KeepsToName (current : Pid) (env : HandlerEnv) : OverriddenCall → Prop
  | .blockedOpen pathname _ _ =>
    SeesHttpd current env → AccountPath pathname → NamedHttpd current env
  | _ => True

/-- What a policy says, and when. -/
inductive PolicyOutcome (current : Pid) (env : HandlerEnv) (call : OverriddenCall) :
    Except Fault (Option Int32) → Prop
  | allowed : PathReadable current env call → Allowed current env call →
      PolicyOutcome current env call (.ok none)
  | unreadable {fault : Fault} : ¬PathReadable current env call →
      PolicyOutcome current env call (.error fault)
  | refusedUnlink {pathname : UserPath} : call = .unlink pathname → ProtectedPath pathname →
      PolicyOutcome current env call (.ok (some 8787))
  | refusedOpen {pathname : UserPath} {flags : Int32} {mode : UInt32} :
      call = .blockedOpen pathname flags mode → SeesHttpd current env → AccountPath pathname →
      PolicyOutcome current env call (.ok (some (-1)))

section
variable {current : Pid} {env : HandlerEnv} {call : OverriddenCall}

/-- A search for a literal finds it where it is a substring. -/
theorem strstr_isSome_iff {text sub : List UInt8} (h : cstr sub = sub) :
    (strstr text sub).isSome = true ↔ sub <:+: cstr text := by
  rw [Option.isSome_iff_ne_none, ne_eq, strstr_eq_none_iff, not_not, h]

theorem namedHttpd_read {processName : List UInt8}
    (hread : getProcessName current env = .ok (some processName)) :
    NamedHttpd current env ↔ (strstr processName httpd).isSome = true := by
  rw [strstr_isSome_iff rfl]
  constructor
  · rintro ⟨processName', hread', hin⟩
    rw [hread] at hread'
    cases hread'
    exact hin
  · exact fun hin => ⟨processName, hread, hin⟩

theorem NamedHttpd.sees (h : NamedHttpd current env) : SeesHttpd current env := by
  obtain ⟨processName, hread, hin⟩ := h
  exact ⟨processName, hread, hin.trans (cstr_prefix_append _ _).isInfix⟩

theorem seesHttpd_read {processName : List UInt8}
    (hread : getProcessName current env = .ok (some processName)) :
    SeesHttpd current env ↔ (strstr (processName ++ env.behindName) httpd).isSome = true := by
  rw [strstr_isSome_iff rfl]
  constructor
  · rintro ⟨processName', hread', hin⟩
    rw [hread] at hread'
    cases hread'
    exact hin
  · exact fun hin => ⟨processName, hread, hin⟩

/-- A name with a NUL is all that is read of it. -/
theorem seesHttpd_iff_of_nul {processName : List UInt8}
    (hread : getProcessName current env = .ok (some processName))
    (hnul : (0 : UInt8) ∈ processName) : SeesHttpd current env ↔ NamedHttpd current env := by
  rw [seesHttpd_read hread, namedHttpd_read hread, strstr_isSome_iff rfl, strstr_isSome_iff rfl,
    cstr_append_of_mem hnul]

/-- What a policy says to a name that was read. -/
theorem policy_outcome {processName : List UInt8}
    (hread : getProcessName current env = .ok (some processName))
    (hnot : ∀ fd buf count, call ≠ .loggedWrite fd buf count) :
    PolicyOutcome current env call (refusal env call processName) := by
  cases call with
  | loggedWrite fd buf count => exact absurd rfl (hnot fd buf count)
  | read | write | «open» | close | link | mkdir | rmdir => exact .allowed trivial trivial
  | unlink pathname =>
    rw [refusal, refuseProtected, readString]
    cases hchars : pathname.chars with
    | none => exact .unreadable (not_not_intro hchars)
    | some path =>
      have hpath : ProtectedPath pathname ↔ (strstr path dotProtected).isSome = true := by
        rw [ProtectedPath, hchars, strstr_isSome_iff rfl]
        simp
      have hreadable : pathname.chars ≠ none := by simp [hchars]
      dsimp only [Except.map]
      by_cases hin : (strstr path dotProtected).isSome = true
      · rw [if_pos hin]
        exact .refusedUnlink rfl (hpath.mpr hin)
      · rw [if_neg hin]
        exact .allowed hreadable fun h => hin (hpath.mp h)
  | blockedOpen pathname flags mode =>
    rw [refusal, refuseAccounts, readString]
    by_cases hhttpd : (strstr (processName ++ env.behindName) httpd).isSome = true
    · have hsees := (seesHttpd_read hread).mpr hhttpd
      rw [if_pos hhttpd]
      cases hchars : pathname.chars with
      | none => exact .unreadable fun h => h hsees hchars
      | some path =>
        have hpath : AccountPath pathname ↔
            ((strstr path etcPasswd).isSome || (strstr path etcShadow).isSome) = true := by
          rw [AccountPath, hchars, Bool.or_eq_true, strstr_isSome_iff rfl, strstr_isSome_iff rfl]
          simp
        have hreadable : pathname.chars ≠ none := by simp [hchars]
        dsimp only [Except.map]
        by_cases hin : ((strstr path etcPasswd).isSome || (strstr path etcShadow).isSome) = true
        · rw [if_pos hin]
          exact .refusedOpen rfl hsees (hpath.mpr hin)
        · rw [if_neg hin]
          exact .allowed (fun _ => hreadable) fun h => hin (hpath.mp h.2)
    · have hblind : ¬SeesHttpd current env := fun h => hhttpd ((seesHttpd_read hread).mp h)
      rw [if_neg hhttpd]
      exact .allowed (fun h => absurd h hblind) fun h => hblind h.1

/-- A call gets as far as the table exactly when everything that it reads on the way can be
read and its policy allows it. -/
theorem passes_iff (hname : env.name ≠ 0)
    (hnot : ∀ fd buf count, call ≠ .loggedWrite fd buf count) :
    Passes current env (refusal env call) ↔
      env.cmdline ≠ none ∧ PathReadable current env call ∧ Allowed current env call := by
  cases hfile : env.cmdline with
  | none =>
    have hnone : ¬Passes current env (refusal env call) := not_passes_unopened hname hfile
    simp [hnone]
  | some contents =>
    obtain ⟨processName, hread⟩ := getProcessName_read current hname hfile
    have hpolicy := policy_outcome hread hnot
    rw [passes_read hread, and_iff_right (Option.some_ne_none contents)]
    generalize refusal env call processName = said at hpolicy
    cases hpolicy with
    | allowed hreadable hallowed => exact iff_of_true rfl ⟨hreadable, hallowed⟩
    | unreadable hreadable => exact iff_of_false nofun fun h => hreadable h.1
    | refusedUnlink hcall hpath =>
      subst hcall
      exact iff_of_false nofun fun h => h.2 hpath
    | refusedOpen hcall hsees hpath =>
      subst hcall
      exact iff_of_false nofun fun h => h.2 ⟨hsees, hpath⟩

/-- A call that no policy is about can be refused for what lies behind the name only. -/
theorem allowed_iff_keepsToName (hnot : ∀ fd buf count, call ≠ .loggedWrite fd buf count)
    (hplain : Plain current env call) :
    Allowed current env call ↔ KeepsToName current env call := by
  cases call with
  | loggedWrite fd buf count => exact absurd rfl (hnot fd buf count)
  | read | write | «open» | close | link | mkdir | rmdir => exact Iff.rfl
  | unlink => exact iff_of_true hplain trivial
  | blockedOpen pathname flags mode =>
    refine ⟨fun h hsees hpath => absurd ⟨hsees, hpath⟩ h, ?_⟩
    exact fun h ⟨hsees, hpath⟩ => hplain ⟨h hsees hpath, hpath⟩

end

/-! ## What comes back -/

theorem toInt_toLong_int (ret : Int32) :
    (ReturnType.int.toLong ret).toInt = ret.toUInt32.toNat := by
  have hsmall : ret.toUInt32.toNat < 2 ^ 32 := UInt32.toNat_lt _
  have hwide : ret.toUInt32.toUInt64.toNat = ret.toUInt32.toNat := UInt32.toNat_toUInt64 _
  rw [ReturnType.toLong, ← Int64.toInt_toBitVec, UInt64.toBitVec_toInt64,
    BitVec.toInt_eq_toNat_of_lt, UInt64.toNat_toBitVec, hwide]
  rw [UInt64.toNat_toBitVec, hwide]
  omega

/-- No error comes back through an `int`. -/
theorem toLong_int_nonneg (ret : Int32) : 0 ≤ ReturnType.int.toLong ret := by
  rw [Int64.le_iff_toInt_le, toInt_toLong_int]
  exact Int.natCast_nonneg _

theorem toLong_int_eq_iff (ret : Int32) : ReturnType.int.toLong ret = ret.toInt64 ↔ 0 ≤ ret := by
  rw [← Int64.toInt_inj, toInt_toLong_int, Int32.toInt_toInt64]
  constructor
  · intro h
    rw [Int32.le_iff_toInt_le, ← h]
    exact Int.natCast_nonneg _
  · intro h
    rw [Int32.toNat_toUInt32_of_le h]
    exact Int.toNat_of_nonneg (Int32.le_iff_toInt_le.mp h)

/-- A result that fits an `int` comes back unchanged, unless it is negative and the function
returns `int`. -/
theorem toLong_toInt32_iff {result : Int64} (hfits : ∃ x : Int32, result = x.toInt64)
    (type : ReturnType) :
    type.toLong result.toInt32 = result ↔ (type = .int → 0 ≤ result) := by
  obtain ⟨x, rfl⟩ := hfits
  rw [Int32.toInt32_toInt64]
  cases type with
  | sizeT => exact iff_of_true rfl (by simp)
  | int =>
    have hsign : (0 : Int64) ≤ x.toInt64 ↔ 0 ≤ x := Int32.toInt64_le (a := 0)
    rw [toLong_int_eq_iff, hsign]
    simp

/-! ## One call of the original -/

/-- The call runs the original once, does nothing else, and returns its result. -/
def Transparent (type : ReturnType) (env : HandlerEnv) (native : Invocation)
    (o : HandlerOutcome) : Prop :=
  o.events = [.original native] ∧ o.returned type = .ok (env.original [] native)

section
variable {s : State} {current : Pid} {env : HandlerEnv} {ptr : Address} {call : OverriddenCall}
  {type : ReturnType}

theorem not_transparent {native : Invocation} {table : Address} {ret : Except Fault Int32} :
    ¬Transparent type env native ⟨table, [], ret⟩ := fun h => List.cons_ne_nil _ _ h.1.symm

/-- A call that runs the original is transparent if the result survives the conversions. -/
theorem transparent_iff (hfits : ∀ inv, ∃ x : Int32, env.original [] inv = x.toInt64)
    (table : Address) (native : Invocation) :
    Transparent type env native
        ⟨table, [.original native], .ok (env.original [] native).toInt32⟩ ↔
      (type = .int → 0 ≤ env.original [] native) := by
  rw [← toLong_toInt32_iff (hfits native)]
  exact ⟨fun h => Except.ok.inj h.2, fun h => ⟨rfl, congrArg Except.ok h⟩⟩

/-- With a name buffer, a table, and originals whose results fit an `int`, a call that no
policy is about is passed on if and only if the command line opens, the path that the policy
looks at can be read, what follows a name without a NUL does not matter, and a function that
returns `int` has no error to return. -/
theorem override_transparent_iff (hname : env.name ≠ 0) (hptr : ptr ≠ 0)
    (hfits : ∀ inv, ∃ x : Int32, env.original [] inv = x.toInt64)
    (hplain : Plain current env call) :
    Transparent call.returnType env (call.native ptr) (call.exec s current env ptr) ↔
      env.cmdline ≠ none ∧ PathReadable current env call ∧ KeepsToName current env call ∧
        (call.returnType = .int → 0 ≤ env.original [] (call.native ptr)) := by
  have hused : usedTable s current ptr = ptr := usedTable_of_set hptr
  have houtcome := exec_outcome s current env ptr call
  generalize call.exec s current env ptr = o at houtcome
  cases houtcome with
  | @logged fd _ _ _ houtcome =>
    change fd < 3 ∨ env.file ≠ none ∧ env.kbuf ≠ 0 ∧ ¬SourceFile env at hplain
    change _ ↔ _ ∧ (¬fd < 3 → env.file ≠ some none) ∧ _
    cases houtcome with
    | noTable hnull => exact absurd (hused.symm.trans hnull) hptr
    | unnamed _ hnull => exact absurd hnull hname
    | unopened _ _ hopen => exact iff_of_false not_transparent fun h => h.1 hopen
    | noFile _ _ _ hfd hfile => exact absurd hfile (hplain.resolve_left hfd).1
    | noBuffer _ _ _ hfd _ hkbuf => exact absurd hkbuf (hplain.resolve_left hfd).2.1
    | noPath _ _ _ hfd _ hfile => exact iff_of_false not_transparent fun h => h.2.1 hfd hfile
    | logged _ _ _ hfd _ hfile hin =>
      exact absurd ⟨_, hfile, (strstr_isSome_iff rfl).mp hin⟩ (hplain.resolve_left hfd).2.2
    | plain _ _ hopen hunlogged =>
      rw [hused, OverriddenCall.native, transparent_iff hfits]
      refine ⟨fun h => ⟨hopen, fun hfd => ?_, trivial, h⟩, fun h => h.2.2.2⟩
      obtain ⟨-, path, hfile, -⟩ := hunlogged.resolve_left hfd
      simp [hfile]
  | common hnot houtcome =>
    have hpass : Passes current env (refusal env call) ↔ _ := passes_iff hname hnot
    rw [allowed_iff_keepsToName hnot hplain] at hpass
    have hsplit : (env.cmdline ≠ none ∧ PathReadable current env call ∧
        KeepsToName current env call ∧
          (call.returnType = .int → 0 ≤ env.original [] (call.native ptr))) ↔
        Passes current env (refusal env call) ∧
          (call.returnType = .int → 0 ≤ env.original [] (call.native ptr)) := by
      rw [hpass, and_assoc, and_assoc]
    rw [hsplit]
    cases houtcome with
    | unnamed hnull => exact absurd hnull hname
    | unopened hnamed hopen =>
      exact iff_of_false not_transparent fun h => not_passes_unopened hnamed hopen h.1
    | refused hread hrefuse | unreadable hread hrefuse =>
      refine iff_of_false not_transparent fun h => ?_
      have hallow := (passes_read hread).mp h.1
      rw [hrefuse] at hallow
      cases hallow
    | noTable _ hnull => exact absurd (hused.symm.trans hnull) hptr
    | forwarded hpass _ =>
      rw [native_eta, hused, transparent_iff hfits]
      exact ⟨fun h => ⟨hpass, h⟩, fun h => h.2⟩

/-- Originals that return this number. -/
def answerEnv (answer : Int32) : HandlerEnv :=
  { openEnv with original := fun _ _ => answer.toInt64 }

/-- A read of 64 bytes into a buffer that gets 17 of them. -/
theorem override_transparent_read :
    Transparent .sizeT (answerEnv 17) ⟨65536, .read, .readWrite 3 4096 64⟩
      ((OverriddenCall.read 3 4096 64).exec sampleBoot task1 (answerEnv 17) 65536) := by
  have hplain : Plain task1 (answerEnv 17) (.read 3 4096 64) := trivial
  have hiff := override_transparent_iff (s := sampleBoot) (by decide)
    (by decide : (65536 : Address) ≠ 0) (fun _ => ⟨17, rfl⟩) hplain
  exact hiff.mpr ⟨by decide, trivial, trivial, by decide⟩

/-- Closing a file that is not open returns -9; the process gets 4294967287. -/
theorem override_not_transparent :
    ∃ (s : State) (current : Pid) (env : HandlerEnv) (ptr : Address) (call : OverriddenCall),
      env.name ≠ 0 ∧ ptr ≠ 0 ∧ (∀ events inv, ∃ x : Int32, env.original events inv = x.toInt64) ∧
        Plain current env call ∧
        env.original [] (call.native ptr) = -9 ∧
        (call.exec s current env ptr).returned call.returnType = .ok 4294967287 ∧
        ¬Transparent call.returnType env (call.native ptr) (call.exec s current env ptr) := by
  have hname : (answerEnv (-9)).name ≠ 0 := by decide
  obtain ⟨processName, hread⟩ := getProcessName_read task1 hname rfl
  have hexec : (OverriddenCall.close 5).exec sampleBoot task1 (answerEnv (-9)) 65536 =
      ⟨65536, [.original ⟨65536, .close, .close 5⟩], .ok (-9)⟩ := by
    change overridden sampleBoot task1 (answerEnv (-9)) 65536 .close (.close 5) allow = _
    rw [overridden, hread]
    rfl
  refine ⟨sampleBoot, task1, answerEnv (-9), 65536, .close 5, hname, by decide,
    fun _ _ => ⟨-9, rfl⟩, trivial, rfl, ?_, fun h => ?_⟩
  · rw [hexec]
    rfl
  · have hreturned := h.2
    rw [hexec] at hreturned
    exact absurd (Except.ok.inj hreturned) (by decide)

end

end SyscallVector.Audit
