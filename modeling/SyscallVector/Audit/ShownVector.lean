import SyscallVector.Audit.CreateRequest
import SyscallVector.Audit.ListHeads
import SyscallVector.Audit.ListingBounds
import SyscallVector.Audit.NullChecks

/-!
# The vector that a task sees

`IOCTL_SET` finds a vector by its name and keeps the address of the chain; the requests that
show a vector find it by that address. New vectors go in front of the list, but as long as no
other vector has the address, nothing that other tasks do comes between the two searches.
-/
namespace SyscallVector.Audit

set_option autoImplicit false

open Lib Model

/-! ## What is asked of the requests -/

/-- The lines of a vector, and zeros up to the end of the buffer. -/
def shownBuffer (v : StructVector) : List UInt8 :=
  let lines := cstr v.vectorName ++ 10 :: (decimal v.vectorId.toNat ++
    10 :: (decimal v.overfuncsBitmap.toNat ++ [10]))
  lines ++ zeroed (bufLen - lines.length)

/-- The buffer of a call is allocated and copied to the user. -/
structure CopiesOut (env : Env) : Prop where
  buf : env.buf ≠ 0
  copied : env.copyToUser = true

/-- The task sees a vector, and so does whoever asks with its pid. -/
structure Sees (s : State) (t : Pid) (v : StructVector) : Prop where
  mine : ∀ param env, CopiesOut env →
    customIoctl s t IOCTL_SHOW_MINE param env = .ok ⟨s, 0, some (shownBuffer v)⟩
  forPid : ∀ current (param : IoctlParam) env, CopiesOut env → env.pidBuf ≠ 0 →
    env.copyFromUser = true → param.userPidBuf.pid.toInt = t.1.val →
    customIoctl s current IOCTL_VECTOR_FOR_PID param env = .ok ⟨s, 0, some (shownBuffer v)⟩

/-- The task sees a registered vector with the name. -/
def SeesNamed (s : State) (t : Pid) (name : List UInt8) : Prop :=
  ∃ v ∈ s.registry.vecList, cstr v.vectorName = cstr name ∧ Sees s t v

/-- An ioctl call. If it builds a chain, no registered vector has its address. -/
def NewChain (s : State) : Op → Prop
  | .ioctl _ request param env => Builds s request param env →
      headOf param.userBitmap env.node 0 vectorBranches ≠ 0 →
      headOf param.userBitmap env.node 0 vectorBranches ∉ addresses s.registry
  | _ => False

/-- Such a call by another task. -/
def NewChainByOther (t : Pid) (s : State) (op : Op) : Prop :=
  NewChain s op ∧ ∀ request param env, op ≠ .ioctl t request param env

section
variable {s : State} {t current : Pid} {request : UInt32} {param : IoctlParam} {env : Env}
  {result : IoctlResult} {v : StructVector} {name : List UInt8}

/-! ## Showing -/

theorem showMyVector_found (hnamed : WellNamed v)
    (hv : s.registry.lookup (.address v.overriddenSyscallsAddress) = some v)
    (h0 : v.overriddenSyscallsAddress ≠ 0) :
    (showMyVector s.registry (zeroed bufLen) v.overriddenSyscallsAddress).1 = shownBuffer v := by
  have hsearch : s.registry.vecList.find? (addressIs v.overriddenSyscallsAddress) = some v := hv
  have hentry := entry_zeroed [] v bufLen
  simp only [List.nil_append, List.length_nil] at hentry
  rw [showMyVector, if_neg h0, hsearch]
  dsimp only
  rw [hentry, entryText_lines hnamed]
  rfl

theorem length_shownBuffer (hnamed : WellNamed v) : (shownBuffer v).length = bufLen := by
  have hsize := length_entryText hnamed
  have hle : entrySize v.overfuncsBitmap ≤ bufLen := by
    rw [entrySize, bufLen]
    split
    · decide
    · split
      · decide
      · split <;> decide
  rw [entryText_lines hnamed] at hsize
  rw [shownBuffer, List.length_append, length_zeroed, hsize]
  omega

theorem copyOut_shown (hnamed : WellNamed v) (hout : CopiesOut env) :
    copyOut (getModule s .ioctlModule) (shownBuffer v) env =
      .ok ⟨s, 0, some (shownBuffer v)⟩ := by
  have htake : (shownBuffer v).take bufLen = shownBuffer v :=
    List.take_of_length_le (length_shownBuffer hnamed).le
  rw [copyOut_eq, hout.copied, if_neg (by decide), htake]

/-- `find_vpid` finds a task under its own number. -/
theorem findVpid_pid {pid : Int32} (h : pid.toInt = t.1.val) : findVpid pid = some t := by
  have hpos : 0 < pid.toInt := by
    have := Nat.pos_of_ne_zero t.2
    omega
  rw [findVpid, dif_pos hpos]
  congr 1
  apply Subtype.ext
  apply Fin.ext
  change pid.toInt.toNat = t.1.val
  omega

/-- A task that holds a vector sees it, if it is the only one with its chain. -/
theorem Holds.sees (hnamed : Named s.registry) (hdistinct : DistinctAddresses s.registry)
    (h : Holds s t v) (h0 : v.overriddenSyscallsAddress ≠ 0) : Sees s t v := by
  have hv : s.registry.lookup (.address v.overriddenSyscallsAddress) = some v := by
    refine find?_eq_of_unique h.registered (beq_self_eq_true _) fun w hw hmatch => ?_
    have he : v.overriddenSyscallsAddress = w.overriddenSyscallsAddress := beq_iff_eq.mp hmatch
    exact hdistinct.eq_of_address h.registered hw h0 he.symm
  have hwell := hnamed v h.registered
  have hshow : (showMyVector (getModule s .ioctlModule).registry (zeroed bufLen)
      v.overriddenSyscallsAddress).1 = shownBuffer v :=
    showMyVector_found (s := getModule s .ioctlModule) hwell hv h0
  constructor
  case mine =>
    intro param env hout
    have hinfo : (getModule s .ioctlModule).vectorInfo t = v.overriddenSyscallsAddress :=
      State.vectorInfo_of_live h.held
    rw [customIoctl_showMineRequest hout.buf]
    change copyOut (getModule s .ioctlModule) (showMyVector (getModule s .ioctlModule).registry
      (zeroed bufLen) ((getModule s .ioctlModule).vectorInfo t)).1 env = _
    rw [hinfo, hshow, copyOut_shown hwell hout]
  case forPid =>
    intro current param env hout hpidBuf hcopy hpid
    have htask : (findVpid param.userPidBuf.pid).bind s.tasks =
        some v.overriddenSyscallsAddress := by
      rw [findVpid_pid hpid]
      exact h.held
    rw [customIoctl_pidRequest hout.buf, ioctlVectorForPid, if_neg hpidBuf,
      if_neg (by simp [hcopy])]
    dsimp only
    rw [htask]
    change copyOut (getModule s .ioctlModule) (showMyVector (getModule s .ioctlModule).registry
      (zeroed bufLen) v.overriddenSyscallsAddress).1 env = _
    rw [hshow, copyOut_shown hwell hout]

/-! ## Setting -/

/-- A name that does not reach the kernel is an error. -/
theorem set_unread_err (hread : ¬NameRead env)
    (h : customIoctl s t IOCTL_SET param env = .ok result) : result.err ≠ 0 := by
  have henomem : errno ENOMEM ≠ 0 := by decide
  have heinval : errno EINVAL ≠ 0 := by decide
  by_cases hbuf : env.buf = 0
  · rw [customIoctl_noBuffer hbuf] at h
    cases h
    exact henomem
  · rw [customIoctl_setRequest hbuf, ioctlSet] at h
    by_cases hname : env.vectorName = 0
    · rw [if_pos hname] at h
      cases h
      exact henomem
    · rw [if_neg hname] at h
      by_cases hbad : isErr env.vectorName = true
      · rw [if_pos hbad] at h
        cases h
        have hneg : (ptrErr env.vectorName).toInt64 < 0 := (toInt64_neg_iff _).mpr (ptrErr_neg hbad)
        intro h0
        change (ptrErr env.vectorName).toInt64 = 0 at h0
        rw [h0] at hneg
        exact absurd hneg (by decide)
      · rw [if_neg hbad] at h
        have hcopy : env.copyFromUser = false := by
          by_contra hcopied
          exact hread ⟨hbuf, hname, by simpa using hbad, by simpa using hcopied⟩
        dsimp only at h
        rw [if_pos (by simp [hcopy])] at h
        cases h
        exact heinval

/-- A set that returns 0 has found a vector with a chain. -/
theorem set_zero (hplain : PlainNames s.registry)
    (h : customIoctl s t IOCTL_SET param env = .ok result) (herr : result.err = 0) :
    ∃ v, s.registry.lookup (nameKey param) = some v ∧ v.overriddenSyscallsAddress ≠ 0 ∧
      result.state = ({ s with registry := s.registry.adjust (nameKey param) 1 } :
        State).setVectorInfo t v.overriddenSyscallsAddress := by
  have heinval : errno EINVAL ≠ 0 := by decide
  have hread : NameRead env := by
    by_contra hread
    exact set_unread_err hread h herr
  cases hv : s.registry.lookup (nameKey param) with
  | none =>
    rw [customIoctl_set hread, hv] at h
    cases h
    exact absurd herr heinval
  | some v =>
    by_cases h0 : v.overriddenSyscallsAddress = 0
    · rw [customIoctl_set hread, hv] at h
      dsimp only at h
      rw [if_pos h0] at h
      cases h
      exact absurd herr heinval
    · rw [customIoctl_set_found hplain hread hv h0] at h
      cases h
      exact ⟨v, rfl, h0, rfl⟩

/-! ## The invariant -/

/-- The task holds the chain of a vector with the name, and of no other vector. -/
structure HoldsNamed (s : State) (t : Pid) (name : List UInt8) : Prop where
  idle : Idle s
  distinct : DistinctAddresses s.registry
  held : ∃ v, Holds s t v ∧ v.overriddenSyscallsAddress ≠ 0 ∧ cstr v.vectorName = cstr name

theorem HoldsNamed.seesNamed (h : HoldsNamed s t name) : SeesNamed s t name := by
  obtain ⟨v, hv, h0, hname⟩ := h.held
  exact ⟨v, hv.registered, hname, hv.sees h.idle.named h.distinct h0⟩

theorem effect_distinct_new (hidle : Idle s) (hs : DistinctAddresses s.registry)
    (hnew : NewChain s (.ioctl current request param env))
    (h : IoctlEffect s current request param env result) :
    DistinctAddresses result.state.registry := by
  cases h with
  | unchanged => exact hs
  | setNull | set => exact hs.adjust _ 1
  | removeDeficit | remove => exact hs.adjust _ (-1)
  | create hreq hread hvalid hcreate =>
    refine createOutcome_distinct hs (fun b ret hfound htemp hpre hadd => ?_) hcreate
    have hhead := addBranches_listHead hadd
    rw [hidle.listHead, if_pos rfl] at hhead
    rw [hhead]
    exact hnew ⟨hreq, hread, hvalid, hfound, htemp, hpre⟩

/-- A change of counts leaves an entry with the same chain and name. -/
theorem exists_mem_adjust {r : Registry} (hv : v ∈ r.vecList) (k : Key) (d : Int) :
    ∃ w ∈ (r.adjust k d).vecList, w.overriddenSyscallsAddress = v.overriddenSyscallsAddress ∧
      w.vectorName = v.vectorName := by
  have hmem := List.mem_map_of_mem
    (f := fun u => (u.overriddenSyscallsAddress, u.vectorName)) hv
  rw [← adjust_map r k d (fun u => (u.overriddenSyscallsAddress, u.vectorName)) fun _ => rfl]
    at hmem
  obtain ⟨w, hw, he⟩ := List.mem_map.mp hmem
  exact ⟨w, hw, congrArg Prod.fst he, congrArg Prod.snd he⟩

theorem exists_mem_registered {r : Registry} (hv : v ∈ r.vecList) (bitmap : UInt32)
    (a va : Address) :
    ∃ w ∈ (registered r bitmap a va).vecList,
      w.overriddenSyscallsAddress = v.overriddenSyscallsAddress ∧ w.vectorName = v.vectorName := by
  obtain ⟨w, hw, hsame⟩ := exists_mem_adjust hv (.bitmap bitmap) 1
  rw [registered]
  split
  · exact ⟨w, List.mem_cons_of_mem _ hw, hsame⟩
  · exact ⟨w, hw, hsame⟩

/-- What another task does to the registry and to the pointer of this one. -/
theorem effect_other (hne : current ≠ t) (hv : v ∈ s.registry.vecList)
    (h : IoctlEffect s current request param env result) :
    result.state.tasks t = s.tasks t ∧ ∃ w ∈ result.state.registry.vecList,
      w.overriddenSyscallsAddress = v.overriddenSyscallsAddress ∧ w.vectorName = v.vectorName := by
  have hpointer (a : Address) : (s.setVectorInfo current a).tasks t = s.tasks t :=
    Function.update_of_ne (Ne.symm hne) ..
  cases h with
  | unchanged => exact ⟨rfl, v, hv, rfl, rfl⟩
  | setNull => exact ⟨rfl, exists_mem_adjust hv _ 1⟩
  | set => exact ⟨hpointer _, exists_mem_adjust hv _ 1⟩
  | removeDeficit => exact ⟨rfl, exists_mem_adjust hv _ (-1)⟩
  | remove => exact ⟨hpointer _, exists_mem_adjust hv _ (-1)⟩
  | create _ _ _ hcreate =>
    cases hcreate with
    | reuse => exact ⟨hpointer _, exists_mem_adjust hv _ 1⟩
    | abandon => exact ⟨rfl, exists_mem_adjust hv _ 1⟩
    | build => exact ⟨hpointer _, exists_mem_registered hv _ _ _⟩

theorem step_holdsNamed {u : State} {op : Op} (hs : HoldsNamed s t name)
    (hg : NewChainByOther t s op) (h : step s op = some u) : HoldsNamed u t name := by
  have hidle := step_idle hs.idle h
  cases op with
  | ioctl current request param env =>
    obtain ⟨-, -, result, hcall, rfl⟩ := step_ioctl h
    have heffect := customIoctl_cases hs.idle.named.plain hcall
    have hne : current ≠ t := by
      rintro rfl
      exact hg.2 request param env rfl
    obtain ⟨v, hv, h0, hname⟩ := hs.held
    obtain ⟨htask, w, hw, haddress, hsame⟩ := effect_other hne hv.registered heffect
    refine ⟨hidle, effect_distinct_new hs.idle hs.distinct hg.1 heffect, w, ⟨hw, ?_⟩, ?_, ?_⟩
    · rw [htask, hv.held, haddress]
    · rw [haddress]
      exact h0
    · rw [hsame, hname]
  | copyProcess | exit | call | unregister | rmmod => exact hg.1.elim

/-- Along a run of such calls no two vectors share a chain. -/
theorem run_distinct_new {boot : State} (hboot : Booted boot) (hrun : Run step NewChain boot s) :
    Idle s ∧ DistinctAddresses s.registry := by
  refine ioctlRun_invariant (fun s => DistinctAddresses s.registry) hboot (booted_distinct hboot)
    (fun _ op h => ?_) (fun s current request param env result hidle hs hg _ heffect => ?_) hrun
  · cases op with
    | ioctl => trivial
    | copyProcess | exit | call | unregister | rmmod => exact h
  · exact effect_distinct_new hidle hs hg heffect

/-- A set that returns 0 makes the caller hold a vector with the name, unless the length of
the name has wrapped. -/
theorem set_holdsNamed (hidle : Idle s) (hdistinct : DistinctAddresses s.registry)
    (hlive : ∃ a, s.tasks t = some a)
    (h : customIoctl s t IOCTL_SET param env = .ok result) (herr : result.err = 0)
    (hlength : strlen param.userVectorName < 2 ^ 32) :
    HoldsNamed result.state t param.userVectorName := by
  obtain ⟨v, hv, h0, hstate⟩ := set_zero hidle.named.plain h herr
  obtain ⟨w, hw, haddress, hsame⟩ := exists_mem_adjust (lookup_mem hv) (nameKey param) 1
  obtain ⟨a, ha⟩ := hlive
  have hmatch : strcmp (copyVectorName param.userVectorName) v.vectorName = 0 := by
    simpa [Key.isMatch] using lookup_isMatch hv
  rw [strcmp_eq_zero_iff, cstr_copyVectorName hlength] at hmatch
  have hheld : (({ s with registry := s.registry.adjust (nameKey param) 1 } :
      State).setVectorInfo t v.overriddenSyscallsAddress).tasks t =
        some v.overriddenSyscallsAddress := by
    change Function.update s.tasks t ((s.tasks t).map fun _ => v.overriddenSyscallsAddress) t = _
    rw [Function.update_self, ha, Option.map_some]
  rw [hstate]
  refine ⟨⟨hidle.named.adjust _ 1, hidle.listHead⟩, hdistinct.adjust _ 1, w, ⟨hw, ?_⟩, ?_, ?_⟩
  · rw [hheld, haddress]
  · rw [haddress]
    exact h0
  · rw [hsame, hmatch]

/-- No registered vector has a name that long. -/
theorem SeesNamed.strlen_lt (h : SeesNamed s t name) : strlen name < 2 ^ 32 := by
  obtain ⟨v, -, hname, -⟩ := h
  have hle := v.strlen_vectorName_le
  rw [strlen, hname] at hle
  exact hle.trans_lt (by decide)

/-- A task that has set a vector sees a vector with that name, now and whatever other tasks
do next, if and only if the length of the name fits the `unsigned int` that it is kept in. -/
theorem set_vector_seen_iff {boot : State} (hboot : Booted boot)
    (hrun : Run step NewChain boot s) (hlive : ∃ a, s.tasks t = some a)
    (h : customIoctl s t IOCTL_SET param env = .ok result) (herr : result.err = 0) :
    (∀ u, Run step (NewChainByOther t) result.state u → SeesNamed u t param.userVectorName) ↔
      strlen param.userVectorName < 2 ^ 32 := by
  obtain ⟨hidle, hdistinct⟩ := run_distinct_new hboot hrun
  constructor
  · exact fun hsees => (hsees _ .refl).strlen_lt
  · intro hlength u hlater
    have hset := set_holdsNamed hidle hdistinct hlive h herr hlength
    exact (hlater.invariant (fun u => HoldsNamed u t param.userVectorName)
      (fun _ _ _ hs hg hstep => step_holdsNamed hs hg hstep) hset).seesNamed

end

/-- Task 1 sets `Vector55` right after boot, and nothing comes after it. -/
theorem set_vector_seen_boot :
    ∃ result, customIoctl sampleBoot task1 IOCTL_SET (nameParam vector1Name) (sampleEnv 12288) =
        .ok result ∧ SeesNamed result.state task1 vector1Name := by
  obtain ⟨result, hcall, herr⟩ : ∃ result, customIoctl sampleBoot task1 IOCTL_SET
      (nameParam vector1Name) (sampleEnv 12288) = .ok result ∧ result.err = 0 := ⟨_, rfl, rfl⟩
  have hlive : ∃ a, sampleBoot.tasks task1 = some a := ⟨_, rfl⟩
  refine ⟨result, hcall, ?_⟩
  exact (set_vector_seen_iff booted_sampleBoot .refl hlive hcall herr).mpr (by decide) _ .refl

/-! ## A name whose length wraps -/

theorem copyVectorName_wrapped {name rest : List UInt8} (hnul : (0 : UInt8) ∉ name ++ rest)
    (hrest : rest.length = 2 ^ 32) (hname : name.length < 2 ^ 32) :
    copyVectorName (name ++ rest) = name := by
  have hlength : strlen (name ++ rest) = name.length + 2 ^ 32 := by
    rw [strlen, cstr_eq_self hnul, List.length_append, hrest]
  have hwrap : (UInt32.ofNat (strlen (name ++ rest))).toNat = name.length := by
    rw [hlength, UInt32.toNat_ofNat', Nat.add_mod_right, Nat.mod_eq_of_lt hname]
  change (name ++ rest).take (UInt32.ofNat (strlen (name ++ rest))).toNat = name
  rw [hwrap, List.take_left]

/-- `Vector55` with 2^32 bytes behind it. -/
def wrappedName : List UInt8 := vector1Name ++ List.replicate (2 ^ 32) 120

theorem nul_not_mem_wrappedName : (0 : UInt8) ∉ wrappedName := by
  rw [wrappedName, List.mem_append, not_or]
  refine ⟨by decide, fun hmem => ?_⟩
  exact absurd (List.eq_of_mem_replicate hmem) (by decide)

/-- A task that sets a name of that length is told 0 and sees `Vector55`. -/
theorem set_vector_unseen :
    ¬∀ boot s t param env result, Booted boot → Run step NewChain boot s →
      (∃ a, s.tasks t = some a) → customIoctl s t IOCTL_SET param env = .ok result →
      result.err = 0 → SeesNamed result.state t param.userVectorName := by
  intro hall
  have hkey : copyVectorName wrappedName = vector1Name :=
    copyVectorName_wrapped nul_not_mem_wrappedName List.length_replicate (by decide)
  have hnamed := booted_named booted_sampleBoot
  obtain ⟨v, hv, h0⟩ : ∃ v, sampleBoot.registry.lookup (.name vector1Name) = some v ∧
      v.overriddenSyscallsAddress ≠ 0 := ⟨_, rfl, by decide⟩
  have hfound : sampleBoot.registry.lookup (nameKey (nameParam wrappedName)) = some v := by
    change sampleBoot.registry.lookup (.name (copyVectorName wrappedName)) = some v
    rw [hkey]
    exact hv
  have hcall : customIoctl sampleBoot task1 IOCTL_SET (nameParam wrappedName) (sampleEnv 12288) =
      _ := customIoctl_set_found hnamed.plain nameRead_sampleEnv hfound h0
  have hsees := hall sampleBoot sampleBoot task1 (nameParam wrappedName) (sampleEnv 12288) _
    booted_sampleBoot .refl ⟨_, rfl⟩ hcall rfl
  have hlt : strlen wrappedName < 2 ^ 32 := hsees.strlen_lt
  rw [strlen, cstr_eq_self nul_not_mem_wrappedName, wrappedName, List.length_append,
    List.length_replicate] at hlt
  omega

end SyscallVector.Audit
