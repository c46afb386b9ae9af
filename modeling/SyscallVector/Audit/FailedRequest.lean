import SyscallVector.Audit.IoctlRuns

/-!
# Requests that fail

A negative result should mean that nothing happened. `LeaksOnFailure` lists the
requests for which it does not: a count was moved before the code found out that
it could not go on, or the request succeeded and its address was read as a
negative `int`.
-/
namespace SyscallVector.Audit

set_option autoImplicit false

open Lib Model

/-- The registered vectors with their counts, the counts of the modules and the
pointers of the tasks are the same. -/
structure Unchanged (s t : State) : Prop where
  vectors : t.registry.vecList = s.registry.vecList
  modules : ∀ m, t.registry.moduleRefs m = s.registry.moduleRefs m
  tasks : t.tasks = s.tasks

theorem Unchanged.refl (s : State) : Unchanged s s := ⟨rfl, fun _ => rfl, rfl⟩

/-- The chain that a creation gives to its caller: that of a vector with the bitmap,
or else the one that it allocates. -/
def grantedChain (s : State) (bitmap : UInt32) (env : Env) : Address :=
  if foundChain s bitmap ≠ 0 then foundChain s bitmap
  else if env.temp = 0 ∨ env.vectorPrefix = 0 then 0
  else headOf bitmap env.node 0 vectorBranches

/-- The requests that return a negative number and have changed something. -/
inductive LeaksOnFailure (s : State) (request : UInt32) (param : IoctlParam) (env : Env) : Prop
  | setNull {v : StructVector} : request = IOCTL_SET → NameRead env →
      s.registry.lookup (nameKey param) = some v → v.overriddenSyscallsAddress = 0 →
      LeaksOnFailure s request param env
  | removeUnused {v : StructVector} : request = IOCTL_REMOVE → NameRead env →
      s.registry.lookup (nameKey param) = some v → Int32.minValue < v.refcount → v.refcount ≤ 0 →
      LeaksOnFailure s request param env
  | createNegative : request = IOCTL_CREATE_FROM_BITMAP → BitmapRead env →
      validateBitmap param.userBitmap = 0 → toInt32 (grantedChain s param.userBitmap env) < 0 →
      LeaksOnFailure s request param env

/-! ## Signs -/

theorem toInt64_neg_iff (x : Int32) : x.toInt64 < 0 ↔ x < 0 := by
  rw [Int64.lt_iff_toInt_lt, Int32.lt_iff_toInt_lt, Int32.toInt_toInt64]
  exact Iff.rfl

/-! ## What a creation returns and changes -/

section
variable {s t : State} {current : Pid} {bitmap : UInt32} {env : Env} {err : Int32}

theorem createOutcome_err (hhead : s.listHead .dynamicVector = 0)
    (h : CreateOutcome s current bitmap env t err) : err = toInt32 (grantedChain s bitmap env) := by
  rw [grantedChain]
  cases h with
  | reuse hv ha =>
    rw [foundChain_some hv, if_pos ha]
  | abandon hfound hfail =>
    have hor : env.temp = 0 ∨ env.vectorPrefix = 0 := hfail.imp And.left And.left
    rw [if_neg (not_not_intro hfound), if_pos hor]
    rfl
  | build hfound htemp hpre hadd =>
    have hnor : ¬(env.temp = 0 ∨ env.vectorPrefix = 0) := by simp [htemp, hpre]
    rw [if_neg (not_not_intro hfound), if_neg hnor, addBranches_listHead hadd, if_pos hhead]

/-- A change of counts shows in the count of a module. -/
theorem adjust_changes {r : Registry} {k : Key} {d : Int} {v : StructVector}
    (hv : r.lookup k = some v) (hd : d ≠ 0) :
    (r.adjust k d).moduleRefs v.vectorModule ≠ r.moduleRefs v.vectorModule := by
  rw [adjust_moduleRefs, hv, Option.map_some, if_pos rfl]
  omega

theorem registered_changes (r : Registry) (bitmap : UInt32) (a va : Address) :
    (registered r bitmap a va).moduleRefs .dynamicVector ≠ r.moduleRefs .dynamicVector := by
  have hrefs : (registered r bitmap a va).moduleRefs .dynamicVector =
      (r.adjust (.bitmap bitmap) 1).moduleRefs .dynamicVector + 1 := by
    have hget := tryModuleGet_moduleRefs (r.adjust (.bitmap bitmap) 1) .dynamicVector .dynamicVector
    rw [if_pos rfl] at hget
    rw [← hget, registered]
    split <;> rfl
  rw [hrefs, adjust_moduleRefs]
  split <;> omega

/-- A creation that grants a chain has changed a count. -/
theorem createOutcome_changes (hgrant : grantedChain s bitmap env ≠ 0)
    (h : CreateOutcome s current bitmap env t err) : ¬Unchanged s t := by
  intro hsame
  cases h with
  | reuse hv _ => exact adjust_changes hv (by decide) (hsame.modules _)
  | abandon hfound hfail =>
    have hor : env.temp = 0 ∨ env.vectorPrefix = 0 := hfail.imp And.left And.left
    rw [grantedChain, if_neg (not_not_intro hfound), if_pos hor] at hgrant
    exact hgrant rfl
  | build => exact registered_changes _ _ _ _ (hsame.modules _)

end

/-! ## The requests that change something and fail -/

section
variable {s : State} {request : UInt32} {param : IoctlParam} {env : Env}

theorem leaksOnFailure_leaks (current : Pid) (hidle : Idle s) (hfresh : FreshNodes s.heap env.node)
    (h : LeaksOnFailure s request param env) :
    ∃ result, customIoctl s current request param env = .ok result ∧ result.err < 0 ∧
      ¬Unchanged s result.state := by
  cases h with
  | setNull hreq hread hv ha =>
    subst hreq
    refine ⟨⟨{ s with registry := s.registry.adjust (nameKey param) 1 }, errno EINVAL, none⟩,
      ?_, (by decide : errno EINVAL < 0), fun hsame =>
        adjust_changes hv (by decide) (hsame.modules _)⟩
    rw [customIoctl_set hread, hv]
    dsimp only
    rw [if_pos ha]
    rfl
  | removeUnused hreq hread hv hlo hhi =>
    subst hreq
    refine ⟨⟨{ s with registry := s.registry.adjust (nameKey param) (-1) }, errno EINVAL, none⟩,
      ?_, (by decide : errno EINVAL < 0), fun hsame =>
        adjust_changes hv (by decide) (hsame.modules _)⟩
    rw [customIoctl_remove hread, hv]
    dsimp only
    rw [if_pos ((addRef_neg_iff _).mpr ⟨hlo, hhi⟩)]
    rfl
  | createNegative hreq hread hvalid hneg =>
    subst hreq
    obtain ⟨t, err, hcall, houtcome⟩ :=
      customIoctl_create_returns current hidle.listHead hfresh hread hvalid
    have herr := createOutcome_err hidle.listHead houtcome
    refine ⟨_, hcall, (toInt64_neg_iff err).mpr (herr ▸ hneg), createOutcome_changes ?_ houtcome⟩
    intro hzero
    rw [hzero] at hneg
    exact absurd hneg (by decide)

theorem failed_unchanged {current : Pid} (hidle : Idle s)
    (hleak : ¬LeaksOnFailure s request param env) {result : IoctlResult}
    (h : customIoctl s current request param env = .ok result) (hneg : result.err < 0) :
    Unchanged s result.state := by
  cases customIoctl_cases hidle.named.plain h with
  | unchanged => exact Unchanged.refl s
  | setNull hreq hread hv ha => exact absurd (.setNull hreq hread hv ha) hleak
  | set => exact absurd hneg (by decide : ¬(0 : Int64) < 0)
  | removeDeficit hreq hread hv hdeficit =>
    obtain ⟨hlo, hhi⟩ := (addRef_neg_iff _).mp hdeficit
    exact absurd (.removeUnused hreq hread hv hlo hhi) hleak
  | remove _ _ _ hnonneg => exact absurd ((toInt64_neg_iff _).mp hneg) hnonneg
  | create hreq hread hvalid houtcome =>
    have herr := createOutcome_err hidle.listHead houtcome
    rw [toInt64_neg_iff, herr] at hneg
    exact absurd (.createNegative hreq hread hvalid hneg) hleak

end

/-- A request that fails leaves everything as it was exactly when it is none of
those that `LeaksOnFailure` lists. -/
theorem failed_request_unchanged_iff {boot s : State} (hboot : Booted boot)
    (hrun : Run step (fun _ op => op.IsIoctl) boot s) (current : Pid) (request : UInt32)
    (param : IoctlParam) (env : Env) (hfresh : FreshNodes s.heap env.node) :
    (∀ result, customIoctl s current request param env = .ok result → result.err < 0 →
        Unchanged s result.state) ↔
      ¬LeaksOnFailure s request param env := by
  have hidle : Idle s := run_idle hboot hrun
  constructor
  · intro hall hleak
    obtain ⟨result, hcall, hneg, hchanged⟩ := leaksOnFailure_leaks current hidle hfresh hleak
    exact hchanged (hall result hcall hneg)
  · intro hleak result hcall hneg
    exact failed_unchanged hidle hleak hcall hneg

/-- Right after boot, a request to drop a vector that nobody holds fails and drops it. -/
theorem failed_request_changes :
    ¬∀ boot s current request param env result, Booted boot →
      Run step (fun _ op => op.IsIoctl) boot s → (∃ a, s.tasks current = some a) →
      FreshNodes s.heap env.node → customIoctl s current request param env = .ok result →
      result.err < 0 → Unchanged s result.state := by
  intro hall
  have hread : NameRead (sampleEnv 12288) := ⟨by decide, by decide, by decide, rfl⟩
  obtain ⟨v, hv, hcount⟩ : ∃ v, sampleBoot.registry.lookup (nameKey (nameParam vector1Name)) =
      some v ∧ v.refcount = 0 := ⟨_, rfl, rfl⟩
  have hleak : LeaksOnFailure sampleBoot IOCTL_REMOVE (nameParam vector1Name) (sampleEnv 12288) :=
    .removeUnused rfl hread hv (by rw [hcount]; decide) (by rw [hcount]; decide)
  obtain ⟨result, hcall, hneg, hchanged⟩ := leaksOnFailure_leaks task1
    (booted_idle booted_sampleBoot) freshNodes_sampleBoot hleak
  exact hchanged (hall sampleBoot sampleBoot task1 IOCTL_REMOVE (nameParam vector1Name)
    (sampleEnv 12288) result booted_sampleBoot .refl ⟨0, by decide⟩ freshNodes_sampleBoot hcall
    hneg)

/-- A request for a name that nobody registered fails and leaves everything as it was. -/
theorem failed_request_unknown_name :
    ∃ result, customIoctl sampleBoot task1 IOCTL_SET (nameParam []) (sampleEnv 12288) =
        .ok result ∧ result.err < 0 ∧ Unchanged sampleBoot result.state := by
  have hunknown : sampleBoot.registry.lookup (nameKey (nameParam [])) = none := by decide
  have hleak : ¬LeaksOnFailure sampleBoot IOCTL_SET (nameParam []) (sampleEnv 12288) := by
    intro h
    cases h with
    | setNull _ _ hv _ => rw [hunknown] at hv; cases hv
    | removeUnused hreq => exact absurd hreq (by decide)
    | createNegative hreq => exact absurd hreq (by decide)
  have hiff := failed_request_unchanged_iff booted_sampleBoot .refl task1 IOCTL_SET (nameParam [])
    (sampleEnv 12288) freshNodes_sampleBoot
  obtain ⟨result, hcall, hneg⟩ : ∃ result, customIoctl sampleBoot task1 IOCTL_SET (nameParam [])
      (sampleEnv 12288) = .ok result ∧ result.err < 0 := ⟨_, rfl, by decide⟩
  exact ⟨result, hcall, hneg, hiff.mpr hleak result hcall hneg⟩

end SyscallVector.Audit
