import SyscallVector.Audit.Boot

/-!
# The order of acquisitions and releases

Six functions search the list by three kinds of key and move the counts of the
first match. No such change touches what any key looks at, so a call resolves to
the same entry whatever calls came before it, and any two calls commute.
-/
namespace SyscallVector.Audit

set_option autoImplicit false

open Lib Model

/-! ## Calls as moves of counts -/

/-- What a call searches for. -/
def callKey : Call → Key
  | .getVectorAddress n | .reduceRefCount n => .name n
  | .getVectorAddressFromId b | .checkAnyCurrentVector b => .bitmap b
  | .incrementRefCountFromAddress a | .reduceRefCountFromAddress a => .address a

/-- The calls that take a reference; the others drop one. -/
def acquires : Call → Bool
  | .reduceRefCount _ | .reduceRefCountFromAddress _ => false
  | _ => true

def callDelta (c : Call) : Int := if acquires c then 1 else -1

theorem exec_fst (r : Registry) (c : Call) : (c.exec r).1 = r.adjust (callKey c) (callDelta c) := by
  cases c <;> rfl

/-- The registry after a list of calls. -/
def runCalls (r : Registry) (cs : List Call) : Registry := cs.foldl (fun r c => (c.exec r).1) r

/-- The calls of a list with the results that they return. -/
def callTrace (r : Registry) : List Call → List (Call × CallResult)
  | [] => []
  | c :: cs => (c, (c.exec r).2) :: callTrace (c.exec r).1 cs

/-! ## Two calls -/

section
variable (r : Registry) (k k' : Key) (d d' : Int)

theorem lookup_adjust_module :
    ((r.adjust k d).lookup k').map StructVector.vectorModule =
      (r.lookup k').map StructVector.vectorModule :=
  lookup_adjust_map r k k' d StructVector.vectorModule fun _ => rfl

theorem adjust_comm : (r.adjust k d).adjust k' d' = (r.adjust k' d').adjust k d := by
  have hlist : ((r.adjust k d).adjust k' d').vecList = ((r.adjust k' d').adjust k d).vecList := by
    simp only [adjust_vecList]
    exact updateFirst_comm (fun v => Key.isMatch_addRef k' d v) (fun v => Key.isMatch_addRef k d' v)
      (fun v => StructVector.addRef_comm d d' v) r.vecList
  have hrefs : ((r.adjust k d).adjust k' d').moduleRefs =
      ((r.adjust k' d').adjust k d).moduleRefs := by
    funext m
    simp only [adjust_moduleRefs, lookup_adjust_module]
    omega
  cases h₁ : (r.adjust k d).adjust k' d'
  cases h₂ : (r.adjust k' d').adjust k d
  rw [h₁, h₂] at hlist hrefs
  rw [Registry.mk.injEq]
  exact ⟨hlist, hrefs⟩

theorem adjust_findIdx? :
    (r.adjust k d).vecList.findIdx? k'.isMatch = r.vecList.findIdx? k'.isMatch := by
  rw [adjust_vecList]
  exact findIdx?_updateFirst (fun v => Key.isMatch_addRef k' d v) r.vecList

theorem adjust_getElem? (i : Nat) :
    (r.adjust k d).vecList[i]? =
      r.vecList[i]?.map (StructVector.addRef
        (if r.vecList.findIdx? k.isMatch = some i then d else 0)) := by
  have hzero : StructVector.addRef 0 = id := by
    funext v
    simp [StructVector.addRef]
  rw [adjust_vecList, getElem?_updateFirst]
  split
  · rfl
  · rw [hzero, Option.map_id, id]

end

theorem exec_comm (r : Registry) (c c' : Call) :
    (c'.exec (c.exec r).1).1 = (c.exec (c'.exec r).1).1 := by
  simp only [exec_fst]
  exact adjust_comm ..

/-- An acquiring call reads nothing that another call writes. -/
theorem exec_snd_of_acquires (r : Registry) (c c' : Call) (hc : acquires c = true) :
    (c.exec (c'.exec r).1).2 = (c.exec r).2 := by
  rw [exec_fst]
  have haddr := lookup_adjust_map r (callKey c') (callKey c) (callDelta c')
    StructVector.overriddenSyscallsAddress fun _ => rfl
  cases hr : r.lookup (callKey c) <;>
    cases hr' : (r.adjust (callKey c') (callDelta c')).lookup (callKey c) <;>
      rw [hr, hr'] at haddr <;> cases c <;> simp_all [Call.exec, getVectorAddress,
        getVectorAddressFromId, checkAnyCurrentVector, incrementRefCountFromAddress,
        Registry.acquire, callKey, acquires]

/-! ## Lists of calls -/

theorem runCalls_cons (r : Registry) (c : Call) (cs : List Call) :
    runCalls r (c :: cs) = runCalls (r.adjust (callKey c) (callDelta c)) cs := by
  rw [← exec_fst]
  rfl

theorem runCalls_perm (r : Registry) {cs cs' : List Call} (h : cs.Perm cs') :
    runCalls r cs = runCalls r cs' :=
  h.foldl_eq' (fun c _ c' _ r => exec_comm r c c') r

theorem callTrace_acquires (r : Registry) (cs : List Call) :
    ∀ e ∈ callTrace r cs, acquires e.1 = true → e.2 = (e.1.exec r).2 := by
  induction cs generalizing r with
  | nil => simp [callTrace]
  | cons c cs ih =>
    intro e he hacq
    rcases List.mem_cons.mp he with rfl | he
    · rfl
    · exact (ih (c.exec r).1 e he hacq).trans (exec_snd_of_acquires r e.1 c hacq)

/-- A call resolves to the entry at this index. -/
def resolvesTo (r : Registry) (i : Nat) (c : Call) : Bool :=
  r.vecList.findIdx? (callKey c).isMatch == some i

/-- A call resolves to an entry of this module. -/
def resolvesIn (r : Registry) (m : Module) (c : Call) : Bool :=
  (r.lookup (callKey c)).map StructVector.vectorModule == some m

/-- The acquisitions among the calls that `p` accepts, less the releases among them. -/
def netCalls (p : Call → Bool) (cs : List Call) : Int :=
  cs.countP (fun c => p c && acquires c) - cs.countP (fun c => p c && !acquires c)

theorem netCalls_cons (p : Call → Bool) (c : Call) (cs : List Call) :
    netCalls p (c :: cs) = (if p c then callDelta c else 0) + netCalls p cs := by
  simp only [netCalls, callDelta, List.countP_cons]
  cases p c <;> cases acquires c <;> simp <;> omega

theorem netCalls_resolvesTo_adjust (r : Registry) (k : Key) (d : Int) (i : Nat) (cs : List Call) :
    netCalls (resolvesTo (r.adjust k d) i) cs = netCalls (resolvesTo r i) cs := by
  have h : resolvesTo (r.adjust k d) i = resolvesTo r i := by
    funext c
    rw [resolvesTo, resolvesTo, adjust_findIdx?]
  rw [h]

theorem netCalls_resolvesIn_adjust (r : Registry) (k : Key) (d : Int) (m : Module)
    (cs : List Call) :
    netCalls (resolvesIn (r.adjust k d) m) cs = netCalls (resolvesIn r m) cs := by
  have h : resolvesIn (r.adjust k d) m = resolvesIn r m := by
    funext c
    rw [resolvesIn, resolvesIn, lookup_adjust_module]
  rw [h]

/-- Each entry keeps its place and its fields; its count moves by the calls that
resolve to it. -/
theorem runCalls_getElem? (r : Registry) (cs : List Call) (i : Nat) :
    (runCalls r cs).vecList[i]? =
      r.vecList[i]?.map (StructVector.addRef (netCalls (resolvesTo r i) cs)) := by
  induction cs generalizing r with
  | nil =>
    have hzero : StructVector.addRef 0 = id := by
      funext v
      simp [StructVector.addRef]
    rw [show netCalls (resolvesTo r i) [] = 0 from rfl, hzero, Option.map_id, id]
    rfl
  | cons c cs ih =>
    rw [runCalls_cons, ih, adjust_getElem?, netCalls_resolvesTo_adjust, netCalls_cons,
      Option.map_map]
    congr 1
    funext v
    rw [Function.comp, StructVector.addRef_addRef]
    simp only [resolvesTo, beq_iff_eq]

theorem runCalls_moduleRefs (r : Registry) (cs : List Call) (m : Module) :
    (runCalls r cs).moduleRefs m = r.moduleRefs m + netCalls (resolvesIn r m) cs := by
  induction cs generalizing r with
  | nil => rw [show netCalls (resolvesIn r m) [] = 0 from rfl, Int.add_zero]; rfl
  | cons c cs ih =>
    rw [runCalls_cons, ih, adjust_moduleRefs, netCalls_resolvesIn_adjust, netCalls_cons]
    simp only [resolvesIn, beq_iff_eq]
    omega

/-- Every order of a list of calls ends in the same registry, gives every acquiring
call the result it has at the start, and moves the count of each entry, and of each
module, by the acquisitions less the releases that resolve to it. -/
theorem calls_order_independent (r : Registry) :
    ∀ cs cs' : List Call, cs.Perm cs' →
      runCalls r cs' = runCalls r cs ∧
      (∀ e ∈ callTrace r cs', acquires e.1 = true → e.2 = (e.1.exec r).2) ∧
      (∀ i : Nat, (runCalls r cs').vecList[i]? = r.vecList[i]?.map fun v : StructVector =>
        { v with refcount := v.refcount + Int32.ofInt (netCalls (resolvesTo r i) cs) }) ∧
      ∀ m, (runCalls r cs').moduleRefs m = r.moduleRefs m + netCalls (resolvesIn r m) cs := by
  intro cs cs' hperm
  have hrun : runCalls r cs' = runCalls r cs := (runCalls_perm r hperm).symm
  refine ⟨hrun, callTrace_acquires r cs', fun i => ?_, fun m => ?_⟩
  · rw [hrun]
    exact runCalls_getElem? r cs i
  · rw [hrun]
    exact runCalls_moduleRefs r cs m

/-- A release by address before or after two acquisitions of the same vector. -/
theorem calls_order_independent_boot :
    runCalls sampleBoot.registry [.reduceRefCountFromAddress 4096, .getVectorAddress vector1Name,
        .checkAnyCurrentVector 55] =
      runCalls sampleBoot.registry [.getVectorAddress vector1Name, .checkAnyCurrentVector 55,
        .reduceRefCountFromAddress 4096] ∧
    (runCalls sampleBoot.registry [.getVectorAddress vector1Name, .checkAnyCurrentVector 55,
        .reduceRefCountFromAddress 4096]).moduleRefs .vector1 = 1 := by
  have hperm : [Call.getVectorAddress vector1Name, .checkAnyCurrentVector 55,
      .reduceRefCountFromAddress 4096].Perm [.reduceRefCountFromAddress 4096,
        .getVectorAddress vector1Name, .checkAnyCurrentVector 55] := by decide
  exact ⟨(calls_order_independent sampleBoot.registry _ _ hperm).1, by decide⟩

end SyscallVector.Audit
