import SyscallVector.Audit.Boot
import SyscallVector.Audit.Atomicity
import SyscallVector.Model.Statements

/-!
# Functions that hold `list_lock`

Run alone, the statements of a function are the function. Each one of them searches, makes one
update of the list, and then moves the count of a module, which nobody else looks at. So
whatever other threads do between the statements, each function is atomic.
-/
namespace SyscallVector.Audit

set_option autoImplicit false

open Lib Model

/-! ## A function alone -/

section
variable {s : State} {i : Nat} {d : Int} {k : Key} {v : StructVector} {β γ : Type}

theorem run_listForEachEntry (stop : StructVector → Bool) (found : Nat → Prog State β)
    (missing : Prog State β) (s : State) {n : Nat}
    (hn : n = (s.registry.vecList.drop i).length) :
    (listForEachEntry stop found missing n i).run s =
      ((s.registry.vecList.drop i).findIdx? stop).elim (missing.run s)
        fun j => (found (i + j)).run s := by
  induction n generalizing i with
  | zero =>
    rw [List.eq_nil_of_length_eq_zero hn.symm]
    rfl
  | succ n ih =>
    cases hdrop : s.registry.vecList.drop i with
    | nil => simp [hdrop] at hn
    | cons v rest =>
      have hentry : s.registry.vecList[i]? = some v := by
        rw [← List.head?_drop, hdrop]
        rfl
      have hrest : s.registry.vecList.drop (i + 1) = rest := by
        rw [← List.tail_drop, hdrop]
        rfl
      have hlength : n = (s.registry.vecList.drop (i + 1)).length := by
        rw [hdrop] at hn
        rw [hrest]
        exact Nat.succ.inj hn
      rw [listForEachEntry, Prog.run, id, hentry, List.findIdx?_cons]
      dsimp only
      cases hstop : stop v with
      | true => rfl
      | false =>
        have hlater := ih hlength
        rw [hrest] at hlater
        simp only [Bool.false_eq_true, if_false, hlater]
        cases rest.findIdx? stop with
        | none => rfl
        | some j => simp [Nat.add_assoc, Nat.add_comm 1 j]

/-- The loop comes to the first entry that it looks for. -/
theorem run_searchEntries (stop : StructVector → Bool) (found : Nat → Prog State β)
    (missing : Prog State β) (s : State) :
    (searchEntries stop found missing).run s =
      (s.registry.vecList.findIdx? stop).elim (missing.run s) fun i => (found i).run s := by
  have h := run_listForEachEntry (i := 0) stop found missing s rfl
  simpa [searchEntries, Prog.run] using h

theorem run_fetchEntry {field : StructVector → γ} {other : γ} {next : γ → Prog State β}
    (hv : s.registry.vecList[i]? = some v) :
    (fetchEntry i field other next).run s = (next (field v)).run s := by
  rw [fetchEntry, Prog.run, hv]
  rfl

/-- The state with a new count in the entry at `i`. -/
def recounted (s : State) (i : Nat) (v : StructVector) (d : Int) : State :=
  s.mapVecList fun vs => vs.modify i fun w => { w with refcount := v.refcount + Int32.ofInt d }

theorem recounted_entry (hv : s.registry.vecList[i]? = some v) :
    (recounted s i v d).registry.vecList[i]? = some (v.addRef d) := by
  simp [recounted, State.mapVecList, hv, StructVector.addRef]

theorem run_addToRefcount {next : Prog State β} (hv : s.registry.vecList[i]? = some v) :
    (addToRefcount i d next).run s = next.run (recounted s i v d) := by
  rw [addToRefcount, run_fetchEntry hv]
  rfl

theorem run_countEntryModule {next : Prog State β} (hv : s.registry.vecList[i]? = some v) :
    (countEntryModule i d next).run s = next.run (s.countModule v.vectorModule d) := by
  rw [countEntryModule, run_fetchEntry hv]
  rfl

/-- Both counts have moved. -/
theorem recounted_countModule (hfind : s.registry.vecList.findIdx? k.isMatch = some i)
    (hv : s.registry.vecList[i]? = some v) :
    (recounted s i v d).countModule v.vectorModule d =
      { s with registry := s.registry.adjust k d } := by
  have hlookup : s.registry.lookup k = some v := by
    rw [Registry.lookup, List.find?_eq_bind_findIdx?_getElem?, hfind]
    exact hv
  have hmodify : updateFirst k.isMatch (StructVector.addRef d) s.registry.vecList =
      s.registry.vecList.modify i fun w => { w with refcount := v.refcount + Int32.ofInt d } :=
    updateFirst_eq_modify hfind hv rfl
  rw [adjust_some hlookup, hmodify]
  rfl

/-- What a search finds, and at which index. -/
theorem find_cases (stop : StructVector → Bool) (s : State) :
    (s.registry.vecList.find? stop = none ∧ s.registry.vecList.findIdx? stop = none) ∨
      ∃ v i, s.registry.vecList.find? stop = some v ∧
        s.registry.vecList.findIdx? stop = some i ∧ s.registry.vecList[i]? = some v := by
  rw [List.find?_eq_bind_findIdx?_getElem?]
  cases hfind : s.registry.vecList.findIdx? stop with
  | none => exact .inl ⟨rfl, rfl⟩
  | some i =>
    obtain ⟨hi, -, -⟩ := List.findIdx?_eq_some_iff_getElem.mp hfind
    exact .inr ⟨s.registry.vecList[i], i, List.getElem?_eq_getElem hi, rfl,
      List.getElem?_eq_getElem hi⟩

theorem lookup_cases (k : Key) (s : State) :
    (s.registry.lookup k = none ∧ s.registry.vecList.findIdx? k.isMatch = none) ∨
      ∃ v i, s.registry.lookup k = some v ∧ s.registry.vecList.findIdx? k.isMatch = some i ∧
        s.registry.vecList[i]? = some v := find_cases k.isMatch s

theorem run_acquireStatements (k : Key) (s : State) :
    (acquireStatements k).run s =
      ({ s with registry := (s.registry.acquire k).1 }, (s.registry.acquire k).2) := by
  rw [acquireStatements, run_searchEntries, Registry.acquire]
  obtain ⟨hlookup, hfind⟩ | ⟨v, i, hlookup, hfind, hv⟩ := lookup_cases k s
  · rw [hfind, hlookup, adjust_none hlookup]
    rfl
  · have hentry := recounted_entry (d := 1) hv
    have hcounted : ((recounted s i v 1).countModule v.vectorModule 1).registry.vecList[i]? =
      some (v.addRef 1) := hentry
    rw [hfind, hlookup, Option.elim_some, Option.elim_some, run_addToRefcount hv,
      run_countEntryModule hentry, StructVector.addRef_vectorModule, run_fetchEntry hcounted]
    exact Prod.ext (recounted_countModule hfind hv) rfl

theorem run_releaseStatements (k : Key) (s : State) :
    (releaseStatements k).run s =
      ({ s with registry := (s.registry.release k).1 }, (s.registry.release k).2) := by
  rw [releaseStatements, run_searchEntries, Registry.release]
  obtain ⟨hlookup, hfind⟩ | ⟨v, i, hlookup, hfind, hv⟩ := lookup_cases k s
  · rw [hfind, hlookup, adjust_none hlookup]
    rfl
  · have hentry := recounted_entry (d := -1) hv
    rw [hfind, hlookup, Option.elim_some, Option.elim_some, run_addToRefcount hv,
      run_fetchEntry hentry, run_countEntryModule hentry, StructVector.addRef_vectorModule]
    exact Prod.ext (recounted_countModule hfind hv) rfl

theorem run_incrementStatements (a : Address) (s : State) :
    (incrementRefCountFromAddressStatements a).run s =
      ({ s with registry := (incrementRefCountFromAddress s.registry a).1 },
        (incrementRefCountFromAddress s.registry a).2) := by
  rw [incrementRefCountFromAddressStatements, run_searchEntries, incrementRefCountFromAddress]
  obtain ⟨hlookup, hfind⟩ | ⟨v, i, hlookup, hfind, hv⟩ := lookup_cases (.address a) s
  · rw [hfind, hlookup, adjust_none hlookup]
    rfl
  · have hentry := recounted_entry (d := 1) hv
    rw [hfind, hlookup, Option.elim_some, Option.elim_some, run_addToRefcount hv,
      run_countEntryModule hentry, StructVector.addRef_vectorModule]
    exact Prod.ext (recounted_countModule hfind hv) rfl

theorem run_addVectorStatements (va : Address) (v : StructVector) (s : State) :
    (addVectorStatements va v).run s =
      ({ s with registry := (s.registry.addVector va v).1 }, (s.registry.addVector va v).2) := by
  rw [addVectorStatements, Registry.addVector]
  split
  · rfl
  · split <;> rfl

theorem run_unregisterStatements (a : Address) (s : State) :
    (unregisterSyscallStatements a).run s =
      ({ s with registry := (unregisterSyscall s.registry a).1 },
        (unregisterSyscall s.registry a).2) := by
  rw [unregisterSyscallStatements, run_searchEntries, unregisterSyscall, removeVectorAddress]
  obtain ⟨hlookup, hfind⟩ | ⟨v, i, hlookup, hfind, hv⟩ := find_cases (addressIs a) s
  · rw [hlookup, hfind]
    rfl
  · rw [hlookup, hfind, Option.elim_some, run_fetchEntry hv]
    dsimp only
    split
    · rfl
    · have herase := @List.eraseP_eq_eraseIdx _ s.registry.vecList (addressIs a)
      rw [hfind] at herase
      rw [herase]
      rfl

end

/-! ## A function among others -/

/-- What is done without `list_lock` leaves the list alone and does not look at it, nor at the
counts of modules; it may move such a count. -/
structure Outside (f : State → State) : Prop where
  vecList : ∀ s, (f s).registry.vecList = s.registry.vecList
  mapVecList : ∀ g s, f (s.mapVecList g) = (f s).mapVecList g
  countModule : ∀ m d s, f (s.countModule m d) = (f s).countModule m d

/-- What a function does last moves the count of a module at most. -/
def CountsOnly (f : State → State) : Prop := f = id ∨ ∃ m d, f = State.countModule m d

theorem outside_independent : Independent Outside CountsOnly where
  commute := by
    rintro f g hf (rfl | ⟨m, d, rfl⟩) s
    · rfl
    · exact hf.countModule m d s

section
variable {β γ : Type} {i : Nat} {d : Int}

/-- A read of the list sees nothing of what is done without the lock. -/
theorem reads_list (read : List StructVector → γ) (f : State → State) (s : State)
    (hf : Outside f) : read (f s).registry.vecList = read s.registry.vecList := by
  rw [hf.vecList s]

theorem fetchEntry_tail {field : StructVector → γ} {other : γ} {next : γ → Prog State β}
    (hnext : ∀ x, Tail Outside CountsOnly (next x)) :
    Tail Outside CountsOnly (fetchEntry i field other next) :=
  .act (.inl rfl)
    (fun f s hf => reads_list (fun vs => next ((vs[i]?).elim other field)) f s hf)
    fun _ => hnext _

theorem fetchEntry_critical {field : StructVector → γ} {other : γ} {next : γ → Prog State β}
    (hnext : ∀ x, Critical Outside CountsOnly (next x)) :
    Critical Outside CountsOnly (fetchEntry i field other next) :=
  .read (fun f s hf => reads_list (fun vs => next ((vs[i]?).elim other field)) f s hf)
    fun _ => hnext _

theorem countEntryModule_tail {next : Prog State β} (hnext : Tail Outside CountsOnly next) :
    Tail Outside CountsOnly (countEntryModule i d next) :=
  fetchEntry_tail fun m => .act (.inr ⟨m, d, rfl⟩) (fun _ _ _ => rfl) fun _ => hnext

/-- The write of a count is what counts. -/
theorem addToRefcount_critical {next : Prog State β} (hnext : Tail Outside CountsOnly next) :
    Critical Outside CountsOnly (addToRefcount i d next) :=
  fetchEntry_critical fun _ =>
    .commit (fun _ s hf => hf.mapVecList _ s) (fun _ _ _ => rfl) fun _ => hnext

theorem searchEntries_critical {stop : StructVector → Bool} {found : Nat → Prog State β}
    {missing : Prog State β} (hfound : ∀ i, Critical Outside CountsOnly (found i))
    (hmissing : Critical Outside CountsOnly missing) :
    Critical Outside CountsOnly (searchEntries stop found missing) := by
  have hloop (n i : Nat) :
      Critical Outside CountsOnly (listForEachEntry stop found missing n i) := by
    induction n generalizing i with
    | zero => exact hmissing
    | succ n ih =>
      refine .read (fun f s hf => ?_) fun s => ?_
      · rw [hf.vecList s]
      · split
        · exact hmissing
        · split
          · exact hfound i
          · exact ih (i + 1)
  exact .read (fun f s hf => by rw [hf.vecList s]) fun s => hloop _ 0

theorem acquireStatements_critical (k : Key) :
    Critical Outside CountsOnly (acquireStatements k) :=
  searchEntries_critical
    (fun _ => addToRefcount_critical <| countEntryModule_tail <| fetchEntry_tail fun va => .ret va)
    (.tail (.ret 0))

theorem releaseStatements_critical (k : Key) :
    Critical Outside CountsOnly (releaseStatements k) :=
  searchEntries_critical
    (fun _ => addToRefcount_critical <| fetchEntry_tail fun refCnt =>
      countEntryModule_tail <| .ret refCnt)
    (.tail (.ret (-1)))

theorem incrementStatements_critical (a : Address) :
    Critical Outside CountsOnly (incrementRefCountFromAddressStatements a) :=
  searchEntries_critical
    (fun _ => addToRefcount_critical <| countEntryModule_tail <| .ret 0) (.tail (.ret (-1)))

theorem addVectorStatements_critical (va : Address) (v : StructVector) :
    Critical Outside CountsOnly (addVectorStatements va v) := by
  rw [addVectorStatements]
  split
  · exact .tail (.ret _)
  · split
    · exact .tail (.ret _)
    · exact .commit (fun _ s hf => hf.mapVecList _ s) (fun _ _ _ => rfl) fun _ => .ret 0

theorem unregisterStatements_critical (a : Address) :
    Critical Outside CountsOnly (unregisterSyscallStatements a) := by
  refine searchEntries_critical (fun i => fetchEntry_critical fun count => ?_) (.tail (.ret _))
  split
  · exact .tail (.ret _)
  · exact .commit (fun _ s hf => hf.mapVecList _ s) (fun _ _ _ => rfl) fun _ => .ret 0

end

/-! ## What is done without the lock -/

section
variable {β : Type} {m : Module} {next : Statements}

theorem countModule_comm (m m' : Module) (d e : Int) (s : State) :
    (s.countModule m d).countModule m' e = (s.countModule m' e).countModule m d := by
  simp only [State.countModule, State.mk.injEq, Registry.mk.injEq, and_true, true_and]
  by_cases hm : m = m'
  · simp [hm, Int.add_assoc, Int.add_comm d e]
  · simp [Function.update_of_ne hm, Function.update_of_ne (Ne.symm hm), Function.update_comm hm]

theorem outside_id : Outside id := ⟨fun _ => rfl, fun _ _ => rfl, fun _ _ _ => rfl⟩

theorem outside_tryModuleGet (m : Module) :
    Outside fun s => { s with registry := s.registry.tryModuleGet m } where
  vecList _ := rfl
  mapVecList _ _ := rfl
  countModule m' d s := countModule_comm m' m d 1 s

theorem outside_modulePut (m : Module) :
    Outside fun s => { s with registry := s.registry.modulePut m } where
  vecList _ := rfl
  mapVecList _ _ := rfl
  countModule m' d s := countModule_comm m' m d (-1) s

theorem outside_setVectorInfo (current : Pid) (a : Address) :
    Outside fun s => s.setVectorInfo current a :=
  ⟨fun _ => rfl, fun _ _ => rfl, fun _ _ _ => rfl⟩

theorem outside_tasks (f : (Pid → Option Address) → Pid → Option Address) :
    Outside fun s => { s with tasks := f s.tasks } :=
  ⟨fun _ => rfl, fun _ _ => rfl, fun _ _ _ => rfl⟩

theorem outside_setListHead (m : Module) (a : Address) : Outside fun s => s.setListHead m a :=
  ⟨fun _ => rfl, fun _ _ => rfl, fun _ _ _ => rfl⟩

theorem outside_listHeads (f : List Address → List Address) :
    Outside fun s => { s with listHeads := f s.listHeads } :=
  ⟨fun _ => rfl, fun _ _ => rfl, fun _ _ _ => rfl⟩

theorem outside_loaded (f : (Module → Bool) → Module → Bool) :
    Outside fun s => { s with loaded := f s.loaded } :=
  ⟨fun _ => rfl, fun _ _ => rfl, fun _ _ _ => rfl⟩

theorem outside_insmodDynamicVector : Outside insmodDynamicVector :=
  ⟨fun _ => rfl, fun _ _ => rfl, fun _ _ _ => rfl⟩

theorem outside_builtAfter (m : Module) (f : Builder → Except Fault (Builder × β)) :
    Outside (builtAfter m f) where
  vecList s := by
    rw [builtAfter]
    split <;> rfl
  mapVecList g s := by
    have hsame : f ⟨(s.mapVecList g).heap, (s.mapVecList g).listHead m⟩ =
      f ⟨s.heap, s.listHead m⟩ := rfl
    rw [builtAfter, builtAfter, hsame]
    split <;> rfl
  countModule m' d s := by
    have hsame : f ⟨(s.countModule m' d).heap, (s.countModule m' d).listHead m⟩ =
      f ⟨s.heap, s.listHead m⟩ := rfl
    rw [builtAfter, builtAfter, hsame]
    split <;> rfl

variable {K : (β : Type) → Prog State β → Prop}

/-- The class has every function that holds `list_lock` and takes no entry out of the list. -/
structure Admits (K : (β : Type) → Prog State β → Prop) : Prop where
  acquire : ∀ k, K Address (acquireStatements k)
  release : ∀ k, K Int32 (releaseStatements k)
  increment : ∀ a, K Int32 (incrementRefCountFromAddressStatements a)
  addVector : ∀ va v, K Int32 (addVectorStatements va v)

/-- The functions that hold `list_lock` are of the class, and the rest is done without it. -/
abbrev IsTame (K : (β : Type) → Prog State β → Prop) (code : Statements) : Prop :=
  code.Tame Outside CountsOnly K

/-- A read that does not look at the counts of modules. -/
theorem fetch_tame {f : State → β} {next : β → Statements}
    (hf : ∀ m d s, f (s.countModule m d) = f s) (hnext : ∀ x, IsTame K (next x)) :
    IsTame K (fetch f next) := by
  refine .act outside_id ?_ fun s => hnext (f s)
  rintro g s (rfl | ⟨m, d, rfl⟩)
  · rfl
  · exact congrArg next (hf m d s)

theorem store_tame {f : State → State} (hf : Outside f) (hnext : IsTame K next) :
    IsTame K (store f next) := .act hf (fun _ _ _ => rfl) fun _ => hnext

theorem tryGetModule_tame (hnext : IsTame K next) : IsTame K (tryGetModule m next) :=
  store_tame (outside_tryModuleGet m) hnext

theorem putThisModule_tame (result : Returned) : IsTame K (putThisModule result) :=
  store_tame (outside_modulePut .ioctlModule) (.ret result)

theorem building_tame {f : Builder → Except Fault (Builder × β)} {next : β → Statements}
    (hnext : ∀ x, IsTame K (next x)) : IsTame K (building m f next) := by
  refine .act (outside_builtAfter m f) ?_ fun s => ?_
  · rintro g s (rfl | ⟨m', d, rfl⟩) <;> rfl
  · rw [builtThen]
    split
    · exact .ret _
    · exact hnext _

theorem deleteHead_tame (head : Address) (hnext : IsTame K next) :
    IsTame K (deleteHead head next) := by
  refine .act ⟨fun s => ?_, fun g s => ?_, fun m d s => ?_⟩ ?_ fun s => ?_
  · cases deleteVector s.heap head <;> rfl
  · have hsame : deleteVector (s.mapVecList g).heap head = deleteVector s.heap head := rfl
    rw [hsame]
    cases deleteVector s.heap head <;> rfl
  · have hsame : deleteVector (s.countModule m d).heap head = deleteVector s.heap head := rfl
    rw [hsame]
    cases deleteVector s.heap head <;> rfl
  · rintro g s (rfl | ⟨m, d, rfl⟩) <;> rfl
  · split
    · exact .ret _
    · exact hnext

end

/-! ## The events -/

section
variable {K : (β : Type) → Prog State β → Prop} {current : Pid} {param : IoctlParam} {env : Env}
  {next : Statements}

theorem showMine_tame {f : State → Address} {next : List UInt8 → Statements}
    (hf : ∀ m d s, f (s.countModule m d) = f s) (hnext : ∀ buf, IsTame K (next buf)) :
    IsTame K (fetch (fun s => (showMyVector s.registry (zeroed bufLen) (f s)).1) next) := by
  refine fetch_tame (fun m d s => ?_) hnext
  rw [hf m d s]
  rfl

theorem ifAssignedReduce_tame (hK : Admits K) (hnext : IsTame K next) :
    IsTame K (ifAssignedReduceStatements current env next) := by
  refine fetch_tame (fun _ _ _ => rfl) fun info => ?_
  split
  · exact hnext
  · split
    · exact hnext
    · refine showMine_tame (fun _ _ _ => rfl) fun buf => ?_
      split
      · exact hnext
      · exact .critical (hK.release _) fun _ => hnext

theorem ioctlSet_tame (hK : Admits K) : IsTame K (ioctlSetStatements current param env) := by
  rw [ioctlSetStatements]
  split
  · exact .ret _
  · split
    · exact .ret _
    · refine tryGetModule_tame ?_
      split
      · exact putThisModule_tame _
      · refine .critical (hK.acquire _) fun vectorAddress => ?_
        split
        · exact putThisModule_tame _
        · exact ifAssignedReduce_tame hK <| store_tame (outside_setVectorInfo current 0) <|
            store_tame (outside_setVectorInfo current vectorAddress) <| putThisModule_tame _

theorem ioctlRemove_tame (hK : Admits K) : IsTame K (ioctlRemoveStatements current param env) := by
  rw [ioctlRemoveStatements]
  split
  · exact .ret _
  · split
    · exact .ret _
    · refine tryGetModule_tame ?_
      split
      · exact putThisModule_tame _
      · refine .critical (hK.release _) fun err => ?_
        split
        · exact putThisModule_tame _
        · exact store_tame (outside_setVectorInfo current 0) <| putThisModule_tame _

theorem copyOut_tame (buf : List UInt8) : IsTame K (copyOutStatements buf env) := by
  rw [copyOutStatements]
  split <;> exact putThisModule_tame _

theorem ioctlVectorForPid_tame : IsTame K (ioctlVectorForPidStatements param env) := by
  refine tryGetModule_tame ?_
  split
  · exact .ret _
  · split
    · exact putThisModule_tame _
    · refine fetch_tame (fun _ _ _ => rfl) fun found => ?_
      cases found with
      | none => exact .ret _
      | some info => exact showMine_tame (fun _ _ _ => rfl) copyOut_tame

theorem addVectorFromBitmap_tame (hK : Admits K) {bitmap : UInt32} {next : Int32 → Statements}
    (hnext : ∀ err, IsTame K (next err)) :
    IsTame K (addVectorFromBitmapStatements current bitmap env next) := by
  refine .critical (hK.acquire _) fun ret => ?_
  split
  · exact store_tame (outside_setVectorInfo current ret) <|
      store_tame (outside_setListHead .dynamicVector 0) <| hnext _
  · split
    · exact store_tame (outside_setListHead .dynamicVector 0) <| hnext _
    · split
      · exact building_tame fun _ => hnext _
      · refine building_tame fun built => ?_
        split
        · exact building_tame fun _ => hnext _
        · refine tryGetModule_tame <| fetch_tame (fun _ _ _ => rfl) fun head => ?_
          exact .critical (hK.addVector _ _) fun _ =>
            store_tame (outside_setVectorInfo current head) <|
              store_tame (outside_listHeads (· ++ [head])) <|
                store_tame (outside_setListHead .dynamicVector 0) <| hnext _

theorem ioctlCreate_tame (hK : Admits K) : IsTame K (ioctlCreateStatements current param env) := by
  refine tryGetModule_tame ?_
  split
  · exact .ret _
  · split
    · exact putThisModule_tame _
    · split
      · exact putThisModule_tame _
      · exact addVectorFromBitmap_tame hK fun _ => putThisModule_tame _

theorem customIoctl_tame (hK : Admits K) (current : Pid) (request : UInt32) (param : IoctlParam)
    (env : Env) :
    IsTame K (customIoctlStatements current request param env) := by
  rw [customIoctlStatements]
  split
  · exact .ret _
  · split
    · exact ioctlSet_tame hK
    · split
      · exact ioctlRemove_tame hK
      · split
        · exact tryGetModule_tame <| fetch_tame (fun _ _ _ => rfl) fun shown => copyOut_tame _
        · split
          · exact tryGetModule_tame <| fetch_tame (fun _ _ _ => rfl) fun info =>
              showMine_tame (fun _ _ _ => rfl) copyOut_tame
          · split
            · exact ioctlVectorForPid_tame
            · split
              · exact ioctlCreate_tame hK
              · exact .ret _

theorem copyProcess_tame (hK : Admits K) {child : Pid} {flags : UInt64} (hnext : IsTame K next) :
    IsTame K (copyProcessStatements current child flags next) := by
  rw [copyProcessStatements]
  split
  · refine fetch_tame (fun _ _ _ => rfl) fun info => ?_
    refine .critical (hK.increment _) fun _ => ?_
    exact fetch_tame (fun _ _ _ => rfl) fun info =>
      store_tame (outside_tasks fun tasks => Function.update tasks child (some info)) hnext
  · exact store_tame (outside_tasks fun tasks => Function.update tasks child (some 0)) hnext

theorem exitTask_tame (hK : Admits K) : IsTame K (exitTaskStatements current) := by
  have hgone : IsTame K (store (fun s => { s with tasks := Function.update s.tasks current none })
      (done 0)) :=
    store_tame (outside_tasks fun tasks => Function.update tasks current none) (.ret _)
  refine fetch_tame (fun _ _ _ => rfl) fun info => ?_
  dsimp only
  split
  · exact hgone
  · exact .critical (hK.release _) fun _ => hgone

theorem doFork_tame (hK : Admits K) {flags : UInt64} {addr : Address} {fork : ForkResult} :
    IsTame K (doForkStatements current flags addr fork) := by
  cases fork with
  | failed err => exact .ret _
  | child pid =>
    rw [doForkStatements]
    split
    · exact copyProcess_tame hK (.ret _)
    · exact store_tame (outside_tasks fun tasks => Function.update tasks pid (some _)) (.ret _)

theorem sysClone2_tame (hK : Admits K) {flags id : UInt64} {fork : ForkResult} :
    IsTame K (sysClone2Statements current flags id fork) := by
  rw [sysClone2Statements]
  split
  · refine fetch_tame (fun _ _ _ => rfl) fun info => ?_
    refine .critical (hK.increment _) fun ret => ?_
    split
    · exact .ret _
    · exact doFork_tame hK
  · exact .critical (hK.acquire _) fun addr => doFork_tame hK

theorem copyProcessFails_tame (hK : Admits K) {flags : UInt64} {failed : ForkStep} {err : Int64} :
    IsTame K (copyProcessFailsStatements current flags failed err) := by
  rw [copyProcessFailsStatements]
  split
  · exact fetch_tame (fun _ _ _ => rfl) fun info =>
      .critical (hK.increment _) fun _ => .ret _
  · exact .ret _

theorem call_tame (hK : Admits K) (c : Call) : IsTame K c.statements := by
  cases c with
  | getVectorAddress | getVectorAddressFromId | checkAnyCurrentVector =>
    exact .critical (hK.acquire _) fun _ => .ret _
  | incrementRefCountFromAddress => exact .critical (hK.increment _) fun _ => .ret _
  | reduceRefCount | reduceRefCountFromAddress =>
    exact .critical (hK.release _) fun _ => .ret _

theorem initVector_tame (hK : Admits K) {m : Module} {name : List UInt8}
    {syscalls : List (SyscallNr × Handler)}
    {bitmap : UInt32} {kmalloc : Nat → Address} {va : Address} :
    IsTame K (initVectorStatements m name syscalls bitmap kmalloc va) := by
  have hfinished (ret : Int32) : IsTame K (store
      (fun s => { s with loaded := Function.update s.loaded m (decide (0 ≤ ret)) })
      (done ret.toInt64)) :=
    store_tame (outside_loaded fun loaded => Function.update loaded m (decide (0 ≤ ret))) (.ret _)
  refine store_tame (outside_setListHead m 0) <| building_tame fun ret => ?_
  split
  · exact building_tame fun _ => hfinished _
  · exact fetch_tame (fun _ _ _ => rfl) fun head =>
      .critical (hK.addVector _ _) hfinished

theorem cleanupHeads_tame (hunregister : ∀ a, K Int32 (unregisterSyscallStatements a))
    (hnext : IsTame K next) (heads : List Address) :
    IsTame K (cleanupHeadsStatements next heads) := by
  induction heads with
  | nil => exact hnext
  | cons head heads ih =>
    exact .critical (hunregister _) fun _ => deleteHead_tame head ih

theorem unload_tame (hunregister : ∀ a, K Int32 (unregisterSyscallStatements a)) (m : Module) :
    IsTame K (unloadStatements m) := by
  have hunloaded : IsTame K (store
      (fun s => { s with loaded := Function.update s.loaded m false }) (done 0)) :=
    store_tame (outside_loaded fun loaded => Function.update loaded m false) (.ret _)
  have hcleanup : IsTame K (cleanupVectorStatements m (store
      (fun s => { s with loaded := Function.update s.loaded m false }) (done 0))) :=
    fetch_tame (fun _ _ _ => rfl) fun head =>
      .critical (hunregister _) fun _ => building_tame fun _ => hunloaded
  cases m with
  | ioctlModule => exact .ret _
  | dynamicVector =>
    exact fetch_tame (fun _ _ _ => rfl) <| cleanupHeads_tame hunregister <|
      store_tame (outside_listHeads fun _ => []) hunloaded
  | vector1 | vector2 => exact hcleanup

/-- Every event takes `list_lock` only around functions of the class, and does nothing else
that they could see. -/
theorem statements_tame (hK : Admits K) (op : SessionOp)
    (hunregister : op.removesEntries = true → ∀ a, K Int32 (unregisterSyscallStatements a)) :
    IsTame K op.statements := by
  cases op with
  | system op =>
    cases op with
    | ioctl current request param env => exact customIoctl_tame hK current request param env
    | copyProcess => exact copyProcess_tame hK (.ret _)
    | exit => exact exitTask_tame hK
    | call c => exact call_tame hK c
    | unregister => exact .critical (hunregister rfl _) fun _ => .ret _
    | rmmod m => exact unload_tame (hunregister rfl) m
  | insmod m =>
    cases m with
    | vector1 | vector2 => exact initVector_tame hK
    | dynamicVector => exact store_tame outside_insmodDynamicVector (.ret _)
    | ioctlModule => exact .ret _
  | clone => exact sysClone2_tame hK
  | forkFails => exact copyProcessFails_tame hK

end

/-! ## Any number of threads -/

section
variable {τ : Type} [DecidableEq τ]

theorem critical_admits : Admits fun _ => Critical Outside CountsOnly :=
  ⟨acquireStatements_critical, releaseStatements_critical, incrementStatements_critical,
    addVectorStatements_critical⟩

theorem thread_lowers (op : SessionOp) :
    Lowers .listLock Outside CountsOnly op.thread op.sectionsThread := by
  have htame := statements_tame critical_admits op fun _ => unregisterStatements_critical
  have hunlock (r : Returned) : Lowers .listLock Outside CountsOnly (unlockMutexlock r)
      (unlockMutexlock r) := by
    cases r with
    | error fault => exact .ret _
    | ok r => exact .unlock (by decide) (.ret _)
  rw [SessionOp.thread, SessionOp.sectionsThread]
  split
  · exact .lock (by decide) (htame.lowers (fun _ _ h => h) hunlock)
  · exact htame.lowers (fun _ _ h => h) fun r => .ret r

theorem concurrently_abstracts {ops : τ → SessionOp} {s : State}
    {c : Machine τ Lock State Returned} (h : (concurrently ops s).Reaches c) :
    ∃ d, (concurrentSections ops s).Reaches d ∧ Abstracts .listLock Outside CountsOnly c d := by
  have hstart : Abstracts .listLock Outside CountsOnly (concurrently ops s)
      (concurrentSections ops s) :=
    .start (fun t => thread_lowers (ops t)) rfl (fun _ _ => rfl) rfl
  exact sections_atomic outside_independent hstart h

/-- However any number of events are interleaved statement by statement, each function that
holds `list_lock` is atomic: the machine in which they are single statements without a lock
comes to the same results, the same owner of `mutexlock` and, whenever `list_lock` is free, the
same state. -/
theorem list_lock_atomic (ops : τ → SessionOp) (s : State) {c : Machine τ Lock State Returned}
    (h : (concurrently ops s).Reaches c) :
    ∃ d, (concurrentSections ops s).Reaches d ∧
      (∀ t r, c.thread t = .ret r → d.thread t = .ret r) ∧
      d.owner .mutexlock = c.owner .mutexlock ∧
      (c.owner .listLock = none → d.shared = c.shared) := by
  obtain ⟨d, hreaches, hd⟩ := concurrently_abstracts h
  exact ⟨d, hreaches, fun t r => hd.ended, hd.owners _ (by decide), hd.free⟩

end

/-- A task sets a vector, and somebody else asks for the same one. -/
def setAndAsk : Bool → SessionOp
  | false => .system (.ioctl task1 IOCTL_SET (nameParam vector1Name) (sampleEnv 12288))
  | true => .system (.call (.getVectorAddress vector1Name))

theorem list_lock_atomic_setAndAsk :
    ∃ c, (concurrently setAndAsk sampleBoot).Reaches c ∧ (∃ r, c.thread true = .ret (.ok r)) ∧
      ∃ d, (concurrentSections setAndAsk sampleBoot).Reaches d ∧
        (∀ t r, c.thread t = .ret r → d.thread t = .ret r) ∧
        d.owner .mutexlock = c.owner .mutexlock ∧
        (c.owner .listLock = none → d.shared = c.shared) := by
  let order := List.replicate 2 false ++ List.replicate 10 true ++ List.replicate 4 false
  obtain ⟨c, h, hask⟩ : ∃ c,
      steps Machine.step (concurrently setAndAsk sampleBoot) order = some c ∧
        ∃ r, c.thread true = .ret (.ok r) :=
    ⟨_, rfl, _, rfl⟩
  have hreaches : (concurrently setAndAsk sampleBoot).Reaches c :=
    Run.of_steps (fun _ _ _ => trivial) h
  exact ⟨c, hreaches, hask, list_lock_atomic setAndAsk sampleBoot hreaches⟩

end SyscallVector.Audit
