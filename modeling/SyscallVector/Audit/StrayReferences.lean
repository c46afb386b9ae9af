import SyscallVector.Audit.ListHeads
import SyscallVector.Audit.OrderIndependence
import SyscallVector.Audit.ReferenceAccounts
import SyscallVector.Audit.Sessions

/-!
# References that nobody holds

The events that move a count without a pointer, or a pointer without a count, are known: a
request by a task that holds a vector forgets the reference of that vector, a release by name
drops a reference that may be another task's, and a clone takes one reference too many. With
these on a log, the count of a chain is the number of its holders and the balance of the log.
-/
namespace SyscallVector.Audit

set_option autoImplicit false

open Lib Model

/-! ## What an event leaves out of step -/

instance (env : Env) : Decidable (NameRead env) :=
  decidable_of_iff (env.buf ≠ 0 ∧ env.vectorName ≠ 0 ∧ isErr env.vectorName = false ∧
      env.copyFromUser = true)
    ⟨fun ⟨hbuf, hname, herr, hcopied⟩ => ⟨hbuf, hname, herr, hcopied⟩,
      fun h => ⟨h.buf, h.name, h.notErr, h.copied⟩⟩

/-- The reference of the vector that a task has when its pointer is written over. -/
abbrev forgotten (s : State) (current : Pid) : Ledger Address :=
  dropped s.registry (s.tasks current) 1

/-- A creation forgets the vector that the task has, once it has one to give. The vector
without a chain that it finds is counted for nobody. -/
def createStrays (s : State) (current : Pid) (bitmap : UInt32) (env : Env) : Ledger Address :=
  if foundChain s bitmap ≠ 0 then forgotten s current
  else if env.temp = 0 ∨ env.vectorPrefix = 0 then moved s.registry (.bitmap bitmap) 1
  else moved s.registry (.bitmap bitmap) 1 ++ forgotten s current

/-- `IOCTL_SET` forgets the vector that the task has; `IOCTL_REMOVE` drops a reference of the
vector with the given name and forgets the one that the task has. -/
def requestStrays (s : State) (current : Pid) (request : UInt32) (param : IoctlParam)
    (env : Env) : Ledger Address :=
  if request = IOCTL_SET ∧ NameRead env then
    (s.registry.lookup (nameKey param)).elim [] fun v =>
      if v.overriddenSyscallsAddress = 0 then moved s.registry (nameKey param) 1
      else forgotten s current
  else if request = IOCTL_REMOVE ∧ NameRead env then
    (s.registry.lookup (nameKey param)).elim [] fun v =>
      moved s.registry (nameKey param) (-1) ++
        if (v.addRef (-1)).refcount < 0 then [] else forgotten s current
  else if request = IOCTL_CREATE_FROM_BITMAP ∧ BitmapRead env ∧
      validateBitmap param.userBitmap = 0 then
    createStrays s current param.userBitmap env
  else []

/-- A clone that inherits takes one reference too many, and so does one that fails or that
finds the address that stands for none. -/
def cloneStrays (s : State) (current : Pid) (flags id : UInt64) : ForkResult → Ledger Address
  | .failed _ => moved s.registry (cloneKey s current flags id) 1
  | .child _ =>
    if flags &&& CLONE_SYSCALLS ≠ 0 then moved s.registry (infoKey s current) 1
    else if foundChain s id.toUInt32 = -1 then moved s.registry (.bitmap id.toUInt32) 1
    else []

/-- The references that an event moves without a pointer, or forgets with one. -/
def strays (s : State) : SessionOp → Ledger Address
  | .system (.ioctl current request param env) => requestStrays s current request param env
  | .system (.call c) => moved s.registry (callKey c) (callDelta c)
  | .clone current flags id fork => cloneStrays s current flags id fork
  | .forkFails current flags _ _ _ _ =>
    if flags &&& CLONE_SYSCALLS ≠ 0 then moved s.registry (infoKey s current) 1 else []
  | _ => []

/-! ## Events keep the explanation -/

/-- What is registered or held is allocated. -/
def Known (s : State) : Prop :=
  ∀ a, a ≠ 0 → (a ∈ addresses s.registry ∨ ∃ p, s.tasks p = some a) → s.heap a ≠ none

/-- The log goes on from one state to the other with these entries. Counts stay paid if the event
is one of `own`. -/
def Carried (s t : State) (entries : Ledger Address) (own : Prop) : Prop :=
  ∀ l log, Explained s.registry s.tasks l log →
    ∃ l', Explained t.registry t.tasks l' (log ++ entries) ∧ (own → Paid l → Paid l')

section
variable {s t : State} {current child : Pid} {k : Key} {v : StructVector} {a : Address} {own : Prop}

theorem Carried.same (s : State) (own : Prop) : Carried s s [] own := fun l log h =>
  ⟨l, by rwa [List.append_nil], fun _ hpaid => hpaid⟩

theorem Carried.trans {u : State} {entries entries' : Ledger Address}
    (h : Carried s t entries own) (h' : Carried t u entries' own) :
    Carried s u (entries ++ entries') own := by
  intro l log hl
  obtain ⟨l₁, hl₁, hpaid⟩ := h l log hl
  obtain ⟨l₂, hl₂, hpaid'⟩ := h' l₁ _ hl₁
  exact ⟨l₂, by rwa [← List.append_assoc], fun ho hp => hpaid' ho (hpaid ho hp)⟩

theorem Carried.congr {entries entries' : Ledger Address} (h : Carried s t entries own)
    (hlog : ∀ a, a ≠ 0 → balance entries' a = balance entries a) : Carried s t entries' own := by
  intro l log hl
  obtain ⟨l', hl', hpaid⟩ := h l log hl
  refine ⟨l', hl'.congr fun a h0 => ?_, hpaid⟩
  rw [balance_append, balance_append, hlog a h0]

/-- A count that moves alone. -/
theorem count_carried (s : State) (k : Key) (d : Int)
    (hown : own → 0 ≤ d ∨ d = -1 ∧ ∀ v, s.registry.lookup k = some v → Spendable v) :
    Carried s { s with registry := s.registry.adjust k d } (moved s.registry k d) own := by
  intro l log hl
  refine ⟨ledgerMove k d l, hl.adjust k d, fun howned hpaid => ?_⟩
  rcases hown howned with hd | ⟨rfl, hv⟩
  · exact hpaid.raise hl.recorded k hd
  · exact hpaid.lower hl.recorded hv

/-- A count that moves while a pointer is written. -/
theorem write_carried (s : State) (k : Key) (d : Int) (p : Pid) (info : Option Address)
    (hown : own → 0 ≤ d ∨ d = -1 ∧ ∀ v, s.registry.lookup k = some v → Spendable v) :
    Carried s
      { s with registry := s.registry.adjust k d, tasks := Function.update s.tasks p info }
      (moved s.registry k d ++ dropped s.registry (s.tasks p) 1 ++ dropped s.registry info (-1))
      own := by
  intro l log hl
  obtain ⟨l', hl', hpaid⟩ := count_carried s k d hown l log hl
  refine ⟨l', (hl'.retask p info).congr fun a _ => ?_, hpaid⟩
  simp only [balance_append, balance_dropped, addresses_adjust]
  omega

/-- A reference taken with a pointer to its chain. -/
theorem take_carried (hv : s.registry.lookup k = some v) (p : Pid) (own : Prop) :
    Carried s
      { s with
        registry := s.registry.adjust k 1
        tasks := Function.update s.tasks p (some v.overriddenSyscallsAddress) }
      (dropped s.registry (s.tasks p) 1) own := by
  refine (write_carried s k 1 p _ fun _ => .inl (by decide)).congr fun a _ => ?_
  have hmem := mem_addresses (lookup_mem hv)
  rw [balance_append, balance_append, balance_moved hv, balance_dropped s.registry (some _)]
  by_cases he : v.overriddenSyscallsAddress = a
  · rw [if_pos he, if_pos ⟨congrArg some he, he ▸ hmem⟩]
    omega
  · rw [if_neg he, if_neg fun h => he (Option.some.inj h.1)]
    omega

/-- A reference dropped with the pointer to its chain, or without one. -/
theorem drop_carried (s : State) (k : Key) (p : Pid) (info : Option Address)
    (hinfo : ∀ a, info = some a → a = 0)
    (hown : own → ∀ v, s.registry.lookup k = some v → Spendable v) :
    Carried s
      { s with registry := s.registry.adjust k (-1), tasks := Function.update s.tasks p info }
      (moved s.registry k (-1) ++ dropped s.registry (s.tasks p) 1) own := by
  refine (write_carried s k (-1) p info fun h => .inr ⟨rfl, hown h⟩).congr fun a h0 => ?_
  rw [balance_append _ (dropped s.registry info (-1)), balance_dropped s.registry info,
    if_neg fun h => h0 (hinfo a h.1), Int.add_zero]

/-- A pointer to no registered chain that is written without a count. -/
theorem retask_carried (s : State) (p : Pid) (info : Option Address)
    (hinfo : ∀ a, a ≠ 0 → a ∈ addresses s.registry → info ≠ some a) (own : Prop) :
    Carried s { s with tasks := Function.update s.tasks p info } (dropped s.registry (s.tasks p) 1)
      own := by
  intro l log hl
  refine ⟨l, (hl.retask p info).congr fun a h0 => ?_, fun _ hpaid => hpaid⟩
  rw [balance_append _ (dropped s.registry info (-1)), balance_dropped s.registry info,
    if_neg fun h => hinfo a h0 h.2 h.1, Int.add_zero]

/-! ## Requests -/

theorem build_carried (hknown : Known s) {b : Builder} (bitmap : UInt32) (va : Address)
    (hnew : b.listHead ≠ 0 → s.heap b.listHead = none) (p : Pid) (own : Prop) :
    Carried s
      { s with
        registry := registered s.registry bitmap b.listHead va
        tasks := Function.update s.tasks p (some b.listHead) }
      (moved s.registry (.bitmap bitmap) 1 ++ dropped s.registry (s.tasks p) 1) own := by
  intro l log hl
  have hfresh (h0 : b.listHead ≠ 0) :
      b.listHead ∉ addresses s.registry ∧ ∀ q, s.tasks q ≠ some b.listHead :=
    ⟨fun hmem => hknown _ h0 (.inl hmem) (hnew h0),
      fun q hq => hknown _ h0 (.inr ⟨q, hq⟩) (hnew h0)⟩
  have hsearched := (hl.adjust (.bitmap bitmap) 1).tryModuleGet
  have hpaid (h : Paid l) : Paid (ledgerMove (.bitmap bitmap) 1 l) :=
    h.raise hl.recorded _ (by decide)
  dsimp only
  rw [registered]
  split
  · -- the new entry has the reference that the task takes
    have hone : 1 ≤ surplus (ledgerMove (.bitmap bitmap) 1 l)
        ((s.registry.adjust (.bitmap bitmap) 1).tryModuleGet .dynamicVector) .dynamicVector := by
      have hbacked := (hl.adjust (.bitmap bitmap) 1).backed .dynamicVector
      rw [surplus_tryModuleGet, if_pos rfl]
      omega
    have hpushed := hsearched.push (v := dynamicEntry bitmap b.listHead) (c := 1) rfl hone
      (fun h => absurd rfl h) fun h0 => ⟨addresses_adjust s.registry _ 1 ▸ (hfresh h0).1,
        (hfresh h0).2⟩
    refine ⟨_, (hpushed.retask p (some b.listHead)).congr fun a h0 => ?_, fun _ h => ?_⟩
    · have hmem : a ∈ addresses (pushVector ((s.registry.adjust (.bitmap bitmap) 1).tryModuleGet
          .dynamicVector) (dynamicEntry bitmap b.listHead)) ↔
          a = b.listHead ∨ a ∈ addresses (s.registry.adjust (.bitmap bitmap) 1) :=
        List.mem_cons
      have hhead : (dynamicEntry bitmap b.listHead).overriddenSyscallsAddress = b.listHead := rfl
      have hold : s.tasks p = some a → a ≠ b.listHead := fun hp he =>
        (hfresh (he ▸ h0)).2 p (he ▸ hp)
      simp only [balance_append, balance_dropped, balance_entry, hmem, addresses_adjust, hhead]
      by_cases he : b.listHead = a
      · have hne : s.tasks p ≠ some a := fun hp => hold hp he.symm
        simp [he, hne]
      · have hne : ¬a = b.listHead := fun h => he h.symm
        simp only [he, hne, Option.some.injEq, false_or, false_and, ↓reduceIte]
        omega
    · intro e he h0
      rcases List.mem_cons.mp he with rfl | he
      · exact Int.one_nonneg
      · exact hpaid h e he h0
  · refine ⟨_, (hsearched.retask p (some b.listHead)).congr fun a h0 => ?_, fun _ h => hpaid h⟩
    have hmem : a ∈ addresses ((s.registry.adjust (.bitmap bitmap) 1).tryModuleGet
        .dynamicVector) ↔ a ∈ addresses s.registry := by
      rw [← addresses_adjust s.registry (.bitmap bitmap) 1]
      exact Iff.rfl
    have hout : ¬(some b.listHead = some a ∧ a ∈ addresses s.registry) := by
      rintro ⟨he, ha⟩
      obtain rfl := Option.some.inj he
      exact (hfresh h0).1 ha
    simp only [balance_append, balance_dropped, hmem, if_neg hout]
    omega

theorem createOutcome_carried {bitmap : UInt32} {env : Env} {err : Int32} (hidle : Idle s)
    (hknown : Known s) (hlive : s.tasks current = some a) (hfresh : FreshNodes s.heap env.node)
    (h : CreateOutcome s current bitmap env t err) (own : Prop) :
    Carried s t (createStrays s current bitmap env) own := by
  cases h with
  | @reuse v hv h0 =>
    have hfound : foundChain s bitmap ≠ 0 := foundChain_some hv ▸ h0
    have htasks := State.setVectorInfo_tasks_of_live v.overriddenSyscallsAddress hlive
    rw [createStrays, if_pos hfound]
    have htaken := take_carried hv current own
    rw [← htasks] at htaken
    exact htaken
  | abandon hnull hfail =>
    have hfailed : env.temp = 0 ∨ env.vectorPrefix = 0 := hfail.imp And.left And.left
    rw [createStrays, if_neg fun h => h hnull, if_pos hfailed]
    exact count_carried s (.bitmap bitmap) 1 fun _ => .inl (by decide)
  | @build b ret hnull htemp hprefix hadd =>
    have hfailed : ¬(env.temp = 0 ∨ env.vectorPrefix = 0) := fun h => h.elim htemp hprefix
    have htasks := State.setVectorInfo_tasks_of_live b.listHead hlive
    rw [createStrays, if_neg fun h => h hnull, if_neg hfailed]
    obtain ⟨ps, hps, -, hfree⟩ := (createBuilt hidle.listHead hfresh hadd).chain
    have hbuilt := build_carried hknown bitmap env.va
      (fun h0 => hfree _ (hps.head_mem h0)) current own
    rw [← htasks] at hbuilt
    exact hbuilt

theorem set_carried {param : IoctlParam} {env : Env} {result : IoctlResult} (hidle : Idle s)
    (hlive : s.tasks current = some a) (hread : NameRead env)
    (h : customIoctl s current IOCTL_SET param env = .ok result) (own : Prop) :
    Carried s result.state (requestStrays s current IOCTL_SET param env) own := by
  rw [requestStrays, if_pos ⟨rfl, hread⟩]
  cases hv : s.registry.lookup (nameKey param) with
  | none =>
    rw [customIoctl_set hread, hv] at h
    cases h
    exact Carried.same s own
  | some v =>
    rw [Option.elim_some]
    by_cases h0 : v.overriddenSyscallsAddress = 0
    · rw [customIoctl_set hread, hv] at h
      dsimp only at h
      rw [if_pos h0] at h
      cases h
      rw [if_pos h0]
      exact count_carried s (nameKey param) 1 fun _ => .inl (by decide)
    · rw [customIoctl_set_found hidle.named.plain hread hv h0] at h
      cases h
      have htaken := take_carried hv current own
      rw [← State.setVectorInfo_tasks_of_live v.overriddenSyscallsAddress hlive] at htaken
      rw [if_neg h0]
      exact htaken

theorem remove_carried {param : IoctlParam} {env : Env} {result : IoctlResult}
    (hlive : s.tasks current = some a) (hread : NameRead env)
    (h : customIoctl s current IOCTL_REMOVE param env = .ok result)
    (hown : own → ∀ v, s.registry.lookup (nameKey param) = some v → Spendable v) :
    Carried s result.state (requestStrays s current IOCTL_REMOVE param env) own := by
  have hset : ¬(IOCTL_REMOVE = IOCTL_SET ∧ NameRead env) := fun h => absurd h.1 (by decide)
  rw [requestStrays, if_neg hset, if_pos ⟨rfl, hread⟩]
  rw [customIoctl_remove hread] at h
  cases hv : s.registry.lookup (nameKey param) with
  | none =>
    rw [hv] at h
    cases h
    exact Carried.same s own
  | some v =>
    rw [hv] at h
    dsimp only at h
    rw [Option.elim_some]
    by_cases hneg : (v.addRef (-1)).refcount < 0
    · rw [if_pos hneg] at h ⊢
      cases h
      rw [List.append_nil]
      exact count_carried s (nameKey param) (-1) fun ho => .inr ⟨rfl, hown ho⟩
    · rw [if_neg hneg] at h ⊢
      cases h
      have hdropped := drop_carried s (nameKey param) current (some 0)
        (fun b hb => (Option.some.inj hb).symm) hown
      rw [← State.setVectorInfo_tasks_of_live 0 hlive] at hdropped
      exact hdropped

theorem request_carried {request : UInt32} {param : IoctlParam} {env : Env}
    {result : IoctlResult} (hidle : Idle s) (hknown : Known s) (hlive : s.tasks current = some a)
    (hfresh : FreshNodes s.heap env.node)
    (h : customIoctl s current request param env = .ok result)
    (hown : own → request = IOCTL_REMOVE → NameRead env →
      ∀ v, s.registry.lookup (nameKey param) = some v → Spendable v) :
    Carried s result.state (requestStrays s current request param env) own := by
  have hsame (hs : result.state = s) (hnone : requestStrays s current request param env = []) :
      Carried s result.state (requestStrays s current request param env) own := by
    rw [hs, hnone]
    exact Carried.same s own
  by_cases hset : request = IOCTL_SET
  · subst hset
    by_cases hread : NameRead env
    · exact set_carried hidle hlive hread h own
    · refine hsame (customIoctl_name_unread (.inl rfl) hread h) ?_
      simp [requestStrays, hread, show IOCTL_SET ≠ IOCTL_CREATE_FROM_BITMAP by decide]
  by_cases hremove : request = IOCTL_REMOVE
  · subst hremove
    by_cases hread : NameRead env
    · exact remove_carried hlive hread h fun ho => hown ho rfl hread
    · refine hsame (customIoctl_name_unread (.inr rfl) hread h) ?_
      simp [requestStrays, hread, show IOCTL_REMOVE ≠ IOCTL_CREATE_FROM_BITMAP by decide]
  by_cases hcreate : request = IOCTL_CREATE_FROM_BITMAP
  · subst hcreate
    by_cases hread : BitmapRead env ∧ validateBitmap param.userBitmap = 0
    · rw [customIoctl_create hread.1 hread.2] at h
      rw [requestStrays, if_neg fun h => hset h.1, if_neg fun h => hremove h.1,
        if_pos ⟨rfl, hread⟩]
      cases hadd : addVectorFromBitmap s current param.userBitmap env with
      | error fault =>
        rw [hadd] at h
        cases h
      | ok p =>
        rw [hadd] at h
        cases h
        exact createOutcome_carried hidle hknown hlive hfresh (addVectorFromBitmap_cases hadd) own
    · refine hsame (customIoctl_bitmap_unread hread h) ?_
      rw [requestStrays, if_neg fun h => hset h.1, if_neg fun h => hremove h.1,
        if_neg fun h => hread h.2]
  · refine hsame (customIoctl_show hset hremove hcreate h) ?_
    rw [requestStrays, if_neg fun h => hset h.1, if_neg fun h => hremove h.1,
      if_neg fun h => hcreate h.1]

/-! ## Tasks -/

theorem copyProcess_carried (hlive : s.tasks current = some a) (hchild : s.tasks child = none)
    (flags : UInt64) (own : Prop) : Carried s (copyProcess s current child flags) [] own := by
  have hnothing : dropped s.registry (s.tasks child) 1 = [] := by rw [hchild, dropped]; rfl
  rw [copyProcess_live hlive]
  split
  case isTrue =>
    cases hv : s.registry.lookup (.address a) with
    | none =>
      have hretask := retask_carried s child (some a)
        (fun b _ hb he => not_mem_addresses hv (Option.some.inj he ▸ hb)) own
      rw [hnothing] at hretask
      rw [adjust_none hv]
      exact hretask
    | some v =>
      have htaken := take_carried hv child own
      rw [hnothing, lookup_address hv] at htaken
      exact htaken
  case isFalse =>
    have hretask := retask_carried s child (some 0)
      (fun b h0 _ he => h0 (Option.some.inj he).symm) own
    rw [hnothing] at hretask
    exact hretask

theorem exitTask_carried (hlive : s.tasks current = some a) (own : Prop) :
    Carried s (exitTask s current) [] own := by
  have hnone (b : Address) (hb : (none : Option Address) = some b) : b = 0 := by cases hb
  rw [exitTask_live hlive]
  split
  case isTrue h0 =>
    refine (retask_carried s current none (fun b _ _ he => by cases he) own).congr
      fun b hb => ?_
    rw [hlive, h0, balance_dropped, if_neg fun h => hb (Option.some.inj h.1).symm]
    rfl
  case isFalse h0 =>
    have hspend (v : StructVector) (hv : s.registry.lookup (.address a) = some v) : Spendable v :=
      .inl (lookup_address hv ▸ h0)
    refine (drop_carried s (.address a) current none hnone fun _ => hspend).congr
      fun b _ => ?_
    rw [hlive, balance_append, balance_moved_address, balance_dropped]
    simp only [Option.some.injEq]
    split <;> rfl

theorem cloneOutcome_carried {flags id : UInt64} {fork : ForkResult} (hfree : fork.Free s)
    (h : CloneOutcome s current flags id fork t) (own : Prop) :
    Carried s t (cloneStrays s current flags id fork) own := by
  have hnothing (child : Pid) (hchild : s.tasks child = none) (r : Registry) :
      dropped r (s.tasks child) 1 = [] := by rw [hchild, dropped]; rfl
  cases h with
  | @refused fork hflags hv =>
    have hnone : cloneStrays s current flags id fork = [] := by
      cases fork with
      | failed err => rw [cloneStrays, cloneKey, if_pos hflags, moved_none hv]
      | child pid => rw [cloneStrays, if_pos hflags, moved_none hv]
    rw [hnone]
    exact Carried.same s own
  | failed err => exact count_carried s _ 1 fun _ => .inl (by decide)
  | @inherited child v hflags hv =>
    have hcounted : Carried s { s with registry := s.registry.adjust (infoKey s current) 1 }
        (moved s.registry (infoKey s current) 1) own :=
      count_carried s (infoKey s current) 1 fun _ => .inl (by decide)
    obtain ⟨w, hw⟩ : ∃ w, (s.registry.adjust (infoKey s current) 1).lookup (infoKey s current) =
        some w := by
      have hmap := lookup_adjust_map s.registry (infoKey s current) (infoKey s current) 1
        StructVector.vectorId fun _ => rfl
      rw [hv, Option.map_some] at hmap
      obtain ⟨w, hw, -⟩ := Option.map_eq_some_iff.mp hmap
      exact ⟨w, hw⟩
    have htaken := take_carried
      (s := { s with registry := s.registry.adjust (infoKey s current) 1 }) hw child own
    have hboth := hcounted.trans htaken
    rw [lookup_address hw] at hboth
    dsimp only at hboth
    rw [hnothing child hfree, List.append_nil] at hboth
    rw [cloneStrays, if_pos hflags]
    exact hboth
  | @byId child hflags =>
    rw [cloneStrays, if_neg hflags]
    cases hv : s.registry.lookup (.bitmap id.toUInt32) with
    | none =>
      have hnull : foundChain s id.toUInt32 = 0 := by
        rw [foundChain, hv]
        rfl
      have hretask := retask_carried s child (some 0)
        (fun b h0 _ he => h0 (Option.some.inj he).symm) own
      rw [hnothing child hfree] at hretask
      rw [vectorById, hnull, if_neg (by decide), if_neg (by decide), adjust_none hv]
      exact hretask
    | some v =>
      rw [vectorById, foundChain_some hv]
      by_cases he : v.overriddenSyscallsAddress = -1
      · rw [if_pos he, if_pos he]
        refine (write_carried s (.bitmap id.toUInt32) 1 child (some 0)
          fun _ => .inl (by decide)).congr fun b h0 => ?_
        rw [hnothing child hfree, List.append_nil, balance_append, balance_dropped,
          if_neg fun h => h0 (Option.some.inj h.1).symm, Int.add_zero]
      · rw [if_neg he, if_neg he]
        have htaken := take_carried hv child own
        rw [hnothing child hfree] at htaken
        exact htaken

/-! ## Loads -/

theorem loadOutcome_carried {m : Module} {lost : List Address} (hknown : Known s)
    (h : LoadOutcome s m t lost) (own : Prop) : Carried s t [] own := by
  cases h with
  | dynamic | undone | unregistered => exact Carried.same s own
  | @registered b nodes hm hgrown =>
    have haddress := staticEntry_address m b.listHead
    intro l log hl
    have hpushed := hl.push (v := staticEntry m b.listHead) (c := 0)
      (staticEntry_refcount m b.listHead) (hl.backed _) (fun _ => rfl) fun h0 => by
        rw [haddress] at h0 ⊢
        have hfresh := hgrown.fresh _ (hgrown.chain.head_mem h0)
        exact ⟨fun hmem => hknown _ h0 (.inl hmem) hfresh,
          fun q hq => hknown _ h0 (.inr ⟨q, hq⟩) hfresh⟩
    refine ⟨_, hpushed.congr fun a _ => ?_, fun _ hpaid => ?_⟩
    · rw [balance_append, balance_append, balance_entry]
      simp [total]
    · intro e he h0
      rcases List.mem_cons.mp he with rfl | he
      · exact le_refl 0
      · exact hpaid e he h0

/-! ## Events that unload nothing -/

/-- Nothing is unloaded, and `unregister_syscall` is not called from outside the modules
either. -/
def KeepsModules : SessionOp → Prop
  | .system (.rmmod _) | .system (.unregister _) => False
  | _ => True

theorem sessionStep_carried {op : SessionOp} (hidle : Idle s) (hknown : Known s)
    (hfresh : op.Fresh s) (hkeeps : KeepsModules op) (h : sessionStep s op = some t) :
    Carried s t (strays s op) (∀ o, op = .system o → OwnReleases s o) := by
  cases op with
  | system op =>
    cases op with
    | ioctl current request param env =>
      obtain ⟨⟨a, hlive⟩, -, result, hcall, rfl⟩ := step_ioctl h
      refine request_carried hidle hknown hlive hfresh hcall fun hown hreq hread v hv => ?_
      subst hreq
      exact ((hown _ rfl).entitled current param env v rfl hread hv).spendable
    | copyProcess current child flags =>
      obtain ⟨⟨a, hlive⟩, hchild, rfl⟩ := step_copyProcess h
      exact copyProcess_carried hlive hchild flags _
    | exit current =>
      obtain ⟨⟨a, hlive⟩, rfl⟩ := step_exit h
      exact exitTask_carried hlive _
    | call c =>
      obtain rfl := Option.some.inj h
      rw [exec_fst]
      exact count_carried s (callKey c) (callDelta c) fun hown => (hown _ rfl).task.elim
    | unregister | rmmod => exact hkeeps.elim
  | insmod m node va => exact loadOutcome_carried hknown (sessionStep_insmod hfresh h).2 _
  | clone current flags id fork =>
    obtain ⟨-, hfree, houtcome⟩ := sessionStep_clone h
    exact cloneOutcome_carried hfree houtcome _
  | forkFails current flags =>
    obtain ⟨-, rfl⟩ := sessionStep_forkFails h
    rw [strays]
    split
    · exact count_carried s _ 1 fun _ => .inl (by decide)
    · exact Carried.same s _

/-! ## Nothing dangles before the first unload -/

theorem Known.registered_allocated (h : Known s) (hv : v ∈ s.registry.vecList)
    (h0 : v.overriddenSyscallsAddress ≠ 0) : s.heap v.overriddenSyscallsAddress ≠ none :=
  h _ h0 (.inl (mem_addresses hv))

theorem Known.adjust (h : Known s) (k : Key) (d : Int) :
    Known { s with registry := s.registry.adjust k d } := by
  intro a h0 ha
  rw [addresses_adjust] at ha
  exact h a h0 ha

theorem Known.write (h : Known s) (p : Pid) (info : Option Address)
    (hinfo : ∀ a, info = some a → a ≠ 0 → s.heap a ≠ none) :
    Known { s with tasks := Function.update s.tasks p info } := by
  rintro a h0 (ha | ⟨q, hq⟩)
  · exact h a h0 (.inl ha)
  · rcases holds_of_update hq with hold | he
    · exact h a h0 (.inr ⟨q, hold⟩)
    · exact hinfo a he h0

theorem Known.grow (h : Known s) {heap : Heap} (he : Extends s.heap heap) :
    Known { s with heap := heap } := by
  intro a h0 ha
  obtain ⟨n, hn⟩ := Option.ne_none_iff_exists'.mp (h a h0 ha)
  have hkept : heap a = some n := he a n hn
  simp [hkept]

theorem Known.push (h : Known s)
    (hv : v.overriddenSyscallsAddress ≠ 0 → s.heap v.overriddenSyscallsAddress ≠ none) :
    Known { s with registry := pushVector s.registry v } := by
  rintro a h0 (ha | hq)
  · rcases List.mem_cons.mp ha with rfl | ha
    · exact hv h0
    · exact h a h0 (.inl ha)
  · exact h a h0 (.inr hq)

theorem createOutcome_known {bitmap : UInt32} {env : Env} {err : Int32} (hidle : Idle s)
    (hknown : Known s) (hlive : s.tasks current = some a) (hfresh : FreshNodes s.heap env.node)
    (h : CreateOutcome s current bitmap env t err) : Known t := by
  have hsearched := hknown.adjust (.bitmap bitmap) 1
  cases h with
  | @reuse v hv h0 =>
    have hwritten := hsearched.write current (some v.overriddenSyscallsAddress)
      fun b hb _ => Option.some.inj hb ▸ hknown.registered_allocated (lookup_mem hv) h0
    rw [← State.setVectorInfo_tasks_of_live v.overriddenSyscallsAddress hlive] at hwritten
    exact hwritten
  | @abandon heap _ hheap =>
    have hsame : heap = s.heap := by
      rcases hheap with ⟨-, rfl⟩ | ⟨-, hdelete⟩
      · rfl
      · rw [deleteVector, if_pos hidle.listHead] at hdelete
        exact (Except.ok.inj hdelete).symm
    rw [hsame]
    exact hsearched
  | @build b ret _ _ _ hadd =>
    have hbuilt := createBuilt hidle.listHead hfresh hadd
    obtain ⟨ps, hps, -, -⟩ := hbuilt.chain
    have hhead (h0 : b.listHead ≠ 0) : b.heap b.listHead ≠ none := by
      obtain ⟨n, hn⟩ := hps.allocated _ (hps.head_mem h0)
      simp [hn]
    have hgrown := hsearched.grow hbuilt.grown
    have hwritten : Known { s with
        registry := registered s.registry bitmap b.listHead env.va
        tasks := Function.update s.tasks current (some b.listHead)
        heap := b.heap } := by
      refine Known.write (s := { s with
        registry := registered s.registry bitmap b.listHead env.va, heap := b.heap }) ?_ current
        _ fun c hc h0 => ?_
      · rw [registered]
        split
        · exact Known.push (s := { s with
            registry := (s.registry.adjust (.bitmap bitmap) 1).tryModuleGet .dynamicVector
            heap := b.heap }) hgrown hhead
        · exact hgrown
      · obtain rfl := Option.some.inj hc
        exact hhead h0
    rw [← State.setVectorInfo_tasks_of_live b.listHead hlive] at hwritten
    exact hwritten

theorem effect_known {request : UInt32} {param : IoctlParam} {env : Env} {result : IoctlResult}
    (hidle : Idle s) (hknown : Known s) (hlive : s.tasks current = some a)
    (hfresh : FreshNodes s.heap env.node)
    (h : IoctlEffect s current request param env result) : Known result.state := by
  cases h with
  | unchanged => exact hknown
  | setNull | removeDeficit => exact hknown.adjust _ _
  | @set v _ _ hv h0 =>
    have hwritten := (hknown.adjust (nameKey param) 1).write current
      (some v.overriddenSyscallsAddress)
      fun b hb _ => Option.some.inj hb ▸ hknown.registered_allocated (lookup_mem hv) h0
    rw [← State.setVectorInfo_tasks_of_live v.overriddenSyscallsAddress hlive] at hwritten
    exact hwritten
  | remove =>
    have hwritten := (hknown.adjust (nameKey param) (-1)).write current (some 0)
      fun b hb h0 => absurd (Option.some.inj hb).symm h0
    rw [← State.setVectorInfo_tasks_of_live 0 hlive] at hwritten
    exact hwritten
  | create _ _ _ hcreate => exact createOutcome_known hidle hknown hlive hfresh hcreate

theorem cloneOutcome_known {flags id : UInt64} {fork : ForkResult} (hknown : Known s)
    (hlive : s.tasks current = some a) (h : CloneOutcome s current flags id fork t) : Known t := by
  have hnull (b : Address) (hb : some (0 : Address) = some b) (h0 : b ≠ 0) : s.heap b ≠ none :=
    absurd (Option.some.inj hb).symm h0
  cases h with
  | refused => exact hknown
  | failed => exact hknown.adjust _ 1
  | inherited =>
    refine ((hknown.adjust _ 1).adjust _ 1).write _ _ fun b hb h0 => ?_
    rw [State.vectorInfo_of_live hlive] at hb
    exact hknown b h0 (.inr ⟨current, hb ▸ hlive⟩)
  | @byId child _ =>
    refine (hknown.adjust _ 1).write child _ fun b hb h0 => ?_
    cases hv : s.registry.lookup (.bitmap id.toUInt32) with
    | none =>
      rw [vectorById, foundChain, hv] at hb
      exact hnull b hb h0
    | some v =>
      rw [vectorById, foundChain_some hv] at hb
      split at hb
      · exact hnull b hb h0
      · obtain rfl := Option.some.inj hb
        exact hknown.registered_allocated (lookup_mem hv) h0

theorem loadOutcome_known {m : Module} {lost : List Address} (hknown : Known s)
    (h : LoadOutcome s m t lost) : Known t := by
  cases h with
  | dynamic | undone => exact hknown
  | unregistered _ hgrown => exact hknown.grow hgrown.extends
  | @registered b nodes _ hgrown =>
    refine (hknown.grow hgrown.extends).push fun h0 => ?_
    rw [staticEntry_address] at h0 ⊢
    obtain ⟨n, hn⟩ := hgrown.chain.allocated _ (hgrown.chain.head_mem h0)
    simp [hn]

theorem sessionStep_known {op : SessionOp} (hidle : Idle s) (hknown : Known s)
    (hfresh : op.Fresh s) (hkeeps : KeepsModules op) (h : sessionStep s op = some t) :
    Known t := by
  cases op with
  | system op =>
    cases op with
    | ioctl current request param env =>
      obtain ⟨⟨a, hlive⟩, -, result, hcall, rfl⟩ := step_ioctl h
      exact effect_known hidle hknown hlive hfresh (customIoctl_cases hidle.named.plain hcall)
    | copyProcess current child flags =>
      obtain ⟨⟨a, hlive⟩, -, rfl⟩ := step_copyProcess h
      rw [copyProcess_live hlive]
      split
      · exact (hknown.adjust _ 1).write child _ fun b hb h0 =>
          hknown b h0 (.inr ⟨current, hlive.trans hb⟩)
      · exact hknown.write child _ fun b hb h0 => absurd (Option.some.inj hb).symm h0
    | exit current =>
      obtain ⟨⟨a, hlive⟩, rfl⟩ := step_exit h
      rw [exitTask_live hlive]
      split
      · exact hknown.write current _ fun b hb _ => by cases hb
      · exact (hknown.adjust _ (-1)).write current _ fun b hb _ => by cases hb
    | call c =>
      obtain rfl := Option.some.inj h
      rw [exec_fst]
      exact hknown.adjust _ _
    | unregister | rmmod => exact hkeeps.elim
  | insmod m node va => exact loadOutcome_known hknown (sessionStep_insmod hfresh h).2
  | clone current flags id fork =>
    obtain ⟨⟨a, hlive⟩, -, houtcome⟩ := sessionStep_clone h
    exact cloneOutcome_known hknown hlive houtcome
  | forkFails current flags =>
    obtain ⟨-, rfl⟩ := sessionStep_forkFails h
    split
    · exact hknown.adjust _ 1
    · exact hknown

/-! ## Runs -/

theorem kernelState_explained (live : Pid → Bool) :
    Explained (kernelState live).registry (kernelState live).tasks [] [] := by
  refine ⟨⟨rfl, fun _ he => absurd he List.not_mem_nil⟩, .nil, fun m => le_refl 0,
    fun _ _ => rfl, fun _ he => absurd he List.not_mem_nil, fun _ _ _ => rfl⟩

theorem kernelState_task {live : Pid → Bool} {p : Pid} (h : (kernelState live).tasks p = some a) :
    a = 0 := by
  change (if live p then some 0 else none) = some a at h
  split at h
  · exact (Option.some.inj h).symm
  · cases h

theorem kernelState_known (live : Pid → Bool) : Known (kernelState live) := by
  rintro a h0 (ha | ⟨p, hp⟩)
  · cases ha
  · exact absurd (kernelState_task hp) h0

/-- In every session, as long as nothing is unloaded or unregistered, the count of a vector with
a chain is the number of tasks that hold the chain and the balance of the log at it, whoever has
released what and however many references are lost. -/
theorem references_explained {live : Pid → Bool} {log : Ledger Address}
    (h : Run (logged sessionStep strays) (fun x op => op.Fresh x.1 ∧ KeepsModules op)
      (kernelState live, []) (s, log)) (hv : v ∈ s.registry.vecList)
    (h0 : v.overriddenSyscallsAddress ≠ 0) :
    v.refcount = Int32.ofInt (holders s.tasks v.overriddenSyscallsAddress +
      balance log v.overriddenSyscallsAddress) := by
  have hexplained : (Idle s ∧ Known s) ∧ ∃ l, Explained s.registry s.tasks l log :=
    Run.invariant (fun x => (Idle x.1 ∧ Known x.1) ∧ ∃ l, Explained x.1.registry x.1.tasks l x.2)
      (fun x op y ⟨⟨hidle, hknown⟩, l, hl⟩ ⟨hfresh, hkeeps⟩ hstep => by
        obtain ⟨hmove, hlog⟩ := logged_eq_some hstep
        obtain ⟨l', hl', -⟩ := sessionStep_carried hidle hknown hfresh hkeeps hmove l x.2 hl
        exact ⟨⟨sessionStep_idle hidle hfresh hmove,
          sessionStep_known hidle hknown hfresh hkeeps hmove⟩, l', hlog ▸ hl'⟩)
      ⟨⟨kernelState_idle live, kernelState_known live⟩, [], kernelState_explained live⟩ h
  obtain ⟨-, l, hl⟩ := hexplained
  obtain ⟨c, hc⟩ := hl.recorded.count hv
  have hcount : c = holders s.tasks v.overriddenSyscallsAddress +
      balance log v.overriddenSyscallsAddress := hl.counts _ hc h0
  rw [← hcount]
  exact hl.recorded.counts _ hc

/-- vector1 is loaded, and task 1 takes `Vector55` twice. -/
def takenTwice : List SessionOp :=
  [.insmod .vector1 (slab 4096) 1,
    .system (.ioctl task1 IOCTL_SET (nameParam vector1Name) nodelessEnv),
    .system (.ioctl task1 IOCTL_SET (nameParam vector1Name) nodelessEnv)]

/-- One task holds the chain, and one reference is lost. -/
theorem references_explained_twice :
    ∃ s v log, steps (logged sessionStep strays) (kernelState sampleLive, []) takenTwice =
        some (s, log) ∧ log = [(4096, 1)] ∧ v ∈ s.registry.vecList ∧ v.refcount = 2 ∧
      v.refcount = Int32.ofInt (holders s.tasks v.overriddenSyscallsAddress +
        balance log v.overriddenSyscallsAddress) := by
  let load : SessionOp := .insmod .vector1 (slab 4096) 1
  let set : SessionOp := .system (.ioctl task1 IOCTL_SET (nameParam vector1Name) nodelessEnv)
  obtain ⟨x, hload, s, log, hsets⟩ : ∃ x, logged sessionStep strays (kernelState sampleLive, [])
      load = some x ∧ ∃ s log, steps (logged sessionStep strays) x [set, set] = some (s, log) :=
    ⟨_, rfl, _, _, rfl⟩
  have hs : steps (logged sessionStep strays) (kernelState sampleLive, []) takenTwice =
      some (s, log) := by
    rw [takenTwice, steps, hload]
    exact hsets
  have hend : (steps (logged sessionStep strays) (kernelState sampleLive, []) takenTwice).map
      (fun x => (x.1.registry.vecList.map fun v =>
        (v.refcount, v.overriddenSyscallsAddress), x.2)) =
      some ([(2, 4096)], [(4096, 1)]) := by decide
  rw [hs] at hend
  obtain ⟨hlist, hlog⟩ := Prod.mk.inj (Option.some.inj hend)
  have hmem : ((2 : Int32), (4096 : Address)) ∈
      s.registry.vecList.map fun v => (v.refcount, v.overriddenSyscallsAddress) := by
    rw [hlist]
    decide
  obtain ⟨v, hv, hpair⟩ := List.mem_map.mp hmem
  obtain ⟨hcount, haddress⟩ := Prod.mk.inj hpair
  have hloaded : Run (logged sessionStep strays) (fun x op => op.Fresh x.1 ∧ KeepsModules op)
      (kernelState sampleLive, []) x :=
    Run.single (a := load) ⟨freshNodes_slab (by decide) fun _ _ => rfl, trivial⟩ hload
  have hrun := hloaded.trans (Run.of_steps (fun t op hop => by
    obtain rfl : op = set := by simpa using hop
    exact ⟨freshNodes_nodelessEnv _, trivial⟩) hsets)
  exact ⟨s, v, log, hs, hlog, hv, hcount, references_explained hrun hv (by rw [haddress]; decide)⟩

end

end SyscallVector.Audit
