import SyscallVector.Lib.Forest
import SyscallVector.Lib.Holders
import SyscallVector.Audit.Addresses
import SyscallVector.Audit.ReferenceLedger

/-!
# Who keeps a chain alive

A task may keep the address of a chain only while the module that owns the chain
cannot be unloaded. `Safe` ties the four records together: the exact counts cover the
tasks that hold a chain, the modules cover the exact counts, every registered chain
belongs to a loaded module, and every pointer is to a chain that is still there. Each
operation on the registry, the tasks and the heap keeps it under the condition stated
here; a release needs a task that is entitled to it.
-/
namespace SyscallVector.Audit

set_option autoImplicit false

open Lib Model

/-- The ledger covers the holders of every chain, the modules cover the ledger, and
what is registered or held is owned. A chain whose registration failed is covered by
the reference that `add_vector_from_bitmap` took to its module. -/
structure Safe (r : Registry) (tasks : Pid → Option Address) (heap : Heap)
    (own : List (Module × Address)) (l : Ledger StructVector) : Prop where
  recorded : Recorded l r
  backed : ∀ m, 0 ≤ surplus l r m
  counts : ∀ e ∈ l, 0 ≤ e.2
  covers : ∀ e ∈ l, e.1.overriddenSyscallsAddress ≠ 0 →
    (holders tasks e.1.overriddenSyscallsAddress : ℤ) ≤ e.2
  distinct : DistinctAddresses r
  owners : ∀ v ∈ r.vecList, v.overriddenSyscallsAddress ≠ 0 →
    (v.vectorModule, v.overriddenSyscallsAddress) ∈ own
  forest : Forest OverriddenSyscall.nextSyscall 0 heap (own.map Prod.snd)
  pointers : ∀ p a, tasks p = some a → a ≠ 0 →
    a ∈ addresses r ∨ (.dynamicVector, a) ∈ own ∧ 0 < surplus l r .dynamicVector

section
variable {r : Registry} {tasks tasks' : Pid → Option Address} {heap heap' : Heap}
  {own own' : List (Module × Address)} {l : Ledger StructVector} {k : Key} {v : StructVector}

theorem Safe.perm (h : Safe r tasks heap own l) (hp : own.Perm own') :
    Safe r tasks heap own' l :=
  { h with
    owners := fun v hv h0 => hp.mem_iff.mp (h.owners v hv h0)
    forest := h.forest.perm (hp.map Prod.snd)
    pointers := fun p a hp' h0 => (h.pointers p a hp' h0).imp_right fun ho =>
      ⟨hp.mem_iff.mp ho.1, ho.2⟩ }

/-- A pointer that is not NULL is the head of a chain. -/
theorem Safe.chain (h : Safe r tasks heap own l) {p : Pid} {a : Address}
    (hp : tasks p = some a) (h0 : a ≠ 0) : heap a ≠ none ∧ ∃ ps, ChainAt heap a ps := by
  have hown : a ∈ own.map Prod.snd := by
    rcases h.pointers p a hp h0 with hreg | ⟨hown, -⟩
    · obtain ⟨v, hv, rfl⟩ := List.mem_map.mp hreg
      exact List.mem_map_of_mem (h.owners v hv h0)
    · exact List.mem_map_of_mem hown
  exact ⟨h.forest.allocated hown h0, h.forest.segs a hown⟩

/-! ## Moving counts and pointers -/

/-- Tasks may give up pointers, and take copies of those that lead to no entry. -/
theorem Safe.retask (h : Safe r tasks heap own l)
    (hholders : ∀ a ∈ addresses r, a ≠ 0 → holders tasks' a ≤ holders tasks a)
    (hpointers : ∀ p a, tasks' p = some a → a ≠ 0 → ∃ q, tasks q = some a) :
    Safe r tasks' heap own l :=
  { h with
    covers := fun e he h0 => by
      have hle := hholders _ (mem_addresses (h.recorded.mem he)) h0
      have hcover := h.covers e he h0
      omega
    pointers := fun p a hp h0 => by
      obtain ⟨q, hq⟩ := hpointers p a hp h0
      exact h.pointers q a hq h0 }

/-- An entry of the ledger after a move is the one moved or leads to another chain. -/
theorem Recorded.mem_move (hr : Recorded l r) (hdistinct : DistinctAddresses r) {c d : ℤ}
    (hc : entryOf k.isMatch l = some (v, c)) {e : StructVector × ℤ} (he : e ∈ ledgerMove k d l) :
    e = (v.addRef d, c + d) ∨ e ∈ l ∧ (e.1.overriddenSyscallsAddress ≠ 0 →
      e.1.overriddenSyscallsAddress ≠ v.overriddenSyscallsAddress) := by
  obtain ⟨as, bs, hl, hmove⟩ := move_split (f := StructVector.addRef d) (d := d) hc
  have hlist : r.vecList = as.map Prod.fst ++ v :: bs.map Prod.fst := by
    rw [← hr.entries, hl, List.map_append, List.map_cons]
  have hrest (he : e ∈ as ++ bs) : e ∈ l ∧ (e.1.overriddenSyscallsAddress ≠ 0 →
      e.1.overriddenSyscallsAddress ≠ v.overriddenSyscallsAddress) := by
    constructor
    · rw [hl]
      exact ((List.sublist_cons_self (v, c) bs).append_left as).mem he
    · refine hdistinct.apart hlist e.1 ?_
      rw [← List.map_append]
      exact List.mem_map_of_mem he
  rw [ledgerMove, hmove] at he
  rcases List.mem_append.mp he with he | he
  · exact .inr (hrest (List.mem_append_left _ he))
  · rcases List.mem_cons.mp he with rfl | he
    · exact .inl rfl
    · exact .inr (hrest (List.mem_append_right _ he))

/-- The count of the first match moves by `d` while pointers to its chain may come and
go, as long as the new count covers the new holders. -/
theorem Safe.adjust (h : Safe r tasks heap own l) (hv : r.lookup k = some v) :
    ∃ c : ℤ, v.refcount = Int32.ofInt c ∧ 0 ≤ c ∧
      (v.overriddenSyscallsAddress ≠ 0 → (holders tasks v.overriddenSyscallsAddress : ℤ) ≤ c) ∧
      ∀ (d : ℤ) (tasks' : Pid → Option Address), 0 ≤ c + d →
        (v.overriddenSyscallsAddress ≠ 0 →
          (holders tasks' v.overriddenSyscallsAddress : ℤ) ≤ c + d) →
        (∀ a, a ≠ 0 → a ≠ v.overriddenSyscallsAddress → holders tasks' a ≤ holders tasks a) →
        (∀ p a, tasks' p = some a → a ≠ 0 →
          (∃ q, tasks q = some a) ∨ a = v.overriddenSyscallsAddress) →
        ∃ l', Safe (r.adjust k d) tasks' heap own l' := by
  obtain ⟨c, hc⟩ := h.recorded.found hv
  have hmem := entryOf_mem hc
  refine ⟨c, h.recorded.counts _ hmem, h.counts _ hmem, h.covers _ hmem, ?_⟩
  intro d tasks' hnonneg hself hother hpointers
  refine ⟨ledgerMove k d l, ?_⟩
  constructor
  case recorded => exact h.recorded.adjust k d
  case backed =>
    intro m
    rw [surplus_adjust h.recorded]
    exact h.backed m
  case counts =>
    intro e he
    rcases h.recorded.mem_move h.distinct hc he with rfl | ⟨he, -⟩
    · exact hnonneg
    · exact h.counts e he
  case covers =>
    intro e he h0
    rcases h.recorded.mem_move h.distinct hc he with rfl | ⟨he, happart⟩
    · exact hself h0
    · have hle := hother _ h0 (happart h0)
      have hcover := h.covers e he h0
      omega
  case distinct => exact h.distinct.adjust k d
  case owners => exact forall_mem_adjust (fun _ hw => hw) h.owners k
  case forest => exact h.forest
  case pointers =>
    intro p a hp h0
    rw [addresses_adjust, surplus_adjust h.recorded]
    rcases hpointers p a hp h0 with ⟨q, hq⟩ | rfl
    · exact h.pointers q a hq h0
    · exact .inl (mem_addresses (lookup_mem hv))

/-- A reference taken for nobody. -/
theorem Safe.acquire (h : Safe r tasks heap own l) (k : Key) :
    ∃ l', Safe (r.adjust k 1) tasks heap own l' := by
  cases hv : r.lookup k with
  | none =>
    rw [adjust_none hv]
    exact ⟨l, h⟩
  | some v =>
    obtain ⟨c, -, hnonneg, hcover, hmove⟩ := h.adjust hv
    refine hmove 1 tasks (by omega) (fun h0 => ?_) (fun _ _ _ => le_refl _)
      fun p a hp _ => .inl ⟨p, hp⟩
    have := hcover h0
    omega

/-- A reference taken for a task, which then holds the chain. -/
theorem Safe.take (h : Safe r tasks heap own l) (hv : r.lookup k = some v) (p : Pid) :
    ∃ l', Safe (r.adjust k 1) (Function.update tasks p (some v.overriddenSyscallsAddress)) heap
      own l' := by
  obtain ⟨c, -, hnonneg, hcover, hmove⟩ := h.adjust hv
  refine hmove 1 _ (by omega) (fun h0 => ?_) (fun a _ hne => ?_) fun q a hq _ => ?_
  · have hle := holders_update_le_succ tasks p v.overriddenSyscallsAddress
      (some v.overriddenSyscallsAddress)
    have := hcover h0
    omega
  · exact holders_update_le fun he => hne (Option.some.inj he).symm
  · exact (holds_of_update hq).imp (fun hold => ⟨q, hold⟩) fun he => (Option.some.inj he).symm

/-- A task gives its pointer up, if it has one. -/
theorem Safe.clear (h : Safe r tasks heap own l) (p : Pid) {x : Option Address}
    (hx : ∀ a, x = some a → a = 0) : Safe r (Function.update tasks p x) heap own l := by
  refine h.retask (fun a _ h0 => holders_update_le fun he => h0 (hx a he)) fun q a hq h0 => ?_
  exact ⟨q, (holds_of_update hq).resolve_right fun he => h0 (hx a he)⟩

/-! ## Releases -/

/-- The tasks that rely on a vector's chain; a NULL chain has none. -/
def users (tasks : Pid → Option Address) (v : StructVector) : Nat :=
  if v.overriddenSyscallsAddress = 0 then 0 else holders tasks v.overriddenSyscallsAddress

/-- The task holds the vector's chain, or the vector has a reference that nobody uses. -/
def Entitled (tasks : Pid → Option Address) (p : Pid) (v : StructVector) : Prop :=
  v.overriddenSyscallsAddress ≠ 0 ∧ tasks p = some v.overriddenSyscallsAddress ∨
    (users tasks v : ℤ) < v.refcount.toInt

theorem users_of_ne (h : v.overriddenSyscallsAddress ≠ 0) :
    users tasks v = holders tasks v.overriddenSyscallsAddress := if_neg h

/-- A count that is not negative is at least what its truncation shows. -/
theorem toInt_le_exact {x : Int32} {c : ℤ} (h : x = Int32.ofInt c) (hc : 0 ≤ c) : x.toInt ≤ c := by
  have hsize : (Int32.size : ℤ) = 2 ^ 32 := rfl
  rw [h, Int32.toInt_ofInt, Int.bmod_def, hsize]
  split <;> omega

/-- A positive exact count that shows as a number from just above `INT_MIN` to zero has
wrapped. -/
theorem exact_of_nonpos {x : Int32} {c : ℤ} (h : x = Int32.ofInt c) (hc : 0 < c)
    (hx : x ≤ 0) : 2 ^ 31 ≤ c := by
  have hsize : (Int32.size : ℤ) = 2 ^ 32 := rfl
  rw [h, Int32.le_iff_toInt_le, Int32.toInt_ofInt, Int32.toInt_zero, Int.bmod_def, hsize] at hx
  split at hx <;> omega

/-- A reference dropped by a task that is entitled to, which gives its pointer up. -/
theorem Safe.release (h : Safe r tasks heap own l) (hv : r.lookup k = some v) {p : Pid}
    (hent : Entitled tasks p v) {x : Option Address} (hx : ∀ a, x = some a → a = 0) :
    ∃ l', Safe (r.adjust k (-1)) (Function.update tasks p x) heap own l' := by
  obtain ⟨c, hcount, hnonneg, hcover, hmove⟩ := h.adjust hv
  have hpointers (q : Pid) (a : Address) (hq : Function.update tasks p x q = some a)
      (h0 : a ≠ 0) : (∃ q, tasks q = some a) ∨ a = v.overriddenSyscallsAddress :=
    .inl ⟨q, (holds_of_update hq).resolve_right fun he => h0 (hx a he)⟩
  have hle (a : Address) (h0 : a ≠ 0) : holders (Function.update tasks p x) a ≤ holders tasks a :=
    holders_update_le fun he => h0 (hx a he)
  rcases hent with ⟨h0, hp⟩ | hunused
  · have hpos := holders_pos hp
    have hdrop := holders_update_drop hp fun he => h0 (hx _ he)
    have hc := hcover h0
    exact hmove (-1) _ (by omega) (fun _ => by omega) (fun a ha _ => hle a ha) hpointers
  · have hshown := toInt_le_exact hcount hnonneg
    refine hmove (-1) _ (by omega) (fun h0 => ?_) (fun a ha _ => hle a ha) hpointers
    rw [users_of_ne h0] at hunused
    have := hle _ h0
    omega

/-- A reference dropped by a task that is entitled to and keeps its pointer, because
the count left looks negative: the count has wrapped and covers every task. -/
theorem Safe.releaseKept (h : Safe r tasks heap own l) (hv : r.lookup k = some v) {p : Pid}
    (hent : Entitled tasks p v) (hneg : (v.addRef (-1)).refcount < 0) :
    ∃ l', Safe (r.adjust k (-1)) tasks heap own l' := by
  obtain ⟨c, hcount, hnonneg, hcover, hmove⟩ := h.adjust hv
  obtain ⟨-, hnonpos⟩ := (addRef_neg_iff v).mp hneg
  have hshown := Int32.le_iff_toInt_le.mp hnonpos
  rw [Int32.toInt_zero] at hshown
  rcases hent with ⟨h0, hp⟩ | hunused
  · have hpos := holders_pos hp
    have hc := hcover h0
    have hwrapped := exact_of_nonpos hcount (by omega) hnonpos
    have hcard := card_pid_lt
    have hbound := holders_le_card tasks v.overriddenSyscallsAddress
    exact hmove (-1) tasks (by omega) (fun _ => by omega) (fun _ _ _ => le_refl _)
      fun q a hq _ => .inl ⟨q, hq⟩
  · omega

/-! ## Building -/

/-- A chain on free nodes joins what is owned; nobody knows its head yet. -/
theorem Safe.plant (h : Safe r tasks heap own l) {b : Builder}
    {entries : List (SyscallNr × Handler)} (hbuilt : Built heap b entries) :
    Safe r tasks b.heap (own ++ [(.dynamicVector, b.listHead)]) l ∧
      (b.listHead ≠ 0 → b.listHead ∉ addresses r ∧ ∀ q, tasks q ≠ some b.listHead) := by
  obtain ⟨ps, hps, -, hfree⟩ := hbuilt.chain
  constructor
  · have hplant := h.forest.plant hbuilt.grown hps hfree
    refine { h with owners := ?_, forest := ?_, pointers := ?_ }
    · exact fun v hv h0 => List.mem_append_left _ (h.owners v hv h0)
    · rw [List.map_append]
      exact hplant.perm (List.perm_append_singleton _ _).symm
    · exact fun p a hp h0 => (h.pointers p a hp h0).imp_right fun ho =>
        ⟨List.mem_append_left _ ho.1, ho.2⟩
  · intro h0
    have hnone := hfree _ (hps.head_mem h0)
    constructor
    · intro hmem
      obtain ⟨v, hv, ha⟩ := List.mem_map.mp hmem
      have hown := List.mem_map_of_mem (f := Prod.snd) (h.owners v hv (ha ▸ h0))
      exact h.forest.allocated hown (ha ▸ h0) (ha ▸ hnone)
    · exact fun q hq => (h.chain hq h0).1 hnone

/-- A new entry for an owned chain that nobody holds, given to one task. -/
theorem Safe.enroll (h : Safe r tasks heap own l) {a : Address} (bitmap : UInt32) (p : Pid)
    (hown : (.dynamicVector, a) ∈ own)
    (hnew : a ≠ 0 → a ∉ addresses r ∧ ∀ q, tasks q ≠ some a) :
    ∃ l', Safe (pushVector (r.tryModuleGet .dynamicVector) (dynamicEntry bitmap a))
      (Function.update tasks p (some a)) heap own l' := by
  have hsurplus (m : Module) : surplus ((dynamicEntry bitmap a, 1) :: l)
      (pushVector (r.tryModuleGet .dynamicVector) (dynamicEntry bitmap a)) m = surplus l r m := by
    rw [surplus_push, surplus_tryModuleGet]
    change _ + _ - (if Module.dynamicVector = m then (1 : ℤ) else 0) = _
    omega
  refine ⟨(dynamicEntry bitmap a, 1) :: l, ?_⟩
  constructor
  case recorded => exact (h.recorded.tryModuleGet .dynamicVector).push rfl
  case backed =>
    intro m
    rw [hsurplus]
    exact h.backed m
  case counts =>
    intro e he
    rcases List.mem_cons.mp he with rfl | he
    · exact Int.one_nonneg
    · exact h.counts e he
  case covers =>
    intro e he h0
    rcases List.mem_cons.mp he with rfl | he
    · have hzero := (holders_eq_zero_iff tasks a).mpr (hnew h0).2
      have hle := holders_update_le_succ tasks p a (some a)
      change ((holders (Function.update tasks p (some a)) a : Nat) : ℤ) ≤ 1
      omega
    · have hne : e.1.overriddenSyscallsAddress ≠ a := by
        intro he'
        exact (hnew (he' ▸ h0)).1 (he' ▸ mem_addresses (h.recorded.mem he))
      have hle : holders (Function.update tasks p (some a)) e.1.overriddenSyscallsAddress ≤
          holders tasks e.1.overriddenSyscallsAddress :=
        holders_update_le fun he' => hne (Option.some.inj he').symm
      have hcover := h.covers e he h0
      omega
  case distinct => exact DistinctAddresses.push h.distinct fun h0 => (hnew h0).1
  case owners =>
    intro w hw h0
    rcases List.mem_cons.mp hw with rfl | hw
    · exact hown
    · exact h.owners w hw h0
  case forest => exact h.forest
  case pointers =>
    intro q b hq h0
    rw [hsurplus]
    rcases holds_of_update hq with hold | he
    · exact (h.pointers q b hold h0).imp_left (List.mem_cons_of_mem _)
    · obtain rfl := Option.some.inj he
      exact .inl List.mem_cons_self

/-- An owned chain that nobody holds and that could not be registered, given to one task. -/
theorem Safe.orphan (h : Safe r tasks heap own l) {a : Address} (p : Pid)
    (hown : (.dynamicVector, a) ∈ own)
    (hnew : a ≠ 0 → a ∉ addresses r ∧ ∀ q, tasks q ≠ some a) :
    Safe (r.tryModuleGet .dynamicVector) (Function.update tasks p (some a)) heap own l := by
  have hsurplus := surplus_tryModuleGet l r .dynamicVector
  have hself : surplus l (r.tryModuleGet .dynamicVector) .dynamicVector =
      surplus l r .dynamicVector + 1 := by rw [hsurplus, if_pos rfl]
  have hbacked := h.backed .dynamicVector
  constructor
  case recorded => exact h.recorded.tryModuleGet .dynamicVector
  case backed =>
    intro m
    have hm := h.backed m
    rw [hsurplus]
    split <;> omega
  case counts => exact h.counts
  case covers =>
    intro e he h0
    have hne : e.1.overriddenSyscallsAddress ≠ a := by
      intro he'
      exact (hnew (he' ▸ h0)).1 (he' ▸ mem_addresses (h.recorded.mem he))
    have hle : holders (Function.update tasks p (some a)) e.1.overriddenSyscallsAddress ≤
        holders tasks e.1.overriddenSyscallsAddress :=
      holders_update_le fun he' => hne (Option.some.inj he').symm
    have hcover := h.covers e he h0
    omega
  case distinct => exact h.distinct
  case owners => exact h.owners
  case forest => exact h.forest
  case pointers =>
    intro q b hq h0
    rw [hself]
    rcases holds_of_update hq with hold | he
    · exact (h.pointers q b hold h0).imp_right fun ho => ⟨ho.1, by omega⟩
    · obtain rfl := Option.some.inj he
      exact .inr ⟨hown, by omega⟩

theorem Safe.build (h : Safe r tasks heap own l) {b : Builder}
    {entries : List (SyscallNr × Handler)} (hbuilt : Built heap b entries) (bitmap : UInt32)
    (va : Address) (p : Pid) :
    ∃ l', Safe (registered r bitmap b.listHead va) (Function.update tasks p (some b.listHead))
      b.heap (own ++ [(.dynamicVector, b.listHead)]) l' := by
  obtain ⟨l₁, h₁⟩ := h.acquire (.bitmap bitmap)
  obtain ⟨hplanted, hnew⟩ := h₁.plant hbuilt
  have hown : (Module.dynamicVector, b.listHead) ∈ own ++ [(.dynamicVector, b.listHead)] :=
    List.mem_append_right _ List.mem_cons_self
  rw [registered]
  split
  · exact hplanted.enroll bitmap p hown hnew
  · exact ⟨l₁, hplanted.orphan p hown hnew⟩

/-! ## Unloading -/

/-- An address that nobody holds and whose entry has no references is unregistered. -/
theorem Safe.unregister (h : Safe r tasks heap own l) {a : Address}
    (hidle : a ≠ 0 → ∀ p, tasks p ≠ some a)
    (hzero : a ≠ 0 → ∀ e ∈ l, e.1.overriddenSyscallsAddress = a → e.2 = 0) :
    ∃ l', Safe (unregisterSyscall r a).1 tasks heap own l' ∧
      (a ≠ 0 → a ∉ addresses (unregisterSyscall r a).1) := by
  rcases unregisterSyscall_cases r a with ⟨hv, hr⟩ | ⟨v, hv, hcase⟩
  · rw [hr]
    exact ⟨l, h, fun _ => not_mem_addresses hv⟩
  obtain ⟨c, hc⟩ := h.recorded.found hv
  have haddress := lookup_address hv
  rcases hcase with ⟨hcount, hr⟩ | ⟨-, hr⟩
  · -- an entry that is refused has a positive exact count
    rw [hr]
    refine ⟨l, h, fun h0 => ?_⟩
    have hexact := h.recorded.counts _ (entryOf_mem hc)
    rw [hzero h0 _ (entryOf_mem hc) haddress] at hexact
    change v.refcount = 0 at hexact
    rw [hexact] at hcount
    exact absurd hcount (by decide)
  · rw [hr]
    have hmoved (m : Module) :
        surplus l r m ≤ surplus (l.eraseP fun e => addressIs a e.1) (eraseAddress r a) m := by
      have hnonneg := h.counts _ (entryOf_mem hc)
      have herased := surplus_eraseP (r := r) hc (eraseAddress r a) rfl m
      change surplus (l.eraseP fun e => addressIs a e.1) (eraseAddress r a) m = _ at herased
      rw [herased]
      split <;> omega
    refine ⟨l.eraseP fun e => addressIs a e.1, ?_, h.distinct.not_mem_erase hv⟩
    constructor
    case recorded => exact h.recorded.eraseP (addressIs a)
    case backed => exact fun m => (h.backed m).trans (hmoved m)
    case counts => exact fun e he => h.counts e (List.mem_of_mem_eraseP he)
    case covers => exact fun e he => h.covers e (List.mem_of_mem_eraseP he)
    case distinct => exact h.distinct.erase a
    case owners => exact fun w hw => h.owners w (List.mem_of_mem_eraseP hw)
    case forest => exact h.forest
    case pointers =>
      intro p b hp h0
      have hne : b ≠ a := by
        rintro rfl
        exact hidle h0 p hp
      rcases h.pointers p b hp h0 with hmem | ⟨hown, hsurplus⟩
      · exact .inl (mem_addresses_erase hv hmem hne)
      · exact .inr ⟨hown, hsurplus.trans_le (hmoved _)⟩

/-- A chain that is neither registered nor held is deleted. -/
theorem Safe.delete {m : Module} {a : Address} (h : Safe r tasks heap ((m, a) :: own) l)
    (hidle : a ≠ 0 → a ∉ addresses r ∧ ∀ p, tasks p ≠ some a) :
    ∃ heap', deleteVector heap a = .ok heap' ∧ Safe r tasks heap' own l := by
  obtain ⟨ps, hps⟩ := h.forest.segs a List.mem_cons_self
  refine ⟨_, deleteVector_chain hps, ?_⟩
  have hforest : Forest OverriddenSyscall.nextSyscall 0
      (fun b => if b ∈ ps then none else heap b) (own.map Prod.snd) :=
    Forest.fell h.forest hps fun b hb => if_neg hb
  refine { h with owners := ?_, forest := hforest, pointers := ?_ }
  · intro v hv h0
    refine (List.mem_cons.mp (h.owners v hv h0)).resolve_left fun he => ?_
    have haddress : v.overriddenSyscallsAddress = a := congrArg Prod.snd he
    exact (hidle (haddress ▸ h0)).1 (haddress ▸ mem_addresses hv)
  · intro p b hp h0
    refine (h.pointers p b hp h0).imp_right fun ho => ⟨?_, ho.2⟩
    refine (List.mem_cons.mp ho.1).resolve_left fun he => ?_
    have haddress : b = a := congrArg Prod.snd he
    exact (hidle (haddress ▸ h0)).2 p (haddress ▸ hp)

/-- A chain has one owner. -/
theorem Safe.owner {m m' : Module} {a : Address} (h : Safe r tasks heap ((m, a) :: own) l)
    (h0 : a ≠ 0) (hown : (m', a) ∈ (m, a) :: own) : m' = m := by
  have hdistinct := h.forest.distinct
  rw [List.map_cons, List.pairwise_cons] at hdistinct
  rcases List.mem_cons.mp hown with he | hown
  · exact congrArg Prod.fst he
  · exact absurd rfl (hdistinct.1 a (List.mem_map_of_mem hown) h0)

/-- The exact counts of a module without references are zero. -/
theorem Safe.unreferenced (h : Safe r tasks heap own l) {m : Module} (hrefs : r.moduleRefs m = 0) :
    surplus l r m = 0 ∧ ∀ e ∈ l, e.1.vectorModule = m → e.2 = 0 := by
  have hbacked := h.backed m
  have hnonneg := total_nonneg StructVector.vectorModule m fun e he _ => h.counts e he
  rw [surplus, hrefs] at hbacked
  refine ⟨by rw [surplus, hrefs]; omega, ?_⟩
  rintro e he rfl
  obtain ⟨as, bs, hl⟩ := List.append_of_mem he
  have hother : ∀ e' ∈ as ++ bs, e'.1.vectorModule = e.1.vectorModule → 0 ≤ e'.2 := by
    intro e' he' _
    refine h.counts e' ?_
    rw [hl]
    exact ((List.sublist_cons_self e bs).append_left as).mem he'
  have hle := le_total StructVector.vectorModule e hother
  rw [← hl] at hle
  have hcount := h.counts e he
  omega

/-- A module without references unregisters and deletes one of its chains. -/
theorem Safe.retire {m : Module} {a : Address} (h : Safe r tasks heap ((m, a) :: own) l)
    (hrefs : r.moduleRefs m = 0) :
    ∃ heap' l', deleteVector heap a = .ok heap' ∧
      Safe (unregisterSyscall r a).1 tasks heap' own l' := by
  obtain ⟨hsurplus, hzero⟩ := h.unreferenced hrefs
  have hentry : a ≠ 0 → ∀ e ∈ l, e.1.overriddenSyscallsAddress = a → e.2 = 0 := by
    rintro h0 e he rfl
    exact hzero e he (h.owner h0 (h.owners _ (h.recorded.mem he) h0))
  have hidle : a ≠ 0 → ∀ p, tasks p ≠ some a := by
    intro h0 p hp
    rcases h.pointers p a hp h0 with hmem | ⟨hown, hpos⟩
    · obtain ⟨v, hv, haddress⟩ := List.mem_map.mp hmem
      obtain ⟨c, hc⟩ := h.recorded.count hv
      have hcover := h.covers _ hc (haddress ▸ h0)
      have hpos := holders_pos hp
      rw [hentry h0 _ hc haddress, haddress] at hcover
      omega
    · rw [h.owner h0 hown, hsurplus] at hpos
      exact absurd hpos (by decide)
  obtain ⟨l', h', hgone⟩ := h.unregister hidle hentry
  obtain ⟨heap', hdelete, hsafe⟩ := h'.delete fun h0 => ⟨hgone h0, hidle h0⟩
  exact ⟨heap', l', hdelete, hsafe⟩

end

end SyscallVector.Audit
