import SyscallVector.Audit.ChainAccounts

/-!
# What a session leaves behind

A session without foreign releases, in which clones and failed forks may leak as they do, keeps
every pointer on a chain that is there. Each registered vector stands for one chain that its
module owns, and a module that is not loaded has no references. So once the modules are
unloaded the kernel is as it was, except for the chains of loads that failed.
-/
namespace SyscallVector.Audit

set_option autoImplicit false

open Lib Model

/-- Nobody releases what is not its own, and only the ioctl device takes and drops
references. -/
structure OwnSession (s : State) (op : SessionOp) : Prop where
  fresh : op.Fresh s
  own : ∀ o, op = .system o → OwnReleases s o

/-- The module and the chain of an entry. -/
def ownerOf (v : StructVector) : Module × Address :=
  (v.vectorModule, v.overriddenSyscallsAddress)

/-- Every entry stands for a chain of its own, and modules that are not loaded have no
references. -/
structure Placed (r : Registry) (own : List (Module × Address)) (loaded : Module → Bool) :
    Prop where
  entries : (r.vecList.map ownerOf).Subperm own
  refs : ∀ m, loaded m = false → r.moduleRefs m = 0

/-- What holds in every state of a session without foreign releases. -/
structure Tidy (s : State) (lost : List Address) : Prop where
  accounted : Accounted s lost
  safe : ∃ l, Safe s.registry s.tasks s.heap (owned s) l
  heads : ∀ m, m = .vector1 ∨ m = .vector2 → s.loaded m = true → s.listHead m ≠ 0
  placed : Placed s.registry (owned s) s.loaded

/-! ## Safety of loads and clones -/

section
variable {r : Registry} {tasks : Pid → Option Address} {heap heap' : Heap}
  {own : List (Module × Address)} {l : Ledger StructVector} {k : Key} {v : StructVector}

theorem Safe.grow (h : Safe r tasks heap own l) (he : Extends heap heap') :
    Safe r tasks heap' own l :=
  { h with forest := h.forest.extends he }

/-- A chain that a load has built, with its entry. -/
theorem Safe.settle (h : Safe r tasks heap own l) {nodes : List (Address × SyscallNr × Handler)}
    {b : Builder} (hgrown : Grown heap nodes b) {m : Module}
    (hm : m = .vector1 ∨ m = .vector2) :
    Safe (pushVector r (staticEntry m b.listHead)) tasks b.heap ((m, b.listHead) :: own)
      ((staticEntry m b.listHead, 0) :: l) := by
  have hcount : (staticEntry m b.listHead).refcount = Int32.ofInt 0 := staticEntry_refcount m _
  have haddress := staticEntry_address m b.listHead
  -- nobody knows the head of the new chain
  have hnew (h0 : b.listHead ≠ 0) : b.listHead ∉ addresses r ∧ ∀ q, tasks q ≠ some b.listHead := by
    have hnone := hgrown.fresh _ (hgrown.chain.head_mem h0)
    constructor
    · intro hmem
      obtain ⟨v, hv, ha⟩ := List.mem_map.mp hmem
      have hown := List.mem_map_of_mem (f := Prod.snd) (h.owners v hv (ha ▸ h0))
      exact h.forest.allocated hown (ha ▸ h0) (ha ▸ hnone)
    · exact fun q hq => (h.chain hq h0).1 hnone
  have hsurplus (m' : Module) : surplus ((staticEntry m b.listHead, 0) :: l)
      (pushVector r (staticEntry m b.listHead)) m' = surplus l r m' := by
    rw [surplus_push]
    split <;> omega
  constructor
  case recorded => exact h.recorded.push hcount
  case backed =>
    intro m'
    rw [hsurplus]
    exact h.backed m'
  case counts =>
    intro e he
    rcases List.mem_cons.mp he with rfl | he
    · exact Int.le_refl 0
    · exact h.counts e he
  case covers =>
    intro e he h0
    rcases List.mem_cons.mp he with rfl | he
    · dsimp only at h0 ⊢
      rw [haddress] at h0 ⊢
      rw [(holders_eq_zero_iff tasks b.listHead).mpr (hnew h0).2]
      exact Int.le_refl 0
    · exact h.covers e he h0
  case distinct =>
    refine DistinctAddresses.push h.distinct ?_
    rw [haddress]
    exact fun h0 => (hnew h0).1
  case owners =>
    intro w hw h0
    rcases List.mem_cons.mp hw with rfl | hw
    · rw [haddress, staticEntry_module hm]
      exact List.mem_cons_self
    · exact List.mem_cons_of_mem _ (h.owners w hw h0)
  case forest => exact h.forest.plant hgrown.extends hgrown.chain hgrown.fresh
  case pointers =>
    intro p a hp h0
    rw [hsurplus]
    refine (h.pointers p a hp h0).imp (fun hmem => ?_) fun ho => ⟨List.mem_cons_of_mem _ ho.1, ho.2⟩
    exact List.mem_cons_of_mem _ hmem

/-- The chain that a clone by id gives to its child. -/
theorem Safe.takeById {s : State} (h : Safe s.registry tasks heap own l) (id : UInt64)
    (child : Pid) :
    ∃ l', Safe (s.registry.adjust (.bitmap id.toUInt32) 1)
      (Function.update tasks child (some (vectorById s id))) heap own l' := by
  cases hv : s.registry.lookup (.bitmap id.toUInt32) with
  | none =>
    have hnone : vectorById s id = 0 := by
      rw [vectorById, foundChain, hv]
      rfl
    rw [adjust_none hv, hnone]
    exact ⟨l, h.clear child fun a ha => (Option.some.inj ha).symm⟩
  | some v =>
    rw [vectorById, foundChain_some hv]
    split
    case isTrue =>
      obtain ⟨l', h'⟩ := h.acquire (.bitmap id.toUInt32)
      exact ⟨l', h'.clear child fun a ha => (Option.some.inj ha).symm⟩
    case isFalse => exact h.take hv child

theorem cloneOutcome_safe {s t : State} {current : Pid} {flags id : UInt64} {fork : ForkResult}
    (h : Safe s.registry s.tasks s.heap own l) (houtcome : CloneOutcome s current flags id fork t) :
    ∃ l', Safe t.registry t.tasks t.heap own l' := by
  cases houtcome with
  | refused => exact ⟨l, h⟩
  | failed => exact h.acquire _
  | @inherited child v hflags hv =>
    obtain ⟨l₁, h₁⟩ := h.take hv child
    rw [lookup_address hv] at h₁
    exact h₁.acquire _
  | byId => exact h.takeById id _

/-! ## One entry for each chain -/

variable {loaded : Module → Bool} {m : Module} {a : Address}

theorem ownerOf_adjust (r : Registry) (k : Key) (d : Int) :
    (r.adjust k d).vecList.map ownerOf = r.vecList.map ownerOf :=
  adjust_map r k d ownerOf fun _ => rfl

theorem Placed.loaded_of_mem (h : Placed r own loaded) (hown : ∀ o ∈ own, loaded o.1 = true)
    (hv : v ∈ r.vecList) : loaded v.vectorModule = true :=
  hown (ownerOf v) (h.entries.subset (List.mem_map_of_mem hv))

theorem Placed.adjust (h : Placed r own loaded) (hown : ∀ o ∈ own, loaded o.1 = true) (k : Key)
    (d : Int) : Placed (r.adjust k d) own loaded := by
  refine ⟨ownerOf_adjust r k d ▸ h.entries, fun m hm => ?_⟩
  rw [adjust_moduleRefs, h.refs m hm]
  cases hv : r.lookup k with
  | none => simp
  | some v =>
    have hne : v.vectorModule ≠ m := by
      rintro rfl
      exact Bool.false_ne_true (hm.symm.trans (h.loaded_of_mem hown (lookup_mem hv)))
    simp [hne]

/-- Where a module without references owns a chain, unregistering the chain takes its entry
along. -/
theorem Placed.unregister (hentries : (r.vecList.map ownerOf).Subperm ((m, a) :: own))
    (hsafe : Safe r tasks heap ((m, a) :: own) l) (hrefs : r.moduleRefs m = 0)
    (hnull : ∀ m', (m', 0) ∈ (m, a) :: own → a = 0 → m' = m) :
    ((unregisterSyscall r a).1.vecList.map ownerOf).Subperm own := by
  rcases unregisterSyscall_cases r a with ⟨hv, hr⟩ | ⟨v, hv, hcase⟩
  · rw [hr]
    have hout : (m, a) ∉ r.vecList.map ownerOf := by
      intro hmem
      obtain ⟨v, hv', hownerOf⟩ := List.mem_map.mp hmem
      have hsame : v.overriddenSyscallsAddress = a := congrArg Prod.snd hownerOf
      exact not_mem_addresses hv (hsame ▸ mem_addresses hv')
    have herased := hentries.erase (m, a)
    rwa [List.erase_of_not_mem hout, List.erase_cons_head] at herased
  · have haddress := lookup_address hv
    have hpair : ownerOf v = (v.vectorModule, a) := by rw [ownerOf, haddress]
    have hmem : ownerOf v ∈ (m, a) :: own :=
      hentries.subset (List.mem_map_of_mem (lookup_mem hv))
    rw [hpair] at hmem
    have hmodule : v.vectorModule = m := by
      by_cases h0 : a = 0
      · exact hnull v.vectorModule (h0 ▸ hmem) h0
      · exact hsafe.owner h0 hmem
    rcases hcase with ⟨hcount, -⟩ | ⟨-, hr⟩
    · obtain ⟨c, hc⟩ := hsafe.recorded.found hv
      have hzero := (hsafe.unreferenced hrefs).2 _ (entryOf_mem hc) hmodule
      have hexact := hsafe.recorded.counts _ (entryOf_mem hc)
      rw [hzero] at hexact
      change v.refcount = 0 at hexact
      rw [hexact] at hcount
      exact absurd hcount (by decide)
    · obtain ⟨as, bs, hl, herased, -, -⟩ := eraseP_split hv
      have hlist : (eraseAddress r a).vecList = as ++ bs := herased
      have hself : ownerOf v = (m, a) := by rw [hpair, hmodule]
      rw [hl, List.map_append, List.map_cons, hself] at hentries
      rw [hr, hlist, List.map_append]
      have hfirst := (List.perm_middle.symm.subperm).trans hentries
      exact (List.subperm_cons (m, a)).mp hfirst

end

/-! ## Events -/

section
variable {s t w : State} {lost : List Address} {m : Module} {l : Ledger StructVector}

theorem Accounted.owned_loaded (h : Accounted s lost) : ∀ o ∈ owned s, s.loaded o.1 = true := by
  intro o ho
  rcases List.mem_append.mp ho with ho | ho
  · obtain ⟨a, ha, rfl⟩ := List.mem_map.mp ho
    by_contra hunloaded
    rw [h.unloaded (Bool.eq_false_iff.mpr hunloaded)] at ha
    cases ha
  · obtain ⟨m, hm, rfl⟩ := List.mem_map.mp ho
    exact (List.mem_filter.mp hm).2

/-- Only dynamic_vector owns NULL chains. -/
theorem Tidy.null_owner (h : Tidy s lost) (hown : (m, 0) ∈ owned s) : m = .dynamicVector := by
  rcases List.mem_append.mp hown with ho | ho
  · obtain ⟨a, -, hpair⟩ := List.mem_map.mp ho
    exact (congrArg Prod.fst hpair).symm
  · obtain ⟨m', hm', hpair⟩ := List.mem_map.mp ho
    obtain rfl : m' = m := congrArg Prod.fst hpair
    obtain ⟨hmem, hloaded⟩ := List.mem_filter.mp hm'
    have hstatic : m' = .vector1 ∨ m' = .vector2 := by simpa using hmem
    exact absurd (congrArg Prod.snd hpair) (h.heads m' hstatic hloaded)

theorem cleanupHeads_entries {own : List (Module × Address)} (heads : List Address)
    (hsafe : Safe s.registry s.tasks s.heap (dynamicChains heads ++ own) l)
    (hentries : (s.registry.vecList.map ownerOf).Subperm (dynamicChains heads ++ own))
    (hrefs : s.registry.moduleRefs .dynamicVector = 0)
    (hnull : ∀ m, (m, 0) ∈ own → m = .dynamicVector) (h : cleanupHeads heads s = .ok w) :
    (w.registry.vecList.map ownerOf).Subperm own := by
  induction heads generalizing s l with
  | nil =>
    cases h
    exact hentries
  | cons a heads ih =>
    obtain ⟨heap, l₁, hdelete, hsafe₁⟩ := hsafe.retire hrefs
    have hdynamic (m : Module)
        (hm : (m, 0) ∈ (Module.dynamicVector, a) :: (dynamicChains heads ++ own)) :
        m = .dynamicVector := by
      rcases List.mem_cons.mp hm with hpair | hm
      · exact congrArg Prod.fst hpair
      · rcases List.mem_append.mp hm with hm | hm
        · obtain ⟨b, -, hpair⟩ := List.mem_map.mp hm
          exact (congrArg Prod.fst hpair).symm
        · exact hnull m hm
    have hentries₁ := Placed.unregister hentries hsafe hrefs fun m hm _ => hdynamic m hm
    rw [cleanupHeads] at h
    simp only [hdelete] at h
    refine ih (s := { s with registry := (unregisterSyscall s.registry a).1, heap := heap })
      hsafe₁ hentries₁ ?_ h
    rw [unregisterSyscall_moduleRefs]
    exact hrefs

/-- A module that is unloaded has no references. -/
theorem Placed.refs_unload {r : Registry} {own : List (Module × Address)}
    {loaded : Module → Bool} (h : Placed r own loaded) (hrefs : r.moduleRefs m = 0) (m' : Module)
    (hm' : Function.update loaded m false m' = false) : r.moduleRefs m' = 0 := by
  by_cases he : m' = m
  · rw [he]
    exact hrefs
  · exact h.refs m' ((Function.update_of_ne he ..).symm.trans hm')

/-- The entries of a module go with its chains. -/
theorem rmmod_placed (h : Tidy s lost) (hrmmod : rmmod s m = some t) :
    Placed t.registry (owned t) t.loaded := by
  obtain ⟨l, hsafe⟩ := h.safe
  obtain ⟨hloaded, -, hrefs, u, rfl, ⟨rfl, w, hclean, rfl⟩ | ⟨hm, hclean⟩⟩ := rmmod_cases hrmmod
  · obtain ⟨hloads, hcounts, hheads⟩ := cleanupHeads_invariant (fun w => w.loaded = s.loaded ∧
      w.registry.moduleRefs = s.registry.moduleRefs ∧ w.listHead = s.listHead)
      (fun w a heap hw => ⟨hw.1, (unregisterSyscall_moduleRefs ..).trans hw.2.1, hw.2.2⟩)
      ⟨rfl, rfl, rfl⟩ hclean
    have hentries := cleanupHeads_entries s.listHeads hsafe h.placed.entries hrefs
      (fun m hm => h.null_owner (List.mem_append_right _ hm)) hclean
    have howned : staticChains s = owned { w with
        listHeads := []
        loaded := Function.update w.loaded .dynamicVector false } := by
      simp [owned, dynamicChains, staticChains, List.filter_cons, hloads, hheads]
    refine ⟨howned ▸ hentries, fun m hm => ?_⟩
    dsimp only at hm ⊢
    rw [hloads] at hm
    rw [hcounts]
    exact h.placed.refs_unload hrefs m hm
  · have hperm := owned_of_loaded hm hloaded
    have hentries := Placed.unregister (h.placed.entries.trans hperm.subperm) (hsafe.perm hperm)
      hrefs fun m' _ h0 => absurd h0 (h.heads m hm hloaded)
    obtain ⟨heap, -, rfl⟩ := cleanupVector_ok hclean
    rw [othersOwned, ← staticChains_unloaded s hm 0
      (unregisterSyscall s.registry (s.listHead m)).1 heap] at hentries
    refine ⟨hentries, fun m' hm' => ?_⟩
    refine Eq.trans ?_ (h.placed.refs_unload hrefs m' hm')
    exact congrFun (unregisterSyscall_moduleRefs ..) m'

theorem createOutcome_placed {current : Pid} {bitmap : UInt32} {env : Env} {err : Int32}
    (h : Tidy s lost) (hloaded : s.loaded .dynamicVector = true)
    (hcreate : CreateOutcome s current bitmap env t err) :
    Placed t.registry (owned t) t.loaded := by
  have hadjusted := h.placed.adjust h.accounted.owned_loaded (.bitmap bitmap) 1
  cases hcreate with
  | reuse => exact (owned_setListHead _ 0).symm ▸ hadjusted
  | abandon => exact (owned_setListHead _ 0).symm ▸ hadjusted
  | @build b =>
    have hperm := (owned_builtState s current bitmap b env.va).symm.subperm
    have hrefs (m : Module) (hm : s.loaded m = false) :
        ((s.registry.adjust (.bitmap bitmap) 1).tryModuleGet .dynamicVector).moduleRefs m = 0 := by
      have hne : Module.dynamicVector ≠ m := by
        rintro rfl
        exact Bool.false_ne_true (hm.symm.trans hloaded)
      rw [tryModuleGet_moduleRefs, hadjusted.refs m hm, if_neg hne]
      rfl
    change Placed (registered s.registry bitmap b.listHead env.va) _ s.loaded
    rw [registered]
    split
    · exact ⟨((List.subperm_cons _).mpr hadjusted.entries).trans hperm, hrefs⟩
    · exact ⟨(hadjusted.entries.cons_right _).trans hperm, hrefs⟩

theorem step_placed {op : Op} (h : Tidy s lost) (hg : OwnReleases s op)
    (hstep : step s op = some t) : Placed t.registry (owned t) t.loaded := by
  have hadjust (k : Key) (d : Int) := h.placed.adjust h.accounted.owned_loaded k d
  cases op with
  | ioctl current request param env =>
    obtain ⟨-, hloaded, result, hcall, rfl⟩ := step_ioctl hstep
    cases customIoctl_cases h.accounted.idle.named.plain hcall with
    | unchanged => exact h.placed
    | setNull | set | removeDeficit | remove => exact hadjust _ _
    | create hreq _ _ hcreate => exact createOutcome_placed h (hloaded hreq) hcreate
  | copyProcess current child flags =>
    obtain ⟨⟨a, hlive⟩, -, rfl⟩ := step_copyProcess hstep
    rw [copyProcess_live hlive]
    split
    · exact hadjust _ _
    · exact h.placed
  | exit current =>
    obtain ⟨⟨a, hlive⟩, rfl⟩ := step_exit hstep
    rw [exitTask_live hlive]
    dsimp only
    split
    · exact h.placed
    · exact hadjust _ _
  | rmmod m => exact rmmod_placed h hstep
  | call | unregister => exact hg.task.elim

/-- The chain of a static module that is loaded stays the same. -/
theorem step_heads {op : Op} (hidle : Idle s) (hstep : step s op = some t)
    (hm : m = .vector1 ∨ m = .vector2) (hloaded : t.loaded m = true) :
    s.loaded m = true ∧ t.listHead m = s.listHead m := by
  have hne : m ≠ .dynamicVector := by
    rcases hm with rfl | rfl <;> decide
  have hother (a : Address) : Function.update s.listHead .dynamicVector a m = s.listHead m :=
    Function.update_of_ne hne ..
  cases op with
  | ioctl current request param env =>
    obtain ⟨-, -, result, hcall, rfl⟩ := step_ioctl hstep
    cases customIoctl_cases hidle.named.plain hcall with
    | unchanged | setNull | set | removeDeficit | remove => exact ⟨hloaded, rfl⟩
    | create _ _ _ hcreate =>
      cases hcreate with
      | reuse | abandon | build => exact ⟨hloaded, hother 0⟩
  | copyProcess current child flags =>
    obtain ⟨⟨a, hlive⟩, -, rfl⟩ := step_copyProcess hstep
    rw [copyProcess_live hlive] at hloaded ⊢
    by_cases hflags : flags &&& CLONE_SYSCALLS ≠ 0
    · rw [if_pos hflags] at hloaded ⊢
      exact ⟨hloaded, rfl⟩
    · rw [if_neg hflags] at hloaded ⊢
      exact ⟨hloaded, rfl⟩
  | exit current =>
    obtain ⟨⟨a, hlive⟩, rfl⟩ := step_exit hstep
    rw [exitTask_live hlive] at hloaded ⊢
    exact ⟨hloaded, rfl⟩
  | call c | unregister a =>
    obtain rfl := Option.some.inj hstep
    exact ⟨hloaded, rfl⟩
  | rmmod m' =>
    obtain ⟨-, -, -, u, rfl, hu⟩ := rmmod_cases hstep
    have hm' : m ≠ m' := by
      rintro rfl
      exact Bool.false_ne_true ((Function.update_self ..).symm.trans hloaded)
    have hkept : u.loaded m = true := (Function.update_of_ne hm' ..).symm.trans hloaded
    rcases hu with ⟨rfl, w, hclean, rfl⟩ | ⟨-, hclean⟩
    · obtain ⟨hloads, hheads⟩ := cleanupHeads_invariant
        (fun w => w.loaded = s.loaded ∧ w.listHead = s.listHead) (fun _ _ _ h => h) ⟨rfl, rfl⟩
        hclean
      exact ⟨(congrFun hloads m).symm.trans hkept, congrFun hheads m⟩
    · obtain ⟨heap, -, rfl⟩ := cleanupVector_ok hclean
      exact ⟨hkept, Function.update_of_ne hm' ..⟩

/-! ## Loads, clones and forks that fail -/

theorem loadOutcome_heads {lost' : List Address} {m' : Module} (houtcome : LoadOutcome s m' t lost')
    (hm : m = .vector1 ∨ m = .vector2) (hloaded : t.loaded m = true) :
    m = m' ∧ t.listHead m ≠ 0 ∨ s.loaded m = true ∧ t.listHead m = s.listHead m := by
  by_cases he : m = m'
  · subst he
    cases houtcome with
    | dynamic hdynamic =>
      subst hdynamic
      rcases hm with hm | hm <;> exact absurd hm (by decide)
    | undone | unregistered =>
      exact absurd ((Function.update_self ..).symm.trans hloaded) Bool.false_ne_true
    | registered _ hgrown hne =>
      refine .inl ⟨rfl, ?_⟩
      dsimp only
      rw [Function.update_self]
      exact hgrown.head_ne hne
  · have hkept (b : Bool) : Function.update s.loaded m' b m = s.loaded m :=
      Function.update_of_ne he ..
    have hhead (a : Address) : Function.update s.listHead m' a m = s.listHead m :=
      Function.update_of_ne he ..
    refine .inr ?_
    cases houtcome with
    | dynamic hdynamic =>
      subst hdynamic
      exact ⟨(hkept true).symm.trans hloaded, hhead 0⟩
    | undone => exact ⟨(hkept false).symm.trans hloaded, hhead 0⟩
    | unregistered => exact ⟨(hkept false).symm.trans hloaded, hhead _⟩
    | registered => exact ⟨(hkept true).symm.trans hloaded, hhead _⟩

theorem loadOutcome_safe {lost' : List Address} (h : Accounted s lost)
    (hsafe : Safe s.registry s.tasks s.heap (owned s) l) (hunloaded : s.loaded m = false)
    (houtcome : LoadOutcome s m t lost') :
    ∃ l', Safe t.registry t.tasks t.heap (owned t) l' := by
  cases houtcome with
  | dynamic hm =>
    subst hm
    rw [owned_insmodDynamicVector (h.unloaded hunloaded)]
    exact ⟨l, hsafe⟩
  | undone hm =>
    rw [owned_failedLoad hm hunloaded]
    exact ⟨l, hsafe⟩
  | unregistered hm hgrown =>
    rw [owned_failedLoad hm hunloaded]
    exact ⟨l, hsafe.grow hgrown.extends⟩
  | registered hm hgrown =>
    exact ⟨_, (hsafe.settle hgrown hm).perm (owned_load hm hunloaded _ _ _).symm⟩

theorem loadOutcome_placed {lost' : List Address} (h : Tidy s lost) (hunloaded : s.loaded m = false)
    (houtcome : LoadOutcome s m t lost') : Placed t.registry (owned t) t.loaded := by
  have hrefs (b : Bool) (m' : Module) (hm' : Function.update s.loaded m b m' = false) :
      s.registry.moduleRefs m' = 0 := by
    by_cases he : m' = m
    · rw [he]
      exact h.placed.refs m hunloaded
    · exact h.placed.refs m' ((Function.update_of_ne he ..).symm.trans hm')
  cases houtcome with
  | dynamic hm =>
    subst hm
    rw [owned_insmodDynamicVector (h.accounted.unloaded hunloaded)]
    exact ⟨h.placed.entries, hrefs true⟩
  | undone hm | unregistered hm =>
    rw [owned_failedLoad hm hunloaded]
    exact ⟨h.placed.entries, hrefs false⟩
  | @registered b nodes hm =>
    refine ⟨?_, hrefs true⟩
    refine List.Subperm.trans ?_ (owned_load hm hunloaded _ _ _).symm.subperm
    have howner : ownerOf (staticEntry m b.listHead) = (m, b.listHead) := by
      rw [ownerOf, staticEntry_module hm, staticEntry_address]
    change (ownerOf (staticEntry m b.listHead) :: _).Subperm _
    rw [howner]
    exact (List.subperm_cons _).mpr h.placed.entries

theorem cloneOutcome_placed {current : Pid} {flags id : UInt64} {fork : ForkResult}
    (h : Tidy s lost) (houtcome : CloneOutcome s current flags id fork t) :
    Placed t.registry (owned t) t.loaded := by
  have hloaded := h.accounted.owned_loaded
  cases houtcome with
  | refused => exact h.placed
  | failed => exact h.placed.adjust hloaded _ 1
  | inherited => exact (h.placed.adjust hloaded _ 1).adjust hloaded _ 1
  | byId => exact h.placed.adjust hloaded _ 1

/-! ## Sessions -/

theorem session_tidy {x y : State × List Address} {op : SessionOp} (h : Tidy x.1 x.2)
    (hg : OwnSession x.1 op) (hstep : logged sessionStep lostChains x op = some y) :
    Tidy y.1 y.2 := by
  obtain ⟨hmove, -⟩ := logged_eq_some hstep
  have haccounted := session_accounted h.accounted hg.fresh hstep
  obtain ⟨l, hsafe⟩ := h.safe
  cases op with
  | system op =>
    have hown := hg.own op rfl
    have hguarded := step_guarded ⟨h.accounted.idle, l, hsafe⟩ hown hmove
    refine ⟨haccounted, hguarded.safe, fun m hm hloaded => ?_, step_placed h hown hmove⟩
    obtain ⟨hbefore, hhead⟩ := step_heads h.accounted.idle hmove hm hloaded
    rw [hhead]
    exact h.heads m hm hbefore
  | insmod m node va =>
    obtain ⟨hunloaded, houtcome⟩ := sessionStep_insmod hg.fresh hmove
    refine ⟨haccounted, loadOutcome_safe h.accounted hsafe hunloaded houtcome, ?_,
      loadOutcome_placed h hunloaded houtcome⟩
    intro m' hm' hloaded
    rcases loadOutcome_heads houtcome hm' hloaded with ⟨-, hne⟩ | ⟨hbefore, hhead⟩
    · exact hne
    · rw [hhead]
      exact h.heads m' hm' hbefore
  | clone current flags id fork =>
    obtain ⟨-, -, houtcome⟩ := sessionStep_clone hmove
    obtain ⟨registry, tasks, ht, -⟩ := cloneOutcome_moves houtcome
    have hsafe' := cloneOutcome_safe hsafe houtcome
    have hplaced := cloneOutcome_placed h houtcome
    rw [ht] at haccounted hsafe' hplaced ⊢
    exact ⟨haccounted, hsafe', h.heads, hplaced⟩
  | forkFails current flags =>
    obtain ⟨-, ht⟩ := sessionStep_forkFails hmove
    rw [ht] at haccounted ⊢
    by_cases hflags : flags &&& CLONE_SYSCALLS ≠ 0
    · rw [if_pos hflags] at haccounted ⊢
      exact ⟨haccounted, hsafe.acquire _, h.heads,
        h.placed.adjust h.accounted.owned_loaded _ 1⟩
    · rw [if_neg hflags] at haccounted ⊢
      exact ⟨haccounted, ⟨l, hsafe⟩, h.heads, h.placed⟩

theorem kernelState_tidy (live : Pid → Bool) : Tidy (kernelState live) [] where
  accounted := kernelState_accounted live
  safe := by
    refine ⟨[], ⟨rfl, fun _ he => absurd he List.not_mem_nil⟩, fun m => Int.le_refl 0,
      fun _ he => absurd he List.not_mem_nil, fun _ he => absurd he List.not_mem_nil, .nil,
      fun _ hv => absurd hv List.not_mem_nil, (kernelState_accounted live).forest, ?_⟩
    intro p a hp h0
    refine absurd ?_ h0
    change (if live p then some 0 else none) = some a at hp
    split at hp
    · exact (Option.some.inj hp).symm
    · cases hp
  heads := fun _ _ hloaded => absurd hloaded Bool.false_ne_true
  placed := ⟨List.Subperm.refl _, fun _ _ => rfl⟩

/-- In a session without foreign releases every pointer of a task is the head of a chain that is
there. When its modules are unloaded, nothing is registered, no count is left, no task has a
vector, and the nodes that are left are those of loads that failed. -/
theorem session_restores {live : Pid → Bool}
    (h : Run (logged sessionStep lostChains) (fun x op => OwnSession x.1 op)
      (kernelState live, []) (s, lost)) :
    (∀ p a, s.tasks p = some a → a ≠ 0 → s.heap a ≠ none ∧ ∃ ps, ChainAt s.heap a ps) ∧
      ((∀ m, s.loaded m = false) →
        s.registry.vecList = [] ∧ (∀ m, s.registry.moduleRefs m = 0) ∧
          (∀ p a, s.tasks p = some a → a = 0) ∧
            ∀ a, s.heap a ≠ none ↔ ∃ p ∈ lost, ∃ ps, ChainAt s.heap p ps ∧ a ∈ ps) := by
  have htidy : Tidy s lost := Run.invariant (fun x => Tidy x.1 x.2)
    (fun _ _ _ hx hg hstep => session_tidy hx hg hstep) (kernelState_tidy live) h
  obtain ⟨l, hsafe⟩ := htidy.safe
  refine ⟨fun p a hp h0 => hsafe.chain hp h0, fun hgone => ?_⟩
  have howned : owned s = [] := by
    simp [owned, dynamicChains, staticChains, htidy.accounted.unloaded (hgone _), hgone]
  have hnone : s.registry.vecList = [] := by
    have hentries := htidy.placed.entries
    rw [howned] at hentries
    exact List.map_eq_nil_iff.mp (List.subperm_nil.mp hentries)
  refine ⟨hnone, fun m => htidy.placed.refs m (hgone m), fun p a hp => ?_, fun a => ?_⟩
  · by_contra h0
    rcases hsafe.pointers p a hp h0 with hmem | ⟨hown, -⟩
    · rw [addresses, hnone] at hmem
      cases hmem
    · rw [howned] at hown
      cases hown
  · have hnodes := htidy.accounted.node_iff a
    rwa [howned] at hnodes

theorem ownSession_set (s : State) (current : Pid) (name : List UInt8) :
    OwnSession s (.system (.ioctl current IOCTL_SET (nameParam name) nodelessEnv)) := by
  refine ⟨freshNodes_nodelessEnv _, fun o ho => ?_⟩
  obtain rfl := SessionOp.system.inj ho
  refine ⟨trivial, freshNodes_nodelessEnv _, fun _ _ _ _ hop => ?_⟩
  have hrequest : IOCTL_SET = IOCTL_REMOVE := by
    injection hop
  exact absurd hrequest (by decide)

theorem ownSession_exit (s : State) (current : Pid) : OwnSession s (.system (.exit current)) := by
  refine ⟨trivial, fun o ho => ?_⟩
  obtain rfl := SessionOp.system.inj ho
  exact ⟨trivial, trivial, fun _ _ _ _ hop => by cases hop⟩

theorem ownSession_rmmod (s : State) (m : Module) : OwnSession s (.system (.rmmod m)) := by
  refine ⟨trivial, fun o ho => ?_⟩
  obtain rfl := SessionOp.system.inj ho
  exact ⟨trivial, trivial, fun _ _ _ _ hop => by cases hop⟩

/-- Task 1 takes `Vector55` and ends, and vector1 is unloaded. -/
def visit : List SessionOp :=
  [.system (.ioctl task1 IOCTL_SET (nameParam vector1Name) nodelessEnv), .system (.exit task1),
    .system (.rmmod .vector1)]

/-- The chain of the first load is what this session leaves. -/
theorem session_restores_lossy :
    ∃ s, steps sessionStep secondLoad visit = some s ∧ s.registry.vecList = [] ∧
      ∀ a, s.heap a ≠ none ↔ ∃ p ∈ [4096], ∃ ps, ChainAt s.heap p ps ∧ a ∈ ps := by
  have hloads : Run (logged sessionStep lostChains) (fun x op => OwnSession x.1 op)
      (kernelState sampleLive, []) (secondLoad, [4096]) := by
    have hfirst : Run (logged sessionStep lostChains) (fun x op => OwnSession x.1 op)
        (kernelState sampleLive, []) (failedLoad, [4096]) :=
      Run.single (a := .insmod .vector1 (slab 4096) 0)
        ⟨freshNodes_slab (by decide) fun _ _ => rfl, fun _ h => by cases h⟩ rfl
    refine .next (a := .insmod .vector1 (slab 8192) 1) hfirst ?_ rfl
    exact ⟨freshNodes_slab (by decide) (by decide), fun _ h => by cases h⟩
  have hguard (x : State × List Address) : ∀ op ∈ visit, OwnSession x.1 op := by
    intro op hop
    simp only [visit, List.mem_cons, List.not_mem_nil, or_false] at hop
    rcases hop with rfl | rfl | rfl
    · exact ownSession_set x.1 task1 vector1Name
    · exact ownSession_exit x.1 task1
    · exact ownSession_rmmod x.1 .vector1
  obtain ⟨s, hs, hplain⟩ : ∃ s, steps (logged sessionStep lostChains) (secondLoad, [4096]) visit =
    some (s, [4096]) ∧ steps sessionStep secondLoad visit = some s := ⟨_, rfl, rfl⟩
  have hunloaded : (steps sessionStep secondLoad visit).map (fun s =>
      [s.loaded .vector1, s.loaded .vector2, s.loaded .dynamicVector, s.loaded .ioctlModule]) =
        some [false, false, false, false] := by decide
  rw [hplain] at hunloaded
  have hgone : ∀ m, s.loaded m = false := by
    have hall := Option.some.inj hunloaded
    simp only [List.cons.injEq, and_true] at hall
    intro m
    cases m with
    | vector1 => exact hall.1
    | vector2 => exact hall.2.1
    | dynamicVector => exact hall.2.2.1
    | ioctlModule => exact hall.2.2.2
  obtain ⟨hnone, -, -, hnodes⟩ :=
    (session_restores (hloads.trans (Run.of_steps hguard hs))).2 hgone
  exact ⟨s, hplain, hnone, hnodes⟩

end

end SyscallVector.Audit
