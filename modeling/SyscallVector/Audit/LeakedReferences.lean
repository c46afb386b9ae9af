import SyscallVector.Audit.SessionEnd
import SyscallVector.Audit.StrayReferences

/-!
# What keeps a module loaded

In a session without foreign releases the log never falls below zero at any chain, and an
unload takes counts away that are zero. So the references of vector1 and of vector2 are the
holders of its chain and what the log says about it, and the module can be unloaded exactly
when nobody holds the chain and no reference to it is lost. A lost reference is lost for good:
where tasks remove only what they hold, its module stays until the end of the session.
-/
namespace SyscallVector.Audit

set_option autoImplicit false

open Lib Model

/-- The log is not negative at any chain. -/
def Solvent (log : Ledger Address) : Prop := ∀ a, a ≠ 0 → 0 ≤ balance log a

/-- A loaded vector1 or vector2 is registered. -/
def Present (s : State) : Prop :=
  ∀ m, m = .vector1 ∨ m = .vector2 → s.loaded m = true →
    (m, s.listHead m) ∈ s.registry.vecList.map ownerOf

/-- What holds in every state of a session without foreign releases, with its log. -/
structure Booked (s : State) (log : Ledger Address) : Prop where
  tidy : ∃ lost, Tidy s lost
  explained : ∃ l, Explained s.registry s.tasks l log ∧ Paid l
  solvent : Solvent log
  present : Present s

section
variable {r : Registry} {tasks : Pid → Option Address} {l : Ledger StructVector}
  {log log' : Ledger Address} {k : Key} {d : ℤ} {v : StructVector} {a : Address} {m : Module}

/-! ## Logs that are not negative -/

theorem balance_moved_nonneg (r : Registry) (k : Key) (hd : 0 ≤ d) (a : Address) :
    0 ≤ balance (moved r k d) a := by
  cases hv : r.lookup k with
  | none =>
    rw [moved_none hv]
    exact le_refl 0
  | some v =>
    rw [balance_moved hv]
    split <;> omega

theorem balance_dropped_nonneg (r : Registry) (info : Option Address) (hd : 0 ≤ d) (a : Address) :
    0 ≤ balance (dropped r info d) a := by
  rw [balance_dropped]
  split <;> omega

theorem Solvent.append (h : Solvent log) (h' : Solvent log') : Solvent (log ++ log') := by
  intro a h0
  have hfirst := h a h0
  have hsecond := h' a h0
  rw [balance_append]
  omega

theorem solvent_moved (r : Registry) (k : Key) : Solvent (moved r k 1) :=
  fun a _ => balance_moved_nonneg r k (by decide) a

theorem solvent_forgotten (s : State) (p : Pid) : Solvent (forgotten s p) :=
  fun a _ => balance_dropped_nonneg s.registry _ (by decide) a

theorem solvent_nil : Solvent [] := fun _ _ => le_refl 0

/-- The exact count of a chain covers its holders. -/
theorem Explained.covers (h : Explained r tasks l log) (hsolvent : Solvent log)
    {e : StructVector × ℤ} (he : e ∈ l) (h0 : e.1.overriddenSyscallsAddress ≠ 0) :
    (holders tasks e.1.overriddenSyscallsAddress : ℤ) ≤ e.2 := by
  have hcount := h.counts e he h0
  have hlog := hsolvent _ h0
  omega

theorem Explained.nonneg (h : Explained r tasks l log) (hpaid : Paid l) (hsolvent : Solvent log) :
    ∀ e ∈ l, 0 ≤ e.2 := by
  intro e he
  by_cases h0 : e.1.overriddenSyscallsAddress = 0
  · exact hpaid e he h0
  · have hcover := h.covers hsolvent he h0
    omega

/-- A positive exact count that shows as the negative of one or as zero, and whose release
is refused for that, has wrapped. -/
theorem exact_of_deficit {c : ℤ} (h : v.refcount = Int32.ofInt c) (hc : 0 < c)
    (hneg : (v.addRef (-1)).refcount < 0) : 2 ^ 31 < c := by
  obtain ⟨hmin, hnonpos⟩ := (addRef_neg_iff v).mp hneg
  have hwrapped := exact_of_nonpos h hc hnonpos
  have hne : c ≠ 2 ^ 31 := by
    rintro rfl
    rw [h] at hmin
    exact absurd hmin (by decide)
  omega

/-! ## Releases -/

/-- What `IOCTL_REMOVE` logs, at one chain. -/
theorem balance_remove {s : State} {current : Pid} {param : IoctlParam} {env : Env}
    (hread : NameRead env) (hv : s.registry.lookup (nameKey param) = some v) (a : Address) :
    balance (requestStrays s current IOCTL_REMOVE param env) a =
      (if v.overriddenSyscallsAddress = a then -1 else 0) +
        if (v.addRef (-1)).refcount < 0 then 0
        else if s.tasks current = some a ∧ a ∈ addresses s.registry then 1 else 0 := by
  rw [requestStrays, if_neg fun h => absurd h.1 (by decide), if_pos ⟨rfl, hread⟩, hv,
    Option.elim_some, balance_append, balance_moved hv]
  by_cases hneg : (v.addRef (-1)).refcount < 0
  · rw [if_pos hneg, if_pos hneg]
    rfl
  · rw [if_neg hneg, if_neg hneg, balance_dropped]

theorem requestStrays_remove_nil {s : State} {current : Pid} {param : IoctlParam} {env : Env}
    (h : ¬NameRead env ∨ s.registry.lookup (nameKey param) = none) :
    requestStrays s current IOCTL_REMOVE param env = [] := by
  rw [requestStrays, if_neg fun h => absurd h.1 (by decide)]
  split
  case isTrue hread =>
    rw [h.resolve_left fun hunread => hunread hread.2]
    rfl
  case isFalse => rw [if_neg fun h => absurd h.1 (by decide)]

section
variable {s : State} {current : Pid} {param : IoctlParam} {env : Env}

/-- At most one reference of the chain released goes. -/
theorem balance_remove_ge (current : Pid) (hread : NameRead env)
    (hv : s.registry.lookup (nameKey param) = some v) (log : Ledger Address) (a : Address) :
    balance log a + (if v.overriddenSyscallsAddress = a then -1 else 0) ≤
      balance (log ++ requestStrays s current IOCTL_REMOVE param env) a := by
  have hrest : 0 ≤ if (v.addRef (-1)).refcount < 0 then (0 : ℤ)
      else if s.tasks current = some a ∧ a ∈ addresses s.registry then 1 else 0 := by
    split
    · exact le_refl 0
    · split <;> omega
  rw [balance_append, balance_remove hread hv]
  omega

/-- A task that releases what it holds leaves a log as it was at the chain, or it finds more
than enough there. -/
theorem remove_holder (hl : Explained s.registry s.tasks l log)
    (hsolvent : Solvent log) (hread : NameRead env)
    (hv : s.registry.lookup (nameKey param) = some v) (h0 : v.overriddenSyscallsAddress ≠ 0)
    (hp : s.tasks current = some v.overriddenSyscallsAddress) (ha : a ≠ 0) :
    balance log a ≤ balance (log ++ requestStrays s current IOCTL_REMOVE param env) a ∨
      0 < balance (log ++ requestStrays s current IOCTL_REMOVE param env) a := by
  by_cases he : v.overriddenSyscallsAddress = a
  · subst he
    rw [balance_append, balance_remove hread hv, if_pos rfl]
    by_cases hneg : (v.addRef (-1)).refcount < 0
    · right
      obtain ⟨c, hc⟩ := hl.recorded.count (lookup_mem hv)
      have hcount : c = holders s.tasks v.overriddenSyscallsAddress +
          balance log v.overriddenSyscallsAddress := hl.counts _ hc h0
      have hpos := holders_pos hp
      have hlog := hsolvent _ h0
      have hwrapped := exact_of_deficit (hl.recorded.counts _ hc) (by omega) hneg
      have hcard := card_pid_lt
      have hbound := holders_le_card s.tasks v.overriddenSyscallsAddress
      rw [if_pos hneg]
      omega
    · left
      rw [if_neg hneg, if_pos ⟨hp, mem_addresses (lookup_mem hv)⟩]
      omega
  · left
    have hge := balance_remove_ge current hread hv log a
    rw [if_neg he] at hge
    omega

/-- After a release by a task that is entitled to it the log is not negative. -/
theorem solvent_remove (hl : Explained s.registry s.tasks l log) (hpaid : Paid l)
    (hsolvent : Solvent log) (hent : NameRead env → ∀ v,
      s.registry.lookup (nameKey param) = some v → Entitled s.tasks current v) :
    Solvent (log ++ requestStrays s current IOCTL_REMOVE param env) := by
  intro a ha
  have hlog := hsolvent a ha
  by_cases hread : NameRead env
  case neg => rwa [requestStrays_remove_nil (.inl hread), List.append_nil]
  cases hv : s.registry.lookup (nameKey param) with
  | none => rwa [requestStrays_remove_nil (.inr hv), List.append_nil]
  | some v =>
    rcases hent hread v hv with ⟨h0, hp⟩ | hunused
    · rcases remove_holder hl hsolvent hread hv h0 hp ha with hle | hpos
      · exact hlog.trans hle
      · exact hpos.le
    · -- the vector has a reference more than it has holders
      have hge := balance_remove_ge current hread hv log a
      by_cases he : v.overriddenSyscallsAddress = a
      · subst he
        obtain ⟨c, hc⟩ := hl.recorded.count (lookup_mem hv)
        have hcount : c = holders s.tasks v.overriddenSyscallsAddress +
            balance log v.overriddenSyscallsAddress := hl.counts _ hc ha
        have hshown : v.refcount.toInt ≤ c :=
          toInt_le_exact (hl.recorded.counts _ hc) (hl.nonneg hpaid hsolvent _ hc)
        rw [users_of_ne ha] at hunused
        rw [if_pos rfl] at hge
        omega
      · rw [if_neg he] at hge
        omega

/-- The other events log no release. -/
theorem solvent_request {request : UInt32} (hremove : request ≠ IOCTL_REMOVE) :
    Solvent (requestStrays s current request param env) := by
  rw [requestStrays]
  split
  · cases hv : s.registry.lookup (nameKey param) with
    | none => exact solvent_nil
    | some v =>
      rw [Option.elim_some]
      split
      · exact solvent_moved _ _
      · exact solvent_forgotten s current
  · rw [if_neg fun h => hremove h.1]
    split
    · rw [createStrays]
      split
      · exact solvent_forgotten s current
      · split
        · exact solvent_moved _ _
        · exact (solvent_moved _ _).append (solvent_forgotten s current)
    · exact solvent_nil

theorem solvent_clone (s : State) (current : Pid) (flags id : UInt64) (fork : ForkResult) :
    Solvent (cloneStrays s current flags id fork) := by
  cases fork with
  | failed err => exact solvent_moved _ _
  | child pid =>
    rw [cloneStrays]
    split
    · exact solvent_moved _ _
    · split
      · exact solvent_moved _ _
      · exact solvent_nil

theorem solvent_strays {op : SessionOp} (hl : Explained s.registry s.tasks l log)
    (hpaid : Paid l) (hsolvent : Solvent log) (hown : OwnSession s op) :
    Solvent (log ++ strays s op) := by
  cases op with
  | system op =>
    cases op with
    | ioctl current request param env =>
      by_cases hremove : request = IOCTL_REMOVE
      · subst hremove
        exact solvent_remove hl hpaid hsolvent fun hread v hv =>
          (hown.own _ rfl).entitled current param env v rfl hread hv
      · exact hsolvent.append (solvent_request hremove)
    | copyProcess | exit | rmmod => exact hsolvent.append solvent_nil
    | call | unregister => exact ((hown.own _ rfl).task).elim
  | insmod => exact hsolvent.append solvent_nil
  | clone current flags id fork => exact hsolvent.append (solvent_clone s current flags id fork)
  | forkFails current flags =>
    refine hsolvent.append ?_
    rw [strays]
    split
    · exact solvent_moved _ _
    · exact solvent_nil

end

end

/-! ## Unloading -/

section
variable {s t w : State} {lost heads : List Address} {log : Ledger Address}
  {l : Ledger StructVector} {v : StructVector} {a : Address} {m : Module}

theorem Tidy.known (h : Tidy s lost) : Known s := by
  obtain ⟨l, hsafe⟩ := h.safe
  rintro a h0 (ha | ⟨p, hp⟩)
  · obtain ⟨v, hv, rfl⟩ := List.mem_map.mp ha
    have hown := List.mem_map_of_mem (f := Prod.snd) (hsafe.owners v hv h0)
    exact hsafe.forest.allocated hown h0
  · exact (hsafe.chain hp h0).1

/-- The vectors at a chain belong to the module that owns the chain. -/
theorem Tidy.owner (h : Tidy s lost) (hown : (m, a) ∈ owned s) (hv : v ∈ s.registry.vecList)
    (ha : v.overriddenSyscallsAddress = a) : v.vectorModule = m := by
  have hmem : (v.vectorModule, a) ∈ owned s := by
    have hentry := h.placed.entries.subset (List.mem_map_of_mem hv)
    rwa [ownerOf, ha] at hentry
  by_cases h0 : a = 0
  · subst h0
    rw [h.null_owner hmem, h.null_owner hown]
  · obtain ⟨l, hsafe⟩ := h.safe
    have hperm := List.perm_cons_erase hown
    exact (hsafe.perm hperm).owner h0 (hperm.mem_iff.mp hmem)

/-- A module without references has none in its exact counts. -/
theorem Explained.unreferenced (h : Explained s.registry s.tasks l log) (hpaid : Paid l)
    (hsolvent : Solvent log) (hrefs : s.registry.moduleRefs m = 0) :
    ∀ e ∈ l, e.1.vectorModule = m → e.2 = 0 := by
  rintro e he rfl
  have hbacked := h.backed e.1.vectorModule
  rw [surplus, hrefs] at hbacked
  have htotal : total StructVector.vectorModule l e.1.vectorModule ≤ 0 := by omega
  exact eq_zero_of_total_nonpos (h.nonneg hpaid hsolvent) he htotal

/-- An entry without references can be unregistered, and leaves the log as it is. -/
theorem Explained.retire (h : Explained s.registry s.tasks l log) (hsolvent : Solvent log)
    (hzero : ∀ e ∈ l, e.1.overriddenSyscallsAddress = a → e.2 = 0) :
    ∃ l', Explained (unregisterSyscall s.registry a).1 s.tasks l' log ∧ ∀ e ∈ l', e ∈ l := by
  rcases unregisterSyscall_cases s.registry a with ⟨-, hr⟩ | ⟨v, hv, hcase⟩
  · rw [hr]
    exact ⟨l, h, fun _ he => he⟩
  have haddress := lookup_address hv
  rcases hcase with ⟨hcount, hr⟩ | ⟨-, hr⟩
  · rw [hr]
    exact ⟨l, h, fun _ he => he⟩
  · rw [hr]
    refine ⟨_, h.unregister (v := v) (fun c _ hc => hzero _ hc haddress) (fun h0 => ?_) hv,
      fun e he => List.mem_of_mem_eraseP he⟩
    -- no count, so no holders and nothing on the log
    obtain ⟨c, hc⟩ := h.recorded.count (lookup_mem hv)
    have hnone : c = 0 := hzero _ hc haddress
    have hcount : c = holders s.tasks v.overriddenSyscallsAddress +
        balance log v.overriddenSyscallsAddress := h.counts _ hc (haddress.symm ▸ h0)
    have hlog := hsolvent a h0
    rw [haddress] at hcount
    omega

theorem cleanupHeads_explained (h : Explained s.registry s.tasks l log) (hsolvent : Solvent log)
    (hzero : ∀ a ∈ heads, ∀ e ∈ l, e.1.overriddenSyscallsAddress = a → e.2 = 0)
    (hclean : cleanupHeads heads s = .ok w) :
    ∃ l', Explained w.registry w.tasks l' log ∧ ∀ e ∈ l', e ∈ l := by
  induction heads generalizing s l with
  | nil =>
    cases hclean
    exact ⟨l, h, fun _ he => he⟩
  | cons a heads ih =>
    obtain ⟨l₁, h₁, hsub₁⟩ := h.retire hsolvent (hzero a List.mem_cons_self)
    rw [cleanupHeads] at hclean
    cases hdelete : deleteVector s.heap a with
    | error fault =>
      simp only [hdelete] at hclean
      cases hclean
    | ok heap =>
      simp only [hdelete] at hclean
      obtain ⟨l', h', hsub⟩ := ih
        (s := { s with registry := (unregisterSyscall s.registry a).1, heap := heap }) h₁
        (fun b hb e he => hzero b (List.mem_cons_of_mem a hb) e (hsub₁ e he)) hclean
      exact ⟨l', h', fun e he => hsub₁ e (hsub e he)⟩

theorem rmmod_explained (htidy : Tidy s lost) (h : Explained s.registry s.tasks l log)
    (hpaid : Paid l) (hsolvent : Solvent log) (hrmmod : rmmod s m = some t) :
    ∃ l', Explained t.registry t.tasks l' log ∧ Paid l' := by
  have hpaid' {l' : Ledger StructVector} (hsub : ∀ e ∈ l', e ∈ l) : Paid l' :=
    fun e he h0 => hpaid e (hsub e he) h0
  obtain ⟨hloaded, -, hrefs, u, rfl, ⟨rfl, w, hclean, rfl⟩ | ⟨hm, hclean⟩⟩ := rmmod_cases hrmmod
  · have hzero := h.unreferenced hpaid hsolvent hrefs
    obtain ⟨l', h', hsub⟩ := cleanupHeads_explained h hsolvent (fun a ha e he hea =>
      hzero e he (htidy.owner (List.mem_append_left _ (List.mem_map_of_mem ha))
        (h.recorded.mem he) hea)) hclean
    exact ⟨l', h', hpaid' hsub⟩
  · have hzero := h.unreferenced hpaid hsolvent hrefs
    have hown : (m, s.listHead m) ∈ owned s :=
      (owned_of_loaded hm hloaded).mem_iff.mpr List.mem_cons_self
    obtain ⟨l', h', hsub⟩ := h.retire (a := s.listHead m) hsolvent fun e he hea =>
      hzero e he (htidy.owner hown (h.recorded.mem he) hea)
    obtain ⟨heap, -, rfl⟩ := cleanupVector_ok hclean
    exact ⟨l', h', hpaid' hsub⟩

/-! ## Entries of the loaded modules -/

/-- Only the vectors at the address can go. -/
theorem unregister_keeps (r : Registry) (hv : v ∈ r.vecList)
    (hne : v.overriddenSyscallsAddress ≠ a) : v ∈ (unregisterSyscall r a).1.vecList := by
  rcases unregisterSyscall_cases r a with ⟨-, hr⟩ | ⟨w, hw, ⟨-, hr⟩ | ⟨-, hr⟩⟩
  · rwa [hr]
  · rwa [hr]
  · rw [hr]
    refine (List.mem_eraseP_of_neg fun hmatch => ?_).mpr hv
    exact hne (beq_iff_eq.mp hmatch).symm

theorem cleanupHeads_keeps (hv : v ∈ s.registry.vecList)
    (hne : v.overriddenSyscallsAddress ∉ heads) (hclean : cleanupHeads heads s = .ok w) :
    v ∈ w.registry.vecList := by
  induction heads generalizing s with
  | nil =>
    cases hclean
    exact hv
  | cons a heads ih =>
    obtain ⟨hhead, hrest⟩ := not_or.mp (mt List.mem_cons.mpr hne)
    rw [cleanupHeads] at hclean
    cases hdelete : deleteVector s.heap a with
    | error fault =>
      simp only [hdelete] at hclean
      cases hclean
    | ok heap =>
      simp only [hdelete] at hclean
      exact ih (s := { s with registry := (unregisterSyscall s.registry a).1, heap := heap })
        (unregister_keeps _ hv hhead) hrest hclean

/-- Unloading one module leaves the entries of the others. -/
theorem rmmod_keeps {m' : Module} (htidy : Tidy s lost) (hrmmod : rmmod s m' = some t)
    (hv : v ∈ s.registry.vecList) (hm : v.vectorModule ≠ m') : v ∈ t.registry.vecList := by
  obtain ⟨hloaded, -, -, u, rfl, ⟨rfl, w, hclean, rfl⟩ | ⟨hm', hclean⟩⟩ := rmmod_cases hrmmod
  · refine cleanupHeads_keeps (w := w) hv (fun hmem => ?_) hclean
    exact hm (htidy.owner (List.mem_append_left _ (List.mem_map_of_mem hmem)) hv rfl)
  · obtain ⟨heap, -, rfl⟩ := cleanupVector_ok hclean
    refine unregister_keeps _ hv fun ha => hm (htidy.owner ?_ hv ha)
    exact (owned_of_loaded hm' hloaded).mem_iff.mpr List.mem_cons_self

/-- The other events add entries, if they change them at all. -/
def EntriesKept (s t : State) : Prop :=
  ∀ o ∈ s.registry.vecList.map ownerOf, o ∈ t.registry.vecList.map ownerOf

theorem EntriesKept.adjust (h : EntriesKept s t) (k : Key) (d : Int) :
    EntriesKept s { t with registry := t.registry.adjust k d } := by
  intro o ho
  rw [ownerOf_adjust]
  exact h o ho

theorem EntriesKept.refl (s : State) : EntriesKept s s := fun _ ho => ho

theorem createOutcome_entries {current : Pid} {bitmap : UInt32} {env : Env} {err : Int32}
    (h : CreateOutcome s current bitmap env t err) : EntriesKept s t := by
  have hadjusted := (EntriesKept.refl s).adjust (.bitmap bitmap) 1
  cases h with
  | reuse | abandon => exact hadjusted
  | @build b =>
    intro o ho
    change o ∈ (registered s.registry bitmap b.listHead env.va).vecList.map ownerOf
    rw [registered]
    split
    · exact List.mem_cons_of_mem _ (hadjusted o ho)
    · exact hadjusted o ho

theorem loadOutcome_entries {lost : List Address} (h : LoadOutcome s m t lost) :
    EntriesKept s t := by
  cases h with
  | dynamic | undone | unregistered => exact fun _ ho => ho
  | registered => exact fun _ ho => List.mem_cons_of_mem _ ho

theorem sessionStep_entries {op : SessionOp} (hidle : Idle s) (hfresh : op.Fresh s)
    (hkeeps : KeepsModules op) (h : sessionStep s op = some t) : EntriesKept s t := by
  have hsame := EntriesKept.refl s
  cases op with
  | system op =>
    cases op with
    | ioctl current request param env =>
      obtain ⟨-, -, result, hcall, rfl⟩ := step_ioctl h
      cases customIoctl_cases hidle.named.plain hcall with
      | unchanged => exact hsame
      | setNull | set | removeDeficit | remove => exact hsame.adjust _ _
      | create _ _ _ hcreate => exact createOutcome_entries hcreate
    | copyProcess current child flags =>
      obtain ⟨⟨a, hlive⟩, -, rfl⟩ := step_copyProcess h
      rw [copyProcess_live hlive]
      split
      · exact hsame.adjust _ _
      · exact hsame
    | exit current =>
      obtain ⟨⟨a, hlive⟩, rfl⟩ := step_exit h
      rw [exitTask_live hlive]
      split
      · exact hsame
      · exact hsame.adjust _ _
    | call c =>
      obtain rfl := Option.some.inj h
      rw [exec_fst]
      exact hsame.adjust _ _
    | unregister | rmmod => exact hkeeps.elim
  | insmod m node va => exact loadOutcome_entries (sessionStep_insmod hfresh h).2
  | clone current flags id fork =>
    cases (sessionStep_clone h).2.2 with
    | refused => exact hsame
    | failed | byId => exact hsame.adjust _ _
    | inherited => exact (hsame.adjust _ _).adjust _ _
  | forkFails current flags =>
    obtain ⟨-, rfl⟩ := sessionStep_forkFails h
    split
    · exact hsame.adjust _ _
    · exact hsame

theorem loadOutcome_present {m' : Module} (h : LoadOutcome s m' t lost)
    (hm : m = .vector1 ∨ m = .vector2) (hloaded : t.loaded m = true) :
    (m, t.listHead m) ∈ t.registry.vecList.map ownerOf ∨
      s.loaded m = true ∧ t.listHead m = s.listHead m := by
  refine (loadOutcome_heads h hm hloaded).imp_left fun ⟨hsame, _⟩ => ?_
  subst hsame
  have hgone : Function.update s.loaded m false m = false := Function.update_self ..
  cases h with
  | dynamic hdynamic => rcases hm with rfl | rfl <;> cases hdynamic
  | undone | unregistered => exact absurd (hgone.symm.trans hloaded) Bool.false_ne_true
  | @registered b =>
    have hentry : ownerOf (staticEntry m b.listHead) = (m, b.listHead) := by
      rw [ownerOf, staticEntry_module hm, staticEntry_address]
    dsimp only
    rw [Function.update_self, ← hentry]
    exact List.mem_cons_self

theorem present_step {op : SessionOp} (htidy : Tidy s lost) (hpresent : Present s)
    (hg : OwnSession s op) (h : sessionStep s op = some t) : Present t := by
  intro m hm hloaded
  have hkept (hkeeps : KeepsModules op) (hbefore : s.loaded m = true)
      (hhead : t.listHead m = s.listHead m) :
      (m, t.listHead m) ∈ t.registry.vecList.map ownerOf := by
    rw [hhead]
    exact sessionStep_entries htidy.accounted.idle hg.fresh hkeeps h _ (hpresent m hm hbefore)
  cases op with
  | system op =>
    obtain ⟨hbefore, hhead⟩ := step_heads htidy.accounted.idle h hm hloaded
    cases op with
    | ioctl | copyProcess | exit | call => exact hkept trivial hbefore hhead
    | unregister => exact ((hg.own _ rfl).task).elim
    | rmmod m' =>
      obtain ⟨v, hv, howner⟩ := List.mem_map.mp (hpresent m hm hbefore)
      have hne : m ≠ m' := by
        rintro rfl
        obtain ⟨-, -, -, u, rfl, -⟩ := rmmod_cases h
        exact Bool.false_ne_true ((Function.update_self ..).symm.trans hloaded)
      have hmodule : v.vectorModule = m := congrArg Prod.fst howner
      rw [hhead, ← howner]
      exact List.mem_map_of_mem (rmmod_keeps htidy h hv (hmodule ▸ hne))
  | insmod m' node va =>
    rcases loadOutcome_present (sessionStep_insmod hg.fresh h).2 hm hloaded with
      hentry | ⟨hbefore, hhead⟩
    · exact hentry
    · exact hkept trivial hbefore hhead
  | clone current flags id fork =>
    obtain ⟨registry, tasks, rfl, -⟩ := cloneOutcome_moves (sessionStep_clone h).2.2
    exact hkept trivial hloaded rfl
  | forkFails current flags =>
    obtain ⟨-, rfl⟩ := sessionStep_forkFails h
    by_cases hflags : flags &&& CLONE_SYSCALLS ≠ 0
    · rw [if_pos hflags] at hloaded hkept ⊢
      exact hkept trivial hloaded rfl
    · rw [if_neg hflags] at hloaded hkept ⊢
      exact hkept trivial hloaded rfl

/-! ## Sessions -/

theorem booked_step {x y : State × Ledger Address} {op : SessionOp} (h : Booked x.1 x.2)
    (hg : OwnSession x.1 op) (hstep : logged sessionStep strays x op = some y) :
    Booked y.1 y.2 := by
  obtain ⟨hmove, hlog⟩ := logged_eq_some hstep
  obtain ⟨lost, htidy⟩ := h.tidy
  obtain ⟨l, hl, hpaid⟩ := h.explained
  have hlost : logged sessionStep lostChains (x.1, lost) op =
      some (y.1, lost ++ lostChains x.1 op) := by
    rw [logged, hmove]
    rfl
  have hsolvent := solvent_strays hl hpaid h.solvent hg
  rw [← hlog] at hsolvent
  refine ⟨⟨_, session_tidy htidy hg hlost⟩, ?_, hsolvent, present_step htidy h.present hg hmove⟩
  have hcarried (hkeeps : KeepsModules op) :
      ∃ l, Explained y.1.registry y.1.tasks l y.2 ∧ Paid l := by
    obtain ⟨l', hl', hpaid'⟩ := sessionStep_carried htidy.accounted.idle htidy.known hg.fresh
      hkeeps hmove l x.2 hl
    exact ⟨l', hlog ▸ hl', hpaid' hg.own hpaid⟩
  cases op with
  | system op =>
    cases op with
    | ioctl | copyProcess | exit | call => exact hcarried trivial
    | unregister => exact ((hg.own _ rfl).task).elim
    | rmmod m =>
      obtain ⟨l', hl', hpaid'⟩ := rmmod_explained htidy hl hpaid h.solvent hmove
      have hsame : y.2 = x.2 := hlog.trans (List.append_nil _)
      exact ⟨l', hsame ▸ hl', hpaid'⟩
  | insmod | clone | forkFails => exact hcarried trivial

theorem kernelState_booked (live : Pid → Bool) : Booked (kernelState live) [] where
  tidy := ⟨[], kernelState_tidy live⟩
  explained := ⟨[], kernelState_explained live, fun _ he => absurd he List.not_mem_nil⟩
  solvent := solvent_nil
  present := fun _ _ hloaded => absurd hloaded Bool.false_ne_true

/-- The log of a session without foreign releases. -/
abbrev BookedRun (x y : State × Ledger Address) : Prop :=
  Run (logged sessionStep strays) (fun x op => OwnSession x.1 op) x y

theorem BookedRun.booked {live : Pid → Bool} (h : BookedRun (kernelState live, []) (s, log)) :
    Booked s log :=
  Run.invariant (fun x => Booked x.1 x.2) (fun _ _ _ hx hg hstep => booked_step hx hg hstep)
    (kernelState_booked live) h

/-- The references of a loaded vector1 or vector2 are the holders of its chain and what the log
says about it. -/
theorem Booked.moduleRefs (h : Booked s log) (hm : m = .vector1 ∨ m = .vector2)
    (hloaded : s.loaded m = true) :
    s.registry.moduleRefs m = holders s.tasks (s.listHead m) + balance log (s.listHead m) := by
  obtain ⟨lost, htidy⟩ := h.tidy
  obtain ⟨l, hl, -⟩ := h.explained
  have hdynamic : m ≠ .dynamicVector := by rcases hm with rfl | rfl <;> decide
  obtain ⟨v, hv, howner⟩ := List.mem_map.mp (h.present m hm hloaded)
  obtain ⟨hmodule, haddress⟩ := Prod.mk.inj howner
  have hhead := htidy.heads m hm hloaded
  obtain ⟨c, hc⟩ := hl.recorded.count hv
  have hcount : c = holders s.tasks v.overriddenSyscallsAddress +
      balance log v.overriddenSyscallsAddress := hl.counts _ hc (haddress ▸ hhead)
  -- it is the only entry of the module
  obtain ⟨as, bs, hsplit⟩ := List.append_of_mem hc
  have hothers : ∀ e ∈ as ++ bs, e.1.vectorModule ≠ v.vectorModule := by
    intro e he hsame
    have hmem : e ∈ l := by
      rw [hsplit]
      exact ((List.sublist_cons_self (v, c) bs).append_left as).mem he
    have hlist : s.registry.vecList = as.map Prod.fst ++ v :: bs.map Prod.fst := by
      rw [← hl.recorded.entries, hsplit, List.map_append, List.map_cons]
    have howned := htidy.placed.entries.subset (List.mem_map_of_mem (hl.recorded.mem hmem))
    have hea : e.1.overriddenSyscallsAddress = s.listHead m := by
      rw [ownerOf, hsame, hmodule] at howned
      rcases List.mem_append.mp howned with ho | ho
      · obtain ⟨b, -, hpair⟩ := List.mem_map.mp ho
        exact absurd (congrArg Prod.fst hpair).symm hdynamic
      · obtain ⟨m', -, hpair⟩ := List.mem_map.mp ho
        obtain ⟨rfl, hb⟩ := Prod.mk.inj hpair
        exact hb.symm
    refine hl.distinct.apart hlist e.1 ?_ (hea ▸ hhead) (hea.trans haddress.symm)
    rw [← List.map_append]
    exact List.mem_map_of_mem he
  have htotal : total StructVector.vectorModule l m = c := by
    have hunique : total StructVector.vectorModule (as ++ (v, c) :: bs) v.vectorModule = c :=
      total_of_unique hothers
    rwa [← hsplit, hmodule] at hunique
  have hsurplus := hl.statics m hdynamic
  rw [surplus, htotal] at hsurplus
  rw [haddress] at hcount
  omega

/-- In a session without foreign releases, vector1 or vector2 can be unloaded exactly when it is
loaded, no loaded module depends on it, nobody holds its chain, and the log has nothing on the
chain. -/
theorem unload_iff {live : Pid → Bool} (h : BookedRun (kernelState live, []) (s, log))
    (hm : m = .vector1 ∨ m = .vector2) :
    (∃ t, sessionStep s (.system (.rmmod m)) = some t) ↔
      s.loaded m = true ∧ (∀ m' : Module, m ∈ m'.depends → s.loaded m' = false) ∧
        (∀ p, s.tasks p ≠ some (s.listHead m)) ∧ balance log (s.listHead m) = 0 := by
  have hbooked := h.booked
  obtain ⟨lost, htidy⟩ := hbooked.tidy
  constructor
  · rintro ⟨t, ht⟩
    obtain ⟨hloaded, hneeded, hrefs, -⟩ := rmmod_cases ht
    have hcount := hbooked.moduleRefs hm hloaded
    have hlog := hbooked.solvent _ (htidy.heads m hm hloaded)
    have hnone := (s.needed_eq_false_iff m).mp hneeded
    refine ⟨hloaded, hnone, (holders_eq_zero_iff s.tasks _).mp ?_, ?_⟩ <;> omega
  · rintro ⟨hloaded, hnone, hnobody, hlog⟩
    have hcount := hbooked.moduleRefs hm hloaded
    rw [(holders_eq_zero_iff s.tasks _).mpr hnobody, hlog] at hcount
    have hne : m ≠ .ioctlModule := by rcases hm with rfl | rfl <;> decide
    have hneeded := (s.needed_eq_false_iff m).mpr hnone
    obtain ⟨t, ht, -, -⟩ := rmmod_accounted htidy.accounted hne hloaded hneeded hcount
    exact ⟨t, ht⟩

/-! ## Leaks -/

/-- A release by name is by a task that holds the vector. -/
def HoldsReleased (s : State) (op : SessionOp) : Prop :=
  ∀ current param env v, op = .system (.ioctl current IOCTL_REMOVE param env) → NameRead env →
    s.registry.lookup (nameKey param) = some v →
      v.overriddenSyscallsAddress ≠ 0 ∧ s.tasks current = some v.overriddenSyscallsAddress

/-- Then what is on the log stays there. -/
theorem leak_step {op : SessionOp} (hbooked : Booked s log) (hg : OwnSession s op)
    (hholds : HoldsReleased s op) (h0 : a ≠ 0) (hleak : 0 < balance log a) :
    0 < balance (log ++ strays s op) a := by
  obtain ⟨l, hl, -⟩ := hbooked.explained
  have hraised (hsolvent : Solvent (strays s op)) : 0 < balance (log ++ strays s op) a := by
    have hmore := hsolvent a h0
    rw [balance_append]
    omega
  cases op with
  | system op =>
    cases op with
    | ioctl current request param env =>
      by_cases hremove : request = IOCTL_REMOVE
      case neg => exact hraised (solvent_request hremove)
      subst hremove
      by_cases hread : NameRead env
      case neg =>
        rwa [strays, requestStrays_remove_nil (.inl hread), List.append_nil]
      cases hv : s.registry.lookup (nameKey param) with
      | none => rwa [strays, requestStrays_remove_nil (.inr hv), List.append_nil]
      | some v =>
        obtain ⟨hne, hp⟩ := hholds current param env v rfl hread hv
        rcases remove_holder hl hbooked.solvent hread hv hne hp h0 with hle | hpos
        · exact hleak.trans_le hle
        · exact hpos
    | copyProcess | exit | rmmod => exact hraised solvent_nil
    | call | unregister => exact ((hg.own _ rfl).task).elim
  | insmod => exact hraised solvent_nil
  | clone current flags id fork => exact hraised (solvent_clone s current flags id fork)
  | forkFails current flags =>
    refine hraised ?_
    rw [strays]
    split
    · exact solvent_moved _ _
    · exact solvent_nil

/-- Only loads and unloads of a module change whether it is loaded. -/
theorem step_loaded {op : Op} (hidle : Idle s) (h : step s op = some t) (hkeeps : op ≠ .rmmod m) :
    t.loaded m = s.loaded m := by
  cases op with
  | ioctl current request param env =>
    obtain ⟨-, -, result, hcall, rfl⟩ := step_ioctl h
    cases customIoctl_cases hidle.named.plain hcall with
    | unchanged | setNull | set | removeDeficit | remove => rfl
    | create _ _ _ hcreate =>
      cases hcreate with
      | reuse | abandon | build => rfl
  | copyProcess current child flags =>
    obtain ⟨⟨a, hlive⟩, -, rfl⟩ := step_copyProcess h
    rw [copyProcess_live hlive]
    split <;> rfl
  | exit current =>
    obtain ⟨⟨a, hlive⟩, rfl⟩ := step_exit h
    rfl
  | call | unregister =>
    obtain rfl := Option.some.inj h
    rfl
  | rmmod m' =>
    have hne : m ≠ m' := fun he => hkeeps (he ▸ rfl)
    obtain ⟨-, -, -, u, rfl, hu⟩ := rmmod_cases h
    refine (Function.update_of_ne hne ..).trans ?_
    rcases hu with ⟨-, w, hclean, rfl⟩ | ⟨-, hclean⟩
    · exact cleanupHeads_invariant (t := w) (fun w => w.loaded m = s.loaded m)
        (fun _ _ _ h => h) rfl hclean
    · obtain ⟨heap, -, rfl⟩ := cleanupVector_ok hclean
      rfl

theorem loadOutcome_loaded {m' : Module} (h : LoadOutcome s m' t lost) (hne : m ≠ m') :
    t.loaded m = s.loaded m := by
  cases h with
  | dynamic hdynamic =>
    subst hdynamic
    exact Function.update_of_ne hne ..
  | undone | unregistered | registered => exact Function.update_of_ne hne ..

/-- A loaded vector1 or vector2 keeps its chain until it is unloaded. -/
theorem sessionStep_loaded {op : SessionOp} (hidle : Idle s) (hfresh : op.Fresh s)
    (hm : m = .vector1 ∨ m = .vector2) (hloaded : s.loaded m = true)
    (h : sessionStep s op = some t) (hkeeps : op ≠ .system (.rmmod m)) :
    t.loaded m = true ∧ t.listHead m = s.listHead m := by
  cases op with
  | system op =>
    have hafter : t.loaded m = true :=
      (step_loaded hidle h fun he => hkeeps (congrArg SessionOp.system he)).trans hloaded
    exact ⟨hafter, (step_heads hidle h hm hafter).2⟩
  | insmod m' node va =>
    obtain ⟨hunloaded, houtcome⟩ := sessionStep_insmod hfresh h
    have hne : m ≠ m' := by
      rintro rfl
      exact Bool.false_ne_true (hunloaded.symm.trans hloaded)
    have hafter := (loadOutcome_loaded houtcome hne).trans hloaded
    rcases loadOutcome_heads houtcome hm hafter with ⟨he, -⟩ | ⟨-, hhead⟩
    · exact absurd he hne
    · exact ⟨hafter, hhead⟩
  | clone current flags id fork =>
    obtain ⟨registry, tasks, rfl, -⟩ := cloneOutcome_moves (sessionStep_clone h).2.2
    exact ⟨hloaded, rfl⟩
  | forkFails current flags =>
    obtain ⟨-, rfl⟩ := sessionStep_forkFails h
    split <;> exact ⟨hloaded, rfl⟩

/-- A lost reference keeps its module loaded for the rest of the session. -/
theorem leak_pins_module {live : Pid → Bool} {log' : Ledger Address}
    (h : BookedRun (kernelState live, []) (s, log)) (hm : m = .vector1 ∨ m = .vector2)
    (hloaded : s.loaded m = true) (hleak : 0 < balance log (s.listHead m))
    (hrun : Run (logged sessionStep strays) (fun x op => OwnSession x.1 op ∧ HoldsReleased x.1 op)
      (s, log) (t, log')) :
    t.loaded m = true ∧ t.listHead m = s.listHead m ∧ 0 < balance log' (s.listHead m) := by
  have hpinned : Booked t log' ∧
      (t.loaded m = true ∧ t.listHead m = s.listHead m) ∧ 0 < balance log' (s.listHead m) := by
    refine Run.invariant (fun x => Booked x.1 x.2 ∧
      (x.1.loaded m = true ∧ x.1.listHead m = s.listHead m) ∧ 0 < balance x.2 (s.listHead m))
      ?_ ⟨h.booked, ⟨hloaded, rfl⟩, hleak⟩ hrun
    rintro x op y ⟨hbooked, ⟨hstill, hhead⟩, hlog⟩ ⟨hown, hholds⟩ hstep
    obtain ⟨hmove, hlogged⟩ := logged_eq_some hstep
    obtain ⟨lost, htidy⟩ := hbooked.tidy
    have hcount := hbooked.moduleRefs hm hstill
    rw [hhead] at hcount
    -- the reference on the log is one of the module's
    have hpins : op ≠ .system (.rmmod m) := by
      rintro rfl
      obtain ⟨-, -, hrefs, -⟩ := rmmod_cases hmove
      omega
    obtain ⟨hafter, hsame⟩ :=
      sessionStep_loaded htidy.accounted.idle hown.fresh hm hstill hmove hpins
    have h0 : s.listHead m ≠ 0 := hhead ▸ htidy.heads m hm hstill
    refine ⟨booked_step hbooked hown hstep, ⟨hafter, hsame.trans hhead⟩, ?_⟩
    rw [hlogged]
    exact leak_step hbooked hown hholds h0 hlog
  exact ⟨hpinned.2.1.1, hpinned.2.1.2, hpinned.2.2⟩

/-! ## A session that leaks -/

/-- vector1 is loaded, task 1 takes `Vector55` and has a child that inherits it. -/
def inheritance : List SessionOp :=
  [.insmod .vector1 (slab 4096) 1,
    .system (.ioctl task1 IOCTL_SET (nameParam vector1Name) nodelessEnv),
    .clone task1 CLONE_SYSCALLS 0 (.child childTask)]

/-- Both end. -/
def departures : List SessionOp := [.system (.exit childTask), .system (.exit task1)]

/-- The state that this leaves, with its log. -/
def inherited : State × Ledger Address :=
  (steps (logged sessionStep strays) (kernelState sampleLive, []) inheritance).getD
    (kernelState sampleLive, [])

theorem inherited_booked :
    BookedRun (kernelState sampleLive, []) (inherited.1, [(4096, 1)]) := by
  obtain ⟨x, hload, hrest⟩ : ∃ x, logged sessionStep strays (kernelState sampleLive, [])
      (.insmod .vector1 (slab 4096) 1) = some x ∧ steps (logged sessionStep strays) x
        [.system (.ioctl task1 IOCTL_SET (nameParam vector1Name) nodelessEnv),
          .clone task1 CLONE_SYSCALLS 0 (.child childTask)] =
        some (inherited.1, [(4096, 1)]) := ⟨_, rfl, rfl⟩
  have hloaded : BookedRun (kernelState sampleLive, []) x :=
    Run.single (a := .insmod .vector1 (slab 4096) 1)
      ⟨freshNodes_slab (by decide) fun _ _ => rfl, fun _ h => by cases h⟩ hload
  refine hloaded.trans (Run.of_steps (fun y op hop => ?_) hrest)
  simp only [List.mem_cons, List.not_mem_nil, or_false] at hop
  rcases hop with rfl | rfl
  · exact ownSession_set y.1 task1 vector1Name
  · exact ⟨trivial, fun _ h => by cases h⟩

/-- After both have ended nobody has the chain, but vector1 cannot be unloaded. -/
theorem unload_iff_inherited :
    ∃ t, steps (logged sessionStep strays) (inherited.1, [(4096, 1)]) departures =
        some (t, [(4096, 1)]) ∧ t.tasks task1 = none ∧ t.tasks childTask = none ∧
      ¬∃ u, sessionStep t (.system (.rmmod .vector1)) = some u := by
  obtain ⟨t, ht⟩ : ∃ t, steps (logged sessionStep strays) (inherited.1, [(4096, 1)])
    departures = some (t, [(4096, 1)]) := ⟨_, rfl⟩
  have hend : (steps (logged sessionStep strays) (inherited.1, [(4096, 1)]) departures).map
      (fun x => (x.1.tasks task1, x.1.tasks childTask, x.1.listHead .vector1)) =
      some (none, none, 4096) := by decide
  rw [ht] at hend
  obtain ⟨htask, hrest⟩ := Prod.mk.inj (Option.some.inj hend)
  obtain ⟨hchild, hhead⟩ := Prod.mk.inj hrest
  have hrun : BookedRun (kernelState sampleLive, []) (t, [(4096, 1)]) := by
    refine inherited_booked.trans (Run.of_steps (fun x op hop => ?_) ht)
    simp only [departures, List.mem_cons, List.not_mem_nil, or_false] at hop
    rcases hop with rfl | rfl
    · exact ownSession_exit x.1 childTask
    · exact ownSession_exit x.1 task1
  refine ⟨t, ht, htask, hchild, fun hunload => ?_⟩
  obtain ⟨-, -, -, hlog⟩ := (unload_iff hrun (.inl rfl)).mp hunload
  rw [hhead] at hlog
  exact absurd hlog (by decide)

theorem leak_pins_module_inherited :
    ∃ t, steps (logged sessionStep strays) (inherited.1, [(4096, 1)]) departures =
        some (t, [(4096, 1)]) ∧
      t.loaded .vector1 = true ∧ t.listHead .vector1 = inherited.1.listHead .vector1 ∧
      0 < balance [(4096, 1)] (inherited.1.listHead .vector1) := by
  obtain ⟨t, ht⟩ : ∃ t, steps (logged sessionStep strays) (inherited.1, [(4096, 1)])
    departures = some (t, [(4096, 1)]) := ⟨_, rfl⟩
  refine ⟨t, ht, leak_pins_module inherited_booked (.inl rfl) rfl (by decide)
    (Run.of_steps (fun x op hop => ?_) ht)⟩
  have hexit (p : Pid) : HoldsReleased x.1 (.system (.exit p)) := by
    intro _ _ _ _ hop
    cases SessionOp.system.inj hop
  simp only [departures, List.mem_cons, List.not_mem_nil, or_false] at hop
  rcases hop with rfl | rfl
  · exact ⟨ownSession_exit x.1 childTask, hexit childTask⟩
  · exact ⟨ownSession_exit x.1 task1, hexit task1⟩

end

end SyscallVector.Audit
