import SyscallVector.Lib.Holders
import SyscallVector.Audit.ChainOwnership

/-!
# Accounts of references

A count and a pointer that move together keep the count of a chain equal to the number of its
holders. A log takes down each time that one of them moves alone, with the chain and the
amount. The exact count of a chain is then the number of its holders and the balance of the
log at it. Counts that move, pointers that are written and entries that come and go keep it so,
each with its own entries of the log.
-/
namespace SyscallVector.Audit

set_option autoImplicit false

open Lib Model

/-- What a log says about one chain. -/
abbrev balance (log : Ledger Address) (a : Address) : ℤ := total id log a

/-- A count that moves without a pointer, if the search finds one. -/
def moved (r : Registry) (k : Key) (d : ℤ) : Ledger Address :=
  ((r.lookup k).map fun v => (v.overriddenSyscallsAddress, d)).toList

/-- A pointer that is written over or ends, or with `d = -1` one that is new, if its chain is
registered. -/
def dropped (r : Registry) (info : Option Address) (d : ℤ) : Ledger Address :=
  info.elim [] fun a => moved r (.address a) d

/-- The log explains the exact counts, and the counts those of the modules: only dynamic_vector
has references besides, one for each chain that it could not register. -/
structure Explained (r : Registry) (tasks : Pid → Option Address) (l : Ledger StructVector)
    (log : Ledger Address) : Prop where
  recorded : Recorded l r
  distinct : DistinctAddresses r
  backed : ∀ m, 0 ≤ surplus l r m
  statics : ∀ m, m ≠ .dynamicVector → surplus l r m = 0
  counts : ∀ e ∈ l, e.1.overriddenSyscallsAddress ≠ 0 →
    e.2 = holders tasks e.1.overriddenSyscallsAddress +
      balance log e.1.overriddenSyscallsAddress
  absent : ∀ a, a ≠ 0 → a ∉ addresses r → balance log a = 0

section
variable {r : Registry} {tasks : Pid → Option Address} {l : Ledger StructVector}
  {log log' : Ledger Address} {k k' : Key} {d e : ℤ} {v : StructVector} {a b : Address} {p : Pid}

/-! ## Entries of the log -/

theorem balance_append (log log' : Ledger Address) (a : Address) :
    balance (log ++ log') a = balance log a + balance log' a := total_append log log' a

theorem moved_none (h : r.lookup k = none) (d : ℤ) : moved r k d = [] := by
  rw [moved, h]
  rfl

theorem moved_some (h : r.lookup k = some v) (d : ℤ) :
    moved r k d = [(v.overriddenSyscallsAddress, d)] := by
  rw [moved, h]
  rfl

theorem balance_entry (a : Address) (d : ℤ) (b : Address) :
    balance [(a, d)] b = if a = b then d else 0 := by
  rw [balance, total_cons]
  exact Int.add_zero _

theorem balance_moved (h : r.lookup k = some v) (d : ℤ) (b : Address) :
    balance (moved r k d) b = if v.overriddenSyscallsAddress = b then d else 0 := by
  rw [moved_some h, balance_entry]

theorem balance_moved_absent (k : Key) (d : ℤ) (h : a ∉ addresses r) :
    balance (moved r k d) a = 0 := by
  cases hv : r.lookup k with
  | none =>
    rw [moved_none hv]
    rfl
  | some v =>
    rw [balance_moved hv, if_neg]
    rintro rfl
    exact h (mem_addresses (lookup_mem hv))

/-- The pointer to a chain is logged if the chain is registered. -/
theorem balance_moved_address (r : Registry) (a : Address) (d : ℤ) (b : Address) :
    balance (moved r (.address a) d) b = if a = b ∧ b ∈ addresses r then d else 0 := by
  cases hv : r.lookup (.address a) with
  | none =>
    have hout : ¬(a = b ∧ b ∈ addresses r) := by
      rintro ⟨rfl, hmem⟩
      exact not_mem_addresses hv hmem
    rw [moved_none hv, if_neg hout]
    rfl
  | some v =>
    have hmem : a ∈ addresses r := lookup_address hv ▸ mem_addresses (lookup_mem hv)
    have hiff : a = b ∧ b ∈ addresses r ↔ a = b := and_iff_left_of_imp fun he => he ▸ hmem
    rw [balance_moved hv, lookup_address hv]
    simp only [hiff]

theorem balance_dropped (r : Registry) (info : Option Address) (d : ℤ) (b : Address) :
    balance (dropped r info d) b = if info = some b ∧ b ∈ addresses r then d else 0 := by
  cases info with
  | none => rfl
  | some a =>
    rw [dropped, Option.elim_some, balance_moved_address]
    simp only [Option.some.injEq]

/-! ## Moves that keep the explanation -/

theorem Explained.congr (h : Explained r tasks l log)
    (hlog : ∀ a, a ≠ 0 → balance log' a = balance log a) : Explained r tasks l log' := by
  refine { h with counts := fun e he h0 => ?_, absent := fun a h0 ha => ?_ }
  · rw [hlog _ h0]
    exact h.counts e he h0
  · rw [hlog a h0]
    exact h.absent a h0 ha

/-- A count that moves is logged. -/
theorem Explained.adjust (h : Explained r tasks l log) (k : Key) (d : ℤ) :
    Explained (r.adjust k d) tasks (ledgerMove k d l) (log ++ moved r k d) := by
  have hsurplus := surplus_adjust h.recorded k d
  refine ⟨h.recorded.adjust k d, h.distinct.adjust k d, fun m => (h.backed m).trans_eq
    (hsurplus m).symm, fun m hm => (hsurplus m).trans (h.statics m hm), ?_, ?_⟩
  · intro e he h0
    cases hv : r.lookup k with
    | none =>
      have hnone : (l.map Prod.fst).find? k.isMatch = none := by
        rw [h.recorded.entries]
        exact hv
      rw [ledgerMove, move_of_find?_none hnone] at he
      rw [moved_none hv, List.append_nil]
      exact h.counts e he h0
    | some v =>
      obtain ⟨c, hc⟩ := h.recorded.found hv
      rcases h.recorded.mem_move h.distinct hc he with rfl | ⟨he, happart⟩
      · have hcount : c = holders tasks v.overriddenSyscallsAddress +
            balance log v.overriddenSyscallsAddress := h.counts _ (entryOf_mem hc) h0
        have hlog : balance (log ++ moved r k d) v.overriddenSyscallsAddress =
            balance log v.overriddenSyscallsAddress + d := by
          rw [balance_append, balance_moved hv, if_pos rfl]
        change c + d = holders tasks v.overriddenSyscallsAddress +
          balance (log ++ moved r k d) v.overriddenSyscallsAddress
        omega
      · rw [balance_append, balance_moved hv, if_neg fun he' => happart h0 he'.symm,
          Int.add_zero]
        exact h.counts e he h0
  · intro a h0 ha
    rw [addresses_adjust] at ha
    rw [balance_append, h.absent a h0 ha, balance_moved_absent k d ha]
    rfl

/-- So is the pointer of a task that is written. -/
theorem Explained.retask (h : Explained r tasks l log) (p : Pid) (info : Option Address) :
    Explained r (Function.update tasks p info) l
      (log ++ dropped r (tasks p) 1 ++ dropped r info (-1)) := by
  refine { h with counts := fun e he h0 => ?_, absent := fun a h0 ha => ?_ }
  · have hmem := mem_addresses (h.recorded.mem he)
    have hcount := h.counts e he h0
    have hholders := holders_update tasks p e.1.overriddenSyscallsAddress info
    rw [balance_append, balance_append, balance_dropped, balance_dropped, hcount]
    simp only [hmem, and_true]
    by_cases hold : tasks p = some e.1.overriddenSyscallsAddress
    · by_cases hnew : info = some e.1.overriddenSyscallsAddress
      · rw [if_pos hold, if_pos hnew] at hholders ⊢
        omega
      · rw [if_pos hold, if_neg hnew] at hholders ⊢
        omega
    · by_cases hnew : info = some e.1.overriddenSyscallsAddress
      · rw [if_neg hold, if_pos hnew] at hholders ⊢
        omega
      · rw [if_neg hold, if_neg hnew] at hholders ⊢
        omega
  · rw [balance_append, balance_append, h.absent a h0 ha, balance_dropped, balance_dropped,
      if_neg fun hmem => ha hmem.2, if_neg fun hmem => ha hmem.2]
    rfl

/-- A new entry at a chain that nobody has heard of comes with its count, and with as many
references to its module. -/
theorem Explained.push (h : Explained r tasks l log) {c : ℤ}
    (hcount : v.refcount = Int32.ofInt c) (hbacked : c ≤ surplus l r v.vectorModule)
    (hstatic : v.vectorModule ≠ .dynamicVector → c = 0)
    (hnew : v.overriddenSyscallsAddress ≠ 0 → v.overriddenSyscallsAddress ∉ addresses r ∧
      ∀ q, tasks q ≠ some v.overriddenSyscallsAddress) :
    Explained (pushVector r v) tasks ((v, c) :: l)
      (log ++ [(v.overriddenSyscallsAddress, c)]) := by
  refine ⟨h.recorded.push hcount, h.distinct.push fun h0 => (hnew h0).1, fun m => ?_,
    fun m hm => ?_, ?_, ?_⟩
  · have hm := h.backed m
    rw [surplus_push]
    by_cases he : v.vectorModule = m
    · rw [if_pos he, ← he]
      omega
    · rw [if_neg he]
      omega
  · rw [surplus_push, h.statics m hm]
    by_cases he : v.vectorModule = m
    · rw [if_pos he, hstatic (he ▸ hm)]
      rfl
    · rw [if_neg he]
      rfl
  · intro e he h0
    rw [balance_append, balance_entry]
    rcases List.mem_cons.mp he with rfl | he
    · dsimp only at h0 ⊢
      rw [if_pos rfl, h.absent _ h0 (hnew h0).1, (holders_eq_zero_iff tasks _).mpr (hnew h0).2]
      simp
    · have hne : v.overriddenSyscallsAddress ≠ e.1.overriddenSyscallsAddress := by
        intro hsame
        have h0' : v.overriddenSyscallsAddress ≠ 0 := hsame ▸ h0
        exact (hnew h0').1 (hsame ▸ mem_addresses (h.recorded.mem he))
      rw [if_neg hne, Int.add_zero]
      exact h.counts e he h0
  · intro a h0 ha
    have hhead : v.overriddenSyscallsAddress ≠ a := by
      rintro rfl
      exact ha List.mem_cons_self
    rw [balance_append, balance_entry, if_neg hhead,
      h.absent a h0 fun hmem => ha (List.mem_cons_of_mem _ hmem)]
    rfl

theorem Explained.tryModuleGet (h : Explained r tasks l log) :
    Explained (r.tryModuleGet .dynamicVector) tasks l log := by
  refine ⟨h.recorded.tryModuleGet _, h.distinct, fun m => ?_, fun m hm => ?_, h.counts, h.absent⟩
  · have hm := h.backed m
    rw [surplus_tryModuleGet]
    split <;> omega
  · rw [surplus_tryModuleGet, if_neg (Ne.symm hm), h.statics m hm]
    rfl

/-- An entry without references whose chain the log does not mention can go. -/
theorem Explained.unregister (h : Explained r tasks l log) {a : Address}
    (hzero : ∀ c, r.lookup (.address a) = some v → (v, c) ∈ l → c = 0)
    (hlog : a ≠ 0 → balance log a = 0) (hv : r.lookup (.address a) = some v) :
    Explained (eraseAddress r a) tasks (l.eraseP fun e => addressIs a e.1) log := by
  obtain ⟨c, hc⟩ := h.recorded.found hv
  obtain rfl := hzero c hv (entryOf_mem hc)
  have hsurplus (m : Module) : surplus (l.eraseP fun e => addressIs a e.1) (eraseAddress r a) m =
      surplus l r m := by
    have herased := surplus_eraseP (r := r) hc (eraseAddress r a) rfl m
    change surplus (l.eraseP fun e => addressIs a e.1) (eraseAddress r a) m = _ at herased
    rw [herased]
    simp
  refine ⟨h.recorded.eraseP _, h.distinct.erase a, fun m => (h.backed m).trans_eq
    (hsurplus m).symm, fun m hm => (hsurplus m).trans (h.statics m hm),
    fun e he => h.counts e (List.mem_of_mem_eraseP he), fun b h0 hb => ?_⟩
  by_cases hne : b = a
  · rw [hne]
    exact hlog (hne ▸ h0)
  · exact h.absent b h0 fun hmem => hb (mem_addresses_erase hv hmem hne)

/-! ## Vectors without a chain -/

/-- No vector without a chain has a negative count. -/
def Paid (l : Ledger StructVector) : Prop :=
  ∀ e ∈ l, e.1.overriddenSyscallsAddress = 0 → 0 ≤ e.2

/-- The vector has a chain or a positive count. -/
def Spendable (v : StructVector) : Prop :=
  v.overriddenSyscallsAddress ≠ 0 ∨ 0 < v.refcount.toInt

theorem Entitled.spendable (h : Entitled tasks p v) : Spendable v := by
  rcases h with ⟨h0, -⟩ | hunused
  · exact .inl h0
  · exact .inr (by omega)

theorem Paid.move (h : Paid l) (hr : Recorded l r) (k : Key) (d : ℤ)
    (hd : ∀ v c, r.lookup k = some v → (v, c) ∈ l → v.overriddenSyscallsAddress = 0 →
      0 ≤ c + d) : Paid (ledgerMove k d l) := by
  intro e he h0
  rcases mem_updateFirst he with he | ⟨⟨w, c⟩, he', rfl⟩
  · exact h e he h0
  · have hfound : r.lookup k = some w := by
      rw [Registry.lookup, ← hr.entries, List.find?_map]
      exact Option.map_eq_some_iff.mpr ⟨(w, c), he', rfl⟩
    exact hd w c hfound (List.mem_of_find?_eq_some he') h0

theorem Paid.raise (h : Paid l) (hr : Recorded l r) (k : Key) (hd : 0 ≤ d) :
    Paid (ledgerMove k d l) := by
  refine h.move hr k d fun v c _ hc h0 => ?_
  have hcount : 0 ≤ c := h _ hc h0
  omega

theorem Paid.lower (h : Paid l) (hr : Recorded l r)
    (hv : ∀ v, r.lookup k = some v → Spendable v) : Paid (ledgerMove k (-1) l) := by
  refine h.move hr k (-1) fun v c hfound hc h0 => ?_
  have hshown : v.refcount.toInt ≤ c := toInt_le_exact (hr.counts _ hc) (h _ hc h0)
  rcases hv v hfound with hne | hpos
  · exact absurd h0 hne
  · omega

end

end SyscallVector.Audit
