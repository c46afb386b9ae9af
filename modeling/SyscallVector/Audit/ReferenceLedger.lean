import SyscallVector.Lib.Ledger
import SyscallVector.Audit.IoctlRuns

/-!
# The exact counts behind a registry

A reference count is an `int` that can wrap. `Recorded l r` says that the ledger `l`
lists the entries of `r` and that each count is the truncation of the exact one. The
`surplus` of a module, its own count less the exact counts of its vectors, is what
the registry's operations keep or change in a known way.
-/
namespace SyscallVector.Audit

set_option autoImplicit false

open Lib Model

/-- The ledger lists the entries of the registry and truncates to their counts. -/
structure Recorded (l : Ledger StructVector) (r : Registry) : Prop where
  entries : l.map Prod.fst = r.vecList
  counts : ∀ e ∈ l, e.1.refcount = Int32.ofInt e.2

/-- The references of a module that no vector of it accounts for. -/
def surplus (l : Ledger StructVector) (r : Registry) (m : Module) : ℤ :=
  r.moduleRefs m - total StructVector.vectorModule l m

/-- The move of the ledger that goes with `Registry.adjust`. -/
def ledgerMove (k : Key) (d : ℤ) (l : Ledger StructVector) : Ledger StructVector :=
  move k.isMatch (StructVector.addRef d) d l

section
variable {l : Ledger StructVector} {r : Registry} {k : Key} {d : ℤ} {v : StructVector}

theorem Recorded.mem (h : Recorded l r) {e : StructVector × ℤ} (he : e ∈ l) : e.1 ∈ r.vecList := by
  rw [← h.entries]
  exact List.mem_map_of_mem he

/-- The exact count of a registered vector. -/
theorem Recorded.count (h : Recorded l r) (hv : v ∈ r.vecList) : ∃ c, (v, c) ∈ l := by
  rw [← h.entries] at hv
  obtain ⟨⟨w, c⟩, he, rfl⟩ := List.mem_map.mp hv
  exact ⟨c, he⟩

/-- The exact count of the entry that a search resolves to. -/
theorem Recorded.found (h : Recorded l r) (hv : r.lookup k = some v) :
    ∃ c, entryOf k.isMatch l = some (v, c) := by
  rw [Registry.lookup, ← h.entries] at hv
  exact entryOf_of_find? hv

theorem Recorded.adjust (h : Recorded l r) (k : Key) (d : ℤ) :
    Recorded (ledgerMove k d l) (r.adjust k d) := by
  constructor
  · rw [ledgerMove, map_fst_move, h.entries, adjust_vecList]
  · intro e he
    rcases mem_updateFirst he with he | ⟨e', he', rfl⟩
    · exact h.counts e he
    · have hcount := h.counts e' (List.mem_of_find?_eq_some he')
      rw [StructVector.addRef_refcount, hcount, ← Int32.ofInt_add]

theorem surplus_adjust (h : Recorded l r) (k : Key) (d : ℤ) (m : Module) :
    surplus (ledgerMove k d l) (r.adjust k d) m = surplus l r m := by
  rw [surplus, surplus, adjust_moduleRefs]
  cases hv : r.lookup k with
  | none =>
    have hnone : (l.map Prod.fst).find? k.isMatch = none := by rwa [h.entries]
    rw [ledgerMove, move_of_find?_none hnone]
    simp
  | some v =>
    obtain ⟨c, hc⟩ := h.found hv
    have hmove := total_move (f := StructVector.addRef d) (d := d)
      (fun v => StructVector.addRef_vectorModule d v) hc m
    rw [ledgerMove, hmove]
    simp only [Option.map_some, Option.some.injEq]
    omega

/-- A new entry comes with one reference to its module for each of its own. -/
theorem Recorded.push (h : Recorded l r) {c : ℤ} (hc : v.refcount = Int32.ofInt c) :
    Recorded ((v, c) :: l) (pushVector r v) := by
  constructor
  · rw [List.map_cons, h.entries]
    rfl
  · intro e he
    rcases List.mem_cons.mp he with rfl | he
    · exact hc
    · exact h.counts e he

theorem surplus_push (l : Ledger StructVector) (r : Registry) (v : StructVector) (c : ℤ)
    (m : Module) :
    surplus ((v, c) :: l) (pushVector r v) m =
      surplus l r m - if v.vectorModule = m then c else 0 := by
  rw [surplus, surplus, total_cons]
  change r.moduleRefs m - ((if v.vectorModule = m then c else 0) + _) = _
  omega

theorem Recorded.tryModuleGet (h : Recorded l r) (m : Module) : Recorded l (r.tryModuleGet m) :=
  ⟨h.entries, h.counts⟩

theorem surplus_tryModuleGet (l : Ledger StructVector) (r : Registry) (m m' : Module) :
    surplus l (r.tryModuleGet m) m' = surplus l r m' + if m = m' then 1 else 0 := by
  rw [surplus, surplus, tryModuleGet_moduleRefs]
  omega

theorem Recorded.eraseP (h : Recorded l r) (p : StructVector → Bool) :
    Recorded (l.eraseP fun e => p e.1) { r with vecList := r.vecList.eraseP p } := by
  constructor
  · rw [map_fst_eraseP, h.entries]
  · exact fun e he => h.counts e (List.mem_of_mem_eraseP he)

/-- An entry that goes leaves its references with the module. -/
theorem surplus_eraseP {p : StructVector → Bool} {c : ℤ} (hc : entryOf p l = some (v, c))
    (r' : Registry) (hrefs : r'.moduleRefs = r.moduleRefs) (m : Module) :
    surplus (l.eraseP fun e => p e.1) r' m =
      surplus l r m + if v.vectorModule = m then c else 0 := by
  rw [surplus, surplus, total_eraseP hc, hrefs]
  dsimp only
  split <;> omega

end

/-- The ledger after boot. -/
theorem booted_recorded {s : State} (h : Booted s) :
    ∃ l, Recorded l s.registry ∧ (∀ e ∈ l, e.2 = 0) ∧ ∀ m, surplus l s.registry m = 0 := by
  obtain ⟨a₁, a₂, ps₁, ps₂, hshape⟩ := booted_shape h
  refine ⟨[(bootVector2 a₂, 0), (bootVector1 a₁, 0)], ?_, ?_, fun m => ?_⟩
  · rw [hshape.registry]
    refine ⟨rfl, ?_⟩
    intro e he
    simp only [List.mem_cons, List.not_mem_nil, or_false] at he
    rcases he with rfl | rfl <;> rfl
  · intro e he
    simp only [List.mem_cons, List.not_mem_nil, or_false] at he
    rcases he with rfl | rfl <;> rfl
  · rw [hshape.registry, surplus, total_cons, total_cons]
    simp [total]

end SyscallVector.Audit
