import SyscallVector.Audit.Building

/-!
# Chain addresses in the registry

Tasks know a vector by the address of its chain. A NULL chain may belong to several
vectors; as long as no other address does, a search for an address, a change of one
count and `remove_vector_address` leave the entries of all other addresses alone.
-/
namespace SyscallVector.Audit

set_option autoImplicit false

open Lib Model

/-- The chain addresses of the registered vectors. -/
def addresses (r : Registry) : List Address :=
  r.vecList.map StructVector.overriddenSyscallsAddress

/-- No two registered vectors have the same chain, unless it is NULL. -/
def DistinctAddresses (r : Registry) : Prop := (addresses r).Pairwise fun a b => a ≠ 0 → a ≠ b

/-- Move the count of an entry if its chain is the one at `a`. -/
def moveAt (a : Address) (d : Int) (v : StructVector) : StructVector :=
  if v.overriddenSyscallsAddress = a then v.addRef d else v

section
variable {r : Registry} {k : Key} {d : Int} {v w : StructVector} {as bs : List StructVector}
  {a b : Address}

theorem addresses_adjust (r : Registry) (k : Key) (d : Int) :
    addresses (r.adjust k d) = addresses r :=
  adjust_map r k d StructVector.overriddenSyscallsAddress fun _ => rfl

theorem mem_addresses (h : v ∈ r.vecList) : v.overriddenSyscallsAddress ∈ addresses r :=
  List.mem_map_of_mem h

theorem lookup_address (h : r.lookup (.address a) = some v) : v.overriddenSyscallsAddress = a := by
  have hmatch : (a == v.overriddenSyscallsAddress) = true := lookup_isMatch h
  exact (beq_iff_eq.mp hmatch).symm

/-- The search for an address fails only if no vector has it. -/
theorem not_mem_addresses (h : r.lookup (.address a) = none) : a ∉ addresses r := by
  intro hmem
  obtain ⟨v, hv, rfl⟩ := List.mem_map.mp hmem
  exact List.find?_eq_none.mp h v hv (beq_self_eq_true _)

/-- The entries around one with a chain have other chains. -/
theorem DistinctAddresses.apart (h : DistinctAddresses r) (hl : r.vecList = as ++ v :: bs) :
    ∀ w ∈ as ++ bs, w.overriddenSyscallsAddress ≠ 0 →
      w.overriddenSyscallsAddress ≠ v.overriddenSyscallsAddress := by
  rw [DistinctAddresses, addresses, hl, List.map_append, List.map_cons, List.pairwise_append,
    List.pairwise_cons] at h
  obtain ⟨-, ⟨hafter, -⟩, hbefore⟩ := h
  intro w hw h0
  rcases List.mem_append.mp hw with hw | hw
  · exact hbefore _ (List.mem_map_of_mem hw) _ List.mem_cons_self h0
  · intro heq
    exact hafter _ (List.mem_map_of_mem hw) (fun hz => h0 (heq.trans hz)) heq.symm

/-- A chain that is not NULL has one entry. -/
theorem DistinctAddresses.eq_of_address (h : DistinctAddresses r) (hv : v ∈ r.vecList)
    (hw : w ∈ r.vecList) (h0 : v.overriddenSyscallsAddress ≠ 0)
    (he : w.overriddenSyscallsAddress = v.overriddenSyscallsAddress) : w = v := by
  obtain ⟨as, bs, hl⟩ := List.append_of_mem hv
  by_contra hne
  rw [hl] at hw
  have hmem : w ∈ as ++ bs := by simpa [hne] using hw
  exact h.apart hl w hmem (he ▸ h0) he

theorem DistinctAddresses.adjust (h : DistinctAddresses r) (k : Key) (d : Int) :
    DistinctAddresses (r.adjust k d) := by
  rw [DistinctAddresses, addresses_adjust]
  exact h

/-- An entry after a change of counts is the one changed or has another chain. -/
theorem DistinctAddresses.mem_adjust (h : DistinctAddresses r) (hv : r.lookup k = some v)
    (hw : w ∈ (r.adjust k d).vecList) :
    w = v.addRef d ∨ w ∈ r.vecList ∧ (w.overriddenSyscallsAddress ≠ 0 →
      w.overriddenSyscallsAddress ≠ v.overriddenSyscallsAddress) := by
  obtain ⟨as, bs, hl, hu, -, -⟩ := updateFirst_split (f := StructVector.addRef d) hv
  rw [adjust_vecList, hu] at hw
  have hrest (hw : w ∈ as ++ bs) : w ∈ r.vecList ∧ (w.overriddenSyscallsAddress ≠ 0 →
      w.overriddenSyscallsAddress ≠ v.overriddenSyscallsAddress) := by
    refine ⟨?_, h.apart hl w hw⟩
    rw [hl]
    exact ((List.sublist_cons_self v bs).append_left as).mem hw
  rcases List.mem_append.mp hw with hw | hw
  · exact .inr (hrest (List.mem_append_left _ hw))
  · rcases List.mem_cons.mp hw with rfl | hw
    · exact .inl rfl
    · exact .inr (hrest (List.mem_append_right _ hw))

theorem moveAt_self (d : Int) (h : v.overriddenSyscallsAddress = a) : moveAt a d v = v.addRef d :=
  if_pos h

theorem moveAt_of_ne (d : Int) (h : v.overriddenSyscallsAddress ≠ a) : moveAt a d v = v :=
  if_neg h

/-- Moving a count does not move the entry. -/
theorem moveAt_addRef (a : Address) (d e : Int) (v : StructVector) :
    moveAt a d (v.addRef e) = if v.overriddenSyscallsAddress = a then v.addRef (e + d)
      else v.addRef e := by
  rw [moveAt, StructVector.addRef_address, StructVector.addRef_addRef]

/-- A change of counts at a chain changes the one entry with that chain. -/
theorem DistinctAddresses.adjust_eq_map (h : DistinctAddresses r) (hv : r.lookup k = some v)
    (h0 : v.overriddenSyscallsAddress ≠ 0) (d : Int) :
    (r.adjust k d).vecList = r.vecList.map (moveAt v.overriddenSyscallsAddress d) := by
  rw [adjust_vecList]
  refine updateFirst_eq_map StructVector.overriddenSyscallsAddress hv fun as bs hl w hw he => ?_
  exact h.apart hl w hw (he ▸ h0) he

theorem DistinctAddresses.push (h : DistinctAddresses r)
    (hv : v.overriddenSyscallsAddress ≠ 0 → v.overriddenSyscallsAddress ∉ addresses r) :
    DistinctAddresses (pushVector r v) :=
  List.pairwise_cons.mpr ⟨fun _ hb h0 he => hv h0 (he ▸ hb), h⟩

/-! ## Removal -/

/-- The registry without the first vector at an address. -/
def eraseAddress (r : Registry) (a : Address) : Registry :=
  { r with vecList := r.vecList.eraseP (addressIs a) }

theorem DistinctAddresses.erase (h : DistinctAddresses r) (a : Address) :
    DistinctAddresses (eraseAddress r a) := h.sublist (List.eraseP_sublist.map _)

/-- Only the address removed can disappear. -/
theorem mem_addresses_erase (hv : r.lookup (.address a) = some v) (hb : b ∈ addresses r)
    (hne : b ≠ a) : b ∈ addresses (eraseAddress r a) := by
  obtain ⟨as, bs, hl, herased, -, -⟩ := eraseP_split hv
  have haddress := lookup_address hv
  change b ∈ (r.vecList.eraseP (addressIs a)).map StructVector.overriddenSyscallsAddress
  have hlist : r.vecList.eraseP (addressIs a) = as ++ bs := herased
  rw [addresses, hl, List.map_append, List.map_cons, List.mem_append, List.mem_cons,
    haddress] at hb
  rw [hlist, List.map_append, List.mem_append]
  exact hb.imp_right fun hb => hb.resolve_left hne

theorem DistinctAddresses.not_mem_erase (h : DistinctAddresses r)
    (hv : r.lookup (.address a) = some v) (h0 : a ≠ 0) : a ∉ addresses (eraseAddress r a) := by
  obtain ⟨as, bs, hl, herased, -, -⟩ := eraseP_split hv
  have hlist : r.vecList.eraseP (addressIs a) = as ++ bs := herased
  intro hmem
  obtain ⟨w, hw, rfl⟩ := List.mem_map.mp hmem
  exact h.apart hl w (hlist ▸ hw) h0 (lookup_address hv).symm

theorem unregisterSyscall_absent (h : r.lookup (.address a) = none) :
    unregisterSyscall r a = (r, -EFAULT) := by
  have hsearch : r.vecList.find? (addressIs a) = none := h
  rw [unregisterSyscall, removeVectorAddress, hsearch]

theorem unregisterSyscall_used (h : r.lookup (.address a) = some v) (hcount : 0 < v.refcount) :
    unregisterSyscall r a = (r, -2222) := by
  have hsearch : r.vecList.find? (addressIs a) = some v := h
  rw [unregisterSyscall, removeVectorAddress, hsearch]
  exact if_pos hcount

theorem unregisterSyscall_unused (h : r.lookup (.address a) = some v) (hcount : v.refcount ≤ 0) :
    unregisterSyscall r a = (eraseAddress r a, 0) := by
  have hsearch : r.vecList.find? (addressIs a) = some v := h
  rw [unregisterSyscall, removeVectorAddress, hsearch]
  exact if_neg (Int32.not_lt.mpr hcount)

/-- What `remove_vector_address` finds decides what it does. -/
theorem unregisterSyscall_cases (r : Registry) (a : Address) :
    r.lookup (.address a) = none ∧ (unregisterSyscall r a).1 = r ∨
      ∃ v, r.lookup (.address a) = some v ∧
        (0 < v.refcount ∧ (unregisterSyscall r a).1 = r ∨
          v.refcount ≤ 0 ∧ (unregisterSyscall r a).1 = eraseAddress r a) := by
  cases hv : r.lookup (.address a) with
  | none => exact .inl ⟨rfl, congrArg Prod.fst (unregisterSyscall_absent hv)⟩
  | some v =>
    refine .inr ⟨v, rfl, ?_⟩
    by_cases hcount : 0 < v.refcount
    · exact .inl ⟨hcount, congrArg Prod.fst (unregisterSyscall_used hv hcount)⟩
    · have hle := Int32.not_lt.mp hcount
      exact .inr ⟨hle, congrArg Prod.fst (unregisterSyscall_unused hv hle)⟩

theorem unregisterSyscall_moduleRefs (r : Registry) (a : Address) :
    (unregisterSyscall r a).1.moduleRefs = r.moduleRefs := by
  rcases unregisterSyscall_cases r a with ⟨-, h⟩ | ⟨v, -, ⟨-, h⟩ | ⟨-, h⟩⟩ <;> rw [h]
  rfl

end

end SyscallVector.Audit
