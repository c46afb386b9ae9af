import SyscallVector.Audit.Addresses

/-!
# Registering and unregistering

`unregister_syscall` acts on the first vector with an address, whatever else the list holds.
A vector that has just been registered is the first one, so unregistering it restores the
list, at once or after the one reference of a dynamic vector has been dropped. What it does not
restore is memory: a name that is longer than its array has been copied over what lies behind.
-/
namespace SyscallVector.Audit

set_option autoImplicit false

open Lib Model

/-- `v` is the first vector at an address; `as` stand before it and `bs` after it. -/
structure FirstAt (r : Registry) (a : Address) (as : List StructVector) (v : StructVector)
    (bs : List StructVector) : Prop where
  list : r.vecList = as ++ v :: bs
  before : ∀ w ∈ as, w.overriddenSyscallsAddress ≠ a
  address : v.overriddenSyscallsAddress = a

section
variable {r : Registry} {a va : Address} {as bs : List StructVector} {v : StructVector}

theorem addressIs_iff : addressIs a v = true ↔ v.overriddenSyscallsAddress = a := by
  rw [addressIs, beq_iff_eq, eq_comm]

theorem addressIs_eq_false_iff : addressIs a v = false ↔ v.overriddenSyscallsAddress ≠ a := by
  rw [← Bool.not_eq_true, addressIs_iff]

theorem FirstAt.lookup (h : FirstAt r a as v bs) : r.lookup (.address a) = some v := by
  have hbefore : as.find? (addressIs a) = none :=
    List.find?_eq_none.mpr fun w hw => by
      rw [Bool.not_eq_true, addressIs_eq_false_iff]
      exact h.before w hw
  change r.vecList.find? (addressIs a) = some v
  rw [h.list, List.find?_append, hbefore, Option.none_or]
  exact List.find?_cons_of_pos (addressIs_iff.mpr h.address)

theorem FirstAt.erase (h : FirstAt r a as v bs) :
    eraseAddress r a = { r with vecList := as ++ bs } := by
  have hbefore : ∀ w ∈ as, ¬addressIs a w = true := by
    intro w hw
    rw [Bool.not_eq_true, addressIs_eq_false_iff]
    exact h.before w hw
  rw [eraseAddress, h.list, List.eraseP_append_right _ hbefore,
    List.eraseP_cons_of_pos (addressIs_iff.mpr h.address)]

theorem exists_firstAt (h : r.lookup (.address a) = some v) : ∃ as bs, FirstAt r a as v bs := by
  obtain ⟨as, bs, hl, -, hbefore, hv⟩ := eraseP_split h
  exact ⟨as, bs, hl, fun w hw => addressIs_eq_false_iff.mp (hbefore w hw), addressIs_iff.mp hv⟩

/-! ## What unregistering does -/

/-- The three ways through `remove_vector_address`. -/
inductive Unregistered (r : Registry) (a : Address) : Registry × Int32 → Prop
  | absent : (∀ v ∈ r.vecList, v.overriddenSyscallsAddress ≠ a) → Unregistered r a (r, -EFAULT)
  | used {as bs : List StructVector} {v : StructVector} : FirstAt r a as v bs →
      0 < v.refcount → Unregistered r a (r, -2222)
  | removed {as bs : List StructVector} {v : StructVector} : FirstAt r a as v bs →
      v.refcount ≤ 0 → Unregistered r a ({ r with vecList := as ++ bs }, 0)

theorem unregister_outcome (r : Registry) (a : Address) :
    Unregistered r a (unregisterSyscall r a) := by
  cases hv : r.lookup (.address a) with
  | none =>
    rw [unregisterSyscall_absent hv]
    exact .absent fun v hmem haddress =>
      List.find?_eq_none.mp hv v hmem (addressIs_iff.mpr haddress)
  | some v =>
    obtain ⟨as, bs, hfirst⟩ := exists_firstAt hv
    by_cases hcount : 0 < v.refcount
    · rw [unregisterSyscall_used hv hcount]
      exact .used hfirst hcount
    · have hle := Int32.not_lt.mp hcount
      rw [unregisterSyscall_unused hv hle, hfirst.erase]
      exact .removed hfirst hle

theorem unregister_absent_iff (r : Registry) (a : Address) :
    (unregisterSyscall r a).2 = -EFAULT ↔
      ∀ v ∈ r.vecList, v.overriddenSyscallsAddress ≠ a := by
  constructor
  · have houtcome := unregister_outcome r a
    intro h
    generalize unregisterSyscall r a = result at houtcome h
    cases houtcome with
    | absent hnone => exact hnone
    | used => exact absurd h (by decide : (-2222 : Int32) ≠ -EFAULT)
    | removed => exact absurd h (by decide : (0 : Int32) ≠ -EFAULT)
  · intro h
    have hnone : r.lookup (.address a) = none :=
      List.find?_eq_none.mpr fun v hv hmatch => h v hv (addressIs_iff.mp hmatch)
    rw [unregisterSyscall_absent hnone]

theorem unregister_used_iff (r : Registry) (a : Address) :
    (unregisterSyscall r a).2 = -2222 ↔ ∃ as v bs, FirstAt r a as v bs ∧ 0 < v.refcount := by
  constructor
  · have houtcome := unregister_outcome r a
    intro h
    generalize unregisterSyscall r a = result at houtcome h
    cases houtcome with
    | absent => exact absurd h (by decide : (-EFAULT : Int32) ≠ -2222)
    | used hfirst hcount => exact ⟨_, _, _, hfirst, hcount⟩
    | removed => exact absurd h (by decide : (0 : Int32) ≠ -2222)
  · rintro ⟨as, v, bs, hfirst, hcount⟩
    rw [unregisterSyscall_used hfirst.lookup hcount]

theorem unregister_zero_iff (r : Registry) (a : Address) :
    (unregisterSyscall r a).2 = 0 ↔ ∃ as v bs, FirstAt r a as v bs ∧ v.refcount ≤ 0 := by
  constructor
  · have houtcome := unregister_outcome r a
    intro h
    generalize unregisterSyscall r a = result at houtcome h
    cases houtcome with
    | absent => exact absurd h (by decide : (-EFAULT : Int32) ≠ 0)
    | used => exact absurd h (by decide : (-2222 : Int32) ≠ 0)
    | removed hfirst hcount => exact ⟨_, _, _, hfirst, hcount⟩
  · rintro ⟨as, v, bs, hfirst, hcount⟩
    rw [unregisterSyscall_unused hfirst.lookup hcount]

/-- A call that does not return 0 has changed nothing. -/
theorem unregister_refused (h : (unregisterSyscall r a).2 ≠ 0) : (unregisterSyscall r a).1 = r := by
  have houtcome := unregister_outcome r a
  generalize unregisterSyscall r a = result at houtcome h
  cases houtcome with
  | absent | used => rfl
  | removed => exact absurd rfl h

/-! ## Registered vectors -/

theorem lookup_pushVector (r : Registry) (h : v.overriddenSyscallsAddress = a) :
    (pushVector r v).lookup (.address a) = some v :=
  List.find?_cons_of_pos (addressIs_iff.mpr h)

theorem eraseAddress_pushVector (r : Registry) (h : v.overriddenSyscallsAddress = a) :
    eraseAddress (pushVector r v) a = r := by
  rw [eraseAddress, pushVector, List.eraseP_cons_of_pos (addressIs_iff.mpr h)]

/-- A registration that returns 0 has put its vector in front. -/
theorem addVector_ok (h : (r.addVector va v).2 = 0) : (r.addVector va v).1 = pushVector r v := by
  by_cases hva : Good va
  · rw [addVector_good r hva]
  · obtain ⟨err, hneg, hbad⟩ := addVector_bad r hva v
    rw [hbad] at h
    rw [show err = 0 from h] at hneg
    exact absurd hneg (by decide)

/-- Dropping the reference to the vector in front. -/
theorem release_pushVector (r : Registry) (h : v.overriddenSyscallsAddress = a) :
    (reduceRefCountFromAddress (pushVector r v) a).1 =
      pushVector (r.modulePut v.vectorModule) (v.addRef (-1)) := by
  change (pushVector r v).adjust (.address a) (-1) = _
  have hfront : updateFirst (Key.address a).isMatch (StructVector.addRef (-1)) (v :: r.vecList) =
      v.addRef (-1) :: r.vecList := updateFirst_cons_pos (addressIs_iff.mpr h)
  rw [adjust_some (lookup_pushVector r h), pushVector, hfront]
  rfl

end

/-! ## The copy of the name -/

/-- Whatever lies around `va->vector_name`, the copy of a name changes the array only. -/
def CopiesInside (va : Address) (name : List UInt8) : Prop :=
  ∀ (m : Memory) (x : Address), maxVectorNameLen ≤ (x - (va + vectorNameOffset)).toNat →
    copyName m va name x = m x

theorem copiesInside_iff (va : Address) (name : List UInt8) :
    CopiesInside va name ↔ strlen name ≤ maxVectorNameLen := by
  have hlength : (name.take (strlen name)).length = strlen name := by rw [take_strlen, strlen]
  constructor
  · intro hinside
    by_contra hlong
    have hlt : maxVectorNameLen < (name.take (strlen name)).length :=
      hlength.symm ▸ Nat.lt_of_not_le hlong
    -- the first byte behind the array, in a memory of zeros
    have hoff : (va + vectorNameOffset + UInt64.ofNat maxVectorNameLen -
        (va + vectorNameOffset)).toNat = maxVectorNameLen :=
      Memory.toNat_add_ofNat_sub _ (by decide)
    have hkept := hinside (fun _ => 0) _ hoff.ge
    rw [copyName, Memory.write_inside (hoff.symm ▸ hlt)] at hkept
    have hmem : (0 : UInt8) ∈ name.take (strlen name) := hkept ▸ List.getElem_mem _
    rw [take_strlen] at hmem
    exact not_mem_cstr name hmem
  · intro hshort m x hx
    exact Memory.write_outside ((hlength.trans_le hshort).trans hx)

/-- The array of the entry holds what the copy leaves there after `kzalloc`. -/
theorem read_copyName (va : Address) (name : List UInt8) (a : Address) (refcount : Int32)
    (m : Module) (bitmap : UInt32) :
    (copyName (fun _ => 0) va name).read (va + vectorNameOffset) maxVectorNameLen =
      (newVector name a refcount m bitmap).vectorName.val := by
  refine List.ext_getElem ?_ fun i hi _ => ?_
  · rw [Memory.length_read, (newVector name a refcount m bitmap).vectorName.property]
  · have hsmall : i < 2 ^ 64 := by
      rw [Memory.length_read] at hi
      exact hi.trans (by decide)
    rw [Memory.getElem_read, copyName, Memory.write, Memory.toNat_add_ofNat_sub _ hsmall]
    exact (CharArray.getElem_copy _).symm

/-! ## Registering and unregistering -/

/-- `unregister_syscall` removes the first vector with the address if its count is not
positive, and otherwise changes nothing and tells why. It undoes a registration. A dynamic
registration, whose vector starts with one reference, can be undone after that reference is
dropped: the list is as before, and with the reference to the module that
`add_vector_from_bitmap` takes first, so are the module counts. Nor has either registration
changed memory around the name of its entry, where other entries may lie. -/
structure RegistrationUndone (r : Registry) (a va : Address) (name : List UInt8) (m : Module)
    (bitmap : UInt32) : Prop where
  removed_iff : (unregisterSyscall r a).2 = 0 ↔ ∃ as v bs, FirstAt r a as v bs ∧ v.refcount ≤ 0
  used_iff : (unregisterSyscall r a).2 = -2222 ↔ ∃ as v bs, FirstAt r a as v bs ∧ 0 < v.refcount
  absent_iff : (unregisterSyscall r a).2 = -EFAULT ↔
    ∀ v ∈ r.vecList, v.overriddenSyscallsAddress ≠ a
  removes : ∀ as v bs, FirstAt r a as v bs → v.refcount ≤ 0 →
    (unregisterSyscall r a).1 = { r with vecList := as ++ bs }
  refused : (unregisterSyscall r a).2 ≠ 0 → (unregisterSyscall r a).1 = r
  static : (registerSyscall r va name a m bitmap).2 = 0 →
    unregisterSyscall (registerSyscall r va name a m bitmap).1 a = (r, 0) ∧ CopiesInside va name
  dynamic : ∀ s t, registerDynamicSyscall r va name a m bitmap = (s, 0) →
    unregisterSyscall (reduceRefCountFromAddress s a).1 a = t →
    unregisterSyscall s a = (s, -2222) ∧ t.2 = 0 ∧ t.1.vecList = r.vecList ∧
      (∀ r₀, r = r₀.tryModuleGet m → t.1 = r₀) ∧ CopiesInside va name

section
variable {r : Registry} {a va : Address} {name : List UInt8} {m : Module} {bitmap : UInt32}

theorem register_undone (h : (registerSyscall r va name a m bitmap).2 = 0) :
    unregisterSyscall (registerSyscall r va name a m bitmap).1 a = (r, 0) := by
  have haddress : (newVector name a 0 m bitmap).overriddenSyscallsAddress = a := rfl
  have hpush : (registerSyscall r va name a m bitmap).1 =
      pushVector r (newVector name a 0 m bitmap) := addVector_ok h
  rw [hpush, unregisterSyscall_unused (lookup_pushVector r haddress) (Int32.le_refl 0),
    eraseAddress_pushVector r haddress]

/-- A dynamic registration stands as long as its reference, and then goes. -/
theorem registerDynamic_undone {s : Registry}
    (h : registerDynamicSyscall r va name a m bitmap = (s, 0)) :
    unregisterSyscall s a = (s, -2222) ∧
      unregisterSyscall (reduceRefCountFromAddress s a).1 a = (r.modulePut m, 0) := by
  have haddress : (newVector name a 1 m bitmap).overriddenSyscallsAddress = a := rfl
  have hpush : s = pushVector r (newVector name a 1 m bitmap) := by
    rw [← addVector_ok (congrArg Prod.snd h)]
    exact (congrArg Prod.fst h).symm
  have hdropped : ((newVector name a 1 m bitmap).addRef (-1)).overriddenSyscallsAddress = a := rfl
  constructor
  · rw [hpush]
    exact unregisterSyscall_used (lookup_pushVector r haddress) (by decide : (0 : Int32) < 1)
  · rw [hpush, release_pushVector r haddress,
      unregisterSyscall_unused (lookup_pushVector _ hdropped)
        (by decide : (1 : Int32) + Int32.ofInt (-1) ≤ 0),
      eraseAddress_pushVector _ hdropped]
    rfl

/-- Registration and unregistration are exact inverses if and only if no entry is allocated or
the name fits its array. -/
theorem registration_undone_iff (r : Registry) (a va : Address) (name : List UInt8) (m : Module)
    (bitmap : UInt32) :
    RegistrationUndone r a va name m bitmap ↔ (Good va → strlen name ≤ maxVectorNameLen) := by
  constructor
  · intro h hva
    have hok : (registerSyscall r va name a m bitmap).2 = 0 :=
      congrArg Prod.snd (addVector_good r hva _)
    exact (copiesInside_iff va name).mp (h.static hok).2
  · intro hfits
    have hinside (v : StructVector) (hok : (r.addVector va v).2 = 0) : CopiesInside va name := by
      refine (copiesInside_iff va name).mpr (hfits ?_)
      by_contra hva
      obtain ⟨err, hneg, hbad⟩ := addVector_bad r hva v
      rw [hbad] at hok
      rw [show err = 0 from hok] at hneg
      exact absurd hneg (by decide)
    refine ⟨unregister_zero_iff r a, unregister_used_iff r a, unregister_absent_iff r a, ?_,
      unregister_refused, fun hok => ⟨register_undone hok, hinside _ hok⟩, ?_⟩
    · intro as v bs hfirst hcount
      rw [unregisterSyscall_unused hfirst.lookup hcount, hfirst.erase]
    · rintro s t hok rfl
      obtain ⟨hused, hlast⟩ := registerDynamic_undone hok
      rw [hlast]
      refine ⟨hused, rfl, rfl, ?_, hinside _ (congrArg Prod.snd hok)⟩
      rintro r₀ rfl
      exact tryModuleGet_modulePut r₀ m

end

/-- A list with one vector, at the address 4096. -/
def oneVector : Registry := ⟨[newVector vector1Name 4096 0 .vector1 vector1Bitmap], fun _ => 0⟩

/-- A second vector at the same address comes and goes, and so does a dynamic one. -/
theorem registration_undone_repeated :
    unregisterSyscall (registerSyscall oneVector 8192 vector2Name 4096 .vector2 968).1 4096 =
        (oneVector, 0) ∧
      (unregisterSyscall (registerDynamicSyscall oneVector 8192 vector2Name 4096
          .dynamicVector 968).1 4096).2 = -2222 ∧
      (unregisterSyscall (reduceRefCountFromAddress (registerDynamicSyscall oneVector 8192
          vector2Name 4096 .dynamicVector 968).1 4096).1 4096).1.vecList = oneVector.vecList := by
  have hundone (m : Module) : RegistrationUndone oneVector 4096 8192 vector2Name m 968 :=
    (registration_undone_iff ..).mpr fun _ => by decide
  obtain ⟨hused, -, hlist, -⟩ := (hundone .dynamicVector).dynamic _ _ rfl rfl
  exact ⟨((hundone .vector2).static rfl).1, congrArg Prod.snd hused, hlist⟩

/-- A name of 520 bytes. -/
def longName : List UInt8 := List.replicate 520 65

theorem take_strlen_longName : longName.take (strlen longName) = longName := by
  rw [take_strlen, cstr_eq_self]
  exact fun hmem => absurd (List.eq_of_mem_replicate hmem) (by decide)

/-- The copy of it goes over the next object, which lies 512 bytes behind the entry. -/
theorem copyName_longName (m : Memory) :
    (copyName m 8192 longName).read (8192 + 512) 8 = List.replicate 8 65 := by
  refine List.ext_getElem (Memory.length_read ..) fun i hi _ => ?_
  rw [Memory.length_read] at hi
  have hplace : (8192 + 512 + UInt64.ofNat i : Address) =
      8192 + vectorNameOffset + UInt64.ofNat (504 + i) := by
    rw [UInt64.ofNat_add, ← UInt64.add_assoc]
    rfl
  have hoff : (8192 + 512 + UInt64.ofNat i - (8192 + vectorNameOffset) : Address).toNat =
      504 + i := by
    rw [hplace]
    exact Memory.toNat_add_ofNat_sub _ (by omega)
  have hin : (8192 + 512 + UInt64.ofNat i - (8192 + vectorNameOffset) : Address).toNat <
      longName.length := by
    rw [hoff, longName, List.length_replicate]
    omega
  rw [Memory.getElem_read, copyName, take_strlen_longName, Memory.write_inside hin,
    List.getElem_replicate]
  exact List.getElem_replicate ..

/-- Whatever the `vector_id` of a vector in the next object was, it is overwritten when a long
name is registered, and unregistering does not bring it back. -/
theorem registration_not_undone :
    (registerSyscall oneVector 8192 longName 4096 .vector2 968).2 = 0 ∧
      (∀ m : Memory, (copyName m 8192 longName).read (8192 + 512) 8 = List.replicate 8 65) ∧
      ¬RegistrationUndone oneVector 4096 8192 longName .vector2 968 := by
  refine ⟨rfl, copyName_longName, fun h => ?_⟩
  have hfits : strlen longName ≤ maxVectorNameLen :=
    (copiesInside_iff 8192 longName).mp (h.static rfl).2
  have hlength : strlen longName = 520 := by
    rw [strlen, ← take_strlen, take_strlen_longName, longName, List.length_replicate]
  rw [hlength] at hfits
  exact absurd hfits (by decide)

end SyscallVector.Audit
