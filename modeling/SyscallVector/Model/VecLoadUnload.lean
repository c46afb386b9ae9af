import SyscallVector.Lib.FirstMatch
import SyscallVector.Lib.Decimal
import SyscallVector.Lib.Memory
import SyscallVector.Model.VectorStruct

/-!
# The vector registry

The functions of vec_load_unload.c. Six of them search the list for a name, a
bitmap or a chain address and move the reference count of the first match
together with the count of its module; they share `Registry.adjust`. Every
function holds `list_lock` for its whole body, so each is one step.
-/
namespace SyscallVector.Model

set_option autoImplicit false

open Lib

/-! ## Listing -/

/-- `"%d"` applied to an `unsigned int`. -/
def sprintfD (x : UInt32) : List UInt8 := decimalInt x.toInt32.toInt

/-- `"%lu"` applied to an `unsigned long`. -/
def sprintfLu (x : UInt64) : List UInt8 := decimal x.toNat

/-- A buffer being filled: `current_ptr` as an offset, and `ret`. -/
structure Cursor where
  buffer : List UInt8
  currentPtr : Nat
  ret : Nat
  deriving DecidableEq, Repr

/-- Copy a string to `current_ptr`, put a newline behind it and move on. -/
def Cursor.field (c : Cursor) (text : List UInt8) : Cursor :=
  let elementLen := strlen text
  let copied := memcpyAt c.buffer c.currentPtr (text.take elementLen)
  { buffer := memcpyAt copied (c.currentPtr + elementLen) [10]
    currentPtr := c.currentPtr + elementLen + 1
    ret := c.ret + elementLen + 1 }

def Cursor.entry (c : Cursor) (v : StructVector) : Cursor :=
  ((c.field v.vectorName).field (sprintfLu v.vectorId)).field (sprintfD v.overfuncsBitmap)

/-- The loop of `show_all_vectors`, which looks at `ret` before each entry only. -/
def showEntries : List StructVector → Cursor → Cursor
  | [], c => c
  | v :: vs, c => if c.ret > maxBufferSize then c else showEntries vs (c.entry v)

/-- `show_all_vectors`: the caller's buffer afterwards and the result. -/
def showAllVectors (r : Registry) (userBuffer : List UInt8) : List UInt8 × Nat :=
  let c := showEntries r.vecList ⟨zeroed maxBufferSize, 0, 0⟩
  (memcpyAt userBuffer 0 (c.buffer.take c.ret), c.ret)

def addressIs (a : Address) (v : StructVector) : Bool := a == v.overriddenSyscallsAddress

def vectorNotAssigned : List UInt8 :=
  ascii ['v', 'e', 'c', 't', 'o', 'r', ' ', 'n', 'o', 't', ' ', 'a', 's', 's', 'i', 'g', 'n', 'e',
    'd']

/-- `show_my_vector` on a buffer that is not NULL. -/
def showMyVector (r : Registry) (userBuffer : List UInt8) (vectorAddr : Address) :
    List UInt8 × Nat :=
  if vectorAddr = 0 then (memcpyAt userBuffer 0 vectorNotAssigned, 0)
  else
    match r.vecList.find? (addressIs vectorAddr) with
    | none => (userBuffer, 0)
    | some v =>
      let c := (Cursor.mk userBuffer 0 0).entry v
      (c.buffer, c.ret)

/-! ## Registration -/

/-- The offset of `vector_name` in its structure. -/
def vectorNameOffset : Address := 8

/-- `memcpy(va->vector_name, vector_name, strlen(vector_name))`. Nothing keeps it inside the
array. -/
def copyName (m : Memory) (va : Address) (vectorName : List UInt8) : Memory :=
  m.write (va + vectorNameOffset) (vectorName.take (strlen vectorName))

/-- The entry that `add_vector_address` and `add_dynamic_vector_address` link in:
`kzalloc` zeroes it and `memcpy` copies the name without its NUL. The fields behind the name are
assigned after the copy. -/
def newVector (vectorName : List UInt8) (vectorAddress : Address) (refcount : Int32)
    (vectorModule : Module) (vecBitmap : UInt32) : StructVector where
  vectorId := vecBitmap.toUInt64
  vectorName := .copy maxVectorNameLen (vectorName.take (strlen vectorName))
  overriddenSyscallsAddress := vectorAddress
  refcount := refcount
  overfuncsBitmap := vecBitmap
  vectorModule := vectorModule

/-- Allocate an entry and link it in at the head of the list; `va` is what
`kzalloc` returns. -/
def Registry.addVector (r : Registry) (va : Address) (v : StructVector) : Registry × Int32 :=
  if va = 0 then (r, -ENOMEM)
  else if isErr va then (r, ptrErr va)
  else ({ r with vecList := v :: r.vecList }, 0)

def addVectorAddress (r : Registry) (va : Address) (vectorName : List UInt8)
    (vectorAddress : Address) (vectorModule : Module) (vecBitmap : UInt32) : Registry × Int32 :=
  r.addVector va (newVector vectorName vectorAddress 0 vectorModule vecBitmap)

def addDynamicVectorAddress (r : Registry) (va : Address) (vectorName : List UInt8)
    (vectorAddress : Address) (vectorModule : Module) (vecBitmap : UInt32) : Registry × Int32 :=
  r.addVector va (newVector vectorName vectorAddress 1 vectorModule vecBitmap)

def registerSyscall := addVectorAddress

def registerDynamicSyscall := addDynamicVectorAddress

/-- `remove_vector_address`: the first vector at the address goes, unless it is in use. -/
def removeVectorAddress (r : Registry) (vectorAddress : Address) : Registry × Int32 :=
  match r.vecList.find? (addressIs vectorAddress) with
  | none => (r, -EFAULT)
  | some tmp =>
    if tmp.refcount > 0 then (r, -2222)
    else ({ r with vecList := r.vecList.eraseP (addressIs vectorAddress) }, 0)

def unregisterSyscall := removeVectorAddress

/-! ## Reference counts -/

def Registry.tryModuleGet (r : Registry) (m : Module) : Registry :=
  { r with moduleRefs := Function.update r.moduleRefs m (r.moduleRefs m + 1) }

def Registry.modulePut (r : Registry) (m : Module) : Registry :=
  { r with moduleRefs := Function.update r.moduleRefs m (r.moduleRefs m - 1) }

/-- What the searching loops compare an entry with. -/
inductive Key where
  | name (vectorName : List UInt8)
  | bitmap (vecBitmap : UInt32)
  | address (vectorAddress : Address)
  deriving DecidableEq, Repr

def Key.isMatch : Key → StructVector → Bool
  | .name n, v => strcmp n v.vectorName == 0
  | .bitmap b, v => v.overfuncsBitmap == b
  | .address a, v => addressIs a v

/-- The entry at which a loop over the list breaks. -/
def Registry.lookup (r : Registry) (k : Key) : Option StructVector := r.vecList.find? k.isMatch

/-- Add to the reference count of an entry; the sum is an `int`. -/
def StructVector.addRef (d : Int) (v : StructVector) : StructVector :=
  { v with refcount := v.refcount + Int32.ofInt d }

/-- Move the count of the first match and the count of its module by `d`. -/
def Registry.adjust (r : Registry) (k : Key) (d : Int) : Registry :=
  match r.lookup k with
  | none => r
  | some v =>
    { vecList := updateFirst k.isMatch (StructVector.addRef d) r.vecList
      moduleRefs := Function.update r.moduleRefs v.vectorModule (r.moduleRefs v.vectorModule + d) }

/-- Take a reference to the first match and return its chain address, 0 if there is none. -/
def Registry.acquire (r : Registry) (k : Key) : Registry × Address :=
  (r.adjust k 1, (r.lookup k).elim 0 StructVector.overriddenSyscallsAddress)

/-- Drop a reference to the first match and return the count left, -1 if there is none. -/
def Registry.release (r : Registry) (k : Key) : Registry × Int32 :=
  (r.adjust k (-1), (r.lookup k).elim (-1) fun v => (v.addRef (-1)).refcount)

def checkAnyCurrentVector (r : Registry) (vecBitmap : UInt32) : Registry × Address :=
  r.acquire (.bitmap vecBitmap)

def getVectorAddress (r : Registry) (vectorName : List UInt8) : Registry × Address :=
  r.acquire (.name vectorName)

def getVectorAddressFromId (r : Registry) (bitmap : UInt32) : Registry × Address :=
  r.acquire (.bitmap bitmap)

def reduceRefCount (r : Registry) (vectorName : List UInt8) : Registry × Int32 :=
  r.release (.name vectorName)

def incrementRefCountFromAddress (r : Registry) (vectorAddress : Address) : Registry × Int32 :=
  (r.adjust (.address vectorAddress) 1,
    (r.lookup (.address vectorAddress)).elim (-1) fun _ => 0)

def reduceRefCountFromAddress (r : Registry) (vectorAddress : Address) : Registry × Int32 :=
  r.release (.address vectorAddress)

/-! ## What a change of counts keeps -/

namespace StructVector
variable (d e : Int) (v : StructVector)

@[simp] theorem addRef_vectorId : (v.addRef d).vectorId = v.vectorId := rfl
@[simp] theorem addRef_vectorName : (v.addRef d).vectorName = v.vectorName := rfl
@[simp] theorem addRef_address :
    (v.addRef d).overriddenSyscallsAddress = v.overriddenSyscallsAddress := rfl
@[simp] theorem addRef_overfuncsBitmap :
    (v.addRef d).overfuncsBitmap = v.overfuncsBitmap := rfl
@[simp] theorem addRef_vectorModule : (v.addRef d).vectorModule = v.vectorModule := rfl
@[simp] theorem addRef_refcount : (v.addRef d).refcount = v.refcount + Int32.ofInt d := rfl

theorem addRef_addRef : (v.addRef d).addRef e = v.addRef (d + e) := by
  simp only [addRef, Int32.ofInt_add, Int32.add_assoc]

theorem addRef_comm : (v.addRef d).addRef e = (v.addRef e).addRef d := by
  rw [addRef_addRef, addRef_addRef, Int.add_comm]

end StructVector

/-- No key looks at the reference count. -/
@[simp] theorem Key.isMatch_addRef (k : Key) (d : Int) (v : StructVector) :
    k.isMatch (v.addRef d) = k.isMatch v := by cases k <;> rfl

theorem tryModuleGet_moduleRefs (r : Registry) (m m' : Module) :
    (r.tryModuleGet m).moduleRefs m' = r.moduleRefs m' + if m = m' then 1 else 0 := by
  by_cases h : m = m'
  · rw [if_pos h, ← h]
    exact Function.update_self ..
  · rw [if_neg h, Int.add_zero]
    exact Function.update_of_ne (Ne.symm h) ..

theorem tryModuleGet_modulePut (r : Registry) (m : Module) :
    (r.tryModuleGet m).modulePut m = r := by
  have h : Function.update (r.tryModuleGet m).moduleRefs m
      ((r.tryModuleGet m).moduleRefs m - 1) = r.moduleRefs := by
    simp [Registry.tryModuleGet]
  rw [Registry.modulePut, h]
  rfl

section
variable {r : Registry} {k : Key} {d : Int} {v : StructVector}

theorem lookup_isMatch (h : r.lookup k = some v) : k.isMatch v = true := List.find?_some h

theorem lookup_mem (h : r.lookup k = some v) : v ∈ r.vecList := List.mem_of_find?_eq_some h

theorem lookup_ne_none {w : StructVector} (hw : w ∈ r.vecList) (hk : k.isMatch w = true) :
    ∃ v, r.lookup k = some v := by
  cases h : r.lookup k with
  | none => exact absurd hk (List.find?_eq_none.mp h w hw)
  | some v => exact ⟨v, rfl⟩

theorem adjust_none (h : r.lookup k = none) : r.adjust k d = r := by
  rw [Registry.adjust, h]

theorem adjust_some (h : r.lookup k = some v) :
    r.adjust k d =
      { vecList := updateFirst k.isMatch (StructVector.addRef d) r.vecList
        moduleRefs := Function.update r.moduleRefs v.vectorModule
          (r.moduleRefs v.vectorModule + d) } := by
  rw [Registry.adjust, h]

theorem adjust_vecList (r : Registry) (k : Key) (d : Int) :
    (r.adjust k d).vecList = updateFirst k.isMatch (StructVector.addRef d) r.vecList := by
  cases h : r.lookup k with
  | none => rw [adjust_none h, updateFirst_of_find?_none h]
  | some v => rw [adjust_some h]

/-- The fields of the entries other than the count survive, in list order. -/
theorem adjust_map {β : Type} (r : Registry) (k : Key) (d : Int) (f : StructVector → β)
    (hf : ∀ v, f (v.addRef d) = f v) :
    (r.adjust k d).vecList.map f = r.vecList.map f := by
  rw [adjust_vecList, map_updateFirst f hf]

theorem mem_adjust {w : StructVector} (h : w ∈ (r.adjust k d).vecList) :
    w ∈ r.vecList ∨ ∃ v, r.lookup k = some v ∧ w = v.addRef d := by
  rw [adjust_vecList] at h
  exact mem_updateFirst h

/-- What holds of every entry and does not mention the counts survives a change of counts. -/
theorem forall_mem_adjust {P : StructVector → Prop} (hP : ∀ v, P v → P (v.addRef d))
    (h : ∀ v ∈ r.vecList, P v) (k : Key) : ∀ v ∈ (r.adjust k d).vecList, P v := by
  intro v hv
  rcases mem_adjust hv with hv | ⟨w, hw, rfl⟩
  · exact h v hv
  · exact hP w (h w (lookup_mem hw))

/-- A change of counts does not change what another search reads off its match. -/
theorem lookup_adjust_map {β : Type} (r : Registry) (k k' : Key) (d : Int)
    (f : StructVector → β) (hf : ∀ v, f (v.addRef d) = f v) :
    ((r.adjust k d).lookup k').map f = (r.lookup k').map f := by
  rw [Registry.lookup, adjust_vecList]
  exact find?_updateFirst_map f hf (fun v => Key.isMatch_addRef k' d v) r.vecList

/-- The count of a module moves when the search resolves to one of its entries. -/
theorem adjust_moduleRefs (r : Registry) (k : Key) (d : Int) (m : Module) :
    (r.adjust k d).moduleRefs m =
      r.moduleRefs m + if (r.lookup k).map StructVector.vectorModule = some m then d else 0 := by
  cases h : r.lookup k with
  | none =>
    rw [adjust_none h]
    simp
  | some v =>
    rw [adjust_some h]
    by_cases hm : v.vectorModule = m
    · rw [← hm]
      simp
    · have hne : m ≠ v.vectorModule := fun he => hm he.symm
      simp [Function.update_of_ne hne, hm]

end

end SyscallVector.Model
