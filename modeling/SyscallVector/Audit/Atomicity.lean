import SyscallVector.Audit.OrderIndependence
import SyscallVector.Audit.Sessions
import SyscallVector.Model.Sections

/-!
# Ioctl calls are atomic

Forks, exits, clones and the exported functions that take or drop a reference run between the
sections of an ioctl call. All that they do is to move counts and to write the pointers of other
tasks, and what they read the call does not write. So every section but one moves, and the call
has the effect of `customIoctl` at one moment.
-/
namespace SyscallVector.Audit

set_option autoImplicit false

open Lib Model

/-! ## What the others do -/

/-- A count that moves, or the pointer of a task that is written. -/
inductive Change where
  | count (k : Key) (d : Int)
  | retask (task : Pid) (info : Option Address)

def Change.apply (s : State) : Change → State
  | .count k d => { s with registry := s.registry.adjust k d }
  | .retask task info => { s with tasks := Function.update s.tasks task info }

def applyAll (s : State) (cs : List Change) : State := cs.foldl Change.apply s

/-- Every change is to a task other than this one. -/
def Change.Spares (current : Pid) : Change → Prop
  | .count _ _ => True
  | .retask task _ => task ≠ current

/-- The chain that a key finds. -/
def chainOf (s : State) (k : Key) : Option Address :=
  (s.registry.lookup k).map StructVector.overriddenSyscallsAddress

/-- What a clone changes once it has found its chain. -/
def cloneChanges (s : State) (current : Pid) (flags id : UInt64) : ForkResult → List Change
  | .failed _ => [.count (cloneKey s current flags id) 1]
  | .child pid =>
    if flags &&& CLONE_SYSCALLS ≠ 0 then
      [.count (infoKey s current) 1, .count (infoKey s current) 1,
        .retask pid (some (s.vectorInfo current))]
    else [.count (.bitmap id.toUInt32) 1, .retask pid (some (vectorById s id))]

/-- The changes that an event of another task makes, if it can happen. -/
def changes (s : State) : SessionOp → Option (List Change)
  | .system (.copyProcess parent child flags) =>
    if (s.tasks parent).isSome ∧ (s.tasks child).isNone then
      if flags &&& CLONE_SYSCALLS ≠ 0 then
        some [.count (infoKey s parent) 1, .retask child (some (s.vectorInfo parent))]
      else some [.retask child (some 0)]
    else none
  | .system (.exit task) =>
    if (s.tasks task).isNone then none
    else if s.vectorInfo task = 0 then some [.retask task none]
    else some [.count (infoKey s task) (-1), .retask task none]
  | .system (.call c) => some [.count (callKey c) (callDelta c)]
  | .clone parent flags id fork =>
    if (s.tasks parent).isSome ∧ fork.Free s then
      if flags &&& CLONE_SYSCALLS ≠ 0 ∧ chainOf s (infoKey s parent) = none then some []
      else some (cloneChanges s parent flags id fork)
    else none
  | .forkFails parent flags _ _ _ _ =>
    if (s.tasks parent).isSome then
      if flags &&& CLONE_SYSCALLS ≠ 0 then some [.count (infoKey s parent) 1] else some []
    else none
  | _ => none

section
variable {s t : State} {current : Pid} {op : SessionOp} {cs : List Change}

theorem sysClone2_changes (s : State) (current : Pid) (flags id : UInt64) (fork : ForkResult) :
    (sysClone2 s current flags id fork).1 =
      if flags &&& CLONE_SYSCALLS ≠ 0 ∧ chainOf s (infoKey s current) = none then s
      else applyAll s (cloneChanges s current flags id fork) := by
  by_cases hflags : flags &&& CLONE_SYSCALLS ≠ 0
  · have hkey : cloneKey s current flags id = infoKey s current := if_pos hflags
    cases hv : s.registry.lookup (infoKey s current) with
    | none =>
      rw [sysClone2_unregistered hflags hv, if_pos ⟨hflags, by rw [chainOf, hv, Option.map_none]⟩]
    | some v =>
      have hfound : chainOf s (infoKey s current) ≠ none := by simp [chainOf, hv]
      rw [if_neg fun h => hfound h.2]
      cases fork with
      | failed err =>
        rw [sysClone2_inherit hflags hv, cloneChanges, hkey]
        rfl
      | child pid =>
        rw [sysClone2_inherit_child hflags hv, cloneChanges, if_pos hflags]
        rfl
  · have hkey : cloneKey s current flags id = .bitmap id.toUInt32 := if_neg hflags
    rw [if_neg fun h => hflags h.1]
    cases fork with
    | failed err =>
      rw [sysClone2_byId hflags, cloneChanges, hkey]
      rfl
    | child pid =>
      rw [sysClone2_byId_child hflags, cloneChanges, if_neg hflags]
      rfl

/-- The events of others are lists of changes. -/
theorem othersStep_changes (s : State) (h : op.byOthers current = true) :
    othersStep current s op = (changes s op).map (applyAll s) := by
  rw [othersStep, if_pos h]
  cases op with
  | system op =>
    cases op with
    | copyProcess parent child flags =>
      simp only [sessionStep, step, changes, copyProcess]
      split
      · split <;> rfl
      · rfl
    | exit task =>
      simp only [sessionStep, step, changes, exitTask]
      split
      · rfl
      · split <;> rfl
    | call c =>
      simp only [sessionStep, step, changes, exec_fst]
      rfl
    | ioctl | unregister | rmmod => cases h
  | insmod => cases h
  | clone parent flags id fork =>
    simp only [sessionStep, changes]
    split
    · rw [sysClone2_changes]
      split <;> rfl
    · rfl
  | forkFails parent flags =>
    simp only [sessionStep, changes, copyProcessFails_state, cloneSyscallsBlock]
    split
    · split <;> rfl
    · rfl

/-- Nothing that an event of another does is to a live task that is not its own. -/
theorem changes_spare (h : op.byOthers current = true) (hlive : (s.tasks current).isSome = true)
    (hcs : changes s op = some cs) : ∀ c ∈ cs, c.Spares current := by
  have hchild {child : Pid} (hfree : s.tasks child = none) : child ≠ current := by
    rintro rfl
    rw [hfree] at hlive
    cases hlive
  cases op with
  | system op =>
    cases op with
    | copyProcess parent child flags =>
      rw [changes] at hcs
      obtain ⟨hcan, hcs⟩ := Option.ite_none_right_eq_some.mp hcs
      have hne : child ≠ current := hchild (Option.isNone_iff_eq_none.mp hcan.2)
      split at hcs <;> obtain rfl := Option.some.inj hcs <;> simp [Change.Spares, hne]
    | exit task =>
      have hne : task ≠ current := by simpa [SessionOp.byOthers] using h
      rw [changes] at hcs
      obtain ⟨-, hcs⟩ := Option.ite_none_left_eq_some.mp hcs
      split at hcs <;> obtain rfl := Option.some.inj hcs <;> simp [Change.Spares, hne]
    | call c =>
      obtain rfl := Option.some.inj hcs
      simp [Change.Spares]
    | ioctl | unregister | rmmod => cases h
  | insmod => cases h
  | clone parent flags id fork =>
    rw [changes] at hcs
    obtain ⟨hcan, hcs⟩ := Option.ite_none_right_eq_some.mp hcs
    split at hcs
    · obtain rfl := Option.some.inj hcs
      simp
    · obtain rfl := Option.some.inj hcs
      cases fork with
      | failed err => simp [cloneChanges, Change.Spares]
      | child pid =>
        have hne : pid ≠ current := hchild hcan.2
        rw [cloneChanges]
        split <;> simp [Change.Spares, hne]
  | forkFails parent flags =>
    rw [changes] at hcs
    obtain ⟨-, hcs⟩ := Option.ite_none_right_eq_some.mp hcs
    split at hcs <;> obtain rfl := Option.some.inj hcs <;> simp [Change.Spares]

end

/-! ## What the sections do -/

/-- An update that others do not see, and that does not see them. -/
structure Unseen (current : Pid) (f : State → State) : Prop where
  pointers : ∀ s task, task ≠ current → (f s).tasks task = s.tasks task
  alive : ∀ s, ((f s).tasks current).isSome = (s.tasks current).isSome
  chains : ∀ s k, chainOf (f s) k = chainOf s k
  applies : ∀ s (c : Change), c.Spares current → f (c.apply s) = c.apply (f s)

/-- A read that no change by others affects. -/
def Private {β : Type} (current : Pid) (g : State → β) : Prop :=
  ∀ s (c : Change), c.Spares current → g (c.apply s) = g s

section
variable {s t : State} {current : Pid} {op : SessionOp} {cs : List Change} {f : State → State}

theorem Unseen.isSome_eq (hf : Unseen current f) (task : Pid) :
    ((f s).tasks task).isSome = (s.tasks task).isSome := by
  by_cases h : task = current
  · rw [h]
    exact hf.alive s
  · rw [hf.pointers s task h]

theorem Unseen.vectorInfo_eq (hf : Unseen current f) {task : Pid} (h : task ≠ current) :
    (f s).vectorInfo task = s.vectorInfo task :=
  congrArg (Option.getD · 0) (hf.pointers s task h)

theorem Unseen.free_iff (hf : Unseen current f) (fork : ForkResult) :
    fork.Free (f s) ↔ fork.Free s := by
  cases fork with
  | failed err => exact Iff.rfl
  | child pid =>
    have halive := hf.isSome_eq (s := s) pid
    change (f s).tasks pid = none ↔ s.tasks pid = none
    rw [← Option.isSome_eq_false_iff.trans Option.isNone_iff_eq_none, halive,
      Option.isSome_eq_false_iff, Option.isNone_iff_eq_none]

/-- Others do the same after the update as before it. -/
theorem Unseen.changes_eq (hf : Unseen current f) (h : op.byOthers current = true) :
    changes (f s) op = changes s op := by
  cases op with
  | system op =>
    cases op with
    | copyProcess parent child flags =>
      have hne : parent ≠ current := by simpa [SessionOp.byOthers] using h
      have hchild := hf.isSome_eq (s := s) child
      simp only [changes, hf.pointers s parent hne, infoKey, hf.vectorInfo_eq hne,
        ← Option.not_isSome, hchild]
    | exit task =>
      have hne : task ≠ current := by simpa [SessionOp.byOthers] using h
      simp only [changes, hf.pointers s task hne, infoKey, hf.vectorInfo_eq hne]
    | call c => rfl
    | ioctl | unregister | rmmod => cases h
  | insmod => cases h
  | clone parent flags id fork =>
    have hne : parent ≠ current := by simpa [SessionOp.byOthers] using h
    have hinfo := hf.vectorInfo_eq (s := s) hne
    have hfound (b : UInt32) : foundChain (f s) b = foundChain s b := by
      have hchain := hf.chains s (.bitmap b)
      rw [foundChain, foundChain]
      cases hv : s.registry.lookup (.bitmap b) <;>
        cases hv' : (f s).registry.lookup (.bitmap b) <;>
          simp_all [chainOf]
    have hchanges :
        cloneChanges (f s) parent flags id fork = cloneChanges s parent flags id fork := by
      cases fork with
      | failed err => simp only [cloneChanges, cloneKey, infoKey, hinfo]
      | child pid => simp only [cloneChanges, infoKey, hinfo, vectorById, hfound]
    simp only [changes, hf.pointers s parent hne, hf.free_iff, infoKey, hinfo, hf.chains, hchanges]
  | forkFails parent flags =>
    have hne : parent ≠ current := by simpa [SessionOp.byOthers] using h
    simp only [changes, hf.pointers s parent hne, infoKey, hf.vectorInfo_eq hne]

theorem Unseen.applyAll_eq (hf : Unseen current f) (hcs : ∀ c ∈ cs, c.Spares current) :
    applyAll (f s) cs = f (applyAll s cs) := by
  induction cs generalizing s with
  | nil => rfl
  | cons c cs ih =>
    have hc := hf.applies s c (hcs c List.mem_cons_self)
    change applyAll (c.apply (f s)) cs = f (applyAll (c.apply s) cs)
    rw [← hc]
    exact ih fun d hd => hcs d (List.mem_cons_of_mem c hd)

theorem Private.applyAll_eq {β : Type} {g : State → β} (hg : Private current g)
    (hcs : ∀ c ∈ cs, c.Spares current) : g (applyAll s cs) = g s := by
  induction cs generalizing s with
  | nil => rfl
  | cons c cs ih =>
    have hrest := ih (s := c.apply s) fun d hd => hcs d (List.mem_cons_of_mem c hd)
    exact hrest.trans (hg s c (hcs c List.mem_cons_self))

/-! ## Sections that move -/

/-- The caller is alive. -/
def Live (current : Pid) (s : State) : Prop := (s.tasks current).isSome = true

theorem othersStep_some (h : othersStep current s op = some t) :
    op.byOthers current = true ∧ ∃ cs, changes s op = some cs ∧ applyAll s cs = t := by
  have hothers : op.byOthers current = true := by
    rw [othersStep] at h
    exact (Option.ite_none_right_eq_some.mp h).1
  rw [othersStep_changes s hothers] at h
  exact ⟨hothers, Option.map_eq_some_iff.mp h⟩

theorem private_live : Private current fun s => (s.tasks current).isSome := by
  intro s c hc
  cases c with
  | count k d => rfl
  | retask task info =>
    exact congrArg Option.isSome (Function.update_of_ne (Ne.symm hc) ..)

theorem Private.blind {β : Type} {g : State → β} (hg : Private current g) (hlive : Live current s)
    (h : othersStep current s op = some t) : g t = g s := by
  obtain ⟨hothers, cs, hcs, rfl⟩ := othersStep_some h
  exact hg.applyAll_eq (changes_spare hothers hlive hcs)

theorem othersStep_live (hlive : Live current s) (h : othersStep current s op = some t) :
    Live current t :=
  (private_live.blind hlive h).trans hlive

theorem Unseen.commutes (hf : Unseen current f) (hlive : Live current s) :
    othersStep current (f s) op = (othersStep current s op).map f := by
  by_cases h : op.byOthers current = true
  · rw [othersStep_changes (f s) h, othersStep_changes s h, hf.changes_eq h]
    cases hcs : changes s op with
    | none => rfl
    | some cs => exact congrArg some (hf.applyAll_eq (changes_spare h hlive hcs))
  · rw [othersStep, othersStep, if_neg h, if_neg h]
    rfl

/-- What others do not see moves, if what the call reads is its own. -/
theorem Unseen.mover {next : State → Sections} (hf : Unseen current f)
    (hnext : Private current next) : Mover (othersStep current) (Live current) f next where
  keeps s := (hf.alive s).trans
  commutes _ _ := hf.commutes
  blind _ _ _ := hnext.blind

/-! ### Updates -/

theorem unseen_id : Unseen current id :=
  ⟨fun _ _ _ => rfl, fun _ => rfl, fun _ _ => rfl, fun _ _ _ => rfl⟩

theorem unseen_registry {g : Registry → Registry}
    (hchains : ∀ r k, ((g r).lookup k).map StructVector.overriddenSyscallsAddress =
      (r.lookup k).map StructVector.overriddenSyscallsAddress)
    (hadjust : ∀ r k d, g (r.adjust k d) = (g r).adjust k d) :
    Unseen current fun s => { s with registry := g s.registry } where
  pointers _ _ _ := rfl
  alive _ := rfl
  chains s k := hchains s.registry k
  applies s c _ := by
    cases c with
    | count k d => exact congrArg (fun r => ({ s with registry := r } : State)) (hadjust _ k d)
    | retask task info => rfl

theorem unseen_adjust (k : Key) (d : Int) :
    Unseen current fun s => { s with registry := s.registry.adjust k d } :=
  unseen_registry (fun r k' => lookup_adjust_map r k k' d _ fun _ => rfl)
    fun r k' d' => adjust_comm r k' k d' d

theorem moduleRefs_adjust (r : Registry) (m : Module) (d : Int) (k : Key) (e : Int) :
    ({ r.adjust k e with
      moduleRefs := Function.update (r.adjust k e).moduleRefs m
        ((r.adjust k e).moduleRefs m + d) } : Registry) =
      ({ r with moduleRefs := Function.update r.moduleRefs m (r.moduleRefs m + d) }
        : Registry).adjust k e := by
  have hlook : ({ r with moduleRefs := Function.update r.moduleRefs m (r.moduleRefs m + d) }
      : Registry).lookup k = r.lookup k := rfl
  cases hv : r.lookup k with
  | none => rw [adjust_none hv, adjust_none (hlook.trans hv)]
  | some v =>
    rw [adjust_some hv, adjust_some (hlook.trans hv)]
    rw [Registry.mk.injEq]
    refine ⟨rfl, ?_⟩
    by_cases hm : v.vectorModule = m
    · simp [hm, Int.add_right_comm]
    · have hne : m ≠ v.vectorModule := Ne.symm hm
      simp [hm, hne, Function.update_comm hm]

theorem unseen_moduleRefs (m : Module) (d : Int) :
    Unseen current fun s => { s with registry := { s.registry with
      moduleRefs := Function.update s.registry.moduleRefs m (s.registry.moduleRefs m + d) } } :=
  unseen_registry (g := fun r => { r with
    moduleRefs := Function.update r.moduleRefs m (r.moduleRefs m + d) }) (fun _ _ => rfl)
    fun r k e => moduleRefs_adjust r m d k e

theorem unseen_setVectorInfo (a : Address) : Unseen current fun s => s.setVectorInfo current a where
  pointers s task hne := Function.update_of_ne hne ..
  alive s := by simp [State.setVectorInfo]
  chains _ _ := rfl
  applies s c hc := by
    cases c with
    | count k d => rfl
    | retask task info =>
      have hne : current ≠ task := Ne.symm hc
      simp [State.setVectorInfo, Change.apply, Function.update_of_ne hne,
        Function.update_comm hne]

/-- The variables of dynamic_vector belong to the holder of the lock. -/
theorem unseen_setListHead (a : Address) :
    Unseen current fun s => s.setListHead .dynamicVector a where
  pointers _ _ _ := rfl
  alive _ := rfl
  chains _ _ := rfl
  applies s c _ := by cases c <;> rfl

theorem unseen_listHeads (f : List Address → List Address) :
    Unseen current fun s => { s with listHeads := f s.listHeads } where
  pointers _ _ _ := rfl
  alive _ := rfl
  chains _ _ := rfl
  applies s c _ := by cases c <;> rfl

/-! ### Reads -/

theorem private_const {β : Type} (b : β) : Private current fun _ => b := fun _ _ _ => rfl

theorem Private.comp {β γ : Type} {g : State → β} (hg : Private current g) (h : β → γ) :
    Private current fun s => h (g s) := fun s c hc => congrArg h (hg s c hc)

theorem private_vectorInfo : Private current fun s => s.vectorInfo current := by
  intro s c hc
  cases c with
  | count k d => rfl
  | retask task info =>
    exact congrArg (Option.getD · 0) (Function.update_of_ne (Ne.symm hc) ..)

theorem private_local {β : Type} (g : Heap → (Module → Address) → List Address → β) :
    Private current fun s => g s.heap s.listHead s.listHeads := by
  intro s c _
  cases c <;> rfl

/-- What is read of the registry apart from the counts. -/
theorem private_registry {β : Type} {g : Registry → β} (hg : ∀ r k d, g (r.adjust k d) = g r) :
    Private current fun s => g s.registry := by
  intro s c _
  cases c with
  | count k d => exact hg s.registry k d
  | retask => rfl

theorem acquire_adjust (r : Registry) (k k' : Key) (d : Int) :
    ((r.adjust k d).acquire k').2 = (r.acquire k').2 := by
  have hmap := lookup_adjust_map r k k' d StructVector.overriddenSyscallsAddress fun _ => rfl
  have helim (o : Option StructVector) : o.elim 0 StructVector.overriddenSyscallsAddress =
      (o.map StructVector.overriddenSyscallsAddress).getD 0 := by
    cases o <;> rfl
  rw [Registry.acquire, Registry.acquire, helim, helim, hmap]

/-- `show_my_vector` reads no count. -/
theorem showMyVector_adjust (r : Registry) (k : Key) (d : Int) (buf : List UInt8) (a : Address) :
    showMyVector (r.adjust k d) buf a = showMyVector r buf a := by
  have hshown (r : Registry) : showMyVector r buf a =
      if a = 0 then (memcpyAt buf 0 vectorNotAssigned, 0)
      else ((r.lookup (.address a)).map fun v =>
          (((Cursor.mk buf 0 0).entry v).buffer, ((Cursor.mk buf 0 0).entry v).ret)).getD
        (buf, 0) := by
    rw [showMyVector, Registry.lookup]
    change _ = if a = 0 then _ else
      ((r.vecList.find? (addressIs a)).map _).getD _
    split
    · rfl
    · cases r.vecList.find? (addressIs a) <;> rfl
  rw [hshown, hshown, lookup_adjust_map r k (.address a) d _ fun _ => rfl]

theorem showEntries_updateFirst (p : StructVector → Bool) (d : Int) (vs : List StructVector)
    (c : Cursor) : showEntries (updateFirst p (StructVector.addRef d) vs) c = showEntries vs c := by
  induction vs generalizing c with
  | nil => rfl
  | cons v vs ih =>
    rw [updateFirst]
    split
    · rfl
    · rw [showEntries, showEntries, ih]

/-- Nor does `show_all_vectors`. -/
theorem showAllVectors_adjust (r : Registry) (k : Key) (d : Int) (buf : List UInt8) :
    showAllVectors (r.adjust k d) buf = showAllVectors r buf := by
  rw [showAllVectors, adjust_vecList, showEntries_updateFirst]
  rfl

/-! ### Sections -/

abbrev IsSettled (current : Pid) (p : Sections) : Prop :=
  Settled (othersStep current) (Live current) p

abbrev IsReducible (current : Pid) (p : Sections) : Prop :=
  Reducible (othersStep current) (Live current) p

theorem writing_settled {next : Sections} (hf : Unseen current f)
    (h : IsSettled current next) : IsSettled current (writing f next) :=
  .act (hf.mover (private_const next)).left fun _ _ => h

theorem reading_settled {β : Type} {g : State → β} {next : β → Sections}
    (hg : Private current g) (h : ∀ b, IsSettled current (next b)) :
    IsSettled current (reading g next) :=
  .act (unseen_id.mover (hg.comp next)).left fun s _ => h (g s)

theorem acquire_mover (k : Key) (next : Address → Sections) :
    Mover (othersStep current) (Live current)
      (fun s => { s with registry := (s.registry.acquire k).1 })
      fun s => next (s.registry.acquire k).2 := by
  have hfound : Private current fun s => (s.registry.acquire k).2 :=
    private_registry (g := fun r => (r.acquire k).2) fun r k' d => acquire_adjust r k' k d
  exact (unseen_adjust k 1).mover (hfound.comp next)

/-- Taking a reference: what is returned is no count. -/
theorem acquire_settled (k : Key) {next : Address → Sections}
    (h : ∀ a, IsSettled current (next a)) :
    IsSettled current (withListLock (fun r => r.acquire k) next) :=
  .act (acquire_mover k next).left fun _ _ => h _

/-- Dropping a reference, if the count that is left does not matter. -/
theorem release_settled (k : Key) {next : Sections} (h : IsSettled current next) :
    IsSettled current (withListLock (fun r => r.release k) fun _ => next) :=
  .act ((unseen_adjust k (-1)).mover (private_const next)).left fun _ _ => h

theorem pinModule_settled {m : Module} {next : Sections} (h : IsSettled current next) :
    IsSettled current (pinModule m next) :=
  writing_settled (unseen_moduleRefs m 1) h

theorem pinModule_reducible {m : Module} {next : Sections} (h : IsReducible current next) :
    IsReducible current (pinModule m next) :=
  .act ((unseen_moduleRefs m 1).mover (private_const next)).right fun _ _ => h

theorem putAndReturn_settled (result : Returned) : IsSettled current (putAndReturn result) :=
  writing_settled (unseen_moduleRefs .ioctlModule (-1)) (.ret result)

theorem acquire_reducible (k : Key) {next : Address → Sections}
    (h : ∀ a, IsReducible current (next a)) :
    IsReducible current (withListLock (fun r => r.acquire k) next) :=
  .act (acquire_mover k next).right fun _ _ => h _

theorem reading_private_reducible {β : Type} {g : State → β} {next : β → Sections}
    (hg : Private current g) (h : ∀ b, IsReducible current (next b)) :
    IsReducible current (reading g next) :=
  .act (unseen_id.mover (hg.comp next)).right fun s _ => h (g s)

/-- A section that others can see. -/
theorem withListLock_reducible {β : Type} {g : Registry → Registry × β} {next : β → Sections}
    (h : ∀ b, IsSettled current (next b)) : IsReducible current (withListLock g next) :=
  .commit (fun _ hlive => hlive) fun _ _ => h _

theorem reading_reducible {β : Type} {g : State → β} {next : β → Sections}
    (h : ∀ b, IsSettled current (next b)) : IsReducible current (reading g next) :=
  .commit (fun _ hlive => hlive) fun _ _ => h _

/-! ## The requests -/

variable {param : IoctlParam} {env : Env}

theorem private_showMine : Private current fun s =>
    (showMyVector s.registry (zeroed bufLen) (s.vectorInfo current)).1 := by
  intro s c hc
  have hinfo : (c.apply s).vectorInfo current = s.vectorInfo current := private_vectorInfo s c hc
  have hshown : Private current fun t =>
      showMyVector t.registry (zeroed bufLen) (s.vectorInfo current) :=
    private_registry (g := fun r => showMyVector r (zeroed bufLen) (s.vectorInfo current))
      fun r k d => showMyVector_adjust r k d _ _
  have hregistry := hshown s c hc
  dsimp only
  rw [hinfo]
  exact congrArg Prod.fst hregistry

theorem ifAssignedReduce_settled {next : Sections} (hnext : IsSettled current next) :
    IsSettled current (ifAssignedReduceSections current env next) := by
  refine reading_settled private_vectorInfo fun info => ?_
  split
  case isTrue => exact hnext
  case isFalse =>
    split
    case isTrue => exact hnext
    case isFalse =>
      refine reading_settled private_showMine fun buf => ?_
      split
      case isTrue => exact hnext
      case isFalse => exact release_settled (.name buf) hnext

/-- No section of `IOCTL_SET` uses a count: all of them move. -/
theorem ioctlSet_settled : IsSettled current (ioctlSetSections current param env) := by
  rw [ioctlSetSections]
  split
  case isTrue => exact .ret _
  case isFalse =>
    split
    case isTrue => exact .ret _
    case isFalse =>
      refine pinModule_settled ?_
      split
      case isTrue => exact putAndReturn_settled _
      case isFalse =>
        refine acquire_settled (.name (copyVectorName param.userVectorName)) fun a => ?_
        split
        case isTrue => exact putAndReturn_settled _
        case isFalse =>
          refine ifAssignedReduce_settled ?_
          refine writing_settled (unseen_setVectorInfo 0) ?_
          exact writing_settled (unseen_setVectorInfo a) (putAndReturn_settled _)

/-- `IOCTL_REMOVE` looks at the count that is left: that is its moment. -/
theorem ioctlRemove_reducible : IsReducible current (ioctlRemoveSections current param env) := by
  rw [ioctlRemoveSections]
  split
  case isTrue => exact .settled (.ret _)
  case isFalse =>
    split
    case isTrue => exact .settled (.ret _)
    case isFalse =>
      refine pinModule_reducible ?_
      split
      case isTrue => exact .settled (putAndReturn_settled _)
      case isFalse =>
        refine withListLock_reducible fun err => ?_
        split
        case isTrue => exact putAndReturn_settled _
        case isFalse => exact writing_settled (unseen_setVectorInfo 0) (putAndReturn_settled _)

theorem copyOut_settled (buf : List UInt8) : IsSettled current (copyOutSections buf env) := by
  rw [copyOutSections]
  split <;> exact putAndReturn_settled _

theorem ioctlShowAll_settled : IsSettled current (ioctlShowAllSections env) := by
  have hshown : Private current fun s => showAllVectors s.registry (zeroed bufLen) :=
    private_registry (g := fun r => showAllVectors r (zeroed bufLen))
      fun r k d => showAllVectors_adjust r k d _
  exact pinModule_settled (reading_settled hshown fun _ => copyOut_settled _)

theorem showMyVector_settled (info : Address) :
    IsSettled current (reading (fun s => (showMyVector s.registry (zeroed bufLen) info).1)
      fun buf => copyOutSections buf env) := by
  have hshown : Private current fun s => showMyVector s.registry (zeroed bufLen) info :=
    private_registry (g := fun r => showMyVector r (zeroed bufLen) info)
      fun r k d => showMyVector_adjust r k d _ info
  exact reading_settled (hshown.comp Prod.fst) fun _ => copyOut_settled _

theorem ioctlShowMine_settled : IsSettled current (ioctlShowMineSections current env) :=
  pinModule_settled (reading_settled private_vectorInfo fun info => showMyVector_settled info)

/-- The task that `IOCTL_VECTOR_FOR_PID` looks for can come and go. -/
theorem ioctlVectorForPid_reducible :
    IsReducible current (ioctlVectorForPidSections param env) := by
  refine pinModule_reducible ?_
  split
  case isTrue => exact .settled (.ret _)
  case isFalse =>
    split
    case isTrue => exact .settled (putAndReturn_settled _)
    case isFalse =>
      refine reading_reducible fun found => ?_
      cases found with
      | none => exact .ret _
      | some info => exact showMyVector_settled info

/-- The chains and `listHead` belong to the holder of the lock. -/
theorem onChains_mover {β : Type} (g : Builder → Except Fault (Builder × β))
    (next : β → Sections) :
    Mover (othersStep current) (Live current) (chainsAfter g) (chainsThen g next) := by
  refine Unseen.mover ⟨fun s task _ => ?_, fun s => ?_, fun s k => ?_, fun s c _ => ?_⟩ ?_
  · rw [chainsAfter]
    split <;> rfl
  · rw [chainsAfter]
    split <;> rfl
  · rw [chainsAfter]
    split <;> rfl
  · cases h : g ⟨s.heap, s.listHead .dynamicVector⟩ <;> cases c <;>
      simp only [chainsAfter, Change.apply, h] <;> rfl
  · intro s c _
    cases c <;> rfl

theorem onChains_settled {β : Type} {g : Builder → Except Fault (Builder × β)}
    {next : β → Sections} (h : ∀ b, IsSettled current (next b)) :
    IsSettled current (onChains g next) := by
  refine .act (onChains_mover g next).left fun s _ => ?_
  rw [chainsThen]
  split
  · exact .ret _
  · exact h _

theorem onChains_reducible {β : Type} {g : Builder → Except Fault (Builder × β)}
    {next : β → Sections} (h : ∀ b, IsReducible current (next b)) :
    IsReducible current (onChains g next) := by
  refine .act (onChains_mover g next).right fun s _ => ?_
  rw [chainsThen]
  split
  · exact .settled (.ret _)
  · exact h _

theorem undo_settled {ret : UInt64} {next : Int32 → Sections}
    (hnext : ∀ err, IsSettled current (next err)) :
    IsSettled current (undoSections ret next) :=
  onChains_settled fun _ => hnext _

theorem install_reducible {bitmap : UInt32} {name : List UInt8} {va : Address}
    {next : Int32 → Sections} (hnext : ∀ err, IsSettled current (next err)) :
    IsReducible current (installSections current bitmap name va next) := by
  have hhead : Private current fun s => s.listHead .dynamicVector :=
    private_local fun _ listHead _ => listHead .dynamicVector
  refine pinModule_reducible (reading_private_reducible hhead fun head => ?_)
  refine withListLock_reducible fun _ => ?_
  refine writing_settled (unseen_setVectorInfo _) ?_
  refine writing_settled (unseen_listHeads (· ++ [head])) ?_
  exact writing_settled (unseen_setListHead 0) (hnext _)

/-- Only the registration of a new vector is seen by others. -/
theorem addVector_reducible {bitmap : UInt32} {next : Int32 → Sections}
    (hnext : ∀ err, IsSettled current (next err)) :
    IsReducible current (addVectorSections current bitmap env next) := by
  refine acquire_reducible (.bitmap bitmap) fun ret => ?_
  split
  case isTrue =>
    refine .settled (writing_settled (unseen_setVectorInfo _) ?_)
    exact writing_settled (unseen_setListHead 0) (hnext _)
  case isFalse =>
    split
    case isTrue => exact .settled (writing_settled (unseen_setListHead 0) (hnext _))
    case isFalse =>
      split
      case isTrue => exact .settled (undo_settled hnext)
      case isFalse =>
        refine onChains_reducible fun built => ?_
        split
        case isTrue => exact .settled (undo_settled hnext)
        case isFalse => exact install_reducible hnext

theorem ioctlCreate_reducible : IsReducible current (ioctlCreateSections current param env) := by
  refine pinModule_reducible ?_
  split
  case isTrue => exact .settled (.ret _)
  case isFalse =>
    split
    case isTrue => exact .settled (putAndReturn_settled _)
    case isFalse =>
      split
      case isTrue => exact .settled (putAndReturn_settled _)
      case isFalse => exact addVector_reducible fun _ => putAndReturn_settled _

theorem customIoctl_reducible (current : Pid) (request : UInt32) (param : IoctlParam)
    (env : Env) : IsReducible current (customIoctlSections current request param env) := by
  rw [customIoctlSections]
  repeat' split
  · exact .settled (.ret _)
  · exact .settled ioctlSet_settled
  · exact ioctlRemove_reducible
  · exact .settled ioctlShowAll_settled
  · exact .settled ioctlShowMine_settled
  · exact ioctlVectorForPid_reducible
  · exact ioctlCreate_reducible
  · exact .settled (.ret _)

end

/-! ## A call alone -/

section
variable {s : State} {current : Pid} {param : IoctlParam} {env : Env}

theorem run_pinModule (m : Module) (next : Sections) (s : State) :
    (pinModule m next).run s = next.run { s with registry := s.registry.tryModuleGet m } := rfl

theorem run_reading {β : Type} (f : State → β) (next : β → Sections) (s : State) :
    (reading f next).run s = (next (f s)).run s := rfl

theorem run_withListLock {β : Type} (f : Registry → Registry × β) (next : β → Sections)
    (s : State) :
    (withListLock f next).run s =
      (next (f s.registry).2).run { s with registry := (f s.registry).1 } := rfl

theorem run_ifAssignedReduce (next : Sections) (s : State) :
    (ifAssignedReduceSections current env next).run s =
      next.run (ifAssignedReduce s current env).1 := by
  rw [ifAssignedReduceSections, run_reading, ifAssignedReduce]
  split
  · rfl
  · split
    · rfl
    · rw [run_reading]
      dsimp only
      split
      · rfl
      · rfl

theorem outcome_ioctlSet :
    ioctlOutcome ((ioctlSetSections current param env).run s) = ioctlSet s current param env := by
  rw [ioctlSetSections, ioctlSet]
  split
  · rfl
  · split
    · rfl
    · rw [run_pinModule]
      dsimp only
      split
      · rfl
      · rw [run_withListLock]
        dsimp only
        split
        · rfl
        · rw [run_ifAssignedReduce]
          rfl

theorem outcome_ioctlRemove :
    ioctlOutcome ((ioctlRemoveSections current param env).run s) =
      ioctlRemove s current param env := by
  rw [ioctlRemoveSections, ioctlRemove]
  split
  · rfl
  · split
    · rfl
    · rw [run_pinModule]
      dsimp only
      split
      · rfl
      · rw [run_withListLock]
        dsimp only
        split <;> rfl

theorem outcome_copyOut (buf : List UInt8) :
    ioctlOutcome ((copyOutSections buf env).run s) = copyOut s buf env := by
  rw [copyOutSections, copyOut]
  split <;> rfl

theorem outcome_ioctlVectorForPid :
    ioctlOutcome ((ioctlVectorForPidSections param env).run s) = ioctlVectorForPid s param env := by
  rw [ioctlVectorForPidSections, ioctlVectorForPid, run_pinModule]
  dsimp only
  split
  · rfl
  · split
    · rfl
    · rw [run_reading]
      dsimp only
      cases (findVpid param.userPidBuf.pid).bind s.tasks with
      | none => rfl
      | some info => exact outcome_copyOut _

theorem outcome_onChains_error {β : Type} {f : Builder → Except Fault (Builder × β)}
    {fault : Fault} (h : f ⟨s.heap, s.listHead .dynamicVector⟩ = .error fault)
    (next : β → Sections) : ioctlOutcome ((onChains f next).run s) = .error fault := by
  change ioctlOutcome ((chainsThen f next s).run _) = _
  rw [chainsThen, h]
  rfl

theorem run_onChains {β : Type} {f : Builder → Except Fault (Builder × β)} {b : Builder} {x : β}
    (h : f ⟨s.heap, s.listHead .dynamicVector⟩ = .ok (b, x)) (next : β → Sections) :
    (onChains f next).run s =
      (next x).run ({ s with heap := b.heap }.setListHead .dynamicVector b.listHead) := by
  change (chainsThen f next s).run (chainsAfter f s) = _
  rw [chainsThen, chainsAfter, h]

theorem outcome_undo (ret : UInt64) (next : Int32 → Sections) (s : State) :
    ioctlOutcome ((undoSections ret next).run s) =
      (undoVector s ret).bind fun x => ioctlOutcome ((next x.2).run x.1) := by
  rw [undoSections, undoVector]
  cases h : deleteVector s.heap (s.listHead .dynamicVector) with
  | error fault => exact outcome_onChains_error (by rw [h]; rfl) _
  | ok heap =>
    rw [run_onChains (b := ⟨heap, 0⟩) (x := ()) (by rw [h]; rfl)]
    rfl

theorem outcome_addVector (bitmap : UInt32) (next : Int32 → Sections) (s : State) :
    ioctlOutcome ((addVectorSections current bitmap env next).run s) =
      (addVectorFromBitmap s current bitmap env).bind fun x =>
        ioctlOutcome ((next x.2).run x.1) := by
  rw [addVectorSections, run_withListLock, addVectorFromBitmap]
  dsimp only
  split
  · rfl
  · split
    · rfl
    · split
      · exact outcome_undo ..
      · cases h : addBranches bitmap env.node 0 vectorBranches
            ⟨s.heap, s.listHead .dynamicVector⟩ (checkAnyCurrentVector s.registry bitmap).2 with
        | error fault => exact outcome_onChains_error h _
        | ok built =>
          obtain ⟨b, ret, jumped⟩ := built
          rw [run_onChains h]
          cases jumped with
          | true => exact outcome_undo ..
          | false => rfl

theorem outcome_ioctlCreate :
    ioctlOutcome ((ioctlCreateSections current param env).run s) =
      ioctlCreateFromBitmap s current param env := by
  rw [ioctlCreateSections, ioctlCreateFromBitmap, run_pinModule]
  dsimp only
  split
  · rfl
  · split
    · rfl
    · split
      · rfl
      · rw [outcome_addVector]
        cases addVectorFromBitmap { s with registry := s.registry.tryModuleGet .ioctlModule }
          current param.userBitmap env <;> rfl

/-- Uninterrupted, the sections are `custom_ioctl`. -/
theorem outcome_customIoctl (s : State) (current : Pid) (request : UInt32) (param : IoctlParam)
    (env : Env) :
    ioctlOutcome ((customIoctlSections current request param env).run s) =
      customIoctl s current request param env := by
  rw [customIoctlSections, customIoctl]
  split
  · rfl
  · split
    · exact outcome_ioctlSet
    · split
      · exact outcome_ioctlRemove
      · split
        · exact outcome_copyOut _
        · split
          · exact outcome_copyOut _
          · split
            · exact outcome_ioctlVectorForPid
            · split
              · exact outcome_ioctlCreate
              · rfl

end

/-! ## Calls among others -/

section
variable {s t : State} {current : Pid} {request : UInt32} {param : IoctlParam} {env : Env}

/-- However forks, exits, clones and calls of the exported functions by others come between
the sections of an ioctl call, it has the effect and the result of `custom_ioctl` at one moment
between two of them, and they keep their order. -/
theorem ioctl_sections_atomic {turns : List (Turn SessionOp)} {r : Returned}
    (hlive : (s.tasks current).isSome = true)
    (h : steps (turn (othersStep current)) (s, customIoctlSections current request param env)
      turns = some (t, .ret r)) :
    ∃ before after u v, events turns = before ++ after ∧
      steps (othersStep current) s before = some u ∧
        customIoctl u current request param env = ioctlOutcome (v, r) ∧
          steps (othersStep current) v after = some t := by
  obtain ⟨before, after, u, hsplit, hbefore, rfl, hafter⟩ :=
    (customIoctl_reducible current request param env).serial
      (fun _ _ _ => othersStep_live) hlive h
  exact ⟨before, after, u, _, hsplit, hbefore, (outcome_customIoctl u _ _ _ _).symm, hafter⟩

/-- While task 1 sets vector1, task 2 forks between two sections. -/
def forkInBetween : List (Turn SessionOp) :=
  [.own, .own, .other (.system (.copyProcess task2 childTask CLONE_SYSCALLS)), .own, .own, .own,
    .own]

theorem ioctl_sections_atomic_fork :
    ∃ t r, steps (turn (othersStep task1)) (sampleBoot, customIoctlSections task1 IOCTL_SET
        (nameParam vector1Name) (sampleEnv 12288)) forkInBetween = some (t, .ret r) ∧
      ∃ before after u v, events forkInBetween = before ++ after ∧
        steps (othersStep task1) sampleBoot before = some u ∧
          customIoctl u task1 IOCTL_SET (nameParam vector1Name) (sampleEnv 12288) =
            ioctlOutcome (v, r) ∧
            steps (othersStep task1) v after = some t := by
  obtain ⟨t, r, h⟩ : ∃ t r, steps (turn (othersStep task1)) (sampleBoot, customIoctlSections task1
      IOCTL_SET (nameParam vector1Name) (sampleEnv 12288)) forkInBetween = some (t, .ret r) :=
    ⟨_, _, rfl⟩
  exact ⟨t, r, h, ioctl_sections_atomic rfl h⟩

theorem IoctlCall.Can.stable {c : IoctlCall} {op : SessionOp} (hcan : c.Can s)
    (h : othersStep c.current s op = some t) : c.Can t := by
  have hheap : t.heap = s.heap :=
    (private_local fun heap _ _ => heap).blind hcan.live h
  have hloads : Private c.current State.loaded := by
    intro s c _
    cases c <;> rfl
  have hloaded : t.loaded = s.loaded := hloads.blind hcan.live h
  refine ⟨othersStep_live hcan.live h, fun hcreate => ?_, ?_⟩
  · rw [hloaded]
    exact hcan.loaded hcreate
  · rw [hheap]
    exact hcan.fresh

/-- A session in which every ioctl call runs in sections. -/
abbrev SectionedRun (x y : State × Option (IoctlCall × Sections)) : Prop :=
  Run sectionedStep (allowed IoctlCall.Can fun s op => op.Fresh s) x y

abbrev SessionRun (s t : State) : Prop := Run sessionStep (fun s op => op.Fresh s) s t

/-- Whatever happens while ioctl calls run in sections under `mutexlock`, each state between two
calls is one that the system reaches with atomic calls. -/
theorem sectioned_runs_serial (h : SectionedRun (s, none) (t, none)) : SessionRun s t := by
  have hbody (c : IoctlCall) : IsReducible c.current
      (customIoctlSections c.current c.request c.param c.env) :=
    customIoctl_reducible _ _ _ _
  refine locked_serial ?_ ?_ ?_ ?_ ?_ ?_ hbody h
  · intro s op t hfresh hstep
    cases op with
    | system op =>
      cases op with
      | ioctl => cases hstep
      | _ => exact ⟨_, hfresh, hstep⟩
    | _ => exact ⟨_, hfresh, hstep⟩
  · intro c s op t hstep
    obtain ⟨hothers, -⟩ := othersStep_some hstep
    rw [othersStep, if_pos hothers] at hstep
    cases op with
    | system op =>
      cases op with
      | ioctl | unregister | rmmod => cases hothers
      | _ => exact ⟨trivial, hstep⟩
    | insmod => cases hothers
    | _ => exact ⟨trivial, hstep⟩
  · intro c s hcan hreturned
    refine ⟨.system (.ioctl c.current c.request c.param c.env), hcan.fresh, ?_⟩
    have hcall := outcome_customIoctl s c.current c.request c.param c.env
    have hlive : ¬(s.tasks c.current).isNone = true := by
      simp [Option.isSome_iff_ne_none.mp hcan.live]
    have hloaded : ¬(c.request = IOCTL_CREATE_FROM_BITMAP ∧ s.loaded .dynamicVector = false) := by
      rintro ⟨hcreate, hunloaded⟩
      exact absurd (hunloaded.symm.trans (hcan.loaded hcreate)) Bool.false_ne_true
    rw [sessionStep, step, if_neg hlive, if_neg hloaded, ← hcall, ioctlOutcome]
    cases hr : ((customIoctlSections c.current c.request c.param c.env).run s).2 with
    | error fault =>
      rw [hr] at hreturned
      cases hreturned
    | ok result => rfl
  · exact fun c s op t => IoctlCall.Can.stable
  · exact fun c s hcan => hcan.live
  · exact fun c s op t => othersStep_live

theorem sectioned_runs_serial_fork :
    ∃ t, SectionedRun (sampleBoot, none) (t, none) ∧
      t.registry.vecList.map StructVector.refcount = [0, 1] ∧ SessionRun sampleBoot t := by
  let call : IoctlCall := ⟨task1, IOCTL_SET, nameParam vector1Name, sampleEnv 12288⟩
  let body := customIoctlSections call.current call.request call.param call.env
  let moves : List (Move SessionOp IoctlCall) :=
    [.proceed, .proceed, .event (.system (.copyProcess task2 childTask CLONE_SYSCALLS)),
      .proceed, .proceed, .proceed, .proceed, .finish]
  have hcan : call.Can sampleBoot := ⟨rfl, fun h => absurd h (by decide), freshNodes_sampleBoot⟩
  have hstart : SectionedRun (sampleBoot, none) (sampleBoot, some (call, body)) :=
    Run.single (a := .start call) hcan rfl
  obtain ⟨t, ht⟩ : ∃ t, steps sectionedStep (sampleBoot, some (call, body)) moves =
    some (t, none) := ⟨_, rfl⟩
  have hguard (c : State × Option (IoctlCall × Sections)) :
      ∀ m ∈ moves, allowed IoctlCall.Can (fun s op => op.Fresh s) c m := by
    intro m hm
    simp only [moves, List.mem_cons, List.not_mem_nil, or_false] at hm
    rcases hm with rfl | rfl | rfl | rfl | rfl | rfl | rfl | rfl <;> exact trivial
  have hrun := hstart.trans (Run.of_steps hguard ht)
  have hcounts : (steps sectionedStep (sampleBoot, some (call, body)) moves).map
      (fun c => c.1.registry.vecList.map StructVector.refcount) = some [0, 1] := by decide
  rw [ht] at hcounts
  exact ⟨t, hrun, Option.some.inj hcounts, sectioned_runs_serial hrun⟩

end

end SyscallVector.Audit
