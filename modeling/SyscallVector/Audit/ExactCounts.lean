import SyscallVector.Lib.Holders
import SyscallVector.Audit.Addresses
import SyscallVector.Audit.CreatedVector

/-!
# Exact reference counts

A task that takes a vector only while it has none, and gives up none but its own, moves
one count and one pointer together. Names and bitmaps stay unambiguous among the vectors
with a chain, since a chain is NULL exactly when no branch of `add_vector_from_bitmap`
looks at a bit of the bitmap; so a release finds the entry that the acquisition found,
by whatever key.
-/
namespace SyscallVector.Audit

set_option autoImplicit false

open Lib Model

/-- The counts are the numbers of holders, and every key leads to the same chain. -/
structure Exact (r : Registry) (tasks : Pid → Option Address) : Prop where
  counts : ∀ v ∈ r.vecList, v.overriddenSyscallsAddress ≠ 0 →
    v.refcount = Int32.ofInt (holders tasks v.overriddenSyscallsAddress)
  distinct : DistinctAddresses r
  empty : ∀ v ∈ r.vecList,
    v.overriddenSyscallsAddress = 0 ↔ selectedRows v.overfuncsBitmap vectorBranches = []
  bitmaps : (r.vecList.map StructVector.overfuncsBitmap).Pairwise fun b b' =>
    selectedRows b vectorBranches ≠ [] → b ≠ b'
  pointers : ∀ p a, tasks p = some a → a ≠ 0 → a ∈ addresses r

/-- There are fewer tasks than an `int` can count. -/
theorem toInt_holders (tasks : Pid → Option Address) (a : Address) :
    (Int32.ofInt (holders tasks a)).toInt = holders tasks a := by
  have hcard := card_pid_lt
  have hbound := holders_le_card tasks a
  exact Int32.toInt_ofInt_of_le (by omega) (by omega)

section
variable {r : Registry} {tasks tasks' : Pid → Option Address} {k : Key} {v w : StructVector}
  {p : Pid} {d : Int}

theorem Exact.toInt_refcount (h : Exact r tasks) (hv : v ∈ r.vecList)
    (h0 : v.overriddenSyscallsAddress ≠ 0) :
    v.refcount.toInt = holders tasks v.overriddenSyscallsAddress := by
  rw [h.counts v hv h0, toInt_holders]

/-! ## One entry for each key -/

/-- Vectors with one bitmap are one vector, if it has a chain. -/
theorem Exact.eq_of_bitmap (h : Exact r tasks) (hv : v ∈ r.vecList) (hw : w ∈ r.vecList)
    (h0 : v.overriddenSyscallsAddress ≠ 0) (hbitmap : w.overfuncsBitmap = v.overfuncsBitmap) :
    w = v := by
  have hrows : selectedRows v.overfuncsBitmap vectorBranches ≠ [] := fun hnil =>
    h0 ((h.empty v hv).mpr hnil)
  have hpairs := List.pairwise_map.mp h.bitmaps
  refine List.Pairwise.forall_of_forall_of_flip
    (R := fun x y => selectedRows x.overfuncsBitmap vectorBranches ≠ [] →
      y.overfuncsBitmap = x.overfuncsBitmap → y = x)
    (fun _ _ _ _ => rfl) ?_ ?_ hv hw hrows hbitmap
  · exact hpairs.imp fun hne hrows he => absurd he.symm (hne hrows)
  · exact hpairs.imp fun hne hrows he => absurd he (hne (he ▸ hrows))

/-- A search that accepts one bitmap only finds the vector with a chain. -/
theorem Exact.lookup_eq (h : Exact r tasks) (hv : v ∈ r.vecList)
    (h0 : v.overriddenSyscallsAddress ≠ 0) (hk : k.isMatch v = true)
    (honly : ∀ w ∈ r.vecList, k.isMatch w = true → w.overfuncsBitmap = v.overfuncsBitmap) :
    r.lookup k = some v :=
  find?_eq_of_unique hv hk fun w hw hmatch => h.eq_of_bitmap hv hw h0 (honly w hw hmatch)

/-- The name of a vector with a chain leads to that vector. -/
theorem Exact.lookup_name (h : Exact r tasks) (hnamed : Named r) {n : List UInt8}
    (hv : v ∈ r.vecList) (h0 : v.overriddenSyscallsAddress ≠ 0)
    (hk : (Key.name n).isMatch v = true) : r.lookup (.name n) = some v := by
  have hname : cstr n = vectorPrefix ++ decimal v.overfuncsBitmap.toNat := by
    rw [← (hnamed v hv).name]
    exact (strcmp_eq_zero_iff _ _).mp (by simpa [Key.isMatch] using hk)
  refine h.lookup_eq hv h0 hk fun w hw hmatch => ?_
  rw [isMatch_name_iff hname (hnamed w hw)] at hmatch
  simpa [Key.isMatch] using hmatch

/-- A bitmap with branches that is searched for in vain is not registered. -/
theorem Exact.not_mem_bitmaps (h : Exact r tasks) {bitmap : UInt32}
    (hfound : (r.lookup (.bitmap bitmap)).elim 0 StructVector.overriddenSyscallsAddress = 0)
    (hrows : selectedRows bitmap vectorBranches ≠ []) :
    bitmap ∉ r.vecList.map StructVector.overfuncsBitmap := by
  intro hmem
  obtain ⟨w, hw, hbitmap⟩ := List.mem_map.mp hmem
  obtain ⟨v, hv⟩ := lookup_ne_none (k := .bitmap bitmap) hw (by simpa [Key.isMatch] using hbitmap)
  have heq : v.overfuncsBitmap = bitmap := by simpa [Key.isMatch] using lookup_isMatch hv
  rw [hv] at hfound
  exact hrows (heq ▸ (h.empty v (lookup_mem hv)).mp hfound)

/-! ## Moving a count and a pointer -/

/-- The count of the first match moves as the number of its holders does. -/
theorem Exact.adjust (h : Exact r tasks) (hv : r.lookup k = some v)
    (hself : v.overriddenSyscallsAddress ≠ 0 →
      (holders tasks' v.overriddenSyscallsAddress : ℤ) =
        holders tasks v.overriddenSyscallsAddress + d)
    (hother : ∀ a, a ≠ 0 → a ≠ v.overriddenSyscallsAddress →
      holders tasks' a = holders tasks a)
    (hpointers : ∀ p a, tasks' p = some a → a ≠ 0 →
      (∃ q, tasks q = some a) ∨ a = v.overriddenSyscallsAddress) :
    Exact (r.adjust k d) tasks' := by
  constructor
  case counts =>
    intro w hw h0
    rcases h.distinct.mem_adjust hv hw with rfl | ⟨hw, happart⟩
    · have hcount := h.counts v (lookup_mem hv) h0
      rw [StructVector.addRef_refcount, hcount, ← Int32.ofInt_add, StructVector.addRef_address,
        hself h0]
    · rw [h.counts w hw h0, hother _ h0 (happart h0)]
  case distinct => exact h.distinct.adjust k d
  case empty => exact forall_mem_adjust (fun _ hw => hw) h.empty k
  case bitmaps =>
    rw [adjust_bitmaps]
    exact h.bitmaps
  case pointers =>
    intro p a hp h0
    rw [addresses_adjust]
    rcases hpointers p a hp h0 with ⟨q, hq⟩ | rfl
    · exact h.pointers q a hq h0
    · exact mem_addresses (lookup_mem hv)

/-- The count of a vector without a chain is free to move. -/
theorem Exact.adjustNull (h : Exact r tasks) (hv : r.lookup k = some v)
    (h0 : v.overriddenSyscallsAddress = 0) (d : Int) : Exact (r.adjust k d) tasks :=
  h.adjust hv (fun hne => absurd h0 hne) (fun _ _ _ => rfl) fun p _ hp _ => .inl ⟨p, hp⟩

/-- A task without a vector stays without one, comes or goes. -/
theorem Exact.idle (h : Exact r tasks) (hp : ∀ a, tasks p = some a → a = 0) {x : Option Address}
    (hx : ∀ a, x = some a → a = 0) : Exact r (Function.update tasks p x) := by
  have hsame {a : Address} (h0 : a ≠ 0) : holders (Function.update tasks p x) a = holders tasks a :=
    holders_update_other (fun he => h0 (hp a he)) fun he => h0 (hx a he)
  refine { h with counts := fun w hw h0 => ?_, pointers := fun q a hq h0 => ?_ }
  · rw [hsame h0]
    exact h.counts w hw h0
  · exact h.pointers q a ((holds_of_update hq).resolve_right fun he => h0 (hx a he)) h0

/-- A task without a vector takes one. -/
theorem Exact.take (h : Exact r tasks) (hv : r.lookup k = some v)
    (hp : ∀ a, tasks p = some a → a = 0) :
    Exact (r.adjust k 1) (Function.update tasks p (some v.overriddenSyscallsAddress)) := by
  apply h.adjust hv
  · intro h0
    rw [holders_update_take fun he => h0 (hp _ he)]
    exact Int.natCast_succ _
  · exact fun a h0 hne => holders_update_other (fun he => h0 (hp a he)) fun he =>
      hne (Option.some.inj he).symm
  · intro q a hq _
    exact (holds_of_update hq).imp (fun hold => ⟨q, hold⟩) fun he => (Option.some.inj he).symm

/-- A task gives up the vector that it holds. -/
theorem Exact.drop (h : Exact r tasks) (hv : r.lookup k = some v)
    (hp : tasks p = some v.overriddenSyscallsAddress) {x : Option Address}
    (hx : ∀ a, x = some a → a = 0) : Exact (r.adjust k (-1)) (Function.update tasks p x) := by
  apply h.adjust hv
  · intro h0
    have hdrop := holders_update_drop hp fun he => h0 (hx _ he)
    omega
  · intro a h0 hne
    refine holders_update_other (fun he => ?_) fun he => h0 (hx a he)
    exact hne (Option.some.inj (he.symm.trans hp))
  · intro q a hq h0
    exact .inl ⟨q, (holds_of_update hq).resolve_right fun he => h0 (hx a he)⟩

/-- A count that is about to be dropped by a holder does not go below zero. -/
theorem Exact.not_deficit (h : Exact r tasks) (hv : v ∈ r.vecList)
    (h0 : v.overriddenSyscallsAddress ≠ 0) (hp : tasks p = some v.overriddenSyscallsAddress) :
    ¬(v.addRef (-1)).refcount < 0 := by
  rw [addRef_neg_iff]
  rintro ⟨-, hnonpos⟩
  have hshown := Int32.le_iff_toInt_le.mp hnonpos
  have hpos := holders_pos hp
  rw [h.toInt_refcount hv h0, Int32.toInt_zero] at hshown
  omega

/-! ## Registration -/

theorem Exact.tryModuleGet (h : Exact r tasks) (m : Module) : Exact (r.tryModuleGet m) tasks :=
  ⟨h.counts, h.distinct, h.empty, h.bitmaps, h.pointers⟩

/-- A new vector, held by the task that it was built for. -/
theorem Exact.push (h : Exact r tasks) (hp : ∀ a, tasks p = some a → a = 0)
    (hcount : v.refcount = 1)
    (hfresh : v.overriddenSyscallsAddress ≠ 0 → v.overriddenSyscallsAddress ∉ addresses r)
    (hempty : v.overriddenSyscallsAddress = 0 ↔
      selectedRows v.overfuncsBitmap vectorBranches = [])
    (hbitmap : selectedRows v.overfuncsBitmap vectorBranches ≠ [] →
      v.overfuncsBitmap ∉ r.vecList.map StructVector.overfuncsBitmap) :
    Exact (pushVector r v) (Function.update tasks p (some v.overriddenSyscallsAddress)) := by
  constructor
  case counts =>
    intro w hw h0
    rcases List.mem_cons.mp hw with rfl | hw
    · have hzero : holders tasks w.overriddenSyscallsAddress = 0 :=
        (holders_eq_zero_iff tasks _).mpr fun q hq => hfresh h0 (h.pointers q _ hq h0)
      rw [holders_update_take fun he => h0 (hp _ he), hzero, hcount]
      rfl
    · have hne : v.overriddenSyscallsAddress ≠ w.overriddenSyscallsAddress := fun he =>
        hfresh (he ▸ h0) (he ▸ mem_addresses hw)
      rw [holders_update_other (fun he => h0 (hp _ he)) fun he => hne (Option.some.inj he)]
      exact h.counts w hw h0
  case distinct => exact h.distinct.push hfresh
  case empty =>
    intro w hw
    rcases List.mem_cons.mp hw with rfl | hw
    · exact hempty
    · exact h.empty w hw
  case bitmaps =>
    exact List.pairwise_cons.mpr ⟨fun _ hb hrows he => hbitmap hrows (he ▸ hb), h.bitmaps⟩
  case pointers =>
    intro q a hq h0
    rcases holds_of_update hq with hold | he
    · exact List.mem_cons_of_mem _ (h.pointers q a hold h0)
    · obtain rfl := Option.some.inj he
      exact List.mem_cons_self

/-- Only vectors that nobody holds can be unregistered. -/
theorem Exact.unregister (h : Exact r tasks) (a : Address) :
    Exact (unregisterSyscall r a).1 tasks := by
  rcases unregisterSyscall_cases r a with ⟨-, hr⟩ | ⟨v, hv, ⟨-, hr⟩ | ⟨hcount, hr⟩⟩
  · rw [hr]
    exact h
  · rw [hr]
    exact h
  · rw [hr]
    refine ⟨fun w hw => h.counts w (List.mem_of_mem_eraseP hw), h.distinct.erase a,
      fun w hw => h.empty w (List.mem_of_mem_eraseP hw),
      h.bitmaps.sublist (List.eraseP_sublist.map _), fun p b hp h0 => ?_⟩
    refine mem_addresses_erase hv (h.pointers p b hp h0) ?_
    rintro rfl
    have haddress := lookup_address hv
    have hshown := h.toInt_refcount (lookup_mem hv) (haddress ▸ h0)
    have hpos := holders_pos hp
    rw [haddress] at hshown
    rw [Int32.le_iff_toInt_le, hshown, Int32.toInt_zero] at hcount
    omega

end

/-! ## Events -/

/-- A call on a disciplined run: only a task without a vector asks for one, only the
vector that a task holds is removed by it, and the chain that a creation builds starts
at an address that is not registered. -/
structure DisciplinedCall (s : State) (current : Pid) (request : UInt32) (param : IoctlParam)
    (env : Env) : Prop where
  acquire : request = IOCTL_SET ∨ request = IOCTL_CREATE_FROM_BITMAP → s.vectorInfo current = 0
  alloc : request = IOCTL_CREATE_FROM_BITMAP → AllocSucceed env
  newHead : request = IOCTL_CREATE_FROM_BITMAP →
    headOf param.userBitmap env.node 0 vectorBranches ≠ 0 →
    headOf param.userBitmap env.node 0 vectorBranches ∉ addresses s.registry
  release : request = IOCTL_REMOVE → ∃ v ∈ s.registry.vecList,
    v.overriddenSyscallsAddress ≠ 0 ∧ s.vectorInfo current = v.overriddenSyscallsAddress ∧
      (nameKey param).isMatch v = true

def Disciplined (s : State) : Op → Prop
  | .ioctl current request param env => DisciplinedCall s current request param env
  | .copyProcess .. | .exit _ | .unregister _ => True
  | .call _ | .rmmod _ => False

section
variable {s t : State} {current : Pid} {request : UInt32} {param : IoctlParam} {env : Env}
  {result : IoctlResult}

/-- A pointer that reads as NULL is NULL. -/
theorem null_of_vectorInfo {a : Address} (hinfo : s.vectorInfo current = 0)
    (ha : s.tasks current = some a) : a = 0 := by
  rw [State.vectorInfo_of_live ha] at hinfo
  exact hinfo

theorem createOutcome_exact {bitmap : UInt32} {err : Int32} (hidle : Idle s)
    (hs : Exact s.registry s.tasks) (hlive : ∃ a, s.tasks current = some a)
    (hinfo : s.vectorInfo current = 0) (halloc : AllocSucceed env)
    (hnew : headOf bitmap env.node 0 vectorBranches ≠ 0 →
      headOf bitmap env.node 0 vectorBranches ∉ addresses s.registry)
    (h : CreateOutcome s current bitmap env t err) : Exact t.registry t.tasks := by
  obtain ⟨b, hb⟩ := hlive
  cases h with
  | @reuse v hv _ =>
    change Exact (s.registry.adjust (.bitmap bitmap) 1)
      (s.setVectorInfo current v.overriddenSyscallsAddress).tasks
    rw [State.setVectorInfo_tasks_of_live _ hb]
    exact hs.take hv fun a ha => null_of_vectorInfo hinfo ha
  | abandon _ hfail =>
    rcases hfail with ⟨htemp, -⟩ | ⟨hpre, -⟩
    · exact absurd htemp halloc.temp
    · exact absurd hpre halloc.vectorPrefix
  | @build b' _ hfound _ _ hadd =>
    -- the search that came first found nothing, or a vector without a chain
    have hsearched : Exact (s.registry.adjust (.bitmap bitmap) 1) s.tasks := by
      cases hv : s.registry.lookup (.bitmap bitmap) with
      | none =>
        rw [adjust_none hv]
        exact hs
      | some v => exact hs.adjustNull hv (by rw [← foundChain_some hv, hfound]) 1
    have hhead : b'.listHead = headOf bitmap env.node 0 vectorBranches := by
      have hlist := addBranches_listHead hadd
      rwa [hidle.listHead, if_pos rfl] at hlist
    change Exact (registered s.registry bitmap b'.listHead env.va)
      (s.setVectorInfo current b'.listHead).tasks
    rw [State.setVectorInfo_tasks_of_live _ hb, registered, if_pos halloc.va]
    apply (hsearched.tryModuleGet .dynamicVector).push (v := dynamicEntry bitmap b'.listHead)
    · exact fun a ha => null_of_vectorInfo hinfo ha
    · rfl
    · intro h0
      change b'.listHead ∉ addresses (s.registry.adjust (.bitmap bitmap) 1)
      rw [addresses_adjust, hhead]
      exact hnew (hhead ▸ h0)
    · change b'.listHead = 0 ↔ selectedRows bitmap vectorBranches = []
      rw [hhead, headOf_eq_zero_iff, builtRows_allocSucceed halloc]
    · intro hrows
      change bitmap ∉ (s.registry.adjust (.bitmap bitmap) 1).vecList.map _
      rw [adjust_bitmaps]
      exact hs.not_mem_bitmaps hfound hrows

theorem effect_exact (hidle : Idle s) (hs : Exact s.registry s.tasks)
    (hlive : ∃ a, s.tasks current = some a) (hg : DisciplinedCall s current request param env)
    (h : IoctlEffect s current request param env result) :
    Exact result.state.registry result.state.tasks := by
  -- a release finds the vector that the task holds
  have hheld {v : StructVector} (hreq : request = IOCTL_REMOVE)
      (hv : s.registry.lookup (nameKey param) = some v) :
      v.overriddenSyscallsAddress ≠ 0 ∧ s.tasks current = some v.overriddenSyscallsAddress := by
    obtain ⟨w, hw, h0, hinfo, hmatch⟩ := hg.release hreq
    have hfound := hs.lookup_name hidle.named hw h0 hmatch
    obtain rfl := Option.some.inj (hv.symm.trans hfound)
    obtain ⟨a, ha⟩ := hlive
    rw [State.vectorInfo_of_live ha] at hinfo
    exact ⟨h0, hinfo ▸ ha⟩
  cases h with
  | unchanged => exact hs
  | setNull _ _ hv h0 => exact hs.adjustNull hv h0 1
  | @set v hreq _ hv _ =>
    obtain ⟨b, hb⟩ := hlive
    change Exact _ (s.setVectorInfo current v.overriddenSyscallsAddress).tasks
    rw [State.setVectorInfo_tasks_of_live _ hb]
    exact hs.take hv fun a ha => null_of_vectorInfo (hg.acquire (.inl hreq)) ha
  | removeDeficit hreq _ hv hneg =>
    obtain ⟨h0, hp⟩ := hheld hreq hv
    exact absurd hneg (hs.not_deficit (lookup_mem hv) h0 hp)
  | remove hreq _ hv _ =>
    obtain ⟨-, hp⟩ := hheld hreq hv
    change Exact _ (s.setVectorInfo current 0).tasks
    rw [State.setVectorInfo_tasks_of_live _ hp]
    exact hs.drop hv hp fun a ha => (Option.some.inj ha).symm
  | create hreq _ _ hcreate =>
    exact createOutcome_exact hidle hs hlive (hg.acquire (.inr hreq)) (hg.alloc hreq)
      (hg.newHead hreq) hcreate

/-- A child takes the vector of its parent, or starts without one. -/
theorem copyProcess_exact (hs : Exact s.registry s.tasks) {a : Address}
    (hlive : s.tasks current = some a) {child : Pid} (hchild : s.tasks child = none)
    (flags : UInt64) :
    Exact (copyProcess s current child flags).registry
      (copyProcess s current child flags).tasks := by
  have hnone : ∀ b, s.tasks child = some b → b = 0 := by
    intro b hb
    rw [hchild] at hb
    cases hb
  rw [copyProcess_live hlive]
  split
  case isTrue =>
    cases hv : s.registry.lookup (.address a) with
    | some v =>
      obtain rfl := lookup_address hv
      exact hs.take hv hnone
    | none =>
      have h0 : a = 0 := by
        by_contra h0
        exact not_mem_addresses hv (hs.pointers current a hlive h0)
      dsimp only
      rw [adjust_none hv, h0]
      exact hs.idle hnone fun b hb => (Option.some.inj hb).symm
  case isFalse => exact hs.idle hnone fun b hb => (Option.some.inj hb).symm

theorem exitTask_exact (hs : Exact s.registry s.tasks) {a : Address}
    (hlive : s.tasks current = some a) :
    Exact (exitTask s current).registry (exitTask s current).tasks := by
  have hnone : ∀ b : Address, (none : Option Address) = some b → b = 0 := fun _ hb => nomatch hb
  rw [exitTask_live hlive]
  dsimp only
  split
  case isTrue h0 =>
    refine hs.idle (fun b hb => ?_) hnone
    rw [← Option.some.inj (hlive.symm.trans hb), h0]
  case isFalse h0 =>
    cases hv : s.registry.lookup (.address a) with
    | some v =>
      obtain rfl := lookup_address hv
      exact hs.drop hv hlive hnone
    | none => exact absurd (hs.pointers current a hlive h0) (not_mem_addresses hv)

theorem step_exact {op : Op} (hidle : Idle s) (hs : Exact s.registry s.tasks)
    (hg : Disciplined s op) (h : step s op = some t) : Exact t.registry t.tasks := by
  cases op with
  | ioctl current request param env =>
    obtain ⟨hlive, -, result, hcall, rfl⟩ := step_ioctl h
    exact effect_exact hidle hs hlive hg (customIoctl_cases hidle.named.plain hcall)
  | copyProcess current child flags =>
    obtain ⟨⟨a, hlive⟩, hchild, rfl⟩ := step_copyProcess h
    exact copyProcess_exact hs hlive hchild flags
  | exit current =>
    obtain ⟨⟨a, hlive⟩, rfl⟩ := step_exit h
    exact exitTask_exact hs hlive
  | unregister a =>
    obtain rfl := Option.some.inj h
    exact hs.unregister a
  | call | rmmod => exact hg.elim

end

/-! ## Runs -/

theorem booted_exact {s : State} (h : Booted s) : Exact s.registry s.tasks := by
  obtain ⟨a₁, a₂, ps₁, ps₂, hshape⟩ := booted_shape h
  obtain ⟨h₁, h₂, hne⟩ := hshape.heads_ne
  have hidle (a : Address) (h0 : a ≠ 0) (p : Pid) : s.tasks p ≠ some a := fun hp =>
    h0 (hshape.tasks p a hp)
  have hvectors : ∀ v ∈ s.registry.vecList, v = bootVector2 a₂ ∨ v = bootVector1 a₁ := by
    rw [hshape.registry]
    intro v hv
    simpa using hv
  constructor
  case counts =>
    intro v hv h0
    rw [(holders_eq_zero_iff s.tasks _).mpr (hidle _ h0)]
    rcases hvectors v hv with rfl | rfl <;> rfl
  case distinct =>
    rw [hshape.registry]
    change [a₂, a₁].Pairwise _
    simp [hne]
  case empty =>
    intro v hv
    rcases hvectors v hv with rfl | rfl
    · exact iff_of_false h₂ (show selectedRows vector2Bitmap vectorBranches ≠ [] by decide)
    · exact iff_of_false h₁ (show selectedRows vector1Bitmap vectorBranches ≠ [] by decide)
  case bitmaps =>
    rw [hshape.registry]
    change [vector2Bitmap, vector1Bitmap].Pairwise _
    decide
  case pointers => exact fun p a hp h0 => absurd hp (hidle a h0 p)

/-- In every state of a disciplined run the reference count of a vector with a chain is
the number of tasks that hold it. -/
theorem refcounts_exact {boot s : State} (hboot : Booted boot)
    (hrun : Run step Disciplined boot s) {v : StructVector} (hv : v ∈ s.registry.vecList)
    (h0 : v.overriddenSyscallsAddress ≠ 0) :
    v.refcount.toInt = holders s.tasks v.overriddenSyscallsAddress := by
  have hinvariant : Idle s ∧ Exact s.registry s.tasks :=
    hrun.invariant (fun s => Idle s ∧ Exact s.registry s.tasks)
      (fun _ _ _ hs hg h => ⟨step_idle hs.1 h, step_exact hs.1 hs.2 hg h⟩)
      ⟨booted_idle hboot, booted_exact hboot⟩
  exact hinvariant.2.toInt_refcount hv h0

/-- Task 1 takes `Vector55` and forks with `CLONE_SYSCALLS`. -/
theorem refcounts_exact_inherited :
    ∃ s v, steps step sampleBoot
        [.ioctl task1 IOCTL_SET (nameParam vector1Name) nodelessEnv,
          .copyProcess task1 ⟨9, by decide⟩ CLONE_SYSCALLS] = some s ∧
      v ∈ s.registry.vecList ∧ v.refcount = 2 ∧
      v.refcount.toInt = holders s.tasks v.overriddenSyscallsAddress := by
  let set : Op := .ioctl task1 IOCTL_SET (nameParam vector1Name) nodelessEnv
  let fork : Op := .copyProcess task1 ⟨9, by decide⟩ CLONE_SYSCALLS
  obtain ⟨m, hm⟩ : ∃ m, step sampleBoot set = some m := ⟨_, rfl⟩
  obtain ⟨s, hs⟩ : ∃ s, steps step sampleBoot [set, fork] = some s := ⟨_, rfl⟩
  have hset : Disciplined sampleBoot set := by
    refine ⟨fun _ => rfl, fun h => ?_, fun h => ?_, fun h => ?_⟩ <;> exact absurd h (by decide)
  have hrest : steps step m [fork] = some s := by
    rw [steps, hm] at hs
    exact hs
  have hfork : Run step Disciplined m s := by
    refine Run.of_steps (fun t op hop => ?_) hrest
    obtain rfl := List.mem_singleton.mp hop
    exact trivial
  have hrun : Run step Disciplined sampleBoot s := (Run.single hset hm).trans hfork
  have hcounts : (steps step sampleBoot [set, fork]).map (fun t =>
      t.registry.vecList.map fun v => (v.refcount, v.overriddenSyscallsAddress)) =
      some [(0, 8192), (2, 4096)] := by
    decide
  rw [hs] at hcounts
  have hlist : (s.registry.vecList.map fun v => (v.refcount, v.overriddenSyscallsAddress)) =
      [(0, 8192), (2, 4096)] := Option.some.inj hcounts
  have hmem : ((2 : Int32), (4096 : Address)) ∈
      s.registry.vecList.map fun v => (v.refcount, v.overriddenSyscallsAddress) := by
    rw [hlist]
    decide
  obtain ⟨v, hv, hpair⟩ := List.mem_map.mp hmem
  obtain ⟨hcount, haddress⟩ := Prod.mk.inj hpair
  exact ⟨s, v, hs, hv, hcount, refcounts_exact booted_sampleBoot hrun hv
    (by rw [haddress]; decide)⟩

end SyscallVector.Audit
