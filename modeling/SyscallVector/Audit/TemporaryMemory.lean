import SyscallVector.Audit.CreatedVector
import SyscallVector.Audit.ListHeads
import SyscallVector.Audit.NullChecks

/-!
# Temporary memory of a request

`custom_ioctl` frees its buffers behind one label, and jumps past it when the copy of a name
cannot be allocated. `add_vector_from_bitmap` frees its two strings behind labels that it
reaches on one failure only. All other paths free what they allocate.
-/
namespace SyscallVector.Audit

set_option autoImplicit false

open Lib Model

/-- The node at an address belongs to the chain of a vector that a call has registered. -/
def NodeOfNewVector (s t : State) (a : Address) : Prop :=
  ∃ v ps, t.registry.vecList.head? = some v ∧
    t.registry.vecList.length = s.registry.vecList.length + 1 ∧
    ChainAt t.heap v.overriddenSyscallsAddress ps ∧ a ∈ ps

/-- Each buffer was freed once, and a node that is still allocated has become part of a
registered vector. -/
structure TemporariesFreed (s : State) (result : IoctlResult) (use : StringUse) : Prop where
  buffers : use.freed.Perm use.allocated
  nodes : ∀ a, s.heap a = none → result.state.heap a ≠ none → NodeOfNewVector s result.state a

/-- The calls that take neither of the two paths that leak. -/
def Frees (s : State) (request : UInt32) (param : IoctlParam) (env : Env) : Prop :=
  env.buf = 0 ∨ (request = IOCTL_SET ∨ request = IOCTL_REMOVE → Good env.vectorName) ∧
    ¬Builds s request param env

section
variable {s : State} {current : Pid} {request : UInt32} {param : IoctlParam} {env : Env}
  {result : IoctlResult} {bitmap : UInt32}

/-! ## Buffers -/

theorem freeVectorName_perm (buffers : List Address) {inner : StringUse}
    (h : inner.freed.Perm inner.allocated) :
    (freeVectorName buffers inner).freed.Perm (freeVectorName buffers inner).allocated :=
  List.perm_append_comm.trans (h.append_left buffers)

theorem ifAssignedReduceBuffers_perm (s : State) (current : Pid) (env : Env) :
    (ifAssignedReduceBuffers s current env).freed.Perm
      (ifAssignedReduceBuffers s current env).allocated := by
  rw [ifAssignedReduceBuffers]
  split
  · rfl
  · split <;> rfl

theorem ioctlSetBuffers_perm (hgood : Good env.vectorName) :
    (ioctlSetBuffers s current param env).freed.Perm
      (ioctlSetBuffers s current param env).allocated := by
  rw [ioctlSetBuffers, if_neg hgood.1, if_neg (by simp [hgood.2])]
  split
  · exact freeVectorName_perm _ (.refl _)
  · dsimp only
    split
    · exact freeVectorName_perm _ (.refl _)
    · exact freeVectorName_perm _ (ifAssignedReduceBuffers_perm ..)

theorem ioctlRemoveBuffers_perm (hgood : Good env.vectorName) :
    (ioctlRemoveBuffers env).freed.Perm (ioctlRemoveBuffers env).allocated := by
  rw [ioctlRemoveBuffers, if_neg hgood.1, if_neg (by simp [hgood.2])]
  exact freeVectorName_perm _ (.refl _)

/-- Without the copy of the name, the jump to `out` leaves `buf` behind. -/
theorem nameBuffers_leaked (hreq : request = IOCTL_SET ∨ request = IOCTL_REMOVE)
    (hbuf : env.buf ≠ 0) (hbad : ¬Good env.vectorName) :
    customIoctlBuffers s current request param env = ⟨[env.buf], []⟩ := by
  rcases hreq with rfl | rfl
  · rw [customIoctlBuffers, if_neg hbuf, if_pos rfl, ioctlSetBuffers]
    rcases not_good hbad with hnull | herr
    · rw [if_pos hnull]
    · rw [if_pos herr, ite_self]
  · rw [customIoctlBuffers, if_neg hbuf, if_neg (by decide), if_pos rfl, ioctlRemoveBuffers]
    rcases not_good hbad with hnull | herr
    · rw [if_pos hnull]
    · rw [if_pos herr, ite_self]

theorem addVectorStrings_eq (s : State) (bitmap : UInt32) (env : Env) :
    addVectorStrings s bitmap env =
      if foundChain s bitmap ≠ 0 then ⟨[], []⟩
      else if env.temp = 0 then ⟨[], []⟩
      else if env.vectorPrefix = 0 then ⟨[env.temp], [env.temp]⟩
      else match addBranches bitmap env.node 0 vectorBranches
          ⟨s.heap, s.listHead .dynamicVector⟩ (foundChain s bitmap) with
        | .ok (_, _, true) => ⟨[env.temp, env.vectorPrefix], [env.vectorPrefix, env.temp]⟩
        | _ => ⟨[env.temp, env.vectorPrefix], []⟩ := rfl

/-- Once both strings are allocated, no path frees them. -/
theorem strings_leaked (hfound : foundChain s bitmap = 0) (htemp : env.temp ≠ 0)
    (hpre : env.vectorPrefix ≠ 0) :
    addVectorStrings s bitmap env = ⟨[env.temp, env.vectorPrefix], []⟩ := by
  rw [addVectorStrings_eq, if_neg (not_not_intro hfound), if_neg htemp, if_neg hpre]
  split
  · rename_i hadd
    cases addBranches_not_jumped hadd
  · rfl

theorem addVectorStrings_perm
    (h : ¬(foundChain s bitmap = 0 ∧ env.temp ≠ 0 ∧ env.vectorPrefix ≠ 0)) :
    (addVectorStrings s bitmap env).freed.Perm (addVectorStrings s bitmap env).allocated := by
  rw [addVectorStrings_eq]
  by_cases hfound : foundChain s bitmap = 0
  · rw [if_neg (not_not_intro hfound)]
    by_cases htemp : env.temp = 0
    · rw [if_pos htemp]
    · have hpre : env.vectorPrefix = 0 := by
        by_contra hpre
        exact h ⟨hfound, htemp, hpre⟩
      rw [if_neg htemp, if_pos hpre]
  · rw [if_pos hfound]

theorem createBuffers_eq (hbuf : env.buf ≠ 0) :
    customIoctlBuffers s current IOCTL_CREATE_FROM_BITMAP param env =
      if !env.copyFromUser then freeVectorName [env.buf, env.kernelBitmap] ⟨[], []⟩
      else if validateBitmap param.userBitmap ≠ 0 then
        freeVectorName [env.buf, env.kernelBitmap] ⟨[], []⟩
      else freeVectorName [env.buf, env.kernelBitmap]
        (addVectorStrings (getModule s .ioctlModule) param.userBitmap env) := by
  rw [customIoctlBuffers, if_neg hbuf, if_neg (by decide), if_neg (by decide),
    if_neg (by decide), if_pos rfl]
  rfl

theorem createBuffers_leaked (h : Builds s IOCTL_CREATE_FROM_BITMAP param env) :
    customIoctlBuffers s current IOCTL_CREATE_FROM_BITMAP param env =
      ⟨[env.buf, env.kernelBitmap, env.temp, env.vectorPrefix],
        [env.buf, env.kernelBitmap]⟩ := by
  have hstrings := strings_leaked (s := getModule s .ioctlModule) h.notFound h.temp h.vectorPrefix
  rw [createBuffers_eq h.read.buf, if_neg (by simp [h.read.copied]),
    if_neg (not_not_intro h.valid), hstrings]
  rfl

theorem createBuffers_perm (hbuf : env.buf ≠ 0) (hbitmap : env.kernelBitmap ≠ 0)
    (h : ¬Builds s IOCTL_CREATE_FROM_BITMAP param env) :
    (customIoctlBuffers s current IOCTL_CREATE_FROM_BITMAP param env).freed.Perm
      (customIoctlBuffers s current IOCTL_CREATE_FROM_BITMAP param env).allocated := by
  rw [createBuffers_eq hbuf]
  by_cases hcopy : env.copyFromUser = true
  · rw [if_neg (by simp [hcopy])]
    by_cases hvalid : validateBitmap param.userBitmap = 0
    · rw [if_neg (not_not_intro hvalid)]
      refine freeVectorName_perm _ (addVectorStrings_perm ?_)
      rintro ⟨hfound, htemp, hpre⟩
      exact h ⟨rfl, ⟨hbuf, hbitmap, hcopy⟩, hvalid, hfound, htemp, hpre⟩
    · rw [if_pos hvalid]
      exact freeVectorName_perm _ (.refl _)
  · rw [if_pos (by simpa using hcopy)]
    exact freeVectorName_perm _ (.refl _)

/-! ## The requests -/

/-- A call that leaves the chains alone has no nodes to answer for. -/
theorem TemporariesFreed.of_heap {use : StringUse} (hheap : result.state.heap = s.heap) :
    TemporariesFreed s result use ↔ use.freed.Perm use.allocated := by
  refine ⟨fun h => h.buffers, fun h => ⟨h, fun a ha hne => ?_⟩⟩
  rw [hheap] at hne
  exact absurd ha hne

theorem temporaries_name_iff (hreq : request = IOCTL_SET ∨ request = IOCTL_REMOVE)
    (hbuf : env.buf ≠ 0) (h : customIoctl s current request param env = .ok result) :
    TemporariesFreed s result (customIoctlBuffers s current request param env) ↔
      Good env.vectorName := by
  obtain ⟨result', hcall, hheap⟩ := customIoctl_name_returns s current param hreq hbuf
  rw [hcall] at h
  cases h
  rw [TemporariesFreed.of_heap hheap]
  by_cases hgood : Good env.vectorName
  · refine iff_of_true ?_ hgood
    rcases hreq with rfl | rfl
    · rw [customIoctlBuffers, if_neg hbuf, if_pos rfl]
      exact ioctlSetBuffers_perm hgood
    · rw [customIoctlBuffers, if_neg hbuf, if_neg (by decide), if_pos rfl]
      exact ioctlRemoveBuffers_perm hgood
  · refine iff_of_false (fun hperm => ?_) hgood
    rw [nameBuffers_leaked hreq hbuf hgood] at hperm
    exact absurd hperm.length_eq (by decide : (0 : Nat) ≠ 1)

theorem temporaries_create_iff (hbuf : env.buf ≠ 0)
    (h : customIoctl s current IOCTL_CREATE_FROM_BITMAP param env = .ok result) :
    TemporariesFreed s result
        (customIoctlBuffers s current IOCTL_CREATE_FROM_BITMAP param env) ↔
      ¬Builds s IOCTL_CREATE_FROM_BITMAP param env := by
  cases createTrace h with
  | built hbuilds =>
    refine iff_of_false (fun hfreed => ?_) (not_not_intro hbuilds)
    have hlength := hfreed.buffers.length_eq
    rw [createBuffers_leaked hbuilds] at hlength
    exact absurd hlength (by decide : (2 : Nat) ≠ 4)
  | kept hnot _ hheap =>
    have hbitmap : env.kernelBitmap ≠ 0 := by
      intro hnull
      rw [customIoctl_createRequest hbuf, ioctlCreateFromBitmap, if_pos hnull] at h
      cases h
    exact iff_of_true ⟨createBuffers_perm hbuf hbitmap hnot, fun a ha hne =>
      absurd (hheap a ha) hne⟩ hnot

theorem temporaries_show (hbuf : env.buf ≠ 0) (hset : request ≠ IOCTL_SET)
    (hremove : request ≠ IOCTL_REMOVE) (hcreate : request ≠ IOCTL_CREATE_FROM_BITMAP)
    (h : customIoctl s current request param env = .ok result) :
    TemporariesFreed s result (customIoctlBuffers s current request param env) := by
  rw [TemporariesFreed.of_heap (by rw [customIoctl_show hset hremove hcreate h]),
    customIoctlBuffers, if_neg hbuf, if_neg hset, if_neg hremove]
  split
  · exact freeVectorName_perm _ (.refl _)
  · exact freeVectorName_perm _ (.refl _)

/-- A call that returns has freed its temporary memory if and only if it is not a request by
name without memory for the name, and not one that builds a chain. -/
theorem temporaries_freed_iff
    (h : customIoctl s current request param env = .ok result) :
    TemporariesFreed s result (customIoctlBuffers s current request param env) ↔
      Frees s request param env := by
  by_cases hbuf : env.buf = 0
  · have hsame : result.state.heap = s.heap := by
      rw [customIoctl_noBuffer hbuf] at h
      cases h
      rfl
    rw [TemporariesFreed.of_heap hsame, customIoctlBuffers, if_pos hbuf]
    exact iff_of_true (.refl _) (.inl hbuf)
  · rw [Frees, or_iff_right hbuf]
    by_cases hname : request = IOCTL_SET ∨ request = IOCTL_REMOVE
    · rw [temporaries_name_iff hname hbuf h, imp_iff_right hname]
      refine (and_iff_left fun hbuilds => ?_).symm
      rw [hbuilds.request] at hname
      exact absurd hname (by decide)
    · by_cases hcreate : request = IOCTL_CREATE_FROM_BITMAP
      · subst hcreate
        rw [temporaries_create_iff hbuf h]
        exact (and_iff_right fun hreq => absurd hreq hname).symm
      · push Not at hname
        refine iff_of_true (temporaries_show hbuf hname.1 hname.2 hcreate h) ⟨?_, ?_⟩
        · rintro (hset | hremove)
          · exact absurd hset hname.1
          · exact absurd hremove hname.2
        · exact fun hbuilds => hcreate hbuilds.request

end

/-- Setting a vector right after boot. -/
theorem temporaries_freed_set :
    ∃ result, customIoctl sampleBoot task1 IOCTL_SET (nameParam vector1Name) (sampleEnv 12288) =
        .ok result ∧
      TemporariesFreed sampleBoot result (customIoctlBuffers sampleBoot task1 IOCTL_SET
        (nameParam vector1Name) (sampleEnv 12288)) := by
  obtain ⟨result, hcall⟩ : ∃ result, customIoctl sampleBoot task1 IOCTL_SET
      (nameParam vector1Name) (sampleEnv 12288) = .ok result := ⟨_, rfl⟩
  refine ⟨result, hcall, (temporaries_freed_iff hcall).mpr (.inr ⟨fun _ => by decide, ?_⟩)⟩
  exact fun hbuilds => absurd hbuilds.request (by decide)

/-- The first creation after boot, with every allocation successful, keeps its two strings. -/
theorem temporaries_kept :
    ¬∀ s current request param env result, FreshNodes s.heap env.node → AllocSucceed env →
      customIoctl s current request param env = .ok result →
      TemporariesFreed s result (customIoctlBuffers s current request param env) := by
  intro hall
  obtain ⟨result, hcall⟩ : ∃ result, customIoctl sampleBoot task1 IOCTL_CREATE_FROM_BITMAP
      (bitmapParam 1) (sampleEnv 12288) = .ok result := ⟨_, rfl⟩
  have hfreed := hall sampleBoot task1 IOCTL_CREATE_FROM_BITMAP (bitmapParam 1) (sampleEnv 12288)
    result freshNodes_sampleBoot allocSucceed_sampleEnv hcall
  exact absurd hfreed.buffers.length_eq (by decide)

end SyscallVector.Audit
