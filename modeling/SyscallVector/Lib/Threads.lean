import Mathlib.Logic.Hydra
import SyscallVector.Lib.Transition

/-!
# Threads that take locks

A thread is a sequence of statements, each atomic, and between them it takes and releases
locks. Threads run in any order; one that wants a lock waits until nobody has it. When every
thread takes its locks in the order of a rank and releases them in the opposite order, threads
wait for each other only because some thread has ended with a lock (`Ordered.stopped`), and
the threads of a finite family stop after finitely many statements whatever the order
(`step_wellFounded`).
-/
namespace SyscallVector.Lib

set_option autoImplicit false

universe u v w x
variable {τ : Type u} {Λ : Type v} {σ : Type w} {ρ : Type x}

/-- What a thread still has to do. Each statement changes the state, and the thread goes on
with what the statement has read. -/
inductive Thread (Λ : Type v) (σ : Type w) (ρ : Type x) where
  | ret (result : ρ)
  | act (update : σ → σ) (next : σ → Thread Λ σ ρ)
  | lock (l : Λ) (next : Thread Λ σ ρ)
  | unlock (l : Λ) (next : Thread Λ σ ρ)

/-- The shared state, who has which lock, and what is left of each thread. -/
structure Machine (τ : Type u) (Λ : Type v) (σ : Type w) (ρ : Type x) where
  shared : σ
  owner : Λ → Option τ
  thread : τ → Thread Λ σ ρ

/-- All locks are free. -/
def Machine.start (s : σ) (thread : τ → Thread Λ σ ρ) : Machine τ Λ σ ρ :=
  ⟨s, fun _ => none, thread⟩

section
variable [DecidableEq τ] [DecidableEq Λ]

/-- The next statement of a thread, if it has one and does not wait. -/
def Machine.step (c : Machine τ Λ σ ρ) (t : τ) : Option (Machine τ Λ σ ρ) :=
  match c.thread t with
  | .ret _ => none
  | .act update next =>
    some ⟨update c.shared, c.owner, Function.update c.thread t (next c.shared)⟩
  | .lock l next =>
    if c.owner l = none then
      some ⟨c.shared, Function.update c.owner l (some t), Function.update c.thread t next⟩
    else none
  | .unlock l next =>
    some ⟨c.shared, Function.update c.owner l none, Function.update c.thread t next⟩

/-- The machines that some order of the threads leads to. -/
abbrev Machine.Reaches (c d : Machine τ Λ σ ρ) : Prop := Run Machine.step (fun _ _ => True) c d

/-- No thread can go on. -/
def Machine.Stopped (c : Machine τ Λ σ ρ) : Prop := ∀ t, c.step t = none

variable {c d : Machine τ Λ σ ρ} {t u : τ} {l : Λ} {r : ρ} {update : σ → σ}
  {next : σ → Thread Λ σ ρ} {p : Thread Λ σ ρ}

theorem Machine.step_ret (h : c.thread t = .ret r) : c.step t = none := by
  rw [step, h]

theorem Machine.step_act (h : c.thread t = .act update next) :
    c.step t = some ⟨update c.shared, c.owner, Function.update c.thread t (next c.shared)⟩ := by
  rw [step, h]

theorem Machine.step_lock (h : c.thread t = .lock l p) (hfree : c.owner l = none) :
    c.step t =
      some ⟨c.shared, Function.update c.owner l (some t), Function.update c.thread t p⟩ := by
  rw [step, h]
  exact if_pos hfree

theorem Machine.step_unlock (h : c.thread t = .unlock l p) :
    c.step t =
      some ⟨c.shared, Function.update c.owner l none, Function.update c.thread t p⟩ := by
  rw [step, h]

/-- A thread that cannot go on has ended or waits for a lock. -/
theorem Machine.step_eq_none (h : c.step t = none) :
    (∃ r, c.thread t = .ret r) ∨ ∃ l p u, c.thread t = .lock l p ∧ c.owner l = some u := by
  cases hp : c.thread t with
  | ret r => exact .inl ⟨r, rfl⟩
  | act update next =>
    rw [step_act hp] at h
    cases h
  | lock l p =>
    cases howner : c.owner l with
    | none =>
      rw [step_lock hp howner] at h
      cases h
    | some u => exact .inr ⟨l, p, u, rfl, howner⟩
  | unlock l p =>
    rw [step_unlock hp] at h
    cases h

/-- What a step does: a statement, or a lock taken or released. -/
theorem Machine.step_cases (h : c.step t = some d) :
    (∃ update next, c.thread t = .act update next ∧
        d = ⟨update c.shared, c.owner, Function.update c.thread t (next c.shared)⟩) ∨
      (∃ l p, c.thread t = .lock l p ∧ c.owner l = none ∧
        d = ⟨c.shared, Function.update c.owner l (some t), Function.update c.thread t p⟩) ∨
      ∃ l p, c.thread t = .unlock l p ∧
        d = ⟨c.shared, Function.update c.owner l none, Function.update c.thread t p⟩ := by
  cases hp : c.thread t with
  | ret r =>
    rw [step_ret hp] at h
    cases h
  | act update next =>
    rw [step_act hp] at h
    exact .inl ⟨update, next, rfl, (Option.some.inj h).symm⟩
  | lock l p =>
    rw [step, hp] at h
    obtain ⟨hfree, hd⟩ := Option.ite_none_right_eq_some.mp h
    exact .inr (.inl ⟨l, p, rfl, hfree, (Option.some.inj hd).symm⟩)
  | unlock l p =>
    rw [step_unlock hp] at h
    exact .inr (.inr ⟨l, p, rfl, (Option.some.inj h).symm⟩)

theorem Machine.step_other (h : c.step t = some d) (hne : u ≠ t) : d.thread u = c.thread u := by
  obtain ⟨update, next, -, rfl⟩ | ⟨l, p, -, -, rfl⟩ | ⟨l, p, -, rfl⟩ := step_cases h
  · exact Function.update_of_ne hne ..
  · exact Function.update_of_ne hne ..
  · exact Function.update_of_ne hne ..

/-! ## Termination -/

/-- What is left of a thread after one statement. -/
inductive Thread.Rest : Thread Λ σ ρ → Thread Λ σ ρ → Prop where
  | act (update : σ → σ) (next : σ → Thread Λ σ ρ) (s : σ) : Rest (next s) (.act update next)
  | lock (l : Λ) (p : Thread Λ σ ρ) : Rest p (.lock l p)
  | unlock (l : Λ) (p : Thread Λ σ ρ) : Rest p (.unlock l p)

omit [DecidableEq τ] [DecidableEq Λ] in
theorem Thread.rest_wellFounded : WellFounded (Thread.Rest (Λ := Λ) (σ := σ) (ρ := ρ)) := by
  refine ⟨fun p => ?_⟩
  induction p with
  | ret r => exact ⟨_, fun q hq => by cases hq⟩
  | act update next ih =>
    refine ⟨_, fun q hq => ?_⟩
    cases hq with
    | act _ _ s => exact ih s
  | lock l p ih =>
    refine ⟨_, fun q hq => ?_⟩
    cases hq
    exact ih
  | unlock l p ih =>
    refine ⟨_, fun q hq => ?_⟩
    cases hq
    exact ih

theorem Machine.step_rest (h : c.step t = some d) :
    ∃ q, q.Rest (c.thread t) ∧ d.thread = Function.update c.thread t q := by
  obtain ⟨update, next, hp, rfl⟩ | ⟨l, p, hp, -, rfl⟩ | ⟨l, p, hp, rfl⟩ := step_cases h
  · exact ⟨_, hp ▸ .act update next c.shared, rfl⟩
  · exact ⟨p, hp ▸ .lock l p, rfl⟩
  · exact ⟨p, hp ▸ .unlock l p, rfl⟩

/-- No order of finitely many threads goes on for ever. -/
theorem Machine.step_wellFounded [Fintype τ] :
    WellFounded fun d c : Machine τ Λ σ ρ => ∃ t, c.step t = some d := by
  let left (c : Machine τ Λ σ ρ) : Multiset (Thread Λ σ ρ) := Finset.univ.val.map c.thread
  refine Subrelation.wf ?_ (InvImage.wf left Thread.rest_wellFounded.cutExpand)
  rintro d c ⟨t, h⟩
  obtain ⟨q, hq, hthread⟩ := step_rest h
  have hsplit : t ::ₘ (Finset.univ.erase t).val = (Finset.univ : Finset τ).val := by
    rw [Finset.erase_val]
    exact Multiset.cons_erase (Finset.mem_univ t)
  have hothers : (Finset.univ.erase t).val.map d.thread = (Finset.univ.erase t).val.map c.thread :=
    Multiset.map_congr rfl fun u hu => step_other h (Finset.ne_of_mem_erase hu)
  have hd : left d = {q} + (Finset.univ.erase t).val.map c.thread := by
    change Finset.univ.val.map d.thread = _
    rw [← hsplit, Multiset.map_cons, hothers, hthread, Function.update_self,
      Multiset.singleton_add]
  have hc : left c = {c.thread t} + (Finset.univ.erase t).val.map c.thread := by
    change Finset.univ.val.map c.thread = _
    rw [← hsplit, Multiset.map_cons, Multiset.singleton_add]
  change Relation.CutExpand _ (left d) (left c)
  rw [hd, hc]
  exact Relation.cutExpand_single_add hq _

/-- The threads of a finite family can always be run until none of them can go on. -/
theorem Machine.exists_stopped [Fintype τ] (c : Machine τ Λ σ ρ) :
    ∃ d, c.Reaches d ∧ d.Stopped := by
  refine step_wellFounded.induction (C := fun c => ∃ d, c.Reaches d ∧ d.Stopped) c ?_
  intro c ih
  by_cases hstopped : c.Stopped
  · exact ⟨c, .refl, hstopped⟩
  · obtain ⟨t, ht⟩ := not_forall.mp hstopped
    obtain ⟨d, hd⟩ := Option.ne_none_iff_exists'.mp ht
    obtain ⟨e, hreaches, he⟩ := ih d ⟨t, hd⟩
    have hfirst : c.Reaches d := Run.single trivial hd
    exact ⟨e, hfirst.trans hreaches, he⟩

/-! ## What every statement keeps -/

/-- Every statement of the thread keeps a property of the state. -/
inductive Thread.Keeps (I : σ → Prop) : Thread Λ σ ρ → Prop where
  | ret (result : ρ) : Keeps I (.ret result)
  | act {update : σ → σ} {next : σ → Thread Λ σ ρ} : (∀ s, I s → I (update s)) →
      (∀ s, Keeps I (next s)) → Keeps I (.act update next)
  | lock {l : Λ} {p : Thread Λ σ ρ} : Keeps I p → Keeps I (.lock l p)
  | unlock {l : Λ} {p : Thread Λ σ ρ} : Keeps I p → Keeps I (.unlock l p)

variable {I : σ → Prop}

theorem Thread.Keeps.step (h : (c.thread t).Keeps I) (hstep : c.step t = some d) :
    (d.thread t).Keeps I ∧ (I c.shared → I d.shared) := by
  obtain ⟨update, next, hp, rfl⟩ | ⟨k, p, hp, -, rfl⟩ | ⟨k, p, hp, rfl⟩ := Machine.step_cases hstep
  · rw [hp] at h
    cases h with
    | act hupdate hnext => exact ⟨by simpa using hnext c.shared, hupdate c.shared⟩
  · rw [hp] at h
    cases h with
    | lock hnext => exact ⟨by simpa using hnext, id⟩
  · rw [hp] at h
    cases h with
    | unlock hnext => exact ⟨by simpa using hnext, id⟩

/-- What the statements of all threads keep, those that are left keep in every order. -/
theorem Machine.Reaches.thread_keeps (hthreads : ∀ t, (c.thread t).Keeps I)
    (hrun : c.Reaches d) (t : τ) : (d.thread t).Keeps I := by
  refine hrun.invariant (fun d => ∀ t, (d.thread t).Keeps I) ?_ hthreads t
  intro b v e hb _ hstep t
  by_cases htv : t = v
  · exact htv ▸ ((hb v).step hstep).1
  · rw [Machine.step_other hstep htv]
    exact hb t

theorem Machine.Reaches.keeps (hthreads : ∀ t, (c.thread t).Keeps I) (hs : I c.shared)
    (hrun : c.Reaches d) : I d.shared := by
  induction hrun with
  | refl => exact hs
  | @next b e v hreaches _ hstep ih =>
    exact ((Machine.Reaches.thread_keeps hthreads hreaches v).step hstep).2 ih

/-! ## Locks in order -/

/-- The thread, which has the locks of the list, last taken first, takes further ones in the
order of the rank, releases each one before those that it took earlier, and ends as allowed. -/
inductive Nested (rank : Λ → Nat) (ends : List Λ → ρ → Prop) : List Λ → Thread Λ σ ρ → Prop where
  | ret {held : List Λ} {r : ρ} : ends held r → Nested rank ends held (.ret r)
  | act {held : List Λ} {update : σ → σ} {next : σ → Thread Λ σ ρ} :
      (∀ s, Nested rank ends held (next s)) → Nested rank ends held (.act update next)
  | lock {held : List Λ} {l : Λ} {p : Thread Λ σ ρ} : (∀ h ∈ held, rank h < rank l) →
      Nested rank ends (l :: held) p → Nested rank ends held (.lock l p)
  | unlock {held : List Λ} {l : Λ} {p : Thread Λ σ ρ} :
      Nested rank ends held p → Nested rank ends (l :: held) (.unlock l p)

variable {rank : Λ → Nat} {ends : List Λ → ρ → Prop} {held : τ → List Λ} {mine : List Λ}

omit [DecidableEq τ] [DecidableEq Λ] in
theorem Nested.of_ret (h : Nested (σ := σ) rank ends mine (.ret r)) : ends mine r := by
  cases h with
  | ret hends => exact hends

omit [DecidableEq τ] [DecidableEq Λ] in
theorem Nested.of_act (h : Nested rank ends mine (.act update next)) (s : σ) :
    Nested rank ends mine (next s) := by
  cases h with
  | act hnext => exact hnext s

omit [DecidableEq τ] [DecidableEq Λ] in
theorem Nested.of_lock (h : Nested rank ends mine (.lock l p)) :
    (∀ k ∈ mine, rank k < rank l) ∧ Nested rank ends (l :: mine) p := by
  cases h with
  | lock hrank hnext => exact ⟨hrank, hnext⟩

omit [DecidableEq τ] [DecidableEq Λ] in
theorem Nested.of_unlock (h : Nested rank ends mine (.unlock l p)) :
    ∃ rest, mine = l :: rest ∧ Nested rank ends rest p := by
  cases h with
  | unlock hnext => exact ⟨_, rfl, hnext⟩

/-- Every thread has the locks that are written down for it, and nobody else has them. -/
structure Ordered (rank : Λ → Nat) (ends : τ → List Λ → ρ → Prop) (c : Machine τ Λ σ ρ)
    (held : τ → List Λ) : Prop where
  nested : ∀ t, Nested rank (ends t) (held t) (c.thread t)
  sorted : ∀ t, (held t).Pairwise fun a b => rank b < rank a
  owns : ∀ l t, c.owner l = some t ↔ l ∈ held t

variable {ends : τ → List Λ → ρ → Prop}

omit [DecidableEq τ] [DecidableEq Λ] in
theorem Ordered.start {s : σ} {thread : τ → Thread Λ σ ρ}
    (h : ∀ t, Nested rank (ends t) [] (thread t)) :
    Ordered rank ends (Machine.start s thread) fun _ => [] where
  nested := h
  sorted _ := .nil
  owns l t := by simp [Machine.start]

/-- A lock that is taken comes first. -/
theorem Ordered.taken (h : Ordered rank ends c held) (hp : c.thread t = .lock l p)
    (hfree : c.owner l = none) :
    Ordered rank ends
      ⟨c.shared, Function.update c.owner l (some t), Function.update c.thread t p⟩
      (Function.update held t (l :: held t)) := by
  obtain ⟨hrank, hnext⟩ := (hp ▸ h.nested t).of_lock
  refine ⟨fun u => ?_, fun u => ?_, fun k u => ?_⟩
  · by_cases hu : u = t
    · subst hu
      simpa using hnext
    · simpa [Function.update_of_ne hu] using h.nested u
  · by_cases hu : u = t
    · subst hu
      simpa using ⟨hrank, h.sorted u⟩
    · simpa [Function.update_of_ne hu] using h.sorted u
  · have hnobody : ∀ v, l ∉ held v := fun v hv => by
      rw [(h.owns l v).mpr hv] at hfree
      cases hfree
    by_cases hk : k = l
    · subst hk
      by_cases hu : u = t
      · simp [hu]
      · simp [Function.update_of_ne hu, hnobody u, Ne.symm hu]
    · by_cases hu : u = t
      · subst hu
        simpa [Function.update_of_ne hk, hk] using h.owns k u
      · simpa [Function.update_of_ne hk, Function.update_of_ne hu] using h.owns k u

/-- The lock that is released was the last one taken. -/
theorem Ordered.released (h : Ordered rank ends c held) (hp : c.thread t = .unlock l p) :
    ∃ rest, held t = l :: rest ∧ Ordered rank ends
      ⟨c.shared, Function.update c.owner l none, Function.update c.thread t p⟩
      (Function.update held t rest) := by
  obtain ⟨rest, hheld, hnext⟩ := (hp ▸ h.nested t).of_unlock
  have hsorted := h.sorted t
  rw [hheld, List.pairwise_cons] at hsorted
  have hgone : l ∉ rest := fun hmem => Nat.lt_irrefl _ (hsorted.1 l hmem)
  refine ⟨rest, hheld, fun u => ?_, fun u => ?_, fun k u => ?_⟩
  · by_cases hu : u = t
    · subst hu
      simpa using hnext
    · simpa [Function.update_of_ne hu] using h.nested u
  · by_cases hu : u = t
    · subst hu
      simpa using hsorted.2
    · simpa [Function.update_of_ne hu] using h.sorted u
  · by_cases hk : k = l
    · subst hk
      by_cases hu : u = t
      · subst hu
        simpa using hgone
      · have hother : k ∉ held u := fun hmem => by
          have hmine : c.owner k = some t := (h.owns k t).mpr (by simp [hheld])
          rw [(h.owns k u).mpr hmem] at hmine
          exact hu (Option.some.inj hmine)
        simpa [Function.update_of_ne hu] using hother
    · by_cases hu : u = t
      · subst hu
        simpa [Function.update_of_ne hk, hheld, hk] using h.owns k u
      · simpa [Function.update_of_ne hk, Function.update_of_ne hu] using h.owns k u

theorem Ordered.step (h : Ordered rank ends c held) (hstep : c.step t = some d) :
    ∃ mine, Ordered rank ends d (Function.update held t mine) := by
  obtain ⟨update, next, hp, rfl⟩ | ⟨l, p, hp, hfree, rfl⟩ | ⟨l, p, hp, rfl⟩ :=
    Machine.step_cases hstep
  · refine ⟨held t, ?_⟩
    rw [Function.update_eq_self]
    refine ⟨fun u => ?_, h.sorted, h.owns⟩
    by_cases hu : u = t
    · subst hu
      simpa using (hp ▸ h.nested u).of_act c.shared
    · simpa [Function.update_of_ne hu] using h.nested u
  · exact ⟨_, h.taken hp hfree⟩
  · obtain ⟨rest, -, hreleased⟩ := h.released hp
    exact ⟨rest, hreleased⟩

theorem Ordered.reaches (h : Ordered rank ends c held) (hrun : c.Reaches d) :
    ∃ held', Ordered rank ends d held' :=
  hrun.invariant (fun d => ∃ held', Ordered rank ends d held')
    (fun _ _ _ ⟨_, hd⟩ _ hstep => (hd.step hstep).imp' _ fun _ hmine => hmine) ⟨held, h⟩

/-- A thread that waits for a lock, waits for one that has it and that has ended or waits for
a lock of higher rank. -/
theorem Ordered.waits (h : Ordered rank ends c held) (hstopped : c.Stopped)
    (hp : c.thread t = .lock l p) :
    ∃ u, l ∈ held u ∧
      ((∃ r, c.thread u = .ret r) ∨ ∃ l' p', c.thread u = .lock l' p' ∧ rank l < rank l') := by
  obtain ⟨r, hr⟩ | ⟨_, _, u, hp', howner⟩ := Machine.step_eq_none (hstopped t)
  · rw [hp] at hr
    cases hr
  · obtain ⟨rfl, rfl⟩ := Thread.lock.inj (hp.symm.trans hp')
    have hmem := (h.owns l u).mp howner
    refine ⟨u, hmem, ?_⟩
    obtain hr | ⟨l', p', -, hu, -⟩ := Machine.step_eq_none (hstopped u)
    · exact .inl hr
    · exact .inr ⟨l', p', hu, (hu ▸ h.nested u).of_lock.1 l hmem⟩

/-- When no thread can go on, each one that waits for a lock waits because some thread has
ended with a lock of that rank or a higher one. The recursion is on the ranks above. -/
theorem Ordered.stopped {top : Nat} {t : τ} {l : Λ} {p : Thread Λ σ ρ}
    (h : Ordered rank ends c held) (htop : ∀ l, rank l ≤ top) (hstopped : c.Stopped)
    (hp : c.thread t = .lock l p) :
    ∃ u r k, c.thread u = .ret r ∧ k ∈ held u ∧ rank l ≤ rank k := by
  obtain ⟨u, hmem, ⟨r, hr⟩ | ⟨l', p', hu, hlt⟩⟩ := h.waits hstopped hp
  · exact ⟨u, r, l, hr, hmem, Nat.le_refl _⟩
  · have hle := htop l'
    obtain ⟨v, r, k, hv, hk, hrank⟩ := Ordered.stopped h htop hstopped hu
    exact ⟨v, r, k, hv, hk, by omega⟩
termination_by top - rank l
decreasing_by omega

/-- A thread that has ended with a lock keeps it for good, and those that wait for the lock
wait for good. -/
theorem Ordered.dead (h : Ordered rank ends c held) (hu : c.thread u = .ret r)
    (hl : l ∈ held u) (hrun : c.Reaches d) :
    d.owner l = some u ∧ ∀ t p, c.thread t = .lock l p → d.thread t = .lock l p := by
  let Dead (d : Machine τ Λ σ ρ) : Prop := (∃ held', Ordered rank ends d held' ∧ l ∈ held' u) ∧
    d.thread u = .ret r ∧ ∀ t p, c.thread t = .lock l p → d.thread t = .lock l p
  have hstep : ∀ b v e, Dead b → True → b.step v = some e → Dead e := by
    rintro b v e ⟨⟨held', hb, hmem⟩, hret, hwait⟩ - hbe
    have hne : u ≠ v := by
      rintro rfl
      rw [Machine.step_ret hret] at hbe
      cases hbe
    obtain ⟨mine, he⟩ := hb.step hbe
    have hkeeps : l ∈ Function.update held' v mine u := by rwa [Function.update_of_ne hne]
    refine ⟨⟨_, he, hkeeps⟩, (Machine.step_other hbe hne).trans hret, fun t p ht => ?_⟩
    have htv : t ≠ v := by
      rintro rfl
      have howner := (hb.owns l u).mpr hmem
      obtain ⟨_, _, hp, -⟩ | ⟨_, _, hp, hfree, -⟩ | ⟨_, _, hp, -⟩ := Machine.step_cases hbe
      · cases (hwait t p ht).symm.trans hp
      · obtain ⟨rfl, -⟩ := Thread.lock.inj ((hwait t p ht).symm.trans hp)
        rw [howner] at hfree
        cases hfree
      · cases (hwait t p ht).symm.trans hp
    exact (Machine.step_other hbe htv).trans (hwait t p ht)
  obtain ⟨⟨held', hd, hmem⟩, -, hwait⟩ :=
    hrun.invariant Dead hstep ⟨⟨held, h, hl⟩, hu, fun _ _ ht => ht⟩
  exact ⟨(hd.owns l u).mpr hmem, hwait⟩

/-! ## Locks that are taken once -/

/-- The thread never takes the lock. -/
inductive Thread.Avoids (l : Λ) : Thread Λ σ ρ → Prop where
  | ret (result : ρ) : Avoids l (.ret result)
  | act {update : σ → σ} {next : σ → Thread Λ σ ρ} : (∀ s, Avoids l (next s)) →
      Avoids l (.act update next)
  | lock {k : Λ} {p : Thread Λ σ ρ} : k ≠ l → Avoids l p → Avoids l (.lock k p)
  | unlock {k : Λ} {p : Thread Λ σ ρ} : Avoids l p → Avoids l (.unlock k p)

theorem Thread.Avoids.step (h : (c.thread t).Avoids l) (hstep : c.step t = some d) :
    (d.thread t).Avoids l := by
  obtain ⟨update, next, hp, rfl⟩ | ⟨k, p, hp, -, rfl⟩ | ⟨k, p, hp, rfl⟩ := Machine.step_cases hstep
  · rw [hp] at h
    cases h with
    | act hnext => simpa using hnext c.shared
  · rw [hp] at h
    cases h with
    | lock hk hnext => simpa using hnext
  · rw [hp] at h
    cases h with
    | unlock hnext => simpa using hnext

/-- Each thread takes the lock first of all, if ever: so one that wants it has done nothing
yet. -/
theorem Machine.Reaches.first {s : σ} {thread : τ → Thread Λ σ ρ}
    (hthread : ∀ t, (thread t).Avoids l ∨ ∃ p, thread t = .lock l p ∧ p.Avoids l)
    (hrun : (Machine.start s thread).Reaches c) (hp : c.thread t = .lock l p) :
    c.thread t = thread t := by
  have hinv : ∀ t, c.thread t = thread t ∨ (c.thread t).Avoids l := by
    refine hrun.invariant (fun c => ∀ t, c.thread t = thread t ∨ (c.thread t).Avoids l) ?_
      fun t => .inl rfl
    intro b v e hb _ hstep t
    by_cases htv : t = v
    · subst htv
      refine .inr ?_
      obtain hsame | havoids := hb t
      · obtain havoids | ⟨q, hq, havoids⟩ := hthread t
        · exact (hsame ▸ havoids).step hstep
        · have hlock : b.thread t = .lock l q := hsame.trans hq
          obtain ⟨_, _, hr, -⟩ | ⟨_, _, hr, -, rfl⟩ | ⟨_, _, hr, -⟩ := Machine.step_cases hstep
          · cases hlock.symm.trans hr
          · obtain ⟨rfl, rfl⟩ := Thread.lock.inj (hlock.symm.trans hr)
            simpa using havoids
          · cases hlock.symm.trans hr
      · exact havoids.step hstep
    · rw [Machine.step_other hstep htv]
      exact hb t
  obtain hsame | havoids := hinv t
  · exact hsame
  · rw [hp] at havoids
    cases havoids with
    | lock hne => exact absurd rfl hne

end

end SyscallVector.Lib
