import SyscallVector.Lib.Interleaving
import SyscallVector.Lib.Threads

/-!
# Critical sections are atomic

Functions hold one lock while they run, statement by statement, and the other threads go on
with statements that do not need the lock. A function reads, makes one update that counts,
and then makes late updates only, which commute with everything that others do and which no
other thread sees. The machine with these functions then does what the machine does in which
each of them is one statement and the lock does not exist (`sections_atomic`).
-/
namespace SyscallVector.Lib

set_option autoImplicit false

universe u v w x y z
variable {τ : Type u} {Λ : Type v} {σ : Type w} {ρ : Type x} {β : Type y}

/-- The statements of a function that has taken a lock, up to its release. -/
def Prog.under (l : Λ) (next : β → Thread Λ σ ρ) : Prog σ β → Thread Λ σ ρ
  | .ret result => .unlock l (next result)
  | .act update rest => .act update fun s => (rest s).under l next

/-! ## What the others may do -/

/-- `out` are the updates without the lock, `late` those at the end of a function that has
it. -/
structure Independent (out late : (σ → σ) → Prop) : Prop where
  commute : ∀ f g, out f → late g → ∀ s, f (g s) = g (f s)

/-- Updates that nobody else sees, and reads that nobody else disturbs. -/
inductive Tail (out late : (σ → σ) → Prop) : Prog σ β → Prop where
  | ret (result : β) : Tail out late (.ret result)
  | act {update : σ → σ} {next : σ → Prog σ β} : late update →
      (∀ f s, out f → next (f s) = next s) → (∀ s, Tail out late (next s)) →
      Tail out late (.act update next)

/-- Reads, then one update that does not disturb others, then what nobody else sees. -/
inductive Critical (out late : (σ → σ) → Prop) : Prog σ β → Prop where
  | tail {p : Prog σ β} : Tail out late p → Critical out late p
  | read {next : σ → Prog σ β} : (∀ f s, out f → next (f s) = next s) →
      (∀ s, Critical out late (next s)) → Critical out late (.act id next)
  | commit {update : σ → σ} {next : σ → Prog σ β} :
      (∀ f s, out f → f (update s) = update (f s)) → (∀ f s, out f → next (f s) = next s) →
      (∀ s, Tail out late (next s)) → Critical out late (.act update next)

section
variable {out late : (σ → σ) → Prop} {p : Prog σ β} {f : σ → σ}

/-- A function among updates of others: the updates of others do not change what it does. -/
def Undisturbed (out : (σ → σ) → Prop) (run : σ → σ × β) : Prop :=
  ∀ f s, out f → run (f s) = (f (run s).1, (run s).2)

theorem Tail.undisturbed (hindep : Independent out late) (h : Tail out late p) :
    Undisturbed out p.run := by
  intro f s hf
  induction h generalizing s with
  | ret result => rfl
  | act hlate hnext _ ih =>
    simp only [Prog.run]
    rw [hnext f s hf, ← hindep.commute f _ hf hlate]
    exact ih s _

/-- What is not changed by the late updates is not changed by a tail. -/
theorem Tail.blind {γ : Type z} {read : σ → γ} (hread : ∀ g s, late g → read (g s) = read s)
    (h : Tail out late p) (s : σ) : read (p.run s).1 = read s := by
  induction h generalizing s with
  | ret result => rfl
  | act hlate _ _ ih => exact (ih s _).trans (hread _ s hlate)

theorem Critical.undisturbed (hindep : Independent out late) (h : Critical out late p) :
    Undisturbed out p.run := by
  intro f s hf
  induction h generalizing s with
  | tail htail => exact htail.undisturbed hindep f s hf
  | read hnext _ ih =>
    simp only [Prog.run, id]
    rw [hnext f s hf]
    exact ih s _
  | commit hcommit hnext htail =>
    simp only [Prog.run]
    rw [hnext f s hf, ← hcommit f s hf]
    exact (htail s).undisturbed hindep f _ hf

end

/-! ## The two machines -/

/-- The second thread is the first one with each function that holds the lock as one
statement. Its other statements do not see the late updates. -/
inductive Lowers (l : Λ) (out late : (σ → σ) → Prop) : Thread Λ σ ρ → Thread Λ σ ρ → Prop where
  | ret (result : ρ) : Lowers l out late (.ret result) (.ret result)
  | act {update : σ → σ} {next next' : σ → Thread Λ σ ρ} : out update →
      (∀ g s, late g → next' (g s) = next' s) → (∀ s, Lowers l out late (next s) (next' s)) →
      Lowers l out late (.act update next) (.act update next')
  | lock {k : Λ} {p p' : Thread Λ σ ρ} : k ≠ l → Lowers l out late p p' →
      Lowers l out late (.lock k p) (.lock k p')
  | unlock {k : Λ} {p p' : Thread Λ σ ρ} : k ≠ l → Lowers l out late p p' →
      Lowers l out late (.unlock k p) (.unlock k p')
  | critical {β : Type} {body : Prog σ β} {next next' : β → Thread Λ σ ρ} :
      Critical out late body → (∀ b, Lowers l out late (next b) (next' b)) →
      Lowers l out late (.lock l (body.under l next))
        (.act (fun s => (body.run s).1) fun s => next' (body.run s).2)

/-- A thread inside a function that holds the lock: the function as one statement comes before
the update that counts, or it has come with it. -/
inductive Inside (l : Λ) (out late : (σ → σ) → Prop) (s : σ) :
    Thread Λ σ ρ → Thread Λ σ ρ → σ → Prop where
  | before {β : Type} {p : Prog σ β} {run : σ → σ × β} {next next' : β → Thread Λ σ ρ} :
      Critical out late p → Undisturbed out run → p.run s = run s →
      (∀ b, Lowers l out late (next b) (next' b)) →
      Inside l out late s (p.under l next)
        (.act (fun s => (run s).1) fun s => next' (run s).2) s
  | after {β : Type} {p : Prog σ β} {next next' : β → Thread Λ σ ρ} : Tail out late p →
      (∀ b, Lowers l out late (next b) (next' b)) →
      Inside l out late s (p.under l next) (next' (p.run s).2) (p.run s).1

/-- The second machine is as far as the first. -/
structure Abstracts (l : Λ) (out late : (σ → σ) → Prop) (c d : Machine τ Λ σ ρ) : Prop where
  owners : ∀ k, k ≠ l → d.owner k = c.owner k
  free : c.owner l = none → d.shared = c.shared
  outside : ∀ t, c.owner l ≠ some t →
    Lowers l out late (c.thread t) (d.thread t)
  inside : ∀ t, c.owner l = some t →
    Inside l out late c.shared (c.thread t) (d.thread t) d.shared

section
variable {l : Λ} {out late : (σ → σ) → Prop} {c d : Machine τ Λ σ ρ} {t : τ} {s S : σ}
  {p q : Thread Λ σ ρ} {f : σ → σ}

theorem Abstracts.start (hthreads : ∀ t, Lowers l out late (c.thread t) (d.thread t))
    (howner : c.owner l = none) (hothers : ∀ k, k ≠ l → d.owner k = c.owner k)
    (hshared : d.shared = c.shared) : Abstracts l out late c d where
  owners := hothers
  free _ := hshared
  outside t _ := hthreads t
  inside t h := by
    rw [howner] at h
    cases h

/-- What others do without the lock goes on beside a function that holds it. -/
theorem Inside.beside (hindep : Independent out late) (hf : out f) (h : Inside l out late s p q S) :
    Inside l out late (f s) p q (f S) := by
  cases h with
  | before hp hrun hsame hnext =>
    refine .before hp hrun ?_ hnext
    rw [hp.undisturbed hindep f s hf, hrun f s hf, hsame]
  | @after _ p _ _ hp hnext =>
    have h := Inside.after (s := f s) hp hnext
    rwa [hp.undisturbed hindep f s hf] at h

/-- What others read is the same before and after the late updates. -/
theorem Inside.blind {γ : Type z} {read : σ → γ} (hread : ∀ g s, late g → read (g s) = read s)
    (h : Inside l out late s p q S) : read S = read s := by
  cases h with
  | before => rfl
  | after hp => exact hp.blind hread s

/-- A thread inside a function goes on without waiting. -/
theorem Inside.goes (h : Inside l out late s p q S) :
    (∃ update next, p = .act update next) ∨ ∃ next, p = .unlock l next := by
  have hunder {β : Type} {next : β → Thread Λ σ ρ} (p : Prog σ β) :
      (∃ update rest, p.under l next = .act update rest) ∨
        ∃ rest, p.under l next = .unlock l rest := by
    cases p with
    | ret result => exact .inr ⟨_, rfl⟩
    | act update rest => exact .inl ⟨update, _, rfl⟩
  cases h with
  | before => exact hunder _
  | after => exact hunder _

theorem Lowers.of_ret {r : ρ} (h : Lowers l out late p (.ret r)) : p = .ret r := by
  cases h
  rfl

theorem Lowers.of_lock {k : Λ} (hk : k ≠ l) (h : Lowers l out late (.lock k p) q) :
    ∃ p', q = .lock k p' := by
  cases h with
  | lock => exact ⟨_, rfl⟩
  | critical => exact absurd rfl hk

variable [DecidableEq τ] [DecidableEq Λ] {c' : Machine τ Λ σ ρ} {p' q' : Thread Λ σ ρ} {s' S' : σ}

omit [DecidableEq Λ] in
/-- The thread that has the lock goes on, and keeps it. -/
theorem Abstracts.holder (h : Abstracts l out late c d) (howner : c.owner l = some t)
    (hin : Inside l out late s' p' q' S') :
    Abstracts l out late ⟨s', c.owner, Function.update c.thread t p'⟩
      ⟨S', d.owner, Function.update d.thread t q'⟩ := by
  refine ⟨h.owners, fun hfree => ?_, fun u hu => ?_, fun u hu => ?_⟩
  · rw [howner] at hfree
    cases hfree
  · have hne : u ≠ t := by
      rintro rfl
      exact hu howner
    simpa [Function.update_of_ne hne] using h.outside u hu
  · obtain rfl : t = u := Option.some.inj (howner.symm.trans hu)
    simpa using hin

/-- The thread that has the lock releases it. -/
theorem Abstracts.released (h : Abstracts l out late c d) (howner : c.owner l = some t)
    (hshared : d.shared = c.shared) (hp : Lowers l out late p' (d.thread t)) :
    Abstracts l out late
      ⟨c.shared, Function.update c.owner l none, Function.update c.thread t p'⟩ d := by
  refine ⟨fun k hk => ?_, fun _ => hshared, fun u _ => ?_, fun u hu => ?_⟩
  · rw [h.owners k hk]
    exact (Function.update_of_ne hk ..).symm
  · by_cases hu : u = t
    · subst hu
      simpa using hp
    · have hnot : c.owner l ≠ some u := fun howns =>
        hu (Option.some.inj (howns.symm.trans howner))
      simpa [Function.update_of_ne hu] using h.outside u hnot
  · simp at hu

/-- Once its update has come, the second machine waits for the end of the function. -/
theorem Abstracts.tail {β : Type} {next next' : β → Thread Λ σ ρ} {p : Prog σ β}
    (h : Abstracts l out late c d) (howner : c.owner l = some t) (hp : Tail out late p)
    (hnext : ∀ b, Lowers l out late (next b) (next' b)) (hc : c.thread t = p.under l next)
    (hd : d.thread t = next' (p.run c.shared).2) (hshared : d.shared = (p.run c.shared).1)
    (hstep : c.step t = some c') : Abstracts l out late c' d := by
  cases hp with
  | ret result =>
    rw [Machine.step_unlock hc] at hstep
    obtain rfl := Option.some.inj hstep
    exact h.released howner hshared (hd ▸ hnext result)
  | @act update rest hlate hrest htail =>
    rw [Machine.step_act hc] at hstep
    obtain rfl := Option.some.inj hstep
    have hin := Inside.after (s := update c.shared) (htail c.shared) hnext
    have h' := h.holder howner hin
    have hsame : (⟨((rest c.shared).run (update c.shared)).1, d.owner,
        Function.update d.thread t (next' ((rest c.shared).run (update c.shared)).2)⟩ :
          Machine τ Λ σ ρ) = d := by
      obtain ⟨shared, owner, thread⟩ := d
      obtain rfl : shared = _ := hshared
      have hthread : thread t = next' ((rest c.shared).run (update c.shared)).2 := hd
      rw [← hthread, Function.update_eq_self]
      rfl
    rwa [hsame] at h'

/-- A statement of the thread that has the lock. -/
theorem Abstracts.step_inside (h : Abstracts l out late c d) (howner : c.owner l = some t)
    (hstep : c.step t = some c') : ∃ d', d.Reaches d' ∧ Abstracts l out late c' d' := by
  have hin := h.inside t howner
  generalize hc : c.thread t = p at hin
  generalize hd : d.thread t = q at hin
  generalize hS : d.shared = S at hin
  cases hin with
  | @before _ p run next next' hp hrun hsame hnext =>
    have hact := Machine.step_act hd
    rw [hS, ← hsame] at hact
    have hfirst : d.Reaches _ := Run.single trivial hact
    cases hp with
    | tail htail =>
      have h' := h.holder howner (.after (s := c.shared) htail hnext)
      rw [← hc, Function.update_eq_self] at h'
      refine ⟨_, hfirst, h'.tail howner htail hnext hc ?_ rfl hstep⟩
      exact Function.update_self ..
    | @read rest hrest hcritical =>
      rw [Machine.step_act hc] at hstep
      obtain rfl := Option.some.inj hstep
      have h' := h.holder howner (.before (hcritical c.shared) hrun hsame hnext)
      have hsame : (⟨id c.shared, d.owner, d.thread⟩ : Machine τ Λ σ ρ) = d := by rw [id, ← hS]
      rw [← hd, Function.update_eq_self, hsame] at h'
      exact ⟨d, .refl, h'⟩
    | @commit update rest hcommit hrest htail =>
      rw [Machine.step_act hc] at hstep
      obtain rfl := Option.some.inj hstep
      exact ⟨_, hfirst, h.holder howner (.after (htail c.shared) hnext)⟩
  | after hp hnext =>
    exact ⟨d, .refl, h.tail howner hp hnext hc hd hS hstep⟩

omit [DecidableEq τ] [DecidableEq Λ] in
/-- What others read is the same in both machines. -/
theorem Abstracts.blind {γ : Type z} {read : σ → γ}
    (hread : ∀ g s, late g → read (g s) = read s) (h : Abstracts l out late c d) :
    read d.shared = read c.shared := by
  cases howner : c.owner l with
  | none => rw [h.free howner]
  | some t => exact (h.inside t howner).blind hread

omit [DecidableEq Λ] in
/-- A thread without the lock goes on in both machines. -/
theorem Abstracts.other {owner owner' : Λ → Option τ} (h : Abstracts l out late c d)
    (hnot : c.owner l ≠ some t) (hp : Lowers l out late p' q') (hl : owner l = c.owner l)
    (hothers : ∀ k, k ≠ l → owner' k = owner k) (hfree : c.owner l = none → S' = s')
    (hinside : ∀ u, c.owner l = some u →
      Inside l out late s' (c.thread u) (d.thread u) S') :
    Abstracts l out late ⟨s', owner, Function.update c.thread t p'⟩
      ⟨S', owner', Function.update d.thread t q'⟩ := by
  refine ⟨hothers, fun hnone => hfree (hl ▸ hnone), fun u hu => ?_, fun u hu => ?_⟩
  · by_cases hut : u = t
    · subst hut
      simpa using hp
    · simpa [Function.update_of_ne hut] using h.outside u fun howns => hu (hl.trans howns)
  · have howns : c.owner l = some u := hl.symm.trans hu
    have hut : u ≠ t := by
      rintro rfl
      exact hnot howns
    simpa [Function.update_of_ne hut] using hinside u howns

/-- A function that takes the lock comes, as one statement, later. -/
theorem Abstracts.entered {β : Type} {body : Prog σ β} {next next' : β → Thread Λ σ ρ}
    (hindep : Independent out late) (h : Abstracts l out late c d) (hfree : c.owner l = none)
    (hbody : Critical out late body) (hnext : ∀ b, Lowers l out late (next b) (next' b))
    (hd : d.thread t = .act (fun s => (body.run s).1) fun s => next' (body.run s).2) :
    Abstracts l out late ⟨c.shared, Function.update c.owner l (some t),
      Function.update c.thread t (body.under l next)⟩ d := by
  refine ⟨fun k hk => ?_, fun hnone => ?_, fun u hu => ?_, fun u hu => ?_⟩
  · rw [h.owners k hk]
    exact (Function.update_of_ne hk ..).symm
  · simp at hnone
  · have hut : u ≠ t := by
      rintro rfl
      exact hu (Function.update_self ..)
    have hout : c.owner l ≠ some u := by simp [hfree]
    simpa [Function.update_of_ne hut] using h.outside u hout
  · obtain rfl : t = u := by simpa using hu
    have hin : Inside l out late c.shared (body.under l next) _ c.shared :=
      .before hbody (hbody.undisturbed hindep) rfl hnext
    simpa [hd, h.free hfree] using hin

/-- A statement of a thread that does not have the lock. -/
theorem Abstracts.step_outside (hindep : Independent out late) (h : Abstracts l out late c d)
    (hnot : c.owner l ≠ some t) (hstep : c.step t = some c') :
    ∃ d', d.Reaches d' ∧ Abstracts l out late c' d' := by
  have hlowers := h.outside t hnot
  generalize hc : c.thread t = p at hlowers
  generalize hd : d.thread t = q at hlowers
  cases hlowers with
  | ret result =>
    rw [Machine.step_ret hc] at hstep
    cases hstep
  | @act update next next' hout hblind hnext =>
    rw [Machine.step_act hc] at hstep
    obtain rfl := Option.some.inj hstep
    have hread : next' d.shared = next' c.shared := h.blind hblind
    have hgo : Lowers l out late (next c.shared) (next' d.shared) := hread ▸ hnext c.shared
    refine ⟨_, Run.single trivial (Machine.step_act hd), h.other hnot hgo rfl h.owners ?_ ?_⟩
    · exact fun hfree => congrArg update (h.free hfree)
    · exact fun u hu => (h.inside u hu).beside hindep hout
  | @lock k p p' hk hgo =>
    obtain ⟨_, _, hp, -⟩ | ⟨_, _, hp, hfree, rfl⟩ | ⟨_, _, hp, -⟩ := Machine.step_cases hstep
    · rw [hc] at hp
      cases hp
    · obtain ⟨rfl, rfl⟩ := Thread.lock.inj (hc.symm.trans hp)
      have hd' := Machine.step_lock hd ((h.owners k hk).trans hfree)
      refine ⟨_, Run.single trivial hd', h.other hnot hgo ?_ ?_ h.free h.inside⟩
      · exact Function.update_of_ne (Ne.symm hk) ..
      · intro j hj
        by_cases hjk : j = k
        · rw [hjk, Function.update_self, Function.update_self]
        · rw [Function.update_of_ne hjk, Function.update_of_ne hjk, h.owners j hj]
    · rw [hc] at hp
      cases hp
  | @unlock k p p' hk hgo =>
    rw [Machine.step_unlock hc] at hstep
    obtain rfl := Option.some.inj hstep
    refine ⟨_, Run.single trivial (Machine.step_unlock hd), h.other hnot hgo ?_ ?_ h.free h.inside⟩
    · exact Function.update_of_ne (Ne.symm hk) ..
    · intro j hj
      by_cases hjk : j = k
      · rw [hjk, Function.update_self, Function.update_self]
      · rw [Function.update_of_ne hjk, Function.update_of_ne hjk, h.owners j hj]
  | @critical _ body next next' hbody hnext =>
    obtain ⟨_, _, hp, -⟩ | ⟨_, _, hp, hfree, rfl⟩ | ⟨_, _, hp, -⟩ := Machine.step_cases hstep
    · rw [hc] at hp
      cases hp
    · obtain ⟨rfl, rfl⟩ := Thread.lock.inj (hc.symm.trans hp)
      exact ⟨d, .refl, h.entered hindep hfree hbody hnext hd⟩
    · rw [hc] at hp
      cases hp

/-- Whatever the threads do statement by statement, they do with the functions under the lock
as one statement each. -/
theorem sections_atomic (hindep : Independent out late) (h : Abstracts l out late c d)
    (hrun : c.Reaches c') : ∃ d', d.Reaches d' ∧ Abstracts l out late c' d' := by
  induction hrun with
  | refl => exact ⟨d, .refl, h⟩
  | @next b _ t _ _ hstep ih =>
    obtain ⟨e, hreaches, he⟩ := ih
    by_cases howner : b.owner l = some t
    · obtain ⟨e', hmore, he'⟩ := he.step_inside howner hstep
      exact ⟨e', hreaches.trans hmore, he'⟩
    · obtain ⟨e', hmore, he'⟩ := he.step_outside hindep howner hstep
      exact ⟨e', hreaches.trans hmore, he'⟩

omit [DecidableEq Λ] in
/-- A thread that has ended has ended in the second machine, with the same result. -/
theorem Abstracts.ended {r : ρ} (h : Abstracts l out late c d) (hc : c.thread t = .ret r) :
    d.thread t = .ret r := by
  by_cases howner : c.owner l = some t
  · obtain ⟨_, _, hp⟩ | ⟨_, hp⟩ := (h.inside t howner).goes <;>
      cases hc.symm.trans hp
  · have hlowers := h.outside t howner
    rw [hc] at hlowers
    generalize d.thread t = q at hlowers
    cases hlowers
    rfl

end

/-! ## Code -/

/-- The statements of a call, with calls of functions that hold the lock. -/
inductive Code (σ : Type w) (ρ : Type x) : Type (max 1 w x) where
  | ret (result : ρ)
  | act (update : σ → σ) (next : σ → Code σ ρ)
  | critical {β : Type} (body : Prog σ β) (next : β → Code σ ρ)

/-- Statement by statement; `finish` is what the thread does with the result. -/
def Code.thread {ρ' : Type y} (l : Λ) (finish : ρ' → Thread Λ σ ρ) : Code σ ρ' → Thread Λ σ ρ
  | .ret result => finish result
  | .act update next => .act update fun s => (next s).thread l finish
  | .critical body next => .lock l (body.under l fun b => (next b).thread l finish)

/-- With the functions that hold the lock as one statement each. -/
def Code.sections : Code σ ρ → Prog σ ρ
  | .ret result => .ret result
  | .act update next => .act update fun s => (next s).sections
  | .critical body next => .act (fun s => (body.run s).1) fun s => (next (body.run s).2).sections

/-- The statements of a program as those of a thread. -/
def Prog.thread (finish : β → Thread Λ σ ρ) : Prog σ β → Thread Λ σ ρ
  | .ret result => finish result
  | .act update next => .act update fun s => (next s).thread finish

/-- All statements without the lock are among `out` and see nothing late, and all functions that
take it are among `inner`. -/
inductive Code.Tame (out late : (σ → σ) → Prop) (inner : (β : Type) → Prog σ β → Prop) :
    Code σ ρ → Prop where
  | ret (result : ρ) : Tame out late inner (.ret result)
  | act {update : σ → σ} {next : σ → Code σ ρ} : out update →
      (∀ g s, late g → next (g s) = next s) → (∀ s, Tame out late inner (next s)) →
      Tame out late inner (.act update next)
  | critical {β : Type} {body : Prog σ β} {next : β → Code σ ρ} : inner β body →
      (∀ b, Tame out late inner (next b)) → Tame out late inner (.critical body next)

section
variable {ρ' : Type y} {l : Λ} {out late : (σ → σ) → Prop} {inner : (β : Type) → Prog σ β → Prop}
  {code : Code σ ρ'} {finish finish' : ρ' → Thread Λ σ ρ} {I : σ → Prop}

theorem Code.Tame.lowers (h : code.Tame out late inner)
    (hinner : ∀ β body, inner β body → Critical out late body)
    (hfinish : ∀ r, Lowers l out late (finish r) (finish' r)) :
    Lowers l out late (code.thread l finish) (code.sections.thread finish') := by
  induction h with
  | ret result => exact hfinish result
  | act hout hblind _ ih =>
    refine .act hout (fun g s hg => ?_) ih
    exact congrArg (fun c : Code σ ρ' => c.sections.thread finish') (hblind g s hg)
  | critical hbody _ ih => exact .critical (hinner _ _ hbody) ih

theorem Prog.Keeps.under {p : Prog σ β} {next : β → Thread Λ σ ρ} (h : p.Keeps I)
    (hnext : ∀ b, (next b).Keeps I) : (p.under l next).Keeps I := by
  induction h with
  | ret result => exact .unlock (hnext result)
  | act hupdate _ ih => exact .act hupdate ih

/-- What the functions under the lock keep, and all that is done without it, the code keeps. -/
theorem Code.Tame.keeps (h : code.Tame out late inner)
    (hout : ∀ f, out f → ∀ s, I s → I (f s)) (hinner : ∀ β body, inner β body → body.Keeps I)
    (hfinish : ∀ r, (finish r).Keeps I) : (code.thread l finish).Keeps I := by
  induction h with
  | ret result => exact hfinish result
  | act hupdate _ _ ih => exact .act (hout _ hupdate) ih
  | critical hbody _ ih => exact .lock ((hinner _ _ hbody).under ih)

variable {rank : Λ → Nat} {ends : List Λ → ρ → Prop} {held : List Λ}

theorem Prog.nested_under {p : Prog σ β} {next : β → Thread Λ σ ρ}
    (hnext : ∀ b, Nested rank ends held (next b)) :
    Nested rank ends (l :: held) (p.under l next) := by
  induction p with
  | ret result => exact .unlock (hnext result)
  | act update rest ih => exact .act ih

/-- Code takes its lock above those that the thread has, and gives it back. -/
theorem Code.nested (code : Code σ ρ') (hrank : ∀ k ∈ held, rank k < rank l)
    (hfinish : ∀ r, Nested rank ends held (finish r)) :
    Nested rank ends held (code.thread l finish) := by
  induction code with
  | ret result => exact hfinish result
  | act update next ih => exact .act ih
  | critical body next ih => exact .lock hrank (Prog.nested_under ih)

theorem Prog.avoids_under {k : Λ} {p : Prog σ β} {next : β → Thread Λ σ ρ}
    (hnext : ∀ b, (next b).Avoids k) : (p.under l next).Avoids k := by
  induction p with
  | ret result => exact .unlock (hnext result)
  | act update rest ih => exact .act ih

/-- Code takes no other lock than its own. -/
theorem Code.avoids {k : Λ} (code : Code σ ρ') (hne : l ≠ k)
    (hfinish : ∀ r, (finish r).Avoids k) : (code.thread l finish).Avoids k := by
  induction code with
  | ret result => exact hfinish result
  | act update next ih => exact .act ih
  | critical body next ih => exact .lock hne (Prog.avoids_under ih)

end

end SyscallVector.Lib
