import Mathlib.Data.List.Range

/-!
# Guarded runs of a partial step function

A system is a partial step function on states. A run is a finite sequence of
defined steps, each of which meets a guard on the state before it and the
operation taken. Invariants are proved once per step and transported by
`Run.invariant`; `Run.of_steps` turns an evaluated list of operations into a
run, so that concrete histories can be checked by computation. `outputs` collects what
the operations of a list put out; a counter puts out consecutive numbers. `logged` keeps
what the operations of a run put out beside its state.
-/
namespace SyscallVector.Lib

set_option autoImplicit false

universe u v w
variable {σ : Type u} {α : Type v}

/-- The states reached from `s` by defined steps that all meet `guard`. -/
inductive Run (step : σ → α → Option σ) (guard : σ → α → Prop) (s : σ) : σ → Prop
  | refl : Run step guard s s
  | next {t u : σ} {a : α} : Run step guard s t → guard t a → step t a = some u →
      Run step guard s u

variable {step : σ → α → Option σ} {guard : σ → α → Prop} {s t : σ}

/-- What every guarded step preserves holds at the end of every guarded run. -/
theorem Run.invariant (I : σ → Prop)
    (hstep : ∀ t a u, I t → guard t a → step t a = some u → I u)
    (hs : I s) (h : Run step guard s t) : I t := by
  induction h with
  | refl => exact hs
  | next _ hg hu ih => exact hstep _ _ _ ih hg hu

theorem Run.single {a : α} (hg : guard s a) (h : step s a = some t) : Run step guard s t :=
  .next .refl hg h

theorem Run.trans {r : σ} (h : Run step guard s t) (h' : Run step guard t r) :
    Run step guard s r := by
  induction h' with
  | refl => exact h
  | next _ hg hu ih => exact .next ih hg hu

/-- The state after a list of operations, when every one of them is defined. -/
def steps (step : σ → α → Option σ) (s : σ) : List α → Option σ
  | [] => some s
  | a :: as => (step s a).bind fun t => steps step t as

theorem Run.of_steps {as : List α} (hg : ∀ t, ∀ a ∈ as, guard t a)
    (h : steps step s as = some t) : Run step guard s t := by
  induction as generalizing s with
  | nil =>
    obtain rfl := Option.some.inj h
    exact .refl
  | cons a as ih =>
    obtain ⟨m, hm, hrest⟩ := Option.bind_eq_some_iff.mp h
    have hfirst : Run step guard s m := .single (hg s a List.mem_cons_self) hm
    exact hfirst.trans (ih (fun t b hb => hg t b (List.mem_cons_of_mem a hb)) hrest)

/-! ## Outputs -/

/-- What the operations of a list put out, each judged by the state before it. -/
def outputs {β : Type w} (step : σ → α → Option σ) (out : σ → α → List β) (s : σ) :
    List α → List β
  | [] => []
  | a :: as => out s a ++ (step s a).elim [] fun t => outputs step out t as

theorem outputs_cons {β : Type w} {out : σ → α → List β} {a : α} {as : List α}
    (h : step s a = some t) :
    outputs step out s (a :: as) = out s a ++ outputs step out t as := by
  rw [outputs, h, Option.elim_some]

/-- The operations of a list that satisfy a predicate when their turn comes. -/
def taken (step : σ → α → Option σ) (takes : σ → α → Bool) : σ → List α → List α :=
  outputs step fun s a => if takes s a then [a] else []

/-- Where an operation either puts out the counter and advances it or does neither, the
outputs are consecutive. -/
theorem outputs_counter (counter : σ → Nat) {out : σ → α → List Nat} {takes : σ → α → Bool}
    {P : α → Prop} {as : List α}
    (hstep : ∀ s a t, P a → step s a = some t →
      out s a = (if takes s a then [counter s] else []) ∧
        counter t = counter s + if takes s a then 1 else 0)
    (has : ∀ a ∈ as, P a) (h : steps step s as = some t) :
    outputs step out s as = List.range' (counter s) (taken step takes s as).length := by
  induction as generalizing s with
  | nil => rfl
  | cons a as ih =>
    obtain ⟨m, hm, hrest⟩ := Option.bind_eq_some_iff.mp h
    obtain ⟨hout, hcounter⟩ := hstep s a m (has a List.mem_cons_self) hm
    have htail := ih (fun b hb => has b (List.mem_cons_of_mem a hb)) hrest
    rw [outputs_cons hm, htail, hout, hcounter, taken, outputs_cons hm]
    by_cases htakes : takes s a = true
    · rw [if_pos htakes, if_pos htakes, if_pos htakes, List.length_append, List.length_singleton,
        Nat.add_comm 1, List.range'_succ]
      rfl
    · rw [if_neg htakes, if_neg htakes, if_neg htakes]
      rfl

/-! ## Logs -/

/-- The step function with a log of what each operation puts out, judged by the state before
it. -/
def logged {β : Type w} (step : σ → α → Option σ) (out : σ → α → List β) (x : σ × List β)
    (a : α) : Option (σ × List β) :=
  (step x.1 a).map fun t => (t, x.2 ++ out x.1 a)

theorem logged_eq_some {β : Type w} {out : σ → α → List β} {x y : σ × List β} {a : α}
    (h : logged step out x a = some y) : step x.1 a = some y.1 ∧ y.2 = x.2 ++ out x.1 a := by
  obtain ⟨t, ht, rfl⟩ := Option.map_eq_some_iff.mp h
  exact ⟨ht, rfl⟩

end SyscallVector.Lib
