import SyscallVector.Lib.Transition

/-!
# Calls in sections

A call that is not atomic is a sequence of sections that are, and the events of others come
between them. A section moves right when it could as well happen after the events that follow
it, and left when it could happen before those that it follows. A call that moves right, acts
once, and then moves left has the effect of the whole call at one moment (`Reducible.serial`).
Calls under a lock, one at a time, then make the system atomic (`locked_serial`).
-/
namespace SyscallVector.Lib

set_option autoImplicit false

universe u v w x y
variable {σ : Type u} {ρ : Type v} {α : Type w}

/-- A call as its sections. Each changes the state, and the call goes on with what the section
has read. -/
inductive Prog (σ : Type u) (ρ : Type v) where
  | ret (result : ρ)
  | act (update : σ → σ) (next : σ → Prog σ ρ)

/-- The state and the result of a call that nobody interrupts. -/
def Prog.run : Prog σ ρ → σ → σ × ρ
  | .ret result, s => (s, result)
  | .act update next, s => (next s).run (update s)

/-- The next section. -/
def Prog.take : Prog σ ρ → σ → Option (σ × Prog σ ρ)
  | .ret _, _ => none
  | .act update next, s => some (update s, next s)

/-- Every section keeps a property of the state. -/
inductive Prog.Keeps (I : σ → Prop) : Prog σ ρ → Prop where
  | ret (result : ρ) : Keeps I (.ret result)
  | act {update : σ → σ} {next : σ → Prog σ ρ} : (∀ s, I s → I (update s)) →
      (∀ s, Keeps I (next s)) → Keeps I (.act update next)

theorem Prog.Keeps.run {I : σ → Prop} {p : Prog σ ρ} {s : σ} (h : p.Keeps I) (hs : I s) :
    I (p.run s).1 := by
  induction h generalizing s with
  | ret result => exact hs
  | act hupdate _ ih => exact ih s (hupdate s hs)

/-- Who moves. -/
inductive Turn (α : Type w) where
  | own
  | other (event : α)

/-- A call and the events of others. -/
def turn (env : σ → α → Option σ) (x : σ × Prog σ ρ) : Turn α → Option (σ × Prog σ ρ)
  | .own => x.2.take x.1
  | .other event => (env x.1 event).map fun t => (t, x.2)

/-- The events of others, in their order. -/
def events : List (Turn α) → List α
  | [] => []
  | .own :: turns => events turns
  | .other event :: turns => event :: events turns

theorem events_append (turns more : List (Turn α)) :
    events (turns ++ more) = events turns ++ events more := by
  induction turns with
  | nil => rfl
  | cons first turns ih =>
    cases first with
    | own => exact ih
    | other event => exact congrArg (event :: ·) ih

/-! ## Movers -/

variable {env : σ → α → Option σ} {I : σ → Prop} {update : σ → σ} {next : σ → Prog σ ρ}
  {p : Prog σ ρ} {s t : σ} {r : ρ}

/-- The section can wait for the event that comes after it. -/
structure RightMover (env : σ → α → Option σ) (I : σ → Prop) (update : σ → σ)
    (next : σ → Prog σ ρ) : Prop where
  keeps : ∀ s, I s → I (update s)
  delay : ∀ s event u, I s → env (update s) event = some u →
    ∃ t, env s event = some t ∧ update t = u ∧ next t = next s

/-- The section can come before the event that it follows. -/
structure LeftMover (env : σ → α → Option σ) (I : σ → Prop) (update : σ → σ)
    (next : σ → Prog σ ρ) : Prop where
  keeps : ∀ s, I s → I (update s)
  advance : ∀ s event t, I s → env s event = some t →
    env (update s) event = some (update t) ∧ next t = next s

/-- Only left movers are left. -/
inductive Settled (env : σ → α → Option σ) (I : σ → Prop) : Prog σ ρ → Prop where
  | ret (result : ρ) : Settled env I (.ret result)
  | act {update : σ → σ} {next : σ → Prog σ ρ} : LeftMover env I update next →
      (∀ s, I s → Settled env I (next s)) → Settled env I (.act update next)

/-- Right movers, then at most one section of any kind, then left movers. -/
inductive Reducible (env : σ → α → Option σ) (I : σ → Prop) : Prog σ ρ → Prop where
  | settled {p : Prog σ ρ} : Settled env I p → Reducible env I p
  | act {update : σ → σ} {next : σ → Prog σ ρ} : RightMover env I update next →
      (∀ s, I s → Reducible env I (next s)) → Reducible env I (.act update next)
  | commit {update : σ → σ} {next : σ → Prog σ ρ} : (∀ s, I s → I (update s)) →
      (∀ s, I s → Settled env I (next s)) → Reducible env I (.act update next)

/-- A section that moves both ways. -/
structure Mover (env : σ → α → Option σ) (I : σ → Prop) (update : σ → σ)
    (next : σ → Prog σ ρ) : Prop where
  keeps : ∀ s, I s → I (update s)
  commutes : ∀ s event, I s → env (update s) event = (env s event).map update
  blind : ∀ s event t, I s → env s event = some t → next t = next s

theorem Mover.right (h : Mover env I update next) : RightMover env I update next where
  keeps := h.keeps
  delay s event u hs hu := by
    rw [h.commutes s event hs] at hu
    obtain ⟨t, ht, rfl⟩ := Option.map_eq_some_iff.mp hu
    exact ⟨t, ht, rfl, h.blind s event t hs ht⟩

theorem Mover.left (h : Mover env I update next) : LeftMover env I update next where
  keeps := h.keeps
  advance s event t hs ht := by
    refine ⟨?_, h.blind s event t hs ht⟩
    rw [h.commutes s event hs, ht]
    rfl

/-! ## One call -/

/-- An event of another can wait until a settled call is done. -/
theorem Settled.advance {event : α} (h : Settled env I p) (hs : I s)
    (he : env s event = some t) :
    env (p.run s).1 event = some (p.run t).1 ∧ (p.run t).2 = (p.run s).2 := by
  induction h generalizing s t with
  | ret result => exact ⟨he, rfl⟩
  | act hmover _ ih =>
    obtain ⟨hupdate, hnext⟩ := hmover.advance _ _ _ hs he
    simp only [Prog.run, hnext]
    exact ih _ hs (hmover.keeps _ hs) hupdate

/-- A settled call might as well be done at once. -/
theorem Settled.serial {turns : List (Turn α)} (hstable : ∀ s event t, I s →
      env s event = some t → I t) (h : Settled env I p) (hs : I s)
    (hrun : steps (turn env) (s, p) turns = some (t, .ret r)) :
    (p.run s).2 = r ∧ steps env (p.run s).1 (events turns) = some t := by
  induction turns generalizing s p with
  | nil =>
    cases hrun
    exact ⟨rfl, rfl⟩
  | cons first turns ih =>
    obtain ⟨x, hfirst, hrest⟩ := Option.bind_eq_some_iff.mp hrun
    cases first with
    | own =>
      cases h with
      | ret => cases hfirst
      | act hmover hnext =>
        obtain rfl := Option.some.inj hfirst
        have hlater := ih (hnext s hs) (hmover.keeps s hs) hrest
        exact hlater
    | other event =>
      obtain ⟨u, hu, rfl⟩ := Option.map_eq_some_iff.mp hfirst
      obtain ⟨hresult, hevents⟩ := ih h (hstable s event u hs hu) hrest
      obtain ⟨hlater, hsame⟩ := h.advance hs hu
      refine ⟨hsame.symm.trans hresult, ?_⟩
      rw [events, steps, hlater, Option.bind_some]
      exact hevents

/-- A right mover can wait for all the events of a list. -/
theorem RightMover.delay_steps {es : List α} (hstable : ∀ s event t, I s →
      env s event = some t → I t) (h : RightMover env I update next) (hs : I s)
    (hrun : steps env (update s) es = some t) :
    ∃ u, steps env s es = some u ∧ update u = t ∧ next u = next s := by
  induction es generalizing s with
  | nil => exact ⟨s, rfl, Option.some.inj hrun, rfl⟩
  | cons event es ih =>
    obtain ⟨v, hv, hrest⟩ := Option.bind_eq_some_iff.mp hrun
    obtain ⟨s', hs', rfl, hnext⟩ := h.delay s event v hs hv
    obtain ⟨u, hu, hupdate, hsame⟩ := ih (hstable s event s' hs hs') hrest
    refine ⟨u, ?_, hupdate, hsame.trans hnext⟩
    rw [steps, hs', Option.bind_some]
    exact hu

/-- However the events of others come between the sections of a reducible call, all is as if
the whole call had happened at one moment between two of them. -/
theorem Reducible.serial {turns : List (Turn α)} (hstable : ∀ s event t, I s →
      env s event = some t → I t) (h : Reducible env I p) (hs : I s)
    (hrun : steps (turn env) (s, p) turns = some (t, .ret r)) :
    ∃ before after u, events turns = before ++ after ∧ steps env s before = some u ∧
      (p.run u).2 = r ∧ steps env (p.run u).1 after = some t := by
  induction turns generalizing s p with
  | nil =>
    cases hrun
    exact ⟨[], [], t, rfl, rfl, rfl, rfl⟩
  | cons first turns ih =>
    cases h with
    | settled hp =>
      obtain ⟨hresult, hevents⟩ := hp.serial hstable hs hrun
      exact ⟨[], _, s, rfl, rfl, hresult, hevents⟩
    | act hmover hnext =>
      obtain ⟨x, hfirst, hrest⟩ := Option.bind_eq_some_iff.mp hrun
      cases first with
      | own =>
        obtain rfl := Option.some.inj hfirst
        obtain ⟨before, after, u, hsplit, hbefore, hresult, hafter⟩ :=
          ih (hnext s hs) (hmover.keeps s hs) hrest
        obtain ⟨w, hw, rfl, hsame⟩ := hmover.delay_steps hstable hs hbefore
        refine ⟨before, after, w, hsplit, hw, ?_, ?_⟩
        · rw [Prog.run, hsame]
          exact hresult
        · rw [Prog.run, hsame]
          exact hafter
      | other event =>
        obtain ⟨v, hv, rfl⟩ := Option.map_eq_some_iff.mp hfirst
        obtain ⟨before, after, u, hsplit, hbefore, hresult, hafter⟩ :=
          ih (.act hmover hnext) (hstable s event v hs hv) hrest
        refine ⟨event :: before, after, u, ?_, ?_, hresult, hafter⟩
        · rw [events, hsplit, List.cons_append]
        · rw [steps, hv, Option.bind_some]
          exact hbefore
    | commit hkeeps hnext =>
      obtain ⟨x, hfirst, hrest⟩ := Option.bind_eq_some_iff.mp hrun
      cases first with
      | own =>
        obtain rfl := Option.some.inj hfirst
        obtain ⟨hresult, hevents⟩ := (hnext s hs).serial hstable (hkeeps s hs) hrest
        exact ⟨[], events turns, s, rfl, rfl, hresult, hevents⟩
      | other event =>
        obtain ⟨v, hv, rfl⟩ := Option.map_eq_some_iff.mp hfirst
        obtain ⟨before, after, u, hsplit, hbefore, hresult, hafter⟩ :=
          ih (.commit hkeeps hnext) (hstable s event v hs hv) hrest
        refine ⟨event :: before, after, u, ?_, ?_, hresult, hafter⟩
        · rw [events, hsplit, List.cons_append]
        · rw [steps, hv, Option.bind_some]
          exact hbefore

/-! ## Calls under a lock -/

variable {β : Type x} {γ : Type y}

/-- What happens next in a system whose calls take one lock. -/
inductive Move (α : Type w) (β : Type x) where
  | start (call : β)
  | proceed
  | finish
  | event (event : α)

/-- Between calls everything can happen; during a call its sections, and what others do
without the lock. A call finishes if it returns. -/
def lockedStep (body : β → Prog σ ρ) (during : β → σ → α → Option σ) (between : σ → α → Option σ)
    (returned : ρ → Bool) (c : σ × Option (β × Prog σ ρ)) :
    Move α β → Option (σ × Option (β × Prog σ ρ))
  | .start call => if c.2.isSome then none else some (c.1, some (call, body call))
  | .proceed => c.2.bind fun x => (x.2.take c.1).map fun y => (y.1, some (x.1, y.2))
  | .finish =>
    match c.2 with
    | some (_, .ret result) => if returned result then some (c.1, none) else none
    | _ => none
  | .event event =>
    match c.2 with
    | some x => (during x.1 c.1 event).map fun t => (t, some x)
    | none => (between c.1 event).map fun t => (t, none)

/-- A call starts in a state for it, and an event comes when it is allowed. -/
def allowed (can : β → σ → Prop) (fresh : σ → α → Prop) (c : σ × Option (β × Prog σ ρ)) :
    Move α β → Prop
  | .start call => can call c.1
  | .event event => fresh c.1 event
  | _ => True

/-- What the system under the lock has done so far: everything atomic, and in a call that is not
finished some sections of it. -/
def Serial (body : β → Prog σ ρ) (during : β → σ → α → Option σ) (can : β → σ → Prop)
    (atomic : σ → γ → Option σ) (guard : σ → γ → Prop) (s : σ) :
    σ × Option (β × Prog σ ρ) → Prop
  | (t, none) => Run atomic guard s t
  | (t, some (call, p)) => ∃ u turns, Run atomic guard s u ∧ can call u ∧
      steps (turn (during call)) (u, body call) turns = some (t, p)

theorem steps_concat {step : σ → α → Option σ} {a : α} {as : List α} {u : σ}
    (h : steps step s as = some t) (ha : step t a = some u) :
    steps step s (as ++ [a]) = some u := by
  induction as generalizing s with
  | nil =>
    obtain rfl := Option.some.inj h
    rw [List.nil_append, steps, ha]
    rfl
  | cons b as ih =>
    obtain ⟨v, hv, hrest⟩ := Option.bind_eq_some_iff.mp h
    rw [List.cons_append, steps, hv, Option.bind_some]
    exact ih hrest

section
variable {body : β → Prog σ ρ} {during : β → σ → α → Option σ} {between : σ → α → Option σ}
  {returned : ρ → Bool} {can live : β → σ → Prop} {fresh : σ → α → Prop}
  {atomic : σ → γ → Option σ} {guard : σ → γ → Prop}

theorem stable_steps {es : List α} {step : σ → α → Option σ}
    (hstable : ∀ s event t, I s → step s event = some t → I t) (hs : I s)
    (h : steps step s es = some t) : I t := by
  induction es generalizing s with
  | nil => exact Option.some.inj h ▸ hs
  | cons event es ih =>
    obtain ⟨u, hu, hrest⟩ := Option.bind_eq_some_iff.mp h
    exact ih (hstable s event u hs hu) hrest

/-- The events of a list, one after the other. -/
theorem Run.events {es : List α} {step : σ → α → Option σ}
    (hevent : ∀ s event t, step s event = some t → ∃ c, guard s c ∧ atomic s c = some t)
    (h : steps step s es = some t) : Run atomic guard s t := by
  induction es generalizing s with
  | nil =>
    obtain rfl := Option.some.inj h
    exact .refl
  | cons event es ih =>
    obtain ⟨u, hu, hrest⟩ := Option.bind_eq_some_iff.mp h
    obtain ⟨c, hguard, hc⟩ := hevent s event u hu
    exact (Run.single hguard hc).trans (ih hrest)

/-- Calls under a lock whose bodies are reducible against what others do without it: each
state between calls is one that the atomic system reaches. -/
theorem locked_serial
    (hevent : ∀ s event t, fresh s event → between s event = some t →
      ∃ c, guard s c ∧ atomic s c = some t)
    (hduring : ∀ call s event t, during call s event = some t →
      fresh s event ∧ between s event = some t)
    (hcall : ∀ call s, can call s → returned ((body call).run s).2 = true →
      ∃ c, guard s c ∧ atomic s c = some ((body call).run s).1)
    (hstable : ∀ call s event t, can call s → during call s event = some t → can call t)
    (hcan : ∀ call s, can call s → live call s)
    (hlive : ∀ call s event t, live call s → during call s event = some t → live call t)
    (hbody : ∀ call, Reducible (during call) (live call) (body call))
    {c : σ × Option (β × Prog σ ρ)}
    (h : Run (lockedStep body during between returned) (allowed can fresh) (s, none) c) :
    Serial body during can atomic guard s c := by
  induction h with
  | refl => exact Run.refl
  | @next c d m _ hguard hstep ih =>
    obtain ⟨t, pending⟩ := c
    cases m with
    | start call =>
      cases pending with
      | some x => cases hstep
      | none =>
        obtain rfl := Option.some.inj hstep
        exact ⟨t, [], ih, hguard, rfl⟩
    | proceed =>
      cases pending with
      | none => cases hstep
      | some x =>
        obtain ⟨y, hy, rfl⟩ := Option.map_eq_some_iff.mp hstep
        obtain ⟨u, turns, hrun, hstart, hturns⟩ := ih
        have hown : turn (during x.1) (t, x.2) .own = some y := hy
        exact ⟨u, turns ++ [.own], hrun, hstart, steps_concat hturns hown⟩
    | finish =>
      cases pending with
      | none => cases hstep
      | some x =>
        obtain ⟨call, p⟩ := x
        cases p with
        | act => cases hstep
        | ret result =>
          obtain ⟨u, turns, hrun, hstart, hturns⟩ := ih
          obtain ⟨hreturned, hdone⟩ := Option.ite_none_right_eq_some.mp hstep
          obtain rfl := Option.some.inj hdone
          obtain ⟨before, after, v, -, hbefore, rfl, hafter⟩ :=
            (hbody call).serial (hlive call) (hcan call u hstart) hturns
          have hthen : can call v := stable_steps (hstable call) hstart hbefore
          obtain ⟨e, he, hatomic⟩ := hcall call v hthen hreturned
          have houter (s event t) (h : during call s event = some t) :
              ∃ c, guard s c ∧ atomic s c = some t := by
            obtain ⟨hfresh, hbetween⟩ := hduring call s event t h
            exact hevent s event t hfresh hbetween
          have hwhole := (hrun.trans (Run.events houter hbefore)).next he hatomic
          exact hwhole.trans (Run.events houter hafter)
    | event event =>
      cases pending with
      | none =>
        obtain ⟨u, hu, rfl⟩ := Option.map_eq_some_iff.mp hstep
        obtain ⟨e, he, hatomic⟩ := hevent t event u hguard hu
        exact Run.next ih he hatomic
      | some x =>
        obtain ⟨v, hv, rfl⟩ := Option.map_eq_some_iff.mp hstep
        obtain ⟨u, turns, hrun, hstart, hturns⟩ := ih
        refine ⟨u, turns ++ [.other event], hrun, hstart, steps_concat hturns ?_⟩
        exact congrArg (Option.map fun w => (w, x.2)) hv

end

end SyscallVector.Lib
