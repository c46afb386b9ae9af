import SyscallVector.Audit.EventsAlone

/-!
# Concurrent calls are serializable

Any number of ioctl calls and calls of the exported functions that take or drop a reference run
at once, statement by statement, under the two mutexes. `mutexlock` lets one ioctl call through
at a time, and what the exported functions do between its sections moves out of it, so that all
of them have happened one after the other.
-/
namespace SyscallVector.Audit

set_option autoImplicit false

open Lib Model

/-! ## What no call changes -/

/-- The same tasks are alive and the same modules are loaded. -/
def SameTasks (s₀ s : State) : Prop :=
  (∀ p, (s.tasks p).isSome = (s₀.tasks p).isSome) ∧ s.loaded = s₀.loaded

section
variable {s₀ : State} {current : Pid} {param : IoctlParam} {env : Env} {next : Sections}
  {β : Type}

abbrev KeepsTasks (s₀ : State) (p : Sections) : Prop := p.Keeps (SameTasks s₀)

theorem SameTasks.refl (s : State) : SameTasks s s := ⟨fun _ => rfl, rfl⟩

theorem SameTasks.trans {s t u : State} (h : SameTasks s t) (h' : SameTasks t u) : SameTasks s u :=
  ⟨fun p => (h'.1 p).trans (h.1 p), h'.2.trans h.2⟩

theorem writing_keeps {f : State → State} (hf : ∀ s, SameTasks s (f s))
    (hnext : KeepsTasks s₀ next) : KeepsTasks s₀ (writing f next) :=
  .act (fun s hs => ⟨fun p => ((hf s).1 p).trans (hs.1 p), (hf s).2.trans hs.2⟩) fun _ => hnext

theorem reading_keeps {f : State → β} {next : β → Sections} (hnext : ∀ x, KeepsTasks s₀ (next x)) :
    KeepsTasks s₀ (reading f next) :=
  .act (fun _ hs => hs) fun _ => hnext _

theorem withListLock_keeps {f : Registry → Registry × β} {next : β → Sections}
    (hnext : ∀ x, KeepsTasks s₀ (next x)) : KeepsTasks s₀ (withListLock f next) :=
  .act (fun _ hs => hs) fun _ => hnext _

theorem pinModule_keeps {m : Module} (hnext : KeepsTasks s₀ next) :
    KeepsTasks s₀ (pinModule m next) := writing_keeps (fun _ => ⟨fun _ => rfl, rfl⟩) hnext

theorem putAndReturn_keeps (result : Returned) : KeepsTasks s₀ (putAndReturn result) :=
  writing_keeps (fun _ => ⟨fun _ => rfl, rfl⟩) (.ret result)

theorem setVectorInfo_keeps {a : Address} (hnext : KeepsTasks s₀ next) :
    KeepsTasks s₀ (writing (fun s => s.setVectorInfo current a) next) := by
  refine writing_keeps (fun s => ⟨fun p => ?_, rfl⟩) hnext
  by_cases hp : p = current
  · subst hp
    simp [State.setVectorInfo]
  · simp [State.setVectorInfo, Function.update_of_ne hp]

theorem onChains_keeps {f : Builder → Except Fault (Builder × β)} {next : β → Sections}
    (hnext : ∀ x, KeepsTasks s₀ (next x)) : KeepsTasks s₀ (onChains f next) := by
  refine .act (fun s hs => ?_) fun s => ?_
  · rw [chainsAfter]
    split <;> exact hs
  · rw [chainsThen]
    split
    · exact .ret _
    · exact hnext _

theorem copyOut_keeps (buf : List UInt8) : KeepsTasks s₀ (copyOutSections buf env) := by
  rw [copyOutSections]
  split <;> exact putAndReturn_keeps _

theorem ioctlSet_keeps : KeepsTasks s₀ (ioctlSetSections current param env) := by
  have hreduce (next : Sections) (hnext : KeepsTasks s₀ next) :
      KeepsTasks s₀ (ifAssignedReduceSections current env next) := by
    refine reading_keeps fun info => ?_
    split
    · exact hnext
    · split
      · exact hnext
      · refine reading_keeps fun buf => ?_
        split
        · exact hnext
        · exact withListLock_keeps fun _ => hnext
  rw [ioctlSetSections]
  split
  · exact .ret _
  · split
    · exact .ret _
    · refine pinModule_keeps ?_
      split
      · exact putAndReturn_keeps _
      · refine withListLock_keeps fun vectorAddress => ?_
        split
        · exact putAndReturn_keeps _
        · exact hreduce _ <| setVectorInfo_keeps <| setVectorInfo_keeps <| putAndReturn_keeps _

theorem ioctlRemove_keeps : KeepsTasks s₀ (ioctlRemoveSections current param env) := by
  rw [ioctlRemoveSections]
  split
  · exact .ret _
  · split
    · exact .ret _
    · refine pinModule_keeps ?_
      split
      · exact putAndReturn_keeps _
      · refine withListLock_keeps fun err => ?_
        split
        · exact putAndReturn_keeps _
        · exact setVectorInfo_keeps <| putAndReturn_keeps _

theorem ioctlVectorForPid_keeps : KeepsTasks s₀ (ioctlVectorForPidSections param env) := by
  refine pinModule_keeps ?_
  split
  · exact .ret _
  · split
    · exact putAndReturn_keeps _
    · refine reading_keeps fun found => ?_
      cases found with
      | none => exact .ret _
      | some info => exact reading_keeps copyOut_keeps

theorem addVector_keeps {bitmap : UInt32} {next : Int32 → Sections}
    (hnext : ∀ err, KeepsTasks s₀ (next err)) :
    KeepsTasks s₀ (addVectorSections current bitmap env next) := by
  have hhead (err : Int32) :
      KeepsTasks s₀ (writing (fun s => s.setListHead .dynamicVector 0) (next err)) :=
    writing_keeps (fun _ => ⟨fun _ => rfl, rfl⟩) (hnext err)
  refine withListLock_keeps fun ret => ?_
  split
  · exact setVectorInfo_keeps <| hhead _
  · split
    · exact hhead _
    · split
      · exact onChains_keeps fun _ => hnext _
      · refine onChains_keeps fun built => ?_
        split
        · exact onChains_keeps fun _ => hnext _
        · refine pinModule_keeps <| reading_keeps fun head => withListLock_keeps fun _ => ?_
          refine setVectorInfo_keeps <| writing_keeps (fun _ => ⟨fun _ => rfl, rfl⟩) ?_
          exact hhead _

/-- An ioctl call starts and ends no task and loads and unloads no module. -/
theorem customIoctl_keeps (s₀ : State) (current : Pid) (request : UInt32) (param : IoctlParam)
    (env : Env) : KeepsTasks s₀ (customIoctlSections current request param env) := by
  rw [customIoctlSections]
  split
  · exact .ret _
  · split
    · exact ioctlSet_keeps
    · split
      · exact ioctlRemove_keeps
      · split
        · exact pinModule_keeps <| reading_keeps fun _ => copyOut_keeps _
        · split
          · exact pinModule_keeps <| reading_keeps fun _ => reading_keeps copyOut_keeps
          · split
            · exact ioctlVectorForPid_keeps
            · split
              · refine pinModule_keeps ?_
                split
                · exact .ret _
                · split
                  · exact putAndReturn_keeps _
                  · split
                    · exact putAndReturn_keeps _
                    · exact addVector_keeps fun _ => putAndReturn_keeps _
              · exact .ret _

end

/-! ## One event after the other -/

/-- An ioctl call by a live task, with dynamic_vector in memory if it creates a vector, or a
call of one of the six exported functions that take or drop a reference. -/
inductive Request (s : State) : SessionOp → Prop
  | ioctl (c : IoctlCall) : (s.tasks c.current).isSome = true →
      (c.request = IOCTL_CREATE_FROM_BITMAP → s.loaded .dynamicVector = true) → Request s c.op
  | call (c : Call) : Request s (.system (.call c))

/-- The event happens alone, and an ioctl call returns `r`. -/
structure Happens (op : SessionOp) (r : Returned) (s t : State) : Prop where
  step : sessionStep s op = some t
  returns : op.takesMutexlock = true → op.statements.sections.run s = (t, r)

/-- The events of the threads happen one after the other, with these results. -/
inductive OneByOne {τ : Type} (ops : τ → SessionOp) (s : State) : List (τ × Returned) → State → Prop
  | nil : OneByOne ops s [] s
  | snoc {done : List (τ × Returned)} {t u : State} {x : τ × Returned} :
      OneByOne ops s done t → Happens (ops x.1) x.2 t u → OneByOne ops s (done ++ [x]) u

section
variable {τ : Type} {ops : τ → SessionOp} {s t u : State} {done since : List (τ × Returned)}
  {op : SessionOp} {call : IoctlCall} {r : Returned}

theorem Request.same (h : Request s op) (hsame : SameTasks s t) : Request t op := by
  cases h with
  | ioctl call hlive hloaded =>
    refine .ioctl call ((hsame.1 call.current).trans hlive) fun hcreate => ?_
    rw [hsame.2]
    exact hloaded hcreate
  | call c => exact .call c

theorem Request.of_ioctl (h : Request s call.op) : (s.tasks call.current).isSome = true ∧
    (call.request = IOCTL_CREATE_FROM_BITMAP → s.loaded .dynamicVector = true) := by
  generalize hop : call.op = op at h
  cases h with
  | ioctl c hlive hloaded =>
    obtain ⟨hcurrent, hrequest, -, -⟩ := Op.ioctl.inj (SessionOp.system.inj hop)
    rw [hcurrent, hrequest]
    exact ⟨hlive, hloaded⟩
  | call c => cases hop

/-- An ioctl call that nobody interrupts happens, if it does not fault. -/
theorem Request.happens {returned : Int64 × Option (List UInt8)} (h : Request s call.op)
    (hrun : call.sections.run s = (t, .ok returned)) : Happens call.op (.ok returned) s t := by
  obtain ⟨hlive, hloaded⟩ := h.of_ioctl
  have houtcome := outcome_customIoctl s call.current call.request call.param call.env
  rw [IoctlCall.sections] at hrun
  rw [hrun] at houtcome
  constructor
  · have hnone : ¬(s.tasks call.current).isNone = true := by
      simp [Option.isSome_iff_ne_none.mp hlive]
    have hcreate : ¬(call.request = IOCTL_CREATE_FROM_BITMAP ∧
        s.loaded .dynamicVector = false) := by
      rintro ⟨hcreate, hunloaded⟩
      exact absurd (hunloaded.symm.trans (hloaded hcreate)) Bool.false_ne_true
    rw [IoctlCall.op, sessionStep, step, if_neg hnone, if_neg hcreate, ← houtcome]
    rfl
  · intro _
    rw [IoctlCall.op, SessionOp.statements, sections_customIoctl]
    exact hrun

theorem Happens.same (hop : Request s op) (h : Happens op r t u) : SameTasks t u := by
  cases hop with
  | ioctl call =>
    have hrun := h.returns rfl
    rw [IoctlCall.op, SessionOp.statements, sections_customIoctl] at hrun
    have hkeeps := (customIoctl_keeps t call.current call.request call.param call.env).run
      (SameTasks.refl t)
    rwa [hrun] at hkeeps
  | call c =>
    obtain rfl := Option.some.inj h.step
    exact SameTasks.refl t

theorem OneByOne.same (hops : ∀ x, Request s (ops x)) (h : OneByOne ops s done t) :
    SameTasks s t := by
  induction h with
  | nil => exact SameTasks.refl s
  | snoc _ hlast ih => exact ih.trans (hlast.same (hops _))

theorem OneByOne.calls {current : Pid} (h : OneByOne ops s done t)
    (hsteps : steps (othersStep current) t (since.map fun x => ops x.1) = some u)
    (hcalls : ∀ x ∈ since, (ops x.1).takesMutexlock = false) :
    OneByOne ops s (done ++ since) u := by
  induction since generalizing done t with
  | nil =>
    obtain rfl := Option.some.inj hsteps
    rwa [List.append_nil]
  | cons x since ih =>
    obtain ⟨w, hw, hrest⟩ := Option.bind_eq_some_iff.mp hsteps
    have hfirst : Happens (ops x.1) x.2 t w := by
      rw [othersStep] at hw
      refine ⟨(Option.ite_none_right_eq_some.mp hw).2, fun htakes => ?_⟩
      rw [hcalls x List.mem_cons_self] at htakes
      cases htakes
    have hrest := ih (h.snoc hfirst) hrest fun y hy => hcalls y (List.mem_cons_of_mem x hy)
    rwa [List.append_assoc] at hrest

/-! ## Threads in sections -/

/-- An exported function is one function that holds `list_lock`. -/
theorem call_statements (c : Call) :
    ∃ (β : Type) (body : Prog State β) (result : β → Returned),
      c.statements = .critical body (fun x => .ret (result x)) ∧
        ∀ s, (body.run s).1 = { s with registry := (c.exec s.registry).1 } := by
  cases c with
  | getVectorAddress n =>
    exact ⟨_, _, _, rfl, fun s => congrArg Prod.fst (run_acquireStatements (.name n) s)⟩
  | getVectorAddressFromId b =>
    exact ⟨_, _, _, rfl, fun s => congrArg Prod.fst (run_acquireStatements (.bitmap b) s)⟩
  | checkAnyCurrentVector b =>
    exact ⟨_, _, _, rfl, fun s => congrArg Prod.fst (run_acquireStatements (.bitmap b) s)⟩
  | incrementRefCountFromAddress a =>
    exact ⟨_, _, _, rfl, fun s => congrArg Prod.fst (run_incrementStatements a s)⟩
  | reduceRefCount n =>
    exact ⟨_, _, _, rfl, fun s => congrArg Prod.fst (run_releaseStatements (.name n) s)⟩
  | reduceRefCountFromAddress a =>
    exact ⟨_, _, _, rfl, fun s => congrArg Prod.fst (run_releaseStatements (.address a) s)⟩

theorem thread_of_call (c : Call) :
    ∃ result : State → Returned, (SessionOp.system (.call c)).sectionsThread =
      .act (fun s => { s with registry := (c.exec s.registry).1 }) fun s => .ret (result s) := by
  obtain ⟨β, body, result, hcode, hbody⟩ := call_statements c
  refine ⟨fun s => result (body.run s).2, ?_⟩
  have hupdate : (fun s => (body.run s).1) =
      fun s => { s with registry := (c.exec s.registry).1 } := funext hbody
  rw [SessionOp.sectionsThread, if_neg (by simp [SessionOp.takesMutexlock]), SessionOp.statements,
    hcode, ← hupdate]
  rfl

theorem thread_of_ioctl (call : IoctlCall) :
    call.op.sectionsThread = .lock .mutexlock (call.sections.thread unlockMutexlock) := by
  have htakes : call.op.takesMutexlock = true := rfl
  rw [SessionOp.sectionsThread, if_pos htakes, IoctlCall.op, SessionOp.statements,
    sections_customIoctl, IoctlCall.sections]

/-- The threads of the list have returned, the one that has `mutexlock` is at work, and
the others have not begun. -/
structure Progress (ops : τ → SessionOp) (d : Machine τ Lock State Returned)
    (past : List (τ × Returned)) : Prop where
  nodup : (past.map Prod.fst).Nodup
  ended : ∀ x ∈ past, d.thread x.1 = .ret x.2
  without : ∀ x ∈ past, d.owner .mutexlock ≠ some x.1
  idle : ∀ v, d.owner .mutexlock ≠ some v → v ∉ past.map Prod.fst →
    d.thread v = (ops v).sectionsThread

/-- The call of thread `x` is in progress, after `done`; the calls `since` of exported functions
have come between its sections. -/
structure Underway (ops : τ → SessionOp) (s : State) (d : Machine τ Lock State Returned) (x : τ)
    (call : IoctlCall) (p : Sections) (done since : List (τ × Returned)) : Prop where
  owner : d.owner .mutexlock = some x
  op : ops x = call.op
  thread : d.thread x = p.thread unlockMutexlock
  turns : ∃ u turns, OneByOne ops s done u ∧
    steps (turn (othersStep call.current)) (u, call.sections) turns = some (d.shared, p) ∧
      events turns = since.map fun y => ops y.1
  calls : ∀ y ∈ since, (ops y.1).takesMutexlock = false
  progress : Progress ops d (done ++ since)

/-- What the machine of sections has done so far. -/
inductive Serialized (ops : τ → SessionOp) (s : State) (d : Machine τ Lock State Returned) : Prop
  | between (done : List (τ × Returned)) : d.owner .mutexlock = none →
      OneByOne ops s done d.shared → Progress ops d done → Serialized ops s d
  | during {x : τ} {call : IoctlCall} {p : Sections} {done since : List (τ × Returned)} :
      Underway ops s d x call p done since → Serialized ops s d

variable {d e : Machine τ Lock State Returned} {past past' : List (τ × Returned)} {x v : τ}
  {p : Sections}

theorem Serialized.start (ops : τ → SessionOp) (s : State) :
    Serialized ops s (concurrentSections ops s) :=
  .between [] rfl .nil ⟨List.nodup_nil, by simp, by simp, fun _ _ _ => rfl⟩

variable [DecidableEq τ] {owner : Lock → Option τ} {q : Thread Lock State Returned}

theorem Progress.ended_of_ne (h : Progress ops d past) (hv : v ∉ past.map Prod.fst) :
    ∀ y ∈ past, Function.update d.thread v q y.1 = .ret y.2 := by
  intro y hy
  have hne : y.1 ≠ v := by
    rintro rfl
    exact hv (List.mem_map_of_mem hy)
  rw [Function.update_of_ne hne]
  exact h.ended y hy

theorem Progress.running (h : Progress ops d past) (hstep : d.step v = some e) :
    v ∉ past.map Prod.fst := by
  intro hmem
  obtain ⟨y, hy, rfl⟩ := List.mem_map.mp hmem
  rw [Machine.step_ret (h.ended y hy)] at hstep
  cases hstep

/-- The thread that has `mutexlock` goes on, or a thread takes it. -/
theorem Progress.works (h : Progress ops d past) (hv : v ∉ past.map Prod.fst)
    (hsole : ∀ w, d.owner .mutexlock = some w → w = v) (howner : owner .mutexlock = some v) :
    Progress ops ⟨t, owner, Function.update d.thread v q⟩ past := by
  refine ⟨h.nodup, h.ended_of_ne hv, fun y hy howns => ?_, fun w hw hpast => ?_⟩
  · obtain rfl : v = y.1 := Option.some.inj (howner.symm.trans howns)
    exact hv (List.mem_map_of_mem hy)
  · have hne : w ≠ v := by
      rintro rfl
      exact hw howner
    have hbefore : d.owner .mutexlock ≠ some w := fun howns => hne (hsole w howns)
    exact (Function.update_of_ne hne ..).trans (h.idle w hbefore hpast)

/-- A thread ends, without `mutexlock`. -/
theorem Progress.ends (h : Progress ops d past) (hv : v ∉ past.map Prod.fst)
    (hperm : past'.Perm ((v, r) :: past)) (hout : owner .mutexlock ≠ some v)
    (hothers : ∀ w, w ≠ v → (owner .mutexlock = some w ↔ d.owner .mutexlock = some w)) :
    Progress ops ⟨t, owner, Function.update d.thread v (.ret r)⟩ past' := by
  have hfst : (past'.map Prod.fst).Perm (v :: past.map Prod.fst) := hperm.map Prod.fst
  refine ⟨hfst.nodup_iff.mpr (List.nodup_cons.mpr ⟨hv, h.nodup⟩), fun y hy => ?_, fun y hy => ?_,
    fun w hw hpast => ?_⟩
  · obtain rfl | hy := List.mem_cons.mp (hperm.mem_iff.mp hy)
    · exact Function.update_self ..
    · exact h.ended_of_ne hv y hy
  · obtain rfl | hy := List.mem_cons.mp (hperm.mem_iff.mp hy)
    · exact hout
    · have hne : y.1 ≠ v := by
        rintro rfl
        exact hv (List.mem_map_of_mem hy)
      exact fun howns => h.without y hy ((hothers y.1 hne).mp howns)
  · rw [hfst.mem_iff, List.mem_cons, not_or] at hpast
    obtain ⟨hne, hpast⟩ := hpast
    have hbefore : d.owner .mutexlock ≠ some w := fun howns => hw ((hothers w hne).mpr howns)
    exact (Function.update_of_ne hne ..).trans (h.idle w hbefore hpast)

/-! ## Steps -/

/-- An ioctl call begins. -/
theorem Serialized.begins (hfree : d.owner .mutexlock = none)
    (horder : OneByOne ops s done d.shared) (h : Progress ops d done)
    (hv : v ∉ done.map Prod.fst) (hop : ops v = call.op) (hstep : d.step v = some e) :
    Serialized ops s e := by
  have hidle := h.idle v (by simp [hfree]) hv
  rw [hop, thread_of_ioctl] at hidle
  have hlock := Machine.step_lock hidle hfree
  obtain rfl := Option.some.inj (hstep.symm.trans hlock)
  have howner : Function.update d.owner .mutexlock (some v) .mutexlock = some v :=
    Function.update_self ..
  have hprogress := h.works (t := d.shared) (q := call.sections.thread unlockMutexlock) hv
    (by simp [hfree]) howner
  rw [← List.append_nil done] at hprogress
  exact .during ⟨howner, hop, Function.update_self .., ⟨d.shared, [], horder, rfl, rfl⟩,
    by simp, hprogress⟩

/-- An exported function is called while no ioctl call is in progress. -/
theorem Serialized.calls {c : Call} (hfree : d.owner .mutexlock = none)
    (horder : OneByOne ops s done d.shared) (h : Progress ops d done) (hv : v ∉ done.map Prod.fst)
    (hop : ops v = .system (.call c)) (hstep : d.step v = some e) : Serialized ops s e := by
  obtain ⟨result, hthread⟩ := thread_of_call c
  have hidle := h.idle v (by simp [hfree]) hv
  rw [hop, hthread] at hidle
  have hact := Machine.step_act hidle
  obtain rfl := Option.some.inj (hstep.symm.trans hact)
  have hhappens : Happens (ops v) (result d.shared) d.shared
      { d.shared with registry := (c.exec d.shared.registry).1 } := by
    rw [hop]
    exact ⟨rfl, fun htakes => by cases htakes⟩
  have horder : OneByOne ops s (done ++ [(v, result d.shared)]) _ := horder.snoc hhappens
  refine .between _ hfree horder (h.ends hv ?_ (by simp [hfree]) fun _ _ => Iff.rfl)
  exact List.perm_append_singleton ..

/-- A section of the ioctl call. -/
theorem Underway.proceeds {update : State → State} {next : State → Sections}
    (h : Underway ops s d x call (.act update next) done since) (hstep : d.step x = some e) :
    Serialized ops s e := by
  have hact := Machine.step_act h.thread
  have hx := h.progress.running hstep
  obtain rfl := Option.some.inj (hstep.symm.trans hact)
  obtain ⟨u, turns, horder, hturns, hevents⟩ := h.turns
  have hown : turn (othersStep call.current) (d.shared, Prog.act update next) .own =
      some (update d.shared, next d.shared) := rfl
  refine .during ⟨h.owner, h.op, Function.update_self .., ⟨u, turns ++ [.own], horder,
    steps_concat hturns hown, ?_⟩, h.calls, h.progress.works hx ?_ h.owner⟩
  · rw [events_append]
    exact (List.append_nil _).trans hevents
  · exact fun w howns => Option.some.inj (howns.symm.trans h.owner)

omit [DecidableEq τ] in
/-- The whole ioctl call has happened at one moment between the calls that came between its
sections. -/
theorem Underway.serial {returned : Int64 × Option (List UInt8)} (hops : ∀ y, Request s (ops y))
    (h : Underway ops s d x call (.ret (.ok returned)) done since) :
    ∃ before after, since = before ++ after ∧
      OneByOne ops s (done ++ before ++ [(x, .ok returned)] ++ after) d.shared := by
  obtain ⟨u, turns, horder, hturns, hevents⟩ := h.turns
  have hrequest {t : State} {done : List (τ × Returned)} (horder : OneByOne ops s done t) :
      Request t call.op :=
    h.op ▸ (hops x).same (horder.same hops)
  obtain ⟨as, bs, t, hsplit, hbefore, hresult, hafter⟩ :=
    (customIoctl_reducible call.current call.request call.param call.env).serial
      (fun _ _ _ => othersStep_live) (hrequest horder).of_ioctl.1 hturns
  rw [hevents] at hsplit
  obtain ⟨before, after, rfl, rfl, rfl⟩ := List.map_eq_append_iff.mp hsplit
  have hthen := horder.calls hbefore fun y hy => h.calls y (List.mem_append_left _ hy)
  have hhappens : Happens (ops x) (.ok returned) t (call.sections.run t).1 := by
    rw [h.op]
    exact (hrequest hthen).happens (Prod.ext rfl hresult)
  have hwhole : OneByOne ops s (done ++ before ++ [(x, .ok returned)]) _ := hthen.snoc hhappens
  exact ⟨before, after, rfl,
    hwhole.calls hafter fun y hy => h.calls y (List.mem_append_right _ hy)⟩

/-- The ioctl call releases `mutexlock`. -/
theorem Underway.finishes {returned : Int64 × Option (List UInt8)} (hops : ∀ y, Request s (ops y))
    (h : Underway ops s d x call (.ret (.ok returned)) done since) (hstep : d.step x = some e) :
    Serialized ops s e := by
  have hunlock := Machine.step_unlock h.thread
  have hx := h.progress.running hstep
  obtain rfl := Option.some.inj (hstep.symm.trans hunlock)
  obtain ⟨before, after, rfl, horder⟩ := h.serial hops
  have hfree : Function.update d.owner .mutexlock none .mutexlock = none :=
    Function.update_self ..
  refine .between _ hfree horder (h.progress.ends hx ?_ (by simp) fun w hw => ?_)
  · rw [← List.append_assoc done, List.append_assoc (done ++ before), List.singleton_append]
    exact List.perm_middle
  · simp [h.owner, Ne.symm hw]

/-- An exported function is called between two sections of the ioctl call. -/
theorem Underway.called {c : Call} (h : Underway ops s d x call p done since) (hvx : v ≠ x)
    (hop : ops v = .system (.call c)) (hstep : d.step v = some e) : Serialized ops s e := by
  have hv := h.progress.running hstep
  have hout : d.owner .mutexlock ≠ some v := by simp [h.owner, Ne.symm hvx]
  obtain ⟨result, hthread⟩ := thread_of_call c
  have hidle := h.progress.idle v hout hv
  rw [hop, hthread] at hidle
  have hact := Machine.step_act hidle
  obtain rfl := Option.some.inj (hstep.symm.trans hact)
  obtain ⟨u, turns, horder, hturns, hevents⟩ := h.turns
  have hother : turn (othersStep call.current) (d.shared, p) (.other (ops v)) =
      some ({ d.shared with registry := (c.exec d.shared.registry).1 }, p) := by
    rw [hop]
    rfl
  have hperm : (done ++ (since ++ [(v, result d.shared)])).Perm
      ((v, result d.shared) :: (done ++ since)) := by
    rw [← List.append_assoc]
    exact List.perm_append_singleton ..
  have hprogress := h.progress.ends
    (t := { d.shared with registry := (c.exec d.shared.registry).1 }) hv hperm hout
    fun _ _ => Iff.rfl
  refine .during ⟨h.owner, h.op, (Function.update_of_ne (Ne.symm hvx) ..).trans h.thread,
    ⟨u, turns ++ [.other (ops v)], horder, steps_concat hturns hother, ?_⟩, fun y hy => ?_,
    hprogress⟩
  · rw [events_append, List.map_append, hevents]
    rfl
  · obtain hy | hy := List.mem_append.mp hy
    · exact h.calls y hy
    · obtain rfl := List.mem_singleton.mp hy
      rw [hop]
      rfl

/-- The cases are who moves, and whether an ioctl call is in progress. -/
theorem Serialized.step (hops : ∀ y, Request s (ops y)) (h : Serialized ops s d)
    (hstep : d.step v = some e) : Serialized ops s e := by
  have hv := hops v
  cases h with
  | between done hfree horder hprogress =>
    have hout := hprogress.running hstep
    generalize hop : ops v = op at hv
    cases hv with
    | ioctl call => exact .begins hfree horder hprogress hout hop hstep
    | call c => exact .calls hfree horder hprogress hout hop hstep
  | @during x _ p _ _ hunderway =>
    by_cases hvx : v = x
    · subst hvx
      cases p with
      | act update next => exact hunderway.proceeds hstep
      | ret result =>
        cases result with
        | ok returned => exact hunderway.finishes hops hstep
        | error fault =>
          rw [Machine.step_ret hunderway.thread] at hstep
          cases hstep
    · generalize hop : ops v = op at hv
      cases hv with
      | ioctl call =>
        -- another ioctl call waits for `mutexlock`
        have hout : d.owner .mutexlock ≠ some v := by simp [hunderway.owner, Ne.symm hvx]
        have hidle := hunderway.progress.idle v hout (hunderway.progress.running hstep)
        rw [hop, thread_of_ioctl] at hidle
        rw [Machine.step, hidle] at hstep
        obtain ⟨hfree, -⟩ := Option.ite_none_right_eq_some.mp hstep
        rw [hunderway.owner] at hfree
        cases hfree
      | call c => exact hunderway.called hvx hop hstep

theorem Serialized.reaches (hops : ∀ y, Request s (ops y))
    (h : (concurrentSections ops s).Reaches d) : Serialized ops s d :=
  h.invariant (Serialized ops s) (fun _ _ _ hd _ hstep => hd.step hops hstep)
    (Serialized.start ops s)

omit [DecidableEq τ] in
/-- A thread that has not begun waits for a mutex. -/
theorem Request.first (h : Request s op) : ∃ l p, op.thread = .lock l p := by
  cases h with
  | ioctl call => exact ⟨_, _, rfl⟩
  | call c =>
    obtain ⟨β, body, result, hcode, -⟩ := call_statements c
    rw [SessionOp.thread, if_neg (by simp [SessionOp.takesMutexlock]), SessionOp.statements, hcode]
    exact ⟨_, _, rfl⟩

omit [DecidableEq τ] in
theorem Request.begins (h : Request s op) (r : Returned) : op.sectionsThread ≠ .ret r := by
  cases h with
  | ioctl call =>
    rw [thread_of_ioctl]
    intro hret
    cases hret
  | call c =>
    obtain ⟨result, hthread⟩ := thread_of_call c
    rw [hthread]
    intro hret
    cases hret

omit [DecidableEq τ] in
theorem Underway.busy (h : Underway ops s d x call p done since) :
    (∀ r, d.thread x ≠ .ret (.ok r)) ∧ ∀ l q, d.thread x ≠ .lock l q := by
  rw [h.thread]
  constructor
  · intro r hret
    cases p with
    | act update next => cases hret
    | ret result => cases result <;> cases hret
  · intro l q hlock
    cases p with
    | act update next => cases hlock
    | ret result => cases result <;> cases hlock

/-- Any number of ioctl calls and calls of exported functions, interleaved statement by statement,
have happened one after the other whenever none of them is in progress: each ioctl call has
returned what it returns at its place in that order, and the state is the one at its end. -/
theorem calls_serializable (ops : τ → SessionOp) (s : State) (hops : ∀ t, Request s (ops t))
    {c : Machine τ Lock State Returned} (h : (concurrently ops s).Reaches c)
    (hquiet : ∀ t, c.thread t = (ops t).thread ∨ ∃ r, c.thread t = .ret (.ok r)) :
    ∃ done, OneByOne ops s done c.shared ∧ (done.map Prod.fst).Nodup ∧
      ∀ t r, (t, r) ∈ done ↔ c.thread t = .ret r := by
  obtain ⟨d, hreaches, hd⟩ := concurrently_abstracts h
  have hfree : c.owner .listLock = none := by
    rw [Option.eq_none_iff_forall_ne_some]
    intro t howner
    have hgoes := (hd.inside t howner).goes
    obtain ⟨l, p, hfirst⟩ := (hops t).first
    obtain hidle | ⟨r, hret⟩ := hquiet t
    · simp [hidle, hfirst] at hgoes
    · simp [hret] at hgoes
  have hlowers (t : τ) := hd.outside t (by simp [hfree])
  cases Serialized.reaches hops hreaches with
  | between done hnone horder hprogress =>
    refine ⟨done, hd.free hfree ▸ horder, hprogress.nodup, fun t r => ?_⟩
    constructor
    · intro hmem
      have hended := hlowers t
      rw [hprogress.ended (t, r) hmem] at hended
      exact hended.of_ret
    · intro hret
      have hended := hd.ended hret
      have hmem : t ∈ done.map Prod.fst := by
        by_contra hout
        rw [hprogress.idle t (by simp [hnone]) hout] at hended
        exact (hops t).begins r hended
      obtain ⟨⟨t, r'⟩, hy, rfl⟩ := List.mem_map.mp hmem
      obtain rfl := Thread.ret.inj (hended.symm.trans (hprogress.ended _ hy))
      exact hy
  | @during x call _ _ _ hunderway =>
    obtain ⟨hreturned, hwaits⟩ := hunderway.busy
    obtain hidle | ⟨r, hret⟩ := hquiet x
    · have hlock := hlowers x
      rw [hidle, hunderway.op] at hlock
      obtain ⟨_, hwaiting⟩ := hlock.of_lock (by decide)
      exact (hwaits _ _ hwaiting).elim
    · exact absurd (hd.ended hret) (hreturned r)

end

theorem setAndAsk_requests (t : Bool) : Request sampleBoot (setAndAsk t) := by
  cases t with
  | false =>
    exact .ioctl ⟨task1, IOCTL_SET, nameParam vector1Name, sampleEnv 12288⟩ rfl (by decide)
  | true => exact .call (.getVectorAddress vector1Name)

theorem calls_serializable_setAndAsk :
    ∃ c, (concurrently setAndAsk sampleBoot).Reaches c ∧ (∀ t, ∃ r, c.thread t = .ret (.ok r)) ∧
      ∃ done, OneByOne setAndAsk sampleBoot done c.shared ∧ (done.map Prod.fst).Nodup ∧
        ∀ t r, (t, r) ∈ done ↔ c.thread t = .ret r := by
  let order := List.replicate 13 false ++ List.replicate 10 true ++ List.replicate 4 false
  obtain ⟨c, h, hset, hask⟩ : ∃ c,
      steps Machine.step (concurrently setAndAsk sampleBoot) order = some c ∧
        (∃ r, c.thread false = .ret (.ok r)) ∧ ∃ r, c.thread true = .ret (.ok r) :=
    ⟨_, rfl, ⟨_, rfl⟩, _, rfl⟩
  have hreaches : (concurrently setAndAsk sampleBoot).Reaches c :=
    Run.of_steps (fun _ _ _ => trivial) h
  have hended (t : Bool) : ∃ r, c.thread t = .ret (.ok r) := by
    cases t with
    | false => exact hset
    | true => exact hask
  exact ⟨c, hreaches, hended,
    calls_serializable setAndAsk sampleBoot setAndAsk_requests hreaches fun t => .inr (hended t)⟩

end SyscallVector.Audit
