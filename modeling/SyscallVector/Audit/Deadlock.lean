import SyscallVector.Audit.Boot
import SyscallVector.Audit.ListLock

/-!
# The two mutexes

`list_lock` is always taken after `mutexlock` and released before it, so the events never wait
for each other in a circle. Only a call of the ioctl device that faults keeps a mutex, and then
no later call of the device returns. The show functions walk the list without `list_lock`, in
one statement here: what is said about the end of the events is about events beside which no
entry goes from under such a walk.
-/
namespace SyscallVector.Audit

set_option autoImplicit false

open Lib Model

/-! ## Entries -/

/-- An entry without its reference count, which is all that changes of it. -/
def uncounted (v : StructVector) : StructVector := { v with refcount := 0 }

/-- The entries are still in the list, in their order, behind those that have come. -/
def StillListed (vs : List StructVector) (s : State) : Prop :=
  vs.map uncounted <:+ s.registry.vecList.map uncounted

section
variable {β γ : Type} {vs : List StructVector} {i : Nat} {d : Int}

theorem outside_stillListed (f : State → State) (hf : Outside f) (s : State)
    (h : StillListed vs s) : StillListed vs (f s) := by
  rw [StillListed, hf.vecList s]
  exact h

theorem recount_stillListed (count : Int32) (s : State) (h : StillListed vs s) :
    StillListed vs (s.mapVecList fun ws => ws.modify i fun v => { v with refcount := count }) := by
  have hsame : (s.registry.vecList.modify i fun v => { v with refcount := count }).map uncounted =
      s.registry.vecList.map uncounted := by
    refine List.ext_getElem? fun j => ?_
    rw [List.getElem?_map, List.getElem?_map, List.getElem?_modify]
    cases s.registry.vecList[j]? with
    | none => rfl
    | some v => by_cases hj : i = j <;> simp [hj, uncounted]
  rw [StillListed]
  exact hsame ▸ h

theorem fetchEntry_keeps {field : StructVector → γ} {other : γ} {next : γ → Prog State β}
    (hnext : ∀ x, (next x).Keeps (StillListed vs)) :
    (fetchEntry i field other next).Keeps (StillListed vs) :=
  .act (fun _ h => h) fun _ => hnext _

theorem addToRefcount_keeps {next : Prog State β} (hnext : next.Keeps (StillListed vs)) :
    (addToRefcount i d next).Keeps (StillListed vs) :=
  fetchEntry_keeps fun _ => .act (fun s h => recount_stillListed _ s h) fun _ => hnext

theorem countEntryModule_keeps {next : Prog State β} (hnext : next.Keeps (StillListed vs)) :
    (countEntryModule i d next).Keeps (StillListed vs) :=
  fetchEntry_keeps fun _ => .act (fun _ h => h) fun _ => hnext

theorem searchEntries_keeps {stop : StructVector → Bool} {found : Nat → Prog State β}
    {missing : Prog State β} (hfound : ∀ i, (found i).Keeps (StillListed vs))
    (hmissing : missing.Keeps (StillListed vs)) :
    (searchEntries stop found missing).Keeps (StillListed vs) := by
  have hloop (n i : Nat) :
      (listForEachEntry stop found missing n i).Keeps (StillListed vs) := by
    induction n generalizing i with
    | zero => exact hmissing
    | succ n ih =>
      refine .act (fun _ h => h) fun s => ?_
      split
      · exact hmissing
      · split
        · exact hfound i
        · exact ih (i + 1)
  exact .act (fun _ h => h) fun s => hloop _ 0

/-- Of the functions that hold `list_lock` only `unregister_syscall` takes an entry out. -/
theorem stillListed_admits (vs : List StructVector) :
    Admits fun _ body => body.Keeps (StillListed vs) where
  acquire k := searchEntries_keeps (fun _ => addToRefcount_keeps <| countEntryModule_keeps <|
    fetchEntry_keeps fun va => .ret va) (.ret 0)
  release k := searchEntries_keeps (fun _ => addToRefcount_keeps <| fetchEntry_keeps fun refCnt =>
    countEntryModule_keeps <| .ret refCnt) (.ret (-1))
  increment a := searchEntries_keeps
    (fun _ => addToRefcount_keeps <| countEntryModule_keeps <| .ret 0) (.ret (-1))
  addVector va v := by
    rw [addVectorStatements]
    split
    · exact .ret _
    · split
      · exact .ret _
      · refine .act (fun s h => ?_) fun _ => .ret 0
        exact h.trans (List.suffix_cons (uncounted v) _)

theorem thread_keeps (vs : List StructVector) (op : KeepingOp) :
    op.1.thread.Keeps (StillListed vs) := by
  have htame := statements_tame (stillListed_admits vs) op.1 fun hremoves =>
    absurd (op.2.symm.trans hremoves) Bool.false_ne_true
  have hunlock (r : Returned) : (unlockMutexlock r).Keeps (StillListed vs) := by
    cases r with
    | error fault => exact .ret _
    | ok r => exact .unlock (.ret _)
  rw [SessionOp.thread]
  split
  · exact .lock (htame.keeps outside_stillListed (fun _ _ h => h) hunlock)
  · exact htame.keeps outside_stillListed (fun _ _ h => h) fun r => .ret r

/-- Beside events that leave the entries in the list, every entry stays where a walk that begins
now will find it. -/
theorem entries_stay {τ : Type} [DecidableEq τ] {ops : τ → KeepingOp} {s : State}
    {c d : Machine τ Lock State Returned} (hc : (concurrently (fun t => (ops t).1) s).Reaches c)
    (hd : c.Reaches d) : StillListed c.shared.registry.vecList d.shared := by
  have hthreads (t : τ) : (c.thread t).Keeps (StillListed c.shared.registry.vecList) :=
    Machine.Reaches.thread_keeps (fun t => thread_keeps _ (ops t)) hc t
  exact Machine.Reaches.keeps hthreads List.suffix_rfl hd

end

/-! ## Locks -/

/-- With which locks the thread of an event may end. -/
def lockedEnd (op : SessionOp) (held : List Lock) (r : Returned) : Prop :=
  held = if op.takesMutexlock && !r.isOk then [.mutexlock] else []

section
variable {op : SessionOp}

theorem thread_nested (op : SessionOp) : Nested Lock.rank (lockedEnd op) [] op.thread := by
  rw [SessionOp.thread]
  by_cases hop : op.takesMutexlock = true
  · rw [if_pos hop]
    refine .lock (by simp) (Code.nested _ (by simp [Lock.rank]) fun r => ?_)
    cases r with
    | error fault => exact .ret (by simp [lockedEnd, hop, Except.isOk, Except.toBool])
    | ok r => exact .unlock (.ret (by simp [lockedEnd, Except.isOk, Except.toBool]))
  · rw [if_neg hop]
    exact Code.nested _ (by simp) fun r => .ret (by simp [lockedEnd, hop])

/-- `mutexlock` is what an ioctl call begins with, and nobody else takes it. -/
theorem thread_first (op : SessionOp) :
    op.thread.Avoids .mutexlock ∨
      ∃ p, op.thread = .lock .mutexlock p ∧ p.Avoids .mutexlock := by
  rw [SessionOp.thread]
  by_cases hop : op.takesMutexlock = true
  · rw [if_pos hop]
    refine .inr ⟨_, rfl, Code.avoids _ (by decide) fun r => ?_⟩
    cases r with
    | error fault => exact .ret _
    | ok r => exact .unlock (.ret _)
  · rw [if_neg hop]
    exact .inl (Code.avoids _ (by decide) fun r => .ret r)

theorem takesMutexlock_of_thread {p : Thread Lock State Returned}
    (h : op.thread = .lock .mutexlock p) : op.takesMutexlock = true := by
  by_contra hop
  have havoids : op.thread.Avoids .mutexlock := by
    rw [SessionOp.thread, if_neg hop]
    exact Code.avoids _ (by decide) fun r => .ret r
  rw [h] at havoids
  cases havoids with
  | lock hne => exact hne rfl

end

section
variable {τ : Type} {ops : τ → SessionOp} {s : State}
  {c d : Machine τ Lock State Returned} {t u : τ} {fault : Fault}

theorem rank_le (l : Lock) : l.rank ≤ 1 := by cases l <;> decide

/-- A thread that has ended has no lock, unless it is an ioctl call that has faulted. -/
theorem ended_held {held : τ → List Lock} {r : Returned} {l : Lock}
    (h : Ordered Lock.rank (fun t => lockedEnd (ops t)) c held) (hu : c.thread u = .ret r)
    (hl : l ∈ held u) :
    l = .mutexlock ∧ (ops u).takesMutexlock = true ∧ ∃ fault, r = .error fault := by
  have hend : held u = if (ops u).takesMutexlock && !r.isOk then [.mutexlock] else [] :=
    (hu ▸ h.nested u).of_ret
  rw [hend] at hl
  cases r with
  | error fault =>
    obtain ⟨hop, hl⟩ : (ops u).takesMutexlock = true ∧ l = .mutexlock := by
      simpa [Except.isOk, Except.toBool] using hl
    exact ⟨hl, hop, fault, rfl⟩
  | ok r => simp [Except.isOk, Except.toBool] at hl

variable [DecidableEq τ]

theorem concurrently_ordered (h : (concurrently ops s).Reaches c) :
    ∃ held, Ordered Lock.rank (fun t => lockedEnd (ops t)) c held :=
  (Ordered.start fun t => thread_nested (ops t)).reaches h

/-- When no thread can go on, every event has come to its end, except for ioctl calls that have
not begun because one that has faulted keeps `mutexlock`. No other lock is kept. -/
theorem stopped_ended (h : (concurrently ops s).Reaches c) (hstopped : c.Stopped) :
    (∀ l u, c.owner l = some u → l = .mutexlock ∧ (ops u).takesMutexlock = true ∧
        ∃ fault, c.thread u = .ret (.error fault)) ∧
      ∀ t, (∃ r, c.thread t = .ret r) ∨
        ((ops t).takesMutexlock = true ∧ c.thread t = (ops t).thread ∧
          ∃ u, c.owner .mutexlock = some u) := by
  obtain ⟨held, hordered⟩ := concurrently_ordered h
  have hblocked (t : τ) (l : Lock) (p : Thread Lock State Returned)
      (hp : c.thread t = .lock l p) :
      l = .mutexlock ∧ ∃ u, c.owner .mutexlock = some u := by
    obtain ⟨u, r, k, hu, hk, hrank⟩ := hordered.stopped rank_le hstopped hp
    obtain ⟨rfl, -, -⟩ := ended_held hordered hu hk
    refine ⟨?_, u, (hordered.owns _ u).mpr hk⟩
    cases l with
    | mutexlock => rfl
    | listLock => exact absurd hrank (by decide)
  constructor
  · intro l u howner
    have hl := (hordered.owns l u).mp howner
    obtain ⟨r, hr⟩ | ⟨k, p, -, hp, -⟩ := Machine.step_eq_none (hstopped u)
    · obtain ⟨hmutex, hop, fault, rfl⟩ := ended_held hordered hr hl
      exact ⟨hmutex, hop, fault, hr⟩
    · -- a thread that waits for `mutexlock` has no lock
      obtain ⟨rfl, -⟩ := hblocked u k p hp
      have hlt := (hp ▸ hordered.nested u).of_lock.1 l hl
      exact absurd hlt (Nat.not_lt_zero _)
  · intro t
    obtain hr | ⟨k, p, -, hp, -⟩ := Machine.step_eq_none (hstopped t)
    · exact .inl hr
    · obtain ⟨rfl, howner⟩ := hblocked t k p hp
      have hfirst : c.thread t = (ops t).thread :=
        Machine.Reaches.first (fun t => thread_first (ops t)) h hp
      exact .inr ⟨takesMutexlock_of_thread (hfirst.symm.trans hp), hfirst, howner⟩

/-- Events that leave the entries in the list, in any interleaving: the entries of every moment
stay, and none of the events gets stuck, unless an ioctl call faults. -/
theorem events_end (ops : τ → KeepingOp) (s : State)
    (h : (concurrently (fun t => (ops t).1) s).Reaches c) :
    (∀ d, c.Reaches d → StillListed c.shared.registry.vecList d.shared) ∧
      (c.Stopped →
        (∀ l u, c.owner l = some u → l = .mutexlock ∧ (ops u).1.takesMutexlock = true ∧
            ∃ fault, c.thread u = .ret (.error fault)) ∧
          ∀ t, (∃ r, c.thread t = .ret r) ∨
            ((ops t).1.takesMutexlock = true ∧ c.thread t = (ops t).1.thread ∧
              ∃ u, c.owner .mutexlock = some u)) :=
  ⟨fun _ hd => entries_stay h hd, fun hstopped => stopped_ended h hstopped⟩

/-- A question about a pid that no task has, and another call. -/
def deadPidCalls : Bool → SessionOp
  | false => .system (.ioctl task1 IOCTL_VECTOR_FOR_PID ⟨[], ⟨-1⟩, 0⟩ (sampleEnv 4096))
  | true => .system (.ioctl task2 IOCTL_SHOW_MINE ⟨[], ⟨-1⟩, 0⟩ (sampleEnv 4096))

/-- Beside a fork, they come to an end. -/
def deadPidEvents : Option Bool → KeepingOp
  | none => ⟨.system (.copyProcess task1 childTask CLONE_SYSCALLS), rfl⟩
  | some b => ⟨deadPidCalls b, by cases b <;> rfl⟩

theorem events_end_deadPid :
    ∃ c, (concurrently (fun t => (deadPidEvents t).1) sampleBoot).Reaches c ∧ c.Stopped ∧
      StillListed sampleBoot.registry.vecList c.shared ∧
        ∀ t, (∃ r, c.thread t = .ret r) ∨
          ((deadPidEvents t).1.takesMutexlock = true ∧ c.thread t = (deadPidEvents t).1.thread ∧
            ∃ u, c.owner .mutexlock = some u) := by
  obtain ⟨c, hreaches, hstopped⟩ :=
    (concurrently (fun t => (deadPidEvents t).1) sampleBoot).exists_stopped
  exact ⟨c, hreaches, hstopped, (events_end deadPidEvents sampleBoot .refl).1 c hreaches,
    ((events_end deadPidEvents sampleBoot hreaches).2 hstopped).2⟩

/-- Once an ioctl call has faulted, `mutexlock` is never free again, and every ioctl call that
has not begun by then never does anything. -/
theorem fault_blocks (hc : (concurrently ops s).Reaches c) (hu : c.thread u = .ret (.error fault))
    (hop : (ops u).takesMutexlock = true) (hd : c.Reaches d) :
    d.owner .mutexlock = some u ∧
      ∀ t, (ops t).takesMutexlock = true → c.thread t = (ops t).thread →
        d.thread t = (ops t).thread := by
  obtain ⟨held, hordered⟩ := concurrently_ordered hc
  have hend : held u = if (ops u).takesMutexlock && !(Except.error fault : Returned).isOk then
      [.mutexlock] else [] := (hu ▸ hordered.nested u).of_ret
  have hmem : Lock.mutexlock ∈ held u := by
    rw [hend, hop]
    simp [Except.isOk, Except.toBool]
  obtain ⟨howner, hwait⟩ := hordered.dead hu hmem hd
  refine ⟨howner, fun t ht hfirst => ?_⟩
  have hlock : (ops t).thread =
      .lock .mutexlock ((ops t).statements.thread .listLock unlockMutexlock) := by
    rw [SessionOp.thread, if_pos ht]
  rw [hlock]
  exact hwait t _ (hfirst.trans hlock)

end

theorem fault_blocks_deadPid :
    ∃ c, (concurrently deadPidCalls sampleBoot).Reaches c ∧
      c.thread false = .ret (.error .nullPointer) ∧
        ∀ d, c.Reaches d → d.owner .mutexlock = some false ∧
          ∀ t, (deadPidCalls t).takesMutexlock = true → c.thread t = (deadPidCalls t).thread →
            d.thread t = (deadPidCalls t).thread := by
  obtain ⟨c, h, hfault⟩ : ∃ c,
      steps Machine.step (concurrently deadPidCalls sampleBoot) [false, false, false] = some c ∧
        c.thread false = .ret (.error .nullPointer) :=
    ⟨_, rfl, rfl⟩
  have hreaches : (concurrently deadPidCalls sampleBoot).Reaches c :=
    Run.of_steps (fun _ _ _ => trivial) h
  exact ⟨c, hreaches, hfault, fun d hd => fault_blocks hreaches hfault rfl hd⟩

end SyscallVector.Audit
