import SyscallVector.Audit.HandlerOutcomes

/-!
# The table that a call goes through

All overridden calls of all tasks share one static variable. The first call that gets as
far as the table, by a task whose vector has one, sets it for good; from then on every
task goes through that table, whatever its own vector says.
-/
namespace SyscallVector.Audit

set_option autoImplicit false

open Lib Model

/-- One earlier call, with the state of the kernel at that time. -/
structure TaskCall where
  state : State
  current : Pid
  call : OverriddenCall
  env : HandlerEnv

def TaskCall.exec (c : TaskCall) (ptr : Address) : HandlerOutcome :=
  c.call.exec c.state c.current c.env ptr

/-- The static variable after a sequence of calls. -/
def staticAfter (history : List TaskCall) (ptr : Address) : Address :=
  history.foldl (fun ptr c => (c.exec ptr).syscallTablePtr) ptr

/-- Every call of the sequence satisfies `P` with the static variable that it finds. -/
def Throughout (P : TaskCall → Address → Prop) (calls : List TaskCall) (ptr : Address) : Prop :=
  ∀ earlier c later, calls = earlier ++ c :: later → P c (staticAfter earlier ptr)

/-- The call gets as far as the table; `loggedWrite` starts there. -/
def TaskCall.Reaches (c : TaskCall) : Prop :=
  (∃ fd buf count, c.call = .loggedWrite fd buf count) ∨
    Passes c.current c.env (refusal c.env c.call)

/-- The call sets a static variable that is NULL. -/
def TaskCall.Caches (c : TaskCall) : Prop := c.Reaches ∧ ownTable c.state c.current ≠ 0

/-- The first call of the history that caches a table, if there is one, caches this. -/
def FirstTableIs (history : List TaskCall) (table : Address) : Prop :=
  ∀ earlier c later, history = earlier ++ c :: later → (∀ d ∈ earlier, ¬d.Caches) → c.Caches →
    ownTable c.state c.current = table

/-! ## One call -/

section
variable {s : State} {current : Pid} {env : HandlerEnv} {ptr : Address} {call : OverriddenCall}

/-- Every original is called through the table used. -/
theorem exec_table {inv : Invocation}
    (h : .original inv ∈ (call.exec s current env ptr).events) :
    inv.table = usedTable s current ptr := by
  have houtcome := exec_outcome s current env ptr call
  generalize call.exec s current env ptr = o at h houtcome
  cases houtcome with
  | logged houtcome =>
    cases houtcome with
    | noTable | unnamed | unopened | noFile | noBuffer | noPath =>
      exact absurd h List.not_mem_nil
    | logged => exact logAndWrite_table.2 inv h
    | plain =>
      cases List.mem_singleton.mp h
      rfl
  | common _ houtcome =>
    cases houtcome with
    | unnamed | refused | unopened | unreadable | noTable => exact absurd h List.not_mem_nil
    | forwarded =>
      cases List.mem_singleton.mp h
      rfl

/-- A call leaves the table that it used and does not come back without one, or it does not
get there. -/
theorem exec_static (c : TaskCall) (ptr : Address) :
    (c.Reaches ∧ (c.exec ptr).syscallTablePtr = usedTable c.state c.current ptr ∧
      (usedTable c.state c.current ptr = 0 → ∃ fault, (c.exec ptr).ret = .error fault)) ∨
      ¬c.Reaches ∧ (c.exec ptr).syscallTablePtr = ptr := by
  obtain ⟨s, current, call, env⟩ := c
  rw [TaskCall.exec, TaskCall.Reaches]
  have houtcome := exec_outcome s current env ptr call
  generalize call.exec s current env ptr = o at houtcome
  cases houtcome with
  | @logged fd buf count _ houtcome =>
    refine .inl ⟨.inl ⟨fd, buf, count, rfl⟩, ?_⟩
    cases houtcome with
    | noTable hnull => exact ⟨hnull.symm, fun _ => ⟨_, rfl⟩⟩
    | unnamed htable | unopened htable | noFile htable | noBuffer htable | noPath htable
    | plain htable => exact ⟨rfl, fun hnull => absurd hnull htable⟩
    | logged htable => exact ⟨logAndWrite_table.1, fun hnull => absurd hnull htable⟩
  | common hnot houtcome =>
    have hreaches : (∃ fd buf count, call = .loggedWrite fd buf count) ∨
        Passes current env (refusal env call) ↔ Passes current env (refusal env call) :=
      or_iff_right fun ⟨fd, buf, count, h⟩ => hnot fd buf count h
    dsimp only
    rw [hreaches]
    cases houtcome with
    | unnamed hname => exact .inr ⟨not_passes_unnamed hname, rfl⟩
    | unopened hname hfile => exact .inr ⟨not_passes_unopened hname hfile, rfl⟩
    | refused hread hrefuse | unreadable hread hrefuse =>
      refine .inr ⟨?_, rfl⟩
      rw [passes_read hread, hrefuse]
      exact nofun
    | noTable hpass hnull => exact .inl ⟨hpass, hnull.symm, fun _ => ⟨_, rfl⟩⟩
    | forwarded hpass htable => exact .inl ⟨hpass, rfl, fun hnull => absurd hnull htable⟩

end

/-! ## A history -/

theorem usedTable_of_set {s : State} {current : Pid} {ptr : Address} (h : ptr ≠ 0) :
    usedTable s current ptr = ptr := if_neg h

theorem usedTable_null (s : State) (current : Pid) : usedTable s current 0 = ownTable s current :=
  if_pos rfl

theorem staticAfter_cons (c : TaskCall) (history : List TaskCall) (ptr : Address) :
    staticAfter (c :: history) ptr = staticAfter history (c.exec ptr).syscallTablePtr := rfl

theorem throughout_cons {P : TaskCall → Address → Prop} {c : TaskCall} {calls : List TaskCall}
    {ptr : Address} :
    Throughout P (c :: calls) ptr ↔ P c ptr ∧ Throughout P calls (c.exec ptr).syscallTablePtr := by
  constructor
  · intro h
    refine ⟨h [] c calls rfl, ?_⟩
    rintro earlier d later rfl
    exact h (c :: earlier) d later rfl
  · rintro ⟨hc, hrest⟩ earlier d later hcalls
    cases earlier with
    | nil =>
      cases hcalls
      exact hc
    | cons e earlier =>
      cases hcalls
      exact hrest earlier d later rfl

/-- Once set, the static variable stays. -/
theorem staticAfter_of_set (history : List TaskCall) {ptr : Address} (h : ptr ≠ 0) :
    staticAfter history ptr = ptr := by
  induction history with
  | nil => rfl
  | cons c history ih =>
    have hkeep : (c.exec ptr).syscallTablePtr = ptr := by
      rcases exec_static c ptr with ⟨-, hused, -⟩ | ⟨-, hsame⟩
      · rw [hused, usedTable_of_set h]
      · exact hsame
    rw [staticAfter_cons, hkeep, ih]

theorem exec_caches {c : TaskCall} (h : c.Caches) :
    (c.exec 0).syscallTablePtr = ownTable c.state c.current := by
  rcases exec_static c 0 with ⟨-, hused, -⟩ | ⟨hnot, -⟩
  · rw [hused, usedTable_null]
  · exact absurd h.1 hnot

theorem exec_not_caches {c : TaskCall} (h : ¬c.Caches) : (c.exec 0).syscallTablePtr = 0 := by
  rcases exec_static c 0 with ⟨hreaches, hused, -⟩ | ⟨-, hsame⟩
  · rw [hused, usedTable_null]
    by_contra hne
    exact h ⟨hreaches, hne⟩
  · exact hsame

theorem staticAfter_none {history : List TaskCall} (h : ∀ c ∈ history, ¬c.Caches) :
    staticAfter history 0 = 0 := by
  induction history with
  | nil => rfl
  | cons c history ih =>
    obtain ⟨hc, hrest⟩ := List.forall_mem_cons.mp h
    rw [staticAfter_cons, exec_not_caches hc, ih hrest]

/-- The first call to cache a table decides. -/
theorem staticAfter_first {earlier later : List TaskCall} {c : TaskCall}
    (hbefore : ∀ d ∈ earlier, ¬d.Caches) (hc : c.Caches) :
    staticAfter (earlier ++ c :: later) 0 = ownTable c.state c.current := by
  rw [staticAfter, List.foldl_append]
  change staticAfter (c :: later) (staticAfter earlier 0) = _
  rw [staticAfter_none hbefore, staticAfter_cons, exec_caches hc, staticAfter_of_set later hc.2]

theorem firstTableIs_iff (history : List TaskCall) {table : Address} :
    FirstTableIs history table ↔
      staticAfter history 0 = 0 ∨ staticAfter history 0 = table := by
  constructor
  · intro h
    by_cases hsome : ∃ c ∈ history, c.Caches
    · obtain ⟨earlier, c, later, rfl, hbefore, hc⟩ := exists_first hsome
      rw [staticAfter_first hbefore hc]
      exact .inr (h earlier c later rfl hbefore hc)
    · exact .inl (staticAfter_none fun c hc hcaches => hsome ⟨c, hc, hcaches⟩)
  · rintro h earlier c later rfl hbefore hc
    rw [staticAfter_first hbefore hc] at h
    exact h.resolve_left hc.2

/-! ## Every table but one's own -/

/-- Services that all succeed, and originals that return zero. -/
def openEnv : HandlerEnv where
  name := 1
  nameBytes := zeroed 4096
  behindName := []
  cmdline := some []
  file := some (some [])
  kbuf := 1
  userBuf := []
  copyFromUser := true
  str := 1
  uid := 0
  copyToUser := true
  copyBack := true
  original _ _ := 0

/-- The same services for a file with this path. -/
def fileEnv (path : List UInt8) : HandlerEnv := { openEnv with file := some (some path) }

theorem openEnv_passes (current : Pid) : Passes current openEnv allow := by
  have hname : openEnv.name ≠ 0 := by decide
  obtain ⟨processName, hread⟩ := getProcessName_read current hname rfl
  exact ⟨processName, hread, rfl⟩

/-- A read with these services goes through the table used. -/
theorem openEnv_read {s : State} {current : Pid} {ptr : Address}
    (h : usedTable s current ptr ≠ 0) :
    .original ⟨usedTable s current ptr, .read, .readWrite 0 0 0⟩ ∈
      ((OverriddenCall.read 0 0 0).exec s current openEnv ptr).events := by
  have houtcome := exec_outcome s current openEnv ptr (.read 0 0 0)
  generalize (OverriddenCall.read 0 0 0).exec s current openEnv ptr = o at houtcome
  cases houtcome with
  | common _ houtcome =>
    cases houtcome with
    | unnamed hname => exact absurd hname (by decide)
    | unopened _ hfile => cases hfile
    | refused _ hrefuse | unreadable _ hrefuse => cases hrefuse
    | noTable _ hnull => exact absurd hnull h
    | forwarded => exact List.mem_singleton_self _

/-- After any history of calls by any tasks, a task whose vector has a table is served
through it by all ten functions if and only if the first call that cached a table, if there
was one, cached that very table. -/
theorem own_table_used_iff {s : State} {current : Pid} {head : OverriddenSyscall}
    (hheld : s.vectorInfo current ≠ 0) (hhead : s.heap (s.vectorInfo current) = some head)
    (htable : head.syscallTablePtr ≠ 0) (history : List TaskCall) :
    (∀ (call : OverriddenCall) (env : HandlerEnv) (inv : Invocation),
      .original inv ∈ (call.exec s current env (staticAfter history 0)).events →
        inv.table = head.syscallTablePtr) ↔
      FirstTableIs history head.syscallTablePtr := by
  have hown : ownTable s current = head.syscallTablePtr := by
    rw [ownTable, if_neg hheld, hhead]
    rfl
  have hused : usedTable s current (staticAfter history 0) = head.syscallTablePtr ↔
      FirstTableIs history head.syscallTablePtr := by
    rw [firstTableIs_iff, usedTable, hown]
    by_cases hnull : staticAfter history 0 = 0
    · simp [hnull]
    · simp [hnull]
  rw [← hused]
  constructor
  · intro h
    by_cases hnull : usedTable s current (staticAfter history 0) = 0
    · rw [usedTable, hown] at hnull
      split at hnull
      · exact absurd hnull htable
      · rename_i hne
        exact absurd hnull hne
    · exact h (.read 0 0 0) openEnv _ (openEnv_read hnull)
  · intro h call env inv hinv
    rw [exec_table hinv, h]

/-! ## Two tasks with different tables -/

/-- After boot, task 1 holds vector1, task 2 holds vector2, and the dispatcher has stored a
table of its own in each head. -/
def tabledState : State :=
  { sampleBoot with
    tasks := fun p => if p = task1 then some 4096 else if p = task2 then some 8192 else none
    heap := fun a => (sampleBoot.heap a).map fun n =>
      { n with syscallTablePtr := if a < 8192 then 65536 else 131072 } }

/-- A read by one of the two. -/
def readBy (current : Pid) : TaskCall := ⟨tabledState, current, .read 0 0 0, openEnv⟩

theorem readBy_caches {current : Pid} (h : ownTable tabledState current ≠ 0) :
    (readBy current).Caches := ⟨.inr (openEnv_passes current), h⟩

/-- After a read by task 2 and one by task 1, task 2 is served through its own table. -/
theorem own_table_used_first :
    (∃ head, tabledState.heap (tabledState.vectorInfo task2) = some head ∧
      head.syscallTablePtr = 131072) ∧
    ∀ (call : OverriddenCall) (env : HandlerEnv) (inv : Invocation),
      .original inv ∈ (call.exec tabledState task2 env
        (staticAfter [readBy task2, readBy task1] 0)).events → inv.table = 131072 := by
  have hfirst : FirstTableIs [readBy task2, readBy task1] 131072 := by
    intro earlier c later hcalls hbefore _
    cases earlier with
    | nil =>
      obtain rfl : readBy task2 = c := (List.cons.inj hcalls).1
      decide
    | cons d earlier =>
      obtain rfl : readBy task2 = d := (List.cons.inj hcalls).1
      exact absurd (readBy_caches (by decide)) (hbefore (readBy task2) List.mem_cons_self)
  obtain ⟨head, hhead, htable⟩ : ∃ head, tabledState.heap (tabledState.vectorInfo task2) =
      some head ∧ head.syscallTablePtr = 131072 := ⟨_, rfl, rfl⟩
  have hiff := own_table_used_iff (by decide) hhead (by rw [htable]; decide)
    [readBy task2, readBy task1]
  rw [htable] at hiff
  exact ⟨⟨head, hhead, htable⟩, hiff.mpr hfirst⟩

/-- After one read by task 1, task 2 is served through the table of task 1. -/
theorem own_table_not_used :
    ∃ (s : State) (current : Pid) (head : OverriddenSyscall) (history : List TaskCall)
      (call : OverriddenCall) (env : HandlerEnv) (inv : Invocation),
      s.vectorInfo current ≠ 0 ∧ s.heap (s.vectorInfo current) = some head ∧
        head.syscallTablePtr ≠ 0 ∧
        .original inv ∈ (call.exec s current env (staticAfter history 0)).events ∧
        inv.table ≠ head.syscallTablePtr := by
  have hcaches : (readBy task1).Caches := readBy_caches (by decide)
  have hstatic : staticAfter [readBy task1] 0 = 65536 :=
    staticAfter_first (by simp : ∀ d ∈ ([] : List TaskCall), ¬d.Caches) hcaches
  have hused : usedTable tabledState task2 65536 = 65536 := usedTable_of_set (by decide)
  have hne : usedTable tabledState task2 65536 ≠ 0 := by
    rw [hused]
    decide
  have hread := openEnv_read hne
  rw [hused, ← hstatic] at hread
  exact ⟨tabledState, task2, _, [readBy task1], .read 0 0 0, openEnv,
    ⟨_, .read, .readWrite 0 0 0⟩, by decide, rfl, by decide, hread, by rw [hstatic]; decide⟩

end SyscallVector.Audit
