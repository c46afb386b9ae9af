import SyscallVector.Audit.SyscallTable
import SyscallVector.Model.HandlerTraces

/-!
# Calls without a table

`initSyscallTablePtr` returns 0 also when the caller holds no vector, and when the head of its
vector has no table. The functions take the 0 for success and read their original through
NULL. From the first call on that finds a table, this cannot happen any more.
-/
namespace SyscallVector.Audit

set_option autoImplicit false

open Lib Model

/-- The call does not read its original through NULL, and if there is no table when it looks
for one, it returns an error. -/
structure TaskCall.TableChecked (c : TaskCall) (ptr : Address) : Prop where
  nonNull : c.call.table c.state c.current c.env ptr ≠ some 0
  reported : c.Reaches → usedTable c.state c.current ptr = 0 →
    ∃ ret, (c.exec ptr).ret = .ok ret ∧ ret < 0

/-- The first call that gets as far as the table, if there is one, is made by a task that holds
a vector with a table. -/
def FirstHasTable (calls : List TaskCall) : Prop :=
  ∀ earlier c later, calls = earlier ++ c :: later → (∀ d ∈ earlier, ¬d.Reaches) → c.Reaches →
    ownTable c.state c.current ≠ 0

section
variable {s : State} {current : Pid} {env : HandlerEnv} {ptr table : Address} {c : TaskCall}

/-! ## One call -/

theorem readTable_some (h : readTable s current ptr = some table) :
    usedTable s current ptr = table := by
  rw [readTable] at h
  rcases ensureTablePtr_cases s current ptr 8787 with htable | ⟨-, -, fault, hfault⟩
  · rw [htable] at h
    exact Option.some.inj h
  · rw [hfault] at h
    cases h

theorem overriddenTable_some {refuse : List UInt8 → Except Fault (Option Int32)}
    (h : overriddenTable s current env ptr refuse = some table) :
    Passes current env refuse ∧ usedTable s current ptr = table := by
  rw [overriddenTable] at h
  cases hread : getProcessName current env with
  | error fault =>
    rw [hread] at h
    cases h
  | ok name =>
    rw [hread] at h
    cases name with
    | none => cases h
    | some processName =>
      cases hrefuse : refuse processName with
      | error fault => simp [hrefuse] at h
      | ok ret =>
        cases ret with
        | some ret => simp [hrefuse] at h
        | none =>
          refine ⟨⟨processName, hread, hrefuse⟩, readTable_some ?_⟩
          simpa [hrefuse] using h

theorem table_common {call : OverriddenCall}
    (h : ∀ fd buf count, call ≠ .loggedWrite fd buf count) :
    call.table s current env ptr = overriddenTable s current env ptr (refusal env call) := by
  cases call with
  | loggedWrite fd buf count => exact absurd rfl (h fd buf count)
  | read | write | «open» | close | link | unlink | mkdir | rmdir | blockedOpen => rfl

/-- A call reads its original from the table used, once it gets there. -/
theorem table_some (h : c.call.table c.state c.current c.env ptr = some table) :
    c.Reaches ∧ usedTable c.state c.current ptr = table := by
  obtain ⟨s, current, call, env⟩ := c
  cases call with
  | loggedWrite fd buf count => exact ⟨.inl ⟨fd, buf, count, rfl⟩, readTable_some h⟩
  | read | write | «open» | close | link | unlink | mkdir | rmdir | blockedOpen =>
    rw [table_common (by simp)] at h
    obtain ⟨hpass, hused⟩ := overriddenTable_some h
    exact ⟨.inr hpass, hused⟩

/-- Without a table, a call that looks for one does not come back. -/
theorem exec_noTable (hreaches : c.Reaches) (hnull : usedTable c.state c.current ptr = 0) :
    ∃ fault, (c.exec ptr).ret = .error fault := by
  rcases exec_static c ptr with ⟨-, -, hfault⟩ | ⟨hnot, -⟩
  · exact hfault hnull
  · exact absurd hreaches hnot

theorem tableChecked_iff (c : TaskCall) (ptr : Address) :
    c.TableChecked ptr ↔ (c.Reaches → usedTable c.state c.current ptr ≠ 0) := by
  constructor
  · intro h hreaches hnull
    obtain ⟨ret, hret, -⟩ := h.reported hreaches hnull
    obtain ⟨fault, hfault⟩ := exec_noTable hreaches hnull
    rw [hret] at hfault
    cases hfault
  · intro h
    refine ⟨fun hread => ?_, fun hreaches hnull => absurd hnull (h hreaches)⟩
    obtain ⟨hreaches, hnull⟩ := table_some hread
    exact h hreaches hnull

/-! ## Sequences of calls -/

theorem staticAfter_unreached {calls : List TaskCall} (h : ∀ c ∈ calls, ¬c.Reaches) :
    staticAfter calls 0 = 0 :=
  staticAfter_none fun c hc hcaches => h c hc hcaches.1

/-- From the load of the module on, whatever tasks make which calls, none of them reads its
original through NULL or fails to report a missing table if and only if the first one that gets
as far as the table finds one in the vector of its caller. -/
theorem tables_checked_iff (calls : List TaskCall) :
    Throughout TaskCall.TableChecked calls 0 ↔ FirstHasTable calls := by
  constructor
  · intro h earlier c later hcalls hbefore hreaches
    have hused := (tableChecked_iff c _).mp (h earlier c later hcalls) hreaches
    rw [staticAfter_unreached hbefore, usedTable_null] at hused
    exact hused
  · intro h earlier c later hcalls
    rw [tableChecked_iff]
    intro hreaches
    by_cases hsome : ∃ d ∈ earlier, d.Reaches
    · -- an earlier call has set the variable
      obtain ⟨before, d, after, rfl, hbefore, hd⟩ := exists_first hsome
      have htable := h before d (after ++ c :: later) (by simp [hcalls]) hbefore hd
      have hnone : ∀ e ∈ before, ¬e.Caches := fun e he hcaches => hbefore e he hcaches.1
      rw [staticAfter_first hnone ⟨hd, htable⟩, usedTable_of_set htable]
      exact htable
    · have hbefore : ∀ d ∈ earlier, ¬d.Reaches := fun d hd hr => hsome ⟨d, hd, hr⟩
      rw [staticAfter_unreached hbefore, usedTable_null]
      exact h earlier c later hcalls hbefore hreaches

end

/-- A read by a task whose vector has just been built, with no table in its head. -/
theorem tables_not_checked : ¬∀ calls, Throughout TaskCall.TableChecked calls 0 := by
  intro hall
  let s : State := sampleBoot.setVectorInfo task1 4096
  let c : TaskCall := ⟨s, task1, .read 0 0 0, openEnv⟩
  have hfirst := (tables_checked_iff [c]).mp (hall [c]) [] c [] rfl (by simp)
    (.inr (openEnv_passes task1))
  exact hfirst (by decide)

end SyscallVector.Audit
