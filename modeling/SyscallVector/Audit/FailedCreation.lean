import SyscallVector.Audit.CreatedVector
import SyscallVector.Audit.FailedRequest

/-!
# Creations that run out of memory

`add_vector_from_bitmap` has a label for every failure, but none of them works. The
result variable is unsigned, so a failed node is never noticed; the result of the
registration is overwritten; and the two failures that are noticed return the zero that
the search left in the variable. On every path but those two the strings are never freed.
-/
namespace SyscallVector.Audit

set_option autoImplicit false

open Lib Model

/-- Some allocation that the call makes fails: a string, the node of a bit that is set, or
the entry of the registry. -/
def SomeFails (bitmap : UInt32) (env : Env) : Prop :=
  env.temp = 0 ∨ env.vectorPrefix = 0 ∨
    (∃ k row, vectorBranches[k]? = some row ∧ bitmap &&& row.1 ≠ 0 ∧ ¬Good (env.node k)) ∨
      ¬Good env.va

/-- A request for a new vector that cannot be met. -/
structure FailingCreation (s : State) (bitmap : UInt32) (env : Env) : Prop where
  valid : validateBitmap bitmap = 0
  unregistered : s.registry.lookup (.bitmap bitmap) = none
  fresh : FreshNodes s.heap env.node
  fails : SomeFails bitmap env

/-- The call reports a failure and has left nothing behind: what it allocated is free again,
each string by one `kfree`. -/
structure Undone (s t : State) (current : Pid) (err : Int32) (strings : StringUse) : Prop where
  negative : err < 0
  registry : t.registry = s.registry
  pointer : t.tasks current = s.tasks current
  listHeads : t.listHeads = s.listHeads
  listHead : t.listHead .dynamicVector = 0
  nodes : ∀ a, s.heap a = none → t.heap a = none
  strings : strings.freed.Perm strings.allocated

section
variable {s t : State} {current : Pid} {bitmap : UInt32} {env : Env} {err : Int32}

/-- A creation that finds no vector either returns zero or has moved a count. -/
theorem createOutcome_not_undone (hnone : s.registry.lookup (.bitmap bitmap) = none)
    (h : CreateOutcome s current bitmap env t err) (strings : StringUse) :
    ¬Undone s t current err strings := by
  intro hundone
  cases h with
  | reuse hv _ =>
    rw [hnone] at hv
    cases hv
  | abandon => exact absurd hundone.negative (by decide)
  | build =>
    have hsame := congrArg (fun r => r.moduleRefs .dynamicVector) hundone.registry
    exact registered_changes _ _ _ _ hsame

/-- In every state that any events lead to, a creation in which some allocation fails
returns, and is not undone. -/
theorem failed_creation_never_undone {boot s : State} (hboot : Booted boot)
    (hrun : Run step (fun _ _ => True) boot s) (current : Pid) (bitmap : UInt32) (env : Env)
    (h : FailingCreation s bitmap env) :
    ∃ t err, addVectorFromBitmap s current bitmap env = .ok (t, err) ∧
      ¬Undone s t current err (addVectorStrings s bitmap env) := by
  have hidle : Idle s := run_idle hboot hrun
  obtain ⟨t, err, hcall⟩ :=
    addVectorFromBitmap_returns current bitmap hidle.listHead h.fresh
  exact ⟨t, err, hcall,
    createOutcome_not_undone h.unregistered (addVectorFromBitmap_cases hcall) _⟩

end

theorem failingCreation_boot {env : Env} (hnode : FreshNodes sampleBoot.heap env.node)
    (hfails : SomeFails 1 env) : FailingCreation sampleBoot 1 env :=
  ⟨by decide, by decide, hnode, hfails⟩

/-- The first string of the first creation after boot cannot be allocated. -/
theorem failed_creation_never_undone_temp :
    ∃ t err, addVectorFromBitmap sampleBoot task1 1 { sampleEnv 12288 with temp := 0 } =
        .ok (t, err) ∧
      ¬Undone sampleBoot t task1 err
        (addVectorStrings sampleBoot 1 { sampleEnv 12288 with temp := 0 }) :=
  failed_creation_never_undone booted_sampleBoot .refl task1 1 _
    (failingCreation_boot freshNodes_sampleBoot (.inl rfl))

/-- Without memory for its one node, `Vector1` is registered all the same. -/
theorem failed_creation_registers :
    ¬∀ boot s current bitmap env t err, Booted boot → Run step FreshIoctl boot s →
      FailingCreation s bitmap env → addVectorFromBitmap s current bitmap env = .ok (t, err) →
      Undone s t current err (addVectorStrings s bitmap env) := by
  intro hall
  obtain ⟨t, err, hcall⟩ : ∃ t err, addVectorFromBitmap sampleBoot task1 1 nodelessEnv =
      .ok (t, err) := ⟨_, _, rfl⟩
  have hfails : SomeFails 1 nodelessEnv :=
    .inr (.inr (.inl ⟨0, _, rfl, by decide, fun h => h.1 rfl⟩))
  have hundone := hall sampleBoot sampleBoot task1 1 nodelessEnv t err booted_sampleBoot .refl
    (failingCreation_boot (freshNodes_nodelessEnv _) hfails) hcall
  exact createOutcome_not_undone (by decide) (addVectorFromBitmap_cases hcall) _ hundone

end SyscallVector.Audit
