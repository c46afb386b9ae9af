import SyscallVector.Audit.SyscallTable
import SyscallVector.Model.HandlerTraces

/-!
# References on a written file

`loggedWrite` asks `fget` for the file behind a descriptor and never gives the reference back.
Each write to an open file adds one, and a close, which drops one, no longer releases the file.
-/
namespace SyscallVector.Audit

set_option autoImplicit false

open Lib Model

/-- A call of `loggedWrite`. -/
def TaskCall.Writes (c : TaskCall) : Prop := ∃ fd buf count, c.call = .loggedWrite fd buf count

def TaskCall.Returns (c : TaskCall) (ptr : Address) : Prop := ∃ ret, (c.exec ptr).ret = .ok ret

/-- The references that a call takes and drops on the file that it writes. -/
def TaskCall.fileRefs (c : TaskCall) (ptr : Address) : List FileRef :=
  match c.call with
  | .loggedWrite fd _ _ => loggedWriteRefs c.state c.current c.env ptr fd
  | _ => []

/-- The number of references after a sequence of calls on one file. -/
def refsAfterCalls : List TaskCall → Address → Nat → Nat
  | [], _, refs => refs
  | c :: calls, ptr, refs =>
    refsAfterCalls calls (c.exec ptr).syscallTablePtr (refsAfter refs (c.fileRefs ptr))

/-- The number of references is the same after the call. -/
def TaskCall.KeepsRefs (c : TaskCall) (ptr : Address) : Prop :=
  ∀ refs, refsAfter refs (c.fileRefs ptr) = refs

/-- Each call keeps the references on the file, and a close releases a file that was opened
once before them. -/
structure Balanced (calls : List TaskCall) (ptr : Address) : Prop where
  kept : Throughout TaskCall.KeepsRefs calls ptr
  released : refsAfter (refsAfterCalls calls ptr 1) [.fput] = 0

/-- The call gets no file: it ends before `fget` or goes to a standard stream, or no file is
open under its number. -/
def GetsNoFile (env : HandlerEnv) (fd : Int32) : Prop := env.name = 0 ∨ fd < 3 ∨ env.file = none

def TaskCall.Fileless (c : TaskCall) : Prop :=
  ∀ fd buf count, c.call = .loggedWrite fd buf count → GetsNoFile c.env fd

section
variable {s : State} {current : Pid} {env : HandlerEnv} {ptr : Address} {fd : Int32}
  {buf : Address} {count : UInt64} {c : TaskCall} {calls : List TaskCall}

/-! ## One write -/

/-- A write that returns takes one reference or none. -/
theorem loggedWriteRefs_cases {ret : Int32}
    (h : (loggedWrite s current env ptr fd buf count).ret = .ok ret) :
    GetsNoFile env fd ∧ loggedWriteRefs s current env ptr fd = [] ∨
      ¬GetsNoFile env fd ∧ loggedWriteRefs s current env ptr fd = [.fget] := by
  have hstart := tableAndName s current env ptr
  rw [loggedWrite] at h
  rw [loggedWriteRefs]
  generalize ensureTablePtr s current ptr 8787 = found at hstart h ⊢
  generalize getProcessName current env = name at hstart h ⊢
  cases hstart with
  | lost => cases h
  | noTable => cases h
  | unnamed htable hname =>
    dsimp only
    rw [if_neg Bool.false_ne_true, if_neg htable]
    exact .inl ⟨.inl hname, rfl⟩
  | unopened htable =>
    dsimp only at h
    rw [if_neg Bool.false_ne_true, if_neg htable] at h
    cases h
  | named htable hname =>
    dsimp only
    rw [if_neg Bool.false_ne_true, if_neg htable]
    by_cases hfd : fd < 3
    · rw [if_pos hfd]
      exact .inl ⟨.inr (.inl hfd), rfl⟩
    · rw [if_neg hfd]
      cases hfile : env.file with
      | none => exact .inl ⟨.inr (.inr hfile), rfl⟩
      | some found =>
        refine .inr ⟨?_, rfl⟩
        rintro (h0 | h0 | h0)
        · exact hname h0
        · exact hfd h0
        · rw [hfile] at h0
          cases h0

/-- A write that returns keeps the references if and only if it gets no file. -/
theorem keepsRefs_iff (hwrites : c.Writes) (hreturns : c.Returns ptr) :
    c.KeepsRefs ptr ↔ c.Fileless := by
  obtain ⟨s, current, call, env⟩ := c
  obtain ⟨fd, buf, count, rfl⟩ := hwrites
  obtain ⟨ret, hret⟩ := hreturns
  have hfileless : TaskCall.Fileless ⟨s, current, .loggedWrite fd buf count, env⟩ ↔
      GetsNoFile env fd := by
    constructor
    · exact fun h => h fd buf count rfl
    · intro h fd' buf' count' hcall
      cases hcall
      exact h
  rw [hfileless]
  have hrefs : TaskCall.fileRefs ⟨s, current, .loggedWrite fd buf count, env⟩ ptr =
      loggedWriteRefs s current env ptr fd := rfl
  rcases loggedWriteRefs_cases hret with ⟨hnone, hempty⟩ | ⟨hsome, hone⟩
  · refine iff_of_true (fun refs => ?_) hnone
    rw [hrefs, hempty]
    rfl
  · refine iff_of_false (fun h => ?_) hsome
    have hkept := h 0
    rw [hrefs, hone] at hkept
    exact absurd hkept (by decide)

/-! ## Sequences of writes -/

theorem refsAfterCalls_of_kept (h : Throughout TaskCall.KeepsRefs calls ptr) (refs : Nat) :
    refsAfterCalls calls ptr refs = refs := by
  induction calls generalizing ptr with
  | nil => rfl
  | cons c calls ih =>
    obtain ⟨hc, hrest⟩ := throughout_cons.mp h
    rw [refsAfterCalls, hc, ih hrest]

/-- Any number of writes to one file, by any tasks, whatever the services do: each of them
keeps the references on the file, and a close releases it afterwards, if and only if none of
them gets the file. -/
theorem file_references_balanced_iff (hwrites : ∀ c ∈ calls, c.Writes)
    (hreturns : Throughout TaskCall.Returns calls ptr) :
    Balanced calls ptr ↔ ∀ c ∈ calls, c.Fileless := by
  have hkept : Throughout TaskCall.KeepsRefs calls ptr ↔ ∀ c ∈ calls, c.Fileless := by
    constructor
    · intro h c hc
      obtain ⟨earlier, later, rfl⟩ := List.append_of_mem hc
      exact (keepsRefs_iff (hwrites c hc) (hreturns earlier c later rfl)).mp
        (h earlier c later rfl)
    · rintro h earlier c later rfl
      have hc : c ∈ earlier ++ c :: later := List.mem_append_right _ List.mem_cons_self
      exact (keepsRefs_iff (hwrites c hc) (hreturns earlier c later rfl)).mpr (h c hc)
  rw [← hkept]
  refine ⟨Balanced.kept, fun h => ⟨h, ?_⟩⟩
  rw [refsAfterCalls_of_kept h]
  rfl

end

/-- A write of 5 bytes to the file `/a` by task 1. -/
def writeCall (fd : Int32) : TaskCall :=
  ⟨sampleBoot, task1, .loggedWrite fd 4096 5, fileEnv (ascii ['/', 'a'])⟩

/-- A write to the standard output. -/
theorem file_references_balanced_stdout : Balanced [writeCall 1] 65536 := by
  have hwrites : ∀ c ∈ [writeCall 1], c.Writes := by
    intro c hc
    obtain rfl := List.mem_singleton.mp hc
    exact ⟨1, 4096, 5, rfl⟩
  have hreturns : Throughout TaskCall.Returns [writeCall 1] 65536 := by
    refine throughout_cons.mpr ⟨⟨0, rfl⟩, ?_⟩
    intro earlier c later hcalls
    simp at hcalls
  refine (file_references_balanced_iff hwrites hreturns).mpr fun c hc => ?_
  obtain rfl := List.mem_singleton.mp hc
  intro fd buf count hcall
  cases hcall
  exact .inr (.inl (by decide))

/-- One write to an open file leaves a reference behind. -/
theorem file_references_not_balanced :
    ¬∀ (c : TaskCall) (ptr : Address), c.Writes → c.Returns ptr → c.KeepsRefs ptr := by
  intro hall
  have hkept := hall (writeCall 3) 65536 ⟨3, 4096, 5, rfl⟩ ⟨0, rfl⟩ 1
  exact absurd hkept (by decide)

end SyscallVector.Audit
