import SyscallVector.Lib.CString

/-!
# Traces of writes to fixed buffers

A write names the buffer it goes to, its offset and its bytes. Replaying the
writes to one buffer gives its contents; as long as every write stays inside its
buffer, replaying changes no length, so nothing behind a buffer is touched.
-/
namespace SyscallVector.Lib

set_option autoImplicit false

universe u

/-- One `memcpy`, `memset`, `sprintf` or assignment to a buffer. -/
structure Write (τ : Type u) where
  target : τ
  offset : Nat
  bytes : List UInt8
  deriving DecidableEq, Repr

variable {τ : Type u}

/-- The write ends at or before the end of its buffer. -/
def Write.InBounds (size : τ → Nat) (w : Write τ) : Prop :=
  w.offset + w.bytes.length ≤ size w.target

instance (size : τ → Nat) (w : Write τ) : Decidable (w.InBounds size) := Nat.decLe ..

/-! ## String functions -/

def Write.strcpy (t : τ) (src : List UInt8) : Write τ := ⟨t, 0, cstr src ++ [0]⟩

/-- `strcat` to a buffer with these contents. -/
def Write.strcat (t : τ) (contents src : List UInt8) : Write τ :=
  ⟨t, strlen contents, cstr src ++ [0]⟩

/-- `strncat` appends at most `n` bytes. -/
def Write.strncat (t : τ) (contents src : List UInt8) (n : Nat) : Write τ :=
  ⟨t, strlen contents, (cstr src).take n ++ [0]⟩

/-- The NUL behind a string that is appended in a zeroed buffer is one of the zeros. -/
theorem memcpyAt_string {pre src : List UInt8} {n : Nat} (hn : src.length < n) :
    memcpyAt (pre ++ zeroed n) pre.length (src ++ [0]) =
      pre ++ src ++ zeroed (n - src.length) := by
  have hzeros : [0] ++ zeroed (n - (src.length + 1)) = zeroed (n - src.length) := by
    rw [zeroed, zeroed, List.singleton_append, ← List.replicate_succ]
    congr 1
    omega
  rw [memcpyAt_append, List.length_append, List.length_singleton, List.append_assoc,
    List.append_assoc, List.append_assoc, hzeros]

/-! ## Replay -/

section
variable [DecidableEq τ] {t : τ} {ws ws' : List (Write τ)} {contents : List UInt8}

/-- The effect of a trace on the buffer `t`. -/
def replay (t : τ) (ws : List (Write τ)) (contents : List UInt8) : List UInt8 :=
  ws.foldl (fun b w => if w.target = t then memcpyAt b w.offset w.bytes else b) contents

@[simp] theorem replay_nil : replay t [] contents = contents := rfl

theorem replay_cons_of_eq {w : Write τ} (h : w.target = t) :
    replay t (w :: ws) contents = replay t ws (memcpyAt contents w.offset w.bytes) := by
  rw [replay, List.foldl_cons, if_pos h]
  rfl

theorem replay_cons_of_ne {w : Write τ} (h : w.target ≠ t) :
    replay t (w :: ws) contents = replay t ws contents := by
  rw [replay, List.foldl_cons, if_neg h]
  rfl

theorem replay_append :
    replay t (ws ++ ws') contents = replay t ws' (replay t ws contents) := by
  rw [replay, replay, List.foldl_append]
  rfl

/-- Writes to other buffers leave this one alone. -/
theorem replay_of_forall_ne (h : ∀ w ∈ ws, w.target ≠ t) : replay t ws contents = contents := by
  induction ws generalizing contents with
  | nil => rfl
  | cons w ws ih =>
    rw [replay_cons_of_ne (h w List.mem_cons_self)]
    exact ih fun w' hw' => h w' (List.mem_cons_of_mem w hw')

theorem length_memcpyAt {dst src : List UInt8} {off : Nat} (h : off + src.length ≤ dst.length) :
    (memcpyAt dst off src).length = dst.length := by
  rw [memcpyAt, List.length_append, List.length_append, List.length_take, List.length_drop]
  omega

end

end SyscallVector.Lib
