import SyscallVector.Model.VecLoadUnload

/-!
# The listing in user space

`display_vectors` of tests/user_ioctl1.c, which prints the buffer that
`IOCTL_SHOW_ALL` fills.
-/
namespace SyscallVector.Model

set_option autoImplicit false

open Lib

/-- What is printed for one token; `overrides` are the flavour bits for which a
further line follows. -/
inductive Shown where
  | vectorName (token : List UInt8)
  | vectorId (token : List UInt8)
  | bitNo (bitmap : Int32) (overrides : List UInt32)
  deriving DecidableEq, Repr

/-- The flavour bits that `display_vectors` tests, in its order. -/
def displayedBits : List UInt32 :=
  [READ_OVERRIDE, WRITE_OVERRIDE, OPEN_OVERRIDE, CLOSE_OVERRIDE, LINK_OVERRIDE, UNLINK_OVERRIDE,
    MKDIR_OVERRIDE, RMDIR_OVERRIDE, WRITE_LOGGED, OPEN_BLOCKED]

def showBitmap (bitmap : Int32) : Shown :=
  .bitNo bitmap (displayedBits.filter fun bit => bitmap.toUInt32 &&& bit ≠ 0)

/-- The body of the `switch`. -/
def showToken (i : Nat) (token : List UInt8) : Shown :=
  match i % 3 with
  | 0 => showBitmap (Int32.ofInt (strtol token))
  | 1 => .vectorName token
  | _ => .vectorId token

/-- The loop over the tokens. -/
def displayTokens (i : Nat) (s : List UInt8) : List Shown :=
  match h : strtok 10 s with
  | none => []
  | some (token, rest) =>
    have : rest.length < s.length := length_strtok_lt h
    showToken i token :: displayTokens (i + 1) rest
  termination_by s.length

def displayVectors (buf : List UInt8) : List Shown := displayTokens 1 (cstr buf)

theorem displayTokens_none {s : List UInt8} (h : strtok 10 s = none) (i : Nat) :
    displayTokens i s = [] := by
  rw [displayTokens]
  split
  case h_1 => rfl
  case h_2 heq => rw [h] at heq; cases heq

theorem displayTokens_some {s token rest : List UInt8} (h : strtok 10 s = some (token, rest))
    (i : Nat) : displayTokens i s = showToken i token :: displayTokens (i + 1) rest := by
  rw [displayTokens]
  split
  case h_1 heq => rw [h] at heq; cases heq
  case h_2 token' rest' heq =>
    rw [h] at heq
    cases heq
    rfl

/-- A line of the buffer is one token. -/
theorem displayTokens_line {token : List UInt8} (hne : token ≠ []) (hline : (10 : UInt8) ∉ token)
    (i : Nat) (rest : List UInt8) :
    displayTokens i (token ++ 10 :: rest) = showToken i token :: displayTokens (i + 1) rest :=
  displayTokens_some (strtok_token hne hline rest) i

end SyscallVector.Model
