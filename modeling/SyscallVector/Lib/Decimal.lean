import Mathlib.Data.List.TakeWhile
import Mathlib.Tactic.IntervalCases

/-!
# Decimal numerals as bytes

The numerals that `sprintf` writes for `%lu` and `%d`, and the value that
`strtol` reads back in base ten. A numeral consists of digits only and is read
back as the number it was written for, so distinct numbers have distinct
numerals.
-/
namespace SyscallVector.Lib

set_option autoImplicit false

/-- The byte of a decimal digit, `'0'` being 48. -/
def digit (d : Nat) : UInt8 := 48 + UInt8.ofNat d

/-- The numeral of a natural number in base ten. -/
def decimal (n : Nat) : List UInt8 := (Nat.toDigits 10 n).map Char.toUInt8

/-- The numeral of a signed number, as `%d` prints it. -/
def decimalInt (i : Int) : List UInt8 :=
  if i < 0 then 45 :: decimal (-i).toNat else decimal i.toNat

def isDigit (c : UInt8) : Bool := 48 ≤ c && c ≤ 57

/-- The value of a sequence of digits, most significant first. -/
def digitsValue (l : List UInt8) : Nat :=
  l.foldl (fun acc c => 10 * acc + (c.toNat - 48)) 0

theorem digitChar_toUInt8 {d : Nat} (h : d < 10) : (Nat.digitChar d).toUInt8 = digit d := by
  interval_cases d <;> decide

theorem toNat_digit {d : Nat} (h : d < 10) : (digit d).toNat = 48 + d := by
  interval_cases d <;> decide

theorem isDigit_iff (c : UInt8) : isDigit c = true ↔ 48 ≤ c.toNat ∧ c.toNat ≤ 57 := by
  simp [isDigit, UInt8.le_iff_toNat_le]

theorem isDigit_digit {d : Nat} (h : d < 10) : isDigit (digit d) = true := by
  rw [isDigit_iff, toNat_digit h]
  omega

theorem decimal_eq_if (n : Nat) :
    decimal n = if n < 10 then [digit n] else decimal (n / 10) ++ [digit (n % 10)] := by
  unfold decimal
  rw [Nat.toDigits_eq_if (by decide)]
  split
  · rename_i h
    simp [digitChar_toUInt8 h]
  · simp [digitChar_toUInt8 (Nat.mod_lt n (by decide))]

theorem decimal_of_lt {n : Nat} (h : n < 10) : decimal n = [digit n] := by
  rw [decimal_eq_if, if_pos h]

theorem decimal_of_ge {n : Nat} (h : 10 ≤ n) :
    decimal n = decimal (n / 10) ++ [digit (n % 10)] := by
  rw [decimal_eq_if, if_neg (by omega)]

theorem decimal_ne_nil (n : Nat) : decimal n ≠ [] := by
  rw [decimal_eq_if]
  split <;> simp

theorem isDigit_of_mem_decimal (n : Nat) : ∀ c ∈ decimal n, isDigit c = true := by
  induction n using Nat.strong_induction_on with
  | _ n ih =>
    by_cases h : n < 10
    · rw [decimal_of_lt h]
      simpa using isDigit_digit h
    · rw [decimal_of_ge (by omega)]
      intro c hc
      rcases List.mem_append.mp hc with hc | hc
      · exact ih (n / 10) (by omega) c hc
      · obtain rfl := List.mem_singleton.mp hc
        exact isDigit_digit (Nat.mod_lt n (by decide))

/-- A byte that is no digit, such as NUL, newline or `-`, occurs in no numeral. -/
theorem not_mem_decimal {c : UInt8} (hc : isDigit c = false) (n : Nat) : c ∉ decimal n := by
  intro h
  rw [isDigit_of_mem_decimal n c h] at hc
  cases hc

theorem digitsValue_append (l : List UInt8) (c : UInt8) :
    digitsValue (l ++ [c]) = 10 * digitsValue l + (c.toNat - 48) := by
  simp [digitsValue, List.foldl_append]

/-- Reading a numeral back gives the number it was written for. -/
@[simp] theorem digitsValue_decimal (n : Nat) : digitsValue (decimal n) = n := by
  induction n using Nat.strong_induction_on with
  | _ n ih =>
    by_cases h : n < 10
    · rw [decimal_of_lt h]
      simp [digitsValue, toNat_digit h]
    · rw [decimal_of_ge (by omega), digitsValue_append, ih (n / 10) (by omega),
        toNat_digit (Nat.mod_lt n (by decide))]
      omega

theorem decimal_injective : Function.Injective decimal :=
  Function.LeftInverse.injective digitsValue_decimal

theorem length_decimal_le_iff {n k : Nat} (hk : 0 < k) :
    (decimal n).length ≤ k ↔ n < 10 ^ k := by
  rw [decimal, List.length_map, Nat.length_toDigits_le_iff (by decide) hk]

theorem decimalInt_of_nonneg {i : Int} (h : 0 ≤ i) : decimalInt i = decimal i.toNat := by
  rw [decimalInt, if_neg (by omega)]

theorem not_mem_decimalInt {c : UInt8} (hc : isDigit c = false) (hminus : c ≠ 45) (i : Int) :
    c ∉ decimalInt i := by
  rw [decimalInt]
  split
  · rw [List.mem_cons, not_or]
    exact ⟨hminus, not_mem_decimal hc _⟩
  · exact not_mem_decimal hc _

/-- A sign and as many digits as the magnitude takes. -/
theorem length_decimalInt_le {i : Int} {k : Nat} (hk : 0 < k) (h : i.natAbs < 10 ^ k) :
    (decimalInt i).length ≤ k + 1 := by
  rw [decimalInt]
  split
  · have hle : (decimal (-i).toNat).length ≤ k := (length_decimal_le_iff hk).mpr (by omega)
    rw [List.length_cons]
    omega
  · have hle : (decimal i.toNat).length ≤ k := (length_decimal_le_iff hk).mpr (by omega)
    omega

/-- The bytes that `isspace` accepts. -/
def isSpace (c : UInt8) : Bool := c == 32 || (9 ≤ c && c ≤ 13)

/-- `strtol` in base ten on a 64-bit `long`: blanks, an optional sign, digits up
to the first other byte; a value outside the range is clamped. -/
def strtol (s : List UInt8) : Int :=
  let digits (l : List UInt8) : Int := digitsValue (l.takeWhile isDigit)
  match s.dropWhile isSpace with
  | 45 :: t => max (-(digits t)) (-2 ^ 63)
  | 43 :: t => min (digits t) (2 ^ 63 - 1)
  | t => min (digits t) (2 ^ 63 - 1)

/-- `strtol` reads a numeral that fits a `long` as its number. -/
theorem strtol_decimal {n : Nat} (h : n < 2 ^ 63) : strtol (decimal n) = n := by
  obtain ⟨c, t, ht⟩ := List.exists_cons_of_ne_nil (decimal_ne_nil n)
  have hall := isDigit_of_mem_decimal n
  have hc : isDigit c = true := hall c (by rw [ht]; exact List.mem_cons_self)
  have hcv := (isDigit_iff c).mp hc
  have hspace : isSpace c = false := by
    simp only [isSpace, Bool.or_eq_false_iff, beq_eq_false_iff_ne, Bool.and_eq_false_iff,
      decide_eq_false_iff_not, UInt8.le_iff_toNat_le, ne_eq, ← UInt8.toNat_inj]
    refine ⟨?_, Or.inr ?_⟩
    · change ¬ c.toNat = 32; omega
    · change ¬ c.toNat ≤ 13; omega
  have hdrop : (decimal n).dropWhile isSpace = decimal n := by
    rw [ht, List.dropWhile_cons_of_neg (by simp [hspace])]
  have htake : (decimal n).takeWhile isDigit = decimal n :=
    List.takeWhile_eq_self_iff.mpr fun x hx => hall x hx
  have hminus : c ≠ 45 := by
    rintro rfl
    revert hc; decide
  have hplus : c ≠ 43 := by
    rintro rfl
    revert hc; decide
  have hvalue : (digitsValue ((c :: t).takeWhile isDigit) : Int) = n := by
    rw [← ht, htake, digitsValue_decimal]
  unfold strtol
  rw [hdrop, ht]
  split
  · rename_i heq
    exact absurd (List.cons.inj heq).1 hminus
  · rename_i heq
    exact absurd (List.cons.inj heq).1 hplus
  · dsimp only
    rw [hvalue]
    omega

end SyscallVector.Lib
