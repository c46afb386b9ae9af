import Mathlib.Data.List.Infix
import Mathlib.Data.List.TakeWhile

/-!
# C strings and byte buffers

A buffer is the list of bytes from a pointer on. The string in it ends at the
first NUL; past the listed bytes a NUL is read. `memcpyAt` writes at an offset,
and a write that runs over the end of the buffer shows as a longer list.
-/
namespace SyscallVector.Lib

set_option autoImplicit false

/-- A `char` array of `n` bytes, with or without a NUL among them. -/
abbrev CharArray (n : Nat) := { bytes : List UInt8 // bytes.length = n }

/-- The bytes of the C string a buffer holds, without its NUL. -/
def cstr (s : List UInt8) : List UInt8 := s.takeWhile fun c => c != 0

def strlen (s : List UInt8) : Nat := (cstr s).length

/-- `strcmp`: the difference of the first bytes that differ, zero on equal strings. -/
def strcmp : List UInt8 → List UInt8 → Int
  | [], [] => 0
  | [], b :: _ => -(b.toNat : Int)
  | a :: _, [] => a.toNat
  | a :: as, b :: bs =>
    if a = b then (if a = 0 then 0 else strcmp as bs) else (a.toNat : Int) - b.toNat

/-- `strncmp` compares at most `n` bytes. -/
def strncmp (s t : List UInt8) (n : Nat) : Int := strcmp (s.take n) (t.take n)

/-- `n` zero bytes, as `kzalloc` and `memset` leave them. -/
def zeroed (n : Nat) : List UInt8 := List.replicate n 0

/-- Copy `src` into `dst` from offset `off` on. -/
def memcpyAt (dst : List UInt8) (off : Nat) (src : List UInt8) : List UInt8 :=
  dst.take off ++ src ++ dst.drop (off + src.length)

/-- One call of `strtok` on the string left to read: skip the delimiters, return
the token up to the next one and what follows it. -/
def strtok (delim : UInt8) (s : List UInt8) : Option (List UInt8 × List UInt8) :=
  match s.dropWhile (· == delim) with
  | [] => none
  | c :: t => some ((c :: t).takeWhile (· != delim), ((c :: t).dropWhile (· != delim)).tail)

/-- `strstr`: the rest of the first string from the first place where the second occurs. -/
def strstr (s t : List UInt8) : Option (List UInt8) := (cstr s).tails.find? (cstr t).isPrefixOf

@[simp] theorem cstr_nil : cstr [] = [] := rfl

theorem cstr_cons (c : UInt8) (s : List UInt8) :
    cstr (c :: s) = if c = 0 then [] else c :: cstr s := by
  by_cases h : c = 0 <;> simp [cstr, h]

theorem strlen_le_length (s : List UInt8) : strlen s ≤ s.length :=
  (List.takeWhile_prefix _).length_le

/-- As many bytes as `strlen` counts are the string. -/
theorem take_strlen (s : List UInt8) : s.take (strlen s) = cstr s :=
  (List.prefix_iff_eq_take.mp (List.takeWhile_prefix _)).symm

theorem not_mem_cstr (s : List UInt8) : (0 : UInt8) ∉ cstr s := by
  intro h
  have := List.mem_takeWhile_imp h
  simp at this

theorem cstr_eq_self {s : List UInt8} (h : (0 : UInt8) ∉ s) : cstr s = s := by
  refine List.takeWhile_eq_self_iff.mpr fun c hc => ?_
  have hne : c ≠ 0 := fun h0 => h (h0 ▸ hc)
  simpa using hne

/-- The string ends at the first NUL. -/
theorem cstr_append_nul {s : List UInt8} (h : (0 : UInt8) ∉ s) (t : List UInt8) :
    cstr (s ++ 0 :: t) = s := by
  induction s with
  | nil => simp [cstr_cons]
  | cons c s ih =>
    obtain ⟨hc, hs⟩ := List.ne_and_not_mem_of_not_mem_cons h
    rw [List.cons_append, cstr_cons, if_neg (Ne.symm hc), ih hs]

theorem cstr_append_zeroed {s : List UInt8} (h : (0 : UInt8) ∉ s) (n : Nat) :
    cstr (s ++ zeroed n) = s := by
  cases n with
  | zero => simpa [zeroed] using cstr_eq_self h
  | succ n => exact cstr_append_nul h _

/-- What follows a NUL is not read. -/
theorem cstr_append_of_mem {s : List UInt8} (h : (0 : UInt8) ∈ s) (t : List UInt8) :
    cstr (s ++ t) = cstr s := by
  induction s with
  | nil => simp at h
  | cons c s ih =>
    rw [List.cons_append, cstr_cons, cstr_cons]
    by_cases hc : c = 0
    · rw [if_pos hc, if_pos hc]
    · have hs : (0 : UInt8) ∈ s := (List.mem_cons.mp h).resolve_left (Ne.symm hc)
      rw [if_neg hc, if_neg hc, ih hs]

/-- Without a NUL the string goes on. -/
theorem cstr_append_of_not_mem {s : List UInt8} (h : (0 : UInt8) ∉ s) (t : List UInt8) :
    cstr (s ++ t) = s ++ cstr t := by
  rw [cstr, List.takeWhile_append_of_pos fun c hc => ?_]
  · rfl
  · have hne : c ≠ 0 := fun h0 => h (h0 ▸ hc)
    simpa using hne

/-- Reading on behind the bytes adds to the string at most. -/
theorem cstr_prefix_append (s t : List UInt8) : cstr s <+: cstr (s ++ t) := by
  by_cases h : (0 : UInt8) ∈ s
  · rw [cstr_append_of_mem h]
  · rw [cstr_append_of_not_mem h, cstr_eq_self h]
    exact List.prefix_append ..

/-- The empty string begins with its NUL. -/
theorem cstr_eq_nil_iff {s : List UInt8} (h : s ≠ []) : cstr s = [] ↔ s[0]? = some 0 := by
  obtain ⟨c, t, rfl⟩ := List.exists_cons_of_ne_nil h
  rw [cstr_cons, List.getElem?_cons_zero, Option.some.injEq]
  by_cases hc : c = 0 <;> simp [hc]

theorem strlen_append_zeroed {s : List UInt8} (h : (0 : UInt8) ∉ s) (n : Nat) :
    strlen (s ++ zeroed n) = s.length := by
  rw [strlen, cstr_append_zeroed h]

theorem strcmp_eq_zero_iff (s t : List UInt8) : strcmp s t = 0 ↔ cstr s = cstr t := by
  induction s generalizing t with
  | nil =>
    cases t with
    | nil => simp [strcmp]
    | cons b t =>
      by_cases hb : b = 0
      · simp [strcmp, cstr_cons, hb]
      · have : b.toNat ≠ 0 := fun h => hb (UInt8.toNat_inj.mp h)
        simp [strcmp, cstr_cons, hb, this]
  | cons a s ih =>
    cases t with
    | nil =>
      by_cases ha : a = 0
      · simp [strcmp, cstr_cons, ha]
      · have : a.toNat ≠ 0 := fun h => ha (UInt8.toNat_inj.mp h)
        simp [strcmp, cstr_cons, ha, this]
    | cons b t =>
      by_cases hab : a = b
      · subst hab
        by_cases ha : a = 0 <;> simp [strcmp, cstr_cons, ha, ih]
      · have hne : a.toNat ≠ b.toNat := fun h => hab (UInt8.toNat_inj.mp h)
        have hsub : (a.toNat : Int) - b.toNat ≠ 0 := by omega
        rw [strcmp, if_neg hab]
        refine iff_of_false hsub fun h => ?_
        rw [cstr_cons, cstr_cons] at h
        by_cases ha : a = 0
        · have hb : b ≠ 0 := fun hb => hab (ha.trans hb.symm)
          simp [ha, hb] at h
        · by_cases hb : b = 0
          · simp [ha, hb] at h
          · rw [if_neg ha, if_neg hb] at h
            exact hab (List.cons.inj h).1

/-- `strstr` finds nothing exactly when the second string is no substring of the first. -/
theorem strstr_eq_none_iff (s t : List UInt8) : strstr s t = none ↔ ¬cstr t <:+: cstr s := by
  rw [strstr, List.find?_eq_none, List.infix_iff_prefix_suffix]
  simp only [List.mem_tails, List.isPrefixOf_iff_prefix, not_exists, not_and]
  exact ⟨fun h r hr hs => h r hs hr, fun h r hs hr => h r hr hs⟩

@[simp] theorem length_zeroed (n : Nat) : (zeroed n).length = n := List.length_replicate

/-- Writing into a zeroed buffer leaves the bytes written and zeros after them. -/
theorem memcpyAt_zeroed (n : Nat) (src : List UInt8) :
    memcpyAt (zeroed n) 0 src = src ++ zeroed (n - src.length) := by
  simp [memcpyAt, zeroed]

/-- A zeroed array after a `memcpy` to its start; what goes over its end is not in the array. -/
def CharArray.copy (n : Nat) (src : List UInt8) : CharArray n :=
  ⟨(memcpyAt (zeroed n) 0 src).take n, by
    rw [memcpyAt_zeroed, List.length_take, List.length_append, length_zeroed]
    omega⟩

/-- The bytes copied, and the zeros behind them. -/
theorem CharArray.getElem_copy {n i : Nat} {src : List UInt8}
    (h : i < (CharArray.copy n src).val.length) :
    (CharArray.copy n src).val[i] = (src[i]?).getD 0 := by
  change ((memcpyAt (zeroed n) 0 src).take n)[i] = _
  simp only [List.getElem_take, memcpyAt_zeroed, List.getElem_append]
  split
  · rename_i hin
    rw [List.getElem?_eq_getElem hin, Option.getD_some]
  · rename_i hout
    rw [List.getElem?_eq_none (Nat.not_lt.mp hout), Option.getD_none]
    exact List.getElem_replicate ..

theorem CharArray.copy_val {n : Nat} {src : List UInt8} (h : src.length ≤ n) :
    (CharArray.copy n src).val = src ++ zeroed (n - src.length) := by
  change (memcpyAt (zeroed n) 0 src).take n = _
  rw [memcpyAt_zeroed, List.take_of_length_le]
  rw [List.length_append, length_zeroed]
  omega

/-- Appending to what was written so far. -/
theorem memcpyAt_append (pre src : List UInt8) (n : Nat) :
    memcpyAt (pre ++ zeroed n) pre.length src = pre ++ src ++ zeroed (n - src.length) := by
  have htake : (pre ++ zeroed n).take pre.length = pre := List.take_left
  have hdrop : (pre ++ zeroed n).drop (pre.length + src.length) = zeroed (n - src.length) := by
    rw [List.drop_append, List.drop_eq_nil_of_le (by omega), List.nil_append, zeroed,
      List.drop_replicate, zeroed]
    congr 1
    omega
  rw [memcpyAt, htake, hdrop]

/-- Text that is written over a buffer, as far as it fits, reads as the text if and only if a
NUL has been written or the buffer had one right behind it. -/
theorem cstr_overwrite_iff (buf text : List UInt8) :
    (0 : UInt8) ∈ memcpyAt buf 0 (text.take buf.length) ∧
        cstr (memcpyAt buf 0 (text.take buf.length)) = cstr text ↔
      (0 : UInt8) ∈ text.take buf.length ∨ buf[text.length]? = some 0 := by
  have hwritten : memcpyAt buf 0 (text.take buf.length) =
      text.take buf.length ++ buf.drop (text.take buf.length).length := by
    rw [memcpyAt, List.take_zero, List.nil_append, Nat.zero_add]
  rw [hwritten]
  by_cases hnul : (0 : UInt8) ∈ text.take buf.length
  · have htext : cstr text = cstr (text.take buf.length) := by
      rw [← cstr_append_of_mem hnul (text.drop buf.length), List.take_append_drop]
    refine iff_of_true ⟨List.mem_append_left _ hnul, ?_⟩ (.inl hnul)
    rw [cstr_append_of_mem hnul, htext]
  · rw [or_iff_right hnul]
    by_cases hfits : text.length < buf.length
    · have htake : text.take buf.length = text := List.take_of_length_le hfits.le
      rw [htake] at hnul ⊢
      have hrest : buf.drop text.length ≠ [] := by
        rw [ne_eq, List.drop_eq_nil_iff]
        omega
      have hempty : cstr (buf.drop text.length) = [] ↔ buf[text.length]? = some 0 := by
        rw [cstr_eq_nil_iff hrest, List.getElem?_drop, Nat.add_zero]
      rw [cstr_append_of_not_mem hnul, cstr_eq_self hnul, List.append_right_eq_self, hempty,
        and_iff_right_iff_imp]
      intro hbyte
      refine List.mem_append_right _ (List.mem_of_getElem? (i := 0) ?_)
      rw [List.getElem?_drop, Nat.add_zero, hbyte]
    · have hlong : buf.length ≤ text.length := Nat.le_of_not_lt hfits
      have hfull : (text.take buf.length).length = buf.length := List.length_take_of_le hlong
      have hbyte : buf[text.length]? = none := List.getElem?_eq_none hlong
      rw [hfull, List.drop_length, List.append_nil, hbyte]
      exact iff_of_false (fun h => hnul h.1) fun h => Option.some_ne_none 0 h.symm

theorem strtok_nil (delim : UInt8) : strtok delim [] = none := rfl

/-- A non-empty token that is followed by a delimiter is returned whole. -/
theorem strtok_token {delim : UInt8} {token : List UInt8} (hne : token ≠ [])
    (hd : delim ∉ token) (rest : List UInt8) :
    strtok delim (token ++ delim :: rest) = some (token, rest) := by
  obtain ⟨c, t, rfl⟩ := List.exists_cons_of_ne_nil hne
  obtain ⟨hc, ht⟩ := List.ne_and_not_mem_of_not_mem_cons hd
  have hall : ∀ x ∈ c :: t, (x != delim) = true := by
    intro x hx
    have : x ≠ delim := fun h => hd (h ▸ hx)
    simpa using this
  have htake : ((c :: t) ++ delim :: rest).takeWhile (· != delim) = c :: t := by
    rw [List.takeWhile_append_of_pos hall, List.takeWhile_cons_of_neg (by simp), List.append_nil]
  have hdrop : ((c :: t) ++ delim :: rest).dropWhile (· != delim) = delim :: rest := by
    rw [List.dropWhile_append_of_pos hall, List.dropWhile_cons_of_neg (by simp)]
  have hskip : ((c :: t) ++ delim :: rest).dropWhile (· == delim) = (c :: t) ++ delim :: rest := by
    rw [List.cons_append, List.dropWhile_cons_of_neg (by simpa using Ne.symm hc)]
  unfold strtok
  rw [hskip]
  simp only [List.cons_append] at htake hdrop ⊢
  rw [htake, hdrop]
  rfl

/-- What `strtok` leaves to read is shorter than what it was given. -/
theorem length_strtok_lt {delim : UInt8} {s token rest : List UInt8}
    (h : strtok delim s = some (token, rest)) : rest.length < s.length := by
  unfold strtok at h
  split at h
  · cases h
  · rename_i c t hs
    obtain ⟨-, rfl⟩ := Prod.mk.inj (Option.some.inj h)
    have hle : (c :: t).length ≤ s.length := by
      rw [← hs]
      exact List.length_dropWhile_le _ _
    have hc : c ≠ delim := by
      have := List.dropWhile_get_zero_not (· == delim) s (by rw [hs]; simp)
      simpa [hs] using this
    have htail : (((c :: t).dropWhile (· != delim)).tail).length ≤ t.length := by
      rw [List.dropWhile_cons_of_pos (by simpa using hc), List.length_tail]
      have := List.length_dropWhile_le (· != delim) t
      omega
    simp only [List.length_cons] at hle
    omega

end SyscallVector.Lib
