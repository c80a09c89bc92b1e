import Mathlib
import LeftHookRoll.Lib.Search

/-!
# Byte strings and the C library on them

A `std::string` is a list of bytes. `cstr` is what a call that takes a `const char*` sees of it. The
number readers follow the C library: leading blanks and a sign are read, an overflow saturates.
-/

namespace LeftHookRoll

abbrev Bytes := List UInt8

/-- The bytes of a string literal of the source. -/
def ascii (s : String) : Bytes := s.toList.map fun c => UInt8.ofNat c.toNat

def CR : UInt8 := 13
def LF : UInt8 := 10
def slash : UInt8 := 47
def dot : UInt8 := 46

def crlf : Bytes := [13, 10]
def crlfcrlf : Bytes := [13, 10, 13, 10]

/-- The part of a `std::string` that its `c_str()` shows: up to the first NUL. -/
def cstr (s : Bytes) : Bytes := s.takeWhile (· ≠ 0)

/-- `std::string::substr`, for a position inside the string. -/
def substr (s : Bytes) (pos len : Nat) : Bytes := (s.drop pos).take len

def isspace (c : UInt8) : Bool := c = 32 ∨ (9 ≤ c ∧ c ≤ 13)

def isdigit (c : UInt8) : Bool := 48 ≤ c ∧ c ≤ 57

def tolower (c : UInt8) : UInt8 := if 65 ≤ c ∧ c ≤ 90 then c + 32 else c

def toupper (c : UInt8) : UInt8 := if 97 ≤ c ∧ c ≤ 122 then c - 32 else c

def lowercase (s : Bytes) : Bytes := s.map tolower

/-- The value of a hexadecimal digit. -/
def hexVal (c : UInt8) : Option Nat :=
  if isdigit c then some (c.toNat - 48)
  else if 65 ≤ c ∧ c ≤ 70 then some (c.toNat - 55)
  else if 97 ≤ c ∧ c ≤ 102 then some (c.toNat - 87)
  else none

/-- The value that a run of digits adds to `acc`. -/
def foldDigits (base : Nat) (val : UInt8 → Option Nat) (acc : Nat) (ds : Bytes) : Nat :=
  ds.foldl (fun v d => v * base + (val d).getD 0) acc

def decVal (c : UInt8) : Option Nat := if isdigit c then some (c.toNat - 48) else none

/-- An optional sign: whether it is a minus, and what follows. -/
def readSign : Bytes → Bool × Bytes
  | 45 :: s => (true, s)
  | 43 :: s => (false, s)
  | s => (false, s)

/-- The value and the rest (`*endPtr` on) of `strtoll(s, &endPtr, 10)`. -/
def strtoll10 (s : Bytes) : Int × Bytes :=
  let t := readSign ((cstr s).dropWhile isspace)
  let ds := t.2.takeWhile isdigit
  let v := foldDigits 10 decVal 0 ds
  if ds = [] then (0, cstr s)
  else if t.1 then (max (-2 ^ 63) (-v), t.2.dropWhile isdigit)
  else (min (2 ^ 63 - 1) v, t.2.dropWhile isdigit)

/-- The `0x` that `strtoul` accepts in base 16. -/
def skipHexPrefix : Bytes → Bytes
  | 48 :: x :: s => if toupper x = 88 then s else 48 :: x :: s
  | s => s

/-- `strtoul(s, NULL, 16)`: a minus sign negates modulo `2 ^ 64`, an overflow gives `ULONG_MAX`. -/
def strtoul16 (s : Bytes) : Nat :=
  let t := readSign ((cstr s).dropWhile isspace)
  let v := foldDigits 16 hexVal 0 ((skipHexPrefix t.2).takeWhile fun c => (hexVal c).isSome)
  if 2 ^ 64 ≤ v then 2 ^ 64 - 1 else if t.1 then (2 ^ 64 - v) % 2 ^ 64 else v

/-- `atoi`: the 64-bit value cut to an `int`. -/
def atoi (s : Bytes) : Int := Int.bmod (strtoll10 s).1 (2 ^ 32)

/-- `ostream << n` for an unsigned number. -/
def decimal (n : Nat) : Bytes := (Nat.toDigits 10 n).map fun c => UInt8.ofNat c.toNat

/-- `ostream << n` for an `int`. -/
def decimalInt (n : Int) : Bytes := if n < 0 then 45 :: decimal n.natAbs else decimal n.natAbs

theorem cstr_isPrefix (s : Bytes) : cstr s <+: s := List.takeWhile_prefix _

theorem cstr_eq_self {s : Bytes} (h : 0 ∉ s) : cstr s = s :=
  List.takeWhile_eq_self_iff.2 fun c hc => by
    simpa using fun hz : c = 0 => h (hz ▸ hc)

theorem cstr_append {s : Bytes} (h : 0 ∉ s) (t : Bytes) : cstr (s ++ t) = s ++ cstr t := by
  rw [cstr, List.takeWhile_append_of_pos]
  · rfl
  · intro c hc
    simpa using fun hz : c = 0 => h (hz ▸ hc)

/-- The number that decimal digits stand for. -/
def decimalValue (ds : Bytes) : Nat := foldDigits 10 decVal 0 ds

theorem not_isspace_of_isdigit {c : UInt8} (h : isdigit c) : ¬ isspace c := by
  rw [isdigit, decide_eq_true_eq, UInt8.le_iff_toNat_le, UInt8.le_iff_toNat_le] at h
  rw [isspace, decide_eq_true_eq, UInt8.le_iff_toNat_le, UInt8.le_iff_toNat_le]
  rintro (rfl | hc)
  · exact absurd h.1 (by decide)
  · have h48 : (48 : UInt8).toNat ≤ c.toNat := h.1
    have h13 : c.toNat ≤ (13 : UInt8).toNat := hc.2
    exact absurd (h48.trans h13) (by decide)

/-- `strtoll` reads plain digits exactly, up to its maximum. -/
theorem strtoll10_digits {v : Bytes} (hne : v ≠ []) (h : ∀ c ∈ v, isdigit c) :
    strtoll10 v = (min (2 ^ 63 - 1) (decimalValue v : Int), []) := by
  obtain ⟨c, v, rfl⟩ := List.exists_cons_of_ne_nil hne
  have hc := h c List.mem_cons_self
  have hnul : 0 ∉ c :: v := fun hmem => absurd (h 0 hmem) (by decide)
  have hskip : (c :: v).dropWhile isspace = c :: v := by
    rw [List.dropWhile_cons, if_neg (not_isspace_of_isdigit hc)]
  have hsign : readSign (c :: v) = (false, c :: v) := by
    unfold readSign
    split
    · rename_i heq
      rw [(List.cons.inj heq).1] at hc
      exact absurd hc (by decide)
    · rename_i heq
      rw [(List.cons.inj heq).1] at hc
      exact absurd hc (by decide)
    · rfl
  have htake : (c :: v).takeWhile isdigit = c :: v := List.takeWhile_eq_self_iff.2 h
  have hdrop : (c :: v).dropWhile isdigit = [] := List.dropWhile_eq_nil_iff.2 h
  simp only [strtoll10, cstr_eq_self hnul, hskip, hsign, htake, hdrop, if_neg (List.cons_ne_nil c v)]
  rfl

theorem isdigit_of_mem_decimal {n : Nat} {c : UInt8} (h : c ∈ decimal n) : isdigit c := by
  obtain ⟨ch, hch, rfl⟩ := List.mem_map.1 h
  have hdigit : ch.isDigit = true := Nat.isDigit_of_mem_toDigits (by decide) (by decide) hch
  rw [Char.isDigit, Bool.and_eq_true, decide_eq_true_eq, decide_eq_true_eq] at hdigit
  have hlow : 48 ≤ ch.toNat := hdigit.1
  have hhigh : ch.toNat ≤ 57 := hdigit.2
  rw [isdigit, decide_eq_true_eq]
  simp only [UInt8.le_iff_toNat_le, UInt8.toNat_ofNat', UInt8.toNat_ofNat]
  omega

theorem strtoul16_lt (s : Bytes) : strtoul16 s < 2 ^ 64 := by
  unfold strtoul16
  simp only
  split
  · omega
  · split
    · exact Nat.mod_lt _ (by omega)
    · omega

example : strtoul16 (ascii "1aF;x") = 431 := by decide
example : strtoul16 (ascii "-2") = 2 ^ 64 - 2 := by decide

end LeftHookRoll
