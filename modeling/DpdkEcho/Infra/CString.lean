import Mathlib.Algebra.Ring.Int.Defs
import Mathlib.Algebra.Ring.Nat
import Mathlib.Data.List.TakeDrop

/-!
# Number and token scanning of the C library

`strtol`, `atoi`, `atol`, the conversions of `sscanf`, `strtok` and `snprintf`, with the behaviour
of glibc on a 64-bit machine. A C string is the list of its characters before the terminator.

* `strtol` skips white space, takes a sign and saturates at the limits of a `long`
* `atol` is `strtol`, `atoi` is `strtol` converted to `int`
* a conversion that matches nothing reports failure and leaves its argument alone
* `strtok` skips leading delimiters, so that empty tokens do not occur
* `snprintf` cuts the text so that it fits together with its terminator
* a stream of `fmemopen` keeps what fits into its buffer together with a terminator
-/

namespace Infra

abbrev CStr := List Char

/-- `isspace` in the C locale. -/
def isSpace (c : Char) : Bool :=
  c == ' ' || c == '\t' || c == '\n' || c == '\r' || c.toNat == 11 || c.toNat == 12

/-- The value of a decimal digit. -/
def decDigit (c : Char) : Option Nat :=
  if 48 ≤ c.toNat ∧ c.toNat ≤ 57 then some (c.toNat - 48) else none

/-- The value of a hexadecimal digit. -/
def hexDigit (c : Char) : Option Nat :=
  if 48 ≤ c.toNat ∧ c.toNat ≤ 57 then some (c.toNat - 48)
  else if 97 ≤ c.toNat ∧ c.toNat ≤ 102 then some (c.toNat - 87)
  else if 65 ≤ c.toNat ∧ c.toNat ≤ 70 then some (c.toNat - 55)
  else none

/-- Read digits of the given base after the value `acc`; the value and the rest. -/
def readDigits (base : Nat) (digit : Char → Option Nat) : Nat → CStr → Nat × CStr
  | acc, [] => (acc, [])
  | acc, c :: rest =>
    match digit c with
    | some d => readDigits base digit (acc * base + d) rest
    | none => (acc, c :: rest)

/-- An optional sign: is it a minus, and the rest. -/
def readSign : CStr → Bool × CStr
  | [] => (false, [])
  | c :: rest =>
    if c = '-' then (true, rest) else if c = '+' then (false, rest) else (false, c :: rest)

/-- White space, a sign and at least one decimal digit: sign, magnitude and the rest. -/
def scanDecimal (s : CStr) : Option (Bool × Nat × CStr) :=
  let (neg, s) := readSign (s.dropWhile isSpace)
  match s with
  | [] => none
  | c :: _ =>
    match decDigit c with
    | none => none
    | some _ =>
      let (v, rest) := readDigits 10 decDigit 0 s
      some (neg, v, rest)

/-- Convert to a signed integer of `bits` bits, keeping the low bits. -/
def wrapSigned (bits : Nat) (x : Int) : Int := Int.bmod x (2 ^ bits)

/-- A signed value, saturated to the range of a `long`. -/
def saturateLong (neg : Bool) (v : Nat) : Int :=
  if neg then max (-(v : Int)) (-2 ^ 63) else min (v : Int) (2 ^ 63 - 1)

/-- `strtol(s, NULL, 10)` -/
def strtol (s : CStr) : Int :=
  match scanDecimal s with
  | none => 0
  | some (neg, v, _) => saturateLong neg v

/-- `atol` -/
def atol (s : CStr) : Int := strtol s

/-- `atoi`: `strtol` converted to `int`. -/
def atoi (s : CStr) : Int := wrapSigned 32 (strtol s)

/-- `%hhu`: the value stored and the rest. `strtoul` negates modulo `2 ^ 64` and saturates. -/
def scanHhu (s : CStr) : Option (UInt8 × CStr) :=
  match scanDecimal s with
  | none => none
  | some (neg, v, rest) =>
    let long := if 2 ^ 64 ≤ v then 2 ^ 64 - 1 else if neg then (2 ^ 64 - v) % 2 ^ 64 else v
    some (UInt8.ofNat long, rest)

/-- `%d`: the value stored and the rest. -/
def scanD (s : CStr) : Option (Int × CStr) :=
  match scanDecimal s with
  | none => none
  | some (neg, v, rest) => some (wrapSigned 32 (saturateLong neg v), rest)

/-- A character of the format that has to match as it is. -/
def scanChar (c : Char) : CStr → Option CStr
  | [] => none
  | d :: rest => if d = c then some rest else none

/-- The digits of `%2hhx` after the optional sign. A leading `0x` counts against the width. -/
def scanHexBody (width : Nat) (s : CStr) : Option Nat :=
  match s.take width with
  | [] => none
  | '0' :: x :: rest =>
    if x = 'x' ∨ x = 'X' then some (readDigits 16 hexDigit 0 rest).1
    else some (readDigits 16 hexDigit 0 (x :: rest)).1
  | c :: rest =>
    match hexDigit c with
    | none => none
    | some d => some (readDigits 16 hexDigit d rest).1

/-- `%2hhx`: the value stored, if the conversion matches. A sign takes one of the two places. -/
def scan2hhx (s : CStr) : Option UInt8 :=
  match s.dropWhile isSpace with
  | [] => none
  | c :: rest =>
    if c = '-' then (scanHexBody 1 rest).map fun v => UInt8.ofNat (2 ^ 64 - v)
    else if c = '+' then (scanHexBody 1 rest).map UInt8.ofNat
    else (scanHexBody 2 (c :: rest)).map UInt8.ofNat

/-- `strtok`: the next token and the string after the delimiter that ended it. -/
def strtok (delims : List Char) (s : CStr) : Option (CStr × CStr) :=
  match s.dropWhile (· ∈ delims) with
  | [] => none
  | c :: rest =>
    some ((c :: rest).takeWhile (· ∉ delims), ((c :: rest).dropWhile (· ∉ delims)).drop 1)

/-- `%hhu` of `snprintf`. -/
def printHhu (b : UInt8) : CStr := Nat.toDigits 10 b.toNat

/-- `snprintf(str, size, …)`: what it leaves in the buffer when the formatted text is `text`, the
terminator included. -/
def snprintf (size : Nat) (text : CStr) : List Char :=
  if size = 0 then [] else text.take (size - 1) ++ ['\x00']

/-- `%d` and `%ld` -/
def printD (x : Int) : CStr := (if x < 0 then ['-'] else []) ++ Nat.toDigits 10 x.natAbs

/-- To the nearest integer, of two to the even one. -/
def roundHalfEven (x : Rat) : Int :=
  let part := x - x.floor
  if part < 1 / 2 ∨ (part = 1 / 2 ∧ x.floor % 2 = 0) then x.floor else x.floor + 1

/-- `%f`, with six decimals. `none` is what an invalid division gives on x86, not a number and with
its sign set. -/
def printF : Option Rat → CStr
  | none => "-nan".toList
  | some x =>
    let millionths := (roundHalfEven ((if x < 0 then -x else x) * 1000000)).toNat
    (if x < 0 then ['-'] else []) ++ Nat.toDigits 10 (millionths / 10 ^ 6) ++
      -- the decimals with their leading zeros
      '.' :: (Nat.toDigits 10 (10 ^ 6 + millionths % 10 ^ 6)).drop 1

/-- The string in a buffer of `size` bytes after `text` was written to the stream that
`fmemopen(buf, size, "w+")` opened on it, and flushed. -/
def fmemopenText (size : Nat) (text : CStr) : CStr := text.take (size - 1)

theorem fmemopenText_eq_self_iff {size : Nat} (hsize : 0 < size) {text : CStr} :
    fmemopenText size text = text ↔ text.length < size := by
  rw [fmemopenText, List.take_eq_self_iff]
  omega

/-! ## Conversions to unsigned types -/

theorem cast_emod_toNat_mod (x : Int) {m : Nat} (hm : 0 < m) :
    (((x % m).toNat % m : Nat) : Int) = x % m := by
  have hpos : 0 ≤ x % m := Int.emod_nonneg x (by omega)
  have hlt : x % m < m := Int.emod_lt_of_pos x (by omega)
  rw [Nat.mod_eq_of_lt (by omega), Int.toNat_of_nonneg hpos]

/-- Assigning to a `uint16_t` keeps the low 16 bits. -/
theorem toNat_uint16_ofInt (x : Int) : ((UInt16.ofInt x).toNat : Int) = x % 2 ^ 16 := by
  rw [UInt16.ofInt, UInt16.toNat_ofNat']
  exact cast_emod_toNat_mod x (m := 2 ^ 16) (by decide)

/-- Assigning to a `uint32_t` keeps the low 32 bits. -/
theorem toNat_uint32_ofInt (x : Int) : ((UInt32.ofInt x).toNat : Int) = x % 2 ^ 32 := by
  rw [UInt32.ofInt, UInt32.toNat_ofNat']
  exact cast_emod_toNat_mod x (m := 2 ^ 32) (by decide)

/-- Assigning to a `uint64_t` extends the sign. -/
theorem toNat_uint64_ofInt (x : Int) : ((UInt64.ofInt x).toNat : Int) = x % 2 ^ 64 := by
  rw [UInt64.ofInt, UInt64.toNat_ofNat']
  exact cast_emod_toNat_mod x (m := 2 ^ 64) (by decide)

/-! ## Decimal numerals -/

/-- The number that decimal digits denote, after the digits read so far; `none` if there is
something else between them. -/
def digitsValue (acc : Nat) (s : CStr) : Option Nat :=
  s.foldlM (fun acc c => (decDigit c).map fun d => acc * 10 + d) acc

/-- The number a decimal numeral denotes: an optional sign, then digits and nothing else. -/
def decimalOf (s : CStr) : Option Int :=
  let (neg, digits) := readSign s
  if digits.isEmpty then none
  else (digitsValue 0 digits).map fun (v : Nat) => if neg then -(v : Int) else (v : Int)

/-- The string does not go on with a decimal digit. -/
def NoDigit (s : CStr) : Prop := ∀ c rest, s = c :: rest → decDigit c = none

theorem noDigit_nil : NoDigit [] := by
  intro c rest h
  cases h

theorem noDigit_cons {c : Char} (h : decDigit c = none) (s : CStr) : NoDigit (c :: s) := by
  intro c' rest heq
  cases heq
  exact h

theorem digitsValue_cons (acc : Nat) (c : Char) (s : CStr) :
    digitsValue acc (c :: s) = (decDigit c).bind fun d => digitsValue (acc * 10 + d) s := by
  rw [digitsValue, List.foldlM_cons]
  cases decDigit c <;> rfl

/-- Digits are read up to the first other character. -/
theorem readDigits_append {rest : CStr} (hrest : NoDigit rest) :
    ∀ {s : CStr} {acc v : Nat}, digitsValue acc s = some v →
      readDigits 10 decDigit acc (s ++ rest) = (v, rest)
  | [], acc, v, h => by
    cases h
    cases rest with
    | nil => rfl
    | cons c rest => rw [List.nil_append, readDigits, hrest c rest rfl]
  | c :: s, acc, v, h => by
    rw [digitsValue_cons] at h
    obtain ⟨d, hd, htail⟩ := Option.bind_eq_some_iff.mp h
    rw [List.cons_append, readDigits, hd]
    exact readDigits_append hrest htail

theorem readDigits_of_digitsValue {s : CStr} {acc v : Nat} (h : digitsValue acc s = some v) :
    readDigits 10 decDigit acc s = (v, []) := by
  simpa using readDigits_append noDigit_nil h

/-- White space stands before the digits and letters in the character set. -/
theorem isSpace_of_le {c : Char} (h : 48 ≤ c.toNat) : isSpace c = false := by
  have hne : ∀ a : Char, a.toNat < 48 → c ≠ a := by
    rintro a ha rfl
    omega
  have h11 : c.toNat ≠ 11 := by omega
  have h12 : c.toNat ≠ 12 := by omega
  simp [isSpace, hne ' ' (by decide), hne '\t' (by decide), hne '\n' (by decide),
    hne '\r' (by decide), h11, h12]

/-- A digit is no white space. -/
theorem isSpace_of_decDigit {c : Char} {d : Nat} (h : decDigit c = some d) : isSpace c = false := by
  unfold decDigit at h
  split at h
  · next hrange => exact isSpace_of_le hrange.1
  · cases h

/-- The first character of a numeral is no white space. -/
theorem isSpace_of_readSign {c d : Char} {s ds : CStr} {neg : Bool} {x : Nat}
    (hsign : readSign (c :: s) = (neg, d :: ds)) (hx : decDigit d = some x) :
    isSpace c = false := by
  rw [readSign] at hsign
  split at hsign
  · next hminus =>
    subst hminus
    rfl
  · split at hsign
    · next hplus =>
      subst hplus
      rfl
    · cases hsign
      exact isSpace_of_decDigit hx

/-- A numeral is scanned to its end. -/
theorem scanDecimal_of_decimalOf {s : CStr} {v : Int} (h : decimalOf s = some v) :
    ∃ neg m, scanDecimal s = some (neg, m, []) ∧ v = if neg then -(m : Int) else m := by
  cases s with
  | nil => cases h
  | cons c s =>
    unfold decimalOf at h
    cases hsign : readSign (c :: s) with
    | mk neg digits =>
      rw [hsign] at h
      cases digits with
      | nil => cases h
      | cons d ds =>
        simp only [List.isEmpty_cons, Bool.false_eq_true, if_false] at h
        obtain ⟨m, hm, rfl⟩ := Option.map_eq_some_iff.mp h
        have hfirst := hm
        rw [digitsValue_cons] at hfirst
        obtain ⟨x, hx, -⟩ := Option.bind_eq_some_iff.mp hfirst
        have hdrop : (c :: s).dropWhile isSpace = c :: s := by
          rw [List.dropWhile_cons, isSpace_of_readSign hsign hx]
          rfl
        refine ⟨neg, m, ?_, rfl⟩
        rw [scanDecimal, hdrop, hsign]
        simp only [hx, readDigits_of_digitsValue hm]

/-- **`strtol` reads a numeral that fits a `long`.** -/
theorem strtol_of_decimalOf {s : CStr} {v : Int} (h : decimalOf s = some v) (hmin : -2 ^ 63 ≤ v)
    (hmax : v < 2 ^ 63) : strtol s = v := by
  obtain ⟨neg, m, hscan, rfl⟩ := scanDecimal_of_decimalOf h
  rw [strtol, hscan]
  cases neg with
  | true =>
    simp only [if_true] at hmin ⊢
    simp only [saturateLong, if_true]
    omega
  | false =>
    simp only [Bool.false_eq_true, if_false] at hmax ⊢
    simp only [saturateLong, Bool.false_eq_true, if_false]
    omega

/-- **`atoi` reads a numeral that fits an `int`.** -/
theorem atoi_of_decimalOf {s : CStr} {v : Int} (h : decimalOf s = some v) (hmin : -2 ^ 31 ≤ v)
    (hmax : v < 2 ^ 31) : atoi s = v := by
  rw [atoi, strtol_of_decimalOf h (by omega) (by omega)]
  exact Int.bmod_eq_of_le (by omega) (by omega)

end Infra
