import Mathlib.Tactic.Ring
import DpdkEcho.Infra.ScanGrammar
import DpdkEcho.Config

/-!
# Addresses as text (`utils/exp.c`)

`ip_to_str` prints the bytes of an address from the memory of a little-endian machine, `str_to_ip`
puts the numbers it reads together by shifts.

* `strToIp_fields`, `strToIp_split`: `str_to_ip` reads four numbers with dots between them
* `makeIpAddr_addrByte`: the shifts put the bytes back in their places
* `ipToStr_strToIp`: what `ip_to_str` prints is read back
-/

namespace DpdkEcho

open Infra

/-! ## `MAKE_IP_ADDR` -/

/-- `MAKE_IP_ADDR` as a number. -/
theorem makeIpAddr_toNat (a b c d : UInt8) : (makeIpAddr a b c d).toNat =
    a.toNat * 2 ^ 24 + b.toNat * 2 ^ 16 + c.toNat * 2 ^ 8 + d.toNat := by
  have ha := a.toNat_lt
  have hb := b.toNat_lt
  have hc := c.toNat_lt
  have hd := d.toNat_lt
  have h24 : (a.toUInt32 <<< 24).toNat = a.toNat * 2 ^ 24 := by
    simp [Nat.shiftLeft_eq]
    omega
  have h16 : (b.toUInt32 <<< 16).toNat = b.toNat * 2 ^ 16 := by
    simp [Nat.shiftLeft_eq]
    omega
  have h8 : (c.toUInt32 <<< 8).toNat = c.toNat * 2 ^ 8 := by
    simp [Nat.shiftLeft_eq]
    omega
  -- `|` adds numbers that share no bit
  have hor : ∀ (k : Nat) {x y : Nat}, y < 2 ^ k → x * 2 ^ k ||| y = x * 2 ^ k + y := by
    intro k x y hy
    rw [← Nat.shiftLeft_eq, Nat.shiftLeft_add_eq_or_of_lt hy]
  have hab : a.toNat * 2 ^ 24 + b.toNat * 2 ^ 16 = (a.toNat * 2 ^ 8 + b.toNat) * 2 ^ 16 := by ring
  have habc : (a.toNat * 2 ^ 8 + b.toNat) * 2 ^ 16 + c.toNat * 2 ^ 8 =
      ((a.toNat * 2 ^ 8 + b.toNat) * 2 ^ 8 + c.toNat) * 2 ^ 8 := by ring
  rw [makeIpAddr, UInt32.toNat_or, UInt32.toNat_or, UInt32.toNat_or, h24, h16, h8,
    UInt8.toNat_toUInt32, hor 24 (by omega), hab, hor 16 (by omega), habc, hor 8 (by omega)]

/-- The bytes in memory, put together from the last one on. -/
theorem makeIpAddr_addrByte (x : UInt32) :
    makeIpAddr (addrByte x 3) (addrByte x 2) (addrByte x 1) (addrByte x 0) = x := by
  have hx := x.toNat_lt
  refine UInt32.toNat_inj.mp ?_
  rw [makeIpAddr_toNat]
  simp only [addrByte, UInt8.toNat_ofNat', Nat.reducePow, Nat.div_one]
  omega

/-! ## `str_to_ip` -/

/-- Four texts with dots between them. -/
def quadText (a b c d : CStr) : CStr := a ++ '.' :: (b ++ '.' :: (c ++ '.' :: d))

theorem noDigit_dot (s : CStr) : NoDigit ('.' :: s) := noDigit_cons (by decide) s

/-- Four numbers are read, and what stands behind them is not. -/
theorem strToIp_fields (a b c d : DecField) {tail : CStr} (htail : NoDigit tail) :
    strToIp (quadText a.text b.text c.text (d.text ++ tail)) =
      some (makeIpAddr a.byte b.byte c.byte d.byte) := by
  simp [strToIp, quadText, scanHhu_field _ (noDigit_dot _), scanHhu_field d htail, scanChar]

/-- A character that was expected and found. -/
theorem scanChar_eq_some {c : Char} {s rest : CStr} (h : scanChar c s = some rest) :
    s = c :: rest := by
  cases s with
  | nil => cases h
  | cons d s =>
    rw [scanChar] at h
    split at h
    · next hd => rw [hd, Option.some.inj h]
    · cases h

/-- **What `str_to_ip` accepts**: four numbers with dots between them, and anything behind them. -/
theorem strToIp_split {s : CStr} {x : UInt32} (h : strToIp s = some x) :
    ∃ (a b c d : DecField) (tail : CStr),
      s = quadText a.text b.text c.text (d.text ++ tail) ∧ NoDigit tail ∧
      x = makeIpAddr a.byte b.byte c.byte d.byte := by
  unfold strToIp at h
  obtain ⟨⟨_, s1⟩, ha, h1⟩ := Option.bind_eq_some_iff.mp h
  obtain ⟨s2, hdot1, h2⟩ := Option.bind_eq_some_iff.mp h1
  obtain ⟨⟨_, s3⟩, hb, h3⟩ := Option.bind_eq_some_iff.mp h2
  obtain ⟨s4, hdot2, h4⟩ := Option.bind_eq_some_iff.mp h3
  obtain ⟨⟨_, s5⟩, hc, h5⟩ := Option.bind_eq_some_iff.mp h4
  obtain ⟨s6, hdot3, h6⟩ := Option.bind_eq_some_iff.mp h5
  obtain ⟨⟨_, tail⟩, hd, hx⟩ := Option.bind_eq_some_iff.mp h6
  obtain ⟨a, rfl, -, rfl⟩ := scanHhu_split ha
  obtain ⟨b, rfl, -, rfl⟩ := scanHhu_split hb
  obtain ⟨c, rfl, -, rfl⟩ := scanHhu_split hc
  obtain ⟨d, rfl, htail, rfl⟩ := scanHhu_split hd
  obtain rfl := scanChar_eq_some hdot1
  obtain rfl := scanChar_eq_some hdot2
  obtain rfl := scanChar_eq_some hdot3
  exact ⟨a, b, c, d, tail, rfl, htail, (Option.some.inj hx).symm⟩

/-! ## `ip_to_str` -/

/-- A printed byte as a field. -/
def printedField (b : UInt8) : DecField :=
  .ofDigits (printHhu b) b.toNat (List.ne_nil_of_length_pos Nat.length_toDigits_pos)
    (digitsValue_toDigits b.toNat)

theorem printedField_byte (b : UInt8) : (printedField b).byte = b := by
  have hb := b.toNat_lt
  refine UInt8.toNat_inj.mp ?_
  exact (printedField b).toNat_byte (show Sign.none ≠ .minus by decide) (Nat.le_of_lt_succ hb)

theorem length_printHhu (b : UInt8) : (printHhu b).length ≤ 3 := by
  have hb := b.toNat_lt
  exact (Nat.length_toDigits_le_iff (by decide) (by decide)).mpr (by omega)

/-- Only digits are printed. -/
theorem isDigit_of_mem_printHhu {b : UInt8} {c : Char} (h : c ∈ printHhu b) : c.isDigit = true :=
  Nat.isDigit_of_mem_toDigits (by decide) (by decide) h

/-- The dotted quad of an address. -/
def dottedQuad (x : UInt32) : CStr :=
  quadText (printHhu (addrByte x 3)) (printHhu (addrByte x 2)) (printHhu (addrByte x 1))
    (printHhu (addrByte x 0))

theorem length_dottedQuad (x : UInt32) : (dottedQuad x).length ≤ 15 := by
  have h3 := length_printHhu (addrByte x 3)
  have h2 := length_printHhu (addrByte x 2)
  have h1 := length_printHhu (addrByte x 1)
  have h0 := length_printHhu (addrByte x 0)
  simp only [dottedQuad, quadText, List.length_append, List.length_cons]
  omega

/-- The terminator does not occur in the text. -/
theorem nul_notMem_dottedQuad (x : UInt32) : '\x00' ∉ dottedQuad x := by
  have hprint : ∀ b, '\x00' ∉ printHhu b := by
    intro b h
    exact absurd (isDigit_of_mem_printHhu h) (by decide)
  simp [dottedQuad, quadText, hprint]

/--
**An address is printed in full and read back.** The text and its terminator fill at most 16 of the
20 bytes of the buffer.
-/
theorem ipToStr_strToIp (x : UInt32) :
    ipToStr x 20 = dottedQuad x ++ ['\x00'] ∧ '\x00' ∉ dottedQuad x ∧
      (dottedQuad x).length ≤ 15 ∧ strToIp (dottedQuad x) = some x := by
  have hlen := length_dottedQuad x
  refine ⟨?_, nul_notMem_dottedQuad x, hlen, ?_⟩
  · change snprintf 20 (dottedQuad x) = _
    rw [snprintf, if_neg (by decide), List.take_of_length_le (by omega)]
  · have hread := strToIp_fields (printedField (addrByte x 3)) (printedField (addrByte x 2))
      (printedField (addrByte x 1)) (printedField (addrByte x 0)) noDigit_nil
    simp only [printedField_byte, makeIpAddr_addrByte, List.append_nil] at hread
    exact hread

end DpdkEcho
