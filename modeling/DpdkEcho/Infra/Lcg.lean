import Mathlib.Algebra.Ring.GeomSum
import Mathlib.Data.Int.CardIntervalMod
import Mathlib.NumberTheory.Multiplicity

/-!
# Linear congruential generators modulo a power of two

The iterates of `s ↦ a * s + c` have a closed form: after `k` steps, `s` has moved by a geometric
sum times `(a - 1) * s + c`. With an odd increment and a multiplier that is 1 modulo 4, the second
factor is odd and the sum is divisible by as many twos as `k` is, so that the generator comes back
to where it was exactly after the multiples of the modulus.

* `lcg_iterate_modEq`: the closed form
* `two_pow_dvd_geomSum_iff`: the twos in the geometric sum
* `lcg_iterate_eq_iff`: when two iterates are the same
* `count_lcg_iterate`: a period goes through every state once
* `lcgSkip_eq`: many steps at once
-/

namespace Infra

open Finset

/-- One step of the generator. -/
def lcg (a c m s : Nat) : Nat := (a * s + c) % m

/-- The state after `k` steps. -/
theorem lcg_iterate_modEq (a c m s k : Nat) :
    (((lcg a c m)^[k] s : Nat) : ℤ) ≡
      s + (∑ i ∈ range k, (a : ℤ) ^ i) * ((a - 1) * s + c) [ZMOD m] := by
  induction k with
  | zero => simp
  | succ k ih =>
    rw [Function.iterate_succ_apply', geom_sum_succ]
    have hstep : ((lcg a c m ((lcg a c m)^[k] s) : Nat) : ℤ) ≡
        a * ((lcg a c m)^[k] s : Nat) + c [ZMOD m] := by
      rw [lcg]
      push_cast
      exact Int.mod_modEq _ _
    have hnext := hstep.trans ((ih.mul_left _).add_right _)
    convert hnext using 1
    ring

theorem lcg_iterate_lt {a c m s : Nat} (hs : s < m) (k : Nat) : (lcg a c m)^[k] s < m := by
  cases k with
  | zero => exact hs
  | succ k =>
    rw [Function.iterate_succ_apply']
    exact Nat.mod_lt _ (Nat.lt_of_le_of_lt (Nat.zero_le s) hs)

/-! ## The period -/

/-- **The twos in a geometric sum** are those in the number of its terms. -/
theorem two_pow_dvd_geomSum_iff {a : ℤ} (ha : 4 ∣ a - 1) (w k : Nat) :
    2 ^ w ∣ ∑ i ∈ range k, a ^ i ↔ (2 : ℤ) ^ w ∣ k := by
  by_cases h1 : a = 1
  · simp [h1]
  · have hodd : ¬2 ∣ a := by omega
    have hfinite : FiniteMultiplicity 2 (a - 1) := by
      rw [Int.finiteMultiplicity_iff]
      exact ⟨by decide, sub_ne_zero.mpr h1⟩
    have hsum : emultiplicity 2 (∑ i ∈ range k, a ^ i) + emultiplicity 2 (a - 1) =
        emultiplicity (2 : ℤ) k + emultiplicity 2 (a - 1) := by
      have hlift := Int.two_pow_sub_pow' k ha hodd
      rw [one_pow] at hlift
      rw [← emultiplicity_mul Int.prime_two, geom_sum_mul, hlift, add_comm]
    have hsame : emultiplicity 2 (∑ i ∈ range k, a ^ i) = emultiplicity (2 : ℤ) k :=
      WithTop.add_right_cancel (finiteMultiplicity_iff_emultiplicity_ne_top.mp hfinite) hsum
    rw [pow_dvd_iff_le_emultiplicity, hsame, ← pow_dvd_iff_le_emultiplicity]

section
variable {a c w s : Nat} (ha : a % 4 = 1) (hc : c % 2 = 1) (hs : s < 2 ^ w)
include ha hc hs

/-- The generator is back where it was exactly after the multiples of the modulus. -/
theorem lcg_iterate_eq_self_iff (k : Nat) : (lcg a c (2 ^ w))^[k] s = s ↔ 2 ^ w ∣ k := by
  have hodd : ¬(2 : ℤ) ∣ (a - 1) * s + c := by
    obtain ⟨b, hb⟩ : (4 : ℤ) ∣ a - 1 := by omega
    rw [hb, mul_assoc]
    omega
  have hlt := lcg_iterate_lt (a := a) (c := c) hs k
  have hmod : (lcg a c (2 ^ w))^[k] s = s ↔
      s + (∑ i ∈ range k, (a : ℤ) ^ i) * ((a - 1) * s + c) ≡ s [ZMOD 2 ^ w] := by
    have hform := lcg_iterate_modEq a c (2 ^ w) s k
    push_cast at hform
    constructor
    · intro h
      rw [h] at hform
      exact hform.symm
    · intro h
      have heq : (lcg a c (2 ^ w))^[k] s ≡ s [MOD 2 ^ w] := by
        refine Int.natCast_modEq_iff.mp ?_
        push_cast
        exact hform.trans h
      exact heq.eq_of_lt_of_lt hlt hs
  rw [hmod, Int.modEq_iff_dvd, ← dvd_neg, neg_sub, add_sub_cancel_left]
  have hdvd : (2 : ℤ) ^ w ∣ (∑ i ∈ range k, (a : ℤ) ^ i) * ((a - 1) * s + c) ↔
      (2 : ℤ) ^ w ∣ ∑ i ∈ range k, (a : ℤ) ^ i :=
    ⟨fun h => Int.prime_two.pow_dvd_of_dvd_mul_right w hodd h, fun h => h.mul_right _⟩
  rw [hdvd, two_pow_dvd_geomSum_iff (by omega)]
  exact_mod_cast Iff.rfl

/-- **Two iterates are the same exactly when their distance is a multiple of the modulus.** -/
theorem lcg_iterate_eq_iff (j k : Nat) :
    (lcg a c (2 ^ w))^[j] s = (lcg a c (2 ^ w))^[k] s ↔ j ≡ k [MOD 2 ^ w] := by
  have hle : ∀ {j k : Nat}, j ≤ k →
      ((lcg a c (2 ^ w))^[k] s = (lcg a c (2 ^ w))^[j] s ↔ j ≡ k [MOD 2 ^ w]) := by
    intro j k hjk
    obtain ⟨d, rfl⟩ := Nat.exists_eq_add_of_le hjk
    rw [Nat.add_comm j d, Function.iterate_add_apply,
      lcg_iterate_eq_self_iff ha hc (lcg_iterate_lt hs j) d,
      Nat.modEq_iff_dvd' (Nat.le_add_left j d), Nat.add_sub_cancel]
  rcases Nat.le_total j k with h | h
  · rw [← hle h, eq_comm]
  · rw [hle h]
    exact ⟨Nat.ModEq.symm, Nat.ModEq.symm⟩

/-- **A period goes through every state once.** -/
theorem count_lcg_iterate (p : Nat → Prop) [DecidablePred p] :
    Nat.count (fun k => p ((lcg a c (2 ^ w))^[k] s)) (2 ^ w) = Nat.count p (2 ^ w) := by
  have hinj : Set.InjOn (fun k => (lcg a c (2 ^ w))^[k] s) (range (2 ^ w)) := by
    intro j hj k hk h
    have hjk := (lcg_iterate_eq_iff ha hc hs j k).mp h
    exact hjk.eq_of_lt_of_lt (mem_range.mp hj) (mem_range.mp hk)
  have himage : (range (2 ^ w)).image (fun k => (lcg a c (2 ^ w))^[k] s) = range (2 ^ w) := by
    refine eq_of_subset_of_card_le (fun x hx => ?_) ?_
    · obtain ⟨k, -, rfl⟩ := mem_image.mp hx
      exact mem_range.mpr (lcg_iterate_lt hs k)
    · rw [card_image_of_injOn hinj]
  rw [Nat.count_eq_card_filter_range, Nat.count_eq_card_filter_range]
  conv_rhs => rw [← himage, filter_image]
  rw [card_image_of_injOn (hinj.mono (by exact_mod_cast filter_subset _ _))]

end

/-! ## Skipping ahead -/

/-- Two steps are one step of another generator. -/
theorem lcg_lcg (a c m s : Nat) :
    lcg a c m (lcg a c m s) = lcg (a * a % m) ((a * c + c) % m) m s := by
  have hinner : a * ((a * s + c) % m) + c ≡ a * a * s + (a * c + c) [MOD m] := by
    have h := ((Nat.mod_modEq (a * s + c) m).mul_left a).add_right c
    rwa [show a * (a * s + c) + c = a * a * s + (a * c + c) by ring] at h
  have houter : a * a % m * s + (a * c + c) % m ≡ a * a * s + (a * c + c) [MOD m] :=
    ((Nat.mod_modEq _ _).mul_right s).add (Nat.mod_modEq _ _)
  exact hinner.trans houter.symm

/-- `k` steps at once, for `k < 2 ^ w`. The binary digits of `k` tell which of 1, 2, 4, ... steps
are taken. -/
def lcgSkip (m : Nat) : (w a c k s : Nat) → Nat
  | 0, _, _, _, s => s
  | w + 1, a, c, k, s =>
    lcgSkip m w (a * a % m) ((a * c + c) % m) (k / 2) (if k % 2 = 1 then lcg a c m s else s)

theorem lcg_iterate_two_mul (a c m s k : Nat) :
    (lcg a c m)^[2 * k] s = (lcg (a * a % m) ((a * c + c) % m) m)^[k] s := by
  have htwo : (lcg a c m)^[2] = lcg (a * a % m) ((a * c + c) % m) m := by
    funext s
    exact lcg_lcg a c m s
  rw [Function.iterate_mul, htwo]

theorem lcgSkip_eq (m : Nat) : ∀ {w : Nat} (a c k s : Nat), k < 2 ^ w →
    lcgSkip m w a c k s = (lcg a c m)^[k] s
  | 0, a, c, k, s, hk => by
    obtain rfl : k = 0 := by omega
    rfl
  | w + 1, a, c, k, s, hk => by
    rw [lcgSkip, lcgSkip_eq m _ _ (k / 2) _ (by omega), ← lcg_iterate_two_mul]
    by_cases hodd : k % 2 = 1
    · rw [if_pos hodd, ← Function.iterate_succ_apply, show (2 * (k / 2)).succ = k by omega]
    · rw [if_neg hodd, show 2 * (k / 2) = k by omega]

end Infra
