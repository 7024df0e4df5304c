import DpdkEcho.Infra.Lcg
import DpdkEcho.Properties.ZipfSearch

/-!
# The period of `__myrand`

`__myrand` computes in 64 bits, where its product has room, and keeps 32 of them. So it is the
generator of `Infra.lcg`, and a period of it goes through all 32-bit seeds.

* `nextSeed_iterate_toNat`: the seeds are the iterates of `lcg`
* `myrand_srendipity`: what `myrand` precomputes
* `count_rand_value`: how often a value is returned in a period
* `myrand_full_period`: all together
-/

namespace DpdkEcho

open Infra

/-- The update of `seed` in `__myrand`. -/
def nextSeed (seed : UInt64) : UInt64 := (myrandLcg seed).1

section
variable {seed : UInt64} (hseed : seed.toNat < 2 ^ 32)
include hseed

theorem nextSeed_iterate_toNat (n : Nat) :
    (nextSeed^[n] seed).toNat = (lcg 1664525 1013904223 (2 ^ 32))^[n] seed.toNat := by
  induction n with
  | zero => rfl
  | succ n ih =>
    have hlt : (nextSeed^[n] seed).toNat < 2 ^ 32 := by
      rw [ih]
      exact lcg_iterate_lt hseed n
    rw [Function.iterate_succ_apply', Function.iterate_succ_apply', nextSeed, myrandLcg_toNat hlt,
      ih, lcg, show 4294967296 = 2 ^ 32 by decide]

theorem nextSeed_iterate_lt (n : Nat) : (nextSeed^[n] seed).toNat < 2 ^ 32 := by
  rw [nextSeed_iterate_toNat hseed]
  exact lcg_iterate_lt hseed n

/-- The seeds of a period are all different. -/
theorem nextSeed_iterate_eq_iff (j k : Nat) :
    nextSeed^[j] seed = nextSeed^[k] seed ↔ j ≡ k [MOD 2 ^ 32] := by
  rw [← UInt64.toNat_inj, nextSeed_iterate_toNat hseed, nextSeed_iterate_toNat hseed]
  exact lcg_iterate_eq_iff (by decide) (by decide) hseed j k

/-- How often a value is returned in a period: `2 ^ 32` is twice `RAND_MAX` and two more. -/
theorem count_rand_value {v : Nat} (hv : v < randMax) :
    Nat.count (fun n => (myrandLcg (nextSeed^[n] seed)).2 = v) (2 ^ 32) =
      if v ≤ 1 then 3 else 2 := by
  have hnext : (nextSeed seed).toNat < 2 ^ 32 := nextSeed_iterate_lt hseed 1
  have hvalue : ∀ n, (myrandLcg (nextSeed^[n] seed)).2 = v ↔
      (lcg 1664525 1013904223 (2 ^ 32))^[n] (nextSeed seed).toNat ≡ v [MOD randMax] := by
    intro n
    have hstate : (myrandLcg (nextSeed^[n] seed)).2 =
        ((nextSeed^[n] (nextSeed seed)).toNat % randMax : Nat) := by
      rw [← Function.iterate_succ_apply, Function.iterate_succ_apply']
      rfl
    rw [hstate, nextSeed_iterate_toNat hnext, Int.natCast_inj, Nat.ModEq, Nat.mod_eq_of_lt hv]
  simp only [hvalue]
  rw [count_lcg_iterate (by decide) (by decide) hnext fun x => x ≡ v [MOD randMax],
    Nat.count_modEq_card _ (show 0 < randMax by decide), Nat.mod_eq_of_lt hv,
    show 2 ^ 32 / randMax = 2 by decide, show 2 ^ 32 % randMax = 2 by decide]
  by_cases hsmall : v ≤ 1
  · rw [if_pos hsmall, if_pos (by omega)]
  · rw [if_neg hsmall, if_neg (by omega)]

end

/-- The table after the first call of `myrand`. -/
theorem myrand_srendipity {st : RandState} (hinit : st.needInit = true) {i : Nat}
    (hi : i < srendipitySize) :
    (myrand st).1.srendipity i = (myrandLcg (nextSeed^[i] st.seed)).2 := by
  obtain ⟨-, -, -, htable⟩ :=
    @fillSrendipity_eq myrandLcg srendipitySize 0 { st with needInit := false }
  have hfill := htable i hi
  rw [Nat.zero_add] at hfill
  have hcall : (myrand st).1.srendipity =
      (fillSrendipity myrandLcg srendipitySize 0 { st with needInit := false }).srendipity := by
    unfold myrand
    simp only [hinit, if_true]
  have hnext : nextSeed = fun seed => (myrandLcg seed).1 := rfl
  rw [hcall, hfill, hnext]

/--
**`__myrand` has the full period.** From any 32-bit seed, the seeds repeat after `2 ^ 32` steps and
not before, so that no two of the seeds behind the table of `myrand` are the same; the product of a
step has room in 64 bits; and of the values in a period, 0 and 1 occur three times and the others
twice.
-/
theorem myrand_full_period (seed : UInt64) (hseed : seed.toNat < 2 ^ 32) :
    (∀ j k, nextSeed^[j] seed = nextSeed^[k] seed ↔ j ≡ k [MOD 2 ^ 32]) ∧
    (∀ n, 1664525 * (nextSeed^[n] seed).toNat + 1013904223 < 2 ^ 64) ∧
    (∀ i j, i < srendipitySize → j < srendipitySize →
      (myrand { randInit with seed := seed }).1.srendipity i =
        ((nextSeed^[i + 1] seed).toNat % randMax : Nat) ∧
      (nextSeed^[i + 1] seed = nextSeed^[j + 1] seed → i = j)) ∧
    ∀ v, v < randMax →
      Nat.count (fun n => (myrandLcg (nextSeed^[n] seed)).2 = (v : Int)) (2 ^ 32) =
        if v ≤ 1 then 3 else 2 := by
  refine ⟨nextSeed_iterate_eq_iff hseed, fun n => ?_, fun i j hi hj => ⟨?_, fun h => ?_⟩,
    fun v hv => count_rand_value hseed hv⟩
  · have hlt := nextSeed_iterate_lt hseed n
    omega
  · rw [myrand_srendipity rfl hi, Function.iterate_succ_apply']
    rfl
  · have hmod := (nextSeed_iterate_eq_iff hseed (i + 1) (j + 1)).mp h
    have hsize : srendipitySize < 2 ^ 32 := by decide
    have heq := hmod.eq_of_lt_of_lt (by omega) (by omega)
    omega

/-- The seed the program starts with. -/
theorem myrand_full_period_one :
    (∀ j k, nextSeed^[j] 1 = nextSeed^[k] 1 ↔ j ≡ k [MOD 2 ^ 32]) ∧
    ∀ v, v < randMax →
      Nat.count (fun n => (myrandLcg (nextSeed^[n] 1)).2 = (v : Int)) (2 ^ 32) =
        if v ≤ 1 then 3 else 2 := by
  obtain ⟨hperiod, -, -, hcount⟩ := myrand_full_period 1 (by decide)
  exact ⟨hperiod, hcount⟩

end DpdkEcho
