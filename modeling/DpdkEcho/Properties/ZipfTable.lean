import Mathlib.Algebra.BigOperators.Intervals
import Mathlib.Data.Rat.Floor
import Mathlib.Algebra.Order.BigOperators.Group.Finset
import Mathlib.Algebra.Order.Field.Power
import DpdkEcho.Infra.Cumulative
import DpdkEcho.Properties.ZipfSearch

/-!
# The Zipf table

`new_zipfgen` sums up the weights of the ranks twice: once for the total, and once more, divided by
it, for the entries. The entries are the rounded partial sums of the shares of the ranks, which add
up to one.

* `zipfShares_sum`: the shares add up to one
* `zipfFill_spec`: what the loop leaves in the two arrays
* `newZipfgen_draws`: the search finds a rank in it
* `newZipfgen_shape_iff`: when the table has the shape of the distribution
-/

namespace DpdkEcho

open Infra

/-! ## The shape of a table -/

/-- `j ^ (-s)` summed up over the ranks. -/
def zipfTotal (n s : Nat) : ℚ := ∑ j ∈ Finset.Icc 1 n, (j : ℚ) ^ (-(s : ℤ))

/-- How many numbers have the rank `i`. -/
def rankWidth (c : Int → Int) (i : Int) : Int := c i - c (i - 1)

/-- The table of a Zipf distribution over `n` ranks with exponent `s`. -/
structure ZipfShape (c : Int → Int) (n : Int) (s : Nat) : Prop where
  first : c 0 = 0
  last : c n = randMax
  sorted : TableSorted c n
  falling : ∀ i, 1 ≤ i → i < n → rankWidth c (i + 1) ≤ rankWidth c i + 1
  share : ∀ i, 1 ≤ i → i ≤ n →
    |(rankWidth c i : ℚ) - randMax * (i : ℚ) ^ (-(s : ℤ)) / zipfTotal n.toNat s| < 1
  uniform : s = 0 → ∀ i j, 1 ≤ i → i ≤ n → 1 ≤ j → j ≤ n →
    |rankWidth c i - rankWidth c j| ≤ 1

/-! ## The shares of the ranks -/

section
variable {n s : Nat}

/-- The part of rank `k + 1` in the total. -/
def zipfShare (n s k : Nat) : ℚ := 1 / ((((k : Int) + 1 : Int) : ℚ) ^ s * zipfTotal n s)

/-- The parts of all ranks. -/
def zipfShares (n s : Nat) : List ℚ := (List.range n).map (zipfShare n s)

@[simp] theorem zipfShares_length : (zipfShares n s).length = n := by simp [zipfShares]

@[simp] theorem zipfShares_get {k : Nat} (hk : k < (zipfShares n s).length) :
    (zipfShares n s).get ⟨k, hk⟩ = zipfShare n s k := by
  simp [zipfShares]

theorem zipfTotal_succ (n s : Nat) :
    zipfTotal (n + 1) s = zipfTotal n s + ((n + 1 : Nat) : ℚ) ^ (-(s : ℤ)) :=
  Finset.sum_Icc_succ_top (by omega) _

theorem zipfIndices_succ (n : Nat) :
    zipfIndices (((n + 1 : Nat) : Int) + 1) = zipfIndices ((n : Int) + 1) ++ [(n : Int) + 1] := by
  simp [zipfIndices, List.range_succ]

/-- The loop for `h` computes the total. -/
theorem zipfNorm_eq (s n : Nat) : zipfNorm s ((n : Int) + 1) = zipfTotal n s := by
  induction n with
  | zero => simp [zipfNorm, zipfIndices, zipfTotal]
  | succ n ih =>
    unfold zipfNorm at ih ⊢
    rw [zipfIndices_succ, List.foldl_append, ih, zipfTotal_succ]
    simp

theorem zipfTotal_pos (h : 1 ≤ n) : 0 < zipfTotal n s := by
  refine Finset.sum_pos (fun j hj => ?_) ⟨1, by simpa using h⟩
  have hj1 : 1 ≤ j := (Finset.mem_Icc.mp hj).1
  exact zpow_pos (by exact_mod_cast hj1) _

theorem zipfShare_pos (h : 1 ≤ n) (k : Nat) : 0 < zipfShare n s k := by
  have htotal := @zipfTotal_pos n s h
  unfold zipfShare
  positivity

theorem zipfShares_nonneg (h : 1 ≤ n) : ∀ x ∈ zipfShares n s, 0 ≤ x := by
  intro x hx
  obtain ⟨k, -, rfl⟩ := List.mem_map.mp hx
  exact (zipfShare_pos h k).le

/-- The shares in terms of the weights. -/
theorem zipfShare_eq (k : Nat) :
    zipfShare n s k = ((k + 1 : Nat) : ℚ) ^ (-(s : ℤ)) / zipfTotal n s := by
  rw [zipfShare, zpow_neg, zpow_natCast, one_div, mul_inv, div_eq_mul_inv]
  norm_cast

/-- Later ranks have smaller shares. -/
theorem zipfShare_antitone (h : 1 ≤ n) (k : Nat) : zipfShare n s (k + 1) ≤ zipfShare n s k := by
  have htotal := @zipfTotal_pos n s h
  have hpow : (((k : Int) + 1 : Int) : ℚ) ^ s ≤ ((((k + 1 : Nat) : Int) + 1 : Int) : ℚ) ^ s := by
    refine pow_le_pow_left₀ (by positivity) ?_ s
    push_cast
    linarith
  exact one_div_le_one_div_of_le (by positivity) (mul_le_mul_of_nonneg_right hpow htotal.le)

/-- With exponent 0 they are all the same. -/
theorem zipfShare_zero (k : Nat) : zipfShare n 0 k = 1 / zipfTotal n 0 := by
  simp [zipfShare]

/-- **The shares add up to one.** -/
theorem zipfShares_sum (h : 1 ≤ n) : (zipfShares n s).sum = 1 := by
  have hsum : ∀ m : Nat, ((List.range m).map (zipfShare n s)).sum
      = zipfTotal m s / zipfTotal n s := by
    intro m
    induction m with
    | zero => simp [zipfTotal]
    | succ m ih =>
      rw [List.range_succ, List.map_append, List.sum_append, ih, zipfTotal_succ, add_div,
        List.map_singleton, List.sum_singleton, zipfShare_eq]
  rw [zipfShares, hsum n, div_self (zipfTotal_pos h).ne']

end

/-! ## The loop -/

section
variable {n s : Nat}

/-- The arrays after the first `k` ranks. -/
def Filled (n s k : Nat) (t : ZipfBuild) : Prop :=
  ∀ j : Nat, j ≤ k → t.cProbs j = prefixSum (zipfShares n s) j ∧
    t.cProbsInt j = floorSum (randMax : ℚ) (zipfShares n s) j

theorem truncate_prefixSum (h : 1 ≤ n) (j : Nat) :
    truncate (prefixSum (zipfShares n s) j * randMax)
      = floorSum (randMax : ℚ) (zipfShares n s) j := by
  have hmono := @prefixSum_mono ℚ _ _ _ (zipfShares n s) 0 j (zipfShares_nonneg h) (by omega)
  rw [prefixSum_zero] at hmono
  rw [truncate, if_pos (mul_nonneg hmono (by positivity))]
  rfl

theorem zipfEntry_filled {k : Nat} {t : ZipfBuild} (h : 1 ≤ n) (hk : k < n)
    (ht : Filled n s k t) : Filled n s (k + 1) (zipfEntry s (zipfTotal n s) t ((k : Int) + 1)) := by
  have hprev : t.cProbs ((k : Int) + 1 - 1) = prefixSum (zipfShares n s) k := by
    rw [add_sub_cancel_right]
    exact (ht k (le_refl k)).1
  have hnew : prefixSum (zipfShares n s) k + 1 / ((((k : Int) + 1 : Int) : ℚ) ^ s * zipfTotal n s)
      = prefixSum (zipfShares n s) (k + 1) := by
    rw [@prefixSum_succ ℚ _ (zipfShares n s) k (by simpa using hk), zipfShares_get]
    rfl
  intro j hj
  simp only [zipfEntry, hprev, hnew]
  by_cases hlast : j = k + 1
  · subst hlast
    push_cast
    rw [Function.update_self, Function.update_self]
    exact ⟨rfl, truncate_prefixSum h (k + 1)⟩
  · have hne : (j : Int) ≠ (k : Int) + 1 := by omega
    rw [Function.update_of_ne hne, Function.update_of_ne hne]
    exact ht j (by omega)

/-- What the loop leaves in the arrays. The induction is on the ranks done so far. -/
theorem zipfFill_spec (h : 1 ≤ n) {t : ZipfBuild} (ht : Filled n s 0 t) : ∀ k : Nat, k ≤ n →
    Filled n s k ((zipfIndices ((k : Int) + 1)).foldl (zipfEntry s (zipfTotal n s)) t)
  | 0, _ => by simpa [zipfIndices] using ht
  | k + 1, hk => by
    rw [zipfIndices_succ, List.foldl_append]
    exact zipfEntry_filled h hk (zipfFill_spec h ht k (by omega))

end

/-! ## The shape -/

section
variable {n s : Nat} {c : Int → Int} (h : 1 ≤ n)
variable (hc : ∀ j : Nat, j ≤ n → c j = floorSum (randMax : ℚ) (zipfShares n s) j)
include hc

theorem rankWidth_eq {k : Nat} (hk : k < n) :
    rankWidth c ((k : Int) + 1)
      = floorSum (randMax : ℚ) (zipfShares n s) (k + 1)
        - floorSum (randMax : ℚ) (zipfShares n s) k := by
  have hk1 := hc (k + 1) hk
  push_cast at hk1
  rw [rankWidth, add_sub_cancel_right, hk1, hc k hk.le]

include h

/-- The rounded partial sums of the shares have the shape. -/
theorem zipfShape_of_floorSum : ZipfShape c n s := by
  have hlen : (zipfShares n s).length = n := zipfShares_length
  have hR : (0 : ℚ) ≤ (randMax : ℚ) := by positivity
  -- a rank is one more than an index into the shares
  have hrank : ∀ i : Int, 1 ≤ i → i ≤ n → ∃ k : Nat, i = (k : Int) + 1 ∧ k < n := fun i h1 h2 =>
    ⟨(i - 1).toNat, by omega, by omega⟩
  refine ⟨?_, ?_, ?_, ?_, ?_, ?_⟩
  · have h0 := hc 0 (by omega)
    rwa [floorSum_zero] at h0
  · have htotal : prefixSum (zipfShares n s) n = 1 := by
      have hall := @prefixSum_length ℚ _ (zipfShares n s)
      rwa [hlen, zipfShares_sum h] at hall
    rw [hc n (le_refl n), floorSum, htotal, one_mul, Int.floor_natCast]
  · intro i j h0 hij hj
    obtain ⟨a, rfl⟩ := Int.eq_ofNat_of_zero_le h0
    obtain ⟨b, rfl⟩ := Int.eq_ofNat_of_zero_le (le_trans h0 hij)
    rw [hc a (by omega), hc b (by omega)]
    exact floorSum_mono hR (zipfShares_nonneg h) (by omega)
  · intro i h1 h2
    obtain ⟨k, rfl, hk⟩ := hrank i h1 h2.le
    have hk1 : k + 1 < n := by omega
    have hnext := rankWidth_eq hc hk1
    push_cast at hnext
    rw [hnext, rankWidth_eq hc hk]
    refine floorSum_step_le hR (by rwa [hlen]) (by rwa [hlen]) ?_
    rw [zipfShares_get, zipfShares_get]
    exact zipfShare_antitone h k
  · intro i h1 h2
    obtain ⟨k, rfl, hk⟩ := hrank i h1 h2
    have hstep := floorSum_step (R := (randMax : ℚ))
      (show k < (zipfShares n s).length by rwa [hlen])
    rw [← rankWidth_eq hc hk, zipfShares_get, zipfShare_eq] at hstep
    rw [Int.toNat_natCast, mul_div_assoc, mul_comm]
    push_cast at hstep ⊢
    exact hstep
  · rintro rfl i j hi1 hi2 hj1 hj2
    obtain ⟨k, rfl, hk⟩ := hrank i hi1 hi2
    obtain ⟨m, rfl, hm⟩ := hrank j hj1 hj2
    have hle : ∀ a b : Nat, a < n → b < n →
        rankWidth c ((a : Int) + 1) ≤ rankWidth c ((b : Int) + 1) + 1 := by
      intro a b ha hb
      rw [rankWidth_eq hc ha, rankWidth_eq hc hb]
      refine floorSum_step_le hR (by rwa [hlen]) (by rwa [hlen]) ?_
      rw [zipfShares_get, zipfShares_get, zipfShare_zero, zipfShare_zero]
    have h1 := hle k m hk hm
    have h2 := hle m k hm hk
    rw [abs_le]
    omega

end

/-- Memory for the arrays can be had as long as the sum `n + 1` is an `int`. -/
theorem mallocSize_le {m : Nat} (hm : m < 2 ^ 31) {size : UInt64} (hs : size.toNat ≤ 8) :
    ¬ ptrdiffMax < mallocSize m size := by
  intro hover
  have hcount : (UInt64.ofInt (m : Int)).toNat = m := by
    have hlow := toNat_uint64_ofInt m
    omega
  rw [UInt64.lt_iff_toNat_lt, mallocSize, UInt64.toNat_mul, hcount] at hover
  have hle : m * size.toNat ≤ m * 8 := Nat.mul_le_mul_left _ hs
  have hptr : ptrdiffMax.toNat = 2 ^ 63 - 1 := by decide
  omega

theorem newZipfgen_intMax (mem : ZipfBuild) (s : Nat) : newZipfgen mem intMax s = none := by
  have hover : ptrdiffMax < mallocSize (wrapSigned 32 (intMax + 1)) 8 := by decide
  simp only [newZipfgen, if_pos (Or.inl hover)]

/-- What is built otherwise. -/
theorem newZipfgen_spec (mem : ZipfBuild) {m : Nat} (s : Nat) (h1 : 1 ≤ m)
    (hm : m + 1 < 2 ^ 31) : ∃ c, newZipfgen mem m s = some ⟨c, m⟩ ∧ ZipfShape c m s := by
  have hbound : wrapSigned 32 ((m : Int) + 1) = (m : Int) + 1 :=
    Int.bmod_eq_of_le (by omega) (by omega)
  have hstart : Filled m s 0 {
      cProbs := Function.update mem.cProbs 0 0
      cProbsInt := Function.update mem.cProbsInt 0 0 } := by
    intro j hj
    obtain rfl : j = 0 := by omega
    simp
  have hfill := zipfFill_spec h1 hstart m (le_refl m)
  refine ⟨_, ?_, zipfShape_of_floorSum h1 fun j hj => (hfill j hj).2⟩
  have hsize : ∀ size : UInt64, size.toNat ≤ 8 → ¬ ptrdiffMax < mallocSize ((m : Int) + 1) size :=
    fun size hs => by simpa using mallocSize_le hm hs
  simp only [newZipfgen, hbound, zipfNorm_eq]
  rw [if_neg (not_or.mpr ⟨hsize 8 (by decide), hsize 4 (by decide)⟩)]

/-- **The table that is built is one the search can use**: every number from 1 to `RAND_MAX` has a
rank in it, as long as the sum of two ranks is an `int`. -/
theorem newZipfgen_draws (mem : ZipfBuild) {m : Nat} (s : Nat) (h1 : 1 ≤ m)
    (hmax : 2 * (m : Int) ≤ intMax) : ∃ gen, newZipfgen mem m s = some gen ∧
      ZipfTable gen.cProbs m ∧
      ∀ rnd : Int, 1 ≤ rnd → rnd ≤ randMax → DrawsRank gen.cProbs m rnd := by
  have hint : intMax = 2147483647 := rfl
  obtain ⟨c, hgen, hshape⟩ := @newZipfgen_spec mem m s h1 (by omega)
  have hfirst : c 0 = 0 := hshape.first
  have hlast : c m = randMax := hshape.last
  refine ⟨⟨c, m⟩, hgen, ⟨hshape.sorted, hfirst, ?_⟩, fun rnd hlow hhigh => ?_⟩
  · change (randMax : Int) - 1 ≤ c m
    omega
  · exact drawsRank_of_inRank (by omega) hmax hshape.sorted (hfirst.trans_lt hlow)
      (hhigh.trans_eq hlast.symm)

/--
**The table has the shape of the distribution exactly when `n + 1` is an `int`.** This holds for
every exponent and whatever the memory held before. With `INT_MAX` ranks the sum is negative, and
there is no table.
-/
theorem newZipfgen_shape_iff (mem : ZipfBuild) (n : Int) (s : Nat) (h1 : 1 ≤ n)
    (hn : n ≤ intMax) :
    (∃ gen, newZipfgen mem n s = some gen ∧ gen.n = n ∧ ZipfShape gen.cProbs n s)
      ↔ n < intMax := by
  have hmax : intMax = 2147483647 := rfl
  constructor
  · rintro ⟨gen, hgen, -, -⟩
    by_contra hover
    obtain rfl : n = intMax := by omega
    rw [newZipfgen_intMax] at hgen
    cases hgen
  · intro hlt
    obtain ⟨m, rfl⟩ := Int.eq_ofNat_of_zero_le (show 0 ≤ n by omega)
    obtain ⟨c, hgen, hshape⟩ := @newZipfgen_spec mem m s (by omega) (by omega)
    exact ⟨⟨c, m⟩, hgen, rfl, hshape⟩

/-- A table over three ranks. -/
theorem newZipfgen_three_ranks :
    ∃ gen, newZipfgen ⟨fun _ => 5, fun _ => -1⟩ 3 2 = some gen ∧ gen.n = 3 ∧
      ZipfShape gen.cProbs 3 2 :=
  (newZipfgen_shape_iff ⟨fun _ => 5, fun _ => -1⟩ 3 2 (by decide) (by decide)).mpr (by decide)

/-- `--zipf-client-addr 2147483647/1/0` -/
theorem newZipfgen_fails_at_intMax :
    ¬ ∃ gen, newZipfgen ⟨fun _ => 0, fun _ => 0⟩ intMax 0 = some gen ∧ gen.n = intMax ∧
      ZipfShape gen.cProbs intMax 0 := by
  rintro ⟨gen, hgen, -⟩
  rw [newZipfgen_intMax] at hgen
  cases hgen

end DpdkEcho
