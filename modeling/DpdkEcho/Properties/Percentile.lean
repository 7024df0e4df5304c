import DpdkEcho.Percentile

/-!
# What `get_percentile` returns

The scan finds the bucket of the quantile (`scanBuckets_eq`), and the result is a linear
interpolation over that bucket (`getPercentile_eq`). The upper end of the interpolation is cut
down to `count_values`, the *number* of samples, which has nothing to do with their values: the
result leaves the bucket as soon as there are fewer samples than the lower end of the bucket.
-/

namespace DpdkEcho

open Infra

/-! ## Histograms and quantiles -/

/-- The bucket counts are those of `count_values ≥ 1` samples. -/
structure PHist.Counts (h : PHist) : Prop where
  size : h.countBucket = h.buckets.length
  nonneg : ∀ b ∈ h.buckets, 0 ≤ b
  sum : h.buckets.sum = h.countValues
  pos : 1 ≤ h.countValues

/-- Bucket `i` holds the `y`-quantile: it is the first bucket whose cumulative count is at
least `y * count_values`. -/
def IsQuantileBucket (h : PHist) (y : ℚ) (i : Nat) : Prop :=
  i < h.buckets.length ∧ y * h.countValues ≤ ((h.buckets.take (i + 1)).sum : ℤ) ∧
    ∀ j, j < i → (((h.buckets.take (j + 1)).sum : ℤ) : ℚ) < y * h.countValues

/-- Counts as rational weights. -/
def castCounts (bs : List Int) : List ℚ := bs.map fun b : Int => (b : ℚ)

/-- The bucket counts as rational weights. -/
def PHist.weights (h : PHist) : List ℚ := castCounts h.buckets

theorem prefixSum_castCounts (bs : List Int) (i : Nat) :
    prefixSum (castCounts bs) i = ((bs.take i).sum : ℤ) := by
  rw [prefixSum, castCounts, ← List.map_take]
  induction bs.take i with
  | nil => rfl
  | cons b bs ih => rw [List.map_cons, List.sum_cons, List.sum_cons, ih, Int.cast_add]

theorem castCounts_nonneg {bs : List Int} (h : ∀ b ∈ bs, 0 ≤ b) : ∀ x ∈ castCounts bs, 0 ≤ x := by
  intro x hx
  obtain ⟨b, hb, rfl⟩ := List.mem_map.mp hx
  exact_mod_cast h b hb

section
variable {h : PHist} {y : ℚ}

theorem PHist.Counts.weights_nonneg (hc : h.Counts) : ∀ x ∈ h.weights, 0 ≤ x :=
  castCounts_nonneg hc.nonneg

theorem PHist.Counts.weights_sum (hc : h.Counts) : h.weights.sum = h.countValues := by
  have hsum := prefixSum_castCounts h.buckets h.buckets.length
  rw [List.take_length, hc.sum] at hsum
  rw [← hsum, ← prefixSum_length, PHist.weights, castCounts, List.length_map]

theorem PHist.Counts.countValues_pos (hc : h.Counts) : (0 : ℚ) < h.countValues := by
  exact_mod_cast lt_of_lt_of_le (by decide : (0 : ℤ) < 1) hc.pos

/-- The quantile bucket is where the cumulative weights reach the level. -/
theorem isQuantileBucket_iff (hc : h.Counts) (hy : 0 < y) {i : Nat} :
    IsQuantileBucket h y i ↔ Reaches h.weights (y * h.countValues) i := by
  rw [reaches_iff_first hc.weights_nonneg (mul_pos hy hc.countValues_pos)]
  simp only [PHist.weights, prefixSum_castCounts]
  unfold IsQuantileBucket castCounts
  rw [List.length_map]

theorem exists_quantile (hc : h.Counts) (hy : 0 < y) (hy1 : y ≤ 1) :
    ∃ i, Reaches h.weights (y * h.countValues) i := by
  refine exists_reaches (mul_pos hy hc.countValues_pos) ?_
  rw [hc.weights_sum]
  exact mul_le_of_le_one_left hc.countValues_pos.le hy1

/-! ## The scan -/

/--
The loop stops at the bucket that reaches the level, with `y0` and `y1` the cumulative shares
before and after it. The induction is over the buckets still to come; `tmp` has not reached the
level yet, which is what keeps the earlier turns from breaking off.
-/
theorem scanBuckets_eq {n : ℚ} (hn : 0 < n) : ∀ (bs : List Int) (i j : Nat) (tmp y0 y1 : ℚ),
    (∀ b ∈ bs, 0 ≤ b) → y1 = tmp / n →
    Reaches (castCounts bs) (y * n - tmp) j →
    scanBuckets n y bs i tmp y0 y1 =
      { i := i + j,
        y0 := (tmp + prefixSum (castCounts bs) j) / n,
        y1 := (tmp + prefixSum (castCounts bs) (j + 1)) / n }
  | [], _, j, _, _, _, _, _, hr => absurd hr.1 (by simp [castCounts])
  | b :: bs, i, j, tmp, y0, y1, hnn, hy1, hr => by
    have hw : ∀ x ∈ castCounts (b :: bs), 0 ≤ x := castCounts_nonneg hnn
    have hfirst : prefixSum (castCounts (b :: bs)) 1 = b := by simp [prefixSum, castCounts]
    unfold scanBuckets
    simp only [ge_iff_le]
    cases j with
    | zero =>
      have hle : y ≤ (tmp + b) / n := by
        rw [le_div_iff₀ hn]
        have := hr.2.2
        rw [Nat.zero_add, hfirst] at this
        linarith
      rw [if_pos hle, hy1, hfirst]
      simp
    | succ j =>
      have hlt : (tmp + b) / n < y := by
        rw [div_lt_iff₀ hn]
        have h1 : prefixSum (castCounts (b :: bs)) 1
            ≤ prefixSum (castCounts (b :: bs)) (j + 1) := prefixSum_mono hw (by omega)
        have h2 := hr.2.1
        rw [hfirst] at h1
        linarith
      have hcons : ∀ k, prefixSum (castCounts (b :: bs)) (k + 1)
          = b + prefixSum (castCounts bs) k := by
        intro k
        simp [prefixSum, castCounts]
      have hr' : Reaches (castCounts bs) (y * n - (tmp + b)) j := by
        obtain ⟨h1, h2, h3⟩ := hr
        rw [hcons] at h2 h3
        refine ⟨by simpa [castCounts] using h1, by linarith, by linarith⟩
      rw [if_neg (not_le.mpr hlt),
        scanBuckets_eq hn bs (i + 1) j (tmp + b) y1 ((tmp + b) / n)
          (fun c hc => hnn c (List.mem_cons_of_mem _ hc)) rfl hr', hcons, hcons]
      simp only [show i + 1 + j = i + (j + 1) by omega, add_assoc]

/-- The loop of `get_percentile`. -/
def percentileScan (h : PHist) (y : ℚ) : PercentileScan :=
  scanBuckets h.countValues y (h.buckets.take h.countBucket.toNat) 0 0 0 0

/-- The loop stops at the bucket of the quantile. -/
theorem percentileScan_eq (hc : h.Counts) {i : Nat}
    (hi : Reaches h.weights (y * h.countValues) i) :
    percentileScan h y =
      { i := i
        y0 := prefixSum h.weights i / h.countValues
        y1 := prefixSum h.weights (i + 1) / h.countValues } := by
  have htake : h.buckets.take h.countBucket.toNat = h.buckets := by
    rw [hc.size, Int.toNat_natCast, List.take_length]
  have hscan := scanBuckets_eq (y := y) hc.countValues_pos h.buckets 0 i 0 0 0 hc.nonneg
    (by simp) (by simpa [PHist.weights] using hi)
  rw [percentileScan, htake, hscan]
  simp [PHist.weights]

/-- The result is an interpolation over the quantile bucket, its upper end cut down to the
number of samples. -/
theorem getPercentile_eq (hc : h.Counts) {i : Nat}
    (hi : Reaches h.weights (y * h.countValues) i) :
    getPercentile h y = lerp (bucketLo i) (min (bucketHi i) h.countValues)
      (prefixSum h.weights i / h.countValues) (prefixSum h.weights (i + 1) / h.countValues) y := by
  have hscan := percentileScan_eq hc hi
  unfold percentileScan at hscan
  unfold getPercentile
  rw [hscan]
  simp only [lerp]
  rw [show (if bucketHi i > h.countValues then (h.countValues : ℚ) else bucketHi i)
      = min (bucketHi i) h.countValues by
    rw [min_comm, min_def]
    by_cases hle : (h.countValues : ℚ) ≤ bucketHi i
    · rw [if_pos hle]
      by_cases hgt : bucketHi i > h.countValues
      · rw [if_pos hgt]
      · rw [if_neg hgt]; exact le_antisymm (not_lt.mp hgt) hle
    · rw [if_neg hle, if_neg (not_lt.mpr (not_le.mp hle).le)]]

end

/-! ## Bucket bounds -/

theorem r2_gt_one : 1 < r2 := by norm_num [r2]

theorem bucketLo_lt_bucketHi (i : Nat) : bucketLo i < bucketHi i := by
  unfold bucketLo bucketHi
  split
  · exact lt_trans one_pos r2_gt_one
  · exact pow_lt_pow_right₀ r2_gt_one (Nat.lt_succ_self i)

/-- A bucket ends where a later one may begin. -/
theorem bucketHi_le_bucketLo {i j : Nat} (h : i < j) : bucketHi i ≤ bucketLo j := by
  unfold bucketLo bucketHi
  rw [if_neg (by omega : ¬ j = 0)]
  split
  · exact le_self_pow₀ r2_gt_one.le (by omega)
  · exact pow_le_pow_right₀ r2_gt_one.le h

/-! ## Inside the bucket or not -/

section
variable {h : PHist} {y y' : ℚ} {i : Nat}

/-- The cumulative shares on the two sides of the quantile bucket enclose `y`. -/
theorem shares_enclose (hc : h.Counts) (hi : Reaches h.weights (y * h.countValues) i) :
    prefixSum h.weights i / h.countValues < y ∧
      y ≤ prefixSum h.weights (i + 1) / h.countValues :=
  ⟨(div_lt_iff₀ hc.countValues_pos).mpr hi.2.1, (le_div_iff₀ hc.countValues_pos).mpr hi.2.2⟩

/-- With enough samples for the bucket, the result lies in it. -/
theorem getPercentile_mem (hc : h.Counts) (hi : Reaches h.weights (y * h.countValues) i)
    (hn : bucketLo i ≤ h.countValues) :
    bucketLo i ≤ getPercentile h y ∧ getPercentile h y ≤ bucketHi i := by
  obtain ⟨h0, h1⟩ := shares_enclose hc hi
  have hx : bucketLo i ≤ min (bucketHi i) h.countValues := le_min (bucketLo_lt_bucketHi i).le hn
  rw [getPercentile_eq hc hi]
  obtain ⟨hlo, hhi⟩ := lerp_mem hx h0 h1
  exact ⟨hlo, le_trans hhi (min_le_left _ _)⟩

/-- With fewer samples than the lower end of the bucket, the upper end of the quantile is sent
below the bucket. -/
theorem getPercentile_lt_bucketLo (hc : h.Counts) (hi : i < h.weights.length)
    (hpos : 0 < h.weights.get ⟨i, hi⟩) (hn : h.countValues < bucketLo i) :
    getPercentile h (prefixSum h.weights (i + 1) / h.countValues) < bucketLo i := by
  have hlevel : prefixSum h.weights (i + 1) / h.countValues * h.countValues
      = prefixSum h.weights (i + 1) := div_mul_cancel₀ _ hc.countValues_pos.ne'
  have hr : Reaches h.weights
      (prefixSum h.weights (i + 1) / h.countValues * h.countValues) i := by
    rw [hlevel]
    exact reaches_prefixSum hi hpos
  rw [getPercentile_eq hc hr, lerp_right (lt_of_lt_of_le (shares_enclose hc hr).1
    (shares_enclose hc hr).2)]
  exact lt_of_le_of_lt (min_le_right _ _) hn

/-- The lower end of a non-empty bucket is within the number of samples. -/
theorem bucketLo_le_countValues
    (hcond : ∀ j (hj : j < h.buckets.length), 0 < j → 0 < h.buckets.get ⟨j, hj⟩ →
      r2 ^ j ≤ h.countValues) (hc : h.Counts) (hi : Reaches h.weights y i) :
    bucketLo i ≤ h.countValues := by
  have hlen : i < h.buckets.length := by simpa [PHist.weights, castCounts] using hi.1
  have hpos : 0 < h.buckets.get ⟨i, hlen⟩ := by
    have := hi.pos
    simp only [PHist.weights, castCounts, List.get_eq_getElem, List.getElem_map] at this
    exact_mod_cast this
  unfold bucketLo
  split
  · exact hc.countValues_pos.le
  · next hne => exact hcond i hlen (by omega) hpos

end

/--
**The percentile lies in the bucket of the quantile, and grows with the quantile, exactly when
no sample is in a bucket that starts above the number of samples.**
-/
theorem percentile_in_bucket_and_monotone_iff (h : PHist) (hc : h.Counts) :
    (∀ y y' : ℚ, 0 < y → y ≤ y' → y' ≤ 1 →
      (∃ i, IsQuantileBucket h y i ∧ bucketLo i ≤ getPercentile h y ∧
        getPercentile h y ≤ bucketHi i) ∧
      getPercentile h y ≤ getPercentile h y') ↔
    ∀ i (hi : i < h.buckets.length), 0 < i → 0 < h.buckets.get ⟨i, hi⟩ →
      r2 ^ i ≤ h.countValues := by
  constructor
  · intro hprop i hi hne hpos
    by_contra hlt
    have hi' : i < h.weights.length := by simpa [PHist.weights, castCounts] using hi
    have hpos' : 0 < h.weights.get ⟨i, hi'⟩ := by
      simp only [PHist.weights, castCounts, List.get_eq_getElem, List.getElem_map]
      exact_mod_cast hpos
    have hlo : (h.countValues : ℚ) < bucketLo i := by
      rw [bucketLo, if_neg (by omega)]
      exact not_le.mp hlt
    -- the share of the buckets up to `i` is a quantile at which the result leaves the bucket
    have hr := reaches_prefixSum hi' hpos'
    have hlevel : prefixSum h.weights (i + 1) / h.countValues * h.countValues
        = prefixSum h.weights (i + 1) := div_mul_cancel₀ _ hc.countValues_pos.ne'
    have h0 : 0 < prefixSum h.weights (i + 1) / h.countValues := by
      refine div_pos (lt_of_le_of_lt ?_ hr.2.1) hc.countValues_pos
      have := prefixSum_mono hc.weights_nonneg (Nat.zero_le i)
      rwa [prefixSum_zero] at this
    have h1 : prefixSum h.weights (i + 1) / h.countValues ≤ 1 := by
      rw [div_le_one hc.countValues_pos, ← hc.weights_sum, ← prefixSum_length]
      exact prefixSum_mono hc.weights_nonneg hi'
    obtain ⟨⟨j, hj, hjlo, -⟩, -⟩ := hprop _ _ h0 (le_refl _) h1
    have hji : j = i := by
      rw [isQuantileBucket_iff hc h0, hlevel] at hj
      exact hj.unique hc.weights_nonneg hr
    rw [hji] at hjlo
    exact absurd (getPercentile_lt_bucketLo hc hi' hpos' hlo) (not_lt.mpr hjlo)
  · intro hcond y y' hy hyy hy1
    obtain ⟨i, hi⟩ := exists_quantile hc hy (le_trans hyy hy1)
    obtain ⟨i', hi'⟩ := exists_quantile hc (lt_of_lt_of_le hy hyy) hy1
    have hlo := bucketLo_le_countValues hcond hc hi
    have hlo' := bucketLo_le_countValues hcond hc hi'
    have hmem := getPercentile_mem hc hi hlo
    refine ⟨⟨i, (isQuantileBucket_iff hc hy).mpr hi, hmem⟩, ?_⟩
    have hle : i ≤ i' := hi.mono hc.weights_nonneg hi'
      (mul_le_mul_of_nonneg_right hyy hc.countValues_pos.le)
    rcases Nat.lt_or_eq_of_le hle with hlt | heq
    · -- different buckets: the first ends before the second begins
      calc getPercentile h y ≤ bucketHi i := hmem.2
        _ ≤ bucketLo i' := bucketHi_le_bucketLo hlt
        _ ≤ getPercentile h y' := (getPercentile_mem hc hi' hlo').1
    · subst heq
      rw [getPercentile_eq hc hi, getPercentile_eq hc hi']
      exact lerp_mono (le_min (bucketLo_lt_bucketHi i).le hlo)
        (lt_of_lt_of_le (shares_enclose hc hi).1 (shares_enclose hc hi).2) hyy

/-- Three samples below `r2`, with the 27 buckets `do_client` allocates. -/
def lowHist : PHist := { countBucket := 27, countValues := 3, buckets := 3 :: List.replicate 26 0 }

/-- The median of these is in bucket 0 and not above their maximum. -/
theorem percentile_lowHist :
    (∃ i, IsQuantileBucket lowHist (1 / 2) i ∧ bucketLo i ≤ getPercentile lowHist (1 / 2) ∧
      getPercentile lowHist (1 / 2) ≤ bucketHi i) ∧
    getPercentile lowHist (1 / 2) ≤ getPercentile lowHist 1 := by
  have hempty : ∀ i (hi : i < lowHist.buckets.length), 0 < i →
      ¬ 0 < lowHist.buckets.get ⟨i, hi⟩ := by
    decide
  have hall := (percentile_in_bucket_and_monotone_iff lowHist
    ⟨by decide, by decide, by decide, by decide⟩).mpr
      fun i hi hne hpos => absurd hpos (hempty i hi hne)
  exact hall (1 / 2) 1 (by norm_num) (by norm_num) (le_refl 1)

/-- One sample of about 40 us: bucket 10 of 27. -/
def oneSampleHist : PHist where
  countBucket := 27
  countValues := 1
  buckets := List.replicate 10 0 ++ 1 :: List.replicate 16 0

/-- The maximum of that single sample is reported as 1 us, far below its bucket, which starts
at 31.9 us. -/
theorem percentile_oneSampleHist_leaves_bucket :
    ¬ ∀ y y' : ℚ, 0 < y → y ≤ y' → y' ≤ 1 →
      (∃ i, IsQuantileBucket oneSampleHist y i ∧ bucketLo i ≤ getPercentile oneSampleHist y ∧
        getPercentile oneSampleHist y ≤ bucketHi i) ∧
      getPercentile oneSampleHist y ≤ getPercentile oneSampleHist y' := by
  intro hprop
  have hc : oneSampleHist.Counts := ⟨by decide, by decide, by decide, by decide⟩
  have hlen : 10 < oneSampleHist.weights.length := by
    simp [PHist.weights, castCounts, oneSampleHist]
  have hpos : 0 < oneSampleHist.weights.get ⟨10, hlen⟩ := by
    simp [PHist.weights, castCounts, oneSampleHist]
  have htotal : prefixSum oneSampleHist.weights (10 + 1) = 1 := by
    rw [PHist.weights, prefixSum_castCounts,
      show (oneSampleHist.buckets.take (10 + 1)).sum = 1 by decide, Int.cast_one]
  have hone : prefixSum oneSampleHist.weights (10 + 1) / (oneSampleHist.countValues : ℚ) = 1 := by
    rw [htotal]
    simp [oneSampleHist]
  have hout := getPercentile_lt_bucketLo hc hlen hpos (by norm_num [oneSampleHist, bucketLo, r2])
  rw [hone] at hout
  obtain ⟨⟨i, hi, hlo, -⟩, -⟩ := hprop 1 1 one_pos (le_refl _) (le_refl _)
  have hten : i = 10 := by
    rw [isQuantileBucket_iff hc one_pos, one_mul] at hi
    refine hi.unique hc.weights_nonneg ?_
    have hr := reaches_prefixSum hlen hpos
    rw [htotal] at hr
    simpa [oneSampleHist] using hr
  rw [hten] at hlo
  exact absurd hout (not_lt.mpr hlo)

end DpdkEcho
