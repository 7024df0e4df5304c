import Mathlib.Data.List.Induction
import DpdkEcho.Properties.Percentile

/-!
# The counters of a histogram over a run

A histogram only counts. Its counters are `int`s, so that the count is right up to `INT_MAX`
samples and wraps around with the next one. Up to there the buckets are counts in the sense of
`PHist.Counts`, which is what `get_percentile` needs.
-/

namespace DpdkEcho

open Infra

/-- A sequence of calls of `add_number_to_p_hist`. -/
def addNumbers (log : ℚ → ℚ) (hist : PHist) (values : List ℚ) : PHist :=
  values.foldl (addNumberToPHist log) hist

/-- What is expected of the bookkeeping after the calls: each call wrote inside the array, and
the counters count the calls. -/
structure HistBookkeeping (log : ℚ → ℚ) (countBucket : Int) (values : List ℚ) : Prop where
  index : ∀ earlier value, earlier ++ [value] <+: values →
    0 ≤ histIndex log (addNumbers log (newPHist countBucket) earlier) value ∧
      histIndex log (addNumbers log (newPHist countBucket) earlier) value < countBucket
  count : (addNumbers log (newPHist countBucket) values).countValues = values.length
  sum : (addNumbers log (newPHist countBucket) values).buckets.sum
    = (addNumbers log (newPHist countBucket) values).countValues
  nonneg : ∀ b ∈ (addNumbers log (newPHist countBucket) values).buckets, 0 ≤ b
  count_nonneg : 0 ≤ (addNumbers log (newPHist countBucket) values).countValues

section
variable {log : ℚ → ℚ} {hist : PHist}

theorem addNumbers_concat (values : List ℚ) (v : ℚ) :
    addNumbers log hist (values ++ [v])
      = addNumberToPHist log (addNumbers log hist values) v := by
  rw [addNumbers, List.foldl_concat, addNumbers]

/-! ## The index -/

theorem truncate_nonneg {x : ℚ} (h : 0 ≤ x) : 0 ≤ truncate x := by
  rw [truncate, if_pos h]
  exact Rat.le_floor_iff.mpr (by simpa using h)

theorem histIndex_bounds (hlog : ∀ x, r2 ≤ x → 0 ≤ log x) (hb : 1 ≤ hist.countBucket) (v : ℚ) :
    0 ≤ histIndex log hist v ∧ histIndex log hist v < hist.countBucket := by
  have hraw : 0 ≤ if v < r2 then 0 else truncate (log v * invLogR2) := by
    split
    · exact le_refl 0
    · next hv =>
      exact truncate_nonneg (mul_nonneg (hlog v (not_lt.mp hv)) (by norm_num [invLogR2]))
  unfold histIndex
  generalize (if v < r2 then 0 else truncate (log v * invLogR2)) = index at hraw ⊢
  simp only []
  split <;> omega

@[simp] theorem addNumbers_countBucket (values : List ℚ) :
    (addNumbers log hist values).countBucket = hist.countBucket := by
  induction values generalizing hist with
  | nil => rfl
  | cons v vs ih => exact ih

@[simp] theorem addNumbers_buckets_length (values : List ℚ) :
    (addNumbers log hist values).buckets.length = hist.buckets.length := by
  induction values generalizing hist with
  | nil => rfl
  | cons v vs ih =>
    rw [addNumbers, List.foldl_cons, ← addNumbers, ih, addNumberToPHist, List.length_modify]

/-! ## The counters -/

theorem wrapSigned_of_int {x : Int} (h0 : 0 ≤ x) (h1 : x < 2 ^ 31) : wrapSigned 32 x = x :=
  Int.bmod_eq_of_le (by omega) (by omega)

/-- One counter goes up, so does the sum: no counter is larger than the sum. -/
theorem sum_bump : ∀ (bs : List Int) (i : Nat), i < bs.length → (∀ b ∈ bs, 0 ≤ b) →
    bs.sum < 2 ^ 31 - 1 →
    (bs.modify i fun b => wrapSigned 32 (b + 1)).sum = bs.sum + 1 ∧
      ∀ b ∈ bs.modify i (fun b => wrapSigned 32 (b + 1)), 0 ≤ b
  | [], i, hi, _, _ => absurd hi (by simp)
  | b :: bs, i, hi, hnn, hsum => by
    have hb : 0 ≤ b := hnn b List.mem_cons_self
    have hbs : ∀ x ∈ bs, 0 ≤ x := fun x hx => hnn x (List.mem_cons_of_mem b hx)
    have hrest : 0 ≤ bs.sum := List.sum_nonneg hbs
    rw [List.sum_cons] at hsum
    cases i with
    | zero =>
      rw [List.modify_zero_cons, wrapSigned_of_int (by omega) (by omega), List.sum_cons,
        List.sum_cons]
      refine ⟨by omega, fun x hx => ?_⟩
      rcases List.mem_cons.mp hx with rfl | hx
      · omega
      · exact hbs x hx
    | succ i =>
      obtain ⟨ih, ihnn⟩ := sum_bump bs i (by simpa using hi) hbs (by omega)
      rw [List.modify_succ_cons, List.sum_cons, List.sum_cons, ih]
      refine ⟨by omega, fun x hx => ?_⟩
      rcases List.mem_cons.mp hx with rfl | hx
      · exact hb
      · exact ihnn x hx

/-- The counters after `m` calls, `m` at most `INT_MAX`. -/
structure CountsTo (hist : PHist) (m : Nat) : Prop where
  count : hist.countValues = m
  sum : hist.buckets.sum = m
  nonneg : ∀ b ∈ hist.buckets, 0 ≤ b

theorem newPHist_countsTo (countBucket : Int) : CountsTo (newPHist countBucket) 0 := by
  refine ⟨rfl, ?_, fun b hb => ?_⟩
  · simp [newPHist]
  · rw [List.eq_of_mem_replicate hb]

theorem addNumberToPHist_countsTo {m : Nat} {v : ℚ} (hc : CountsTo hist m) (hm : m + 1 < 2 ^ 31)
    (hi : (histIndex log hist v).toNat < hist.buckets.length) :
    CountsTo (addNumberToPHist log hist v) (m + 1) := by
  have hsum : hist.buckets.sum < 2 ^ 31 - 1 := by rw [hc.sum]; omega
  obtain ⟨hs, hnn⟩ := sum_bump hist.buckets _ hi hc.nonneg hsum
  refine ⟨?_, ?_, hnn⟩
  · show wrapSigned 32 (hist.countValues + 1) = _
    rw [hc.count, wrapSigned_of_int (by omega) (by omega)]
    omega
  · show (hist.buckets.modify _ _).sum = _
    rw [hs, hc.sum]
    omega

/-- The number of samples wraps around. -/
theorem addNumbers_countValues (countBucket : Int) (values : List ℚ) :
    (addNumbers log (newPHist countBucket) values).countValues = wrapSigned 32 values.length := by
  induction values using List.reverseRecOn with
  | nil => rfl
  | append_singleton vs v ih =>
    have hlen : ((vs ++ [v]).length : Int) = vs.length + 1 := by
      rw [List.length_append, List.length_singleton, Int.natCast_add, Int.natCast_one]
    rw [addNumbers_concat, hlen]
    show wrapSigned 32 ((addNumbers log (newPHist countBucket) vs).countValues + 1) = _
    rw [ih]
    exact Int.bmod_add_bmod

end

section
variable {log : ℚ → ℚ} (hlog : ∀ x, r2 ≤ x → 0 ≤ log x) {countBucket : Int}
  (hb : 1 ≤ countBucket)
include hlog hb

theorem addNumbers_index (earlier : List ℚ) (v : ℚ) :
    0 ≤ histIndex log (addNumbers log (newPHist countBucket) earlier) v ∧
      histIndex log (addNumbers log (newPHist countBucket) earlier) v < countBucket := by
  have h := @histIndex_bounds log (addNumbers log (newPHist countBucket) earlier) hlog
    (by rw [addNumbers_countBucket]; exact hb) v
  rwa [addNumbers_countBucket] at h

/-- Up to `INT_MAX` samples nothing wraps. The induction is on the number of calls made. -/
theorem addNumbers_countsTo (values : List ℚ) (hm : values.length < 2 ^ 31) :
    CountsTo (addNumbers log (newPHist countBucket) values) values.length := by
  induction values using List.reverseRecOn with
  | nil => exact newPHist_countsTo countBucket
  | append_singleton vs v ih =>
    rw [List.length_append, List.length_singleton] at hm ⊢
    rw [addNumbers_concat]
    refine addNumberToPHist_countsTo (ih (by omega)) hm ?_
    obtain ⟨h0, h1⟩ := addNumbers_index hlog hb vs v
    have hlen : (newPHist countBucket).buckets.length = countBucket.toNat :=
      List.length_replicate
    rw [addNumbers_buckets_length, hlen]
    omega

/-- A histogram that was filled with up to `INT_MAX` samples is fit for `get_percentile`. -/
theorem addNumbers_counts {values : List ℚ} (hne : values ≠ []) (hm : values.length < 2 ^ 31) :
    (addNumbers log (newPHist countBucket) values).Counts := by
  have hc := addNumbers_countsTo hlog hb values hm
  have hpos := List.length_pos_of_ne_nil hne
  refine ⟨?_, hc.nonneg, by rw [hc.sum, hc.count], by rw [hc.count]; omega⟩
  rw [addNumbers_countBucket, addNumbers_buckets_length]
  simp only [newPHist, List.length_replicate]
  omega

/-- **The bookkeeping of a histogram** is right exactly for runs of fewer than `2 ^ 31` samples,
whatever the samples and the number of buckets are. -/
theorem histBookkeeping_iff (values : List ℚ) :
    HistBookkeeping log countBucket values ↔ values.length < 2 ^ 31 := by
  constructor
  · intro h
    have hcount := h.count
    rw [addNumbers_countValues] at hcount
    have hlt : wrapSigned 32 values.length < 2 ^ 31 := Int.bmod_lt (by decide)
    omega
  · intro hm
    have hc := addNumbers_countsTo hlog hb values hm
    refine ⟨fun earlier v _ => addNumbers_index hlog hb earlier v, hc.count, ?_, hc.nonneg, ?_⟩
    · rw [hc.sum, hc.count]
    · rw [hc.count]
      omega

end

/-- Three samples in two buckets. -/
theorem histBookkeeping_three : HistBookkeeping (fun _ => 1) 2 [0, 1, 5] :=
  (histBookkeeping_iff (fun _ _ => by norm_num) (by decide) [0, 1, 5]).mpr (by decide)

/-- With sample number `2 ^ 31` the count turns negative, `INT_MIN`. -/
theorem histogram_count_wraps :
    (addNumbers (fun _ => 1) (newPHist 2) (List.replicate (2 ^ 31) 0)).countValues = -2 ^ 31 ∧
      ¬ HistBookkeeping (fun _ => 1) 2 (List.replicate (2 ^ 31) 0) := by
  have hcount : (addNumbers (fun _ => 1) (newPHist 2) (List.replicate (2 ^ 31) 0)).countValues
      = -2 ^ 31 := by
    rw [addNumbers_countValues, List.length_replicate]
    decide
  refine ⟨hcount, fun h => ?_⟩
  have hneg := h.count_nonneg
  rw [hcount] at hneg
  exact absurd hneg (by decide)

end DpdkEcho
