import Mathlib.Algebra.Order.BigOperators.Group.List
import Mathlib.Algebra.Order.Field.Basic
import Mathlib.Algebra.Order.Floor.Ring
import Mathlib.Tactic.Linarith
import Mathlib.Tactic.Ring

/-!
# Cumulative weights

A list of non-negative weights and its partial sums. The position that *reaches* a level `t` is
the one at which the partial sum passes `t`: below `t` before the weight, at least `t` with it.
There is at most one (`Reaches.unique`), it moves to the right when the level rises
(`Reaches.mono`), and its own weight is positive (`Reaches.pos`).

`floorSum` rounds the partial sums, scaled by a factor, down to integers. Each of its steps is less
than one away from the scaled weight (`floorSum_step`), which orders the steps like the weights up
to one (`floorSum_step_le`).

`lerp` is linear interpolation between two points of such a staircase.
-/

namespace Infra

section
variable {α : Type*} [AddCommGroup α] {w : List α} {i : Nat}

/-- The sum of the first `i` weights. -/
def prefixSum (w : List α) (i : Nat) : α := (w.take i).sum

/-- The partial sums pass the level `t` at position `i`. -/
def Reaches [LinearOrder α] (w : List α) (t : α) (i : Nat) : Prop :=
  i < w.length ∧ prefixSum w i < t ∧ t ≤ prefixSum w (i + 1)

@[simp] theorem prefixSum_zero : prefixSum w 0 = 0 := by simp [prefixSum]

theorem prefixSum_length : prefixSum w w.length = w.sum := by simp [prefixSum]

theorem prefixSum_succ (hi : i < w.length) :
    prefixSum w (i + 1) = prefixSum w i + w.get ⟨i, hi⟩ := by
  rw [prefixSum, prefixSum, List.take_succ_eq_append_getElem hi, List.sum_append]
  simp

end

section
variable {α : Type*} [AddCommGroup α] [LinearOrder α] [IsOrderedAddMonoid α]
variable {w : List α} {t u : α} {i j : Nat}

/-- Partial sums of non-negative weights grow. -/
theorem prefixSum_mono (hw : ∀ x ∈ w, 0 ≤ x) (h : i ≤ j) : prefixSum w i ≤ prefixSum w j := by
  induction j, h using Nat.le_induction with
  | base => exact le_refl _
  | succ j _ ih =>
    by_cases hj : j < w.length
    · rw [prefixSum_succ hj]
      have hx : 0 ≤ w.get ⟨j, hj⟩ := hw _ (List.get_mem w ⟨j, hj⟩)
      exact le_trans ih (le_add_of_nonneg_right hx)
    · have hlen : w.length ≤ j := by omega
      rw [show prefixSum w (j + 1) = prefixSum w j by
        rw [prefixSum, prefixSum, List.take_of_length_le hlen, List.take_of_length_le (by omega)]]
      exact ih

omit [IsOrderedAddMonoid α] in
/-- A level between zero and the total is reached somewhere. -/
theorem exists_reaches (h0 : 0 < t) (h1 : t ≤ w.sum) : ∃ i, Reaches w t i := by
  have hex : ∃ n, t ≤ prefixSum w n := ⟨w.length, by rw [prefixSum_length]; exact h1⟩
  classical
  have hspec := Nat.find_spec hex
  have hle : Nat.find hex ≤ w.length := Nat.find_min' hex (by rw [prefixSum_length]; exact h1)
  cases hn : Nat.find hex with
  | zero =>
    rw [hn, prefixSum_zero] at hspec
    exact absurd h0 (not_lt.mpr hspec)
  | succ i =>
    rw [hn] at hspec
    refine ⟨i, by omega, ?_, hspec⟩
    exact not_le.mp (Nat.find_min hex (by omega))

/-- The position moves to the right as the level rises. -/
theorem Reaches.mono (hw : ∀ x ∈ w, 0 ≤ x) (hi : Reaches w t i) (hj : Reaches w u j)
    (h : t ≤ u) : i ≤ j := by
  by_contra hlt
  have hle : prefixSum w (j + 1) ≤ prefixSum w i := prefixSum_mono hw (by omega)
  exact absurd hi.2.1 (not_lt.mpr (le_trans h (le_trans hj.2.2 hle)))

theorem Reaches.unique (hw : ∀ x ∈ w, 0 ≤ x) (hi : Reaches w t i) (hj : Reaches w t j) : i = j :=
  Nat.le_antisymm (hi.mono hw hj (le_refl t)) (hj.mono hw hi (le_refl t))

/-- The weight at which a level is passed is positive. -/
theorem Reaches.pos (h : Reaches w t i) : 0 < w.get ⟨i, h.1⟩ := by
  have hlt : prefixSum w i < prefixSum w i + w.get ⟨i, h.1⟩ := by
    rw [← prefixSum_succ h.1]
    exact lt_of_lt_of_le h.2.1 h.2.2
  exact pos_of_lt_add_right hlt

/-- A positive weight is where its own partial sum is reached. -/
theorem reaches_prefixSum (hi : i < w.length) (hpos : 0 < w.get ⟨i, hi⟩) :
    Reaches w (prefixSum w (i + 1)) i := by
  refine ⟨hi, ?_, le_refl _⟩
  rw [prefixSum_succ hi]
  exact lt_add_of_pos_right _ hpos

/-- With non-negative weights, passing the level `t > 0` at `i` means that `i` is the first
position whose partial sum is at least `t`. -/
theorem reaches_iff_first (hw : ∀ x ∈ w, 0 ≤ x) (ht : 0 < t) :
    Reaches w t i ↔
      i < w.length ∧ t ≤ prefixSum w (i + 1) ∧ ∀ j, j < i → prefixSum w (j + 1) < t := by
  constructor
  · rintro ⟨hi, hlt, hle⟩
    exact ⟨hi, hle, fun j hj => lt_of_le_of_lt (prefixSum_mono hw hj) hlt⟩
  · rintro ⟨hi, hle, hfirst⟩
    refine ⟨hi, ?_, hle⟩
    cases i with
    | zero => rw [prefixSum_zero]; exact ht
    | succ i => exact hfirst i (Nat.lt_succ_self i)

end

/-! ## Rounding -/

section
variable {K : Type*} [Field K] [LinearOrder K] [IsStrictOrderedRing K] [FloorRing K]
variable {R : K} {w : List K} {i j : Nat}

/-- The partial sums as multiples of `1 / R`, rounded down. -/
def floorSum (R : K) (w : List K) (i : Nat) : Int := ⌊prefixSum w i * R⌋

@[simp] theorem floorSum_zero : floorSum R w 0 = 0 := by simp [floorSum]

theorem floorSum_mono (hR : 0 ≤ R) (hw : ∀ x ∈ w, 0 ≤ x) (h : i ≤ j) :
    floorSum R w i ≤ floorSum R w j :=
  Int.floor_le_floor (mul_le_mul_of_nonneg_right (prefixSum_mono hw h) hR)

/-- A step is the scaled weight, up to less than one. -/
theorem floorSum_step (hi : i < w.length) :
    |((floorSum R w (i + 1) - floorSum R w i : Int) : K) - w.get ⟨i, hi⟩ * R| < 1 := by
  have hsucc : prefixSum w (i + 1) * R = prefixSum w i * R + w.get ⟨i, hi⟩ * R := by
    rw [prefixSum_succ hi]
    ring
  have hlo := Int.floor_le (prefixSum w i * R)
  have hlo' := Int.lt_floor_add_one (prefixSum w i * R)
  have hhi := Int.floor_le (prefixSum w (i + 1) * R)
  have hhi' := Int.lt_floor_add_one (prefixSum w (i + 1) * R)
  rw [floorSum, floorSum, Int.cast_sub, abs_lt]
  constructor
  · linarith
  · linarith

/-- The step of a smaller weight is larger by one at most. -/
theorem floorSum_step_le (hR : 0 ≤ R) (hi : i < w.length) (hj : j < w.length)
    (hle : w.get ⟨j, hj⟩ ≤ w.get ⟨i, hi⟩) :
    floorSum R w (j + 1) - floorSum R w j ≤ floorSum R w (i + 1) - floorSum R w i + 1 := by
  obtain ⟨hi1, -⟩ := abs_lt.mp (floorSum_step (R := R) hi)
  obtain ⟨-, hj2⟩ := abs_lt.mp (floorSum_step (R := R) hj)
  have hscaled := mul_le_mul_of_nonneg_right hle hR
  have hlt : ((floorSum R w (j + 1) - floorSum R w j : Int) : K)
      < ((floorSum R w (i + 1) - floorSum R w i + 2 : Int) : K) := by
    rw [Int.cast_add, Int.cast_ofNat]
    linarith
  have := Int.cast_lt.mp hlt
  omega

end

/-! ## Interpolation -/

section
variable {K : Type*} [Field K] [LinearOrder K] [IsStrictOrderedRing K]

/-- The value at `y` of the line through `(y0, x0)` and `(y1, x1)`. -/
def lerp (x0 x1 y0 y1 y : K) : K := x0 + (x1 - x0) * ((y - y0) / (y1 - y0))

variable {x0 x1 y0 y1 y y' : K}

theorem lerp_right (h : y0 < y1) : lerp x0 x1 y0 y1 y1 = x1 := by
  have hne : y1 - y0 ≠ 0 := (sub_pos.mpr h).ne'
  rw [lerp, div_self hne]
  ring

/-- Between its end points the line stays between their values. -/
theorem lerp_mem (hx : x0 ≤ x1) (h0 : y0 < y) (h1 : y ≤ y1) :
    x0 ≤ lerp x0 x1 y0 y1 y ∧ lerp x0 x1 y0 y1 y ≤ x1 := by
  have hpos : 0 < y1 - y0 := sub_pos.mpr (lt_of_lt_of_le h0 h1)
  have ht0 : 0 ≤ (y - y0) / (y1 - y0) := div_nonneg (sub_nonneg.mpr h0.le) hpos.le
  have ht1 : (y - y0) / (y1 - y0) ≤ 1 := (div_le_one hpos).mpr (by linarith)
  have hd : 0 ≤ x1 - x0 := sub_nonneg.mpr hx
  have hlo : 0 ≤ (x1 - x0) * ((y - y0) / (y1 - y0)) := mul_nonneg hd ht0
  have hhi : (x1 - x0) * ((y - y0) / (y1 - y0)) ≤ (x1 - x0) * 1 :=
    mul_le_mul_of_nonneg_left ht1 hd
  constructor
  · unfold lerp; linarith
  · unfold lerp; linarith

theorem lerp_mono (hx : x0 ≤ x1) (h01 : y0 < y1) (h : y ≤ y') :
    lerp x0 x1 y0 y1 y ≤ lerp x0 x1 y0 y1 y' := by
  have hpos : 0 < y1 - y0 := sub_pos.mpr h01
  have ht : (y - y0) / (y1 - y0) ≤ (y' - y0) / (y1 - y0) :=
    div_le_div_of_nonneg_right (by linarith) hpos.le
  have hm := mul_le_mul_of_nonneg_left ht (sub_nonneg.mpr hx)
  unfold lerp
  linarith

end

end Infra
