import DpdkEcho.Infra.CString
import DpdkEcho.Infra.Cumulative

/-!
# Latency histogram (`utils/percentile.c`)

Bucket `0` holds the values below `r2`, bucket `i` those between `r2 ^ i` and `r2 ^ (i + 1)`.
Floating-point arithmetic is read as exact rational arithmetic. `log` is a parameter.
-/

namespace DpdkEcho

open Infra

/-- `r2` -/
def r2 : ℚ := 14142 / 10000

/-- `inv_log_r2` -/
def invLogR2 : ℚ := 2885390082 / 1000000000

/-- `struct p_hist`. The counters are `int`s. -/
structure PHist where
  countBucket : Int
  countValues : Int
  buckets : List Int

/-- `new_p_hist` -/
def newPHist (countBucket : Int) : PHist where
  countBucket := countBucket
  countValues := 0
  buckets := List.replicate countBucket.toNat 0

/-- Conversion of a floating-point number to `int`: towards zero. -/
def truncate (x : ℚ) : Int := if 0 ≤ x then x.floor else x.ceil

/-- `new_p_hist_from_max_value` -/
def newPHistFromMaxValue (log : ℚ → ℚ) (maxValue : ℚ) : PHist :=
  newPHist (truncate (log maxValue * invLogR2 + 1))

/-- The bucket `add_number_to_p_hist` selects. -/
def histIndex (log : ℚ → ℚ) (hist : PHist) (value : ℚ) : Int :=
  let index := if value < r2 then 0 else truncate (log value * invLogR2)
  if index ≥ hist.countBucket then hist.countBucket - 1 else index

/-- `add_number_to_p_hist`. An `int` counter wraps around. -/
def addNumberToPHist (log : ℚ → ℚ) (hist : PHist) (value : ℚ) : PHist :=
  { hist with
    buckets := hist.buckets.modify (histIndex log hist value).toNat
      fun b => wrapSigned 32 (b + 1)
    countValues := wrapSigned 32 (hist.countValues + 1) }

/-! ## `get_percentile` -/

/-- `i`, `y0` and `y1` when the scan is left. -/
structure PercentileScan where
  i : Nat
  y0 : ℚ
  y1 : ℚ

/-- The loop over the buckets from index `i` on; `tmp` and `y1` are the loop variables of the
source before the turn. -/
def scanBuckets (countValues y : ℚ) : List Int → Nat → ℚ → ℚ → ℚ → PercentileScan
  | [], i, _, y0, y1 => { i := i, y0 := y0, y1 := y1 }
  | b :: bs, i, tmp, _, y1 =>
    let tmp' := tmp + b
    let y1' := tmp' / countValues
    if y1' ≥ y then { i := i, y0 := y1, y1 := y1' }
    else scanBuckets countValues y bs (i + 1) tmp' y1 y1'

/-- The lower end `x0` of bucket `i`. -/
def bucketLo (i : Nat) : ℚ := if i = 0 then 0 else r2 ^ i

/-- The upper end `x1` of bucket `i`. -/
def bucketHi (i : Nat) : ℚ := if i = 0 then r2 else r2 ^ (i + 1)

/-- `get_percentile` -/
def getPercentile (hist : PHist) (y : ℚ) : ℚ :=
  let scan := scanBuckets hist.countValues y (hist.buckets.take hist.countBucket.toNat) 0 0 0 0
  let x0 := bucketLo scan.i
  let x1 := bucketHi scan.i
  let x1 := if x1 > hist.countValues then (hist.countValues : ℚ) else x1
  x0 + (x1 - x0) * ((y - scan.y0) / (scan.y1 - scan.y0))

end DpdkEcho
