import DpdkEcho.Infra.CString
import DpdkEcho.Percentile

/-!
# Ranks with a Zipf distribution (`utils/zipf.c`)

`new_zipfgen` builds a table of cumulative weights. Its floating-point arithmetic is read as exact
rational arithmetic, and the exponent is a natural number.

`__myrand` is a linear congruential generator, `myrand` plays back its first `2 ^ 25` values over
and over, and `number_from_zipf_distribution` looks a value up in a table of cumulative weights.

The table is memory behind a pointer. It is read at an index from its start, whether or not the
index lies inside the `n + 1` entries that were allocated, and the search records where it reads.
-/

namespace DpdkEcho

open Infra

/-- `INT_MAX` -/
def intMax : Int := 2 ^ 31 - 1

/-- `RAND_MAX` of glibc. -/
def randMax : Nat := 2 ^ 31 - 1

/-- `struct zipfgen`, without `h` and `s`, which are not read after the table is built. -/
structure ZipfGen where
  cProbs : Int → Int
  n : Int

/-! ## The table -/

/-- `PTRDIFF_MAX`, the largest object that `malloc` gives out. -/
def ptrdiffMax : UInt64 := 0x7fffffffffffffff

/-- The size of `malloc(count * sizeof(T))`: the `int` count is converted to `size_t`. -/
def mallocSize (count : Int) (size : UInt64) : UInt64 := UInt64.ofInt count * size

/-- The two arrays `c_probs` and `c_probs_int` while the table is built. -/
structure ZipfBuild where
  cProbs : Int → ℚ
  cProbsInt : Int → Int

/-- The values of `i` in `for (i = 1; i < bound; i++)`. -/
def zipfIndices (bound : Int) : List Int :=
  (List.range (bound - 1).toNat).map fun k => (k : Int) + 1

/-- The loop that sums up `h`. -/
def zipfNorm (s : Nat) (bound : Int) : ℚ :=
  (zipfIndices bound).foldl (fun (h : ℚ) (i : Int) => h + 1 / (i : ℚ) ^ s) 0

/-- One turn of the loop that fills the arrays. -/
def zipfEntry (s : Nat) (h : ℚ) (t : ZipfBuild) (i : Int) : ZipfBuild :=
  let p := t.cProbs (i - 1) + 1 / ((i : ℚ) ^ s * h)
  { cProbs := Function.update t.cProbs i p
    cProbsInt := Function.update t.cProbsInt i (truncate (p * randMax)) }

/-- `new_zipfgen`. `mem` is what the arrays hold before they are written. The sum `n + 1` is an
`int`; where it is negative no memory can be had for it, and the first store is through a null
pointer: `none`. -/
def newZipfgen (mem : ZipfBuild) (n : Int) (s : Nat) : Option ZipfGen :=
  let bound := wrapSigned 32 (n + 1)
  if ptrdiffMax < mallocSize bound 8 ∨ ptrdiffMax < mallocSize bound 4 then none
  else
    let h := zipfNorm s bound
    let t : ZipfBuild := {
      cProbs := Function.update mem.cProbs 0 0
      cProbsInt := Function.update mem.cProbsInt 0 0 }
    some { cProbs := ((zipfIndices bound).foldl (zipfEntry s h) t).cProbsInt, n := n }

/-! ## The random numbers -/

/-- `__myrand`: the new seed and the value returned. `seed` is an `unsigned long`. -/
def myrandLcg (seed : UInt64) : UInt64 × Int :=
  let a : UInt64 := 1664525
  let c : UInt64 := 1013904223
  let m : UInt64 := 4294967296
  let seed := (a * seed + c) % m
  (seed, (seed.toNat % randMax : Nat))

/-- `_sz` -/
def srendipitySize : Nat := 2 ^ 25

/-- The static variables of `__myrand` and `myrand`. -/
structure RandState where
  seed : UInt64
  needInit : Bool
  srendipity : Nat → Int
  ptr : Nat

/-- The variables when the program starts. -/
def randInit : RandState where
  seed := 1
  needInit := true
  srendipity := fun _ => 0
  ptr := 0

/-- `for (size_t i = 0; i < _sz; i++)`, the next `n` turns from index `i` on. `rand` is the
generator that the loop calls. -/
def fillSrendipity (rand : UInt64 → UInt64 × Int) : (n i : Nat) → RandState → RandState
  | 0, _, st => st
  | n + 1, i, st =>
    fillSrendipity rand n (i + 1)
      { st with seed := (rand st.seed).1,
                srendipity := Function.update st.srendipity i (rand st.seed).2 }

/-- `myrand` -/
def myrand (st : RandState) : RandState × Int :=
  let st := if st.needInit then
      fillSrendipity myrandLcg srendipitySize 0 { st with needInit := false }
    else st
  ({ st with ptr := (st.ptr + 1) % srendipitySize }, st.srendipity st.ptr)

/-! ## The search -/

/-- The loop of `number_from_zipf_distribution` from the bounds on: the value returned, `none`
when the fuel runs out before, and the indices at which the table is read. Only the sum of the
bounds can overflow; half of an `int` has room for the step by one. -/
def zipfSearch (cProbs : Int → Int) (rnd : Int) : (fuel : Nat) → (low high : Int) →
    Option Int × List Int
  | 0, _, _ => (none, [])
  | fuel + 1, low, high =>
    if low ≤ high then
      let mid := (wrapSigned 32 (low + high)).tdiv 2
      if cProbs mid < rnd then
        let (r, reads) := zipfSearch cProbs rnd fuel (mid + 1) high
        (r, mid :: reads)
      else if rnd ≤ cProbs (mid - 1) then
        let (r, reads) := zipfSearch cProbs rnd fuel low (mid - 1)
        (r, mid :: (mid - 1) :: reads)
      else (some mid, [mid, mid - 1])
    else (some (-1), [])

/-- `number_from_zipf_distribution` after its call of `myrand` has returned `rnd`. -/
def numberFromZipfDistribution (fuel : Nat) (gen : ZipfGen) (rnd : Int) : Option Int × List Int :=
  zipfSearch gen.cProbs rnd fuel 1 gen.n

end DpdkEcho
