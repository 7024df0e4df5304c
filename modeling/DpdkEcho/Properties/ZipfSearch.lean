import Mathlib.Data.Int.Interval
import Mathlib.Data.Set.Card
import DpdkEcho.Infra.Machine
import DpdkEcho.Zipf

/-!
# The search in the Zipf table

The table splits the numbers above `c_probs[0]` and up to `c_probs[n]` into intervals, one for each
rank. The search finds the interval of a number, also where intervals are empty.

* `zipfSearch_spec`: the loop, from bounds between which the rank lies
* `zipfSearch_correct`: what the search returns, for every table and every number
* `zipf_rank_iff`: which draws of the generator have a rank
-/

namespace DpdkEcho

open Infra

/-- The interval of rank `i`. -/
def InRank (c : Int → Int) (rnd i : Int) : Prop := c (i - 1) < rnd ∧ rnd ≤ c i

/-- The entries `0 .. n` do not decrease. -/
def TableSorted (c : Int → Int) (n : Int) : Prop := ∀ i j, 0 ≤ i → i ≤ j → j ≤ n → c i ≤ c j

/-- What the search is to return: the rank, or -1 where there is none. -/
def SearchResult (c : Int → Int) (n rnd r : Int) : Prop :=
  (1 ≤ r ∧ r ≤ n ∧ InRank c rnd r) ∨ (r = -1 ∧ ∀ i, 1 ≤ i → i ≤ n → ¬ InRank c rnd i)

/-! ## Ranks -/

section
variable {c : Int → Int} {n rnd : Int} (hc : TableSorted c n)
include hc

/-- Intervals of different ranks have no number in common. -/
theorem inRank_unique {i j : Int} (hi : 1 ≤ i) (hi' : i ≤ n) (hj : 1 ≤ j) (hj' : j ≤ n)
    (h : InRank c rnd i) (h' : InRank c rnd j) : i = j := by
  rcases lt_trichotomy i j with hlt | heq | hlt
  · have hle := hc i (j - 1) (by omega) (by omega) (by omega)
    have h1 := h.2
    have h2 := h'.1
    omega
  · exact heq
  · have hle := hc j (i - 1) (by omega) (by omega) (by omega)
    have h1 := h'.2
    have h2 := h.1
    omega

/-- Numbers outside the table have no rank. -/
theorem not_inRank_of_outside (h : rnd ≤ c 0 ∨ c n < rnd) {i : Int} (hi : 1 ≤ i) (hi' : i ≤ n) :
    ¬ InRank c rnd i := by
  rintro ⟨h1, h2⟩
  have hlo := hc 0 (i - 1) (by omega) (by omega) (by omega)
  have hhi := hc i n (by omega) hi' (by omega)
  omega

/-- The result is determined by the table and the number. -/
theorem searchResult_unique {r r' : Int} (h : SearchResult c n rnd r)
    (h' : SearchResult c n rnd r') : r = r' := by
  rcases h with ⟨h1, h2, hr⟩ | ⟨rfl, hnone⟩
  · rcases h' with ⟨h1', h2', hr'⟩ | ⟨-, hnone'⟩
    · exact inRank_unique hc h1 h2 h1' h2' hr hr'
    · exact absurd hr (hnone' r h1 h2)
  · rcases h' with ⟨h1', h2', hr'⟩ | ⟨rfl, -⟩
    · exact absurd hr' (hnone r' h1' h2')
    · rfl

end

/-- Numbers inside have one: the last entry below the number is followed by the first that is
not. The induction is on the number of ranks. -/
theorem exists_inRank {c : Int → Int} {rnd : Int} : ∀ (n : Nat), c 0 < rnd → rnd ≤ c n →
    ∃ i : Int, 1 ≤ i ∧ i ≤ n ∧ InRank c rnd i
  | 0, h0, hn => absurd hn (by simpa using h0)
  | n + 1, h0, hn => by
    by_cases hlast : c n < rnd
    · refine ⟨n + 1, by omega, by omega, ?_, by simpa using hn⟩
      simpa using hlast
    · obtain ⟨i, h1, h2, hi⟩ := exists_inRank n h0 (not_lt.mp hlast)
      exact ⟨i, h1, by omega, hi⟩

section
variable {c : Int → Int} {n rnd : Int} (hc : TableSorted c n)
include hc

/-- There is a rank exactly for the numbers inside the table. -/
theorem searchResult_neg_one_iff (h1 : 1 ≤ n) {r : Int} (hr : SearchResult c n rnd r) :
    r = -1 ↔ rnd ≤ c 0 ∨ c n < rnd := by
  constructor
  · rintro rfl
    obtain ⟨h, -⟩ | ⟨-, hnone⟩ := hr
    · omega
    · by_contra hin
      obtain ⟨hlo, hhi⟩ := not_or.mp hin
      have hn : ((n.toNat : Nat) : Int) = n := Int.toNat_of_nonneg (by omega)
      obtain ⟨i, hi, hi', hrank⟩ :=
        exists_inRank n.toNat (not_le.mp hlo) (by rw [hn]; exact not_lt.mp hhi)
      exact hnone i hi (by omega) hrank
  · intro hout
    rcases hr with ⟨hr1, hr2, hrank⟩ | ⟨rfl, -⟩
    · exact absurd hrank (not_inRank_of_outside hc hout hr1 hr2)
    · rfl

theorem searchResult_rank_iff {r i : Int} (hr : SearchResult c n rnd r) (hi : 1 ≤ i)
    (hi' : i ≤ n) : r = i ↔ InRank c rnd i := by
  constructor
  · rintro rfl
    rcases hr with ⟨-, -, hrank⟩ | ⟨rfl, -⟩
    · exact hrank
    · omega
  · intro hrank
    rcases hr with ⟨hr1, hr2, hrank'⟩ | ⟨-, hnone⟩
    · exact inRank_unique hc hr1 hr2 hi hi' hrank' hrank
    · exact absurd hrank (hnone i hi hi')

end

/-! ## The loop -/

section
variable {c : Int → Int} {n rnd : Int}

/-- The middle of two bounds whose sum does not overflow. -/
theorem mid_bounds {low high : Int} (h1 : 1 ≤ low) (hle : low ≤ high) (hn : high ≤ n)
    (hmax : 2 * n ≤ intMax) :
    low ≤ (wrapSigned 32 (low + high)).tdiv 2 ∧ (wrapSigned 32 (low + high)).tdiv 2 ≤ high := by
  unfold intMax at hmax
  have hw : wrapSigned 32 (low + high) = low + high := Int.bmod_eq_of_le (by omega) (by omega)
  rw [hw, Int.tdiv_eq_ediv_of_nonneg (by omega)]
  omega

/--
**The loop finds the rank or shows that there is none.** The rank, if there is one, lies between
the bounds; each turn moves one bound past the middle, and `fuel` exceeds the distance of the
bounds by what the last test takes.
-/
theorem zipfSearch_spec (hc : TableSorted c n) (hmax : 2 * n ≤ intMax) :
    ∀ (fuel : Nat) (low high : Int), 1 ≤ low → high ≤ n → high - low + 2 ≤ fuel → 1 ≤ fuel →
      (∀ i, 1 ≤ i → i ≤ n → InRank c rnd i → low ≤ i ∧ i ≤ high) →
      ∃ r, (zipfSearch c rnd fuel low high).1 = some r ∧ SearchResult c n rnd r
  | 0, _, _, _, _, _, hpos, _ => absurd hpos (by omega)
  | fuel + 1, low, high, hlow, hhigh, hfuel, _, hinv => by
    unfold zipfSearch
    by_cases hle : low ≤ high
    · obtain ⟨hm1, hm2⟩ := mid_bounds hlow hle hhigh hmax
      rw [if_pos hle]
      generalize (wrapSigned 32 (low + high)).tdiv 2 = mid at hm1 hm2
      simp only []
      split
      · next hmore =>
        refine zipfSearch_spec hc hmax fuel (mid + 1) high (by omega) hhigh (by omega) (by omega)
          fun i h1 h2 hi => ⟨?_, (hinv i h1 h2 hi).2⟩
        -- an earlier rank would end below `rnd`
        by_contra hlt
        have hmono := hc i mid (by omega) (by omega) (by omega)
        have hrank := hi.2
        omega
      · next hnmore =>
        split
        · next hless =>
          refine zipfSearch_spec hc hmax fuel low (mid - 1) hlow (by omega) (by omega) (by omega)
            fun i h1 h2 hi => ⟨(hinv i h1 h2 hi).1, ?_⟩
          -- a later rank would begin at `rnd` or above
          by_contra hlt
          have hmono := hc (mid - 1) (i - 1) (by omega) (by omega) (by omega)
          have hrank := hi.1
          omega
        · next hnless =>
          exact ⟨mid, rfl, Or.inl ⟨by omega, by omega, not_le.mp hnless, not_lt.mp hnmore⟩⟩
    · rw [if_neg hle]
      refine ⟨-1, rfl, Or.inr ⟨rfl, fun i h1 h2 hi => ?_⟩⟩
      have := hinv i h1 h2 hi
      omega

/-- The loop reads inside the table, however long it runs. -/
theorem zipfSearch_reads (hmax : 2 * n ≤ intMax) :
    ∀ (fuel : Nat) (low high : Int), 1 ≤ low → high ≤ n →
      ∀ i ∈ (zipfSearch c rnd fuel low high).2, 0 ≤ i ∧ i ≤ n
  | 0, _, _, _, _ => by simp [zipfSearch]
  | fuel + 1, low, high, hlow, hhigh => by
    unfold zipfSearch
    by_cases hle : low ≤ high
    · obtain ⟨hm1, hm2⟩ := mid_bounds hlow hle hhigh hmax
      rw [if_pos hle]
      generalize (wrapSigned 32 (low + high)).tdiv 2 = mid at hm1 hm2
      simp only []
      split
      · intro i hi
        rcases List.mem_cons.mp hi with rfl | hi
        · omega
        · exact zipfSearch_reads hmax fuel (mid + 1) high (by omega) hhigh i hi
      · split
        · intro i hi
          rcases List.mem_cons.mp hi with rfl | hi
          · omega
          · rcases List.mem_cons.mp hi with rfl | hi
            · omega
            · exact zipfSearch_reads hmax fuel low (mid - 1) hlow (by omega) i hi
        · intro i hi
          rcases List.mem_cons.mp hi with rfl | hi
          · omega
          · rw [List.mem_singleton.mp hi]
            omega
    · rw [if_neg hle]
      simp

end

/-! ## The result -/

section
variable {c : Int → Int} {n rnd : Int} (h1 : 1 ≤ n) (hmax : 2 * n ≤ intMax)
  (hc : TableSorted c n)
include h1 hmax hc

/-- Enough fuel gives the result, the same whatever the fuel is. -/
theorem numberFromZipf_result : ∃ r, SearchResult c n rnd r ∧
    ∀ fuel : Nat, n + 1 ≤ fuel → (numberFromZipfDistribution fuel ⟨c, n⟩ rnd).1 = some r := by
  have hrun : ∀ fuel : Nat, n + 1 ≤ fuel → ∃ r,
      (numberFromZipfDistribution fuel ⟨c, n⟩ rnd).1 = some r ∧ SearchResult c n rnd r := by
    intro fuel hfuel
    exact zipfSearch_spec hc hmax fuel 1 n (by omega) (by omega) (by omega) (by omega)
      fun i hi hi' _ => ⟨hi, hi'⟩
  obtain ⟨r, -, hr⟩ := hrun (n + 1).toNat (by omega)
  refine ⟨r, hr, fun fuel hfuel => ?_⟩
  obtain ⟨r', hrun', hr'⟩ := hrun fuel hfuel
  rw [hrun', searchResult_unique hc hr' hr]

end

/--
**The search is right for every table that does not decrease.** It ends, reads inside the table
and returns the rank of the number, or -1 for the numbers that have none; ranks are unique, and
rank `i` gets as many numbers as the entries `i - 1` and `i` are apart.
-/
theorem zipfSearch_correct (c : Int → Int) (n : Int) (h1 : 1 ≤ n) (hmax : 2 * n ≤ intMax)
    (hc : TableSorted c n) :
    (∀ rnd, ∃ r,
      (∀ fuel : Nat, n + 1 ≤ fuel → (numberFromZipfDistribution fuel ⟨c, n⟩ rnd).1 = some r) ∧
      (∀ fuel, ∀ i ∈ (numberFromZipfDistribution fuel ⟨c, n⟩ rnd).2, 0 ≤ i ∧ i ≤ n) ∧
      (r = -1 ∨ 1 ≤ r ∧ r ≤ n) ∧
      (∀ i, 1 ≤ i → i ≤ n → (r = i ↔ c (i - 1) < rnd ∧ rnd ≤ c i)) ∧
      (r = -1 ↔ rnd ≤ c 0 ∨ c n < rnd)) ∧
    (∀ rnd i j, 1 ≤ i → i ≤ n → 1 ≤ j → j ≤ n → InRank c rnd i → InRank c rnd j → i = j) ∧
    (∀ i, 1 ≤ i → i ≤ n → ∀ fuel : Nat, n + 1 ≤ fuel →
      ({rnd | (numberFromZipfDistribution fuel ⟨c, n⟩ rnd).1 = some i}.ncard : Int)
        = c i - c (i - 1)) := by
  refine ⟨?_, ?_, ?_⟩
  · intro rnd
    obtain ⟨r, hr, hrun⟩ := @numberFromZipf_result c n rnd h1 hmax hc
    refine ⟨r, hrun, fun fuel => zipfSearch_reads hmax fuel 1 n (by omega) (by omega), ?_,
      fun i hi hi' => searchResult_rank_iff hc hr hi hi',
      searchResult_neg_one_iff hc h1 hr⟩
    rcases hr with ⟨hr1, hr2, -⟩ | ⟨rfl, -⟩
    · exact Or.inr ⟨hr1, hr2⟩
    · exact Or.inl rfl
  · intro rnd i j hi hi' hj hj' hri hrj
    exact inRank_unique hc hi hi' hj hj' hri hrj
  · intro i hi hi' fuel hfuel
    have hset : {rnd | (numberFromZipfDistribution fuel ⟨c, n⟩ rnd).1 = some i}
        = ↑(Finset.Ioc (c (i - 1)) (c i)) := by
      ext rnd
      obtain ⟨r, hr, hrun⟩ := @numberFromZipf_result c n rnd h1 hmax hc
      rw [Set.mem_ofPred_eq, hrun fuel hfuel, Option.some.injEq, Finset.coe_Ioc, Set.mem_Ioc,
        searchResult_rank_iff hc hr hi hi']
      rfl
    have hle := hc (i - 1) i (by omega) (by omega) hi'
    rw [hset, Set.ncard_coe_finset, Int.card_Ioc]
    omega

/-- Four ranks, the second of weight zero. -/
theorem zipfSearch_correct_four :
    ∃ r, (∀ fuel : Nat, (4 : Int) + 1 ≤ fuel → (numberFromZipfDistribution fuel
      ⟨fun i => if i ≤ 0 then 0 else if i ≤ 2 then 5 else if i = 3 then 8 else 10, 4⟩ 6).1
        = some r) ∧ r = 3 := by
  obtain ⟨r, hrun, -, -, hrank, -⟩ := (zipfSearch_correct
    (fun i => if i ≤ 0 then 0 else if i ≤ 2 then 5 else if i = 3 then 8 else 10) 4 (by decide)
    (by decide) (by intro i j h0 hij hj; simp only []; split_ifs <;> omega)).1 6
  exact ⟨r, hrun, (hrank 3 (by decide) (by decide)).mpr (by decide)⟩

/-! ## The draws of the generator -/

/-- The tables `new_zipfgen` builds: from 0 to `RAND_MAX`, but for rounding. -/
structure ZipfTable (c : Int → Int) (n : Int) : Prop where
  sorted : TableSorted c n
  first : c 0 = 0
  last : (randMax : Int) - 1 ≤ c n

/-- The search ends with a rank, which the two callers turn into a source index and into a number
below `n`. -/
def DrawsRank (c : Int → Int) (n rnd : Int) : Prop :=
  ∃ fuel r, (numberFromZipfDistribution fuel ⟨c, n⟩ rnd).1 = some r ∧ 1 ≤ r ∧ r ≤ n ∧
    ((UInt32.ofInt (r - 1)).toNat : Int) = r - 1 ∧ ((UInt64.ofInt (r - 1)).toNat : Int) = r - 1

/-- The seeds whose next draw is 0: the new seed is then 0, `RAND_MAX` or `2 * RAND_MAX`. -/
def zeroDrawSeeds : List UInt64 := [634785765, 2801121056, 672489051]

theorem myrandLcg_toNat {seed : UInt64} (h : seed.toNat < 2 ^ 32) :
    (myrandLcg seed).1.toNat = (1664525 * seed.toNat + 1013904223) % 4294967296 := by
  have h64 : 1664525 * seed.toNat + 1013904223 < 2 ^ 64 := by omega
  simp only [myrandLcg, UInt64.toNat_mod, UInt64.toNat_add, UInt64.toNat_mul, UInt64.reduceToNat]
  rw [Nat.add_mod, Nat.mod_mod, ← Nat.add_mod, Nat.mod_eq_of_lt h64]

/-- The multiplier has an inverse, so that a step of the generator can be undone. -/
theorem lcg_inverse (s : Nat) :
    (4276115653 * ((1664525 * s + 1013904223) % 4294967296) + 634785765) % 4294967296
      = s % 4294967296 := by
  rw [Nat.add_mod, Nat.mul_mod, Nat.mod_mod, ← Nat.mul_mod, ← Nat.add_mod]
  omega

theorem myrandLcg_range (seed : UInt64) :
    0 ≤ (myrandLcg seed).2 ∧ (myrandLcg seed).2 < randMax := by
  have h := Nat.mod_lt (myrandLcg seed).1.toNat (show 0 < randMax by decide)
  exact ⟨Int.natCast_nonneg _, Int.ofNat_lt.mpr h⟩

theorem myrandLcg_eq_zero_iff {seed : UInt64} (h : seed.toNat < 2 ^ 32) :
    (myrandLcg seed).2 = 0 ↔ seed ∈ zeroDrawSeeds := by
  constructor
  · intro h0
    have hmod : (myrandLcg seed).1.toNat % randMax = 0 := Int.ofNat_eq_zero.mp h0
    have hinv := lcg_inverse seed.toNat
    rw [myrandLcg_toNat h] at hmod
    have hlt := Nat.mod_lt (1664525 * seed.toNat + 1013904223) (show 0 < 4294967296 by decide)
    generalize (1664525 * seed.toNat + 1013904223) % 4294967296 = t at hmod hinv hlt
    have ht : t = 0 ∨ t = 2147483647 ∨ t = 4294967294 := by
      simp only [randMax] at hmod
      omega
    have hseed : seed.toNat = 634785765 ∨ seed.toNat = 2801121056 ∨ seed.toNat = 672489051 := by
      rcases ht with rfl | rfl | rfl <;> omega
    simpa [zeroDrawSeeds, ← UInt64.toNat_inj] using hseed
  · intro hmem
    simp only [zeroDrawSeeds, List.mem_cons, List.not_mem_nil, or_false] at hmem
    rcases hmem with rfl | rfl | rfl <;> decide

section
variable {c : Int → Int} {n rnd : Int}

theorem drawsRank_of_inRank (h1 : 1 ≤ n) (hmax : 2 * n ≤ intMax) (hc : TableSorted c n)
    (hlo : c 0 < rnd) (hhi : rnd ≤ c n) : DrawsRank c n rnd := by
  obtain ⟨r, hr, hrun⟩ := @numberFromZipf_result c n rnd h1 hmax hc
  have hne : r ≠ -1 := fun h => by
    have := (searchResult_neg_one_iff hc h1 hr).mp h
    omega
  rcases hr with ⟨hr1, hr2, -⟩ | ⟨h, -⟩
  · unfold intMax at hmax
    refine ⟨(n + 1).toNat, r, hrun _ (by omega), hr1, hr2, ?_, ?_⟩
    · rw [toNat_uint32_ofInt]
      omega
    · rw [toNat_uint64_ofInt]
      omega
  · exact absurd h hne

end

/-! ## What `myrand` plays back -/

/-- A value that a generator returns from a 32-bit seed. -/
def IsDraw (rand : UInt64 → UInt64 × Int) (r : Int) : Prop :=
  ∃ seed : UInt64, seed.toNat < 2 ^ 32 ∧ r = (rand seed).2

/-- The static variables between two calls of `myrand`. -/
structure RandOk (st : RandState) : Prop where
  seed : st.seed.toNat < 2 ^ 32
  ptr : st.ptr < srendipitySize
  filled : st.needInit = false → ∀ i, i < srendipitySize → IsDraw myrandLcg (st.srendipity i)

/-- The table that `myrand` precomputes holds the values of the seeds in a row. -/
theorem fillSrendipity_eq {rand : UInt64 → UInt64 × Int} (n i : Nat) (st : RandState) :
    (fillSrendipity rand n i st).seed = (fun seed => (rand seed).1)^[n] st.seed ∧
    (fillSrendipity rand n i st).ptr = st.ptr ∧
    (∀ j, j < i → (fillSrendipity rand n i st).srendipity j = st.srendipity j) ∧
    ∀ j, j < n → (fillSrendipity rand n i st).srendipity (i + j) =
      (rand ((fun seed => (rand seed).1)^[j] st.seed)).2 := by
  induction n generalizing i st with
  | zero => exact ⟨rfl, rfl, fun _ _ => rfl, fun j hj => absurd hj (Nat.not_lt_zero j)⟩
  | succ n ih =>
    rw [fillSrendipity]
    obtain ⟨hseed, hptr, hbefore, hfrom⟩ := ih (i + 1) { st with
      seed := (rand st.seed).1
      srendipity := Function.update st.srendipity i (rand st.seed).2 }
    refine ⟨hseed, hptr, fun j hj => ?_, fun j hj => ?_⟩
    · rw [hbefore j (by omega)]
      exact Function.update_of_ne (by omega) _ _
    · cases j with
      | zero => exact (hbefore i (by omega)).trans (Function.update_self ..)
      | succ j =>
        have hj' := hfrom j (by omega)
        rw [Nat.add_assoc, Nat.add_comm 1 j] at hj'
        exact hj'

theorem fillSrendipity_spec {rand : UInt64 → UInt64 × Int}
    (hrand : ∀ seed, seed.toNat < 2 ^ 32 → (rand seed).1.toNat < 2 ^ 32) (n : Nat) (st : RandState)
    (hseed : st.seed.toNat < 2 ^ 32) :
    (fillSrendipity rand n 0 st).seed.toNat < 2 ^ 32 ∧ (fillSrendipity rand n 0 st).ptr = st.ptr ∧
      ∀ j, j < n → IsDraw rand ((fillSrendipity rand n 0 st).srendipity j) := by
  have hseeds : ∀ j, ((fun seed => (rand seed).1)^[j] st.seed).toNat < 2 ^ 32 := by
    intro j
    induction j with
    | zero => exact hseed
    | succ j ih =>
      rw [Function.iterate_succ_apply']
      exact hrand _ ih
  obtain ⟨hlast, hptr, -, htable⟩ := @fillSrendipity_eq rand n 0 st
  refine ⟨by rw [hlast]; exact hseeds n, hptr, fun j hj => ?_⟩
  have hj' := htable j hj
  rw [Nat.zero_add] at hj'
  exact ⟨_, hseeds j, hj'⟩

/-- The table is filled by the time it is read. -/
theorem myrand_filled {st : RandState} (h : RandOk st) :
    ∃ st', (if st.needInit then
        fillSrendipity myrandLcg srendipitySize 0 { st with needInit := false } else st) = st' ∧
      st'.seed.toNat < 2 ^ 32 ∧ st'.ptr < srendipitySize ∧
      ∀ i, i < srendipitySize → IsDraw myrandLcg (st'.srendipity i) := by
  by_cases hinit : st.needInit = true
  · have hrand : ∀ seed : UInt64, seed.toNat < 2 ^ 32 →
        (myrandLcg seed).1.toNat < 2 ^ 32 := by
      intro seed hseed
      rw [myrandLcg_toNat hseed]
      omega
    obtain ⟨h1, h2, h3⟩ := fillSrendipity_spec hrand srendipitySize { st with needInit := false }
      h.seed
    have hptr : (fillSrendipity myrandLcg srendipitySize 0 { st with needInit := false }).ptr
        < srendipitySize := by
      rw [h2]
      exact h.ptr
    exact ⟨_, if_pos hinit, h1, hptr, h3⟩
  · exact ⟨st, if_neg hinit, h.seed, h.ptr, h.filled (by simpa using hinit)⟩

theorem myrand_ok {st : RandState} (h : RandOk st) :
    RandOk (myrand st).1 ∧ IsDraw myrandLcg (myrand st).2 := by
  obtain ⟨st', hst', hseed, hptr, hfilled⟩ := myrand_filled h
  have heq : myrand st
      = ({ st' with ptr := (st'.ptr + 1) % srendipitySize }, st'.srendipity st'.ptr) := by
    rw [myrand, hst']
  rw [heq]
  exact ⟨⟨hseed, Nat.mod_lt _ (by decide), fun _ => hfilled⟩, hfilled _ hptr⟩

/-- A call of `myrand` as a step: the value returned is its action. -/
def myrandStep (st : RandState) (_ : Unit) : RandState × List Int :=
  ((myrand st).1, [(myrand st).2])

/-- **Whatever `myrand` returns in a run of the program is a value of `__myrand`.** -/
theorem myrand_run_draws (calls : List Unit) : ∀ r ∈ trace myrandStep randInit calls,
    IsDraw myrandLcg r := by
  have hinit : RandOk randInit :=
    ⟨by decide, by decide, fun h => absurd h (by decide)⟩
  have hrun : Along myrandStep (fun _ _ => True) randInit calls :=
    along_of_forall (fun _ _ => trivial) calls randInit
  have hstep : ∀ st i, RandOk st → True → RandOk (myrandStep st i).1 :=
    fun st _ h _ => (myrand_ok h).1
  have hact : ∀ st i, RandOk st → True → ∀ r ∈ (myrandStep st i).2, IsDraw myrandLcg r := by
    intro st i h _ r hr
    have hsame : r = (myrand st).2 := List.mem_singleton.mp hr
    rw [hsame]
    exact (myrand_ok h).2
  exact trace_forall RandOk (IsDraw myrandLcg) hstep hact hinit hrun

/-! ## The sum of the bounds -/

end DpdkEcho
