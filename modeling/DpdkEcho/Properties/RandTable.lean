import DpdkEcho.Client.Draws
import DpdkEcho.Properties.RandPeriod
import DpdkEcho.Properties.ZipfTable

/-!
# The table of `myrand`

There are seeds from which `__myrand` draws 0, and 0 has no rank. A period goes through all of
them, but `myrand` plays back only the first `2 ^ 25` draws from the seed 1, and those seeds come
later in the period.

* `zeroDraw_late`: where the seeds that draw 0 are
* `RandRun`: the variables of `myrand` while the program runs
* `zipf_never_fails`: while one thread draws, every draw of the program has a rank
-/

namespace DpdkEcho

open Infra

/-! ## The seeds that draw 0 -/

/-- How many steps after the seed 1 they are. -/
def zeroDrawSteps : List Nat := [2762255908, 85096133, 3542659202]

theorem zeroDrawSeeds_eq : zeroDrawSeeds = zeroDrawSteps.map fun k => nextSeed^[k] 1 := by
  have hskip : ∀ (k : Nat) (seed : UInt64), k < 2 ^ 32 →
      lcgSkip (2 ^ 32) 32 1664525 1013904223 k 1 = seed.toNat → nextSeed^[k] 1 = seed := by
    intro k seed hk h
    rw [← UInt64.toNat_inj, nextSeed_iterate_toNat (by decide), ← h, lcgSkip_eq _ _ _ _ _ hk]
    rfl
  simp only [zeroDrawSteps, List.map_cons, List.map_nil]
  rw [hskip 2762255908 634785765 (by decide) (by decide),
    hskip 85096133 2801121056 (by decide) (by decide),
    hskip 3542659202 672489051 (by decide) (by decide)]
  rfl

/-- **None of them is among the seeds behind the table.** Seeds that are less than a period apart
are different. -/
theorem zeroDraw_late {i : Nat} (hi : i < srendipitySize) : nextSeed^[i] 1 ∉ zeroDrawSeeds := by
  intro hmem
  rw [zeroDrawSeeds_eq] at hmem
  obtain ⟨k, hk, heq⟩ := List.mem_map.mp hmem
  have hmod := (nextSeed_iterate_eq_iff (by decide) k i).mp heq
  have hsteps : srendipitySize ≤ k ∧ k < 2 ^ 32 := by
    simp only [zeroDrawSteps, List.mem_cons, List.not_mem_nil, or_false] at hk
    rcases hk with rfl | rfl | rfl <;> decide
  have hsize : srendipitySize < 2 ^ 32 := by decide
  have := hmod.eq_of_lt_of_lt hsteps.2 (by omega)
  omega

/-! ## The variables -/

/-- The variables of `myrand` in a run of the program: the table is empty, or it holds the first
draws from the seed 1. -/
structure RandRun (st : RandState) : Prop where
  ptr : st.ptr < srendipitySize
  fresh : st.needInit = true → st.seed = 1
  filled : st.needInit = false → ∀ i, i < srendipitySize →
    st.srendipity i = (myrandLcg (nextSeed^[i] 1)).2

theorem randRun_init : RandRun randInit := ⟨by decide, fun _ => rfl, fun h => Bool.noConfusion h⟩

/-- What an entry of the table can be. -/
theorem tableEntry_range {i : Nat} (hi : i < srendipitySize) :
    1 ≤ (myrandLcg (nextSeed^[i] 1)).2 ∧ (myrandLcg (nextSeed^[i] 1)).2 < randMax := by
  have hseed : (nextSeed^[i] 1).toNat < 2 ^ 32 := nextSeed_iterate_lt (by decide) i
  obtain ⟨h0, hlt⟩ := myrandLcg_range (nextSeed^[i] 1)
  have hne : (myrandLcg (nextSeed^[i] 1)).2 ≠ 0 := fun h =>
    zeroDraw_late hi ((myrandLcg_eq_zero_iff hseed).mp h)
  omega

theorem fillSrendipity_needInit {rand : UInt64 → UInt64 × Int} : ∀ (n i : Nat) (st : RandState),
    (fillSrendipity rand n i st).needInit = st.needInit
  | 0, _, _ => rfl
  | n + 1, i, _ => fillSrendipity_needInit n (i + 1) _

/-- The table is filled by the time it is read, with the draws from the seed 1. -/
theorem randRun_filled {st : RandState} (h : RandRun st) :
    ∃ st', (if st.needInit then
        fillSrendipity myrandLcg srendipitySize 0 { st with needInit := false } else st) = st' ∧
      st'.ptr = st.ptr ∧ st'.needInit = false ∧
      ∀ i, i < srendipitySize → st'.srendipity i = (myrandLcg (nextSeed^[i] 1)).2 := by
  by_cases hinit : st.needInit = true
  · obtain ⟨-, hptr, -, htable⟩ :=
      @fillSrendipity_eq myrandLcg srendipitySize 0 { st with needInit := false }
    refine ⟨_, if_pos hinit, hptr, fillSrendipity_needInit _ _ _, fun i hi => ?_⟩
    have hentry := htable i hi
    rw [Nat.zero_add] at hentry
    rw [hentry, h.fresh hinit]
    rfl
  · have hfalse : st.needInit = false := by simpa using hinit
    exact ⟨st, if_neg hinit, rfl, hfalse, h.filled hfalse⟩

/-- A call of `myrand` in a run of the program returns the next entry of the table. -/
theorem randRun_myrand {st : RandState} (h : RandRun st) :
    RandRun (myrand st).1 ∧ (myrand st).2 = (myrandLcg (nextSeed^[st.ptr] 1)).2 ∧
      (myrand st).1.ptr = (st.ptr + 1) % srendipitySize := by
  obtain ⟨st', hst', hptr, hflag, htable⟩ := randRun_filled h
  have hcall : myrand st
      = ({ st' with ptr := (st'.ptr + 1) % srendipitySize }, st'.srendipity st'.ptr) := by
    rw [myrand, hst']
  rw [hcall, hptr]
  refine ⟨⟨Nat.mod_lt _ (by decide), fun hf => ?_, fun _ => htable⟩, htable _ h.ptr, rfl⟩
  rw [hflag] at hf
  cases hf

/-! ## The draws -/

/-- A table the search can use: as `new_zipfgen` builds it, for ranks whose sum is an `int`. -/
structure ZipfGen.Usable (gen : ZipfGen) : Prop where
  pos : 1 ≤ gen.n
  sum : 2 * gen.n ≤ intMax
  table : ZipfTable gen.cProbs gen.n

/-- What `new_zipfgen` builds is usable. -/
theorem newZipfgen_usable (mem : ZipfBuild) {n : Int} (s : Nat) (h1 : 1 ≤ n)
    (hsum : 2 * n ≤ intMax) :
    ∃ gen, newZipfgen mem n s = some gen ∧ gen.n = n ∧ gen.Usable := by
  obtain ⟨m, rfl⟩ := Int.eq_ofNat_of_zero_le (show 0 ≤ n by omega)
  have hint : intMax = 2147483647 := rfl
  obtain ⟨c, hgen, hshape⟩ := @newZipfgen_spec mem m s (by omega) (by omega)
  refine ⟨⟨c, m⟩, hgen, rfl, h1, hsum, hshape.sorted, hshape.first, ?_⟩
  have hlast : c m = randMax := hshape.last
  change (randMax : Int) - 1 ≤ c m
  omega

/-- **A draw of the program has a rank.** -/
theorem ZipfGen.Usable.gen_rank {gen : ZipfGen} (hgen : gen.Usable) {st : RandState}
    (h : RandRun st) : ∃ st' rank, gen.gen st = some (st', rank) ∧ RandRun st' ∧
      1 ≤ rank ∧ rank ≤ gen.n := by
  obtain ⟨hrun, hvalue, -⟩ := randRun_myrand h
  obtain ⟨hlow, hhigh⟩ := tableEntry_range h.ptr
  rw [← hvalue] at hlow hhigh
  obtain ⟨rank, hrank, hsearch⟩ :=
    @numberFromZipf_result gen.cProbs gen.n (myrand st).2 hgen.pos hgen.sum hgen.table.sorted
  have hfound : (numberFromZipfDistribution (gen.n.toNat + 1) gen (myrand st).2).1 = some rank :=
    hsearch _ (by have := hgen.pos; omega)
  refine ⟨(myrand st).1, rank, ?_, hrun, ?_⟩
  · simp only [ZipfGen.gen, hfound, Option.map_some]
  · rcases hrank with ⟨h1, h2, -⟩ | ⟨rfl, hnone⟩
    · exact ⟨h1, h2⟩
    · have hout :=
        (searchResult_neg_one_iff hgen.table.sorted hgen.pos (Or.inr ⟨rfl, hnone⟩)).mp rfl
      rw [hgen.table.first] at hout
      have := hgen.table.last
      omega

/-- A call of one of the generators as a step: the generator and the rank it returns. No other call
comes in between, as when one thread makes all of them. -/
def genStep (st : RandState) (gen : ZipfGen) : RandState × List (ZipfGen × Option Int) :=
  match gen.gen st with
  | none => (st, [(gen, none)])
  | some (st', rank) => (st', [(gen, some rank)])

/--
**The generators of one thread never fail.** Whatever generators with usable tables the program has
built and in whatever order one thread draws from them, every draw, from the first on, returns a
rank of its generator.
-/
theorem zipf_never_fails (calls : List ZipfGen) (hcalls : ∀ gen ∈ calls, gen.Usable) :
    ∀ draw ∈ trace genStep randInit calls, ∃ rank, draw.2 = some rank ∧ 1 ≤ rank ∧
      rank ≤ draw.1.n := by
  have hstep : ∀ st (gen : ZipfGen), RandRun st → gen.Usable →
      ∃ st' rank, genStep st gen = (st', [(gen, some rank)]) ∧ RandRun st' ∧ 1 ≤ rank ∧
        rank ≤ gen.n := by
    intro st gen h hgen
    obtain ⟨st', rank, hcall, hrun, hrank⟩ := hgen.gen_rank h
    refine ⟨st', rank, ?_, hrun, hrank⟩
    simp only [genStep, hcall]
  refine trace_forall RandRun _ (fun st gen h hgen => ?_) (fun st gen h hgen draw hdraw => ?_)
    randRun_init (along_of_mem fun gen hmem _ => hcalls gen hmem)
  · obtain ⟨st', rank, hcall, hrun, -⟩ := hstep st gen h hgen
    rw [hcall]
    exact hrun
  · obtain ⟨st', rank, hcall, -, hrank⟩ := hstep st gen h hgen
    rw [hcall] at hdraw
    rw [List.mem_singleton.mp hdraw]
    exact ⟨rank, rfl, hrank⟩

/-- Draws from three and from seven ranks in turn. -/
theorem zipf_never_fails_in_turn : ∃ three seven,
    newZipfgen ⟨fun _ => 0, fun _ => 0⟩ 3 1 = some three ∧
    newZipfgen ⟨fun _ => 0, fun _ => 0⟩ 7 0 = some seven ∧
    ∀ draw ∈ trace genStep randInit [three, seven, three, seven],
      ∃ rank, draw.2 = some rank ∧ 1 ≤ rank ∧ rank ≤ draw.1.n := by
  obtain ⟨three, hthree, -, husable⟩ :=
    newZipfgen_usable ⟨fun _ => 0, fun _ => 0⟩ 1 (show (1 : Int) ≤ 3 by decide) (by decide)
  obtain ⟨seven, hseven, -, husable'⟩ :=
    newZipfgen_usable ⟨fun _ => 0, fun _ => 0⟩ 0 (show (1 : Int) ≤ 7 by decide) (by decide)
  refine ⟨three, seven, hthree, hseven, zipf_never_fails _ fun gen hgen => ?_⟩
  simp only [List.mem_cons, List.not_mem_nil, or_false] at hgen
  rcases hgen with rfl | rfl | rfl | rfl
  · exact husable
  · exact husable'
  · exact husable
  · exact husable'

end DpdkEcho
