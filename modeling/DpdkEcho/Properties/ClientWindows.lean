import Mathlib.Algebra.BigOperators.Group.Finset.Basic
import DpdkEcho.Client.WindowReport
import DpdkEcho.Properties.FlowAccounting
import DpdkEcho.Properties.FlowTables

/-!
# The throughput a client prints

The printed numbers and the counters that have not been printed yet add up to the packets that were
handed to the driver. A counter outside the table would be lost; the flow that is credited always
lies inside.

* `transmitStep_throughput`: the counters after an iteration
* `InTable`: the flow that is credited lies in the table
* `client_windows_complete`: what has been printed after any run
-/

namespace DpdkEcho

open Infra

/-! ## The counters -/

section
variable {env : ClientEnv} {st : TransmitState} {inp : TransmitInput}

theorem update_add_none (g : Int → UInt64) (f : Int) :
    g = Function.update g f (g f + UInt64.ofNat 0) := by
  rw [show UInt64.ofNat 0 = 0 from rfl, UInt64.add_zero, Function.update_eq_self]

/-- From the allocation on: what the driver took is added to the counter of the flow. -/
theorem transmitBurst_throughput (curFlow : Int) (selectedQ : UInt16) :
    (transmitBurst env st inp 0 curFlow selectedQ).1.throughput
      = Function.update st.throughput curFlow (st.throughput curFlow +
          UInt64.ofNat (sentPackets (transmitBurst env st inp 0 curFlow selectedQ).2)) := by
  unfold transmitBurst
  simp only []
  cases inp.pool with
  | none => exact update_add_none _ _
  | some pool =>
    simp only []
    split
    · exact update_add_none _ _
    · next built hbuilt =>
      rw [List.append_assoc, sentPackets_burst hbuilt]
      · split <;> rfl
      · intro e he
        split at he
        · exact ⟨_, List.mem_singleton.mp he⟩
        · cases he

/-- The counters that an iteration adds to: they start over when they have been printed. -/
def TransmitState.counters (env : ClientEnv) (st : TransmitState) (inp : TransmitInput) :
    Int → UInt64 :=
  if windowDue env st inp then clearSlots env.cntx st.throughput else st.throughput

/-- **The counters after an iteration.** -/
theorem transmitStep_throughput (env : ClientEnv) (st : TransmitState) (inp : TransmitInput) :
    (transmitStep env st inp).1.throughput
      = Function.update (st.counters env inp) st.flow (st.counters env inp st.flow +
          UInt64.ofNat (sentPackets (transmitStep env st inp).2)) ∧
    (st.selectedDst ≠ 0 → sentPackets (transmitStep env st inp).2 = 0) := by
  -- an iteration that does not get into the sending branch
  have hidle : ¬ windowDue env st inp → st.throughput = Function.update (st.counters env inp)
      st.flow (st.counters env inp st.flow + UInt64.ofNat 0) := by
    intro hdue
    rw [TransmitState.counters, if_neg hdue]
    exact update_add_none _ _
  have hsame := @checkDuration_sameWindow st inp env.hz
  unfold transmitStep
  split
  · next hpc => exact ⟨hidle fun hdue => hpc hdue.1, fun _ => rfl⟩
  · next hpc =>
    simp only []
    split
    · next hsend =>
      unfold trySend
      simp only []
      split
      · next hdst =>
        rw [hsame.selectedDst] at hdst
        refine ⟨?_, fun _ => rfl⟩
        simp only [hsame.throughput]
        exact hidle fun hdue => hdst hdue.2.2.2.1
      · next hdst =>
        have hzero : st.selectedDst = 0 := by
          rw [← hsame.selectedDst]
          exact not_not.mp hdst
        have hdue : windowDue env st inp ↔ st.deltaTime inp.endTime > env.hz.toNat :=
          ⟨fun h => h.2.2.2.2, fun h => ⟨not_not.mp hpc, hsend.1, hsend.2, hzero, h⟩⟩
        have hwindow : (((st.checkDuration env.hz inp).selectNext env.cntx).resetWindow env
            inp.endTime).throughput = st.counters env inp := by
          have henter := (hsame.enterWindow env inp.endTime).throughput
          rw [@enterWindow_throughput env st] at henter
          rw [TransmitState.counters, if_congr hdue rfl rfl]
          exact henter
        refine ⟨?_, fun h => absurd hzero h⟩
        split
        · rw [hwindow]
          exact update_add_none _ _
        · rw [not_not.mp hdst, transmitBurst_throughput, hwindow, hsame.flow]
    · next hsend =>
      refine ⟨?_, fun _ => rfl⟩
      simp only [hsame.throughput]
      exact hidle fun hdue => hsend ⟨hdue.2.1, hdue.2.2.1⟩

end

/-! ## The table -/

/-- The flow that is credited lies in the table. With one destination it is the offset of the port;
with several the second iteration of the sending branch ends the process. -/
structure InTable (env : ClientEnv) (st : TransmitState) : Prop where
  single : env.cntx.dstIps.length = 1 → FlowAt env.cntx st
  flow : st.selectedDst = 0 → 0 ≤ st.flow ∧ st.flow < (flowSlots env.cntx).toNat

section
variable {env : ClientEnv} {st st' : TransmitState}

theorem FlowAt.inTable (hone : env.cntx.dstIps.length = 1) (h : FlowAt env.cntx st) :
    InTable env st := by
  refine ⟨fun _ => h, fun _ => ?_⟩
  rw [flowSlots_single hone, h.flow]
  exact ⟨Int.natCast_nonneg _, Int.ofNat_lt.mpr h.offset⟩

theorem transmitInit_inTable (hslots : 0 < (flowSlots env.cntx).toNat) (tables : FlowTables)
    (now : UInt64) : InTable env (transmitInit env tables now) := by
  refine ⟨fun hone => transmitInit_flowAt tables now ?_, fun _ => ⟨le_refl 0, ?_⟩⟩
  · rw [← flowSlots_single hone]
    exact hslots
  · exact Int.natCast_pos.mpr hslots

theorem InTable.step (hmax : (flowSlots env.cntx).toNat < 2 ^ 16) (h : InTable env st)
    (inp : TransmitInput) : InTable env (transmitStep env st inp).1 := by
  by_cases hone : env.cntx.dstIps.length = 1
  · refine FlowAt.inTable hone ((transmitStep_window env st inp).flowAt hone ?_ (h.single hone))
    rw [← flowSlots_single hone]
    omega
  · refine ⟨fun h1 => absurd h1 hone, fun hzero => ?_⟩
    -- an iteration of the sending branch leaves for the second destination
    have hnext : (1 : Nat) % env.cntx.dstIps.length ≠ 0 := by
      rcases Nat.lt_or_ge 1 env.cntx.dstIps.length with hlt | hle
      · rw [Nat.mod_eq_of_lt hlt]
        exact Nat.one_ne_zero
      · rw [show env.cntx.dstIps.length = 0 by omega]
        decide
    have hmoved : st.selectedDst = 0 →
        (st.enterWindow env inp.endTime).selectedDst ≠ 0 := by
      intro h0
      rw [(enterWindow_place inp.endTime).selectedDst]
      simp only [TransmitState.selectNext, h0, Nat.zero_add]
      exact hnext
    have hstep := transmitStep_window env st inp
    generalize (transmitStep env st inp).1 = st' at hstep hzero ⊢
    generalize (transmitStep env st inp).2 = events at hstep
    cases hstep with
    | idle hsame =>
      rw [hsame.flow]
      exact h.flow (hsame.selectedDst.symm.trans hzero)
    | held h0 hsame _ => exact absurd (hsame.selectedDst.symm.trans hzero) (hmoved h0)
    | sent h0 _ _ hsame _ _ => exact absurd (hsame.selectedDst.symm.trans hzero) (hmoved h0)

end

/-! ## The sums -/

/-- The packets in the counters of all flows. -/
def windowTotal (cntx : Context) (throughput : Int → UInt64) : Nat :=
  ∑ i ∈ Finset.range (flowSlots cntx).toNat, (throughput i).toNat

theorem windowTotal_clear (cntx : Context) (throughput : Int → UInt64) :
    windowTotal cntx (clearSlots cntx throughput) = 0 := by
  refine Finset.sum_eq_zero fun i hi => ?_
  rw [clearSlots, if_pos ⟨Int.natCast_nonneg i, Int.ofNat_lt.mpr (Finset.mem_range.mp hi)⟩]
  rfl

/-- Packets that are added to one counter of the table are added to the sum. -/
theorem windowTotal_update {cntx : Context} (g : Int → UInt64) {f : Int} (hf : 0 ≤ f)
    (hlt : f < (flowSlots cntx).toNat) (n : Nat) :
    windowTotal cntx (Function.update g f (g f + UInt64.ofNat n)) ≡ windowTotal cntx g + n
      [MOD 2 ^ 64] := by
  obtain ⟨i, rfl⟩ := Int.eq_ofNat_of_zero_le hf
  have hi : i ∈ Finset.range (flowSlots cntx).toNat := Finset.mem_range.mpr (Int.ofNat_lt.mp hlt)
  have hrest : ∑ j ∈ (Finset.range (flowSlots cntx).toNat).erase i,
        (Function.update g (i : Int) (g i + UInt64.ofNat n) j).toNat
      = ∑ j ∈ (Finset.range (flowSlots cntx).toNat).erase i, (g j).toNat := by
    refine Finset.sum_congr rfl fun j hj => ?_
    have hne : (j : Int) ≠ i := fun h => Finset.ne_of_mem_erase hj (Int.natCast_inj.mp h)
    rw [Function.update_of_ne hne]
  unfold windowTotal
  rw [← Finset.add_sum_erase _ _ hi, hrest, Function.update_self,
    ← Finset.add_sum_erase _ (fun j : Nat => (g j).toNat) hi]
  have hadd : (g i + UInt64.ofNat n).toNat ≡ (g i).toNat + n [MOD 2 ^ 64] := by
    rw [UInt64.toNat_add, UInt64.toNat_ofNat']
    exact (Nat.mod_modEq _ _).trans (Nat.ModEq.add_left _ (Nat.mod_modEq _ _))
  have hsum := hadd.add_right (∑ j ∈ (Finset.range (flowSlots cntx).toNat).erase i, (g j).toNat)
  rwa [Nat.add_right_comm] at hsum

/-- The sum of everything that is printed. -/
def printedTotal (reports : List (List UInt64)) : Nat :=
  (reports.map fun r => (r.map UInt64.toNat).sum).sum

theorem printedTotal_append (r r' : List (List UInt64)) :
    printedTotal (r ++ r') = printedTotal r + printedTotal r' := by
  rw [printedTotal, List.map_append, List.sum_append]
  rfl

theorem sum_windowReport (cntx : Context) (st : TransmitState) :
    ((windowReport cntx st).map UInt64.toNat).sum = windowTotal cntx st.throughput := by
  rw [windowReport, List.map_map]
  rfl

/-! ## The run -/

theorem sentPackets_append (e f : List ClientEvent) :
    sentPackets (e ++ f) = sentPackets e + sentPackets f := by
  rw [sentPackets, List.map_append, List.sum_append]
  rfl

section
variable {env : ClientEnv} {st : TransmitState}

/-- **One iteration.** What it prints leaves the counters, and what the driver takes is added. -/
theorem printingStep_total (h : InTable env st) (inp : TransmitInput) :
    printedTotal (printingStep env st inp).2 +
        windowTotal env.cntx (transmitStep env st inp).1.throughput
      ≡ windowTotal env.cntx st.throughput + sentPackets (transmitStep env st inp).2
        [MOD 2 ^ 64] := by
  obtain ⟨hcounters, hnone⟩ := transmitStep_throughput env st inp
  have hadded : windowTotal env.cntx (transmitStep env st inp).1.throughput ≡
      windowTotal env.cntx (st.counters env inp) + sentPackets (transmitStep env st inp).2
        [MOD 2 ^ 64] := by
    rw [hcounters]
    by_cases hzero : st.selectedDst = 0
    · obtain ⟨hlow, hhigh⟩ := h.flow hzero
      exact windowTotal_update _ hlow hhigh _
    · rw [hnone hzero, ← update_add_none]
      exact Nat.ModEq.refl _
  have hprinted : printedTotal (printingStep env st inp).2 +
      windowTotal env.cntx (st.counters env inp) = windowTotal env.cntx st.throughput := by
    unfold printingStep TransmitState.counters
    by_cases hdue : windowDue env st inp
    · simp only [if_pos hdue, windowTotal_clear, printedTotal, List.map_cons, List.map_nil,
        List.sum_cons, List.sum_nil, sum_windowReport, Nat.add_zero]
    · simp only [if_neg hdue, printedTotal, List.map_nil, List.sum_nil, Nat.zero_add]
  have hsum := hadded.add_left (printedTotal (printingStep env st inp).2)
  rwa [← Nat.add_assoc, hprinted] at hsum

theorem printed_run (hmax : (flowSlots env.cntx).toNat < 2 ^ 16) : ∀ (inputs : List TransmitInput)
    {st : TransmitState}, InTable env st →
    printedTotal (trace (printingStep env) st inputs) +
        windowTotal env.cntx (final (transmitStep env) st inputs).throughput
      ≡ windowTotal env.cntx st.throughput + sentPackets (trace (transmitStep env) st inputs)
        [MOD 2 ^ 64]
  | [], st, _ => by
    rw [trace_nil, trace_nil, final_nil]
    simp [printedTotal, sentPackets, Nat.ModEq]
  | inp :: inputs, st, h => by
    have hfirst := printingStep_total h inp
    have hrest := printed_run hmax inputs (h.step hmax inp)
    have hstate : (printingStep env st inp).1 = (transmitStep env st inp).1 := rfl
    rw [trace_cons, trace_cons, final_cons, printedTotal_append, sentPackets_append, hstate]
    unfold Nat.ModEq at hfirst hrest ⊢
    omega

end

/--
**The printed throughput is complete.** In every run of `do_client`, for any number of flows and
destinations for which the tables could be filled: the numbers printed so far and the counters add
up (modulo `2 ^ 64`) to the packets that were handed to the driver, so that none is missing from
the report and none is in it twice.
-/
theorem client_windows_complete (env : ClientEnv) (hslots : 0 < (flowSlots env.cntx).toNat)
    (fuel : Nat) (stack tables : FlowTables) (hfill : fillFlows env.cntx fuel 0 stack = some tables)
    (now : UInt64) (inputs : List TransmitInput) :
    printedTotal (trace (printingStep env) (transmitInit env tables now) inputs) +
        windowTotal env.cntx
          (final (transmitStep env) (transmitInit env tables now) inputs).throughput
      ≡ sentPackets (trace (transmitStep env) (transmitInit env tables now) inputs)
        [MOD 2 ^ 64] := by
  obtain ⟨hmax, hfilled⟩ := fillFlows_spec hfill fun j hj => absurd hj (Nat.not_lt_zero j)
  have hrun := printed_run hmax inputs (transmitInit_inTable hslots tables now)
  have hzero : windowTotal env.cntx (transmitInit env tables now).throughput = 0 := by
    refine Finset.sum_eq_zero fun i hi => ?_
    have hslot : tables.throughput i = 0 := (hfilled i (Finset.mem_range.mp hi)).2
    change (tables.throughput i).toNat = 0
    rw [hslot]
    rfl
  rwa [hzero, Nat.zero_add] at hrun

/-- Two flows, and three iterations. -/
theorem client_windows_complete_two_flows : ∃ tables,
    fillFlows (delayClientEnv 0 4 2).cntx 3 0 ⟨fun _ => 7, fun _ => 7⟩ = some tables ∧
    printedTotal (trace (printingStep (delayClientEnv 0 4 2))
        (transmitInit (delayClientEnv 0 4 2) tables 0)
        [readyInput 0, readyInput 1, readyInput 2000]) +
      windowTotal (delayClientEnv 0 4 2).cntx (final (transmitStep (delayClientEnv 0 4 2))
        (transmitInit (delayClientEnv 0 4 2) tables 0)
        [readyInput 0, readyInput 1, readyInput 2000]).throughput
      ≡ sentPackets (trace (transmitStep (delayClientEnv 0 4 2))
        (transmitInit (delayClientEnv 0 4 2) tables 0)
        [readyInput 0, readyInput 1, readyInput 2000]) [MOD 2 ^ 64] := by
  have hslots : (flowSlots (delayClientEnv 0 4 2).cntx).toNat = 2 := by decide
  obtain ⟨tables, hfill⟩ := fillFlows_total (by omega)
    (flowSlots (delayClientEnv 0 4 2).cntx).toNat 0 ⟨fun _ => 7, fun _ => 7⟩ (Nat.sub_le _ _)
  rw [hslots] at hfill
  exact ⟨tables, hfill, client_windows_complete _ (by omega) 3 _ _ hfill 0 _⟩

end DpdkEcho
