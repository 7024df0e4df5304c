import DpdkEcho.Properties.QueueOwnership

/-!
# Filling the flow tables

`do_client` fills `flow_q` and `throughput` in a loop whose counter is a `uint16_t` and whose bound
is a product of two numbers of the command line. The loop ends exactly when the counter can reach
the bound.
-/

namespace DpdkEcho

open Infra

section
variable {w : Context}

/-- The body of the loop is executed `n` times, and the tables are then `t'`. -/
def FillsAfter (w : Context) (n : Nat) (t t' : FlowTables) : Prop :=
  fillFlows w n 0 t = none ∧ fillFlows w (n + 1) 0 t = some t'

/-- Before the counter has reached the bound the loop goes on. -/
theorem fillFlows_early : ∀ (fuel : Nat) (i : UInt16) (t : FlowTables),
    fuel + i.toNat ≤ (flowSlots w).toNat → fuel + i.toNat < 2 ^ 16 →
    fillFlows w fuel i t = none
  | 0, _, _, _, _ => rfl
  | fuel + 1, i, t, hle, hlt => by
    have hadd := UInt16.toNat_add i 1
    have hone : (1 : UInt16).toNat = 1 := rfl
    have hmod : (i.toNat + 1) % 2 ^ 16 = i.toNat + 1 := Nat.mod_eq_of_lt (by omega)
    have hbound : i.toUInt32 < flowSlots w := by
      rw [UInt32.lt_iff_toNat_lt, UInt16.toNat_toUInt32]
      omega
    rw [fillFlows, if_pos hbound]
    exact fillFlows_early fuel (i + 1) _ (by omega) (by omega)

/-- The number of slots when the product fits a `uint32_t`. -/
theorem flowSlots_toNat (hlt : w.dstIps.length * w.countFlow.toNat < 2 ^ 32)
    (hpos : 1 ≤ w.countFlow.toNat) :
    (flowSlots w).toNat = w.dstIps.length * w.countFlow.toNat := by
  have hlen : w.dstIps.length < 2 ^ 32 :=
    lt_of_le_of_lt (Nat.le_mul_of_pos_right _ hpos) hlt
  rw [flowSlots, UInt32.toNat_mul, UInt32.toNat_ofNat_of_lt' hlen, Nat.mod_eq_of_lt hlt]

/-- A bound that is no `uint16_t` is never reached. -/
theorem fillFlows_never (hlt : w.dstIps.length * w.countFlow.toNat < 2 ^ 32)
    (hpos : 1 ≤ w.countFlow.toNat) (hover : 65535 < w.dstIps.length * w.countFlow.toNat)
    (fuel : Nat) (t : FlowTables) : fillFlows w fuel 0 t = none := by
  have hslots := flowSlots_toNat hlt hpos
  cases h : fillFlows w fuel 0 t with
  | none => rfl
  | some t' =>
    have := (fillFlows_spec h fun j hj => absurd hj (Nat.not_lt_zero j)).1
    omega

end

/-- The tables are complete after as many steps as there are slots. -/
def TablesFilled (w : Context) : Prop :=
  ∀ t, ∃ t', FillsAfter w (w.dstIps.length * w.countFlow.toNat) t t' ∧
    ∀ j : Nat, j < w.dstIps.length * w.countFlow.toNat →
      Owns w (t'.flowQ j).toNat ∧ t'.throughput j = 0

/--
**The tables are filled exactly when the number of slots is a `uint16_t`.** With more slots the
counter comes around before it has reached the bound, and the loop never ends.
-/
theorem flow_tables_filled_iff (w : Context) (hw : WellPlaced w) (hflow : 1 ≤ w.countFlow.toNat)
    (hlt : w.dstIps.length * w.countFlow.toNat < 2 ^ 32) :
    (TablesFilled w ↔ w.dstIps.length * w.countFlow.toNat ≤ 65535) ∧
      (65535 < w.dstIps.length * w.countFlow.toNat → ∀ fuel t, fillFlows w fuel 0 t = none) := by
  have hslots := flowSlots_toNat hlt hflow
  refine ⟨⟨fun h => ?_, fun h t => ?_⟩, fillFlows_never hlt hflow⟩
  · by_contra hover
    obtain ⟨t', ⟨-, hend⟩, -⟩ := h ⟨fun _ => 0, fun _ => 0⟩
    rw [fillFlows_never hlt hflow (not_le.mp hover)] at hend
    cases hend
  · obtain ⟨t', hend⟩ := fillFlows_total (by omega) (flowSlots w).toNat 0 t (Nat.sub_le _ _)
    have hzero : (0 : UInt16).toNat = 0 := rfl
    rw [hslots] at hend
    refine ⟨t', ⟨fillFlows_early _ 0 t (by omega) (by omega), hend⟩, fun j hj => ?_⟩
    obtain ⟨hq, htp⟩ := (fillFlows_spec hend fun j hj => absurd hj (Nat.not_lt_zero j)).2 j
      (by omega)
    rw [hq]
    exact ⟨slotQueue_owned hw j, htp⟩

/-- `--client --ip-local 10.0.0.1 --ip-dest 10.0.0.2 --num-flow n` -/
def numFlowLine (n : String) : List (Opt × CStr) :=
  [(.client, []), (.ipLocal, "10.0.0.1".toList), (.ipDest, "10.0.0.2".toList),
    (.numFlow, n.toList)]

/-- The largest number of flows to one destination. -/
theorem flow_tables_filled_65535 : ∃ config w,
    parseArgs (fun _ => 0) (numFlowLine "65535") = .ok config ∧
    startWorkers config broadcastMac 1 = some [w] ∧ w.countFlow = 65535 ∧ TablesFilled w := by
  obtain ⟨config, w, hparse, hmode, hstart, hflow, hdst⟩ : ∃ config w,
      parseArgs (fun _ => 0) (numFlowLine "65535") = .ok config ∧ config.mode = .client ∧
      startWorkers config broadcastMac 1 = some [w] ∧ w.countFlow = 65535 ∧
      w.dstIps.length = 1 := ⟨_, _, rfl, rfl, rfl, rfl, rfl⟩
  have hw : WellPlaced w :=
    (@startWorkers_client_spec config broadcastMac 1 [w] hmode (by decide) hstart 0 w rfl).1
  refine ⟨config, w, hparse, hstart, hflow, ?_⟩
  exact (flow_tables_filled_iff w hw (by rw [hflow]; decide) (by rw [hflow, hdst]; decide)).1.mpr
    (by rw [hflow, hdst]; decide)

/-- `--num-flow 65536`: the counter never reaches the bound. -/
theorem flow_tables_never_filled : ∃ config w,
    parseArgs (fun _ => 0) (numFlowLine "65536") = .ok config ∧
    startWorkers config broadcastMac 1 = some [w] ∧ w.countFlow = 65536 ∧
    w.dstIps.length = 1 ∧ (∀ fuel t, fillFlows w fuel 0 t = none) ∧ ¬ TablesFilled w := by
  obtain ⟨config, w, hparse, hstart, hflow, hdst⟩ : ∃ config w,
      parseArgs (fun _ => 0) (numFlowLine "65536") = .ok config ∧
      startWorkers config broadcastMac 1 = some [w] ∧ w.countFlow = 65536 ∧
      w.dstIps.length = 1 := ⟨_, _, rfl, rfl, rfl, rfl⟩
  have hnever := fillFlows_never (w := w) (by rw [hflow, hdst]; decide) (by rw [hflow]; decide)
    (by rw [hflow, hdst]; decide)
  refine ⟨config, w, hparse, hstart, hflow, hdst, hnever, fun h => ?_⟩
  obtain ⟨t', ⟨-, hend⟩, -⟩ := h ⟨fun _ => 0, fun _ => 0⟩
  rw [hnever] at hend
  cases hend

end DpdkEcho
