import DpdkEcho.Client.Run
import DpdkEcho.Properties.Histogram

/-!
# The latency report at the end of `do_client`

The receiver fills one histogram for each destination, and the report asks `get_percentile` for
seven percentiles of each. The scan of `get_percentile` divides by the number of samples and by the
share of the bucket it stops at.

* `clientHist_recorded`: after any run, a histogram is what `add_number_to_p_hist` made of samples
* `clientHist_counts`: with 1 to `INT_MAX` samples, it is a histogram of counts
* `percentileScan_breaks`: for those the scan ends by its `break`, and neither divisor is zero
-/

namespace DpdkEcho

open Infra

/-! ## The histograms of a run -/

/-- Every histogram is the first one with samples added. -/
def Recorded (log : ℚ → ℚ) (st : ReceiverState) : Prop :=
  ∀ k, ∃ values, st.hist k = addNumbers log (newPHistFromMaxValue log 10000) values

section
variable {log : ℚ → ℚ} {st : ReceiverState}

theorem recordLatency_recorded (hz now : UInt64) (cntx : Context) (k : Nat) (m : Mem)
    (h : Recorded log st) : Recorded log (recordLatency log hz now cntx k m st).1 := by
  unfold recordLatency
  simp only
  split
  · intro k'
    by_cases hk : k' = k
    · subst hk
      obtain ⟨values, hvalues⟩ := h k'
      let timestamp := load64 m (l2Len cntx.useVlan + ipv4HdrLen + udpHdrLen)
      refine ⟨values ++ [((latencyUs hz now timestamp).toNat : ℚ)], ?_⟩
      rw [addNumbers_concat, ← hvalues]
      exact Function.update_self ..
    · obtain ⟨values, hvalues⟩ := h k'
      exact ⟨values, (Function.update_of_ne hk ..).trans hvalues⟩
  · exact h

/-- One packet adds a sample or none. -/
theorem receiverPacket_recorded (hz : UInt64) (build : ClientBuild) (cntx : Context) (now : UInt64)
    (buf : Mbuf) (h : Recorded log st) :
    Recorded log (receiverPacket log hz build cntx now st buf).1 := by
  unfold receiverPacket
  split
  · exact h
  · simp only
    split
    · exact h
    · split
      · exact h
      · split
        · exact h
        · split
          · exact h
          · exact recordLatency_recorded hz now cntx _ buf.data h

end

section
variable {env : ClientEnv}

theorem receiveBurst_recorded (inp : ReceiveInput) : ∀ (bufs : List Mbuf) (j : Nat)
    (st : ReceiverState), Recorded env.log st →
      Recorded env.log (receiveBurst env inp j bufs st).1
  | [], _, _, h => h
  | buf :: bufs, j, st, h => by
    have hpacket := receiverPacket_recorded env.hz env.build env.cntx (inp.now j) buf h
    exact receiveBurst_recorded inp bufs (j + 1) _ hpacket

/-- A step of either thread. -/
theorem clientStep_recorded (st : ClientState) (inp : ClientInput)
    (h : Recorded env.log st.receiver) :
    Recorded env.log (clientStep env st inp).1.receiver := by
  cases inp with
  | transmit inp => exact h
  | receive inp =>
    rw [clientStep]
    split
    · exact receiveBurst_recorded inp _ 0 st.receiver h
    · exact h

/-- **The histograms at the end of any run.** -/
theorem clientHist_recorded (tables : FlowTables) (now : UInt64) (inputs : List ClientInput) :
    Recorded env.log (final (clientStep env) (clientInit env tables now) inputs).receiver := by
  have hinit : Recorded env.log (clientInit env tables now).receiver := fun _ => ⟨[], rfl⟩
  exact final_invariant (fun st => Recorded env.log st.receiver)
    (fun st inp h _ => clientStep_recorded st inp h) hinit
    (along_of_forall (fun _ _ => trivial) inputs _)

/-- With at least one sample and at most `INT_MAX`, a histogram is fit for `get_percentile`. -/
theorem clientHist_counts (hlog : ∀ x, r2 ≤ x → 0 ≤ env.log x)
    (hb : 1 ≤ (newPHistFromMaxValue env.log 10000).countBucket) (tables : FlowTables)
    (now : UInt64) (inputs : List ClientInput) (k : Nat) :
    ∃ values, (final (clientStep env) (clientInit env tables now) inputs).receiver.hist k =
        addNumbers env.log (newPHistFromMaxValue env.log 10000) values ∧
      (values ≠ [] → values.length < 2 ^ 31 →
        ((final (clientStep env) (clientInit env tables now) inputs).receiver.hist k).Counts) := by
  obtain ⟨values, hvalues⟩ := @clientHist_recorded env tables now inputs k
  refine ⟨values, hvalues, fun hne hlen => ?_⟩
  rw [hvalues]
  exact addNumbers_counts hlog hb hne hlen

end

/-! ## The scan -/

/-- The scan was left by its `break`, at the bucket of the quantile, and what is divided by is not
zero. -/
structure ScanBreaks (h : PHist) (y : ℚ) : Prop where
  inside : ((percentileScan h y).i : Int) < h.countBucket
  quantile : IsQuantileBucket h y (percentileScan h y).i
  below : (percentileScan h y).y0 < y
  above : y ≤ (percentileScan h y).y1
  counted : (h.countValues : ℚ) ≠ 0
  apart : (percentileScan h y).y1 - (percentileScan h y).y0 ≠ 0

/--
**The scan ends by its `break`** at the first bucket whose cumulative count reaches the percentile,
between the shares on its two sides, so that neither division of `get_percentile` is by zero.
-/
theorem percentileScan_breaks (h : PHist) (hc : h.Counts) (y : ℚ) (hy : 0 < y) (hy1 : y ≤ 1) :
    ScanBreaks h y := by
  obtain ⟨i, hi⟩ := exists_quantile hc hy hy1
  obtain ⟨hlo, hhi⟩ := shares_enclose hc hi
  have hquantile := (isQuantileBucket_iff hc hy).mpr hi
  have hscan := percentileScan_eq hc hi
  refine ⟨?_, ?_, ?_, ?_, hc.countValues_pos.ne', ?_⟩
  all_goals rw [hscan]
  · rw [hc.size]
    exact_mod_cast hquantile.1
  · exact hquantile
  · exact hlo
  · exact hhi
  · exact (sub_pos.mpr (lt_of_lt_of_le hlo hhi)).ne'

/-- The median of three samples in the first of 27 buckets. -/
theorem percentileScan_lowHist : ScanBreaks lowHist (1 / 2) :=
  percentileScan_breaks lowHist ⟨by decide, by decide, by decide, by decide⟩ (1 / 2) (by norm_num)
    (by norm_num)

end DpdkEcho
