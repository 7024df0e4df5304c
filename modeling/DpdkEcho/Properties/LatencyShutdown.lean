import DpdkEcho.Properties.LatencyBuffers
import DpdkEcho.Properties.LatencyTimes

/-!
# The end of a latency client

`handle_int` clears `running`, and the two loops of `do_latency_client` test it. A signal counts
from the next test on: a batch that is being built is still sent, and a burst that has been read is
still measured. After the loops `report_measurements` prints what has been measured.

* `latency_ends_by_signal` — a latency client ends by a signal only, ends two steps after the test
  that finds it without any further action, and then prints every latency it has measured
-/

namespace DpdkEcho

open Infra

section
variable {env : LatencyEnv} {st : LatencyState}

/-- The measurements of a run. -/
theorem measurements_run : ∀ (inputs : List LatencyInput) (st : LatencyState),
    (final (latencyStep env) st inputs).measurements
      = st.measurements ++ (recorded (trace (latencyStep env) st inputs)).map Prod.snd
  | [], st => by simp [recorded]
  | inp :: inputs, st => by
    rw [final_cons, trace_cons, recorded_append, List.map_append, measurements_run inputs,
      (latencyStep_records env st inp).1, List.append_assoc]

/-- The step processes a received burst and tests `running` a second time behind it. -/
def testsAgain (env : LatencyEnv) (st : LatencyState) (inp : LatencyInput) : Prop :=
  st.pc = .poll ∧ stillRunning st inp ∧ ¬ timedOut env st inp ∧ arrivals inp ≠ []

/-- A signal has come in time for one of the tests that the step makes. -/
def signalled (env : LatencyEnv) (st : LatencyState) (inp : LatencyInput) : Prop :=
  (st.pc = .top ∨ st.pc = .poll) ∧
    (inp.interrupt = true ∨ testsAgain env st inp ∧ inp.interruptLate = true)

theorem not_stillRunning_iff {inp : LatencyInput} :
    ¬ stillRunning st inp ↔ st.running = false ∨ inp.interrupt = true := by
  rw [stillRunning, not_and_or, Bool.not_eq_true, Bool.not_eq_false]

/-- While a batch is built and sent `running` is not looked at. -/
theorem sendBatch_running (inp : LatencyInput) :
    (sendBatch env st inp).1.running = st.running := by
  unfold sendBatch
  split
  · rfl
  · simp only []
    split <;> rfl

/-- A turn of the receive loop tests `running` again only behind a burst. -/
theorem pollReplies_running {inp : LatencyInput} (hpc : st.pc = .poll)
    (hrun : stillRunning st inp) :
    (pollReplies env st inp).1.running = true ↔ ¬ (testsAgain env st inp ∧ inp.interruptLate) := by
  unfold pollReplies
  simp only []
  split
  · next hlost => exact ⟨fun _ h => h.1.2.2.1 hlost, fun _ => hrun.1⟩
  · next hlost =>
    split
    · next hempty => exact ⟨fun _ h => h.1.2.2.2 (List.isEmpty_iff.mp hempty), fun _ => hrun.1⟩
    · next hsome =>
      have htests : testsAgain env st inp := ⟨hpc, hrun, hlost, fun h => hsome (by
        rw [show rxBurst inp.waiting latencyBurstSize = [] from h]; rfl)⟩
      show (st.running && !inp.interruptLate) = true ↔ _
      rw [hrun.1]
      simp [htests]

/-- **One step.** `running` stays set unless a signal has come in time for a test. -/
theorem latencyStep_running_iff (inp : LatencyInput) :
    (latencyStep env st inp).1.running = true ↔ st.running = true ∧ ¬ signalled env st inp := by
  by_cases hend : st.pc = .stopped ∨ st.pc = .aborted
  · rw [latencyStep_ended hend]
    refine ⟨fun h => ⟨h, ?_⟩, And.left⟩
    rintro ⟨htop | hpoll, -⟩
    · rcases hend with hend | hend <;> rw [htop] at hend <;> cases hend
    · rcases hend with hend | hend <;> rw [hpoll] at hend <;> cases hend
  · by_cases hrun : stillRunning st inp
    · cases hpc : st.pc with
      | stopped => exact absurd (Or.inl hpc) hend
      | aborted => exact absurd (Or.inr hpc) hend
      | top =>
        rw [latencyStep_top hpc hrun, sendBatch_running]
        refine ⟨fun h => ⟨h, ?_⟩, And.left⟩
        rintro ⟨-, hsig | ⟨htests, -⟩⟩
        · rw [hrun.2] at hsig; cases hsig
        · have hpoll := htests.1
          rw [hpc] at hpoll
          cases hpoll
      | poll =>
        rw [latencyStep_poll hpc hrun, pollReplies_running hpc hrun]
        refine ⟨fun h => ⟨hrun.1, ?_⟩, fun h hlate => h.2 ⟨Or.inr hpc, Or.inr hlate⟩⟩
        rintro ⟨-, hsig | hlate⟩
        · rw [hrun.2] at hsig; cases hsig
        · exact h hlate
    · have hclear : (latencyStep env st inp).1.running = false := by
        obtain ⟨htop, hpoll⟩ := @latencyStep_interrupted env st inp hrun
        cases hpc : st.pc with
        | stopped => exact absurd (Or.inl hpc) hend
        | aborted => exact absurd (Or.inr hpc) hend
        | top => rw [htop hpc]
        | poll => rw [hpoll hpc]
      rw [hclear]
      refine ⟨fun h => Bool.noConfusion h, ?_⟩
      rintro ⟨hset, hnone⟩
      rcases not_stillRunning_iff.mp hrun with hrun | hsig
      · rw [hset] at hrun; cases hrun
      · refine absurd ⟨?_, Or.inl hsig⟩ hnone
        cases hpc : st.pc with
        | stopped => exact absurd (Or.inl hpc) hend
        | aborted => exact absurd (Or.inr hpc) hend
        | top => exact Or.inl rfl
        | poll => exact Or.inr rfl

/-- **A run.** -/
theorem running_run_iff : ∀ (inputs : List LatencyInput) {st : LatencyState},
    (final (latencyStep env) st inputs).running = true ↔
      st.running = true ∧ Along (latencyStep env) (fun st inp => ¬ signalled env st inp) st inputs
  | [], st => by simp [Along]
  | inp :: inputs, st => by
    rw [final_cons, running_run_iff inputs, latencyStep_running_iff, Along, and_assoc]

/-- The way to `stopped` is through a test of `running` that fails. -/
theorem latencyStep_stops (inp : LatencyInput) (hstop : (latencyStep env st inp).1.pc = .stopped) :
    st.pc = .stopped ∨ (latencyStep env st inp).1.running = false := by
  rcases latencyStep_cases env st inp with
    ⟨pc, running, he, -, -, hsame | ⟨hrun, -⟩⟩ | ⟨-, -, bufs, he⟩ | ⟨-, -, pool, built, -, -, he⟩ |
    ⟨-, -, -, he⟩ | ⟨hpc, -, -, -, he⟩ | ⟨-, -, -, he⟩
  · rw [he] at hstop
    exact Or.inl (hsame.1.symm.trans hstop)
  · rw [he]
    exact Or.inr hrun
  · rw [he] at hstop; cases hstop
  · rw [he] at hstop; cases hstop
  · rw [he] at hstop; cases hstop
  · rw [he, hpc] at hstop; cases hstop
  · rw [he] at hstop
    simp only [processBurst] at hstop
    split at hstop
    · cases hstop
    · split at hstop <;> cases hstop

/-- A client whose `running` is cleared winds up without a further action. -/
theorem latencyStep_cleared (h : st.running = false) (inp : LatencyInput) :
    (latencyStep env st inp).2 = [] ∧ (latencyStep env st inp).1.running = false ∧
      (st.pc = .poll → (latencyStep env st inp).1.pc = .top) ∧
      (st.pc = .top → (latencyStep env st inp).1.pc = .stopped) ∧
      (st.pc = .stopped ∨ st.pc = .aborted → (latencyStep env st inp).1.pc = st.pc) := by
  have hnot : ¬ stillRunning st inp := by
    rintro ⟨hrun, -⟩
    rw [h] at hrun
    cases hrun
  obtain ⟨htop, hpoll⟩ := @latencyStep_interrupted env st inp hnot
  cases hpc : st.pc with
  | top => simp [htop hpc]
  | poll => simp [hpoll hpc]
  | stopped => simp [latencyStep_ended (Or.inl hpc), h, hpc]
  | aborted => simp [latencyStep_ended (Or.inr hpc), h, hpc]

/-- How many steps a client is from its end when `running` is cleared. -/
def LatencyPc.stepsLeft : LatencyPc → Nat
  | .poll => 2
  | .top => 1
  | .stopped => 0
  | .aborted => 0

theorem run_cleared : ∀ (inputs : List LatencyInput) {st : LatencyState}, st.running = false →
    trace (latencyStep env) st inputs = [] ∧
      (st.pc.stepsLeft ≤ inputs.length →
        (final (latencyStep env) st inputs).pc = .stopped ∨ st.pc = .aborted)
  | [], st, _ => by
    refine ⟨rfl, fun hlen => ?_⟩
    cases hpc : st.pc with
    | stopped => exact Or.inl hpc
    | aborted => exact Or.inr rfl
    | top => rw [hpc] at hlen; exact absurd hlen (by decide)
    | poll => rw [hpc] at hlen; exact absurd hlen (by decide)
  | inp :: inputs, st, h => by
    obtain ⟨hnone, hrun, hpoll, htop, hend⟩ := @latencyStep_cleared env st h inp
    obtain ⟨htrace, hstop⟩ := run_cleared inputs hrun
    rw [trace_cons, final_cons, hnone, htrace]
    refine ⟨rfl, fun hlen => ?_⟩
    rw [List.length_cons] at hlen
    cases hpc : st.pc with
    | aborted => exact Or.inr rfl
    | poll =>
      rw [hpc] at hlen
      rw [hpoll hpc] at hstop
      exact Or.inl ((hstop (Nat.le_of_succ_le_succ hlen)).resolve_right LatencyPc.noConfusion)
    | top =>
      rw [hpc] at hlen
      rw [htop hpc] at hstop
      exact Or.inl ((hstop (Nat.zero_le _)).resolve_right LatencyPc.noConfusion)
    | stopped =>
      rw [hend (Or.inl hpc), hpc] at hstop
      exact Or.inl ((hstop (Nat.zero_le _)).resolve_right LatencyPc.noConfusion)

theorem stopped_run (inputs : List LatencyInput) (h : st.pc = .stopped → st.running = false) :
    (final (latencyStep env) st inputs).pc = .stopped →
      (final (latencyStep env) st inputs).running = false := by
  refine final_invariant (G := fun _ _ => True)
    (fun st => st.pc = .stopped → st.running = false) ?_ h
    (along_of_forall (fun _ _ => trivial) inputs st)
  intro st inp hst _ hstop
  rcases latencyStep_stops inp hstop with hwas | hclear
  · rw [latencyStep_ended (Or.inl hwas)]
    exact hst hwas
  · exact hclear

end

/--
**A latency client ends by a signal.** After every run of a client that got past its checks:
`running` is cleared exactly when a signal has come in time for one of the tests of the two loops,
the client has stopped only with `running` cleared, and from the test that finds it cleared on it
does nothing any more and has stopped two steps later, unless an assertion has failed. What it
prints is the list of all latencies it has measured, in order.
-/
theorem latency_ends_by_signal (env : LatencyEnv) (nbTx : UInt32)
    (hready : (latencyInit env.cntx nbTx).pc = .top) (inputs : List LatencyInput) :
    let st := final (latencyStep env) (latencyInit env.cntx nbTx) inputs
    (st.running = false ↔ ¬ Along (latencyStep env) (fun st inp => ¬ signalled env st inp)
      (latencyInit env.cntx nbTx) inputs) ∧
    (st.pc = .stopped → st.running = false) ∧
    (st.running = false → ∀ more, trace (latencyStep env) st more = [] ∧
      (2 ≤ more.length → (final (latencyStep env) st more).pc = .stopped ∨ st.pc = .aborted)) ∧
    st.measurements = (recorded (trace (latencyStep env) (latencyInit env.cntx nbTx) inputs)).map
      Prod.snd := by
  intro st
  refine ⟨?_, stopped_run inputs fun h => ?_, fun hrun more => ?_, measurements_run inputs _⟩
  · rw [← Bool.not_eq_true]
    refine not_congr ((running_run_iff inputs).trans ?_)
    exact ⟨And.right, fun h => ⟨rfl, h⟩⟩
  · rw [hready] at h
    cases h
  · obtain ⟨htrace, hstop⟩ := @run_cleared env more st hrun
    refine ⟨htrace, fun hlen => hstop (Nat.le_trans ?_ hlen)⟩
    cases st.pc <;> decide

/-- A batch and its two replies. The signal comes while they are processed. -/
def lateSignal : List LatencyInput :=
  [sampleLatencyInput 2 [] 0,
    { sampleLatencyInput 2 [sampleReply 1 1, sampleReply 1 0] 500 with interruptLate := true }]

/-- Both replies are measured, and the signal is in time for the test behind them. -/
theorem latency_ends_by_signal_late :
    (final (latencyStep sampleLatencyEnv) (latencyInit sampleLatencyEnv.cntx 0)
      lateSignal).measurements.length = 2 ∧
    (final (latencyStep sampleLatencyEnv) (latencyInit sampleLatencyEnv.cntx 0)
      lateSignal).running = false ∧
    (final (latencyStep sampleLatencyEnv) (final (latencyStep sampleLatencyEnv)
      (latencyInit sampleLatencyEnv.cntx 0) lateSignal)
      [sampleLatencyInput 2 [] 600, sampleLatencyInput 2 [] 700]).pc = .stopped := by
  obtain ⟨hcleared, -, hends, -⟩ := latency_ends_by_signal sampleLatencyEnv 0 rfl lateSignal
  have hrun := hcleared.mpr fun h => by
    refine h.2.1 ⟨Or.inr rfl, Or.inr ⟨⟨rfl, ⟨rfl, rfl⟩, ?_, ?_⟩, rfl⟩⟩
    · exact show ¬ (500 : UInt64) - 0 > 1000 by decide
    · exact List.cons_ne_nil _ _
  obtain ⟨-, hstop⟩ := hends hrun [sampleLatencyInput 2 [] 600, sampleLatencyInput 2 [] 700]
  exact ⟨rfl, hrun, (hstop (Nat.le_refl 2)).resolve_right LatencyPc.noConfusion⟩

end DpdkEcho
