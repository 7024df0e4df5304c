import Mathlib.Data.List.TakeWhile
import DpdkEcho.Properties.BurstPackets

/-!
# The phases of `do_client`

A client sends for as long as its options say, then waits two seconds for the last packets and
leaves its loop. What it does is determined by the times it reads, except that it may be aborted
while it sends.

* `client_phases` — nothing is sent when the time is over, and the loop is left exactly when the
  two seconds have passed as well
* `client_several_destinations` — a client with more than one destination sends at most one burst
  and is aborted by the second iteration in which it may send
-/

namespace DpdkEcho

open Infra

/-- The time to send is over: `duration > 0 && end_time > start_time + duration`. -/
def timeOver (duration start : UInt64) (inp : TransmitInput) : Bool :=
  decide (duration > 0 ∧ inp.endTime > start + duration)

/-- The iterations up to the first one that finds the time over. -/
def sendingPart (duration start : UInt64) (inputs : List TransmitInput) : List TransmitInput :=
  inputs.takeWhile fun inp => !timeOver duration start inp

/-- In the loop, and sending. -/
structure Sending (duration start : UInt64) (st : TransmitState) : Prop where
  pc : st.pc = .loop
  canSend : st.canSend = true
  startTime : st.startTime = start
  duration : st.duration = duration

/-- In the loop, and waiting for the last packets. -/
structure Draining (hz since : UInt64) (st : TransmitState) : Prop where
  pc : st.pc = .loop
  canSend : st.canSend = false
  startTime : st.startTime = since
  duration : st.duration = 2 * hz

section
variable {env : ClientEnv} {st : TransmitState} {inp : TransmitInput} {duration start : UInt64}

theorem checkDuration_before (h : Sending duration start st)
    (htime : timeOver duration start inp = false) : st.checkDuration env.hz inp = st := by
  rw [TransmitState.checkDuration, h.duration, h.startTime, if_neg (of_decide_eq_false htime)]

/-- What the rest of an iteration leaves alone. -/
theorem trySend_keeps (hpc : st.pc = .loop) :
    ((trySend env st inp).1.pc = .loop ∨ (trySend env st inp).1.pc = .aborted) ∧
      (trySend env st inp).1.canSend = st.canSend ∧
      (trySend env st inp).1.startTime = st.startTime ∧
      (trySend env st inp).1.duration = st.duration := by
  have hreset : ((st.selectNext env.cntx).resetWindow env inp.endTime).pc = .loop ∧
      ((st.selectNext env.cntx).resetWindow env inp.endTime).canSend = st.canSend ∧
      ((st.selectNext env.cntx).resetWindow env inp.endTime).startTime = st.startTime ∧
      ((st.selectNext env.cntx).resetWindow env inp.endTime).duration = st.duration := by
    unfold TransmitState.resetWindow
    split <;> exact ⟨hpc, rfl, rfl, rfl⟩
  unfold trySend
  simp only []
  split
  · exact ⟨Or.inr rfl, rfl, rfl, rfl⟩
  · split
    · exact ⟨Or.inl hreset.1, hreset.2⟩
    · generalize (st.selectNext env.cntx).resetWindow env inp.endTime = st2 at hreset ⊢
      obtain ⟨hpc2, hsend2, hstart2, hdur2⟩ := hreset
      unfold transmitBurst
      simp only []
      split
      · exact ⟨Or.inl hpc2, hsend2, hstart2, hdur2⟩
      · split
        · exact ⟨Or.inr rfl, hsend2, hstart2, hdur2⟩
        · split <;> exact ⟨Or.inl hpc2, hsend2, hstart2, hdur2⟩

/-- An iteration before the time is over goes on sending, or the process is aborted. -/
theorem transmitStep_sending (h : Sending duration start st)
    (htime : timeOver duration start inp = false) :
    transmitStep env st inp = trySend env st inp ∧
      (Sending duration start (transmitStep env st inp).1 ∨
        (transmitStep env st inp).1.pc = .aborted) := by
  have hstep : transmitStep env st inp = trySend env st inp := by
    rw [transmitStep, if_neg (not_not.mpr h.pc), checkDuration_before h htime,
      if_pos ⟨h.pc, h.canSend⟩]
  refine ⟨hstep, ?_⟩
  rw [hstep]
  obtain ⟨hpc | hpc, hsend, hstart, hdur⟩ := @trySend_keeps env st inp h.pc
  · exact Or.inl ⟨hpc, hsend.trans h.canSend, hstart.trans h.startTime, hdur.trans h.duration⟩
  · exact Or.inr hpc

/-- The first iteration after that stops sending. -/
theorem transmitStep_timeOver (h : Sending duration start st)
    (htime : timeOver duration start inp = true) :
    (transmitStep env st inp).2 = [] ∧
      Draining env.hz inp.restartTime (transmitStep env st inp).1 := by
  have hcheck : st.checkDuration env.hz inp
      = { st with canSend := false, startTime := inp.restartTime, duration := 2 * env.hz } := by
    rw [TransmitState.checkDuration, h.duration, h.startTime, if_pos (of_decide_eq_true htime),
      if_pos h.canSend]
  rw [transmitStep, if_neg (not_not.mpr h.pc), hcheck, if_neg (fun hgo => by cases hgo.2)]
  exact ⟨rfl, h.pc, rfl, rfl, rfl⟩

/-- While it waits, the client does nothing; the first late iteration ends the loop. -/
theorem transmitStep_draining {since : UInt64} (h : Draining env.hz since st) :
    (transmitStep env st inp).2 = [] ∧
      if timeOver (2 * env.hz) since inp then (transmitStep env st inp).1.pc = .done
      else Draining env.hz since (transmitStep env st inp).1 := by
  cases htime : timeOver (2 * env.hz) since inp with
  | false =>
    have hcheck : st.checkDuration env.hz inp = st := by
      rw [TransmitState.checkDuration, h.duration, h.startTime, if_neg (of_decide_eq_false htime)]
    rw [transmitStep, if_neg (not_not.mpr h.pc), hcheck,
      if_neg (fun hgo => by rw [h.canSend] at hgo; cases hgo.2)]
    exact ⟨rfl, h⟩
  | true =>
    have hcheck : st.checkDuration env.hz inp = { st with pc := .done } := by
      rw [TransmitState.checkDuration, h.duration, h.startTime, if_pos (of_decide_eq_true htime),
        if_neg (by rw [h.canSend]; exact Bool.false_ne_true)]
    rw [transmitStep, if_neg (not_not.mpr h.pc), hcheck, if_neg (fun hgo => by cases hgo.1)]
    exact ⟨rfl, rfl⟩

end

section
variable {env : ClientEnv}

theorem run_ended : ∀ {inputs : List TransmitInput} {st : TransmitState}, st.pc ≠ .loop →
    trace (transmitStep env) st inputs = [] ∧ final (transmitStep env) st inputs = st
  | [], _, _ => ⟨rfl, rfl⟩
  | inp :: inputs, st, h => by
    rw [trace_cons, final_cons, transmitStep_ended h inp]
    exact run_ended h

/-- The two seconds. -/
theorem run_draining : ∀ {inputs : List TransmitInput} {st : TransmitState} {since : UInt64},
    Draining env.hz since st →
    trace (transmitStep env) st inputs = [] ∧
      ((final (transmitStep env) st inputs).pc = .done ↔
        ∃ inp ∈ inputs, timeOver (2 * env.hz) since inp = true)
  | [], st, since, h => by
    refine ⟨rfl, ?_⟩
    simp [h.pc]
  | inp :: inputs, st, since, h => by
    obtain ⟨hnone, hnext⟩ := @transmitStep_draining env st inp since h
    rw [trace_cons, final_cons, hnone, List.nil_append]
    split at hnext
    · next htime =>
      obtain ⟨htrace, hfinal⟩ := @run_ended env inputs _ (by rw [hnext]; exact ClientPc.noConfusion)
      rw [htrace, hfinal]
      exact ⟨rfl, fun _ => ⟨inp, List.mem_cons_self, htime⟩, fun _ => hnext⟩
    · next htime =>
      obtain ⟨htrace, hdone⟩ := @run_draining inputs _ _ hnext
      refine ⟨htrace, hdone.trans ?_⟩
      simp [htime]

/-- From a state in which the client sends. -/
theorem run_sending {duration start : UInt64} : ∀ {inputs : List TransmitInput}
    {st : TransmitState}, Sending duration start st →
    trace (transmitStep env) st inputs
        = trace (transmitStep env) st (sendingPart duration start inputs) ∧
      ((final (transmitStep env) st inputs).pc = .done ↔
        (final (transmitStep env) st (sendingPart duration start inputs)).pc = .loop ∧
          ∃ late rest, inputs = sendingPart duration start inputs ++ late :: rest ∧
            ∃ inp ∈ rest, timeOver (2 * env.hz) late.restartTime inp = true)
  | [], st, h => by
    refine ⟨rfl, ?_⟩
    simp [sendingPart, h.pc]
  | inp :: inputs, st, h => by
    cases htime : timeOver duration start inp with
    | true =>
      have hpart : sendingPart duration start (inp :: inputs) = [] := by
        simp [sendingPart, htime]
      obtain ⟨hnone, hdrain⟩ := @transmitStep_timeOver env st inp duration start h htime
      obtain ⟨htrace, hdone⟩ := @run_draining env inputs _ _ hdrain
      rw [hpart, trace_cons, final_cons, hnone, htrace]
      refine ⟨rfl, hdone.trans ⟨fun hex => ⟨h.pc, inp, inputs, rfl, hex⟩, ?_⟩⟩
      rintro ⟨-, late, rest, heq, hex⟩
      obtain ⟨rfl, rfl⟩ := List.cons.inj heq
      exact hex
    | false =>
      have hpart : sendingPart duration start (inp :: inputs)
          = inp :: sendingPart duration start inputs := by
        simp [sendingPart, htime]
      rw [hpart, trace_cons, trace_cons, final_cons, final_cons]
      obtain ⟨-, hnext | habort⟩ := @transmitStep_sending env st inp duration start h htime
      · obtain ⟨htrace, hdone⟩ := @run_sending _ _ inputs _ hnext
        rw [← htrace]
        refine ⟨rfl, hdone.trans (and_congr_right fun _ => ?_)⟩
        simp
      · obtain ⟨htrace, hfinal⟩ := @run_ended env inputs _
          (by rw [habort]; exact ClientPc.noConfusion)
        obtain ⟨htrace', hfinal'⟩ := @run_ended env (sendingPart duration start inputs) _
          (by rw [habort]; exact ClientPc.noConfusion)
        rw [htrace, htrace', hfinal, hfinal', habort]
        simp

end

theorem transmitInit_sending (env : ClientEnv) (tables : FlowTables) (now : UInt64) :
    Sending (transmitInit env tables now).duration now (transmitInit env tables now) :=
  ⟨rfl, rfl, rfl, rfl⟩

/-- A duration that is not positive is never over. -/
theorem timeOver_of_nonpos {env : ClientEnv} (h : env.cntx.duration ≤ 0) (tables : FlowTables)
    (now start : UInt64) (inp : TransmitInput) :
    timeOver (transmitInit env tables now).duration start inp = false := by
  have hzero : (transmitInit env tables now).duration = 0 := by
    show (if env.cntx.duration < 0 then 0 else UInt64.ofInt env.cntx.duration * env.hz) = 0
    split
    · rfl
    · next hneg =>
      rw [show env.cntx.duration = 0 by omega, show UInt64.ofInt 0 = 0 from rfl, UInt64.zero_mul]
  refine decide_eq_false fun hover => ?_
  rw [hzero] at hover
  exact absurd hover.1 (by decide)

/--
**The phases of a client.** Whatever a client does, it does before the first iteration that finds
its time over. It leaves its loop exactly when it was not aborted up to that iteration and a later
one comes more than two seconds after it. A client whose duration is not positive never leaves its
loop.
-/
theorem client_phases (env : ClientEnv) (tables : FlowTables) (now : UInt64)
    (inputs : List TransmitInput) :
    let init := transmitInit env tables now
    let sending := sendingPart init.duration now inputs
    trace (transmitStep env) init inputs = trace (transmitStep env) init sending ∧
      ((final (transmitStep env) init inputs).pc = .done ↔
        (final (transmitStep env) init sending).pc = .loop ∧
          ∃ late rest, inputs = sending ++ late :: rest ∧
            ∃ inp ∈ rest, timeOver (2 * env.hz) late.restartTime inp = true) ∧
      (env.cntx.duration ≤ 0 → (final (transmitStep env) init inputs).pc ≠ .done) := by
  intro init sending
  obtain ⟨htrace, hdone⟩ := @run_sending env _ now inputs _ (transmitInit_sending env tables now)
  refine ⟨htrace, hdone, fun hneg hleft => ?_⟩
  obtain ⟨-, late, rest, heq, -⟩ := hdone.mp hleft
  have hall : sendingPart (transmitInit env tables now).duration now inputs = inputs :=
    List.takeWhile_eq_self_iff.mpr fun inp _ => by rw [timeOver_of_nonpos hneg]; rfl
  rw [hall] at heq
  simp at heq

/-! ## More than one destination -/

section
variable {env : ClientEnv} {st : TransmitState} {inp : TransmitInput} {duration start : UInt64}

/-- The next destination is selected in every iteration that may send. -/
theorem trySend_selects (hzero : st.selectedDst = 0) :
    (trySend env st inp).1.selectedDst = (st.selectedDst + 1) % env.cntx.dstIps.length := by
  have hreset : ((st.selectNext env.cntx).resetWindow env inp.endTime).selectedDst
      = (st.selectedDst + 1) % env.cntx.dstIps.length := by
    unfold TransmitState.resetWindow
    split <;> rfl
  rw [trySend, if_neg (not_not.mpr hzero)]
  simp only []
  split
  · exact hreset
  · generalize (st.selectNext env.cntx).resetWindow env inp.endTime = st2 at hreset ⊢
    unfold transmitBurst
    simp only []
    split
    · exact hreset
    · split
      · exact hreset
      · split <;> exact hreset

/-- Away from the first destination the assertion fails. -/
theorem run_asserts (h : Sending duration start st) (hdst : st.selectedDst ≠ 0)
    (htime : timeOver duration start inp = false) (inputs : List TransmitInput) :
    trace (transmitStep env) st (inp :: inputs) = [] ∧
      (final (transmitStep env) st (inp :: inputs)).pc = .aborted := by
  have hstep : transmitStep env st inp = ({ st with pc := .aborted }, []) := by
    rw [(transmitStep_sending h htime).1, trySend, if_pos hdst]
  rw [trace_cons, final_cons, hstep]
  obtain ⟨htrace, hfinal⟩ := @run_ended env inputs { st with pc := .aborted } ClientPc.noConfusion
  rw [htrace, hfinal]
  exact ⟨rfl, rfl⟩

end

theorem sendingPart_cons (duration start : UInt64) (inp : TransmitInput)
    (inputs : List TransmitInput) :
    sendingPart duration start (inp :: inputs) =
      if timeOver duration start inp then [] else inp :: sendingPart duration start inputs := by
  cases htime : timeOver duration start inp with
  | false => simp [sendingPart, htime]
  | true => simp [sendingPart, htime]

/-- After the first iteration. -/
theorem run_elsewhere {env : ClientEnv} {st : TransmitState} {duration start : UInt64}
    (h : Sending duration start st) (hdst : st.selectedDst ≠ 0) :
    ∀ inputs : List TransmitInput, trace (transmitStep env) st inputs = [] ∧
      (sendingPart duration start inputs ≠ [] → (final (transmitStep env) st inputs).pc = .aborted)
  | [] => ⟨rfl, fun hne => absurd rfl hne⟩
  | inp :: inputs => by
    cases htime : timeOver duration start inp with
    | false =>
      obtain ⟨htrace, habort⟩ := @run_asserts env st inp duration start h hdst htime inputs
      exact ⟨htrace, fun _ => habort⟩
    | true =>
      refine ⟨?_, fun hne => absurd ?_ hne⟩
      · rw [(run_sending h).1, sendingPart_cons, htime]
        rfl
      · rw [sendingPart_cons, htime]
        rfl

/--
**Several destinations.** A client with more than one destination does nothing after its first
iteration: what it sends is the burst of that iteration, and the second one in which it may send
fails its assertion.
-/
theorem client_several_destinations (env : ClientEnv) (hmany : 2 ≤ env.cntx.dstIps.length)
    (tables : FlowTables) (now : UInt64) (inputs : List TransmitInput) :
    let init := transmitInit env tables now
    let sending := sendingPart init.duration now inputs
    trace (transmitStep env) init inputs = trace (transmitStep env) init (sending.take 1) ∧
      (2 ≤ sending.length → (final (transmitStep env) init inputs).pc = .aborted) := by
  intro init sending
  have hinit := transmitInit_sending env tables now
  cases inputs with
  | nil => exact ⟨rfl, fun hlen => absurd hlen (by simp [sending, sendingPart])⟩
  | cons inp inputs =>
    have hcons : sending = _ := sendingPart_cons init.duration now inp inputs
    cases htime : timeOver init.duration now inp with
    | true =>
      rw [htime, if_pos rfl] at hcons
      rw [(run_sending hinit).1]
      show trace _ _ sending = _ ∧ _
      rw [hcons]
      exact ⟨rfl, fun hlen => absurd hlen (by simp)⟩
    | false =>
      rw [htime, if_neg Bool.false_ne_true] at hcons
      rw [hcons, List.take_succ_cons, List.take_zero, trace_cons, trace_cons, final_cons, trace_nil,
        List.append_nil]
      obtain ⟨hstep, hnext | habort⟩ := @transmitStep_sending env init inp _ now hinit htime
      · have hdst : (transmitStep env init inp).1.selectedDst ≠ 0 := by
          rw [hstep, trySend_selects rfl]
          show (0 + 1) % _ ≠ 0
          rw [Nat.mod_eq_of_lt (by omega)]
          exact Nat.one_ne_zero
        obtain ⟨htrace, habort⟩ := run_elsewhere hnext hdst inputs
        rw [htrace, List.append_nil]
        refine ⟨rfl, fun hlen => habort fun hnil => ?_⟩
        rw [hnil] at hlen
        simp at hlen
      · obtain ⟨htrace, hfinal⟩ := @run_ended env inputs _
          (by rw [habort]; exact ClientPc.noConfusion)
        rw [htrace, hfinal, List.append_nil]
        exact ⟨rfl, fun _ => habort⟩

/-- A client with two destinations. -/
def twoDestinations : ClientEnv :=
  { zipfClientEnv with cntx := sampleClient [0x0A000002, 0x0A000003] }

/-- Its second iteration, even if there are no buffers. -/
theorem client_several_destinations_two : 2 ≤ twoDestinations.cntx.dstIps.length ∧
    ∀ inp : TransmitInput, (final (transmitStep twoDestinations)
      (transmitInit twoDestinations ⟨fun _ => 0, fun _ => 0⟩ 0) [inp, inp]).pc = .aborted := by
  refine ⟨by decide, fun inp => ?_⟩
  refine (client_several_destinations twoDestinations (by decide) ⟨fun _ => 0, fun _ => 0⟩ 0
    [inp, inp]).2 ?_
  have hnever : timeOver (transmitInit twoDestinations ⟨fun _ => 0, fun _ => 0⟩ 0).duration 0 inp
      = false := timeOver_of_nonpos (by decide) _ _ _ _
  simp [sendingPart, hnever]

end DpdkEcho
