import Mathlib.Data.Rat.Floor
import DpdkEcho.Properties.BurstPackets
import DpdkEcho.Properties.ClientSteps

/-!
# The delay after a burst

`do_client` scales the delay of the command line by the burst size and spreads it over the flows.
The factor is a quotient of floating-point numbers in the caller, and a `uint16_t` in the function
that waits: what is left of it is the whole part.
-/

namespace DpdkEcho

open Infra

/-- The cycles waited in an iteration. -/
def waitedCycles (events : List ClientEvent) : Nat :=
  (events.map fun | .delay cycles => cycles.toNat | _ => 0).sum

/-- A burst was handed to the driver. -/
def SendsBurst (events : List ClientEvent) : Prop :=
  ∃ k qid taken measured, ClientEvent.tx k qid taken measured ∈ events

theorem truncate_natCast_div (a b : Nat) :
    truncate ((a : ℚ) / (b : ℚ)) = ((a / b : Nat) : Int) := by
  rw [truncate, if_pos (div_nonneg (Nat.cast_nonneg a) (Nat.cast_nonneg b))]
  exact Rat.floor_natCast_div_natCast a b

section
variable {cntx : Context}

/-- What is waited: the delay times the whole part of the factor. -/
theorem delayOfBurst_toNat (hb : cntx.batch.toNat ≤ maxBurstSize)
    (hfit : cntx.delayCycles.toNat * cntx.batch.toNat < 2 ^ 63) :
    (delayOfBurst cntx).toNat
      = cntx.delayCycles.toNat * (cntx.batch.toNat / cntx.countFlow.toNat) := by
  have hmax : maxBurstSize = 512 := rfl
  have hle : cntx.batch.toNat / cntx.countFlow.toNat ≤ cntx.batch.toNat := Nat.div_le_self _ _
  have hfactor : (UInt16.ofInt (truncate ((cntx.batch.toNat : ℚ) / cntx.countFlow.toNat))).toNat
      = cntx.batch.toNat / cntx.countFlow.toNat := by
    rw [truncate_natCast_div]
    generalize cntx.batch.toNat / cntx.countFlow.toNat = factor at hle ⊢
    have hlow := toNat_uint16_ofInt factor
    omega
  have hprod : cntx.delayCycles.toNat * (cntx.batch.toNat / cntx.countFlow.toNat)
      ≤ cntx.delayCycles.toNat * cntx.batch.toNat := Nat.mul_le_mul_left _ hle
  rw [delayOfBurst, UInt64.toNat_mul, UInt16.toNat_toUInt64, hfactor]
  exact Nat.mod_eq_of_lt (by omega)

/-- A sent burst waits once. -/
theorem waitedCycles_events (b : SentBurst) (hd : 1 ≤ cntx.delayCycles.toNat) :
    waitedCycles (b.events cntx) = (delayOfBurst cntx).toNat := by
  have hpos : cntx.delayCycles > 0 := UInt64.lt_iff_toNat_lt.mpr hd
  have hfree : ∀ bufs : List Mbuf, waitedCycles (bufs.map ClientEvent.free) = 0 := by
    intro bufs
    induction bufs with
    | nil => rfl
    | cons buf bufs ih => simpa [waitedCycles] using ih
  have happend : ∀ e f, waitedCycles (e ++ f) = waitedCycles e + waitedCycles f := by
    intro e f
    simp [waitedCycles]
  rw [SentBurst.events, if_pos hpos, happend, happend, hfree]
  simp [waitedCycles]

end

/-- The whole part of the factor is enough exactly when what is cut off stays below a cycle. -/
theorem mul_div_eq_div_iff {d b f : Nat} (hf : 1 ≤ f) :
    d * (b / f) = d * b / f ↔ d * (b % f) < f := by
  have hsplit : d * b / f = d * (b / f) + d * (b % f) / f := by
    conv_lhs => rw [← Nat.div_add_mod b f, Nat.mul_add, Nat.mul_left_comm, Nat.mul_add_div hf]
  rw [hsplit, Nat.left_eq_add, Nat.div_eq_zero_iff]
  omega

/-- What an iteration that sends a burst waits. -/
theorem transmitStep_waits {env : ClientEnv} {st : TransmitState} {inp : TransmitInput}
    (hsent : SendsBurst (transmitStep env st inp).2) (hd : 1 ≤ env.cntx.delayCycles.toNat)
    (hb : env.cntx.batch.toNat ≤ maxBurstSize)
    (hfit : env.cntx.delayCycles.toNat * env.cntx.batch.toNat < 2 ^ 63) :
    waitedCycles (transmitStep env st inp).2
      = env.cntx.delayCycles.toNat * (env.cntx.batch.toNat / env.cntx.countFlow.toNat) := by
  obtain ⟨k, qid, taken, measured, hmem⟩ := hsent
  rcases transmitStep_cases env st inp with
    ⟨st', he, -⟩ | ⟨st', bufs, he, -⟩ | ⟨st', b, he, -⟩
  · rw [he] at hmem
    cases hmem
  · rw [he] at hmem
    cases List.mem_singleton.mp hmem
  · rw [he, waitedCycles_events b hd, delayOfBurst_toNat hb hfit]

/--
**The delay after a burst is the scaled delay exactly when the cut-off part of the factor is worth
less than a cycle.** This is so for a burst that is a multiple of the number of flows.
-/
theorem burst_delay_iff (env : ClientEnv) (st : TransmitState) (inp : TransmitInput)
    (hsent : SendsBurst (transmitStep env st inp).2) (hd : 1 ≤ env.cntx.delayCycles.toNat)
    (hb : env.cntx.batch.toNat ≤ maxBurstSize) (hf : 1 ≤ env.cntx.countFlow.toNat)
    (hfit : env.cntx.delayCycles.toNat * env.cntx.batch.toNat < 2 ^ 63) :
    (waitedCycles (transmitStep env st inp).2
        = env.cntx.delayCycles.toNat * env.cntx.batch.toNat / env.cntx.countFlow.toNat ∧
      (env.cntx.countFlow.toNat ≤ env.cntx.delayCycles.toNat * env.cntx.batch.toNat →
        waitedCycles (transmitStep env st inp).2 ≠ 0)) ↔
    env.cntx.delayCycles.toNat * (env.cntx.batch.toNat % env.cntx.countFlow.toNat)
      < env.cntx.countFlow.toNat := by
  have hwait := transmitStep_waits hsent hd hb hfit
  rw [hwait, ← mul_div_eq_div_iff hf]
  refine ⟨fun h => h.1, fun h => ⟨h, fun hle => ?_⟩⟩
  rw [h]
  have := Nat.div_pos hle hf
  omega

/-- A client that waits. -/
def delayClientEnv (delayCycles : UInt64) (batch : UInt16) (countFlow : UInt32) : ClientEnv :=
  { zipfClientEnv with
    cntx := { zipfClientEnv.cntx with
      delayCycles := delayCycles, batch := batch, countFlow := countFlow } }

/-- There are buffers, and the driver takes one packet. -/
def readyInput (now : UInt64) : TransmitInput where
  endTime := now
  restartTime := now
  pool := some fun j => (j, fun _ => 0)
  draws := twoDraws
  willing := 1

/-- The first iteration of a client. -/
def firstIteration (env : ClientEnv) : TransmitState × List ClientEvent :=
  transmitStep env (transmitInit env ⟨fun _ => 0, fun _ => 0⟩ 0) (readyInput 0)

theorem delayClient_sends (delayCycles : UInt64) (batch : UInt16) (countFlow : UInt32) :
    SendsBurst (firstIteration (delayClientEnv delayCycles batch countFlow)).2 := by
  have hports : (delayClientEnv delayCycles batch countFlow).client.uniqueClientPorts ≠ 0 :=
    show (5 : UInt32) ≠ 0 by decide
  have hduration : (transmitInit (delayClientEnv delayCycles batch countFlow)
      ⟨fun _ => 0, fun _ => 0⟩ 0).duration = 0 :=
    show UInt64.ofInt 0 * 1000 = 0 by decide
  have hpool : (readyInput 0).pool = some fun j => (j, fun _ => 0) := rfl
  obtain ⟨st', qid, taken, measured, rest, h, -⟩ := transmitStep_sends_zipf rfl hports
    (fun _ => Nat.le_of_ble_eq_true rfl) rfl rfl hduration rfl (fun h => by cases h) hpool
  rw [firstIteration, h]
  exact ⟨0, qid, taken, measured, List.mem_cons_of_mem _ List.mem_cons_self⟩

/-- A thousand cycles, four packets, two flows: two thousand cycles. -/
theorem burst_delay_even :
    SendsBurst (firstIteration (delayClientEnv 1000 4 2)).2 ∧
    waitedCycles (firstIteration (delayClientEnv 1000 4 2)).2 = 2000 := by
  have hsent := delayClient_sends 1000 4 2
  refine ⟨hsent, ?_⟩
  exact ((burst_delay_iff (delayClientEnv 1000 4 2) _ _ hsent (by decide) (by decide) (by decide)
    (by decide)).mpr (by decide)).1

/-- A thousand cycles, one packet, two flows: the client does not wait at all. -/
theorem burst_delay_lost :
    SendsBurst (firstIteration (delayClientEnv 1000 1 2)).2 ∧
    waitedCycles (firstIteration (delayClientEnv 1000 1 2)).2 = 0 ∧
    2 ≤ 1000 * 1 ∧ waitedCycles (firstIteration (delayClientEnv 1000 1 2)).2 ≠ 1000 * 1 / 2 := by
  have hsent := delayClient_sends 1000 1 2
  have hwait : waitedCycles (firstIteration (delayClientEnv 1000 1 2)).2 = 0 :=
    transmitStep_waits hsent (by decide) (by decide) (by decide)
  exact ⟨hsent, hwait, by decide, by rw [hwait]; decide⟩

end DpdkEcho
