import DpdkEcho.Main
import DpdkEcho.Properties.ServerBurst

/-!
# The deadline array of a server worker

`queue_status` has one entry for each queue the worker manages and is indexed by `qid`, the
number of the queue on the port. `main` numbers the queues of worker `i` from `i * per` on.

* `serverStep_statusSlots` — an iteration touches the entry of the queue it serves and no other
* `run_statusSlots` — along a run every access is at the number of a managed queue
-/

namespace DpdkEcho

open Infra

/-! ## Which entries an iteration touches -/

theorem mem_statusSlots {slot : Nat} {events : List ServerEvent} :
    slot ∈ statusSlots events ↔ ∃ e ∈ events, slot ∈ statusSlots [e] := by
  simp [statusSlots]

/-- Handling a burst writes the entry of the queue it came from. -/
theorem serveBurst_statusSlots (cntx : Context) (st : ServerState) (qid : Nat)
    (bufs : List Mbuf) (inp : ServerInput) :
    ∀ slot ∈ statusSlots (serveBurst cntx st qid bufs inp).2, slot = qid := by
  intro slot hslot
  cases hb : cntx.bidi with
  | false =>
    rw [serveBurst_unidir _ _ _ _ _ hb, (echo_silent _ _ _).2.2] at hslot
    simp at hslot
  | true =>
    obtain ⟨deadline, he⟩ := serveBurst_bidi cntx st qid bufs inp hb
    rw [he, statusSlots_append, statusSlots_append, (echo_silent _ _ _).2.2,
      (txLoop_silent _ _ _).2.2.2] at hslot
    simpa [statusSlots] using hslot

theorem serverStep_statusSlots (hz : UInt64) (cntx : Context) (st : ServerState)
    (inp : ServerInput) :
    ∀ slot ∈ statusSlots (serverStep hz cntx st inp).2, slot = selectedQid cntx st := by
  intro slot hslot
  rcases serverStep_events hz cntx st inp with he | he | he | ⟨st', he⟩
  · rw [he] at hslot; simp [statusSlots] at hslot
  · rw [he] at hslot; simpa [statusSlots] using hslot
  · rw [he] at hslot; simpa [statusSlots] using hslot
  · rw [he, statusSlots_append] at hslot
    rcases List.mem_append.mp hslot with h | h
    · simpa [statusSlots] using h
    · exact serveBurst_statusSlots _ _ _ _ _ slot h

/-- The first iteration looks at the entry of its queue, whatever happens afterwards. -/
theorem serverStep_reads_first (hz : UInt64) (cntx : Context) (now : UInt64)
    (stack : Nat → UInt64) (txBuf : Nat → Mbuf) (inp : ServerInput) (hnow : inp.currentTime = now) :
    selectedQid cntx (serverInit cntx now stack txBuf)
      ∈ statusSlots (serverStep hz cntx (serverInit cntx now stack txBuf) inp).2 := by
  have hrun : (serverInit cntx now stack txBuf).run = true := rfl
  have hbegin : ¬ (¬ ((serverInit cntx now stack txBuf).nextQueue cntx).firstPkt = true ∧
      inp.currentTime - ((serverInit cntx now stack txBuf).nextQueue cntx).expBegin > 60 * hz) := by
    rintro ⟨-, h⟩
    have hzero : inp.currentTime - ((serverInit cntx now stack txBuf).nextQueue cntx).expBegin
        = 0 := by
      rw [hnow]
      exact UInt64.sub_self now
    rw [hzero] at h
    exact absurd h (Nat.not_lt_zero _)
  unfold serverStep
  rw [if_neg (by simp [hrun])]
  simp only []
  rw [if_neg hbegin, pollQueue]
  split
  · simp [statusSlots]
  · simp only []
    split
    · split <;> simp [statusSlots]
    · simp [statusSlots]

/-! ## `q_index` -/

theorem serverStep_qIndex (hz : UInt64) (cntx : Context) (st : ServerState) (inp : ServerInput) :
    (serverStep hz cntx st inp).1.qIndex = st.qIndex ∨
      (serverStep hz cntx st inp).1.qIndex = (st.qIndex + 1) % cntx.countQueues := by
  have hup : ((st.nextQueue cntx).updateThroughput hz inp.currentTime).qIndex
      = (st.qIndex + 1) % cntx.countQueues := by
    unfold ServerState.updateThroughput
    split <;> rfl
  unfold serverStep
  split
  · exact Or.inl rfl
  · refine Or.inr ?_
    simp only []
    split
    · rfl
    · unfold pollQueue
      split
      · exact hup
      · simp only []
        split
        · split <;> exact hup
        · -- the burst handler changes other fields only
          unfold serveBurst
          simp only []
          split <;> exact hup

/-- The queue index stays inside the table of managed queues. -/
theorem serverStep_qIndex_lt {hz : UInt64} {cntx : Context} (hq : 0 < cntx.countQueues)
    (st : ServerState) (inp : ServerInput) (h : st.qIndex < cntx.countQueues) :
    (serverStep hz cntx st inp).1.qIndex < cntx.countQueues := by
  rcases serverStep_qIndex hz cntx st inp with he | he
  · rw [he]; exact h
  · rw [he]; exact Nat.mod_lt _ hq

/-- Along a run every access to `queue_status` is at the number of a managed queue. -/
theorem run_statusSlots {hz : UInt64} {cntx : Context} (hq : 0 < cntx.countQueues) {now : UInt64}
    {stack : Nat → UInt64} {txBuf : Nat → Mbuf} {inputs : List ServerInput} {slot : Nat}
    (h : slot ∈ statusSlots (trace (serverStep hz cntx) (serverInit cntx now stack txBuf) inputs)) :
    ∃ q, q < cntx.countQueues ∧ slot = cntx.managedQueues.getD q 0 % 2 ^ 16 := by
  obtain ⟨e, he, hslot⟩ := mem_statusSlots.mp h
  have hrun : Along (serverStep hz cntx) (fun _ _ => True) (serverInit cntx now stack txBuf)
      inputs := along_of_forall (fun _ _ => trivial) inputs _
  refine trace_forall (fun st => st.qIndex < cntx.countQueues)
    (fun e => ∀ slot ∈ statusSlots [e],
      ∃ q, q < cntx.countQueues ∧ slot = cntx.managedQueues.getD q 0 % 2 ^ 16)
    (fun st inp hinv _ => serverStep_qIndex_lt hq st inp hinv) ?_ hq hrun e he slot hslot
  intro st inp hinv _ e he slot hslot
  exact ⟨st.qIndex, hinv, serverStep_statusSlots hz cntx st inp slot
    (mem_statusSlots.mpr ⟨e, he, hslot⟩)⟩

/-! ## The numbering of `main` -/

section
variable {config : AppConfig} {myEth : EtherAddr} {countCore i : Nat}

/-- The number on the port of the `q`-th queue of server worker `i`; it fits a `uint16_t`. -/
theorem managedQueues_get {ws : List Context} (h : startWorkers config myEth countCore = some ws)
    (hi : i < countCore) {q : Nat} (hq : q < config.numQueues.toNat / countCore) :
    (serverContext config myEth (config.numQueues.toNat / countCore)
        (i * (config.numQueues.toNat / countCore)) i i).managedQueues.getD q 0 % 2 ^ 16
      = i * (config.numQueues.toNat / countCore) + q := by
  have hend := startWorkers_share_end h hi
  have hlt : config.numQueues.toNat < 2 ^ 16 := config.numQueues.toNat_lt
  have hget : (serverContext config myEth (config.numQueues.toNat / countCore)
      (i * (config.numQueues.toNat / countCore)) i i).managedQueues.getD q 0
        = i * (config.numQueues.toNat / countCore) + q := by
    simp [serverContext, List.getD_eq_getElem?_getD, hq]
  rw [hget, Nat.mod_eq_of_lt (by omega)]

end

/-! ## The bound -/

/-- The deadline array is used inside its bounds and without sharing: along every run each
access is below `count_queues`, and different managed queues have different entries. -/
def QueueStatusSafe (hz : UInt64) (cntx : Context) : Prop :=
  (∀ (now : UInt64) (stack : Nat → UInt64) (txBuf : Nat → Mbuf) (inputs : List ServerInput),
    ∀ slot ∈ statusSlots (trace (serverStep hz cntx) (serverInit cntx now stack txBuf) inputs),
      slot < cntx.countQueues) ∧
  ∀ q q', q < cntx.countQueues → q' < cntx.countQueues → q ≠ q' →
    cntx.managedQueues.getD q 0 % 2 ^ 16 ≠ cntx.managedQueues.getD q' 0 % 2 ^ 16

/--
**`queue_status` is indexed within its bounds by worker 0 only.** The other workers index an
array of `Q / C` entries with the queue numbers from `i * (Q / C)` on.
-/
theorem queue_status_safe_iff (hz : UInt64) (config : AppConfig) (myEth : EtherAddr)
    (countCore : Nat) (ws : List Context) (hmode : config.mode = .server)
    (hstart : startWorkers config myEth countCore = some ws) (i : Nat) (hi : i < countCore) :
    ∃ cntx, ws[i]? = some cntx ∧ cntx.countQueues = config.numQueues.toNat / countCore ∧
      (QueueStatusSafe hz cntx ↔ i = 0) := by
  obtain ⟨hpos, -⟩ := startWorkers_shares (Nat.one_le_of_lt hi) hstart
  refine ⟨_, startWorkers_server_get hmode hstart hi, rfl, ?_⟩
  constructor
  · intro hsafe
    by_contra hne
    -- the very first access is at `i * per`, which is `per` at least
    have hmem := serverStep_reads_first hz (serverContext config myEth
      (config.numQueues.toNat / countCore) (i * (config.numQueues.toNat / countCore)) i i)
      0 (fun _ => 0) (fun n => Mbuf.alloc n fun _ => 0)
      { currentTime := 0, waiting := [], statusTime := 0, willing := [] } rfl
    have hlt := hsafe.1 0 (fun _ => 0) (fun n => Mbuf.alloc n fun _ => 0)
      [{ currentTime := 0, waiting := [], statusTime := 0, willing := [] }] _
      (by simpa only [trace_cons, trace_nil, List.append_nil] using hmem)
    have hqid := managedQueues_get hstart hi hpos
    rw [selectedQid, show (serverInit _ 0 (fun _ => 0) (fun n => Mbuf.alloc n fun _ => 0)).qIndex
      = 0 from rfl, hqid] at hlt
    have hmul : config.numQueues.toNat / countCore ≤ i * (config.numQueues.toNat / countCore) :=
      Nat.le_mul_of_pos_left _ (by omega)
    simp only [serverContext] at hlt
    omega
  · intro h0
    subst h0
    refine ⟨?_, ?_⟩
    · intro now stack txBuf inputs slot hslot
      obtain ⟨q, hq, hs⟩ := run_statusSlots hpos hslot
      rw [managedQueues_get hstart hi hq] at hs
      simp only [serverContext] at hq ⊢
      omega
    · intro q q' hq hq' hne
      rw [managedQueues_get hstart hi hq, managedQueues_get hstart hi hq']
      omega

/-- A server with two queues. -/
def twoQueueConfig : AppConfig :=
  { defaultConfig with mode := .server, numQueues := 2, sourceIp := 0x01010101 }

/-- On one core the only worker is safe. -/
theorem queue_status_safe_one_core :
    ∃ w0, startWorkers twoQueueConfig broadcastMac 1 = some [w0] ∧ w0.countQueues = 2 ∧
      QueueStatusSafe 1000 w0 := by
  obtain ⟨w0, hget, hcount, hiff⟩ :=
    queue_status_safe_iff 1000 twoQueueConfig broadcastMac 1 _ rfl rfl 0 (by decide)
  have hw : _ = w0 := Option.some.inj hget
  exact ⟨w0, hw ▸ rfl, hcount, hiff.mpr rfl⟩

/-- On two cores, worker 1 reads `queue_status[1]` in its first iteration; the array has one
entry. -/
theorem queue_status_overrun_two_cores :
    ∃ w0 w1, startWorkers twoQueueConfig broadcastMac 2 = some [w0, w1] ∧
      w1.countQueues = 1 ∧ ¬ QueueStatusSafe 1000 w1 := by
  refine ⟨_, _, rfl, rfl, ?_⟩
  intro hsafe
  have hlt := hsafe.1 0 (fun _ => 0) (fun n => Mbuf.alloc n fun _ => 0)
    [{ currentTime := 0, waiting := [], statusTime := 0, willing := [] }] 1 (by decide)
  exact absurd hlt (by decide)

end DpdkEcho
