import DpdkEcho.Properties.ServerBurst

/-!
# The pace of the server

After a burst the server leaves the queue alone for a time in proportion to the packets it has
processed. The product of their number and the delay is taken in 32 bits and wraps around when it
is too large for them.

* `serverStep_queueStatus` — what an iteration does to the deadlines
* `serverStep_rxPolls` — an iteration receives only when the deadline of its queue has passed
* `server_paces_queue` — a deadline that did not wrap holds for the rest of the run
-/

namespace DpdkEcho

open Infra

/-- The receive calls of an event list: queue and time. -/
def rxPolls (events : List ServerEvent) : List (Nat × UInt64) :=
  events.flatMap fun | .rx qid now _ => [(qid, now)] | _ => []

/-- The number of packets processed in an iteration that polls its queue. -/
def processedPkts (cntx : Context) (inp : ServerInput) : Nat :=
  (rxBurst inp.waiting serverBurstSize).countP (passesFilters cntx)

/-- The delay for each packet, in the `uint32_t` of `do_server`. -/
def pktDelay (cntx : Context) : UInt32 := cntx.delayCycles.toUInt32

/-- The deadline as `do_server` computes it. -/
def burstDeadline (cntx : Context) (inp : ServerInput) : UInt64 :=
  inp.statusTime + (UInt32.ofNat (processedPkts cntx inp) * pktDelay cntx).toUInt64

/-- The readings of the timer in the order they are taken do not go back and stay below
`2 ^ 63`. -/
structure TimerMonotone (inputs : List ServerInput) : Prop where
  sorted : (inputs.flatMap fun inp => [inp.currentTime, inp.statusTime]).Pairwise (· ≤ ·)
  bounded : ∀ inp ∈ inputs, inp.statusTime.toNat < 2 ^ 63

/-! ## The receive calls -/

theorem rxPolls_append (e f : List ServerEvent) : rxPolls (e ++ f) = rxPolls e ++ rxPolls f :=
  List.flatMap_append

theorem echo_rxPolls (cntx : Context) (now : UInt64) (bufs : List Mbuf) (st : EchoState) :
    rxPolls (trace (echoPacket cntx now) st bufs) = [] := by
  induction bufs generalizing st with
  | nil => rfl
  | cons b bs ih =>
    rw [trace_cons, rxPolls_append, ih, List.append_nil]
    rcases echoPacket_cases cntx now st b with
      ⟨-, -, args, he⟩ | ⟨-, -, -, -, he⟩ | ⟨-, -, -, -, he⟩
    · simp [he, rxPolls]
    · rw [he]; rfl
    · rw [he]; rfl

theorem txLoop_rxPolls (qid : Nat) : ∀ (ws : List Nat) (st : TxState),
    rxPolls (txLoop qid ws st).2 = []
  | [], st => by
    unfold txLoop txRetry
    split <;> rfl
  | w :: ws, st => by
    have hone : rxPolls (txRetry qid st w).2 = [] := by
      unfold txRetry
      split <;> rfl
    simp [txLoop, rxPolls_append, hone, txLoop_rxPolls qid ws]

theorem serveBurst_rxPolls (cntx : Context) (st : ServerState) (qid : Nat) (bufs : List Mbuf)
    (inp : ServerInput) : rxPolls (serveBurst cntx st qid bufs inp).2 = [] := by
  cases hb : cntx.bidi with
  | false => rw [serveBurst_unidir _ _ _ _ _ hb, echo_rxPolls]
  | true =>
    obtain ⟨deadline, he⟩ := serveBurst_bidi cntx st qid bufs inp hb
    rw [he, rxPolls_append, rxPolls_append, echo_rxPolls, txLoop_rxPolls]
    rfl

section
variable (hz : UInt64) (cntx : Context) (st : ServerState) (inp : ServerInput)

/-- An iteration receives at most once, from its queue and after the deadline. -/
theorem serverStep_rxPolls :
    rxPolls (serverStep hz cntx st inp).2 = [] ∨
      (st.queueStatus (selectedQid cntx st) ≤ inp.currentTime ∧
        rxPolls (serverStep hz cntx st inp).2 = [(selectedQid cntx st, inp.currentTime)]) := by
  by_cases hp : polls hz cntx st inp
  · refine Or.inr ⟨UInt64.not_lt.mp hp.2.2, ?_⟩
    rw [serverStep_of_polls hz cntx st inp hp, rxPolls_append]
    split
    · rfl
    · rw [serveBurst_rxPolls]
      rfl
  · refine Or.inl ?_
    unfold serverStep
    split
    · rfl
    · next hrun =>
      simp only []
      split
      · rfl
      · next hbegin =>
        have hlate : st.queueStatus (selectedQid cntx st) > inp.currentTime := by
          by_contra hle
          exact hp ⟨by simpa using hrun, hbegin, hle⟩
        rw [pollQueue, if_pos (by rw [updateThroughput_queueStatus]; exact hlate)]
        rfl

/-! ## The deadlines -/

theorem echoPacket_nbPktsProcess (now : UInt64) (est : EchoState) (buf : Mbuf) :
    (echoPacket cntx now est buf).1.nbPktsProcess
      = est.nbPktsProcess + if passesFilters cntx buf then 1 else 0 := by
  unfold echoPacket passesFilters
  simp only []
  split
  · next h => simp [h.1, Bool.eq_false_iff.mpr h.2]
  · next h1 =>
    have hv : (!cntx.doArp || (checkEthHdr cntx.srcIp cntx.myEth buf).valid) = true := by
      cases ha : cntx.doArp with
      | false => rfl
      | true =>
        rw [ha] at h1
        simpa using h1
    split
    · next h2 => simp [h2]
    · next h2 =>
      split
      · next h3 => simp [h3]
      · next h3 =>
        have h2' := not_not.mp h2
        have h3' := not_not.mp h3
        split <;> simp [hv, h2', h3']

theorem echo_nbPktsProcess (now : UInt64) (bufs : List Mbuf) (est : EchoState) :
    (final (echoPacket cntx now) est bufs).nbPktsProcess
      = est.nbPktsProcess + UInt32.ofNat (bufs.countP (passesFilters cntx)) := by
  induction bufs generalizing est with
  | nil => simp
  | cons b bs ih =>
    rw [final_cons, ih, echoPacket_nbPktsProcess, List.countP_cons]
    cases passesFilters cntx b with
    | false => simp
    | true => simp [UInt32.add_assoc, UInt32.add_comm]

theorem serveBurst_queueStatus (qid : Nat) :
    (serveBurst cntx st qid (rxBurst inp.waiting serverBurstSize) inp).1.queueStatus
      = if cntx.bidi then Function.update st.queueStatus qid (burstDeadline cntx inp)
        else st.queueStatus := by
  have hcount : (final (echoPacket cntx inp.currentTime) st.echoStart
      (rxBurst inp.waiting serverBurstSize)).nbPktsProcess
        = UInt32.ofNat (processedPkts cntx inp) := by
    rw [echo_nbPktsProcess]
    exact UInt32.zero_add _
  cases hb : cntx.bidi with
  | false => simp [serveBurst, hb, ServerState.afterEcho]
  | true => simp [serveBurst, hb, ServerState.afterEcho, hcount, burstDeadline, pktDelay]

/-- A burst in bidirectional mode sets the deadline of its queue. -/
theorem serverStep_burstDeadline (hb : cntx.bidi = true) (hp : polls hz cntx st inp)
    (hne : rxBurst inp.waiting serverBurstSize ≠ []) :
    (serverStep hz cntx st inp).1.queueStatus
      = Function.update st.queueStatus (selectedQid cntx st) (burstDeadline cntx inp) := by
  obtain ⟨hrun, hbegin, hready⟩ := hp
  unfold serverStep
  rw [if_neg (by simp [hrun])]
  simp only []
  rw [if_neg (show ¬ (¬ (st.nextQueue cntx).firstPkt = true ∧
      inp.currentTime - (st.nextQueue cntx).expBegin > 60 * hz) from hbegin), pollQueue,
    if_neg (by rw [updateThroughput_queueStatus]; exact hready)]
  simp only []
  rw [if_neg (by simpa using hne), serveBurst_queueStatus, if_pos hb, updateThroughput_queueStatus]
  rfl

/-- **What an iteration does to the deadlines**: nothing, or it has polled its queue after the
old deadline and sets the new one. -/
theorem serverStep_queueStatus :
    (serverStep hz cntx st inp).1.queueStatus = st.queueStatus ∨
      (st.queueStatus (selectedQid cntx st) ≤ inp.currentTime ∧
        (serverStep hz cntx st inp).1.queueStatus
          = Function.update st.queueStatus (selectedQid cntx st) (burstDeadline cntx inp)) := by
  have hold : ((st.nextQueue cntx).updateThroughput hz inp.currentTime).queueStatus
      = st.queueStatus := updateThroughput_queueStatus _ _ _
  unfold serverStep
  split
  · exact Or.inl rfl
  · simp only []
    split
    · exact Or.inl rfl
    · unfold pollQueue
      split
      · exact Or.inl hold
      · next hready =>
        rw [hold] at hready
        simp only []
        split
        · split <;> exact Or.inl hold
        · rw [serveBurst_queueStatus, hold]
          split
          · exact Or.inr ⟨UInt64.not_lt.mp hready, rfl⟩
          · exact Or.inl rfl

end

/-! ## The pace -/

theorem processedPkts_le (cntx : Context) (inp : ServerInput) : processedPkts cntx inp ≤ 1024 :=
  calc processedPkts cntx inp
      ≤ (rxBurst inp.waiting serverBurstSize).length := List.countP_le_length
    _ ≤ 1024 := List.length_take_le 1024 inp.waiting

section
variable {cntx : Context} {inp : ServerInput} (hbound : inp.statusTime.toNat < 2 ^ 63)
include hbound

/-- The sum with the clock does not wrap, the product may have. -/
theorem burstDeadline_toNat : (burstDeadline cntx inp).toNat
    = inp.statusTime.toNat + processedPkts cntx inp * (pktDelay cntx).toNat % 2 ^ 32 := by
  have hn : processedPkts cntx inp < 2 ^ 32 :=
    Nat.lt_of_le_of_lt (processedPkts_le cntx inp) (by decide)
  have hmod := Nat.mod_lt (processedPkts cntx inp * (pktDelay cntx).toNat)
    (show 0 < 2 ^ 32 by decide)
  rw [burstDeadline, UInt64.toNat_add, UInt32.toNat_toUInt64, UInt32.toNat_mul,
    UInt32.toNat_ofNat', Nat.mod_eq_of_lt hn]
  omega

end

/-- The queue is not to be polled before `t`. -/
def HeldUntil (q t : Nat) (st : ServerState) : Prop := t ≤ (st.queueStatus q).toNat

/-- A later burst only moves the deadline further: it was read after the old one. -/
theorem serverStep_heldUntil {hz : UInt64} {cntx : Context} {q t : Nat} (st : ServerState)
    (inp : ServerInput) (h : HeldUntil q t st)
    (htimer : inp.currentTime ≤ inp.statusTime ∧ inp.statusTime.toNat < 2 ^ 63) :
    HeldUntil q t (serverStep hz cntx st inp).1 := by
  unfold HeldUntil at h ⊢
  rcases serverStep_queueStatus hz cntx st inp with he | ⟨hready, he⟩
  · rw [he]
    exact h
  · rw [he]
    by_cases hq : q = selectedQid cntx st
    · rw [hq, Function.update_self, burstDeadline_toNat htimer.2]
      rw [hq] at h
      have h1 : (st.queueStatus (selectedQid cntx st)).toNat ≤ inp.currentTime.toNat := hready
      have h2 : inp.currentTime.toNat ≤ inp.statusTime.toNat := htimer.1
      omega
    · rw [Function.update_of_ne hq]
      exact h

theorem TimerMonotone.step_le {inputs : List ServerInput} (h : TimerMonotone inputs)
    {inp : ServerInput} (hmem : inp ∈ inputs) :
    inp.currentTime ≤ inp.statusTime ∧ inp.statusTime.toNat < 2 ^ 63 := by
  refine ⟨?_, h.bounded inp hmem⟩
  obtain ⟨before, after, rfl⟩ := List.append_of_mem hmem
  have hs := h.sorted
  rw [List.flatMap_append, List.flatMap_cons] at hs
  have hpair := (List.pairwise_append.mp (List.pairwise_append.mp hs).2.1).1
  simpa using hpair

/--
**A burst whose product fits 32 bits is paced**: for the rest of the run, its queue is not polled
before the time of the burst plus the delay for each packet that was processed. Later bursts
on the queue need not meet the condition.
-/
theorem server_paces_queue (hz : UInt64) (cntx : Context) (hb : cntx.bidi = true)
    (now : UInt64) (stack : Nat → UInt64) (txBuf : Nat → Mbuf)
    (before : List ServerInput) (inp : ServerInput) (after : List ServerInput)
    (htimer : TimerMonotone (before ++ inp :: after)) :
    let st := final (serverStep hz cntx) (serverInit cntx now stack txBuf) before
    polls hz cntx st inp → rxBurst inp.waiting serverBurstSize ≠ [] →
    processedPkts cntx inp * (pktDelay cntx).toNat < 2 ^ 32 →
    ∀ time, (selectedQid cntx st, time) ∈
        rxPolls (trace (serverStep hz cntx) (serverStep hz cntx st inp).1 after) →
      inp.statusTime.toNat + processedPkts cntx inp * (pktDelay cntx).toNat ≤ time.toNat := by
  intro st hp hne hfit time hpoll
  have hheld : HeldUntil (selectedQid cntx st)
      (inp.statusTime.toNat + processedPkts cntx inp * (pktDelay cntx).toNat)
      (serverStep hz cntx st inp).1 := by
    rw [HeldUntil, serverStep_burstDeadline hz cntx st inp hb hp hne, Function.update_self,
      burstDeadline_toNat (htimer.bounded inp (by simp)), Nat.mod_eq_of_lt hfit]
  have hafter : Along (serverStep hz cntx)
      (fun _ i => i.currentTime ≤ i.statusTime ∧ i.statusTime.toNat < 2 ^ 63)
      (serverStep hz cntx st inp).1 after :=
    along_of_mem fun i hi _ => htimer.step_le (by simp [hi])
  obtain ⟨e, he, hmem⟩ := List.mem_flatMap.mp hpoll
  refine trace_forall (HeldUntil (selectedQid cntx st)
      (inp.statusTime.toNat + processedPkts cntx inp * (pktDelay cntx).toNat))
    (fun e => (selectedQid cntx st, time) ∈ rxPolls [e] → _ ≤ time.toNat)
    (fun s i hs hi => serverStep_heldUntil s i hs hi) ?_ hheld hafter e he
    (by simpa [rxPolls] using hmem)
  intro s i hs _ e he hmem
  have hin : (selectedQid cntx st, time) ∈ rxPolls (serverStep hz cntx s i).2 :=
    List.mem_flatMap.mpr ⟨e, he, by simpa [rxPolls] using hmem⟩
  rcases serverStep_rxPolls hz cntx s i with hnone | ⟨hready, hone⟩
  · rw [hnone] at hin
    simp at hin
  · rw [hone, List.mem_singleton] at hin
    obtain ⟨hq, ht⟩ := Prod.mk.inj hin
    rw [HeldUntil, hq] at hs
    rw [ht]
    exact Nat.le_trans hs hready

/-- `sampleServer` with a delay. -/
def slowServer (delay : UInt64) : Context := { sampleServer with delayCycles := delay }

/-- Two packets at time 0, and a look at the queue at `later`. -/
def twoPackets (later : UInt64) : List ServerInput :=
  [sampleInput 2, { currentTime := later, waiting := [], statusTime := later, willing := [] }]

/-- With a delay of 10, two packets hold the queue until 20, when it is polled again. -/
theorem server_paces_queue_two :
    (0, 20) ∈ rxPolls (trace (serverStep 1000 (slowServer 10))
        (serverStep 1000 (slowServer 10) (serverInit (slowServer 10) 0 (fun _ => 0) samplePacket)
          (sampleInput 2)).1 ((twoPackets 20).drop 1)) ∧
      (0 : UInt64).toNat + processedPkts (slowServer 10) (sampleInput 2)
        * (pktDelay (slowServer 10)).toNat ≤ (20 : UInt64).toNat := by
  have hpoll : (0, 20) ∈ rxPolls (trace (serverStep 1000 (slowServer 10))
      (serverStep 1000 (slowServer 10) (serverInit (slowServer 10) 0 (fun _ => 0) samplePacket)
        (sampleInput 2)).1 ((twoPackets 20).drop 1)) := by decide
  refine ⟨hpoll, ?_⟩
  exact server_paces_queue 1000 (slowServer 10) rfl 0 (fun _ => 0) samplePacket [] (sampleInput 2)
    ((twoPackets 20).drop 1) ⟨by decide, by decide⟩ (polls_sample 2) (by decide) (by decide) 20
    hpoll

/-- With a delay of `2 ^ 31` the product of the two packets is 0 in 32 bits: the queue is polled
again at once and not after `2 ^ 32` cycles. -/
theorem server_pace_wraps :
    TimerMonotone (twoPackets 0) ∧
    polls 1000 (slowServer 0x80000000)
      (serverInit (slowServer 0x80000000) 0 (fun _ => 0) samplePacket) (sampleInput 2) ∧
    processedPkts (slowServer 0x80000000) (sampleInput 2) = 2 ∧
    ¬ ∀ time, (0, time) ∈ rxPolls (trace (serverStep 1000 (slowServer 0x80000000))
        (serverStep 1000 (slowServer 0x80000000)
          (serverInit (slowServer 0x80000000) 0 (fun _ => 0) samplePacket) (sampleInput 2)).1
        ((twoPackets 0).drop 1)) →
      (sampleInput 2).statusTime.toNat + processedPkts (slowServer 0x80000000) (sampleInput 2)
        * (pktDelay (slowServer 0x80000000)).toNat ≤ time.toNat := by
  refine ⟨⟨by decide, by decide⟩, polls_sample 2, by decide, fun h => ?_⟩
  exact absurd (h 0 (by decide)) (by decide)

end DpdkEcho
