import DpdkEcho.Infra.Fair
import DpdkEcho.Client.Process
import DpdkEcho.Properties.BurstPackets

/-!
# The end of a client

* `client_report_final` — the counts in the report of `do_client` are those of the whole run, in
  whatever order the two threads have run, and nothing happens after it
* `client_finishes_iff` — if both threads keep getting their turns, there is a report exactly when
  the loop is left at some time, by the clock or by a signal
-/

namespace DpdkEcho

open Infra

/-! ## Counting -/

/-- The sizes of the bursts that the driver took for destination `k` past the warm-up. -/
def measuredTx (events : List ClientEvent) (k : Nat) : List Nat :=
  events.flatMap fun
    | .tx k' _ taken measured => if k' = k ∧ measured = true then [taken.length] else []
    | _ => []

/-- How often the receiver has counted a packet of destination `k`. -/
def receivedFrom (events : List ClientEvent) (k : Nat) : Nat :=
  events.countP fun
    | .received k' _ => k' == k
    | _ => false

@[simp] theorem measuredTx_append (e f : List ClientEvent) (k : Nat) :
    measuredTx (e ++ f) k = measuredTx e k ++ measuredTx f k := List.flatMap_append

@[simp] theorem receivedFrom_append (e f : List ClientEvent) (k : Nat) :
    receivedFrom (e ++ f) k = receivedFrom e k + receivedFrom f k := List.countP_append

/-- What the counters say after the events. -/
structure Tally (env : ClientEnv) (st : ClientState) (events : List ClientEvent) : Prop where
  sent : ∀ k, st.transmit.totalSentPkts k = UInt64.ofNat (measuredTx events k).sum
  failed : ∀ k, st.transmit.failedToPush k =
    UInt64.ofNat ((measuredTx events k).map (env.cntx.batch.toNat - ·)).sum
  received : ∀ k, st.receiver.totalReceivedPkts k = UInt64.ofNat (receivedFrom events k)

/-- What a report has to say about the events, by destination. -/
def countsOf (env : ClientEnv) (events : List ClientEvent) :
    List (UInt32 × UInt64 × UInt64 × UInt64) :=
  env.cntx.dstIps.zipIdx.map fun (ip, k) =>
    (ip, UInt64.ofNat (measuredTx events k).sum, UInt64.ofNat (receivedFrom events k),
      UInt64.ofNat ((measuredTx events k).map (env.cntx.batch.toNat - ·)).sum)

theorem Tally.counts {env : ClientEnv} {st : ClientState} {events : List ClientEvent}
    (h : Tally env st events) : (clientReport env.cntx st).counts = countsOf env events := by
  refine List.map_congr_left ?_
  rintro ⟨ip, k⟩ -
  show (_, _, _, _) = _
  rw [h.sent k, h.received k, h.failed k]

/-- Events that only touch the other thread's counters. -/
theorem measuredTx_eq_nil {events : List ClientEvent}
    (h : ∀ k q taken measured, .tx k q taken measured ∉ events) (k : Nat) :
    measuredTx events k = [] := by
  refine List.flatMap_eq_nil_iff.mpr fun e he => ?_
  cases e with
  | tx k' q taken measured => exact absurd he (h k' q taken measured)
  | _ => rfl

theorem receivedFrom_eq_zero {events : List ClientEvent}
    (h : ∀ k timestamp, .received k timestamp ∉ events) (k : Nat) : receivedFrom events k = 0 := by
  refine List.countP_eq_zero.mpr fun e he => ?_
  cases e with
  | received k' timestamp => exact absurd he (h k' timestamp)
  | _ => simp

section
variable {env : ClientEnv}

/-- What the transmit loop adds to its counters. -/
def AddsSent (env : ClientEnv) (st st' : TransmitState) (events : List ClientEvent) : Prop :=
  ∀ k, st'.totalSentPkts k = st.totalSentPkts k + UInt64.ofNat (measuredTx events k).sum ∧
    st'.failedToPush k = st.failedToPush k +
      UInt64.ofNat ((measuredTx events k).map (env.cntx.batch.toNat - ·)).sum

theorem AddsSent.of_same {st st' : TransmitState} (h : SameCounts st st') :
    AddsSent env st st' [] := by
  intro k
  rw [h.1, h.2]
  exact ⟨(UInt64.add_zero _).symm, (UInt64.add_zero _).symm⟩

theorem AddsSent.after {st st' st'' : TransmitState} {events : List ClientEvent}
    (h : SameCounts st st') (h' : AddsSent env st' st'' events) : AddsSent env st st'' events := by
  obtain ⟨hsent, hfailed⟩ := h
  intro k
  obtain ⟨h1, h2⟩ := h' k
  rw [hsent] at h1
  rw [hfailed] at h2
  exact ⟨h1, h2⟩

/-- The events of a burst count once. -/
theorem measuredTx_burst {bufs freed : List Mbuf} {k q : Nat} {taken : List Mbuf}
    {measured : Bool} {delay : List UInt64} (k' : Nat) :
    measuredTx ([.alloc bufs, .tx k q taken measured] ++ freed.map .free ++ delay.map .delay) k' =
      if k = k' ∧ measured = true then [taken.length] else [] := by
  have hfree : measuredTx (freed.map .free) k' = [] :=
    measuredTx_eq_nil (fun k q taken measured h => by simp at h) k'
  have hdelay : measuredTx (delay.map .delay) k' = [] :=
    measuredTx_eq_nil (fun k q taken measured h => by simp at h) k'
  rw [measuredTx_append, measuredTx_append, hfree, hdelay, List.append_nil, List.append_nil]
  simp [measuredTx]

theorem transmitBurst_adds (st : TransmitState) (inp : TransmitInput) (k : Nat) (curFlow : Int)
    (selectedQ : UInt16) :
    AddsSent env st (transmitBurst env st inp k curFlow selectedQ).1
      (transmitBurst env st inp k curFlow selectedQ).2 := by
  unfold transmitBurst
  simp only []
  cases inp.pool with
  | none => exact AddsSent.of_same ⟨rfl, rfl⟩
  | some pool =>
    simp only []
    split
    · intro k'
      simp [measuredTx]
    · next built hbuilt =>
      have hlen : built.length = env.cntx.batch.toNat := buildBurst_length hbuilt
      have htake : (built.take (txBurst inp.willing env.cntx.batch.toNat)).length
          = txBurst inp.willing env.cntx.batch.toNat := by
        rw [List.length_take, hlen]
        exact Nat.min_eq_left (txBurst_le _ _)
      have hdelay : (if env.cntx.delayCycles > 0 then
            [ClientEvent.delay (delayOfBurst env.cntx)] else [])
          = (if env.cntx.delayCycles > 0 then [delayOfBurst env.cntx] else []).map .delay := by
        split <;> rfl
      intro k'
      rw [hdelay]
      simp only [measuredTx_burst]
      generalize decide (inp.endTime > st.startTime + 0 * env.hz) = measured
      cases measured with
      | false => simp [TransmitState.credit]
      | true =>
        by_cases hk : k = k'
        · subst hk
          simp [htake, TransmitState.credit, TransmitState.count]
        · have hk' : k' ≠ k := fun h => hk h.symm
          simp [hk, hk', TransmitState.credit, TransmitState.count]

theorem transmitStep_adds (st : TransmitState) (inp : TransmitInput) :
    AddsSent env st (transmitStep env st inp).1 (transmitStep env st inp).2 := by
  obtain ⟨hcheck, -⟩ := checkDuration_same env.hz st inp
  unfold transmitStep
  split
  · exact AddsSent.of_same ⟨rfl, rfl⟩
  · simp only []
    split
    · refine AddsSent.after hcheck ?_
      unfold trySend
      simp only []
      split
      · exact AddsSent.of_same ⟨rfl, rfl⟩
      · have hreset := (resetWindow_same env
          ((st.checkDuration env.hz inp).selectNext env.cntx) inp.endTime).1
        split
        · exact AddsSent.of_same hreset
        · exact AddsSent.after hreset (transmitBurst_adds _ _ _ _ _)
    · exact AddsSent.of_same hcheck

/-- The transmit loop counts nothing as received, the receiver sends nothing. -/
theorem transmitStep_received_none (st : TransmitState) (inp : TransmitInput) (k : Nat) :
    receivedFrom (transmitStep env st inp).2 k = 0 := by
  refine receivedFrom_eq_zero (fun k' timestamp he => ?_) k
  rcases transmitStep_cases env st inp with ⟨st', h, -⟩ | ⟨st', bufs, h, -⟩ | ⟨st', b, h, -⟩
  · rw [h] at he; cases he
  · rw [h] at he; simp at he
  · rw [h] at he
    simp only [SentBurst.events, List.mem_append, List.mem_map] at he
    rcases he with (he | ⟨b', -, hb⟩) | he
    · simp at he
    · cases hb
    · split at he <;> simp at he

/-- The receiver discards a packet, maybe with an answer, or it counts it for one destination. -/
theorem receiverPacket_state (now : UInt64) (st : ReceiverState) (buf : Mbuf) :
    (∃ args : List ArpSend, receiverPacket env.log env.hz env.build env.cntx now st buf
      = (st, args.map .arp ++ [.free buf])) ∨
    ∃ st' k timestamp, receiverPacket env.log env.hz env.build env.cntx now st buf
        = (st', [.received k timestamp, .free buf]) ∧
      st'.totalReceivedPkts
        = Function.update st.totalReceivedPkts k (st.totalReceivedPkts k + 1) := by
  unfold receiverPacket
  split
  · exact Or.inl ⟨[], rfl⟩
  · simp only []
    split
    · exact Or.inl ⟨_, rfl⟩
    · split
      · exact Or.inl ⟨[], rfl⟩
      · split
        · exact Or.inl ⟨[], rfl⟩
        · split
          · exact Or.inl ⟨[], rfl⟩
          · refine Or.inr ⟨_, _, _, rfl, ?_⟩
            simp only [recordLatency]
            split <;> rfl

theorem receiverPacket_counts (now : UInt64) (sent : Bool) (st : ReceiverState) (buf : Mbuf)
    (k : Nat) :
    let r := receiverPacket env.log env.hz env.build env.cntx now st buf
    r.1.totalReceivedPkts k = st.totalReceivedPkts k +
        UInt64.ofNat (receivedFrom (r.2.map (ReceiverEvent.toClient sent)) k) ∧
      measuredTx (r.2.map (ReceiverEvent.toClient sent)) k = [] := by
  intro r
  rcases @receiverPacket_state env now st buf with ⟨args, h⟩ | ⟨st', k', timestamp, h, hcount⟩
  · have hnone : receivedFrom (r.2.map (ReceiverEvent.toClient sent)) k = 0 := by
      refine receivedFrom_eq_zero (fun k' timestamp he => ?_) k
      simp [r, h, ReceiverEvent.toClient] at he
    refine ⟨?_, measuredTx_eq_nil (fun k' q taken measured he => ?_) k⟩
    · rw [hnone]
      simp [r, h]
    · simp [r, h, ReceiverEvent.toClient] at he
  · have hone : receivedFrom (r.2.map (ReceiverEvent.toClient sent)) k
        = if k' = k then 1 else 0 := by
      simp [r, h, receivedFrom, ReceiverEvent.toClient, List.countP_cons]
    refine ⟨?_, by simp [r, h, measuredTx, ReceiverEvent.toClient]⟩
    rw [hone, show r.1 = st' by simp [r, h], hcount]
    by_cases hk : k' = k
    · subst hk
      simp
    · rw [Function.update_of_ne (fun h => hk h.symm), if_neg hk]
      exact (UInt64.add_zero _).symm

theorem receiveBurst_counts (inp : ReceiveInput) (k : Nat) : ∀ (bufs : List Mbuf) (j : Nat)
    (st : ReceiverState),
    (receiveBurst env inp j bufs st).1.totalReceivedPkts k = st.totalReceivedPkts k +
        UInt64.ofNat (receivedFrom (receiveBurst env inp j bufs st).2 k) ∧
      measuredTx (receiveBurst env inp j bufs st).2 k = []
  | [], _, st => ⟨(UInt64.add_zero _).symm, rfl⟩
  | buf :: bufs, j, st => by
    obtain ⟨hone, hone'⟩ := @receiverPacket_counts env (inp.now j) (inp.arpAlloc j) st buf k
    obtain ⟨hrest, hrest'⟩ := receiveBurst_counts inp k bufs (j + 1)
      (receiverPacket env.log env.hz env.build env.cntx (inp.now j) st buf).1
    simp only [receiveBurst, receivedFrom_append, measuredTx_append]
    rw [hone'] at *
    rw [hrest, hone, hrest', UInt64.ofNat_add, UInt64.add_assoc]
    exact ⟨rfl, rfl⟩

theorem scanRx_none (waiting : Nat → List Mbuf) (k : Nat) : ∀ qs : List Nat,
    receivedFrom (scanRx waiting qs).1 k = 0 ∧ measuredTx (scanRx waiting qs).1 k = []
  | [] => ⟨rfl, rfl⟩
  | q :: qs => by
    unfold scanRx
    simp only []
    split
    · exact scanRx_none waiting k qs
    · exact ⟨rfl, rfl⟩

/-- **A step of either thread counts what it does.** -/
theorem Tally.step {st : ClientState} {events : List ClientEvent} (h : Tally env st events)
    (inp : ClientInput) :
    Tally env (clientStep env st inp).1 (events ++ (clientStep env st inp).2) := by
  cases inp with
  | transmit inp =>
    have hadds := @transmitStep_adds env st.transmit inp
    refine ⟨fun k => ?_, fun k => ?_, fun k => ?_⟩
    · rw [measuredTx_append, List.sum_append, UInt64.ofNat_add, ← h.sent k]
      exact (hadds k).1
    · rw [measuredTx_append, List.map_append, List.sum_append, UInt64.ofNat_add, ← h.failed k]
      exact (hadds k).2
    · rw [receivedFrom_append]
      show _ = UInt64.ofNat (_ + receivedFrom (transmitStep env st.transmit inp).2 k)
      rw [transmitStep_received_none]
      exact h.received k
  | receive inp =>
    rw [clientStep]
    split
    · obtain hscan := scanRx_none inp.waiting
      have hburst := fun k => @receiveBurst_counts env inp k
        (scanRx inp.waiting (List.range' env.cntx.defaultQid env.cntx.countQueues)).2 0 st.receiver
      refine ⟨fun k => ?_, fun k => ?_, fun k => ?_⟩
      · simp only [receiverTurn, measuredTx_append, (hscan k _).2, (hburst k).2, List.append_nil]
        exact h.sent k
      · simp only [receiverTurn, measuredTx_append, (hscan k _).2, (hburst k).2, List.append_nil]
        exact h.failed k
      · simp only [receiverTurn, receivedFrom_append, (hscan k _).1, Nat.zero_add]
        rw [UInt64.ofNat_add, ← h.received k]
        exact (hburst k).1
    · rw [List.append_nil]
      exact h

end

/-! ## The steps of the process -/

/-- What a step of the process can be. -/
inductive ProcessMove (env : ClientEnv) (p : ClientProcess) :
    ClientProcess × List ClientEvent → Prop where
  | idle : ProcessMove env p (p, [])
  | iterate (inp : TransmitInput) (hphase : p.phase = .looping) (hrun : p.running = true)
      (hpc : p.client.transmit.pc = .loop) :
      ProcessMove env p
        ({ p with client := (clientStep env p.client (.transmit inp)).1 },
          (clientStep env p.client (.transmit inp)).2)
  | leave (hphase : p.phase = .looping) (hpc : p.client.transmit.pc ≠ .aborted)
      (hstop : p.running = false ∨ p.client.transmit.pc = .done) :
      ProcessMove env p ({ p with phase := .joining, recvRunning := false }, [])
  | report (hphase : p.phase = .joining) (hpc : p.client.transmit.pc ≠ .aborted)
      (hjoin : env.cntx.bidi = true → p.recvEnded = true) :
      ProcessMove env p
        ({ p with phase := .reported (clientReport env.cntx p.client), running := false }, [])
  | receive (inp : ReceiveInput) (hrecv : p.recvEnded = false) (hbidi : env.cntx.bidi = true)
      (hpc : p.client.transmit.pc ≠ .aborted) :
      ProcessMove env p
        ({ p with client := (clientStep env p.client (.receive inp)).1 },
          (clientStep env p.client (.receive inp)).2)
  | endReceiver (hflag : p.recvRunning = false) (hpc : p.client.transmit.pc ≠ .aborted) :
      ProcessMove env p ({ p with recvEnded := true }, [])
  | signal (hpc : p.client.transmit.pc ≠ .aborted) :
      ProcessMove env p ({ p with running := false }, [])

theorem clientProcessStep_move (env : ClientEnv) (p : ClientProcess) (input : ClientProcessInput) :
    ProcessMove env p (clientProcessStep env p input) := by
  unfold clientProcessStep
  by_cases hpc : p.client.transmit.pc = .aborted
  · rw [if_pos hpc]
    exact .idle
  · rw [if_neg hpc]
    cases input with
    | transmit inp =>
      simp only [ClientProcess.goOn]
      split
      · next hphase =>
        split
        · next hgo => exact .iterate inp hphase hgo.1 hgo.2
        · next hstop =>
          refine .leave hphase hpc ?_
          by_cases hrun : p.running = true
          · cases hdone : p.client.transmit.pc with
            | loop => exact absurd ⟨hrun, hdone⟩ hstop
            | done => exact Or.inr rfl
            | aborted => exact absurd hdone hpc
          · exact Or.inl (Bool.eq_false_iff.mpr hrun)
      · next hphase =>
        split
        · exact .idle
        · next hjoin =>
          refine .report hphase hpc fun hbidi => ?_
          by_contra hnot
          exact hjoin ⟨hbidi, hnot⟩
      · exact .idle
    | receive inp =>
      simp only [ClientProcess.receive]
      split
      · exact .idle
      · next hthere =>
        obtain ⟨hbidi, hrecv⟩ := not_or.mp hthere
        split
        · exact .receive inp (Bool.eq_false_iff.mpr hrecv) (Bool.eq_true_of_not_eq_false hbidi) hpc
        · next hflag => exact .endReceiver (Bool.eq_false_iff.mpr hflag) hpc
    | signal => exact .signal hpc

section
variable {env : ClientEnv}

/-- The counters along a run. -/
theorem tally_run : ∀ {inputs : List ClientProcessInput} {p : ClientProcess}
    {events : List ClientEvent}, Tally env p.client events →
    Tally env (final (clientProcessStep env) p inputs).client
      (events ++ trace (clientProcessStep env) p inputs)
  | [], _, _, h => by
    rw [trace_nil, List.append_nil]
    exact h
  | input :: inputs, p, events, h => by
    rw [final_cons, trace_cons, ← List.append_assoc]
    refine tally_run ?_
    have hmove := clientProcessStep_move env p input
    generalize clientProcessStep env p input = next at hmove ⊢
    cases hmove with
    | iterate inp _ _ _ => exact h.step _
    | receive inp _ _ _ => exact h.step _
    | _ =>
      rw [List.append_nil]
      exact h

theorem tally_init_run (tables : FlowTables) (now : UInt64) (inputs : List ClientProcessInput) :
    Tally env (final (clientProcessStep env) (clientProcessInit env tables now) inputs).client
      (trace (clientProcessStep env) (clientProcessInit env tables now) inputs) := by
  have hrun := @tally_run env inputs (clientProcessInit env tables now) []
    ⟨fun _ => rfl, fun _ => rfl, fun _ => rfl⟩
  rwa [List.nil_append] at hrun

/-- What holds between any two steps of the process. -/
structure Winding (env : ClientEnv) (p : ClientProcess) : Prop where
  /-- Whoever has left the loop will not be aborted. -/
  left : p.phase ≠ .looping → p.client.transmit.pc ≠ .aborted ∧ p.recvRunning = false
  /-- The report is about the state as it is. -/
  reported : ∀ r, p.phase = .reported r → r = clientReport env.cntx p.client ∧
    p.running = false ∧ (env.cntx.bidi = true → p.recvEnded = true)

theorem winding_init (tables : FlowTables) (now : UInt64) :
    Winding env (clientProcessInit env tables now) where
  left h := absurd rfl h
  reported r h := by cases h

theorem Winding.step {p : ClientProcess} (h : Winding env p) (input : ClientProcessInput) :
    Winding env (clientProcessStep env p input).1 := by
  have hmove := clientProcessStep_move env p input
  generalize clientProcessStep env p input = next at hmove ⊢
  cases hmove with
  | idle => exact h
  | iterate inp hphase _ _ =>
    exact ⟨fun hne => absurd hphase hne, fun r hr => by rw [hphase] at hr; cases hr⟩
  | leave _ hpc _ => exact ⟨fun _ => ⟨hpc, rfl⟩, fun r hr => by cases hr⟩
  | report hphase hpc hjoin =>
    refine ⟨fun _ => ⟨hpc, (h.left (by rw [hphase]; exact ClientPhase.noConfusion)).2⟩, ?_⟩
    intro r hr
    exact ⟨(ClientPhase.reported.inj hr).symm, rfl, hjoin⟩
  | receive inp hrecv hbidi hpc =>
    refine ⟨fun hne => ⟨?_, (h.left hne).2⟩, fun r hr => ?_⟩
    · rw [clientStep]
      split
      · exact hpc
      · exact hpc
    · have hended := (h.reported r hr).2.2 hbidi
      rw [hrecv] at hended
      cases hended
  | endReceiver _ _ =>
    refine ⟨h.left, fun r hr => ?_⟩
    obtain ⟨h1, h2, -⟩ := h.reported r hr
    exact ⟨h1, h2, fun _ => rfl⟩
  | signal _ =>
    refine ⟨h.left, fun r hr => ?_⟩
    obtain ⟨h1, -, h3⟩ := h.reported r hr
    exact ⟨h1, rfl, h3⟩

theorem winding_run (tables : FlowTables) (now : UInt64) (inputs : List ClientProcessInput) :
    Winding env (final (clientProcessStep env) (clientProcessInit env tables now) inputs) :=
  final_invariant (G := fun _ _ => True) (Winding env) (fun _ input h _ => h.step input)
    (winding_init tables now) (along_of_forall (fun _ _ => trivial) inputs _)

/-- After its report the process keeps still. -/
theorem reported_step {p : ClientProcess} (h : Winding env p) {r : ClientReport}
    (hr : p.phase = .reported r) (input : ClientProcessInput) :
    (clientProcessStep env p input).2 = [] ∧
      (clientProcessStep env p input).1.phase = .reported r := by
  obtain ⟨-, -, hended⟩ := h.reported r hr
  have hmove := clientProcessStep_move env p input
  generalize clientProcessStep env p input = next at hmove ⊢
  cases hmove with
  | iterate inp hphase _ _ => rw [hr] at hphase; cases hphase
  | leave hphase _ _ => rw [hr] at hphase; cases hphase
  | report hphase _ _ => rw [hr] at hphase; cases hphase
  | receive inp hrecv hbidi _ =>
    have hend := hended hbidi
    rw [hrecv] at hend
    cases hend
  | _ => exact ⟨rfl, hr⟩

theorem reported_silent : ∀ {inputs : List ClientProcessInput} {p : ClientProcess}
    {r : ClientReport}, Winding env p → p.phase = .reported r →
    trace (clientProcessStep env) p inputs = []
  | [], _, _, _, _ => rfl
  | input :: inputs, p, r, h, hr => by
    obtain ⟨hnone, hr'⟩ := reported_step h hr input
    rw [trace_cons, hnone, reported_silent (h.step input) hr']
    rfl

end

/--
**The report of a client is final.** In every interleaving of the two threads and of signals, once
`do_client` has printed its report: for each destination `Tx` is the number of packets the driver
took past the warm-up, `failed to push` the number of packets it did not take, and `Rx` the number
of packets the receiver has counted, over the whole run (modulo `2 ^ 64`), and neither thread
receives, sends or counts anything any more.
-/
theorem client_report_final (env : ClientEnv) (tables : FlowTables) (now : UInt64)
    (inputs : List ClientProcessInput) (report : ClientReport)
    (h : (final (clientProcessStep env) (clientProcessInit env tables now) inputs).phase
      = .reported report) :
    let events := trace (clientProcessStep env) (clientProcessInit env tables now) inputs
    report.counts = (env.cntx.dstIps.zipIdx.map fun (ip, k) =>
      (ip, UInt64.ofNat (measuredTx events k).sum, UInt64.ofNat (receivedFrom events k),
        UInt64.ofNat ((measuredTx events k).map (env.cntx.batch.toNat - ·)).sum)) ∧
    ∀ more, trace (clientProcessStep env)
      (final (clientProcessStep env) (clientProcessInit env tables now) inputs) more = [] := by
  intro events
  have hwind := @winding_run env tables now inputs
  have htally := @tally_init_run env tables now inputs
  refine ⟨?_, fun more => reported_silent hwind h⟩
  rw [(hwind.reported report h).1]
  exact htally.counts

/-- A turn of `do_client`; from a burst the driver takes one packet. -/
def clientTurn (pool : Option (Nat → Nat × Mem)) : TransmitInput :=
  { endTime := 1, restartTime := 1, pool := pool, draws := twoDraws, willing := 1 }

/-- A turn of the receiver that finds these frames. -/
def receiverTurnOn (frames : List Mbuf) : ReceiveInput :=
  { waiting := fun _ => frames, now := fun _ => 0, arpAlloc := fun _ => true }

/-- A frame from `10.0.0.2` to everyone. -/
def frameOfServer : Mbuf where
  id := 0
  data := fun i =>
    if i < 6 then 255 else if i = 12 then 8 else if i = 26 then 10 else if i = 29 then 2 else 0
  dataLen := 60
  l2Len := 0
  l3Len := 0
  olFlags := 0

/-- A client sends a burst, receives a packet and is interrupted. -/
def burstThenSignal : List ClientProcessInput :=
  [.transmit (clientTurn (some fun i => (i, fun _ => 0))),
    .receive (receiverTurnOn [frameOfServer]), .signal, .transmit (clientTurn none),
    .receive (receiverTurnOn []), .transmit (clientTurn none)]

/-- Of 32 packets the driver has taken one, and one was received. -/
theorem client_report_final_burst :
    let p := final (clientProcessStep zipfClientEnv)
      (clientProcessInit zipfClientEnv ⟨fun _ => 0, fun _ => 0⟩ 0) burstThenSignal
    ∃ report, p.phase = .reported report ∧ report.counts = [(0x0A000002, 1, 1, 31)] ∧
      ∀ more, trace (clientProcessStep zipfClientEnv) p more = [] := by
  refine ⟨_, rfl, ?_⟩
  obtain ⟨hcounts, hsilent⟩ := client_report_final zipfClientEnv ⟨fun _ => 0, fun _ => 0⟩ 0
    burstThenSignal _ rfl
  refine ⟨hcounts.trans ?_, hsilent⟩
  decide +kernel

/-! ## The way to the report -/

/-- `do_client` and, where there is one, the receiver thread keep getting turns. -/
structure FairThreads (cntx : Context) (schedule : Nat → ClientProcessInput) : Prop where
  transmit : Recurs schedule fun input => ∃ inp, input = .transmit inp
  receive : cntx.bidi = true → Recurs schedule fun input => ∃ inp, input = .receive inp

/-- Nothing keeps the process in its loop. -/
def Leaving (p : ClientProcess) : Prop :=
  p.client.transmit.pc ≠ .aborted ∧ (p.running = false ∨ p.client.transmit.pc = .done)

/-- It is out of the loop. -/
structure Outside (env : ClientEnv) (p : ClientProcess) : Prop where
  winding : Winding env p
  left : p.phase ≠ .looping

section
variable {env : ClientEnv} {tables : FlowTables} {now : UInt64}
  {schedule : Nat → ClientProcessInput}

theorem Leaving.step {p : ClientProcess} (h : Leaving p) (input : ClientProcessInput) :
    Leaving (clientProcessStep env p input).1 := by
  have hmove := clientProcessStep_move env p input
  generalize clientProcessStep env p input = next at hmove ⊢
  obtain ⟨hpc, hstop⟩ := h
  cases hmove with
  | iterate inp _ hrun hloop =>
    rcases hstop with hstop | hstop
    · rw [hrun] at hstop; cases hstop
    · rw [hloop] at hstop; cases hstop
  | receive inp _ _ _ =>
    rw [clientStep]
    split <;> exact ⟨hpc, hstop⟩
  | report _ _ _ => exact ⟨hpc, Or.inl rfl⟩
  | signal _ => exact ⟨hpc, Or.inl rfl⟩
  | _ => exact ⟨hpc, hstop⟩

theorem Outside.step {p : ClientProcess} (h : Outside env p) (input : ClientProcessInput) :
    Outside env (clientProcessStep env p input).1 := by
  refine ⟨h.winding.step input, ?_⟩
  have hmove := clientProcessStep_move env p input
  generalize clientProcessStep env p input = next at hmove ⊢
  cases hmove with
  | leave _ _ _ => exact ClientPhase.noConfusion
  | report _ _ _ => exact ClientPhase.noConfusion
  | _ => exact h.left

/-- An ended receiver stays so. -/
theorem recvEnded_step {p : ClientProcess} (h : p.recvEnded = true) (input : ClientProcessInput) :
    (clientProcessStep env p input).1.recvEnded = true := by
  have hmove := clientProcessStep_move env p input
  generalize clientProcessStep env p input = next at hmove ⊢
  cases hmove with
  | endReceiver _ _ => rfl
  | _ => exact h

/-- A turn of `do_client` takes it out of the loop. -/
theorem outside_of_leaving {p : ClientProcess} (hwind : Winding env p) (hleave : Leaving p)
    (inp : TransmitInput) : Outside env (clientProcessStep env p (.transmit inp)).1 := by
  obtain ⟨hpc, hstop⟩ := hleave
  by_cases hphase : p.phase = .looping
  · refine ⟨hwind.step _, ?_⟩
    have hgo : ¬ (p.running = true ∧ p.client.transmit.pc = .loop) := by
      rintro ⟨hrun, hloop⟩
      rcases hstop with hstop | hstop
      · rw [hrun] at hstop; cases hstop
      · rw [hloop] at hstop; cases hstop
    rw [clientProcessStep, if_neg hpc]
    simp only [ClientProcess.goOn, hphase, if_neg hgo]
    exact ClientPhase.noConfusion
  · exact Outside.step ⟨hwind, hphase⟩ _

/-- Out of the loop, a turn of the receiver thread is its last one. -/
theorem ended_of_outside {p : ClientProcess} (hout : Outside env p) (hbidi : env.cntx.bidi = true)
    (inp : ReceiveInput) : (clientProcessStep env p (.receive inp)).1.recvEnded = true := by
  obtain ⟨hpc, hflag⟩ := hout.winding.left hout.left
  by_cases hended : p.recvEnded = true
  · exact recvEnded_step hended _
  · rw [clientProcessStep, if_neg hpc]
    simp [ClientProcess.receive, hbidi, hended, hflag]

/-- The receiver thread need not be waited for. -/
structure Joined (env : ClientEnv) (p : ClientProcess) : Prop where
  outside : Outside env p
  ended : env.cntx.bidi = true → p.recvEnded = true

theorem Joined.step {p : ClientProcess} (h : Joined env p) (input : ClientProcessInput) :
    Joined env (clientProcessStep env p input).1 :=
  ⟨h.outside.step input, fun hb => recvEnded_step (h.ended hb) input⟩

/-- Then a turn of `do_client` ends with the report. -/
theorem reported_of_joined {p : ClientProcess} (h : Joined env p) (inp : TransmitInput) :
    ∃ r, (clientProcessStep env p (.transmit inp)).1.phase = .reported r := by
  obtain ⟨hout, hjoin⟩ := h
  obtain ⟨hpc, -⟩ := hout.winding.left hout.left
  cases hphase : p.phase with
  | looping => exact absurd hphase hout.left
  | reported r => exact ⟨r, (reported_step hout.winding hphase _).2⟩
  | joining =>
    refine ⟨clientReport env.cntx p.client, ?_⟩
    have hno : ¬ (env.cntx.bidi = true ∧ ¬ p.recvEnded = true) := fun h => h.2 (hjoin h.1)
    rw [clientProcessStep, if_neg hpc]
    simp only [ClientProcess.goOn, hphase, if_neg hno]

/-- The loop is left. -/
theorem leadsTo_outside (hfair : FairThreads env.cntx schedule) :
    LeadsTo (clientProcessStep env) (clientProcessInit env tables now) schedule
      (fun p => Winding env p ∧ Leaving p) (Outside env) := by
  refine LeadsTo.ensures hfair.transmit
    (fun p input h => Or.inl ⟨h.1.step input, h.2.step input⟩) ?_
  rintro p input ⟨hwind, hleave⟩ ⟨inp, rfl⟩
  exact outside_of_leaving hwind hleave inp

/-- The receiver thread ends. -/
theorem leadsTo_joined (hfair : FairThreads env.cntx schedule) :
    LeadsTo (clientProcessStep env) (clientProcessInit env tables now) schedule (Outside env)
      (Joined env) := by
  cases hbidi : env.cntx.bidi with
  | false => exact LeadsTo.of_imp fun p h => ⟨h, fun hb => by rw [hbidi] at hb; cases hb⟩
  | true =>
    refine LeadsTo.ensures (hfair.receive hbidi) (fun p input h => Or.inl (h.step input)) ?_
    rintro p input hout ⟨inp, rfl⟩
    exact ⟨hout.step _, fun _ => ended_of_outside hout hbidi inp⟩

/-- The report is printed. -/
theorem leadsTo_reported (hfair : FairThreads env.cntx schedule) :
    LeadsTo (clientProcessStep env) (clientProcessInit env tables now) schedule (Joined env)
      (fun p => ∃ r, p.phase = .reported r) := by
  refine LeadsTo.ensures hfair.transmit (fun p input h => Or.inl (h.step input)) ?_
  rintro p input hjoined ⟨inp, rfl⟩
  exact reported_of_joined hjoined inp

end

/--
**A client comes to its report.** If `do_client` and its receiver thread keep getting their turns,
the report is printed exactly when at some time the process has not been aborted and either its
time is over or a signal has cleared `cntx->running`. Neither thread can hold up the other.
-/
theorem client_finishes_iff (env : ClientEnv) (tables : FlowTables) (now : UInt64)
    (schedule : Nat → ClientProcessInput) (hfair : FairThreads env.cntx schedule) :
    let p := runAt (clientProcessStep env) (clientProcessInit env tables now) schedule
    (∃ k r, (p k).phase = .reported r) ↔
      ∃ k, (p k).client.transmit.pc ≠ .aborted ∧
        ((p k).running = false ∨ (p k).client.transmit.pc = .done) := by
  intro p
  have hwind : ∀ k, Winding env (p k) := fun k => winding_run tables now _
  constructor
  · rintro ⟨k, r, hr⟩
    obtain ⟨-, hrun, -⟩ := (hwind k).reported r hr
    refine ⟨k, ((hwind k).left ?_).1, Or.inl hrun⟩
    rw [hr]
    exact ClientPhase.noConfusion
  · rintro ⟨k, hleave⟩
    obtain ⟨k', -, hr⟩ := ((leadsTo_outside hfair).trans
      ((leadsTo_joined hfair).trans (leadsTo_reported hfair))) k ⟨hwind k, hleave⟩
    exact ⟨k', hr⟩

/-- A signal, and then the two threads in turn. -/
def signalThenTurns (k : Nat) : ClientProcessInput :=
  if k = 0 then .signal
  else if k % 2 = 0 then .transmit (clientTurn none)
  else .receive (receiverTurnOn [])

/-- The signal is enough for the report. -/
theorem client_finishes_after_signal :
    ∃ k r, (runAt (clientProcessStep zipfClientEnv)
      (clientProcessInit zipfClientEnv ⟨fun _ => 0, fun _ => 0⟩ 0) signalThenTurns k).phase
      = .reported r := by
  refine (client_finishes_iff zipfClientEnv ⟨fun _ => 0, fun _ => 0⟩ 0 signalThenTurns
    ⟨?_, ?_⟩).mpr ⟨1, ClientPc.noConfusion, Or.inl rfl⟩
  · intro k
    refine ⟨2 * k + 2, by omega, ?_⟩
    rw [signalThenTurns, if_neg (by omega), if_pos (by omega)]
    exact ⟨_, rfl⟩
  · intro _ k
    refine ⟨2 * k + 1, by omega, ?_⟩
    rw [signalThenTurns, if_neg (by omega), if_neg (by omega)]
    exact ⟨_, rfl⟩

end DpdkEcho
