import DpdkEcho.Properties.ServerBurst
import DpdkEcho.ServerReport

/-!
# The order of service

* `serverStep_cases` — what an iteration does to the state and to the world
* `serverStep_served` — an iteration echoes, frees and answers what it has received
* `server_serves_in_order` — so does a run, on each queue in the order of arrival
-/

namespace DpdkEcho

open Infra

/-! ## One iteration -/

section
variable (hz : UInt64) (cntx : Context) (st : ServerState) (inp : ServerInput)

/-- The state in which an iteration looks at its queue. -/
def ServerState.atPoll : ServerState := (st.nextQueue cntx).updateThroughput hz inp.currentTime

/-- The two events of a receive call. -/
def pollEvents (bufs : List Mbuf) : List ServerEvent :=
  [.readStatus (selectedQid cntx st) inp.currentTime,
    .rx (selectedQid cntx st) inp.currentTime bufs]

/--
What an iteration does, with the state it leaves: it has ended before, it ends for want of a first
packet, it is too early for its queue, the queue is empty (which may end the server), or there is a
burst to serve.
-/
theorem serverStep_cases :
    (st.run = false ∧ serverStep hz cntx st inp = (st, [])) ∨
    (st.run = true ∧ ¬ keepsWaiting hz st inp ∧
      serverStep hz cntx st inp = ({ st.nextQueue cntx with run := false }, [])) ∨
    (st.run = true ∧ keepsWaiting hz st inp ∧
      st.queueStatus (selectedQid cntx st) > inp.currentTime ∧
      serverStep hz cntx st inp = (st.atPoll hz cntx inp,
        [.readStatus (selectedQid cntx st) inp.currentTime])) ∨
    (st.run = true ∧ keepsWaiting hz st inp ∧
      ¬ st.queueStatus (selectedQid cntx st) > inp.currentTime ∧ inp.waiting = [] ∧
      serverStep hz cntx st inp =
        (if st.firstPkt ∧ inp.currentTime - st.lastPktTime > 2 * hz then
            { st.atPoll hz cntx inp with run := false }
          else st.atPoll hz cntx inp, pollEvents cntx st inp [])) ∨
    (st.run = true ∧ keepsWaiting hz st inp ∧
      ¬ st.queueStatus (selectedQid cntx st) > inp.currentTime ∧ inp.waiting ≠ [] ∧
      serverStep hz cntx st inp =
        ((serveBurst cntx (st.atPoll hz cntx inp) (selectedQid cntx st)
            (rxBurst inp.waiting serverBurstSize) inp).1,
          pollEvents cntx st inp (rxBurst inp.waiting serverBurstSize) ++
            (serveBurst cntx (st.atPoll hz cntx inp) (selectedQid cntx st)
              (rxBurst inp.waiting serverBurstSize) inp).2)) := by
  by_cases hrun : st.run = true
  · right
    by_cases hwait : keepsWaiting hz st inp
    · right
      have hwait' : ¬ (¬ (st.nextQueue cntx).firstPkt = true ∧
          inp.currentTime - (st.nextQueue cntx).expBegin > 60 * hz) := hwait
      have hstep : serverStep hz cntx st inp
          = pollQueue hz cntx (st.atPoll hz cntx inp) (selectedQid cntx st) inp := by
        rw [serverStep, if_neg (not_not.mpr hrun)]
        exact if_neg hwait'
      have hfirst : (st.atPoll hz cntx inp).firstPkt = st.firstPkt := by
        unfold ServerState.atPoll ServerState.updateThroughput
        split <;> rfl
      have hlast : (st.atPoll hz cntx inp).lastPktTime = st.lastPktTime := by
        unfold ServerState.atPoll ServerState.updateThroughput
        split <;> rfl
      have hstatus : (st.atPoll hz cntx inp).queueStatus = st.queueStatus :=
        updateThroughput_queueStatus ..
      rw [hstep, pollQueue]
      by_cases hready : st.queueStatus (selectedQid cntx st) > inp.currentTime
      · exact Or.inl ⟨hrun, hwait, hready, if_pos (by rw [hstatus]; exact hready)⟩
      · right
        rw [if_neg (by rw [hstatus]; exact hready)]
        by_cases hempty : inp.waiting = []
        · left
          refine ⟨hrun, hwait, hready, hempty, ?_⟩
          simp only [hempty, rxBurst, List.take_nil, List.isEmpty_nil, if_true, ← hfirst, ← hlast]
          split <;> rfl
        · right
          refine ⟨hrun, hwait, hready, hempty, ?_⟩
          have hburst : (rxBurst inp.waiting serverBurstSize).isEmpty = false := by
            cases h : inp.waiting with
            | nil => exact absurd h hempty
            | cons b bs => rfl
          simp only [hburst, Bool.false_eq_true, if_false]
          rfl
    · left
      have hgive : ¬ (st.nextQueue cntx).firstPkt = true ∧
          inp.currentTime - (st.nextQueue cntx).expBegin > 60 * hz := not_not.mp hwait
      refine ⟨hrun, hwait, ?_⟩
      rw [serverStep, if_neg (not_not.mpr hrun)]
      exact if_pos hgive
  · left
    exact ⟨Bool.eq_false_iff.mpr hrun, if_pos hrun⟩

end

/-! ## One packet -/

/-- The ARP requests an event list answers. -/
def answeredArps (events : List ServerEvent) : List ArpSend :=
  events.flatMap fun | .arp args => [args] | _ => []

/-- The answers `check_eth_hdr` gives, where it is called at all. -/
def arpAnswers (cntx : Context) (bufs : List Mbuf) : List ArpSend :=
  if cntx.doArp then bufs.filterMap fun b => (checkEthHdr cntx.srcIp cntx.myEth b).reply else []

@[simp] theorem answeredArps_append (e f : List ServerEvent) :
    answeredArps (e ++ f) = answeredArps e ++ answeredArps f := List.flatMap_append

theorem answeredArps_arp (args : List ArpSend) : answeredArps (args.map .arp) = args := by
  rw [answeredArps, List.flatMap_map]
  exact List.flatMap_singleton' args

@[simp] theorem arpAnswers_nil (cntx : Context) : arpAnswers cntx [] = [] := by
  unfold arpAnswers
  split <;> rfl

theorem arpAnswers_append (cntx : Context) (bufs bufs' : List Mbuf) :
    arpAnswers cntx (bufs ++ bufs') = arpAnswers cntx bufs ++ arpAnswers cntx bufs' := by
  unfold arpAnswers
  split
  · exact List.filterMap_append
  · rfl

/-- A packet that is let through is not answered. -/
theorem checkEthHdr_reply_of_valid {myIp : UInt32} {hostMac : EtherAddr} {buf : Mbuf}
    (h : (checkEthHdr myIp hostMac buf).valid = true) :
    (checkEthHdr myIp hostMac buf).reply = none := by
  unfold checkEthHdr at h ⊢
  split at h
  · cases h
  · next hours =>
    rw [if_neg hours]
    split at h
    · split at h <;> cases h
    · next htype => rw [if_neg htype]

section
variable {cntx : Context} (now : UInt64) (st : EchoState) {buf : Mbuf}

/-- An accepted packet is counted, and its time is noted. -/
theorem echoPacket_accepted (hp : passesFilters cntx buf = true) :
    (echoPacket cntx now st buf).1.throughput = st.throughput + 1 ∧
      (echoPacket cntx now st buf).1.firstPkt = true ∧
      (echoPacket cntx now st buf).1.lastPktTime = now := by
  simp only [passesFilters, Bool.and_eq_true, Bool.or_eq_true, Bool.not_eq_true',
    decide_eq_true_eq] at hp
  obtain ⟨⟨hvalid, htype⟩, hip⟩ := hp
  have hcheck : ¬ (cntx.doArp = true ∧ ¬ (checkEthHdr cntx.srcIp cntx.myEth buf).valid = true) := by
    rintro ⟨harp, hinvalid⟩
    rcases hvalid with h | h
    · rw [h] at harp
      cases harp
    · exact hinvalid h
  rw [echoPacket, if_neg hcheck, if_neg (not_not.mpr htype), if_neg (not_not.mpr hip)]
  simp only []
  split <;> exact ⟨rfl, rfl, rfl⟩

/-- A rejected packet changes nothing. -/
theorem echoPacket_rejected (hp : passesFilters cntx buf = false) :
    (echoPacket cntx now st buf).1 = st := by
  rcases echoPacket_cases cntx now st buf with ⟨-, h, -⟩ | ⟨h, -⟩ | ⟨h, -⟩
  · exact h
  · rw [h] at hp; cases hp
  · rw [h] at hp; cases hp

/-- What a packet is answered with is a matter of `check_eth_hdr` alone. -/
theorem echoPacket_arps :
    answeredArps (echoPacket cntx now st buf).2 = arpAnswers cntx [buf] := by
  unfold echoPacket arpAnswers
  simp only []
  by_cases harp : cntx.doArp = true
  · rw [if_pos harp, List.filterMap_cons]
    by_cases hvalid : (checkEthHdr cntx.srcIp cntx.myEth buf).valid = true
    · rw [if_neg (fun h => h.2 hvalid), checkEthHdr_reply_of_valid hvalid]
      split
      · rfl
      · split
        · rfl
        · split <;> rfl
    · rw [if_pos ⟨harp, hvalid⟩, answeredArps_append, answeredArps_arp]
      cases (checkEthHdr cntx.srcIp cntx.myEth buf).reply <;> rfl
  · rw [if_neg harp, if_neg (fun h => harp h.1)]
    split
    · rfl
    · split
      · rfl
      · split <;> rfl

end

/-! ## A burst -/

section
variable (cntx : Context) (now : UInt64)

/-- The counters after the echo loop. -/
theorem echo_counts (bufs : List Mbuf) (st : EchoState) :
    let out := final (echoPacket cntx now) st bufs
    out.throughput = st.throughput + UInt64.ofNat (bufs.countP (passesFilters cntx)) ∧
      out.firstPkt = (st.firstPkt || bufs.any (passesFilters cntx)) ∧
      out.lastPktTime = if bufs.any (passesFilters cntx) then now else st.lastPktTime := by
  induction bufs generalizing st with
  | nil => simp
  | cons b bs ih =>
    obtain ⟨i1, i2, i3⟩ := ih (echoPacket cntx now st b).1
    simp only [final_cons, List.countP_cons, List.any_cons]
    rw [i1, i2, i3]
    by_cases hp : passesFilters cntx b = true
    · obtain ⟨h1, h2, h3⟩ := echoPacket_accepted now st hp
      rw [h1, h2, h3]
      refine ⟨?_, by simp [hp], by simp [hp]⟩
      rw [if_pos hp, UInt64.ofNat_add, UInt64.add_assoc, UInt64.add_comm (UInt64.ofNat _)]
      rfl
    · have hp' : passesFilters cntx b = false := Bool.eq_false_iff.mpr hp
      rw [echoPacket_rejected now st hp']
      simp [hp']

theorem echo_arps (bufs : List Mbuf) (st : EchoState) :
    answeredArps (trace (echoPacket cntx now) st bufs) = arpAnswers cntx bufs := by
  induction bufs generalizing st with
  | nil => simp [answeredArps]
  | cons b bs ih =>
    rw [trace_cons, answeredArps_append, ih, echoPacket_arps, ← arpAnswers_append]
    rfl

end

section
variable (qid : Nat)

/-- The packets received on a queue. -/
def receivedOn (events : List ServerEvent) : List Mbuf :=
  events.flatMap fun | .rx q _ bufs => if q = qid then bufs else [] | _ => []

/-- The packets handed to the driver on a queue. -/
def sentOn (events : List ServerEvent) : List Mbuf :=
  events.flatMap fun | .tx q taken => if q = qid then taken else [] | _ => []

@[simp] theorem receivedOn_append (e f : List ServerEvent) :
    receivedOn qid (e ++ f) = receivedOn qid e ++ receivedOn qid f := List.flatMap_append

@[simp] theorem sentOn_append (e f : List ServerEvent) :
    sentOn qid (e ++ f) = sentOn qid e ++ sentOn qid f := List.flatMap_append

/-- Where all transmissions are on one queue, that queue has sent everything and the others
nothing. -/
theorem sentOn_of_forall {q : Nat} {events : List ServerEvent}
    (h : ∀ e ∈ events, ∀ q' taken, e = .tx q' taken → q' = q) :
    sentOn qid events = if q = qid then sentBufs events else [] := by
  induction events with
  | nil =>
    split <;> rfl
  | cons e es ih =>
    have hes := ih fun e' he' => h e' (List.mem_cons_of_mem e he')
    rw [show sentOn qid (e :: es) = _ from sentOn_append qid [e] es, hes,
      show sentBufs (e :: es) = _ from sentBufs_append [e] es]
    cases e with
    | tx q' taken =>
      rw [h _ List.mem_cons_self q' taken rfl]
      split <;> simp [sentOn, sentBufs, *]
    | _ => simp [sentOn, sentBufs]

end

/-- Serving a burst receives nothing. -/
theorem serveBurst_rx_nil {cntx : Context} {st : ServerState} {qid : Nat} {bufs : List Mbuf}
    {inp : ServerInput} {q : Nat} {now : UInt64} {read : List Mbuf}
    (he : .rx q now read ∈ (serveBurst cntx st qid bufs inp).2) : read = [] :=
  List.flatMap_eq_nil_iff.mp (serveBurst_received cntx st qid bufs inp) _ he

/-- The echo loop does not transmit, and the retry loop does so on the queue of the burst. -/
theorem serveBurst_tx_queue (cntx : Context) (st : ServerState) (qid : Nat) (bufs : List Mbuf)
    (inp : ServerInput) :
    ∀ e ∈ (serveBurst cntx st qid bufs inp).2, ∀ q taken, e = .tx q taken → q = qid := by
  have hecho : ∀ e ∈ trace (echoPacket cntx inp.currentTime) st.echoStart bufs,
      ∀ q taken, e = .tx q taken → q = qid := by
    have hact : ∀ (s : EchoState) (b : Mbuf), ∀ e ∈ (echoPacket cntx inp.currentTime s b).2,
        ∀ q taken, e ≠ .tx q taken := by
      intro s b e he q taken htx
      rw [htx] at he
      rcases echoPacket_cases cntx inp.currentTime s b with
        ⟨-, -, args, h⟩ | ⟨-, -, -, -, h⟩ | ⟨-, -, -, -, h⟩ <;> rw [h] at he <;> simp at he
    intro e he q taken htx
    have hall := trace_forall (G := fun _ _ => True) (fun _ : EchoState => True)
      (fun e => ∀ q taken, e ≠ .tx q taken) (fun _ _ _ _ => trivial)
      (fun s b _ _ => hact s b) trivial (along_of_forall (fun _ _ => trivial) bufs _) e he
    exact absurd htx (hall q taken)
  have hretry : ∀ (t : TxState) (w : Nat), ∀ e ∈ (txRetry qid t w).2,
      ∀ q taken, e = .tx q taken → q = qid := by
    intro t w e he q taken htx
    unfold txRetry at he
    split at he
    · cases he
    · rw [htx] at he
      cases List.mem_singleton.mp he
      rfl
  have hloop : ∀ (ws : List Nat) (t : TxState), ∀ e ∈ (txLoop qid ws t).2,
      ∀ q taken, e = .tx q taken → q = qid := by
    intro ws
    induction ws with
    | nil => exact fun t => hretry t t.k
    | cons w ws ih =>
      intro t e he
      rcases List.mem_append.mp he with he | he
      · exact hretry t w e he
      · exact ih _ e he
  intro e he
  cases hb : cntx.bidi with
  | false =>
    rw [serveBurst_unidir _ _ _ _ _ hb] at he
    exact hecho e he
  | true =>
    obtain ⟨deadline, h⟩ := serveBurst_bidi cntx st qid bufs inp hb
    rw [h] at he
    rcases List.mem_append.mp he with he | he
    · rcases List.mem_append.mp he with he | he
      · exact hecho e he
      · rw [List.mem_singleton.mp he]
        exact fun q taken htx => by cases htx
    · exact hloop _ _ e he

/-! ## Order of service -/

/-- The packets a server sends for the packets `bufs`. -/
def echoes (cntx : Context) (bufs : List Mbuf) : List Mbuf :=
  if cntx.bidi then (bufs.filter (passesFilters cntx)).map (echoRewrite cntx.useVlan) else []

/-- The packets it does not send anything for. -/
def discards (cntx : Context) (bufs : List Mbuf) : List Mbuf :=
  bufs.filter fun b => !(cntx.bidi && passesFilters cntx b)

theorem echoes_append (cntx : Context) (bufs bufs' : List Mbuf) :
    echoes cntx (bufs ++ bufs') = echoes cntx bufs ++ echoes cntx bufs' := by
  unfold echoes
  split
  · rw [List.filter_append, List.map_append]
  · rfl

@[simp] theorem echoes_nil (cntx : Context) : echoes cntx [] = [] := by
  unfold echoes
  split <;> rfl

/-- Everything that was received has been dealt with: on each queue the echoes of what came in have
gone out in that order, the rest is freed, and the ARP requests are answered in order. -/
structure Served (cntx : Context) (events : List ServerEvent) : Prop where
  echoed : ∀ q, sentOn q events = echoes cntx (receivedOn q events)
  freed : freedBufs events = discards cntx (receivedBufs events)
  answered : answeredArps events = arpAnswers cntx (receivedBufs events)

theorem Served.nil (cntx : Context) : Served cntx [] where
  echoed _ := (echoes_nil cntx).symm
  freed := rfl
  answered := (arpAnswers_nil cntx).symm

theorem Served.append {cntx : Context} {e f : List ServerEvent} (he : Served cntx e)
    (hf : Served cntx f) : Served cntx (e ++ f) where
  echoed q := by rw [sentOn_append, receivedOn_append, echoes_append, he.echoed, hf.echoed]
  freed := by
    rw [freedBufs_append, receivedBufs_append, discards, List.filter_append, he.freed, hf.freed]
    rfl
  answered := by
    rw [answeredArps_append, receivedBufs_append, arpAnswers_append, he.answered, hf.answered]

/-- The accepted packets of an iteration fit into `tx_buf`. -/
def FitsTxBuf (hz : UInt64) (cntx : Context) (st : ServerState) (inp : ServerInput) : Prop :=
  (receivedBufs (serverStep hz cntx st inp).2).countP (passesFilters cntx) ≤ txBufSize

section
variable {hz : UInt64} {cntx : Context} {st : ServerState} {inp : ServerInput}

theorem serveBurst_arps (qid : Nat) (bufs : List Mbuf) :
    answeredArps (serveBurst cntx st qid bufs inp).2 = arpAnswers cntx bufs := by
  have hretry : ∀ (t : TxState) (w : Nat), answeredArps (txRetry qid t w).2 = [] := by
    intro t w
    unfold txRetry
    split <;> rfl
  have hloop : ∀ (ws : List Nat) (t : TxState), answeredArps (txLoop qid ws t).2 = [] := by
    intro ws
    induction ws with
    | nil => exact fun t => hretry t t.k
    | cons w ws ih =>
      intro t
      rw [txLoop]
      simp only [answeredArps_append, hretry, ih, List.append_nil]
  cases hb : cntx.bidi with
  | false => rw [serveBurst_unidir _ _ _ _ _ hb, echo_arps]
  | true =>
    obtain ⟨deadline, h⟩ := serveBurst_bidi cntx st qid bufs inp hb
    rw [h, answeredArps_append, answeredArps_append, echo_arps, hloop, List.append_nil]
    exact List.append_nil _

theorem serverStep_arps :
    answeredArps (serverStep hz cntx st inp).2
      = arpAnswers cntx (receivedBufs (serverStep hz cntx st inp).2) := by
  rcases serverStep_cases hz cntx st inp with
    ⟨-, h⟩ | ⟨-, -, h⟩ | ⟨-, -, -, h⟩ | ⟨-, -, -, -, h⟩ | ⟨-, -, -, -, h⟩
  · rw [h]; exact (arpAnswers_nil cntx).symm
  · rw [h]; exact (arpAnswers_nil cntx).symm
  · rw [h]; exact (arpAnswers_nil cntx).symm
  · rw [h]; exact (arpAnswers_nil cntx).symm
  · rw [h, answeredArps_append, receivedBufs_append, serveBurst_arps, serveBurst_received,
      List.append_nil]
    simp [pollEvents, answeredArps, receivedBufs]

/-- An iteration transmits on the queue it has selected. -/
theorem serverStep_tx_queue {q : Nat} {taken : List Mbuf}
    (he : .tx q taken ∈ (serverStep hz cntx st inp).2) : q = selectedQid cntx st := by
  rcases serverStep_cases hz cntx st inp with
    ⟨-, h⟩ | ⟨-, -, h⟩ | ⟨-, -, -, h⟩ | ⟨-, -, -, -, h⟩ | ⟨-, -, -, -, h⟩
  · rw [h] at he; cases he
  · rw [h] at he; cases he
  · rw [h] at he; simp at he
  · rw [h] at he; simp [pollEvents] at he
  · rw [h] at he
    rcases List.mem_append.mp he with he | he
    · simp [pollEvents] at he
    · exact serveBurst_tx_queue cntx _ _ _ _ _ he q taken rfl

/-- An iteration receives and sends on the queue it has selected, and on no other. -/
theorem serverStep_queue (q : Nat) :
    receivedOn q (serverStep hz cntx st inp).2 =
        (if selectedQid cntx st = q then receivedBufs (serverStep hz cntx st inp).2 else []) ∧
      sentOn q (serverStep hz cntx st inp).2 =
        (if selectedQid cntx st = q then sentBufs (serverStep hz cntx st inp).2 else []) := by
  rcases serverStep_cases hz cntx st inp with
    ⟨-, h⟩ | ⟨-, -, h⟩ | ⟨-, -, -, h⟩ | ⟨-, -, -, -, h⟩ | ⟨-, -, -, -, h⟩
  · rw [h]; constructor <;> split <;> rfl
  · rw [h]; constructor <;> split <;> rfl
  · rw [h]; constructor <;> split <;> rfl
  · rw [h]
    simp [pollEvents, receivedOn, receivedBufs, sentOn, sentBufs]
  · have hnone : receivedOn q (serveBurst cntx (st.atPoll hz cntx inp) (selectedQid cntx st)
        (rxBurst inp.waiting serverBurstSize) inp).2 = [] := by
      refine List.flatMap_eq_nil_iff.mpr fun e he => ?_
      cases e with
      | rx q' now read =>
        rw [serveBurst_rx_nil he]
        exact ite_self _
      | _ => rfl
    constructor
    · rw [h, receivedOn_append, hnone, receivedBufs_append, serveBurst_received]
      simp [pollEvents, receivedOn, receivedBufs]
    · refine sentOn_of_forall q fun e he q' taken htx => ?_
      rw [htx] at he
      exact serverStep_tx_queue he

/-- **One iteration deals with what it has received.** -/
theorem serverStep_served (hk : FitsTxBuf hz cntx st inp) :
    Served cntx (serverStep hz cntx st inp).2 := by
  obtain ⟨hbidi, hunidir⟩ := serverStep_freed_sent hz cntx st inp hk
  refine ⟨fun q => ?_, ?_, serverStep_arps⟩
  · obtain ⟨hrecv, hsent⟩ := @serverStep_queue hz cntx st inp q
    rw [hrecv, hsent]
    by_cases hq : selectedQid cntx st = q
    · rw [if_pos hq, if_pos hq, echoes]
      cases hb : cntx.bidi with
      | false => rw [(hunidir hb).2]; rfl
      | true => rw [(hbidi hb).2]; rfl
    · rw [if_neg hq, if_neg hq, echoes_nil]
  · rw [discards]
    cases hb : cntx.bidi with
    | false =>
      rw [(hunidir hb).1]
      simp
    | true =>
      rw [(hbidi hb).1]
      simp

end

/--
**Order of service.** In every run of a server worker whose bursts fit into `tx_buf`, on each queue
the packets handed to the driver are the accepted packets of that queue, rewritten, each once and in
the order in which they arrived, however many calls the driver needs; every other packet is freed;
and each ARP request for the server is answered once, in order of arrival.
-/
theorem server_serves_in_order (hz : UInt64) (cntx : Context) (st : ServerState)
    (inputs : List ServerInput)
    (hfit : Along (serverStep hz cntx) (FitsTxBuf hz cntx) st inputs) :
    Served cntx (trace (serverStep hz cntx) st inputs) :=
  trace_closed (Served cntx) (Served.nil cntx) (fun _ _ he hf => he.append hf)
    (fun _ _ hk => serverStep_served hk) hfit

/-- An iteration reads from the front of a queue. -/
theorem serverStep_received_front (hz : UInt64) (cntx : Context) (st : ServerState)
    (inp : ServerInput) : receivedBufs (serverStep hz cntx st inp).2 <+: inp.waiting := by
  rcases serverStep_cases hz cntx st inp with
    ⟨-, h⟩ | ⟨-, -, h⟩ | ⟨-, -, -, h⟩ | ⟨-, -, -, -, h⟩ | ⟨-, -, -, -, h⟩
  · rw [h]; exact List.nil_prefix
  · rw [h]; exact List.nil_prefix
  · rw [h]; exact List.nil_prefix
  · rw [h]; exact List.nil_prefix
  · rw [h, receivedBufs_append, serveBurst_received, List.append_nil]
    simpa [receivedBufs, pollEvents, rxBurst] using List.take_prefix _ _

/-- So a queue with at most 64 packets is no danger to `tx_buf`. -/
theorem fitsTxBuf_of_waiting {hz : UInt64} {cntx : Context} {st : ServerState} {inp : ServerInput}
    (h : inp.waiting.length ≤ txBufSize) : FitsTxBuf hz cntx st inp :=
  (List.countP_le_length.trans (serverStep_received_front hz cntx st inp).length_le).trans h

/-- Two bursts, the first of which the driver takes in three calls. -/
def twoBursts : List ServerInput := [{ sampleInput 3 with willing := [1, 0] }, sampleInput 2]

theorem server_serves_in_order_sample :
    Served sampleServer (trace (serverStep 1000 sampleServer) sampleState twoBursts) := by
  refine server_serves_in_order 1000 sampleServer sampleState twoBursts (along_of_mem ?_)
  intro inp hinp st
  refine fitsTxBuf_of_waiting ?_
  simp only [twoBursts, List.mem_cons, List.not_mem_nil, or_false] at hinp
  rcases hinp with rfl | rfl <;> decide

end DpdkEcho
