import Mathlib.Data.Int.ModEq
import DpdkEcho.Properties.ServerOrder

/-!
# The reports of the server and its end

What a server worker prints and when it stops depends on a few counters and times. Both are stated
in terms of what the worker has received.

* `server_reports_complete` — the reports account for every packet
* `server_stops_iff` — the server stops when, and only when, it has waited for long enough
-/

namespace DpdkEcho

open Infra

/-! ## Reports -/

section
variable {hz : UInt64} {cntx : Context} {st : ServerState} {inp : ServerInput}

theorem atPoll_fields :
    (st.atPoll hz cntx inp).run = st.run ∧ (st.atPoll hz cntx inp).firstPkt = st.firstPkt ∧
      (st.atPoll hz cntx inp).lastPktTime = st.lastPktTime ∧
      (st.atPoll hz cntx inp).expBegin = st.expBegin := by
  unfold ServerState.atPoll ServerState.updateThroughput
  split <;> exact ⟨rfl, rfl, rfl, rfl⟩

/-- The throughput starts over with each report. -/
theorem atPoll_throughput (hrun : st.run = true) (hwait : keepsWaiting hz st inp) :
    (st.atPoll hz cntx inp).throughput = if reportDue hz st inp then 0 else st.throughput := by
  unfold ServerState.atPoll ServerState.updateThroughput
  by_cases hlate : inp.currentTime - st.startTime > hz
  · rw [if_pos (show reportDue hz st inp from ⟨hrun, hwait, hlate⟩), if_pos]
    exact hlate
  · rw [if_neg (show ¬ reportDue hz st inp from fun h => hlate h.2.2), if_neg]
    · rfl
    · exact hlate

/-- What a burst leaves in the variables of the loop. -/
theorem serveBurst_counts (qid : Nat) (bufs : List Mbuf) :
    (serveBurst cntx st qid bufs inp).1.throughput
        = st.throughput + UInt64.ofNat (bufs.countP (passesFilters cntx)) ∧
      (serveBurst cntx st qid bufs inp).1.firstPkt
        = (st.firstPkt || bufs.any (passesFilters cntx)) ∧
      (serveBurst cntx st qid bufs inp).1.lastPktTime
        = (if bufs.any (passesFilters cntx) then inp.currentTime else st.lastPktTime) ∧
      (serveBurst cntx st qid bufs inp).1.run = st.run ∧
      (serveBurst cntx st qid bufs inp).1.expBegin = st.expBegin := by
  obtain ⟨h1, h2, h3⟩ := echo_counts cntx inp.currentTime bufs st.echoStart
  unfold serveBurst
  simp only []
  split
  · exact ⟨h1, h2, h3, rfl, rfl⟩
  · exact ⟨h1, h2, h3, rfl, rfl⟩

/-- **The throughput of an iteration**: what it was, unless it was reported, and the packets that
were accepted. -/
theorem serverStep_throughput :
    (serverStep hz cntx st inp).1.throughput =
      (if reportDue hz st inp then 0 else st.throughput) +
        UInt64.ofNat
          ((receivedBufs (serverStep hz cntx st inp).2).countP (passesFilters cntx)) := by
  rcases serverStep_cases hz cntx st inp with
    ⟨hrun, h⟩ | ⟨-, hwait, h⟩ | ⟨hrun, hwait, -, h⟩ | ⟨hrun, hwait, -, -, h⟩ |
    ⟨hrun, hwait, -, -, h⟩
  · have hnone : ¬ reportDue hz st inp := fun hd => by
      have hrun' := hd.1
      rw [hrun] at hrun'
      cases hrun'
    rw [if_neg hnone, h]
    simp [receivedBufs]
  · rw [if_neg (fun hd => hwait hd.2.1), h]
    simp [receivedBufs, ServerState.nextQueue]
  · rw [← @atPoll_throughput hz cntx st inp hrun hwait, h]
    simp [receivedBufs]
  · rw [← @atPoll_throughput hz cntx st inp hrun hwait, h]
    split <;> simp [receivedBufs, pollEvents]
  · rw [← @atPoll_throughput hz cntx st inp hrun hwait, h, receivedBufs_append,
      serveBurst_received, List.append_nil, (serveBurst_counts _ _).1]
    simp [receivedBufs, pollEvents]

end

/-- The number of bursts that were not empty. -/
def burstCount (events : List ServerEvent) : Nat :=
  events.countP fun | .rx _ _ bufs => !bufs.isEmpty | _ => false

theorem burstCount_append (e f : List ServerEvent) :
    burstCount (e ++ f) = burstCount e + burstCount f := List.countP_append

/-- An iteration reads at most one burst. -/
theorem serverStep_burstCount (hz : UInt64) (cntx : Context) (st : ServerState)
    (inp : ServerInput) :
    burstCount (serverStep hz cntx st inp).2 =
      if (receivedBufs (serverStep hz cntx st inp).2).length = 0 then 0 else 1 := by
  have hserve : ∀ st' q bufs, burstCount (serveBurst cntx st' q bufs inp).2 = 0 := by
    intro st' q bufs
    refine List.countP_eq_zero.mpr fun e he => ?_
    cases e with
    | rx q' now read => simp [serveBurst_rx_nil he]
    | _ => simp
  rcases serverStep_cases hz cntx st inp with
    ⟨-, h⟩ | ⟨-, -, h⟩ | ⟨-, -, -, h⟩ | ⟨-, -, -, -, h⟩ | ⟨-, -, -, hne, h⟩
  · rw [h]; rfl
  · rw [h]; rfl
  · rw [h]; rfl
  · rw [h]; rfl
  · rw [h, burstCount_append, hserve, receivedBufs_append, serveBurst_received, List.append_nil]
    cases hw : inp.waiting with
    | nil => exact absurd hw hne
    | cons b bs => rfl

/-- `int` arithmetic is arithmetic modulo `2 ^ 32`. -/
theorem wrapSigned_modEq (x : Int) : wrapSigned 32 x ≡ x [ZMOD 2 ^ 32] := by
  rw [wrapSigned]
  exact Int.bmod_emod

/-- The counters after a burst of `n` packets. -/
theorem BurstStats.add_modEq (stats : BurstStats) (n : Nat) :
    (stats.add n).sumNbRx ≡ stats.sumNbRx + n [ZMOD 2 ^ 32] ∧
      (stats.add n).countRx ≡ stats.countRx + (if n = 0 then 0 else 1) [ZMOD 2 ^ 32] := by
  unfold BurstStats.add
  by_cases hn : n = 0
  · subst hn
    simp
  · rw [if_neg hn, if_neg hn]
    exact ⟨wrapSigned_modEq _, wrapSigned_modEq _⟩

/-- What the reports of a run say and what is left for the next one, against what the worker saw. -/
structure Accounted (cntx : Context) (start fin : ServerState × BurstStats) (reports : List Report)
    (events : List ServerEvent) : Prop where
  packets : (reports.map fun r => r.throughput.toNat).sum + fin.1.throughput.toNat ≡
    start.1.throughput.toNat + (receivedBufs events).countP (passesFilters cntx) [MOD 2 ^ 64]
  received : (reports.map fun r => r.stats.sumNbRx).sum + fin.2.sumNbRx ≡
    start.2.sumNbRx + (receivedBufs events).length [ZMOD 2 ^ 32]
  bursts : (reports.map fun r => r.stats.countRx).sum + fin.2.countRx ≡
    start.2.countRx + burstCount events [ZMOD 2 ^ 32]

theorem Accounted.refl (cntx : Context) (s : ServerState × BurstStats) :
    Accounted cntx s s [] [] where
  packets := by simp [receivedBufs, Nat.ModEq]
  received := by simp [receivedBufs]
  bursts := by simp [burstCount]

theorem Accounted.trans {cntx : Context} {s1 s2 s3 : ServerState × BurstStats}
    {reports reports' : List Report} {events events' : List ServerEvent}
    (h : Accounted cntx s1 s2 reports events) (h' : Accounted cntx s2 s3 reports' events') :
    Accounted cntx s1 s3 (reports ++ reports') (events ++ events') where
  packets := by
    have h1 := h.packets
    have h2 := h'.packets
    simp only [List.map_append, List.sum_append, receivedBufs_append, List.countP_append]
    unfold Nat.ModEq at h1 h2 ⊢
    omega
  received := by
    have h1 := h.received
    have h2 := h'.received
    simp only [List.map_append, List.sum_append, receivedBufs_append, List.length_append]
    unfold Int.ModEq at h1 h2 ⊢
    push_cast
    omega
  bursts := by
    have h1 := h.bursts
    have h2 := h'.bursts
    simp only [List.map_append, List.sum_append, burstCount_append]
    unfold Int.ModEq at h1 h2 ⊢
    push_cast
    omega

/-- **One iteration.** A report takes the counters along, and what is received is added to them. -/
theorem reportingStep_accounted (hz : UInt64) (cntx : Context) (s : ServerState × BurstStats)
    (inp : ServerInput) :
    Accounted cntx s (reportingStep hz cntx s inp).1 (reportingStep hz cntx s inp).2
      (serverStep hz cntx s.1 inp).2 := by
  have htp := @serverStep_throughput hz cntx s.1 inp
  have hbursts := serverStep_burstCount hz cntx s.1 inp
  unfold reportingStep
  by_cases hdue : reportDue hz s.1 inp
  · obtain ⟨hsum, hcount⟩ := BurstStats.add_modEq ⟨0, 0⟩
      (receivedBufs (serverStep hz cntx s.1 inp).2).length
    rw [if_pos hdue, UInt64.zero_add] at htp
    simp only [if_pos hdue]
    refine ⟨?_, ?_, ?_⟩
    · simp only [htp, List.map_cons, List.map_nil, List.sum_cons, List.sum_nil, add_zero]
      exact Nat.ModEq.add_left _ (Nat.mod_modEq _ _)
    · simpa using Int.ModEq.add_left s.2.sumNbRx hsum
    · rw [hbursts]
      simpa using Int.ModEq.add_left s.2.countRx hcount
  · obtain ⟨hsum, hcount⟩ := BurstStats.add_modEq s.2
      (receivedBufs (serverStep hz cntx s.1 inp).2).length
    rw [if_neg hdue] at htp
    simp only [if_neg hdue]
    refine ⟨?_, ?_, ?_⟩
    · simp only [htp, List.map_nil, List.sum_nil, zero_add, UInt64.toNat_add,
        UInt64.toNat_ofNat']
      exact (Nat.mod_modEq _ _).trans (Nat.ModEq.add_left _ (Nat.mod_modEq _ _))
    · simpa using hsum
    · rw [hbursts]
      simpa using hcount

/-- A run with reports is a run. -/
theorem reportingStep_accounted_run (hz : UInt64) (cntx : Context) : ∀ (inputs : List ServerInput)
    (s : ServerState × BurstStats),
    (final (reportingStep hz cntx) s inputs).1 = final (serverStep hz cntx) s.1 inputs ∧
    Accounted cntx s (final (reportingStep hz cntx) s inputs)
      (trace (reportingStep hz cntx) s inputs) (trace (serverStep hz cntx) s.1 inputs)
  | [], s => ⟨rfl, Accounted.refl cntx s⟩
  | inp :: inputs, s => by
    have hstate : (reportingStep hz cntx s inp).1.1 = (serverStep hz cntx s.1 inp).1 := by
      unfold reportingStep
      simp only []
      split <;> rfl
    obtain ⟨ih1, ih2⟩ := reportingStep_accounted_run hz cntx inputs (reportingStep hz cntx s inp).1
    rw [hstate] at ih1 ih2
    exact ⟨ih1, (reportingStep_accounted hz cntx s inp).trans ih2⟩

/--
**The reports account for every packet.** In every run of a server worker, of any length, the
throughputs it prints and the one it has not printed yet add up to the number of packets it
accepted; the sums and counts behind the averages add up to the packets and to the bursts that were
received. All counters are taken modulo their width. The first packet, which starts the clock of
the reports, is not lost, and neither are packets accepted in the iteration of a report.
-/
theorem server_reports_complete (hz : UInt64) (cntx : Context) (now : UInt64)
    (stack : Nat → UInt64) (txBuf : Nat → Mbuf) (inputs : List ServerInput) :
    let start := serverInit cntx now stack txBuf
    let reports := trace (reportingStep hz cntx) (start, ⟨0, 0⟩) inputs
    let fin := final (reportingStep hz cntx) (start, ⟨0, 0⟩) inputs
    let events := trace (serverStep hz cntx) start inputs
    (reports.map fun r => r.throughput.toNat).sum + fin.1.throughput.toNat ≡
        (receivedBufs events).countP (passesFilters cntx) [MOD 2 ^ 64] ∧
      (reports.map fun r => r.stats.sumNbRx).sum + fin.2.sumNbRx ≡
        (receivedBufs events).length [ZMOD 2 ^ 32] ∧
      (reports.map fun r => r.stats.countRx).sum + fin.2.countRx ≡
        burstCount events [ZMOD 2 ^ 32] := by
  intro start reports fin events
  obtain ⟨-, hacc⟩ := reportingStep_accounted_run hz cntx inputs (start, ⟨0, 0⟩)
  have hzero : start.throughput.toNat = 0 := rfl
  refine ⟨?_, ?_, ?_⟩
  · simpa [hzero] using hacc.packets
  · simpa using hacc.received
  · simpa using hacc.bursts

/-! ## The end of a run -/

/-- The times of the receive calls that brought an accepted packet. -/
def acceptTimes (cntx : Context) (events : List ServerEvent) : List UInt64 :=
  events.flatMap fun
    | .rx _ now bufs => if bufs.any (passesFilters cntx) then [now] else []
    | _ => []

theorem acceptTimes_append (cntx : Context) (e f : List ServerEvent) :
    acceptTimes cntx (e ++ f) = acceptTimes cntx e ++ acceptTimes cntx f := List.flatMap_append

/-- `first_pkt` and `last_pkt_time` are what the events say, and `exp_begin` does not change. -/
structure Remembers (cntx : Context) (st st' : ServerState) (events : List ServerEvent) : Prop where
  first : st'.firstPkt = (st.firstPkt || !(acceptTimes cntx events).isEmpty)
  last : st'.lastPktTime = (acceptTimes cntx events).getLast?.getD st.lastPktTime
  begin : st'.expBegin = st.expBegin

theorem Remembers.trans {cntx : Context} {s1 s2 s3 : ServerState} {e f : List ServerEvent}
    (h : Remembers cntx s1 s2 e) (h' : Remembers cntx s2 s3 f) :
    Remembers cntx s1 s3 (e ++ f) where
  first := by
    rw [h'.first, h.first, acceptTimes_append]
    cases acceptTimes cntx e <;> simp
  last := by
    rw [h'.last, h.last, acceptTimes_append, List.getLast?_append]
    cases (acceptTimes cntx f).getLast? <;> rfl
  begin := h'.begin.trans h.begin

/-- An iteration that reads no packet remembers what it knew. -/
theorem Remembers.idle {cntx : Context} {st st' : ServerState} {events : List ServerEvent}
    (hnone : acceptTimes cntx events = []) (hfirst : st'.firstPkt = st.firstPkt)
    (hlast : st'.lastPktTime = st.lastPktTime) (hbegin : st'.expBegin = st.expBegin) :
    Remembers cntx st st' events :=
  ⟨by rw [hnone, hfirst]; simp, by rw [hnone, hlast]; rfl, hbegin⟩

theorem serverStep_remembers (hz : UInt64) (cntx : Context) (st : ServerState)
    (inp : ServerInput) :
    Remembers cntx st (serverStep hz cntx st inp).1 (serverStep hz cntx st inp).2 := by
  obtain ⟨-, hfirst, hlast, hbegin⟩ := @atPoll_fields hz cntx st inp
  rcases serverStep_cases hz cntx st inp with
    ⟨-, h⟩ | ⟨-, -, h⟩ | ⟨-, -, -, h⟩ | ⟨-, -, -, -, h⟩ | ⟨-, -, -, -, h⟩
  · rw [h]; exact .idle rfl rfl rfl rfl
  · rw [h]; exact .idle rfl rfl rfl rfl
  · rw [h]; exact .idle rfl hfirst hlast hbegin
  · rw [h]
    refine .idle rfl ?_ ?_ ?_
    · split <;> exact hfirst
    · split <;> exact hlast
    · split <;> exact hbegin
  · obtain ⟨-, h1, h2, -, h3⟩ := @serveBurst_counts cntx (st.atPoll hz cntx inp) inp
      (selectedQid cntx st) (rxBurst inp.waiting serverBurstSize)
    have hserve : acceptTimes cntx (serveBurst cntx (st.atPoll hz cntx inp) (selectedQid cntx st)
        (rxBurst inp.waiting serverBurstSize) inp).2 = [] := by
      refine List.flatMap_eq_nil_iff.mpr fun e he => ?_
      cases e with
      | rx q' now read => simp [serveBurst_rx_nil he]
      | _ => rfl
    have htimes : acceptTimes cntx (serverStep hz cntx st inp).2 =
        if (rxBurst inp.waiting serverBurstSize).any (passesFilters cntx) then [inp.currentTime]
        else [] := by
      rw [h, acceptTimes_append, hserve, List.append_nil]
      simp [acceptTimes, pollEvents]
    refine ⟨?_, ?_, ?_⟩
    · rw [htimes, h, h1, hfirst]
      split <;> simp [*]
    · rw [htimes, h, h2, hlast]
      split <;> rfl
    · rw [h]
      exact h3.trans hbegin

theorem serverRun_remembers (hz : UInt64) (cntx : Context) : ∀ (inputs : List ServerInput)
    (st : ServerState), Remembers cntx st (final (serverStep hz cntx) st inputs)
      (trace (serverStep hz cntx) st inputs)
  | [], _ => .idle rfl rfl rfl rfl
  | inp :: inputs, st =>
    (serverStep_remembers hz cntx st inp).trans (serverRun_remembers hz cntx inputs _)

/--
**When a server stops.** A worker that has run through any sequence of iterations stops in the next
one exactly when it has never accepted a packet and was started more than 60 seconds ago, or when
the last packet it accepted came more than two seconds ago and the queue whose turn it is can be
read and is empty.
-/
theorem server_stops_iff (hz : UInt64) (cntx : Context) (now : UInt64) (stack : Nat → UInt64)
    (txBuf : Nat → Mbuf) (inputs : List ServerInput) (inp : ServerInput)
    (hrun : (final (serverStep hz cntx) (serverInit cntx now stack txBuf) inputs).run = true) :
    let st := final (serverStep hz cntx) (serverInit cntx now stack txBuf) inputs
    let accepted := acceptTimes cntx
      (trace (serverStep hz cntx) (serverInit cntx now stack txBuf) inputs)
    (serverStep hz cntx st inp).1.run = false ↔
      match accepted.getLast? with
      | none => inp.currentTime - now > 60 * hz
      | some t => inp.currentTime - t > 2 * hz ∧ inp.waiting = [] ∧
          st.queueStatus (selectedQid cntx st) ≤ inp.currentTime := by
  intro st accepted
  have hmem : Remembers cntx (serverInit cntx now stack txBuf) st _ :=
    serverRun_remembers hz cntx inputs _
  have hbegin : st.expBegin = now := hmem.begin
  have hfirst : st.firstPkt = !accepted.isEmpty := hmem.first
  have hlast : st.lastPktTime = accepted.getLast?.getD 0 := hmem.last
  have hpoll : (st.atPoll hz cntx inp).run = true := atPoll_fields.1.trans hrun
  cases hacc : accepted.getLast? with
  | none =>
    have hfalse : st.firstPkt = false := by
      rw [hfirst, List.getLast?_eq_none_iff.mp hacc]
      rfl
    have hiff : keepsWaiting hz st inp ↔ ¬ inp.currentTime - now > 60 * hz := by
      simp [keepsWaiting, hfalse, hbegin]
    rcases serverStep_cases hz cntx st inp with
      ⟨hstop, -⟩ | ⟨-, hwait, h⟩ | ⟨-, hwait, -, h⟩ | ⟨-, hwait, -, -, h⟩ | ⟨-, hwait, -, -, h⟩
    · rw [show st.run = true from hrun] at hstop
      cases hstop
    · simpa [h, hiff] using hwait
    · simpa [h, hpoll, hiff] using hwait
    · simpa [h, hpoll, hiff, hfalse] using hwait
    · simpa [h, (serveBurst_counts _ _).2.2.2.1, hpoll, hiff] using hwait
  | some t =>
    have htrue : st.firstPkt = true := by
      rw [hfirst]
      cases haccepted : accepted with
      | nil => rw [haccepted] at hacc; cases hacc
      | cons t ts => rfl
    have htime : st.lastPktTime = t := by rw [hlast, hacc]; rfl
    rcases serverStep_cases hz cntx st inp with
      ⟨hstop, -⟩ | ⟨-, hwait, -⟩ | ⟨-, -, hearly, h⟩ | ⟨-, -, hready, hempty, h⟩ |
      ⟨-, -, -, hne, h⟩
    · rw [show st.run = true from hrun] at hstop
      cases hstop
    · exact absurd (fun hgive => hgive.1 htrue) hwait
    · have hlate : ¬ st.queueStatus (selectedQid cntx st) ≤ inp.currentTime := by
        simpa using hearly
      simp [h, hpoll, hlate]
    · have hready' : st.queueStatus (selectedQid cntx st) ≤ inp.currentTime := by
        simpa using hready
      rw [h, htrue, htime]
      by_cases hover : inp.currentTime - t > 2 * hz
      · simp [hover, hempty, hready']
      · simp [hover, hpoll]
    · simp [h, (serveBurst_counts _ _).2.2.2.1, hpoll, hne]

/-- A packet came and then nothing for two seconds: the server goes on. A tick later it stops. -/
theorem server_stops_after_packet :
    let st := final (serverStep 1000 sampleServer) sampleState [sampleInput 1]
    (serverStep 1000 sampleServer st { sampleInput 0 with currentTime := 2000 }).1.run ≠ false ∧
      (serverStep 1000 sampleServer st { sampleInput 0 with currentTime := 2001 }).1.run
        = false := by
  have hiff := fun now => server_stops_iff 1000 sampleServer 0 (fun _ => 0) samplePacket
    [sampleInput 1] { sampleInput 0 with currentTime := now } rfl
  have haccepted : (acceptTimes sampleServer (trace (serverStep 1000 sampleServer)
      (serverInit sampleServer 0 (fun _ => 0) samplePacket) [sampleInput 1])).getLast?
      = some 0 := by decide +kernel
  simp only [haccepted] at hiff
  refine ⟨fun hstops => ?_, (hiff 2001).mpr ⟨by decide, rfl, by decide +kernel⟩⟩
  exact absurd ((hiff 2000).mp hstops).1 (by decide)

end DpdkEcho
