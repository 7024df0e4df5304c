import DpdkEcho.Infra.Machine
import DpdkEcho.Exp

/-!
# The echo server (`server.c`)

`do_server` polls its queues in turn. One iteration of its worker loop is `serverStep`: pick a
queue, read a burst, filter and rewrite the packets in place, hand the accepted ones back to
the driver. What the surroundings decide during an iteration (the clock, the packets, how many
packets the driver takes) is the input of the step, what the iteration does to memory and to
the driver is its list of `ServerEvent`s.

Arrays are read from their base address: an index past the declared size is not refused, it
reads or writes whatever lies there. The events carry the indices, so that a statement about
bounds is a statement about the events.

The counters that are only printed (`empty_burst`, `sum_nb_rx`, `count_rx`, `cycles_error`,
`failed_to_push`) and the token limit, which the constant `rate_limit = 0` switches off, are
left out.
-/

namespace DpdkEcho

open Infra

/-- `BURST_SIZE` -/
def serverBurstSize : Nat := 1024

/-- The declared size of `tx_buf`. -/
def txBufSize : Nat := 64

/-- What an iteration does. -/
inductive ServerEvent where
  /-- `queue_status[slot]` is compared with the current time. -/
  | readStatus (slot : Nat) (now : UInt64)
  /-- `rte_eth_rx_burst` on a queue, with the packets received. -/
  | rx (qid : Nat) (now : UInt64) (bufs : List Mbuf)
  /-- `check_eth_hdr` sends an ARP reply. -/
  | arp (args : ArpSend)
  /-- `rte_pktmbuf_free` -/
  | free (buf : Mbuf)
  /-- `tx_buf[index] = buf` in the echo loop. -/
  | storeTx (index : Nat) (buf : Mbuf)
  /-- `queue_status[slot] = deadline` -/
  | writeStatus (slot : Nat) (deadline : UInt64)
  /-- `rte_eth_tx_burst` on a queue, with the packets the driver took. -/
  | tx (qid : Nat) (taken : List Mbuf)

/-- The packets an event list received. -/
def receivedBufs (events : List ServerEvent) : List Mbuf :=
  events.flatMap fun | .rx _ _ bufs => bufs | _ => []

/-- The packets it freed. -/
def freedBufs (events : List ServerEvent) : List Mbuf :=
  events.flatMap fun | .free buf => [buf] | _ => []

/-- The packets it handed to the driver, in order. -/
def sentBufs (events : List ServerEvent) : List Mbuf :=
  events.flatMap fun | .tx _ taken => taken | _ => []

/-- The indices at which it stored into `tx_buf`. -/
def storedIndices (events : List ServerEvent) : List Nat :=
  events.flatMap fun | .storeTx index _ => [index] | _ => []

/-- The indices at which it accessed `queue_status`. -/
def statusSlots (events : List ServerEvent) : List Nat :=
  events.flatMap fun | .readStatus slot _ => [slot] | .writeStatus slot _ => [slot] | _ => []

/-! ## The filter and echo loop -/

/-- Rewrite in place: swap the MAC addresses, the IPv4 addresses and the two 16-bit words after
the 20-byte IPv4 header. -/
def echoRewrite (useVlan : Bool) (buf : Mbuf) : Mbuf :=
  let ip := l2Len useVlan
  let udp := ip + ipv4HdrLen
  let buf := buf.write fun m =>
    let tmpAddr := loadMac m ethSrcAddr
    let m := storeMac m ethSrcAddr (loadMac m ethDstAddr)
    storeMac m ethDstAddr tmpAddr
  let buf := buf.write fun m =>
    let tmpIp := load32 m (ip + ipSrcAddr)
    let m := store32 m (ip + ipSrcAddr) (load32 m (ip + ipDstAddr))
    store32 m (ip + ipDstAddr) tmpIp
  buf.write fun m =>
    let tmp := load16 m (udp + udpSrcPort)
    let m := store16 m (udp + udpSrcPort) (load16 m (udp + udpDstPort))
    store16 m (udp + udpDstPort) tmp

/-- The variables the echo loop carries from packet to packet. -/
structure EchoState where
  txBuf : Nat → Mbuf
  k : Nat
  nbPktsProcess : UInt32
  firstPkt : Bool
  startTime : UInt64
  lastPktTime : UInt64
  throughput : UInt64

/-- The body of `for (i = 0; i < nb_rx; i++)`. -/
def echoPacket (cntx : Context) (now : UInt64) (st : EchoState) (buf : Mbuf) :
    EchoState × List ServerEvent :=
  let check := checkEthHdr cntx.srcIp cntx.myEth buf
  if cntx.doArp ∧ ¬ check.valid then
    (st, check.reply.toList.map ServerEvent.arp ++ [.free buf])
  -- not our packet
  else if load16 buf.data ethEtherType ≠ expectedEtherType cntx.useVlan then
    (st, [.free buf])
  -- the ip address does not match
  else if load32 buf.data (l2Len cntx.useVlan + ipDstAddr) ≠ cntx.srcIp then
    (st, [.free buf])
  else
    let st := { st with
      lastPktTime := now
      startTime := if st.firstPkt then st.startTime else now
      firstPkt := true
      throughput := st.throughput + 1
      nbPktsProcess := st.nbPktsProcess + 1 }
    if ¬ cntx.bidi then (st, [.free buf])
    else
      let buf := echoRewrite cntx.useVlan buf
      ({ st with txBuf := Function.update st.txBuf st.k buf, k := st.k + 1 },
        [.storeTx st.k buf])

/-- The packets the loop does not discard: the five tests of the loop body in one predicate. -/
def passesFilters (cntx : Context) (buf : Mbuf) : Bool :=
  (!cntx.doArp || (checkEthHdr cntx.srcIp cntx.myEth buf).valid) &&
  decide (load16 buf.data ethEtherType = expectedEtherType cntx.useVlan) &&
  decide (load32 buf.data (l2Len cntx.useVlan + ipDstAddr) = cntx.srcIp)

/-! ## The transmit retry loop -/

/-- `tx_buf` and `k` between two calls of `rte_eth_tx_burst`. -/
structure TxState where
  txBuf : Nat → Mbuf
  k : Nat

/-- Move the packets that were not taken to the front: `tx_buf[i - nb_tx] = tx_buf[i]` for `i`
from `nb_tx` up to `k`, in place. -/
def moveToFront (txBuf : Nat → Mbuf) (nbTx k : Nat) : Nat → Mbuf :=
  (List.range' nbTx (k - nbTx)).foldl (fun t i => Function.update t (i - nbTx) (t i)) txBuf

/-- One turn of `while (k > 0)`. -/
def txRetry (qid : Nat) (st : TxState) (willing : Nat) : TxState × List ServerEvent :=
  if st.k = 0 then (st, [])
  else
    -- `k` is a `uint64_t`, the parameter of the driver a `uint16_t`
    let nbTx := txBurst willing (st.k % 2 ^ 16)
    ({ txBuf := moveToFront st.txBuf nbTx st.k, k := st.k - nbTx },
      [.tx qid ((List.range nbTx).map st.txBuf)])

/-- The whole loop. The driver answers the calls with `willing` and, when these are used up,
takes what is left: a driver that takes nothing forever would keep the loop going. -/
def txLoop (qid : Nat) : List Nat → TxState → TxState × List ServerEvent
  | [], st => txRetry qid st st.k
  | w :: ws, st =>
    let (st1, ev1) := txRetry qid st w
    let (st2, ev2) := txLoop qid ws st1
    (st2, ev1 ++ ev2)

/-! ## The worker loop -/

/-- The local variables of `do_server` that live across iterations. -/
structure ServerState where
  run : Bool
  qIndex : Nat
  firstPkt : Bool
  throughput : UInt64
  expBegin : UInt64
  startTime : UInt64
  lastPktTime : UInt64
  queueStatus : Nat → UInt64
  txBuf : Nat → Mbuf

/-- What the surroundings decide during one iteration. -/
structure ServerInput where
  /-- `current_time` -/
  currentTime : UInt64
  /-- The packets in the receive queue. -/
  waiting : List Mbuf
  /-- The clock when the deadline of the queue is computed. -/
  statusTime : UInt64
  /-- The driver's answers in the retry loop. -/
  willing : List Nat

/-- The state before the first iteration. `stack` is what lies behind the end of `queue_status`
and in the uninitialised `tx_buf`. -/
def serverInit (cntx : Context) (now : UInt64) (stack : Nat → UInt64) (txBuf : Nat → Mbuf) :
    ServerState where
  run := true
  qIndex := 0
  firstPkt := false
  throughput := 0
  expBegin := now
  startTime := now
  lastPktTime := 0
  queueStatus := fun i => if i < cntx.countQueues then 0 else stack i
  txBuf := txBuf

/-- The queue an iteration serves: `qid = cntx->managed_queues[q_index]`, a `uint16_t`. -/
def selectedQid (cntx : Context) (st : ServerState) : Nat :=
  cntx.managedQueues.getD st.qIndex 0 % 2 ^ 16

/-- The variables of the echo loop at its start. -/
def ServerState.echoStart (st : ServerState) : EchoState where
  txBuf := st.txBuf
  k := 0
  nbPktsProcess := 0
  firstPkt := st.firstPkt
  startTime := st.startTime
  lastPktTime := st.lastPktTime
  throughput := st.throughput

/-- What the echo loop leaves behind in the variables of the worker loop. -/
def ServerState.afterEcho (st : ServerState) (e : EchoState) : ServerState :=
  { st with txBuf := e.txBuf, firstPkt := e.firstPkt, startTime := e.startTime,
            lastPktTime := e.lastPktTime, throughput := e.throughput }

/-- From the echo loop on: filter the burst and, in bidirectional mode, set the deadline of the
queue and transmit. -/
def serveBurst (cntx : Context) (st : ServerState) (qid : Nat) (bufs : List Mbuf)
    (inp : ServerInput) : ServerState × List ServerEvent :=
  let echo := final (echoPacket cntx inp.currentTime) st.echoStart bufs
  let events := trace (echoPacket cntx inp.currentTime) st.echoStart bufs
  let st := st.afterEcho echo
  if ¬ cntx.bidi then (st, events)
  else
    -- both factors are `uint32_t`, so the product wraps before it is added to the clock
    let delayCycles : UInt32 := cntx.delayCycles.toUInt32
    let deadline := inp.statusTime + (echo.nbPktsProcess * delayCycles).toUInt64
    let (tx, txEvents) := txLoop qid inp.willing { txBuf := echo.txBuf, k := echo.k }
    ({ st with queueStatus := Function.update st.queueStatus qid deadline, txBuf := tx.txBuf },
      events ++ [.writeStatus qid deadline] ++ txEvents)

/-- `q_index = (q_index + 1) % count_queues` -/
def ServerState.nextQueue (cntx : Context) (st : ServerState) : ServerState :=
  { st with qIndex := (st.qIndex + 1) % cntx.countQueues }

/-- Once a second the throughput counter starts over. -/
def ServerState.updateThroughput (hz now : UInt64) (st : ServerState) : ServerState :=
  if now - st.startTime > hz then { st with throughput := 0, startTime := now } else st

/-- From the readiness check on: leave the queue alone before its deadline, else read a burst.
An empty burst ends the server when the last packet is two seconds ago. -/
def pollQueue (hz : UInt64) (cntx : Context) (st : ServerState) (qid : Nat) (inp : ServerInput) :
    ServerState × List ServerEvent :=
  if st.queueStatus qid > inp.currentTime then
    (st, [.readStatus qid inp.currentTime])
  else
    let bufs := rxBurst inp.waiting serverBurstSize
    let read : List ServerEvent := [.readStatus qid inp.currentTime, .rx qid inp.currentTime bufs]
    if bufs.isEmpty then
      if st.firstPkt ∧ inp.currentTime - st.lastPktTime > 2 * hz then
        ({ st with run := false }, read)
      else (st, read)
    else
      let (st, events) := serveBurst cntx st qid bufs inp
      (st, read ++ events)

/-- The iteration gets as far as its receive call: the server has not ended, is not ended now
for want of a first packet, and the deadline of the queue has passed. -/
def polls (hz : UInt64) (cntx : Context) (st : ServerState) (inp : ServerInput) : Prop :=
  st.run = true ∧
    ¬ (¬ st.firstPkt = true ∧ inp.currentTime - st.expBegin > 60 * hz) ∧
    ¬ st.queueStatus (selectedQid cntx st) > inp.currentTime

/-- One iteration of `while (run && cntx->running)`. A run that ends because another thread
cleared `cntx->running` is a run with no further input. -/
def serverStep (hz : UInt64) (cntx : Context) (st : ServerState) (inp : ServerInput) :
    ServerState × List ServerEvent :=
  if ¬ st.run then (st, [])
  else
    let qid := selectedQid cntx st
    let st := st.nextQueue cntx
    if ¬ st.firstPkt ∧ inp.currentTime - st.expBegin > 60 * hz then
      ({ st with run := false }, [])
    else pollQueue hz cntx (st.updateThroughput hz inp.currentTime) qid inp

end DpdkEcho
