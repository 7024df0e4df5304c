import DpdkEcho.Infra.Machine
import DpdkEcho.Exp

/-!
# The latency client (`latency_client.c`)

`do_latency_client` sends a batch, waits for the replies and starts over. Its control flow is a
`goto` in a loop in a loop. The places between which a step runs are the head of the outer loop
(`top`) and the head of the receive loop (`poll`):

* from `top`, a step allocates, builds and sends a batch, and enters the receive loop
* from `poll`, a step is one turn of the receive loop: read a burst; give up when the wait is
  longer than a second; process the burst if there is one

`SIGINT` may arrive at any time. A step tests `running` at its start and, after processing a
burst, once more.

The array `bufs` is shared by sending and receiving and holds nothing that survives a step.
`handle_int` before the loop, the ARP exchange, the delay and the report are left out; the
server's address is a parameter.
-/

namespace DpdkEcho

open Infra

/-- `BURST_SIZE` -/
def latencyBurstSize : Nat := 64

/-- `max_measure_size` -/
def maxMeasureSize : Nat := 1000000000

/-! ## Building a packet -/

/-- `rte_ipv4_cksum` and `rte_ipv4_udptcp_cksum`: from the memory and the offsets of the headers. -/
structure Cksums where
  ipv4 : Mem → Nat → UInt16
  udpTcp : Mem → Nat → Nat → UInt16

/-- The length of the `memset`: a `uint32_t` less a `size_t`. -/
def memsetLen (payloadLength : UInt32) : Nat := (payloadLength.toNat + 2 ^ 64 - 8) % 2 ^ 64

/-- The body of the loop that creates the burst. `none` is the write through a `NULL` pointer
after a failed append. The ports and lengths were converted once before the loop. -/
def latencyPacket (cksums : Cksums) (cntx : Context) (serverEth : EtherAddr) (timestamp : UInt64)
    (buf : Mbuf) : Option Mbuf := do
  let payloadLength : UInt32 := UInt32.ofInt cntx.payloadLength
  let ipTotalLen : UInt16 := UInt16.ofNat (ipv4HdrLen + udpHdrLen + payloadLength.toNat)
  let udpTotalLen : UInt16 := UInt16.ofNat (udpHdrLen + payloadLength.toNat)
  -- ether header
  let (buf, eth) ← rtePktmbufAppend buf etherHdrLen
  let buf := buf.write fun m => storeMac m (eth + ethSrcAddr) cntx.myEth
  let buf := buf.write fun m => storeMac m (eth + ethDstAddr) serverEth
  let buf := buf.write fun m => store16 m (eth + ethEtherType) etherTypeIpv4
  -- ipv4 header
  let (buf, ip) ← rtePktmbufAppend buf ipv4HdrLen
  let buf := buf.write fun m => store8 m (ip + ipVersionIhl) 0x45
  let buf := buf.write fun m => store8 m (ip + ipTypeOfService) 0
  let buf := buf.write fun m => store16 m (ip + ipTotalLength) ipTotalLen
  let buf := buf.write fun m => storeHost16 m (ip + ipPacketId) 0
  let buf := buf.write fun m => storeHost16 m (ip + ipFragmentOffset) 0
  let buf := buf.write fun m => store8 m (ip + ipTimeToLive) 64
  let buf := buf.write fun m => store8 m (ip + ipNextProtoId) ipprotoUdp
  let buf := buf.write fun m => storeHost16 m (ip + ipHdrChecksum) 0
  let buf := buf.write fun m => store32 m (ip + ipSrcAddr) cntx.srcIp
  let buf := buf.write fun m => store32 m (ip + ipDstAddr) (cntx.dstIps.getD 0 0)
  -- udp header and payload, one append
  let (buf, udp) ← rtePktmbufAppend buf (udpHdrLen + payloadLength.toNat)
  let buf := buf.write fun m => store16 m (udp + udpSrcPort) cntx.srcPort
  let buf := buf.write fun m => store16 m (udp + udpDstPort) cntx.dstPort
  let buf := buf.write fun m => store16 m (udp + udpDgramLen) udpTotalLen
  let buf := buf.write fun m => storeHost16 m (udp + udpDgramCksum) 0
  let buf := buf.write fun m => store64 m (udp + udpHdrLen) timestamp
  let buf := buf.write fun m =>
    store m (udp + udpHdrLen + 8) (memsetLen payloadLength) fun _ => 0xAB
  let buf := { buf with l2Len := etherHdrLen, l3Len := ipv4HdrLen, olFlags := olFlagsUdp }
  let buf := buf.write fun m => storeHost16 m (ip + ipHdrChecksum) (cksums.ipv4 m ip)
  let buf := buf.write fun m => storeHost16 m (udp + udpDgramCksum) (cksums.udpTcp m ip udp)
  return buf

/-! ## What the client does -/

/-- A frame that arrives. `origin` is what only the network knows: the batch and the index of
the packet this frame is the reply to, if it is one. -/
structure Arrival where
  buf : Mbuf
  origin : Option (Nat × Nat)

inductive LatencyEvent where
  /-- `rte_pktmbuf_alloc_bulk` -/
  | alloc (bufs : List Mbuf)
  /-- `rte_eth_tx_burst`, with the packets the driver took: a new batch. -/
  | tx (taken : List Mbuf)
  /-- `rte_eth_rx_burst` -/
  | rx (arrivals : List Arrival)
  /-- `pkt_lost = 1`, with the time waited. -/
  | lost (waited : UInt64)
  /-- `check_eth_hdr` sends an ARP reply. -/
  | arp (args : ArpSend)
  /-- `nb_tx -= 1`, with the value before. -/
  | countDown (nbTx : UInt32)
  /-- `rte_pktmbuf_free` -/
  | free (buf : Mbuf)
  /-- `measurements[m_index++] = latency`, with the timestamp read from the packet. -/
  | measure (timestamp latency : UInt64)

/-! ## Processing a burst -/

/-- The variables the loop over a received burst carries along. `aborted`: an assertion failed. -/
structure ReplyState where
  nbTx : UInt32
  measurements : List UInt64
  aborted : Bool

/-- `(resp_recv_time - timestamp) * 1000 * 1000 * 1000 / rte_get_timer_hz()` -/
def latencyNs (hz respRecvTime timestamp : UInt64) : UInt64 :=
  (respRecvTime - timestamp) * 1000 * 1000 * 1000 / hz

/-- The body of `for (uint32_t j = 0; j < nb_rx; j++)`. -/
def replyPacket (hz : UInt64) (cntx : Context) (hdrSizeDelta : UInt16) (respRecvTime : UInt64)
    (st : ReplyState) (buf : Mbuf) : ReplyState × List LatencyEvent :=
  if st.aborted then (st, [])
  else
    let check := checkEthHdr cntx.srcIp cntx.myEth buf
    if ¬ check.valid then
      (st, check.reply.toList.map LatencyEvent.arp ++ [.free buf])
    else
      -- counted before anything else in the frame is looked at
      let counted := { st with nbTx := st.nbTx - 1 }
      if load16 buf.data ethEtherType ≠ etherTypeIpv4 then
        (counted, [.countDown st.nbTx, .free buf])
      else
        let ts := etherHdrLen + ipv4HdrLen + udpHdrLen + hdrSizeDelta.toNat
        let timestamp := load64 buf.data ts
        let latency := latencyNs hz respRecvTime timestamp
        ({ counted with
            measurements := st.measurements ++ [latency]
            aborted := ¬ st.measurements.length + 1 < maxMeasureSize },
          [.countDown st.nbTx, .free buf, .measure timestamp latency])

/-! ## The loops -/

inductive LatencyPc where
  /-- The head of the outer loop. -/
  | top
  /-- The head of the receive loop. -/
  | poll
  /-- The function has returned, or the process has exited. -/
  | stopped
  /-- A failed assertion or a write through a `NULL` pointer. -/
  | aborted
deriving DecidableEq, Repr

/-- The variables that live across steps. -/
structure LatencyState where
  pc : LatencyPc
  running : Bool
  nbTx : UInt32
  startSinceSent : UInt64
  measurements : List UInt64

/-- What the surroundings decide during one step. -/
structure LatencyInput where
  /-- `SIGINT` before the first test of `running`. -/
  interrupt : Bool
  /-- `SIGINT` before the second test. -/
  interruptLate : Bool
  /-- What `rte_pktmbuf_alloc_bulk` returns: identity and old contents of the buffers. -/
  pool : Option (Nat → Nat × Mem)
  /-- The timer while packet `i` is built. -/
  buildTime : Nat → UInt64
  /-- The driver's answer when it is offered the batch. -/
  willing : Nat
  /-- The frames in the receive queue. -/
  waiting : List Arrival
  /-- The timer when the wait is checked. -/
  pollTime : UInt64
  /-- The timer when a processed burst was received. -/
  respRecvTime : UInt64
  /-- The timer when a wait begins. -/
  startTime : UInt64

/-- The state when the loop is reached, or what the checks before it made of the client.
`nb_tx` is not initialised. -/
def latencyInit (cntx : Context) (nbTx : UInt32) : LatencyState where
  pc :=
    if cntx.dstIps.length ≠ 1 then .stopped
    else if cntx.batch.toNat > latencyBurstSize then .stopped
    else if cntx.countQueues ≠ 1 then .aborted
    else .top
  running := true
  nbTx := nbTx
  startSinceSent := 0
  measurements := []

/-- The buffers `rte_pktmbuf_alloc_bulk` puts into `bufs`. -/
def allocBulk (cntx : Context) (pool : Nat → Nat × Mem) : List Mbuf :=
  (List.range cntx.batch.toNat).map fun i => Mbuf.alloc (pool i).1 (pool i).2

/-- The loop that creates the burst. -/
def buildBatch (cksums : Cksums) (cntx : Context) (serverEth : EtherAddr) (pool : Nat → Nat × Mem)
    (buildTime : Nat → UInt64) : Option (List Mbuf) :=
  (List.range cntx.batch.toNat).mapM fun i =>
    latencyPacket cksums cntx serverEth (buildTime i) (Mbuf.alloc (pool i).1 (pool i).2)

/-- The parameters of a run: what DPDK and the ARP exchange provide. -/
structure LatencyEnv where
  hz : UInt64
  cksums : Cksums
  cntx : Context
  serverEth : EtherAddr
  hdrSizeDelta : UInt16

/-- From the head of the outer loop to the receive loop. -/
def sendBatch (env : LatencyEnv) (st : LatencyState) (inp : LatencyInput) :
    LatencyState × List LatencyEvent :=
  match inp.pool with
  | none => (st, [])
  | some pool =>
    let bufs := allocBulk env.cntx pool
    match buildBatch env.cksums env.cntx env.serverEth pool inp.buildTime with
    | none => ({ st with pc := .aborted }, [.alloc bufs])
    | some built =>
      -- what the driver does not take stays in `bufs`, which the receive loop overwrites
      let nbTx := txBurst inp.willing env.cntx.batch.toNat
      ({ st with pc := .poll, nbTx := UInt32.ofNat nbTx, startSinceSent := inp.startTime },
        [.alloc bufs, .tx (built.take nbTx)])

/-- Process a received burst and decide where to go on. -/
def processBurst (env : LatencyEnv) (st : LatencyState) (inp : LatencyInput) (bufs : List Mbuf) :
    LatencyState × List LatencyEvent :=
  let step := replyPacket env.hz env.cntx env.hdrSizeDelta inp.respRecvTime
  let start : ReplyState := { nbTx := st.nbTx, measurements := st.measurements, aborted := false }
  let reply := final step start bufs
  let st := { st with
    nbTx := reply.nbTx
    measurements := reply.measurements
    running := st.running && !inp.interruptLate }
  let pc : LatencyPc :=
    if reply.aborted then .aborted
    else if reply.nbTx > 0 ∧ st.running then .poll
    else .top
  let startSinceSent := if pc = .poll then inp.startTime else st.startSinceSent
  ({ st with pc := pc, startSinceSent := startSinceSent }, trace step start bufs)

/-- One turn of the receive loop. -/
def pollReplies (env : LatencyEnv) (st : LatencyState) (inp : LatencyInput) :
    LatencyState × List LatencyEvent :=
  let arrivals := rxBurst inp.waiting latencyBurstSize
  let waited := inp.pollTime - st.startSinceSent
  -- the timeout is checked before the burst: what was just read is not processed
  if waited > env.hz then
    ({ st with pc := .top }, [.rx arrivals, .lost waited])
  else if arrivals.isEmpty then
    (st, [.rx []])
  else
    let (st, events) := processBurst env st inp (arrivals.map Arrival.buf)
    (st, .rx arrivals :: events)

/-- One step of the client. The receive loop, when it is left because of a signal, is left with
`nb_rx = 0`: nothing is processed and the outer loop ends as well. -/
def latencyStep (env : LatencyEnv) (st : LatencyState) (inp : LatencyInput) :
    LatencyState × List LatencyEvent :=
  let now := { st with running := st.running && !inp.interrupt }
  match st.pc with
  | .top => if now.running then sendBatch env now inp else ({ now with pc := .stopped }, [])
  | .poll => if now.running then pollReplies env now inp else ({ now with pc := .top }, [])
  | .stopped => (st, [])
  | .aborted => (st, [])

end DpdkEcho
