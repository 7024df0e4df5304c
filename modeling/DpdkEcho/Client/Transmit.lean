import DpdkEcho.Client.Receiver

/-!
# The transmit loop of `do_client` (`client.c`)

One iteration of the worker loop is `transmitStep`: check the time, select destination, flow and
queue, apply the rate limit, allocate and build a burst, hand it to the driver and free what the
driver did not take. There are three `continue`s and two ways to end the process on the way, a
failed assertion and a write through a `NULL` pointer.

`main` sets both distributions of the context to `DIST_UNIFORM`, so that the destinations take
turns and the queue is the one of the flow. Floating-point arithmetic is read as exact rational
arithmetic. Arrays are read from their base address, also outside their bounds.
-/

namespace DpdkEcho

open Infra

/-- `MAX_BURST_SIZE` -/
def maxBurstSize : Nat := 512

/-- `get_tci` -/
def getTci (prio dei vlanId : UInt16) : UInt16 := prio <<< 13 ||| dei <<< 12 ||| vlanId

/-- What `do_client` and its receiver thread do. -/
inductive ClientEvent where
  /-- `rte_pktmbuf_alloc_bulk` -/
  | alloc (bufs : List Mbuf)
  /-- `rte_eth_tx_burst` for destination `k`, with the packets the driver took. `measured`: the
  iteration is past the warm-up condition. -/
  | tx (k qid : Nat) (taken : List Mbuf) (measured : Bool)
  /-- `rte_eth_rx_burst` -/
  | rx (qid : Nat) (bufs : List Mbuf)
  /-- `check_eth_hdr` answers an ARP request. `sent`: there was a buffer for the answer. -/
  | arp (args : ArpSend) (sent : Bool)
  /-- The receiver counts a packet of destination `k`, with the timestamp read from it. -/
  | received (k : Nat) (timestamp : UInt64)
  /-- `rte_pktmbuf_free` -/
  | free (buf : Mbuf)
  /-- `apply_delay_cycles`, with the cycles waited. -/
  | delay (cycles : UInt64)

/-- The parameters of a run. `config.client` is global, `_server_eth` is filled before the loop. -/
structure ClientEnv where
  hz : UInt64
  build : ClientBuild
  client : ClientConfig
  cntx : Context
  serverEth : Nat → EtherAddr
  rodata : Mem
  log : ℚ → ℚ

inductive ClientPc where
  /-- In the worker loop. -/
  | loop
  /-- The loop was left because the time is over. -/
  | done
  /-- A failed assertion or a write through a `NULL` pointer ended the process. -/
  | aborted
deriving DecidableEq, Repr

/-- The variables of `do_client` that live across iterations. -/
structure TransmitState where
  pc : ClientPc
  startTime : UInt64
  duration : UInt64
  canSend : Bool
  selectedDst : Nat
  flow : Int
  dstPort : UInt32
  tpStartTs : UInt64
  flowQ : Int → UInt16
  throughput : Int → UInt64
  totalSentPkts : Nat → UInt64
  failedToPush : Nat → UInt64

/-- What the surroundings decide during one iteration. -/
structure TransmitInput where
  /-- `end_time` -/
  endTime : UInt64
  /-- The timer when the sending time is over. -/
  restartTime : UInt64
  /-- What `rte_pktmbuf_alloc_bulk` returns: identity and old contents of the buffers. -/
  pool : Option (Nat → Nat × Mem)
  /-- The numbers for packet `i`. -/
  draws : Nat → Draws
  /-- The driver's answer when it is offered the burst. -/
  willing : Nat

/-! ## Before the loop -/

/-- `flow_q` and `throughput`, whose memory is not initialised. -/
structure FlowTables where
  flowQ : Int → UInt16
  throughput : Int → UInt64

/-- `count_dst_ip * count_flow`, a product of `uint32_t`s. -/
def flowSlots (cntx : Context) : UInt32 := UInt32.ofNat cntx.dstIps.length * cntx.countFlow

/-- The loop that fills the tables, from the counter `i` on. The counter is a `uint16_t`; `none`
when the fuel runs out before the loop ends. -/
def fillFlows (cntx : Context) : (fuel : Nat) → (i : UInt16) → FlowTables → Option FlowTables
  | 0, _, _ => none
  | fuel + 1, i, t =>
    if i.toUInt32 < flowSlots cntx then
      fillFlows cntx fuel (i + 1)
        { flowQ := Function.update t.flowQ i.toNat
            (UInt16.ofNat (cntx.defaultQid + i.toNat % (cntx.countQueues % 2 ^ 16)))
          throughput := Function.update t.throughput i.toNat 0 }
    else some t

/-- The variables when the loop is entered. -/
def transmitInit (env : ClientEnv) (tables : FlowTables) (now : UInt64) : TransmitState where
  pc := .loop
  startTime := now
  duration := if env.cntx.duration < 0 then 0 else UInt64.ofInt env.cntx.duration * env.hz
  canSend := true
  selectedDst := 0
  flow := 0
  dstPort := env.cntx.basePortNumber
  tpStartTs := now
  flowQ := tables.flowQ
  throughput := tables.throughput
  totalSentPkts := fun _ => 0
  failedToPush := fun _ => 0

/-! ## An iteration -/

/-- When the sending time is over, wait two seconds for the last packets; then leave. -/
def TransmitState.checkDuration (hz : UInt64) (st : TransmitState) (inp : TransmitInput) :
    TransmitState :=
  if st.duration > 0 ∧ inp.endTime > st.startTime + st.duration then
    if st.canSend then
      { st with canSend := false, startTime := inp.restartTime, duration := 2 * hz }
    else { st with pc := .done }
  else st

/-- The destination port after `dst_port`. -/
def nextPort (cntx : Context) (dstPort : UInt32) : UInt32 :=
  if dstPort + 1 ≥ cntx.basePortNumber + cntx.countFlow then cntx.basePortNumber else dstPort + 1

/-- The next destination, port and flow. `flow` is an `int`, computed from `uint32_t`s. -/
def TransmitState.selectNext (cntx : Context) (st : TransmitState) : TransmitState :=
  let dstPort := nextPort cntx st.dstPort
  let selectedDst := (st.selectedDst + 1) % cntx.dstIps.length
  let flow := UInt32.ofNat selectedDst * cntx.countFlow + (dstPort - cntx.basePortNumber)
  { st with dstPort := dstPort, selectedDst := selectedDst, flow := wrapSigned 32 flow.toNat }

/-- `delta_time` -/
def TransmitState.deltaTime (st : TransmitState) (ts : UInt64) : ℚ := (ts - st.tpStartTs).toNat

/-- Once a second the counters of the rate limit start over. -/
def TransmitState.resetWindow (env : ClientEnv) (ts : UInt64) (st : TransmitState) :
    TransmitState :=
  if st.deltaTime ts > env.hz.toNat then
    { st with
      throughput := fun f => if 0 ≤ f ∧ f < (flowSlots env.cntx).toNat then 0 else st.throughput f
      tpStartTs := ts }
  else st

/-- `limit_window` -/
def limitWindow (env : ClientEnv) (deltaTime : ℚ) : ℚ :=
  env.cntx.rate.toNat * (deltaTime / env.hz.toNat)

/-- One turn of the loop that creates the burst: the packet, and `pkt_info` as it is left for the
next packet. A builder changes the source address in place; the four fields are set back. -/
def burstPacket (env : ClientEnv) (dstIp : UInt32) (dstPort : UInt16) (info : PreparePacketInfo)
    (draws : Draws) (buf : Mbuf) : Option (Mbuf × PreparePacketInfo) := do
  let (buf, info, payload) ← preparePacket env.build env.client.addKatranOpt info draws buf
  let payload ← payload
  let buf := buf.write fun m =>
    writePayload env.build env.rodata m payload env.cntx.payloadLength draws
  return (buf, { info with srcPort := env.cntx.srcPort, srcIp := env.cntx.srcIp,
                           dstPort := dstPort, dstIp := dstIp })

/-- The loop that creates the burst. -/
def buildBurst (env : ClientEnv) (dstIp : UInt32) (dstPort : UInt16) :
    PreparePacketInfo → List (Draws × Mbuf) → Option (List Mbuf)
  | _, [] => some []
  | info, (draws, buf) :: rest => do
    let (buf, info) ← burstPacket env dstIp dstPort info draws buf
    let bufs ← buildBurst env dstIp dstPort info rest
    return buf :: bufs

/-- The buffers `rte_pktmbuf_alloc_bulk` puts into `bufs`. -/
def allocBurst (burst : Nat) (pool : Nat → Nat × Mem) : List Mbuf :=
  (List.range burst).map fun i => Mbuf.alloc (pool i).1 (pool i).2

/-- The cycles of `apply_delay_cycles(delay_cycles, burst / count_flow)`, whose second parameter
is a `uint16_t`. -/
def delayOfBurst (cntx : Context) : UInt64 :=
  let multiply : ℚ := cntx.batch.toNat / cntx.countFlow.toNat
  cntx.delayCycles * (UInt16.ofInt (truncate multiply)).toUInt64

/-- Add to `total_sent_pkts[k]` and `failed_to_push[k]`. -/
def TransmitState.count (st : TransmitState) (k nbTx burst : Nat) : TransmitState :=
  { st with
    totalSentPkts := Function.update st.totalSentPkts k (st.totalSentPkts k + UInt64.ofNat nbTx)
    failedToPush :=
      Function.update st.failedToPush k (st.failedToPush k + UInt64.ofNat (burst - nbTx)) }

/-- Add to `throughput[cur_flow]`. -/
def TransmitState.credit (st : TransmitState) (curFlow : Int) (nbTx : Nat) : TransmitState :=
  { st with
    throughput :=
      Function.update st.throughput curFlow (st.throughput curFlow + UInt64.ofNat nbTx) }

/-- From the allocation on, for destination `k` and its flow `curFlow`. -/
def transmitBurst (env : ClientEnv) (st : TransmitState) (inp : TransmitInput) (k : Nat)
    (curFlow : Int) (selectedQ : UInt16) : TransmitState × List ClientEvent :=
  let burst := env.cntx.batch.toNat
  let dstIp := env.cntx.dstIps.getD k 0
  match inp.pool with
  | none => (st, [])
  | some pool =>
    let bufs := allocBurst burst pool
    let info := pktInfo env.client env.cntx (env.serverEth k) dstIp st.dstPort.toUInt16
      (getTci 3 0 100)
    match buildBurst env dstIp st.dstPort.toUInt16 info
        ((List.range burst).map inp.draws |>.zip bufs) with
    | none => ({ st with pc := .aborted }, [.alloc bufs])
    | some built =>
      let nbTx := txBurst inp.willing burst
      -- `ignore_result_duration` is 0
      let measured := decide (inp.endTime > st.startTime + 0 * env.hz)
      let st := if measured then st.count k nbTx burst else st
      (st.credit curFlow nbTx,
        [.alloc bufs, .tx k selectedQ.toNat (built.take nbTx) measured] ++
          (built.drop nbTx).map .free ++
          if env.cntx.delayCycles > 0 then [.delay (delayOfBurst env.cntx)] else [])

/-- The branch `if (can_send)`. `delta_time` is taken before the window is started over. -/
def trySend (env : ClientEnv) (st : TransmitState) (inp : TransmitInput) :
    TransmitState × List ClientEvent :=
  let selectedQ := st.flowQ st.flow
  if st.selectedDst ≠ 0 then ({ st with pc := .aborted }, [])
  else
    let k := st.selectedDst
    let curFlow := st.flow
    let st := st.selectNext env.cntx
    let limit := limitWindow env (st.deltaTime inp.endTime)
    let st := st.resetWindow env inp.endTime
    if env.cntx.rateLimit ∧ ((st.throughput curFlow).toNat : ℚ) > limit then (st, [])
    else transmitBurst env st inp k curFlow selectedQ

/-- One iteration of `while (cntx->running)`. A run that ends because another thread cleared
`cntx->running` is a run with no further input. -/
def transmitStep (env : ClientEnv) (st : TransmitState) (inp : TransmitInput) :
    TransmitState × List ClientEvent :=
  if st.pc ≠ .loop then (st, [])
  else
    let st := st.checkDuration env.hz inp
    if st.pc = .loop ∧ st.canSend then trySend env st inp else (st, [])

end DpdkEcho
