import DpdkEcho.Infra.Network
import DpdkEcho.Client.Run
import DpdkEcho.LatencyClient
import DpdkEcho.Server

/-!
# Clients and servers on one network

The three programs as stations of a network. A client starts with the address resolution
(`resolving`) and goes on with its loops (`looping`); a server is in its loop from the start.

A host reads the frames of its receive calls. It writes the frames the driver takes and the ARP
packets of `send_arp`, whose buffers the pool of the host provides (`ArpPool`).
-/

namespace DpdkEcho

open Infra

/-- What `send_arp` meets with during a step: for each call, the buffer it gets, if any, and the
driver's answer. -/
abbrev ArpPool := ArpSend → Option (Nat × Mem) × Nat

/-- The frame a call of `send_arp` gets onto the network, if it does. -/
def arpFrames (srcEth : EtherAddr) (pool : ArpPool) (args : ArpSend) : List Mbuf :=
  match sendArp srcEth args ((pool args).1.map fun p => Mbuf.alloc p.1 p.2) (pool args).2 with
  | some (sent, _) => sent
  | none => []

/-- The frames a turn of the resolution loop sends, and those it reads. -/
def turnFrames (cntx : Context) (st : ArpLoopState) (round : ArpRound) : List Mbuf × List Mbuf :=
  match cntx.dstIps[st.serverEth.length]? with
  | none => ([], [])
  | some dstIp =>
    if st.crashed then ([], [])
    else
      match getDstMacRound cntx.myEth cntx.srcIp cntx.myEth dstIp cntx.countQueues round with
      | none => ([], [])
      | some (sent, scan) => (sent, scan.freed)

/-! ## `do_client` -/

/-- Where `do_client` is. -/
inductive DoClientState where
  /-- In the calls of `get_dst_mac`. -/
  | resolving (st : ArpLoopState)
  /-- In the transmit loop and the receiver thread, with `_server_eth`. -/
  | looping (serverEth : Nat → EtherAddr) (st : ClientState)

inductive DoClientMove where
  /-- A turn of `get_dst_mac`; `now` is the timer in case it is the last one. -/
  | resolve (round : ArpRound) (now : UInt64)
  | loop (inp : ClientInput)

inductive DoClientEvent where
  /-- A turn of `get_dst_mac`, with the frames sent and read. -/
  | turn (sent read : List Mbuf)
  | resolved (r : Resolved)
  | loop (e : ClientEvent)

/-- The state when the tables are filled. Without ARP the addresses are `env.serverEth`. -/
def doClientInit (env : ClientEnv) (tables : FlowTables) (now : UInt64) : DoClientState :=
  if env.cntx.doArp then .resolving arpLoopInit
  else .looping env.serverEth (clientInit env tables now)

/-- One step of `do_client`. When all addresses are found it enters its loop. -/
def doClientStep (env : ClientEnv) (tables : FlowTables) :
    DoClientState → DoClientMove → DoClientState × List DoClientEvent
  | .resolving st, .resolve round now =>
    let next := arpLoopStep env.cntx.myEth env.cntx st round
    let frames := turnFrames env.cntx st round
    let events := .turn frames.1 frames.2 :: next.2.map .resolved
    if next.1.serverEth.length = env.cntx.dstIps.length then
      let serverEth := fun k => next.1.serverEth.getD k broadcastMac
      (.looping serverEth (clientInit { env with serverEth := serverEth } tables now), events)
    else (.resolving next.1, events)
  | .looping serverEth st, .loop inp =>
    let next := clientStep { env with serverEth := serverEth } st inp
    (.looping serverEth next.1, next.2.map .loop)
  | st, _ => (st, [])

def ClientEvent.reads : ClientEvent → List Mbuf
  | .rx _ bufs => bufs
  | _ => []

def ClientEvent.writes (srcEth : EtherAddr) (pool : ArpPool) : ClientEvent → List Mbuf
  | .tx _ _ taken _ => taken
  | .arp args true => arpFrames srcEth pool args
  | _ => []

/-- `do_client` as a station. -/
def clientStation (env : ClientEnv) (tables : FlowTables) : Station Mbuf where
  State := DoClientState
  Input := DoClientMove × ArpPool
  Event := DoClientEvent
  step st inp := doClientStep env tables st inp.1
  reads
    | .turn _ read => read
    | .resolved _ => []
    | .loop e => e.reads
  writes inp
    | .turn sent _ => sent
    | .resolved _ => []
    | .loop e => e.writes env.cntx.myEth inp.2

/-! ## `do_latency_client` -/

/-- Where `do_latency_client` is. -/
inductive DoLatencyState where
  | resolving (st : ArpLoopState)
  | looping (serverEth : EtherAddr) (st : LatencyState)

inductive DoLatencyMove where
  /-- A turn of `get_dst_mac`. `nbTx` is what the variable holds in case it is the last one. -/
  | resolve (round : ArpRound) (nbTx : UInt32)
  /-- `SIGINT` during the resolution: `handle_int` calls `rte_exit`. -/
  | interrupt
  | loop (inp : LatencyInput)

inductive DoLatencyEvent where
  | turn (sent read : List Mbuf)
  | resolved (r : Resolved)
  | loop (e : LatencyEvent)

/-- The number of destinations and the batch size are checked before the resolution. -/
def doLatencyInit (env : LatencyEnv) (nbTx : UInt32) : DoLatencyState :=
  if env.cntx.dstIps.length ≠ 1 ∨ env.cntx.batch.toNat > latencyBurstSize then
    .looping env.serverEth (latencyInit env.cntx nbTx)
  else .resolving arpLoopInit

/-- One step of `do_latency_client`. It calls `get_dst_mac` with a queue count of 1, and checks the
number of queues after that (`latencyInit`). -/
def doLatencyStep (env : LatencyEnv) :
    DoLatencyState → DoLatencyMove → DoLatencyState × List DoLatencyEvent
  | .resolving st, .resolve round nbTx =>
    let cntx := { env.cntx with countQueues := 1 }
    let next := arpLoopStep cntx.myEth cntx st round
    let frames := turnFrames cntx st round
    let events := .turn frames.1 frames.2 :: next.2.map .resolved
    match next.1.serverEth.head? with
    | none => (.resolving next.1, events)
    | some mac => (.looping mac (latencyInit env.cntx nbTx), events)
  | .resolving _, .interrupt =>
    (.looping env.serverEth { latencyInit env.cntx 0 with pc := .stopped }, [])
  | .looping serverEth st, .loop inp =>
    let next := latencyStep { env with serverEth := serverEth } st inp
    (.looping serverEth next.1, next.2.map .loop)
  | st, _ => (st, [])

def LatencyEvent.reads : LatencyEvent → List Mbuf
  | .rx arrivals => arrivals.map Arrival.buf
  | _ => []

def LatencyEvent.writes (srcEth : EtherAddr) (pool : ArpPool) : LatencyEvent → List Mbuf
  | .tx taken => taken
  | .arp args => arpFrames srcEth pool args
  | _ => []

/-- `do_latency_client` as a station. -/
def latencyStation (env : LatencyEnv) : Station Mbuf where
  State := DoLatencyState
  Input := DoLatencyMove × ArpPool
  Event := DoLatencyEvent
  step st inp := doLatencyStep env st inp.1
  reads
    | .turn _ read => read
    | .resolved _ => []
    | .loop e => e.reads
  writes inp
    | .turn sent _ => sent
    | .resolved _ => []
    | .loop e => e.writes env.cntx.myEth inp.2

/-! ## `do_server` -/

def ServerEvent.reads : ServerEvent → List Mbuf
  | .rx _ _ bufs => bufs
  | _ => []

def ServerEvent.writes (srcEth : EtherAddr) (pool : ArpPool) : ServerEvent → List Mbuf
  | .tx _ taken => taken
  | .arp args => arpFrames srcEth pool args
  | _ => []

/-- A worker of a server as a station. -/
def serverStation (hz : UInt64) (cntx : Context) : Station Mbuf where
  State := ServerState
  Input := ServerInput × ArpPool
  Event := ServerEvent
  step st inp := serverStep hz cntx st inp.1
  reads := ServerEvent.reads
  writes inp := ServerEvent.writes cntx.myEth inp.2

/-! ## Hosts -/

/-- A program with its parameters. -/
inductive Host where
  | client (env : ClientEnv) (tables : FlowTables)
  | latency (env : LatencyEnv)
  | server (hz : UInt64) (cntx : Context)

/-- The station of a host. -/
def Host.station : Host → Station Mbuf
  | .client env tables => clientStation env tables
  | .latency env => latencyStation env
  | .server hz cntx => serverStation hz cntx

/-- A client is at the start of its resolution or, without ARP, of its loop; a server may be
anywhere. -/
def Host.initial : (h : Host) → h.station.State → Prop
  | .client env tables => fun st => ∃ now, st = doClientInit env tables now
  | .latency env => fun st => ∃ nbTx, st = doLatencyInit env nbTx
  | .server _ _ => fun _ => True

end DpdkEcho
