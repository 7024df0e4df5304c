import DpdkEcho.Client.ArpLoop
import DpdkEcho.Client.Transmit

/-!
# A run of `do_client` (`client.c`)

After the tables are filled and the addresses resolved, the transmit loop and, in bidirectional
mode, the receiver thread run side by side. They share no variable that both of them write, so a
run is an interleaving of iterations of the one and of turns of the other.

`workerQueues` follows a worker from its start through all phases and collects the queues it uses.
-/

namespace DpdkEcho

open Infra

/-! ## The receiver thread -/

/-- What the surroundings decide during one turn of the receiver. -/
structure ReceiveInput where
  /-- The frames in each receive queue. -/
  waiting : Nat → List Mbuf
  /-- The timer when the latency of packet `j` is taken. -/
  now : Nat → UInt64
  /-- Does `send_arp` get a buffer for an answer to packet `j`? -/
  arpAlloc : Nat → Bool

/-- The scan of the queues: the receive calls, and the first burst that is not empty. -/
def scanRx (waiting : Nat → List Mbuf) : List Nat → List ClientEvent × List Mbuf
  | [] => ([], [])
  | q :: qs =>
    let bufs := rxBurst (waiting q) maxBurstSize
    if bufs.isEmpty then
      let (events, found) := scanRx waiting qs
      (.rx q [] :: events, found)
    else ([.rx q bufs], bufs)

/-- An action of the receiver as an action of the client. -/
def ReceiverEvent.toClient (sent : Bool) : ReceiverEvent → ClientEvent
  | .arp args => .arp args sent
  | .received k timestamp => .received k timestamp
  | .free buf => .free buf

/-- The loop over a burst, from packet `j` on. -/
def receiveBurst (env : ClientEnv) (inp : ReceiveInput) :
    Nat → List Mbuf → ReceiverState → ReceiverState × List ClientEvent
  | _, [], st => (st, [])
  | j, buf :: bufs, st =>
    let (st, events) := receiverPacket env.log env.hz env.build env.cntx (inp.now j) st buf
    let (st, rest) := receiveBurst env inp (j + 1) bufs st
    (st, events.map (ReceiverEvent.toClient (inp.arpAlloc j)) ++ rest)

/-- One turn of `while (arg->running)`. -/
def receiverTurn (env : ClientEnv) (st : ReceiverState) (inp : ReceiveInput) :
    ReceiverState × List ClientEvent :=
  let (events, bufs) :=
    scanRx inp.waiting (List.range' env.cntx.defaultQid env.cntx.countQueues)
  let (st, rest) := receiveBurst env inp 0 bufs st
  (st, events ++ rest)

/-! ## Both threads -/

structure ClientState where
  transmit : TransmitState
  receiver : ReceiverState

/-- Which thread goes on, and with what. -/
inductive ClientInput where
  | transmit (inp : TransmitInput)
  | receive (inp : ReceiveInput)

/-- The state when both threads are ready to run. -/
def clientInit (env : ClientEnv) (tables : FlowTables) (now : UInt64) : ClientState where
  transmit := transmitInit env tables now
  receiver :=
    { hist := fun _ => newPHistFromMaxValue env.log 10000
      totalReceivedPkts := fun _ => 0 }

/-- One step of one of the threads. The receiver is started in bidirectional mode only, and a
process that was ended stays ended. -/
def clientStep (env : ClientEnv) (st : ClientState) : ClientInput → ClientState × List ClientEvent
  | .transmit inp =>
    let (transmit, events) := transmitStep env st.transmit inp
    ({ st with transmit := transmit }, events)
  | .receive inp =>
    if env.cntx.bidi ∧ st.transmit.pc ≠ .aborted then
      let (receiver, events) := receiverTurn env st.receiver inp
      ({ st with receiver := receiver }, events)
    else (st, [])

/-! ## Queues -/

/-- The queues of the driver calls in an event list. An answer to an ARP request goes out on
queue 0. -/
def clientQueues (events : List ClientEvent) : List Nat :=
  events.flatMap fun
    | .tx _ qid _ _ => [qid]
    | .rx qid _ => [qid]
    | .arp _ true => [0]
    | _ => []

/-- The queues `get_dst_mac` reads in one turn. -/
def scannedQueues (srcIp : UInt32) (srcMac : EtherAddr) (waiting : Nat → List Mbuf) :
    List Nat → ArpScan → List Nat
  | [], _ => []
  | q :: qs, st =>
    if st.dstMac.isSome then []
    else q :: scannedQueues srcIp srcMac waiting qs
      (scanBurst srcIp srcMac st (rxBurst (waiting q) arpBurstSize))

/-- The queues of one turn of `get_dst_mac`: the request goes out on queue 0, if there is a buffer
for it, and the replies are looked for from queue 0 on. -/
def roundQueues (cntx : Context) (round : ArpRound) : List Nat :=
  (if round.pool.isSome then [0] else []) ++
    scannedQueues cntx.srcIp cntx.myEth round.waiting (List.range cntx.countQueues)
      { dstMac := none, freed := [] }

/-- The queues of the resolution loop. -/
def arpQueues (portEth : EtherAddr) (cntx : Context) : ArpLoopState → List ArpRound → List Nat
  | _, [] => []
  | st, round :: rounds =>
    (if st.serverEth.length < cntx.dstIps.length ∧ ¬ st.crashed then roundQueues cntx round
      else []) ++
      arpQueues portEth cntx (arpLoopStep portEth cntx st round).1 rounds

/-- What the surroundings decide over a whole run of a client worker. -/
structure WorkerInput where
  /-- The steps the worker gets to fill its tables. -/
  fuel : Nat
  /-- What lies in the memory of the tables. -/
  stack : FlowTables
  /-- The turns of the resolution loop. -/
  rounds : List ArpRound
  /-- The timer when the loop is entered. -/
  now : UInt64
  /-- The steps of the two threads. -/
  steps : List ClientInput

/-- The queues of the two threads. -/
def loopQueues (env : ClientEnv) (tables : FlowTables) (inp : WorkerInput) : List Nat :=
  clientQueues (trace (clientStep env) (clientInit env tables inp.now) inp.steps)

/-- All queues a run of `do_client` uses. It ends before the first one when there is no
destination (`assert`), when the burst size is refused (`rte_exit`) and as long as the tables are
not filled. The address of port 0 is the worker's own; `env.serverEth` is what is used without
ARP. -/
def workerQueues (env : ClientEnv) (inp : WorkerInput) : List Nat :=
  if env.cntx.dstIps.length < 1 ∨ env.cntx.batch.toNat > maxBurstSize then []
  else
    match fillFlows env.cntx inp.fuel 0 inp.stack with
    | none => []
    | some tables =>
      if env.cntx.doArp then
        let arp := final (arpLoopStep env.cntx.myEth env.cntx) arpLoopInit inp.rounds
        let env' := { env with serverEth := fun k => arp.serverEth.getD k broadcastMac }
        arpQueues env.cntx.myEth env.cntx arpLoopInit inp.rounds ++
          if arp.serverEth.length = env.cntx.dstIps.length then loopQueues env' tables inp else []
      else loopQueues env tables inp

end DpdkEcho
