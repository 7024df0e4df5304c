import DpdkEcho.Net.Mbuf

/-!
# ARP (`utils/arp.c`)

`sendArp` is the transmit half. `get_dst_mac` is the loop that waits for the answer: it sends a
request, sleeps a second, reads one burst from each queue and starts again unless a reply was
seen. One turn of it is `getDstMacRound`.
-/

namespace DpdkEcho

open Infra

/-- `RTE_ARP_HRD_ETHER` -/
def arpHrdEther : UInt16 := 1
/-- `RTE_ARP_OP_REQUEST` -/
def arpOpRequest : UInt16 := 1
/-- `RTE_ARP_OP_REPLY` -/
def arpOpReply : UInt16 := 2

/-- Offset of the ARP header in a frame. -/
def arpHdr : Nat := etherHdrLen

/-- The arguments of a `send_arp` call that end up in the packet. -/
structure ArpSend where
  op : UInt16
  srcIp : UInt32
  dstEth : EtherAddr
  dstIp : UInt32
deriving DecidableEq

/-- `_prepare_arp_pkt`. `none` stands for the crash on a failed append. -/
def prepareArpPkt (buf : Mbuf) (op : UInt16) (srcMac : EtherAddr) (srcIp : UInt32)
    (dstEth : EtherAddr) (dstIp : UInt32) : Option Mbuf := do
  let (buf, eth) ← rtePktmbufAppend buf etherHdrLen
  let buf := buf.write fun m => storeMac m (eth + ethSrcAddr) srcMac
  let buf := buf.write fun m => storeMac m (eth + ethDstAddr) dstEth
  let buf := buf.write fun m => store16 m (eth + ethEtherType) etherTypeArp
  let (buf, a) ← rtePktmbufAppend buf arpHdrLen
  let buf := buf.write fun m => store16 m (a + arpHardware) arpHrdEther
  let buf := buf.write fun m => store16 m (a + arpProtocol) etherTypeIpv4
  let buf := buf.write fun m => store8 m (a + arpHlen) 6
  let buf := buf.write fun m => store8 m (a + arpPlen) 4
  let buf := buf.write fun m => store16 m (a + arpOpcode) op
  let buf := buf.write fun m => storeMac m (a + arpSha) srcMac
  let buf := buf.write fun m => store32 m (a + arpSip) srcIp
  let buf := buf.write fun m => storeMac m (a + arpTha) dstEth
  let buf := buf.write fun m => store32 m (a + arpTip) dstIp
  return buf

/-- `send_arp`: the frame the driver got, and the buffer freed again when it did not take it.
`alloc` is what `rte_pktmbuf_alloc` returned, `srcEth` the address of port 0, `willing` the
driver's answer. -/
def sendArp (srcEth : EtherAddr) (args : ArpSend) (alloc : Option Mbuf) (willing : Nat) :
    Option (List Mbuf × List Mbuf) :=
  match alloc with
  | none => some ([], [])
  | some buf => do
    let buf ← prepareArpPkt buf args.op srcEth args.srcIp args.dstEth args.dstIp
    if txBurst willing 1 ≠ 1 then return ([], [buf]) else return ([buf], [])

/-! ## Waiting for the reply -/

/-- The burst size of `get_dst_mac`. -/
def arpBurstSize : Nat := 32

/-- The test `get_dst_mac` makes on a frame: an ARP reply sent to this client. The sender
fields of the reply are not looked at. -/
def isArpReply (srcIp : UInt32) (srcMac : EtherAddr) (buf : Mbuf) : Bool :=
  decide (loadMac buf.data ethDstAddr = srcMac) &&
  decide (load16 buf.data ethEtherType = etherTypeArp) &&
  decide (load16 buf.data (arpHdr + arpOpcode) = arpOpReply) &&
  decide (loadMac buf.data (arpHdr + arpTha) = srcMac) &&
  decide (load32 buf.data (arpHdr + arpTip) = srcIp)

/-- Sender hardware address of an ARP packet. -/
def arpSenderMac (buf : Mbuf) : EtherAddr := loadMac buf.data (arpHdr + arpSha)

/-- Sender protocol address of an ARP packet. -/
def arpSenderIp (buf : Mbuf) : UInt32 := load32 buf.data (arpHdr + arpSip)

/-- `found_res` / `dst_mac` and the buffers given back so far. -/
structure ArpScan where
  dstMac : Option EtherAddr
  freed : List Mbuf

/-- The body of the innermost loop of `get_dst_mac`. -/
def scanPacket (srcIp : UInt32) (srcMac : EtherAddr) (st : ArpScan) (buf : Mbuf) : ArpScan :=
  match st.dstMac with
  -- `found_res`: the rest of the burst is only freed
  | some _ => { st with freed := st.freed ++ [buf] }
  | none =>
    if isArpReply srcIp srcMac buf then
      { dstMac := some (arpSenderMac buf), freed := st.freed ++ [buf] }
    else { st with freed := st.freed ++ [buf] }

/-- One received burst. -/
def scanBurst (srcIp : UInt32) (srcMac : EtherAddr) (st : ArpScan) (bufs : List Mbuf) : ArpScan :=
  bufs.foldl (scanPacket srcIp srcMac) st

/-- The loop over the receive queues. It stops at the queue that brought the reply. -/
def scanQueues (srcIp : UInt32) (srcMac : EtherAddr) (waiting : Nat → List Mbuf) :
    List Nat → ArpScan → ArpScan
  | [], st => st
  | q :: qs, st =>
    if st.dstMac.isSome then st
    else scanQueues srcIp srcMac waiting qs
      (scanBurst srcIp srcMac st (rxBurst (waiting q) arpBurstSize))

/-- What the surroundings decide during one turn of `get_dst_mac`. -/
structure ArpRound where
  /-- What `rte_pktmbuf_alloc` returns: the buffer's identity and old contents. -/
  pool : Option (Nat × Mem)
  /-- The driver's answer when it is offered the request. -/
  willing : Nat
  /-- The frames in each receive queue after the sleep. -/
  waiting : Nat → List Mbuf

/-- One turn of the `while (!found_res)` loop of `get_dst_mac`: the frames it got onto the wire
and what it found. `portEth` is the address of port 0, which `send_arp` looks up by itself. -/
def getDstMacRound (portEth : EtherAddr) (srcIp : UInt32) (srcMac : EtherAddr) (dstIp : UInt32)
    (countQueue : Nat) (round : ArpRound) : Option (List Mbuf × ArpScan) := do
  let (sent, _) ← sendArp portEth
    { op := arpOpRequest, srcIp := srcIp, dstEth := broadcastMac, dstIp := dstIp }
    (round.pool.map fun p => Mbuf.alloc p.1 p.2) round.willing
  return (sent, scanQueues srcIp srcMac round.waiting (List.range countQueue)
    { dstMac := none, freed := [] })

/-- A call of `get_dst_mac`: the requests it got onto the wire, the frames it freed, and the
address it returned. -/
structure ArpCall where
  sent : List Mbuf
  freed : List Mbuf
  dstMac : Option EtherAddr

/-- `get_dst_mac` over the turns it may take. It ends with the turn that finds a reply; where none
does, it has not returned. -/
def getDstMac (portEth : EtherAddr) (srcIp : UInt32) (srcMac : EtherAddr) (dstIp : UInt32)
    (countQueue : Nat) : List ArpRound → Option ArpCall
  | [] => some { sent := [], freed := [], dstMac := none }
  | round :: rounds => do
    let (sent, scan) ← getDstMacRound portEth srcIp srcMac dstIp countQueue round
    if scan.dstMac.isSome then
      return { sent := sent, freed := scan.freed, dstMac := scan.dstMac }
    else
      let call ← getDstMac portEth srcIp srcMac dstIp countQueue rounds
      return { call with sent := sent ++ call.sent, freed := scan.freed ++ call.freed }

end DpdkEcho
