import DpdkEcho.Infra.Access
import DpdkEcho.Client.Receiver
import DpdkEcho.LatencyClient
import DpdkEcho.Server

/-!
# The header accesses of the three receive loops

`do_server`, `_run_receiver_thread` and `do_latency_client` look at a received frame through
struct pointers once it has passed `check_eth_hdr` and the test of the Ethernet type. From there on
the loop bodies are written out here access by access, in the order of the source, with the reads
whose result is only printed.

None of the three asks for the length of the frame.
-/

namespace DpdkEcho

open Infra

/-! ## Typed accesses -/

/-- Read one byte. -/
def read8 (off : Nat) : Access UInt8 := .read off 1 (· off)
/-- Read a 16-bit field. -/
def read16 (off : Nat) : Access UInt16 := .read off 2 (load16 · off)
/-- Read a 32-bit field. -/
def read32 (off : Nat) : Access UInt32 := .read off 4 (load32 · off)
/-- Read a `uint64_t`. -/
def read64 (off : Nat) : Access UInt64 := .read off 8 (load64 · off)
/-- Read an Ethernet address. -/
def readMac (off : Nat) : Access EtherAddr := .read off 6 (loadMac · off)
/-- Write a 16-bit field. -/
def write16 (off : Nat) (v : UInt16) : Access Unit := .write off 2 (store16 · off v)
/-- Write a 32-bit field. -/
def write32 (off : Nat) (v : UInt32) : Access Unit := .write off 4 (store32 · off v)
/-- Write an Ethernet address. -/
def writeMac (off : Nat) (mac : EtherAddr) : Access Unit := .write off 6 (storeMac · off mac)

/-! ## `do_server` -/

/-- The frame is let through to the rest of the loop body. Without ARP the address is not
checked. -/
def serverTests (cntx : Context) (buf : Mbuf) : Prop :=
  (cntx.doArp = true → (checkEthHdr cntx.srcIp cntx.myEth buf).valid = true) ∧
    load16 buf.data ethEtherType = expectedEtherType cntx.useVlan

/-- What the server makes of a frame. -/
inductive EchoFate where
  /-- The IPv4 destination is another host. -/
  | notOurs
  /-- Counted and dropped, in unidirectional mode. -/
  | counted
  /-- Counted and sent back. -/
  | echoed
deriving DecidableEq, Repr

/-- The rest of the loop body. -/
def echoTail (cntx : Context) : Access EchoFate := do
  let ip := l2Len cntx.useVlan
  let dstAddr ← read32 (ip + ipDstAddr)
  if dstAddr ≠ cntx.srcIp then return .notOurs
  else
    let udp := ip + ipv4HdrLen
    if ¬ cntx.bidi then return .counted
    else
      -- swap mac address
      let tmpAddr ← readMac ethSrcAddr
      writeMac ethSrcAddr (← readMac ethDstAddr)
      writeMac ethDstAddr tmpAddr
      -- swap ip address
      let tmpIp ← read32 (ip + ipSrcAddr)
      write32 (ip + ipSrcAddr) (← read32 (ip + ipDstAddr))
      write32 (ip + ipDstAddr) tmpIp
      -- swap port
      let tmp ← read16 (udp + udpSrcPort)
      write16 (udp + udpSrcPort) (← read16 (udp + udpDstPort))
      write16 (udp + udpDstPort) tmp
      return .echoed

/-- The counters of the echo loop after a packet for this host. -/
def EchoState.counted (st : EchoState) (now : UInt64) : EchoState :=
  { st with
    lastPktTime := now
    startTime := if st.firstPkt then st.startTime else now
    firstPkt := true
    throughput := st.throughput + 1
    nbPktsProcess := st.nbPktsProcess + 1 }

/-- The end of the loop body, from what the accesses gave. -/
def echoResult (now : UInt64) (st : EchoState) (buf : Mbuf) (fate : EchoFate) (mem : Mem) :
    EchoState × List ServerEvent :=
  match fate with
  | .notOurs => (st, [.free buf])
  | .counted => (st.counted now, [.free buf])
  | .echoed =>
    let buf := { buf with data := mem }
    ({ st.counted now with txBuf := Function.update st.txBuf st.k buf, k := st.k + 1 },
      [.storeTx st.k buf])

/-! ## `_run_receiver_thread` -/

/-- The frame is let through to the rest of the loop body. With `_RX_JUST_DROP` none is. -/
def receiverTests (build : ClientBuild) (cntx : Context) (buf : Mbuf) : Prop :=
  build.rxJustDrop = false ∧ (checkEthHdr cntx.srcIp cntx.myEth buf).valid = true ∧
    load16 buf.data ethEtherType = expectedEtherType cntx.useVlan

/-- The rest of the loop body: the destination the frame came from, the timestamp and the source
port, for a packet that is counted. -/
def receiverTail (build : ClientBuild) (cntx : Context) : Access (Option (Nat × UInt64 × UInt16)) :=
  do
    let ip := l2Len cntx.useVlan
    -- is IP in IP?
    let _ ← read8 (ip + ipNextProtoId)
    let recvIp ← read32 (ip + ipSrcAddr)
    match findDst cntx.dstIps recvIp with
    | none => return none
    | some k =>
      if build.payloadNumber then return none
      else
        let timestamp ← read64 (ip + ipv4HdrLen + udpHdrLen)
        let srcPort ← read16 (ip + ipv4HdrLen + udpSrcPort)
        return some (k, timestamp, srcPort)

/-- The end of the loop body, from what the accesses gave. -/
def receiverResult (log : ℚ → ℚ) (hz now : UInt64) (cntx : Context) (st : ReceiverState)
    (buf : Mbuf) : Option (Nat × UInt64 × UInt16) → ReceiverState × List ReceiverEvent
  | none => (st, [.free buf])
  | some (k, timestamp, srcPort) =>
    let latency := latencyUs hz now timestamp
    ({ hist :=
        if srcPort.toUInt32 = cntx.basePortNumber then
          Function.update st.hist k (addNumberToPHist log (st.hist k) latency.toNat)
        else st.hist
       totalReceivedPkts := Function.update st.totalReceivedPkts k (st.totalReceivedPkts k + 1) },
      [.received k timestamp, .free buf])

/-! ## `do_latency_client` -/

/-- The frame is let through to the rest of the loop body. -/
def replyTests (cntx : Context) (buf : Mbuf) : Prop :=
  (checkEthHdr cntx.srcIp cntx.myEth buf).valid = true ∧
    load16 buf.data ethEtherType = etherTypeIpv4

/-- The rest of the loop body: the timestamp, moved by the encapsulation. -/
def replyTail (hdrSizeDelta : UInt16) : Access UInt64 :=
  read64 (etherHdrLen + ipv4HdrLen + udpHdrLen + hdrSizeDelta.toNat)

/-- The end of the loop body, from what the access gave. -/
def replyResult (hz respRecvTime : UInt64) (st : ReplyState) (buf : Mbuf) (timestamp : UInt64) :
    ReplyState × List LatencyEvent :=
  let latency := latencyNs hz respRecvTime timestamp
  ({ nbTx := st.nbTx - 1
     measurements := st.measurements ++ [latency]
     aborted := ¬ st.measurements.length + 1 < maxMeasureSize },
    [.countDown st.nbTx, .free buf, .measure timestamp latency])

end DpdkEcho
