import DpdkEcho.Client.BuildPacket
import DpdkEcho.Exp
import DpdkEcho.Percentile

/-!
# The receiver thread of `do_client` (`client.c`)

`_run_receiver_thread` looks at one packet at a time. The report of encapsulated packets, which
is only printed, is left out.
-/

namespace DpdkEcho

open Infra

/-- `hist` and `total_received_pkts`, by destination. -/
structure ReceiverState where
  hist : Nat → PHist
  totalReceivedPkts : Nat → UInt64

/-- What the thread does. -/
inductive ReceiverEvent where
  /-- `check_eth_hdr` sends an ARP reply. -/
  | arp (args : ArpSend)
  /-- A packet of destination `k` was counted, with the timestamp read from it. -/
  | received (k : Nat) (timestamp : UInt64)
  /-- `rte_pktmbuf_free` -/
  | free (buf : Mbuf)

/-- The loop over `dst_ips`: the first index that holds `recvIp`. -/
def findDst (dstIps : List UInt32) (recvIp : UInt32) : Option Nat :=
  dstIps.findIdx? (· == recvIp)

/-- `(rte_get_timer_cycles() - timestamp) * 1000 * 1000 / rte_get_timer_hz()` -/
def latencyUs (hz now timestamp : UInt64) : UInt64 := (now - timestamp) * 1000 * 1000 / hz

/-- From the timestamp on: measure, record the latency if the packet belongs to the first flow,
and count. The timestamp is read right behind a UDP header, whatever the protocol. -/
def recordLatency (log : ℚ → ℚ) (hz now : UInt64) (cntx : Context) (k : Nat) (m : Mem)
    (st : ReceiverState) : ReceiverState × UInt64 :=
  let ip := l2Len cntx.useVlan
  let timestamp := load64 m (ip + ipv4HdrLen + udpHdrLen)
  let latency := latencyUs hz now timestamp
  let srcPort := load16 m (ip + ipv4HdrLen + udpSrcPort)
  let st := if srcPort.toUInt32 = cntx.basePortNumber then
      { st with hist := Function.update st.hist k (addNumberToPHist log (st.hist k) latency.toNat) }
    else st
  ({ st with totalReceivedPkts :=
      Function.update st.totalReceivedPkts k (st.totalReceivedPkts k + 1) }, timestamp)

/-- The body of `for (j = 0; j < nb_rx; j++)`. `now` is the timer when the latency is taken. -/
def receiverPacket (log : ℚ → ℚ) (hz : UInt64) (build : ClientBuild) (cntx : Context)
    (now : UInt64) (st : ReceiverState) (buf : Mbuf) : ReceiverState × List ReceiverEvent :=
  if build.rxJustDrop then (st, [.free buf])
  else
    let check := checkEthHdr cntx.srcIp cntx.myEth buf
    if ¬ check.valid then
      (st, check.reply.toList.map ReceiverEvent.arp ++ [.free buf])
    else if load16 buf.data ethEtherType ≠ expectedEtherType cntx.useVlan then
      (st, [.free buf])
    else
      match findDst cntx.dstIps (load32 buf.data (l2Len cntx.useVlan + ipSrcAddr)) with
      | none => (st, [.free buf])
      | some k =>
        if build.payloadNumber then (st, [.free buf])
        else
          let (st, timestamp) := recordLatency log hz now cntx k buf.data st
          (st, [.received k timestamp, .free buf])

end DpdkEcho
