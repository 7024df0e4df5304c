import DpdkEcho.Infra.Machine
import DpdkEcho.Exp

/-!
# Address resolution in `do_client` (`client.c`)

Before it sends, `do_client` fills `_server_eth`: from `config.dest_mac` if `--no-arp` was given,
else by one `get_dst_mac` call for each destination. A call takes as many turns as it needs, and
the frames it leaves in the receive queues are there for the next call, so the loop is a machine
whose steps are the turns.

The network is part of the state as far as an honest host can see it: `wire` holds the frames
this client got onto the network, which are the requests somebody may answer, now or later and
more than once.
-/

namespace DpdkEcho

open Infra

/-- `_server_eth` as far as it is filled, and the frames sent. -/
structure ArpLoopState where
  serverEth : List EtherAddr
  wire : List Mbuf
  /-- `_prepare_arp_pkt` wrote through a `NULL` pointer. -/
  crashed : Bool

/-- A `get_dst_mac` call returned: for which address, with what, and the frames it had read in
its last turn. -/
structure Resolved where
  dstIp : UInt32
  dstMac : EtherAddr
  read : List Mbuf

/-- The state before the first call. -/
def arpLoopInit : ArpLoopState := { serverEth := [], wire := [], crashed := false }

/-- One turn of `get_dst_mac` for the destination that is next, `dst_ips[i]` with `i` the number
of addresses found so far. -/
def arpLoopStep (portEth : EtherAddr) (cntx : Context) (st : ArpLoopState) (round : ArpRound) :
    ArpLoopState × List Resolved :=
  match cntx.dstIps[st.serverEth.length]? with
  | none => (st, [])
  | some dstIp =>
    if st.crashed then (st, [])
    else
      match getDstMacRound portEth cntx.srcIp cntx.myEth dstIp cntx.countQueues round with
      | none => ({ st with crashed := true }, [])
      | some (sent, scan) =>
        let st := { st with wire := st.wire ++ sent }
        match scan.dstMac with
        | none => (st, [])
        | some mac =>
          ({ st with serverEth := st.serverEth ++ [mac] },
            [{ dstIp := dstIp, dstMac := mac, read := scan.freed }])

/-- The loop has run for every destination. -/
def ArpLoopState.finished (cntx : Context) (st : ArpLoopState) : Prop :=
  st.serverEth.length = cntx.dstIps.length

/-! ## Without ARP -/

/-- The memory from `config.dest_mac` on: the array, and `behind` from its end on. -/
def destMacMem (destMac : List UInt8) (behind : Mem) : Mem :=
  fun k => destMac.getD k (behind (k - destMac.length))

/-- `_server_eth` when `--no-arp` was given:
`rte_memcpy(&_server_eth[i], &config.dest_mac[i], 6)` for every destination `i`. -/
def staticServerEth (destMac : List UInt8) (behind : Mem) (countDstIp : Nat) : List EtherAddr :=
  (List.range countDstIp).map fun i => loadMac (destMacMem destMac behind) i

/-! ## The other hosts -/

/-- The frame asks who owns `ip`. -/
def isArpRequestFor (ip : UInt32) (buf : Mbuf) : Prop :=
  load16 buf.data ethEtherType = etherTypeArp ∧
    load16 buf.data (arpHdr + arpOpcode) = arpOpRequest ∧
    load32 buf.data (arpHdr + arpTip) = ip

/-- During a turn the other hosts are honest: a reply to this client names an address this
client has asked for, and the hardware address of its owner. Which replies arrive, when, in which
order and how often is open, and so is everything else that arrives. -/
def HonestRound (portEth : EtherAddr) (cntx : Context) (owner : UInt32 → EtherAddr)
    (st : ArpLoopState) (round : ArpRound) : Prop :=
  ∀ q, q < cntx.countQueues → ∀ buf ∈ round.waiting q,
    isArpReply cntx.srcIp cntx.myEth buf = true →
      arpSenderMac buf = owner (arpSenderIp buf) ∧
      ∃ req ∈ (arpLoopStep portEth cntx st round).1.wire, isArpRequestFor (arpSenderIp buf) req

/-- During a turn no reply comes late: every reply to this client answers the current call. -/
def PromptRound (cntx : Context) (st : ArpLoopState) (round : ArpRound) : Prop :=
  ∀ dstIp, cntx.dstIps[st.serverEth.length]? = some dstIp →
    ∀ q, q < cntx.countQueues → ∀ buf ∈ round.waiting q,
      isArpReply cntx.srcIp cntx.myEth buf = true → arpSenderIp buf = dstIp

/-- What a call is for: the address it returns was sent by the host asked for. -/
def Resolved.fromDestination (cntx : Context) (r : Resolved) : Prop :=
  ∃ buf ∈ r.read, isArpReply cntx.srcIp cntx.myEth buf = true ∧
    arpSenderIp buf = r.dstIp ∧ arpSenderMac buf = r.dstMac

end DpdkEcho
