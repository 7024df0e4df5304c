import DpdkEcho.Net.Mbuf

/-!
# Building a frame (`client/prepare_packet.h`, `client/prepare_tcp_pkt.h`)

A builder appends the headers one after the other and writes through the pointers it gets back.
The pointers to the headers are not checked, so a failed append there is a crash (`none`). The
pointer to the payload is handed to the caller as it is, `NULL` included.

The generator behind the source addresses is not part of these functions: `rank` is the number
it draws. So is the number `myrand` returns for the server id of the TCP option.
-/

namespace DpdkEcho

open Infra

/-- `enum client_addr_selection` -/
inductive ClientAddrSelection where
  | fixClientAddr
  | zipfClientAddr
deriving DecidableEq, Repr

/-- `struct prepare_packet_info`. `countPort` is the field of the `zipf_client_addr` that
`client_addr_select_info` points to. -/
structure PreparePacketInfo where
  useVlan : Bool
  clientAddressSelection : ClientAddrSelection
  srcMac : EtherAddr
  dstMac : EtherAddr
  srcIp : UInt32
  dstIp : UInt32
  srcPort : UInt16
  dstPort : UInt16
  tci : UInt16
  payloadLength : UInt16
  countPort : UInt64

/-- `_ethernet_header` -/
def ethernetHeader (m : Mem) (eth : Nat) (src dst : EtherAddr) (etherType : UInt16) : Mem :=
  let m := storeMac m (eth + ethSrcAddr) src
  let m := storeMac m (eth + ethDstAddr) dst
  store16 m (eth + ethEtherType) etherType

/-- `_ipv4_header` -/
def ipv4Header (m : Mem) (ip : Nat) (srcIp dstIp : UInt32) : Mem :=
  let m := store8 m (ip + ipVersionIhl) 0x45
  let m := store8 m (ip + ipTypeOfService) 0
  let m := storeHost16 m (ip + ipPacketId) 0
  let m := storeHost16 m (ip + ipFragmentOffset) 0
  let m := store8 m (ip + ipTimeToLive) 64
  let m := storeHost16 m (ip + ipHdrChecksum) 0
  let m := store32 m (ip + ipSrcAddr) srcIp
  store32 m (ip + ipDstAddr) dstIp

/-- The `switch` of `_prepare_eth_vlan_ip`: the source address and port the packet gets. The
rank is an `int`, the index a `uint32_t`; `none` is the division by zero. -/
def selectClientAddr (info : PreparePacketInfo) (rank : Int) : Option PreparePacketInfo :=
  match info.clientAddressSelection with
  | .fixClientAddr => some info
  | .zipfClientAddr =>
    if info.countPort = 0 then none
    else
      let srcIdx : UInt32 := UInt32.ofInt (rank - 1)
      -- `count_port` is a `uint64_t`, so the division is one of `uint64_t`s
      let ipOffset : UInt32 := (srcIdx.toUInt64 / info.countPort).toUInt32
      let portOffset : UInt32 := (srcIdx.toUInt64 % info.countPort).toUInt32
      some { info with
        srcIp := info.srcIp + ipOffset
        srcPort := (info.srcPort.toUInt32 + portOffset).toUInt16 }

/-- `_prepare_eth_vlan_ip`: the buffer, the updated `info` and the offset of the IPv4 header. -/
def prepareEthVlanIp (buf : Mbuf) (info : PreparePacketInfo) (rank : Int) :
    Option (Mbuf × PreparePacketInfo × Nat) := do
  let (buf, eth) ← rtePktmbufAppend buf etherHdrLen
  let buf ←
    if ¬ info.useVlan then
      let buf := buf.write fun m => ethernetHeader m eth info.srcMac info.dstMac etherTypeIpv4
      some { buf with l2Len := etherHdrLen }
    else do
      let buf := buf.write fun m => ethernetHeader m eth info.srcMac info.dstMac etherTypeVlan
      let (buf, vlan) ← rtePktmbufAppend buf vlanHdrLen
      let buf := buf.write fun m => store16 m (vlan + vlanTci) info.tci
      let buf := buf.write fun m => store16 m (vlan + vlanEthProto) etherTypeIpv4
      some { buf with l2Len := etherHdrLen + vlanHdrLen }
  let info ← selectClientAddr info rank
  let (buf, ip) ← rtePktmbufAppend buf ipv4HdrLen
  let buf := buf.write fun m => ipv4Header m ip info.srcIp info.dstIp
  return ({ buf with l3Len := ipv4HdrLen }, info, ip)

/-- The end of both builders: append the payload and set the offload flags. -/
def appendPayload (buf : Mbuf) (payloadLength : UInt16) (olFlags : UInt64) : Mbuf × Option Nat :=
  match rtePktmbufAppend buf payloadLength.toNat with
  | none => ({ buf with olFlags := olFlags }, none)
  | some (buf, payload) => ({ buf with olFlags := olFlags }, some payload)

/-- `prepare_udp`: the buffer, the updated `info` and `*out_payload`. -/
def prepareUdp (buf : Mbuf) (info : PreparePacketInfo) (rank : Int) :
    Option (Mbuf × PreparePacketInfo × Option Nat) := do
  let (buf, info, ip) ← prepareEthVlanIp buf info rank
  let dgramLen : UInt16 := UInt16.ofNat udpHdrLen + info.payloadLength
  let totalLength : UInt16 := UInt16.ofNat ipv4HdrLen + dgramLen
  let buf := buf.write fun m => store8 m (ip + ipNextProtoId) ipprotoUdp
  let buf := buf.write fun m => store16 m (ip + ipTotalLength) totalLength
  let (buf, udp) ← rtePktmbufAppend buf udpHdrLen
  let buf := buf.write fun m => store16 m (udp + udpSrcPort) info.srcPort
  let buf := buf.write fun m => store16 m (udp + udpDstPort) info.dstPort
  let buf := buf.write fun m => store16 m (udp + udpDgramLen) dgramLen
  let buf := buf.write fun m => storeHost16 m (udp + udpDgramCksum) 0
  let (buf, payload) := appendPayload buf info.payloadLength olFlagsUdp
  return (buf, info, payload)

/-! ## TCP -/

/-- `KATRAN_TCP_HDR_OPT_KIND_TPR` -/
def katranTcpHdrOptKindTpr : UInt8 := 0xB7
/-- `KATRAN_TCP_HDR_OPT_LEN_TPR` -/
def katranTcpHdrOptLenTpr : Nat := 6
/-- `TCP_NOP_OPT` -/
def tcpNopOpt : UInt8 := 0x01

/-- `RTE_TCP_ACK_FLAG | RTE_TCP_PSH_FLAG` -/
def tcpAckPsh : UInt8 := 0x10 ||| 0x08

/-- The number of no-op options in front of the Katran option. -/
def countNoopOpt (addKatranOption : UInt32) : Nat := if addKatranOption > 0 then 2 else 0

/-- `size_tcp_opts`: the Katran option with its padding, or nothing. -/
def sizeTcpOpts (addKatranOption : UInt32) : Nat :=
  if addKatranOption > 0 then katranTcpHdrOptLenTpr + countNoopOpt addKatranOption else 0

/-- The server id for the Katran option. `myrand` returns an `int`, which the `%` turns into a
`uint32_t`. -/
def katranSrvId (myrand : Int) (addKatranOption : UInt32) : UInt32 :=
  let srvId := UInt32.ofInt myrand % addKatranOption
  if srvId = 0 then 1 else srvId

/-- The no-ops and `struct katran_srv_opt` (packed) at `opts`. The id is in host order. -/
def katranOption (m : Mem) (opts : Nat) (noops : Nat) (srvId : UInt32) : Mem :=
  let m := store m opts noops (fun _ => tcpNopOpt)
  let opt := opts + noops
  let m := store8 m opt katranTcpHdrOptKindTpr
  let m := store8 m (opt + 1) (UInt8.ofNat katranTcpHdrOptLenTpr)
  storeHost32 m (opt + 2) srvId

/-- `prepare_tcp`. Sequence numbers and window are assigned without byte-order conversion. -/
def prepareTcp (buf : Mbuf) (info : PreparePacketInfo) (addKatranOption : UInt32) (rank : Int)
    (myrand : Int) : Option (Mbuf × PreparePacketInfo × Option Nat) := do
  let (buf, info, ip) ← prepareEthVlanIp buf info rank
  let hdrSize := tcpHdrLen + sizeTcpOpts addKatranOption
  let totalLength := UInt16.ofNat (ipv4HdrLen + hdrSize + info.payloadLength.toNat)
  let buf := buf.write fun m => store8 m (ip + ipNextProtoId) ipprotoTcp
  let buf := buf.write fun m => store16 m (ip + ipTotalLength) totalLength
  let (buf, tcp) ← rtePktmbufAppend buf tcpHdrLen
  let buf := buf.write fun m => store16 m (tcp + tcpSrcPort) info.srcPort
  let buf := buf.write fun m => store16 m (tcp + tcpDstPort) info.dstPort
  let buf := buf.write fun m => storeHost32 m (tcp + tcpSentSeq) 123
  let buf := buf.write fun m => storeHost32 m (tcp + tcpRecvAck) 321
  let buf := buf.write fun m =>
    store8 m (tcp + tcpDataOff) ((UInt8.ofNat (hdrSize / 4) &&& 0xf) <<< 4)
  let buf := buf.write fun m => store8 m (tcp + tcpFlags) tcpAckPsh
  let buf := buf.write fun m => storeHost16 m (tcp + tcpRxWin) 256
  let buf := buf.write fun m => storeHost16 m (tcp + tcpCksum) 0
  let buf := buf.write fun m => storeHost16 m (tcp + tcpUrp) 0
  let buf ←
    if addKatranOption > 0 then do
      let (buf, opts) ← rtePktmbufAppend buf (sizeTcpOpts addKatranOption)
      some (buf.write fun m =>
        katranOption m opts (countNoopOpt addKatranOption) (katranSrvId myrand addKatranOption))
    else some buf
  let (buf, payload) := appendPayload buf info.payloadLength olFlagsTcp
  return (buf, info, payload)

end DpdkEcho
