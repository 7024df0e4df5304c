import DpdkEcho.Config
import DpdkEcho.Client.PreparePacket
import DpdkEcho.Client.WritePayload

/-!
# The packets of `do_client` (`client.c`)

Which builder and which payload writer `do_client` calls is decided at compile time.
-/

namespace DpdkEcho

open Infra

/-- The compile flags `_USE_TCP`, `_PAYLOAD_NUMBER` and `_RX_JUST_DROP`. -/
structure ClientBuild where
  useTcp : Bool
  payloadNumber : Bool
  rxJustDrop : Bool
deriving DecidableEq, Repr

/-- The default build, `app`. -/
def ClientBuild.app : ClientBuild := ⟨false, false, false⟩
/-- `client_tcp_timestamp` -/
def ClientBuild.clientTcpTimestamp : ClientBuild := ⟨true, false, false⟩

/-- The numbers a packet depends on: the rank of the source address, what `myrand` returns for
the TCP option, the timer and the rank of the payload number. -/
structure Draws where
  rank : Int
  myrand : Int
  timestamp : UInt64
  num : Int

/-- `pkt_info` of `do_client` for the selected destination. The payload length is an `int` in
the context and a `uint16_t` here. -/
def pktInfo (client : ClientConfig) (cntx : Context) (serverEth : EtherAddr) (dstIp : UInt32)
    (dstPort tci : UInt16) : PreparePacketInfo where
  useVlan := cntx.useVlan
  clientAddressSelection := if client.selectSrcIp then .zipfClientAddr else .fixClientAddr
  srcMac := cntx.myEth
  dstMac := serverEth
  srcIp := cntx.srcIp
  dstIp := dstIp
  srcPort := cntx.srcPort
  dstPort := dstPort
  tci := tci
  payloadLength := UInt16.ofInt cntx.payloadLength
  countPort := client.uniqueClientPorts.toUInt64

/-- The builder call of the burst loop. -/
def preparePacket (build : ClientBuild) (addKatranOpt : UInt32) (info : PreparePacketInfo)
    (draws : Draws) (buf : Mbuf) : Option (Mbuf × PreparePacketInfo × Option Nat) :=
  if build.useTcp then prepareTcp buf info addKatranOpt draws.rank draws.myrand
  else prepareUdp buf info draws.rank

/-- The payload writer of the burst loop, called with the `int` length of the context. -/
def writePayload (build : ClientBuild) (rodata m : Mem) (payload : Nat) (payloadLength : Int)
    (draws : Draws) : Mem :=
  if build.payloadNumber then payloadRandomNum rodata m payload payloadLength draws.num
  else payloadTimestamp rodata m payload payloadLength draws.timestamp

/-- One turn of the burst loop. The writer gets the payload pointer unchecked, so a failed
append is a crash. -/
def buildPacket (build : ClientBuild) (rodata : Mem) (addKatranOpt : UInt32)
    (info : PreparePacketInfo) (payloadLength : Int) (draws : Draws) (buf : Mbuf) :
    Option Mbuf := do
  let (buf, _, payload) ← preparePacket build addKatranOpt info draws buf
  let payload ← payload
  return buf.write fun m => writePayload build rodata m payload payloadLength draws

end DpdkEcho
