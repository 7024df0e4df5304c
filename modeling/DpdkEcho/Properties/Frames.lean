import DpdkEcho.Properties.FrameFields

/-!
# The frames the clients build

A fresh buffer always has room for the headers, so each builder comes down to an explicit
sequence of stores and a test whether the payload fits:

* `prepareEthVlanIp_alloc`, `prepareUdp_alloc`, `prepareTcp_alloc` — the headers
* `buildPacket_eq`, `latencyPacket_eq` — the whole packet
* `buildPacket_udp_fields`, `buildPacket_tcp_fields`, `latencyPacket_fields` — its fields
-/

namespace DpdkEcho

open Infra

/-! ## The common headers -/

section
variable {info info' : PreparePacketInfo} {rank : Int}

/-- The address selection touches the source address and port only. -/
theorem selectClientAddr_spec (h : selectClientAddr info rank = some info') :
    info' = { info with srcIp := info'.srcIp, srcPort := info'.srcPort } := by
  unfold selectClientAddr at h
  split at h
  · rw [← Option.some.inj h]
  · split at h
    · simp at h
    · rw [← Option.some.inj h]

/-- Contents of a fresh buffer after `_prepare_eth_vlan_ip`. -/
def ethVlanIpMem (mem : Mem) (info : PreparePacketInfo) (srcIp : UInt32) : Mem :=
  let m := ethernetHeader mem 0 info.srcMac info.dstMac (expectedEtherType info.useVlan)
  let m := if info.useVlan then
      let m := store16 m (etherHdrLen + vlanTci) info.tci
      store16 m (etherHdrLen + vlanEthProto) etherTypeIpv4
    else m
  ipv4Header m (l2Len info.useVlan) srcIp info.dstIp

/-- In a fresh buffer the headers up to IPv4 always fit. -/
theorem prepareEthVlanIp_alloc (id : Nat) (mem : Mem)
    (h : selectClientAddr info rank = some info') :
    prepareEthVlanIp (Mbuf.alloc id mem) info rank =
      some ({ id := id, data := ethVlanIpMem mem info info'.srcIp
              dataLen := l2Len info.useVlan + ipv4HdrLen
              l2Len := l2Len info.useVlan, l3Len := ipv4HdrLen, olFlags := 0 },
            info', l2Len info.useVlan) := by
  have hdst : info'.dstIp = info.dstIp := by rw [selectClientAddr_spec h]
  cases hv : info.useVlan with
  | false =>
    simp only [prepareEthVlanIp, ethVlanIpMem, hv, h, ← hdst]
    rfl
  | true =>
    simp only [prepareEthVlanIp, ethVlanIpMem, hv, h, ← hdst]
    rfl

/-- Contents of a fresh buffer after `prepare_udp`, up to the payload. -/
def udpMem (mem : Mem) (info info' : PreparePacketInfo) : Mem :=
  let ip := l2Len info.useVlan
  let udp := ip + ipv4HdrLen
  let m := ethVlanIpMem mem info info'.srcIp
  let m := store8 m (ip + ipNextProtoId) ipprotoUdp
  let m := store16 m (ip + ipTotalLength)
    (UInt16.ofNat ipv4HdrLen + (UInt16.ofNat udpHdrLen + info.payloadLength))
  let m := store16 m (udp + udpSrcPort) info'.srcPort
  let m := store16 m (udp + udpDstPort) info.dstPort
  let m := store16 m (udp + udpDgramLen) (UInt16.ofNat udpHdrLen + info.payloadLength)
  storeHost16 m (udp + udpDgramCksum) 0

/-- The buffer after `prepare_udp`, up to the payload. -/
def udpHeaders (id : Nat) (mem : Mem) (info info' : PreparePacketInfo) : Mbuf where
  id := id
  data := udpMem mem info info'
  dataLen := l2Len info.useVlan + ipv4HdrLen + udpHdrLen
  l2Len := l2Len info.useVlan
  l3Len := ipv4HdrLen
  olFlags := 0

theorem prepareUdp_alloc (id : Nat) (mem : Mem) (h : selectClientAddr info rank = some info') :
    prepareUdp (Mbuf.alloc id mem) info rank =
      (let res := appendPayload (udpHeaders id mem info info') info.payloadLength olFlagsUdp
       some (res.1, info', res.2)) := by
  have hsel := selectClientAddr_spec h
  have hport : info'.dstPort = info.dstPort := by rw [hsel]
  have hlen : info'.payloadLength = info.payloadLength := by rw [hsel]
  simp only [prepareUdp, prepareEthVlanIp_alloc id mem h, udpHeaders, udpMem, ← hport, ← hlen]
  cases info.useVlan <;> rfl

/-- Contents of a fresh buffer after `prepare_tcp`, up to the payload. -/
def tcpMem (mem : Mem) (info info' : PreparePacketInfo) (katran : UInt32) (myrand : Int) : Mem :=
  let ip := l2Len info.useVlan
  let tcp := ip + ipv4HdrLen
  let hdrSize := tcpHdrLen + sizeTcpOpts katran
  let m := ethVlanIpMem mem info info'.srcIp
  let m := store8 m (ip + ipNextProtoId) ipprotoTcp
  let m := store16 m (ip + ipTotalLength)
    (UInt16.ofNat (ipv4HdrLen + hdrSize + info.payloadLength.toNat))
  let m := store16 m (tcp + tcpSrcPort) info'.srcPort
  let m := store16 m (tcp + tcpDstPort) info.dstPort
  let m := storeHost32 m (tcp + tcpSentSeq) 123
  let m := storeHost32 m (tcp + tcpRecvAck) 321
  let m := store8 m (tcp + tcpDataOff) ((UInt8.ofNat (hdrSize / 4) &&& 0xf) <<< 4)
  let m := store8 m (tcp + tcpFlags) tcpAckPsh
  let m := storeHost16 m (tcp + tcpRxWin) 256
  let m := storeHost16 m (tcp + tcpCksum) 0
  let m := storeHost16 m (tcp + tcpUrp) 0
  if katran > 0 then
    katranOption m (tcp + tcpHdrLen) (countNoopOpt katran) (katranSrvId myrand katran)
  else m

/-- The buffer after `prepare_tcp`, up to the payload. -/
def tcpHeaders (id : Nat) (mem : Mem) (info info' : PreparePacketInfo) (katran : UInt32)
    (myrand : Int) : Mbuf where
  id := id
  data := tcpMem mem info info' katran myrand
  dataLen := l2Len info.useVlan + ipv4HdrLen + tcpHdrLen + sizeTcpOpts katran
  l2Len := l2Len info.useVlan
  l3Len := ipv4HdrLen
  olFlags := 0

theorem prepareTcp_alloc (id : Nat) (mem : Mem) (katran : UInt32) (myrand : Int)
    (h : selectClientAddr info rank = some info') :
    prepareTcp (Mbuf.alloc id mem) info katran rank myrand =
      (let res := appendPayload (tcpHeaders id mem info info' katran myrand) info.payloadLength
          olFlagsTcp
       some (res.1, info', res.2)) := by
  have hsel := selectClientAddr_spec h
  have hport : info'.dstPort = info.dstPort := by rw [hsel]
  have hlen : info'.payloadLength = info.payloadLength := by rw [hsel]
  by_cases hk : katran > 0
  · simp only [prepareTcp, prepareEthVlanIp_alloc id mem h, tcpHeaders, tcpMem, sizeTcpOpts,
      countNoopOpt, if_pos hk, ← hport, ← hlen]
    cases info.useVlan <;> rfl
  · simp only [prepareTcp, prepareEthVlanIp_alloc id mem h, tcpHeaders, tcpMem, sizeTcpOpts,
      countNoopOpt, if_neg hk, ← hport, ← hlen]
    cases info.useVlan <;> rfl

/-- The headers of the longest frame take 66 bytes. -/
theorem udpHeaders_le (id : Nat) (mem : Mem) (info info' : PreparePacketInfo) :
    (udpHeaders id mem info info').dataLen ≤ 66 := by
  simp only [udpHeaders]
  cases info.useVlan <;> decide

theorem tcpHeaders_le (id : Nat) (mem : Mem) (info info' : PreparePacketInfo) (katran : UInt32)
    (myrand : Int) : (tcpHeaders id mem info info' katran myrand).dataLen ≤ 66 := by
  simp only [tcpHeaders, sizeTcpOpts, countNoopOpt]
  cases info.useVlan <;> split <;> decide

theorem udpHeaders_room (id : Nat) (mem : Mem) (info info' : PreparePacketInfo) :
    (udpHeaders id mem info info').dataLen ≤ mbufDataRoom :=
  le_trans (udpHeaders_le id mem info info') (by decide)

theorem tcpHeaders_room (id : Nat) (mem : Mem) (info info' : PreparePacketInfo) (katran : UInt32)
    (myrand : Int) : (tcpHeaders id mem info info' katran myrand).dataLen ≤ mbufDataRoom :=
  le_trans (tcpHeaders_le id mem info info' katran myrand) (by decide)

/-- Without a source address there is no packet. -/
theorem prepareEthVlanIp_none (id : Nat) (mem : Mem) (h : selectClientAddr info rank = none) :
    prepareEthVlanIp (Mbuf.alloc id mem) info rank = none := by
  cases hv : info.useVlan <;>
    · simp only [prepareEthVlanIp, hv, h]
      rfl

/-- The payload is appended exactly when it fits. -/
theorem appendPayload_eq {buf : Mbuf} (hroom : buf.dataLen ≤ mbufDataRoom) (len : UInt16)
    (olFlags : UInt64) :
    appendPayload buf len olFlags =
      if buf.dataLen + len.toNat ≤ mbufDataRoom then
        ({ buf with dataLen := buf.dataLen + len.toNat, olFlags := olFlags }, some buf.dataLen)
      else ({ buf with olFlags := olFlags }, none) := by
  have hlen : len.toNat % 2 ^ 16 = len.toNat := Nat.mod_eq_of_lt len.toNat_lt
  unfold appendPayload
  by_cases hfit : buf.dataLen + len.toNat ≤ mbufDataRoom
  · rw [rtePktmbufAppend_of_fits hfit, if_pos hfit]
  · rw [rtePktmbufAppend, hlen, if_pos (by omega), if_neg hfit]

end

/-! ## The frames of `do_client` -/

section
variable {build : ClientBuild} {rodata mem : Mem} {katran : UInt32} {info info' : PreparePacketInfo}
  {draws : Draws} {id : Nat} {buf hdr pkt : Mbuf} {payloadLength : Int}

/-- Headers, then payload: the packet is complete exactly when the payload fits behind the
headers. -/
theorem buildPacket_eq {flags : UInt64} {len : UInt16}
    (hprep : preparePacket build katran info draws buf =
      (let res := appendPayload hdr len flags
       some (res.1, info', res.2)))
    (hroom : hdr.dataLen ≤ mbufDataRoom) :
    buildPacket build rodata katran info payloadLength draws buf =
      if hdr.dataLen + len.toNat ≤ mbufDataRoom then
        some { hdr with
          data := writePayload build rodata hdr.data hdr.dataLen payloadLength draws
          dataLen := hdr.dataLen + len.toNat, olFlags := flags }
      else none := by
  rw [buildPacket, hprep, appendPayload_eq hroom]
  split <;> rfl

/-- The eight bytes at which the receiver expects a timestamp, in a TCP frame: acknowledgement
number 321, data offset, the flags ACK and PSH, window 256. -/
def tcpTimestampPlace (katran : UInt32) : UInt64 :=
  if katran > 0 then 0x0100187000000141 else 0x0100185000000141

/-- A 64-bit load in the parts that the fields of a TCP header make up. -/
theorem load64_parts (m : Mem) (a : Nat) :
    load64 m a = UInt64.ofNat (loadLE m a 4 + 256 ^ 4 * ((m (a + 4)).toNat +
      256 * ((m (a + 5)).toNat + 256 * loadLE m (a + 6) 2))) := by
  rw [load64, loadLE_add m 4 4]
  rfl

/-- Those eight bytes, assembled from the four assignments that write them. -/
theorem load64_tcpFields (m : Mem) (a : Nat) (dataOff : UInt8) :
    load64 (storeHost16 (store8 (store8 (storeHost32 m a 321) (a + 4) dataOff) (a + 5) tcpAckPsh)
        (a + 6) 256) a
      = UInt64.ofNat (321 + 256 ^ 4 * (dataOff.toNat + 256 * (tcpAckPsh.toNat + 256 * 256))) := by
  have hwin : ∀ m' : Mem, loadLE (storeHost16 m' (a + 6) 256) (a + 6) 2 = 256 :=
    fun m' => loadLE_storeLE m' (a + 6) 2 256
  have hack : loadLE (storeHost32 m a 321) a 4 = 321 := loadLE_storeLE m a 4 321
  rw [load64_parts, hwin]
  -- the stores behind the acknowledgement number do not touch it
  repeat rw [loadLE_store_of_disjoint (by omega)]
  rw [hack]
  simp (disch := omega) only [store_of_not_mem, store_of_mem]

/-- **The fields of a TCP packet of `do_client`.** -/
theorem buildPacket_tcp_fields (htcp : build.useTcp = true) (hts : build.payloadNumber = false)
    (h : buildPacket build rodata katran info payloadLength draws (Mbuf.alloc id mem) = some pkt) :
    fieldsEnd info.useVlan ≤ pkt.dataLen ∧
    ∃ info', selectClientAddr info draws.rank = some info' ∧
      frameFields info.useVlan pkt.data =
        { dstMac := info.dstMac, srcMac := info.srcMac
          etherType := expectedEtherType info.useVlan
          srcIp := info'.srcIp, dstIp := info.dstIp
          srcPort := info'.srcPort, dstPort := info.dstPort
          word := tcpTimestampPlace katran } := by
  cases hsel : selectClientAddr info draws.rank with
  | none =>
    simp [buildPacket, preparePacket, htcp, prepareTcp, prepareEthVlanIp_none id mem hsel] at h
  | some info' =>
    have hprep : preparePacket build katran info draws (Mbuf.alloc id mem) = _ :=
      (if_pos htcp).trans (prepareTcp_alloc id mem katran draws.myrand hsel)
    rw [buildPacket_eq hprep (tcpHeaders_room ..)] at h
    split at h
    · rw [← Option.some.inj h]
      refine ⟨?_, info', rfl, ?_⟩
      · simp only [tcpHeaders, fieldsEnd, tcpHdrLen, udpHdrLen]
        omega
      · simp only [writePayload, hts, payloadTimestamp, payloadConstantNum, tcpHeaders, tcpMem]
        generalize payloadCopyLen (payloadLength % 2 ^ 64).toNat = len
        have hsrc : tcpSrcPort = udpSrcPort := rfl
        have hdst : tcpDstPort = udpDstPort := rfl
        by_cases hk : katran > 0
        · cases hv : info.useVlan <;>
            simp (disch := first | decide | (left; decide)) [frameFields, ethVlanIpMem, hv, hk,
              hsrc, hdst, ethernetHeader, ipv4Header, katranOption, sizeTcpOpts, countNoopOpt,
              tcpTimestampPlace, loadMac_storeMac, load32_store32, load16_store16,
              loadMac_store_of_disjoint, load32_store_of_disjoint, load16_store_of_disjoint,
              load64_store_of_disjoint]
          all_goals exact load64_tcpFields _ _ _
        · cases hv : info.useVlan <;>
            simp (disch := first | decide | (left; decide)) [frameFields, ethVlanIpMem, hv, hk,
              hsrc, hdst, ethernetHeader, ipv4Header, sizeTcpOpts,
              tcpTimestampPlace, loadMac_storeMac, load32_store32, load16_store16,
              loadMac_store_of_disjoint, load32_store_of_disjoint, load16_store_of_disjoint,
              load64_store_of_disjoint]
          all_goals exact load64_tcpFields _ _ _
    · simp at h

end

/-! ## The frames of `do_latency_client` -/

section
variable (cksums : Cksums) (cntx : Context) (serverEth : EtherAddr) (timestamp : UInt64)

/-- `payload_length` of `do_latency_client`. -/
def latencyPayloadLength (cntx : Context) : UInt32 := UInt32.ofInt cntx.payloadLength

theorem latencyPayloadLength_toNat (h0 : 0 ≤ cntx.payloadLength)
    (h1 : cntx.payloadLength < 2 ^ 32) :
    ((latencyPayloadLength cntx).toNat : Int) = cntx.payloadLength := by
  rw [latencyPayloadLength, toNat_uint32_ofInt]
  omega

/-- The buffer after the IPv4 header. -/
def latencyHeaders (id : Nat) (mem : Mem) : Mbuf where
  id := id
  data :=
    let m := storeMac mem ethSrcAddr cntx.myEth
    let m := storeMac m ethDstAddr serverEth
    let m := store16 m ethEtherType etherTypeIpv4
    let m := store8 m (etherHdrLen + ipVersionIhl) 0x45
    let m := store8 m (etherHdrLen + ipTypeOfService) 0
    let m := store16 m (etherHdrLen + ipTotalLength)
      (UInt16.ofNat (ipv4HdrLen + udpHdrLen + (latencyPayloadLength cntx).toNat))
    let m := storeHost16 m (etherHdrLen + ipPacketId) 0
    let m := storeHost16 m (etherHdrLen + ipFragmentOffset) 0
    let m := store8 m (etherHdrLen + ipTimeToLive) 64
    let m := store8 m (etherHdrLen + ipNextProtoId) ipprotoUdp
    let m := storeHost16 m (etherHdrLen + ipHdrChecksum) 0
    let m := store32 m (etherHdrLen + ipSrcAddr) cntx.srcIp
    store32 m (etherHdrLen + ipDstAddr) (cntx.dstIps.getD 0 0)
  dataLen := etherHdrLen + ipv4HdrLen
  l2Len := 0
  l3Len := 0
  olFlags := 0

/-- The UDP header and the payload. -/
def latencyUdp (udp : Nat) (m : Mem) : Mem :=
  let m := store16 m (udp + udpSrcPort) cntx.srcPort
  let m := store16 m (udp + udpDstPort) cntx.dstPort
  let m := store16 m (udp + udpDgramLen)
    (UInt16.ofNat (udpHdrLen + (latencyPayloadLength cntx).toNat))
  let m := storeHost16 m (udp + udpDgramCksum) 0
  let m := store64 m (udp + udpHdrLen) timestamp
  store m (udp + udpHdrLen + 8) (memsetLen (latencyPayloadLength cntx)) fun _ => 0xAB

/-- The two checksums. -/
def latencyCksums (udp : Nat) (m : Mem) : Mem :=
  let m := storeHost16 m (etherHdrLen + ipHdrChecksum) (cksums.ipv4 m etherHdrLen)
  storeHost16 m (udp + udpDgramCksum) (cksums.udpTcp m etherHdrLen udp)

/-- A packet of the latency client is complete exactly when the last append succeeds. The length
of that append is cut down to 16 bits. -/
theorem latencyPacket_eq (id : Nat) (mem : Mem) :
    latencyPacket cksums cntx serverEth timestamp (Mbuf.alloc id mem) =
      let udp := etherHdrLen + ipv4HdrLen
      let len := (udpHdrLen + (latencyPayloadLength cntx).toNat) % 2 ^ 16
      if udp + len ≤ mbufDataRoom then
        some { id := id
               data := latencyCksums cksums udp
                (latencyUdp cntx timestamp udp (latencyHeaders cntx serverEth id mem).data)
               dataLen := udp + len
               l2Len := etherHdrLen, l3Len := ipv4HdrLen, olFlags := olFlagsUdp }
      else none := by
  have hbind : latencyPacket cksums cntx serverEth timestamp (Mbuf.alloc id mem) =
      (rtePktmbufAppend (latencyHeaders cntx serverEth id mem)
        (udpHdrLen + (latencyPayloadLength cntx).toNat)).bind fun p =>
          some { p.1 with
            data := latencyCksums cksums p.2 (latencyUdp cntx timestamp p.2 p.1.data)
            l2Len := etherHdrLen, l3Len := ipv4HdrLen, olFlags := olFlagsUdp } := rfl
  have hlen : (latencyHeaders cntx serverEth id mem).dataLen = etherHdrLen + ipv4HdrLen := rfl
  have hroom : etherHdrLen + ipv4HdrLen ≤ mbufDataRoom := by decide
  rw [hbind, rtePktmbufAppend, hlen]
  by_cases hfit : etherHdrLen + ipv4HdrLen +
      (udpHdrLen + (latencyPayloadLength cntx).toNat) % 2 ^ 16 ≤ mbufDataRoom
  · rw [if_neg (by omega), if_pos hfit]
    rfl
  · rw [if_pos (by omega), if_neg hfit]
    rfl

end

end DpdkEcho
