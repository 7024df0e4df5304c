import DpdkEcho.Net.Decode
import DpdkEcho.Properties.ArpResolution
import DpdkEcho.Properties.Frames

/-!
# The frames of the clients, decoded

What `prepare_udp` and `prepare_tcp` write is read back by a decoder that knows the standards and
not the builders.

* `HeaderBytes` — the fields of the common headers; `udpMem_header` and `tcpMem_header` say that
  the builders write them
* `HeaderBytes.decodeEther`, `HeaderBytes.decodeIpv4` — what the decoder makes of them
* `prepared_frames_well_formed` — the whole frame
-/

namespace DpdkEcho

open Infra

/-! ## The common headers -/

/-- The headers in `m`, up to the ports: addresses of `info` but for the source address and port,
which are given. -/
structure HeaderBytes (m : Mem) (info : PreparePacketInfo) (srcIp : UInt32) (srcPort : UInt16)
    (proto : UInt8) (total : UInt16) : Prop where
  dstMac : loadMac m ethDstAddr = info.dstMac
  srcMac : loadMac m ethSrcAddr = info.srcMac
  etherType : load16 m ethEtherType = expectedEtherType info.useVlan
  tci : info.useVlan = true → load16 m (etherHdrLen + vlanTci) = info.tci
  inner : info.useVlan = true → load16 m (etherHdrLen + vlanEthProto) = etherTypeIpv4
  versionIhl : m (l2Len info.useVlan + ipVersionIhl) = 0x45
  total : load16 m (l2Len info.useVlan + ipTotalLength) = total
  fragment : load16 m (l2Len info.useVlan + ipFragmentOffset) = 0
  proto : m (l2Len info.useVlan + ipNextProtoId) = proto
  srcIp : load32 m (l2Len info.useVlan + ipSrcAddr) = srcIp
  dstIp : load32 m (l2Len info.useVlan + ipDstAddr) = info.dstIp
  srcPort : load16 m (l2Len info.useVlan + ipv4HdrLen + udpSrcPort) = srcPort
  dstPort : load16 m (l2Len info.useVlan + ipv4HdrLen + udpDstPort) = info.dstPort

/-- Zero has the same bytes in either order. -/
theorem load16_storeHost16_zero (m : Mem) (off : Nat) : load16 (storeHost16 m off 0) off = 0 := by
  have hzero : ∀ i, byteOf (0 : UInt16).toNat i = 0 := fun i => by simp [byteOf]
  have hsame : storeHost16 m off 0 = store16 m off 0 :=
    store_congr fun i _ => by rw [hzero, hzero]
  rw [hsame, load16_store16]

section
variable {m : Mem} {info : PreparePacketInfo} {srcIp : UInt32} {srcPort : UInt16}
  {proto : UInt8} {total : UInt16}

/-- The fields lie in front of the end of the ports. -/
theorem HeaderBytes.congr (h : HeaderBytes m info srcIp srcPort proto total) (m' : Mem)
    (heq : ∀ a, a < l2Len info.useVlan + ipv4HdrLen + 4 → m' a = m a) :
    HeaderBytes m' info srcIp srcPort proto total := by
  have hl2 : 14 ≤ l2Len info.useVlan := by cases info.useVlan <;> decide
  have htag : info.useVlan = true → 18 ≤ l2Len info.useVlan := fun hv => by rw [hv]; decide
  obtain ⟨h1, h2, h3, h4, h5, h6, h7, h8, h9, h10, h11, h12, h13⟩ := h
  have hipv4 : ipv4HdrLen = 20 := rfl
  have hip : ∀ off, off < 24 → m' (l2Len info.useVlan + off) = m (l2Len info.useVlan + off) :=
    fun off hoff => heq _ (by omega)
  refine ⟨?_, ?_, ?_, fun hv => ?_, fun hv => ?_, ?_, ?_, ?_, ?_, ?_, ?_, ?_, ?_⟩
  · rw [← h1]; exact loadMac_congr fun b _ hb => heq b (by simp only [ethDstAddr] at hb; omega)
  · rw [← h2]; exact loadMac_congr fun b _ hb => heq b (by simp only [ethSrcAddr] at hb; omega)
  · rw [← h3]; exact load16_congr fun b _ hb => heq b (by simp only [ethEtherType] at hb; omega)
  · have := htag hv
    rw [← h4 hv]
    exact load16_congr fun b _ hb => heq b (by simp only [etherHdrLen, vlanTci] at hb; omega)
  · have := htag hv
    rw [← h5 hv]
    exact load16_congr fun b _ hb => heq b (by simp only [etherHdrLen, vlanEthProto] at hb; omega)
  · rw [← h6]; exact hip _ (by decide)
  · rw [← h7]; exact load16_congr fun b _ hb => heq b (by simp only [ipTotalLength] at hb; omega)
  · rw [← h8]; exact load16_congr fun b _ hb => heq b (by simp only [ipFragmentOffset] at hb; omega)
  · rw [← h9]; exact hip _ (by decide)
  · rw [← h10]; exact load32_congr fun b _ hb => heq b (by simp only [ipSrcAddr] at hb; omega)
  · rw [← h11]; exact load32_congr fun b _ hb => heq b (by simp only [ipDstAddr] at hb; omega)
  · rw [← h12]; exact load16_congr fun b _ hb => heq b (by simp only [udpSrcPort] at hb; omega)
  · rw [← h13]; exact load16_congr fun b _ hb => heq b (by simp only [udpDstPort] at hb; omega)

/-- What is written behind the ports does not change them. -/
theorem HeaderBytes.store (h : HeaderBytes m info srcIp srcPort proto total) {off n : Nat}
    {f : Nat → UInt8} (hoff : l2Len info.useVlan + ipv4HdrLen + 4 ≤ off) :
    HeaderBytes (store m off n f) info srcIp srcPort proto total :=
  h.congr _ fun _ ha => store_of_not_mem (by omega)

/-- The stores that both builders begin with. -/
theorem headerBytes_ports (mem : Mem) (info : PreparePacketInfo) (srcIp : UInt32)
    (srcPort : UInt16) (proto : UInt8) (total : UInt16) :
    let ip := l2Len info.useVlan
    let m := ethVlanIpMem mem info srcIp
    let m := store8 m (ip + ipNextProtoId) proto
    let m := store16 m (ip + ipTotalLength) total
    let m := store16 m (ip + ipv4HdrLen + udpSrcPort) srcPort
    HeaderBytes (store16 m (ip + ipv4HdrLen + udpDstPort) info.dstPort) info srcIp srcPort proto
      total := by
  cases hv : info.useVlan <;>
    constructor <;>
      simp (disch := first | decide | (left; decide)) [ethVlanIpMem, hv, ethernetHeader,
        ipv4Header, load16_storeHost16_zero, loadMac_storeMac, load32_store32, load16_store16,
        loadMac_store_of_disjoint, load32_store_of_disjoint, load16_store_of_disjoint,
        store_of_mem, store_of_not_mem]

end

section
variable (mem : Mem) (info info' : PreparePacketInfo)

theorem udpMem_header : HeaderBytes (udpMem mem info info') info info'.srcIp info'.srcPort
    ipprotoUdp (UInt16.ofNat ipv4HdrLen + (UInt16.ofNat udpHdrLen + info.payloadLength)) := by
  have hports := headerBytes_ports mem info info'.srcIp info'.srcPort ipprotoUdp
    (UInt16.ofNat ipv4HdrLen + (UInt16.ofNat udpHdrLen + info.payloadLength))
  have hlen : udpDgramLen = 4 := rfl
  have hcksum : udpDgramCksum = 6 := rfl
  exact (hports.store (by omega)).store (by omega)

theorem tcpMem_header (katran : UInt32) (myrand : Int) :
    HeaderBytes (tcpMem mem info info' katran myrand) info info'.srcIp info'.srcPort ipprotoTcp
      (UInt16.ofNat
        (ipv4HdrLen + (tcpHdrLen + sizeTcpOpts katran) + info.payloadLength.toNat)) := by
  have hports := headerBytes_ports mem info info'.srcIp info'.srcPort ipprotoTcp
    (UInt16.ofNat (ipv4HdrLen + (tcpHdrLen + sizeTcpOpts katran) + info.payloadLength.toNat))
  have hoff : ∀ {k : Nat}, 4 ≤ k →
      l2Len info.useVlan + ipv4HdrLen + 4 ≤ l2Len info.useVlan + ipv4HdrLen + k :=
    fun hk => by omega
  have hopts : tcpHdrLen = 20 := rfl
  unfold tcpMem
  simp only []
  split
  · exact hports.store (hoff (by decide)) |>.store (hoff (by decide)) |>.store (hoff (by decide))
      |>.store (hoff (by decide)) |>.store (hoff (by decide)) |>.store (hoff (by decide))
      |>.store (hoff (by decide)) |>.store (by omega) |>.store (by omega) |>.store (by omega)
      |>.store (by omega)
  · exact hports.store (hoff (by decide)) |>.store (hoff (by decide)) |>.store (hoff (by decide))
      |>.store (hoff (by decide)) |>.store (hoff (by decide)) |>.store (hoff (by decide))
      |>.store (hoff (by decide))

end

/-! ## The decoder on these headers -/

section
variable {m : Mem} {info : PreparePacketInfo} {srcIp : UInt32} {srcPort : UInt16} {proto : UInt8}
  {total : UInt16} {len : Nat}

/-- The link layer of a frame for `info`. -/
def etherView (info : PreparePacketInfo) : EtherView where
  dstMac := info.dstMac
  srcMac := info.srcMac
  tci := if info.useVlan then some info.tci else none
  etherType := etherTypeIpv4
  next := l2Len info.useVlan

theorem HeaderBytes.decodeEther (h : HeaderBytes m info srcIp srcPort proto total)
    (hlen : l2Len info.useVlan ≤ len) : decodeEther m len = some (etherView info) := by
  have hdst : loadMac m 0 = info.dstMac := h.dstMac
  have hsrc : loadMac m 6 = info.srcMac := h.srcMac
  have htype : load16 m 12 = expectedEtherType info.useVlan := h.etherType
  cases hv : info.useVlan with
  | false =>
    have hne : expectedEtherType false ≠ 0x8100 := by decide
    rw [hv] at hlen htype
    have h14 : ¬ len < 14 := not_lt.mpr hlen
    simp only [DpdkEcho.decodeEther, if_neg h14, htype, if_neg hne, hdst, hsrc, etherView, hv]
    rfl
  | true =>
    have htci : load16 m 14 = info.tci := h.tci hv
    have hinner : load16 m 16 = etherTypeIpv4 := h.inner hv
    have heq : expectedEtherType true = 0x8100 := by decide
    rw [hv] at hlen htype
    have h18 : 18 ≤ len := hlen
    simp only [DpdkEcho.decodeEther, if_neg (show ¬ len < 14 by omega),
      if_neg (show ¬ len < 18 by omega), htype, if_pos heq, hdst, hsrc, htci, hinner, etherView, hv]
    rfl

/-- The network layer of a frame for `info`. -/
def ipv4View (info : PreparePacketInfo) (srcIp : UInt32) (proto : UInt8) (total : UInt16) :
    Ipv4View where
  headerLength := ipv4HdrLen
  totalLength := total.toNat
  proto := proto
  srcIp := srcIp
  dstIp := info.dstIp

theorem HeaderBytes.decodeIpv4 (h : HeaderBytes m info srcIp srcPort proto total)
    (htotal : ipv4HdrLen ≤ total.toNat) (hlen : l2Len info.useVlan + total.toNat ≤ len) :
    decodeIpv4 m (l2Len info.useVlan) len = some (ipv4View info srcIp proto total) := by
  have hver : m (l2Len info.useVlan) = 0x45 := h.versionIhl
  have htot : load16 m (l2Len info.useVlan + 2) = total := h.total
  have hfrag : load16 m (l2Len info.useVlan + 6) = 0 := h.fragment
  have hproto : m (l2Len info.useVlan + 9) = proto := h.proto
  have hsrc : load32 m (l2Len info.useVlan + 12) = srcIp := h.srcIp
  have hdst : load32 m (l2Len info.useVlan + 16) = info.dstIp := h.dstIp
  have hipv4 : ipv4HdrLen = 20 := rfl
  have hihl : 4 * ((0x45 : UInt8).toNat % 16) = 20 := by decide
  have hver4 : (0x45 : UInt8).toNat / 16 = 4 := by decide
  simp only [DpdkEcho.decodeIpv4, hver, htot, hfrag, hproto, hsrc, hdst, hihl, hver4, ipv4View]
  rw [if_neg]
  · rfl
  · rintro (h1 | h1 | h1 | h1 | h1 | h1)
    · omega
    · exact h1 rfl
    · omega
    · omega
    · omega
    · exact h1 (by decide)

theorem HeaderBytes.decodeFrame (h : HeaderBytes m info srcIp srcPort proto total)
    (htotal : ipv4HdrLen ≤ total.toNat) (hlen : l2Len info.useVlan + total.toNat ≤ len) :
    decodeFrame m len
      = decodeTransport m (etherView info) (ipv4View info srcIp proto total) := by
  have hether := h.decodeEther (show l2Len info.useVlan ≤ len by omega)
  have htype : ¬ (etherView info).etherType ≠ 0x0800 := fun hne => hne rfl
  have hnext : (etherView info).next = l2Len info.useVlan := rfl
  rw [DpdkEcho.decodeFrame, hether, Option.bind_eq_bind, Option.bind_some, if_neg htype, hnext,
    h.decodeIpv4 htotal hlen]
  rfl

end

section
variable {m : Mem} {info : PreparePacketInfo} {srcIp : UInt32} {srcPort : UInt16}
  {total : UInt16} {len : Nat}

/-- A frame with a UDP header. -/
theorem HeaderBytes.decodeFrame_udp (h : HeaderBytes m info srcIp srcPort ipprotoUdp total)
    {dgramLen : UInt16}
    (hdgram : load16 m (l2Len info.useVlan + ipv4HdrLen + udpDgramLen) = dgramLen)
    (h8 : udpHdrLen ≤ dgramLen.toNat) (htotal : total.toNat = ipv4HdrLen + dgramLen.toNat)
    (hlen : l2Len info.useVlan + total.toNat ≤ len) :
    DpdkEcho.decodeFrame m len = some {
      ether := etherView info
      ip := ipv4View info srcIp ipprotoUdp total
      transportOff := l2Len info.useVlan + ipv4HdrLen
      transport := .udp { srcPort := srcPort, dstPort := info.dstPort, dgramLen := dgramLen.toNat }
      payload := l2Len info.useVlan + ipv4HdrLen + udpHdrLen
      payloadLength := dgramLen.toNat - udpHdrLen } := by
  have h1 : load16 m (l2Len info.useVlan + ipv4HdrLen) = srcPort := h.srcPort
  have h2 : load16 m (l2Len info.useVlan + ipv4HdrLen + 2) = info.dstPort := h.dstPort
  have h3 : load16 m (l2Len info.useVlan + ipv4HdrLen + 4) = dgramLen := hdgram
  have hudpLen : udpHdrLen = 8 := rfl
  have hproto : ipprotoUdp = 17 := rfl
  have hnext : (etherView info).next = l2Len info.useVlan := rfl
  rw [h.decodeFrame (by omega) hlen]
  simp only [decodeTransport, hnext, ipv4View, if_pos hproto, decodeUdp, h1, h2, h3]
  rw [if_neg (by omega)]
  rfl

/-- A frame with a TCP header. -/
theorem HeaderBytes.decodeFrame_tcp (h : HeaderBytes m info srcIp srcPort ipprotoTcp total)
    {headerLength : Nat} {options : List TcpOption}
    (hoff : 4 * ((m (l2Len info.useVlan + ipv4HdrLen + tcpDataOff)).toNat / 16) = headerLength)
    (hwalk : walkOptions (headerLength - 20) ((List.range (headerLength - 20)).map fun i =>
      m (l2Len info.useVlan + ipv4HdrLen + 20 + i)) = some options)
    (h20 : tcpHdrLen ≤ headerLength) (htotal : ipv4HdrLen + headerLength ≤ total.toNat)
    (hlen : l2Len info.useVlan + total.toNat ≤ len) :
    DpdkEcho.decodeFrame m len = some {
      ether := etherView info
      ip := ipv4View info srcIp ipprotoTcp total
      transportOff := l2Len info.useVlan + ipv4HdrLen
      transport := .tcp {
        srcPort := srcPort, dstPort := info.dstPort, headerLength := headerLength
        options := options }
      payload := l2Len info.useVlan + ipv4HdrLen + headerLength
      payloadLength := total.toNat - ipv4HdrLen - headerLength } := by
  have h1 : load16 m (l2Len info.useVlan + ipv4HdrLen) = srcPort := h.srcPort
  have h2 : load16 m (l2Len info.useVlan + ipv4HdrLen + 2) = info.dstPort := h.dstPort
  have h3 : 4 * ((m (l2Len info.useVlan + ipv4HdrLen + 12)).toNat / 16) = headerLength := hoff
  have htcpLen : tcpHdrLen = 20 := rfl
  have hnot : ¬ ipprotoTcp = 17 := by decide
  have hproto : ipprotoTcp = 6 := rfl
  have hnext : (etherView info).next = l2Len info.useVlan := rfl
  rw [h.decodeFrame (by omega) hlen]
  simp only [decodeTransport, hnext, ipv4View, if_neg hnot, if_pos hproto, decodeTcp, h1, h2,
    h3]
  rw [if_neg (by omega), hwalk]
  rfl

end

/-! ## Behind the ports -/

section
variable (mem : Mem) (info info' : PreparePacketInfo) (katran : UInt32) (myrand : Int)

theorem udpMem_dgramLen :
    load16 (udpMem mem info info') (l2Len info.useVlan + ipv4HdrLen + udpDgramLen)
      = UInt16.ofNat udpHdrLen + info.payloadLength := by
  have hafter : l2Len info.useVlan + ipv4HdrLen + udpDgramLen + 2
      ≤ l2Len info.useVlan + ipv4HdrLen + udpDgramCksum := by
    simp only [udpDgramLen, udpDgramCksum]
    omega
  simp only [udpMem]
  rw [load16_store_of_disjoint (Or.inl hafter), load16_store16]

/-- The upper half of the byte is the number of words in the header. -/
theorem tcpMem_dataOff :
    4 * ((tcpMem mem info info' katran myrand
        (l2Len info.useVlan + ipv4HdrLen + tcpDataOff)).toNat / 16)
      = tcpHdrLen + sizeTcpOpts katran := by
  have hbyte : tcpMem mem info info' katran myrand (l2Len info.useVlan + ipv4HdrLen + tcpDataOff)
      = (UInt8.ofNat ((tcpHdrLen + sizeTcpOpts katran) / 4) &&& 0xf) <<< 4 := by
    by_cases hk : katran > 0 <;> cases hv : info.useVlan <;>
      simp (disch := decide) only [tcpMem, hv, hk, if_true, if_false, katranOption, countNoopOpt,
        store_of_mem, store_of_not_mem]
  rw [hbyte]
  by_cases hk : katran > 0
  · rw [sizeTcpOpts, countNoopOpt, if_pos hk, if_pos hk]
    decide
  · rw [sizeTcpOpts, if_neg hk]
    decide

/-- The bytes of the options: two no-ops, kind, length and the server id. -/
theorem tcpMem_options (hk : katran > 0) :
    (List.range 8).map (fun i => tcpMem mem info info' katran myrand
        (l2Len info.useVlan + ipv4HdrLen + 20 + i))
      = [1, 1, katranTcpHdrOptKindTpr, 6] ++
          (List.range 4).map (byteOf (katranSrvId myrand katran).toNat) := by
  cases hv : info.useVlan <;>
    simp (disch := decide) [tcpMem, hv, hk, katranOption, countNoopOpt, List.range_succ,
      store_of_mem, store_of_not_mem] <;>
    exact ⟨rfl, rfl, rfl, rfl, rfl⟩

end

theorem katranSrvId_ne_zero (myrand : Int) (katran : UInt32) : katranSrvId myrand katran ≠ 0 := by
  simp only [katranSrvId]
  split
  · decide
  · next h => exact h

/-- The option in the bytes that `katranOption` writes. -/
def katranTcpOption (srvId : UInt32) : TcpOption where
  kind := katranTcpHdrOptKindTpr
  data := (List.range 4).map (byteOf srvId.toNat)

theorem walkOptions_katran (srvId : UInt32) :
    walkOptions 8 ([1, 1, katranTcpHdrOptKindTpr, 6] ++ (List.range 4).map (byteOf srvId.toNat))
      = some [katranTcpOption srvId] := rfl

theorem katranTcpOption_value (srvId : UInt32) : (katranTcpOption srvId).value = srvId.toNat := by
  have hlt := srvId.toNat_lt
  simp only [TcpOption.value, katranTcpOption, List.range_succ, List.range_zero, List.nil_append,
    List.cons_append, List.map_cons, List.map_nil, List.foldr_cons, List.foldr_nil, toNat_byteOf]
  omega

/-! ## The frame -/

/-- What a frame for `info` is to be, in terms of what the decoder makes of it. `info'` is
`pkt_info` with the source address and port of the packet. -/
structure FrameOk (info : PreparePacketInfo) (rank : Int) (info' : PreparePacketInfo) (buf : Mbuf)
    (payload : Nat) (view : FrameView) : Prop where
  selected : selectClientAddr info rank = some info'
  ipOff : view.ether.next = buf.l2Len
  transportOff : view.transportOff = buf.l2Len + buf.l3Len
  dataLen : buf.dataLen = buf.l2Len + view.ip.totalLength
  macs : view.ether.dstMac = info.dstMac ∧ view.ether.srcMac = info.srcMac
  tci : view.ether.tci = if info.useVlan then some info.tci else none
  ips : view.ip.srcIp = info'.srcIp ∧ view.ip.dstIp = info.dstIp
  payloadOff : view.payload = payload
  payloadLength : view.payloadLength = info.payloadLength.toNat
  payloadEnd : payload + info.payloadLength.toNat = buf.dataLen

/-- The frame decodes as UDP. -/
def UdpFrameOk (info : PreparePacketInfo) (rank : Int) (info' : PreparePacketInfo) (buf : Mbuf)
    (payload : Nat) : Prop :=
  ∃ view, decodeFrame buf.data buf.dataLen = some view ∧
    FrameOk info rank info' buf payload view ∧
    view.transport = .udp {
      srcPort := info'.srcPort
      dstPort := info.dstPort
      dgramLen := view.ip.totalLength - 20 }

/-- The options of a TCP header: nothing, or the Katran option alone. -/
def OptionsOk (katran : UInt32) (options : List TcpOption) : Prop :=
  if katran > 0 then
    ∃ o, options = [o] ∧ o.kind = katranTcpHdrOptKindTpr ∧ o.data.length = 4 ∧ o.value ≠ 0
  else options = []

/-- The frame decodes as TCP. -/
def TcpFrameOk (info : PreparePacketInfo) (katran : UInt32) (rank : Int)
    (info' : PreparePacketInfo) (buf : Mbuf) (payload : Nat) : Prop :=
  ∃ view tcp, decodeFrame buf.data buf.dataLen = some view ∧
    FrameOk info rank info' buf payload view ∧
    view.transport = .tcp tcp ∧ tcp.srcPort = info'.srcPort ∧ tcp.dstPort = info.dstPort ∧
    payload = view.transportOff + tcp.headerLength ∧
    tcp.headerLength = 20 + sizeTcpOpts katran ∧ OptionsOk katran tcp.options

section
variable {info info' : PreparePacketInfo} {rank : Int} {id : Nat} {mem : Mem} {buf : Mbuf}
  {payload : Nat}

/-- A builder that got as far as the payload selected a source address. -/
theorem prepareUdp_selected
    (h : prepareUdp (Mbuf.alloc id mem) info rank = some (buf, info', some payload)) :
    selectClientAddr info rank = some info' := by
  cases hsel : selectClientAddr info rank with
  | none => simp [prepareUdp, prepareEthVlanIp_none id mem hsel] at h
  | some info'' =>
    rw [prepareUdp_alloc id mem hsel] at h
    simp only [Option.some.injEq, Prod.mk.injEq] at h
    rw [h.2.1]

/-- The frame of `prepare_udp`, whatever is written into its payload afterwards. -/
theorem prepareUdp_frameOk {m : Mem}
    (h : prepareUdp (Mbuf.alloc id mem) info rank = some (buf, info', some payload))
    (hm : ∀ a, a < payload → m a = buf.data a) :
    UdpFrameOk info rank info' { buf with data := m } payload := by
  have hsel := prepareUdp_selected h
  rw [prepareUdp_alloc id mem hsel, appendPayload_eq (udpHeaders_room ..)] at h
  split at h
  · next hfit =>
    simp only [Option.some.injEq, Prod.mk.injEq, true_and] at h
    obtain ⟨rfl, rfl⟩ := h
    have hhdr : (udpHeaders id mem info info').dataLen
        = l2Len info.useVlan + ipv4HdrLen + udpHdrLen := rfl
    have hmax : mbufDataRoom = 2048 := rfl
    have h20 : ipv4HdrLen = 20 := rfl
    have h8 : udpHdrLen = 8 := rfl
    have hdgram : (UInt16.ofNat udpHdrLen + info.payloadLength).toNat
        = udpHdrLen + info.payloadLength.toNat := by
      rw [UInt16.toNat_add, UInt16.toNat_ofNat_of_lt' (by decide)]
      omega
    have htotal : (UInt16.ofNat ipv4HdrLen + (UInt16.ofNat udpHdrLen + info.payloadLength)).toNat
        = ipv4HdrLen + (UInt16.ofNat udpHdrLen + info.payloadLength).toNat := by
      rw [UInt16.toNat_add, UInt16.toNat_ofNat_of_lt' (by decide)]
      omega
    have hend : l2Len info.useVlan +
        (UInt16.ofNat ipv4HdrLen + (UInt16.ofNat udpHdrLen + info.payloadLength)).toNat
          = (udpHeaders id mem info info').dataLen + info.payloadLength.toNat := by omega
    have hheader := (udpMem_header mem info info').congr m fun a ha => hm a (by omega)
    have hload : load16 m (l2Len info.useVlan + ipv4HdrLen + udpDgramLen) = _ :=
      (load16_congr fun a _ ha => hm a (by simp only [udpDgramLen] at ha; omega)).trans
        (udpMem_dgramLen mem info info')
    refine ⟨_, hheader.decodeFrame_udp hload (by omega) htotal hend.le, ?_, ?_⟩
    · refine ⟨hsel, rfl, rfl, hend.symm, ⟨rfl, rfl⟩, rfl, ⟨rfl, rfl⟩, rfl, ?_, rfl⟩
      simp only []
      omega
    · simp only [ipv4View]
      congr 2
      omega
  · simp at h

theorem prepareTcp_selected {katran : UInt32} {myrand : Int}
    (h : prepareTcp (Mbuf.alloc id mem) info katran rank myrand
      = some (buf, info', some payload)) :
    selectClientAddr info rank = some info' := by
  cases hsel : selectClientAddr info rank with
  | none => simp [prepareTcp, prepareEthVlanIp_none id mem hsel] at h
  | some info'' =>
    rw [prepareTcp_alloc id mem katran myrand hsel] at h
    simp only [Option.some.injEq, Prod.mk.injEq] at h
    rw [h.2.1]

/-- What the decoder finds between the TCP header and the payload. -/
theorem tcpMem_walk (mem : Mem) (info info' : PreparePacketInfo) (katran : UInt32)
    (myrand : Int) : ∃ options,
      walkOptions (tcpHdrLen + sizeTcpOpts katran - 20)
        ((List.range (tcpHdrLen + sizeTcpOpts katran - 20)).map fun i =>
          tcpMem mem info info' katran myrand (l2Len info.useVlan + ipv4HdrLen + 20 + i))
        = some options ∧ OptionsOk katran options := by
  by_cases hk : katran > 0
  · have hsize : tcpHdrLen + sizeTcpOpts katran - 20 = 8 := by
      rw [sizeTcpOpts, countNoopOpt, if_pos hk, if_pos hk]
      rfl
    refine ⟨[katranTcpOption (katranSrvId myrand katran)], ?_, ?_⟩
    · rw [hsize, tcpMem_options mem info info' katran myrand hk, walkOptions_katran]
    · rw [OptionsOk, if_pos hk]
      refine ⟨_, rfl, rfl, rfl, ?_⟩
      rw [katranTcpOption_value]
      exact fun h => katranSrvId_ne_zero myrand katran (UInt32.toNat_inj.mp h)
  · have hsize : tcpHdrLen + sizeTcpOpts katran - 20 = 0 := by
      rw [sizeTcpOpts, if_neg hk]
      rfl
    refine ⟨[], ?_, ?_⟩
    · rw [hsize]
      rfl
    · rw [OptionsOk, if_neg hk]

/-- The frame of `prepare_tcp`, whatever is written into its payload afterwards. -/
theorem prepareTcp_frameOk {katran : UInt32} {myrand : Int} {m : Mem}
    (h : prepareTcp (Mbuf.alloc id mem) info katran rank myrand
      = some (buf, info', some payload))
    (hm : ∀ a, a < payload → m a = buf.data a) :
    TcpFrameOk info katran rank info' { buf with data := m } payload := by
  have hsel := prepareTcp_selected h
  rw [prepareTcp_alloc id mem katran myrand hsel, appendPayload_eq (tcpHeaders_room ..)] at h
  split at h
  · next hfit =>
    simp only [Option.some.injEq, Prod.mk.injEq, true_and] at h
    obtain ⟨rfl, rfl⟩ := h
    have hhdr : (tcpHeaders id mem info info' katran myrand).dataLen
        = l2Len info.useVlan + ipv4HdrLen + tcpHdrLen + sizeTcpOpts katran := rfl
    have hmax : mbufDataRoom = 2048 := rfl
    have h20 : tcpHdrLen = 20 := rfl
    have htotal : (UInt16.ofNat (ipv4HdrLen + (tcpHdrLen + sizeTcpOpts katran) +
        info.payloadLength.toNat)).toNat
          = ipv4HdrLen + (tcpHdrLen + sizeTcpOpts katran) + info.payloadLength.toNat :=
      UInt16.toNat_ofNat_of_lt' (by simp only [UInt16.size]; omega)
    have hheader := (tcpMem_header mem info info' katran myrand).congr m fun a ha =>
      hm a (by omega)
    have hoff : 4 * ((m (l2Len info.useVlan + ipv4HdrLen + tcpDataOff)).toNat / 16) = _ :=
      (congrArg (fun b : UInt8 => 4 * (b.toNat / 16))
        (hm _ (by simp only [tcpDataOff]; omega))).trans
        (tcpMem_dataOff mem info info' katran myrand)
    obtain ⟨options, hwalk, hoptions⟩ := tcpMem_walk mem info info' katran myrand
    have hbytes : (List.range (tcpHdrLen + sizeTcpOpts katran - 20)).map
          (fun i => m (l2Len info.useVlan + ipv4HdrLen + 20 + i))
        = (List.range (tcpHdrLen + sizeTcpOpts katran - 20)).map fun i =>
          tcpMem mem info info' katran myrand (l2Len info.useVlan + ipv4HdrLen + 20 + i) :=
      List.map_congr_left fun i hi => hm _ (by have := List.mem_range.mp hi; omega)
    rw [← hbytes] at hwalk
    have hend : l2Len info.useVlan + (UInt16.ofNat (ipv4HdrLen +
        (tcpHdrLen + sizeTcpOpts katran) + info.payloadLength.toNat)).toNat
          = (tcpHeaders id mem info info' katran myrand).dataLen + info.payloadLength.toNat := by
      omega
    refine ⟨_, _, hheader.decodeFrame_tcp hoff hwalk (by omega) (by omega) hend.le, ?_, rfl, rfl,
      rfl, ?_, rfl, hoptions⟩
    · refine ⟨hsel, rfl, rfl, hend.symm, ⟨rfl, rfl⟩, rfl, ⟨rfl, rfl⟩, ?_, ?_, rfl⟩
      · simp only []
        omega
      · simp only []
        omega
    · simp only []
      omega
  · simp at h

/-- A frame is built whenever it fits the buffer. -/
theorem prepareUdp_built (hsel : selectClientAddr info rank = some info')
    (hfit : l2Len info.useVlan + 28 + info.payloadLength.toNat ≤ 2048) :
    ∃ buf payload, prepareUdp (Mbuf.alloc id mem) info rank = some (buf, info', some payload) := by
  have hroom : (udpHeaders id mem info info').dataLen + info.payloadLength.toNat
      ≤ mbufDataRoom := hfit
  rw [prepareUdp_alloc id mem hsel, appendPayload_eq (udpHeaders_room ..), if_pos hroom]
  exact ⟨_, _, rfl⟩

theorem prepareTcp_built {katran : UInt32} {myrand : Int}
    (hsel : selectClientAddr info rank = some info')
    (hfit : l2Len info.useVlan + 40 + sizeTcpOpts katran + info.payloadLength.toNat ≤ 2048) :
    ∃ buf payload, prepareTcp (Mbuf.alloc id mem) info katran rank myrand
      = some (buf, info', some payload) := by
  have hhdr : (tcpHeaders id mem info info' katran myrand).dataLen
      = l2Len info.useVlan + 40 + sizeTcpOpts katran := rfl
  have hroom : (tcpHeaders id mem info info' katran myrand).dataLen + info.payloadLength.toNat
      ≤ mbufDataRoom := by rwa [hhdr]
  rw [prepareTcp_alloc id mem katran myrand hsel, appendPayload_eq (tcpHeaders_room ..),
    if_pos hroom]
  exact ⟨_, _, rfl⟩

end

/--
**The frames of both builders are well formed.** Every frame that is built, with its payload, is
decoded to what `info` asked for; and a frame is built whenever there is a source address and the
frame is no longer than the data room of a buffer.
-/
theorem prepared_frames_well_formed (info : PreparePacketInfo) (rank myrand : Int)
    (katran : UInt32) (id : Nat) (mem : Mem) :
    (∀ buf info' payload,
      prepareUdp (Mbuf.alloc id mem) info rank = some (buf, info', some payload) →
        UdpFrameOk info rank info' buf payload) ∧
    (∀ buf info' payload,
      prepareTcp (Mbuf.alloc id mem) info katran rank myrand = some (buf, info', some payload) →
        TcpFrameOk info katran rank info' buf payload) ∧
    ∀ info', selectClientAddr info rank = some info' →
      (l2Len info.useVlan + 28 + info.payloadLength.toNat ≤ 2048 →
        ∃ buf payload,
          prepareUdp (Mbuf.alloc id mem) info rank = some (buf, info', some payload)) ∧
      (l2Len info.useVlan + 40 + sizeTcpOpts katran + info.payloadLength.toNat ≤ 2048 →
        ∃ buf payload, prepareTcp (Mbuf.alloc id mem) info katran rank myrand
          = some (buf, info', some payload)) := by
  refine ⟨fun _ _ _ h => ?_, fun _ _ _ h => ?_, fun _ hsel => ⟨?_, ?_⟩⟩
  · exact prepareUdp_frameOk h fun _ _ => rfl
  · exact prepareTcp_frameOk h fun _ _ => rfl
  · exact prepareUdp_built hsel
  · exact prepareTcp_built hsel

/-- A packet of the sample client. -/
def plainInfo : PreparePacketInfo :=
  pktInfo defaultConfig.client (sampleClient []) broadcastMac 0x0A000002 8080 100

/-- A TCP frame with the Katran option. -/
theorem prepared_frames_sample : ∃ buf payload,
    prepareTcp (Mbuf.alloc 7 fun _ => 0xFF) plainInfo 16 1 42
      = some (buf, plainInfo, some payload) ∧
    TcpFrameOk plainInfo 16 1 plainInfo buf payload := by
  obtain ⟨-, htcp, hbuilt⟩ := prepared_frames_well_formed plainInfo 1 42 16 7 fun _ => 0xFF
  obtain ⟨buf, payload, h⟩ := (hbuilt plainInfo rfl).2 (by decide)
  exact ⟨buf, payload, h, htcp buf plainInfo payload h⟩

end DpdkEcho
