import DpdkEcho.Client.Receiver
import DpdkEcho.LatencyClient
import DpdkEcho.Server

/-!
# A frame as the programs see it

The builders, the echo loop and the receivers share no code. What connects them is the handful of
fields that they all look at, `FrameFields`.

* `echoRewrite_fields` — the server exchanges sender and receiver and leaves the rest
* `Delivered.fields` — the network may fill in the checksums and pad the frame, but it keeps these
* `receiverPacket_fields`, `replyPacket_fields` — what a client does with a frame is a matter of
  its fields
-/

namespace DpdkEcho

open Infra

/-- The fields of a frame that decide what becomes of it. `word` are the eight bytes after the
first eight bytes behind the IPv4 header: the place of a timestamp behind a UDP header. -/
@[ext] structure FrameFields where
  dstMac : EtherAddr
  srcMac : EtherAddr
  etherType : UInt16
  srcIp : UInt32
  dstIp : UInt32
  srcPort : UInt16
  dstPort : UInt16
  word : UInt64

/-- The fields of a buffer's contents. -/
def frameFields (useVlan : Bool) (m : Mem) : FrameFields where
  dstMac := loadMac m ethDstAddr
  srcMac := loadMac m ethSrcAddr
  etherType := load16 m ethEtherType
  srcIp := load32 m (l2Len useVlan + ipSrcAddr)
  dstIp := load32 m (l2Len useVlan + ipDstAddr)
  srcPort := load16 m (l2Len useVlan + ipv4HdrLen + udpSrcPort)
  dstPort := load16 m (l2Len useVlan + ipv4HdrLen + udpDstPort)
  word := load64 m (l2Len useVlan + ipv4HdrLen + udpHdrLen)

/-- The frame turned around. -/
def FrameFields.swap (f : FrameFields) : FrameFields :=
  { f with
    dstMac := f.srcMac, srcMac := f.dstMac
    srcIp := f.dstIp, dstIp := f.srcIp
    srcPort := f.dstPort, dstPort := f.srcPort }

/-- **The echo turns a frame around.** -/
theorem echoRewrite_fields (useVlan : Bool) (buf : Mbuf) :
    frameFields useVlan (echoRewrite useVlan buf).data
      = (frameFields useVlan buf.data).swap := by
  cases useVlan <;>
    simp (disch := decide) only [frameFields, FrameFields.swap, echoRewrite, Mbuf.write_data,
      loadMac_storeMac, load32_store32, load16_store16, loadMac_store_of_disjoint,
      load32_store_of_disjoint, load16_store_of_disjoint, load64_store_of_disjoint]

/-! ## The network -/

/-- Behind the last of the fields. -/
def fieldsEnd (useVlan : Bool) : Nat := l2Len useVlan + ipv4HdrLen + udpHdrLen + 8

/-- The bytes of the IPv4 header checksum and of the two places where a UDP or a TCP header has
its checksum, which the network card fills in. -/
def isCksumByte (useVlan : Bool) (i : Nat) : Prop :=
  i = l2Len useVlan + ipHdrChecksum ∨ i = l2Len useVlan + ipHdrChecksum + 1 ∨
    i = l2Len useVlan + ipv4HdrLen + udpDgramCksum ∨
    i = l2Len useVlan + ipv4HdrLen + udpDgramCksum + 1 ∨
    i = l2Len useVlan + ipv4HdrLen + tcpCksum ∨ i = l2Len useVlan + ipv4HdrLen + tcpCksum + 1

/-- `rcv` is what arrives of the frame `sent`: the same bytes but for the checksums, possibly
padded behind the end. -/
def Delivered (useVlan : Bool) (sent rcv : Mbuf) : Prop :=
  sent.dataLen ≤ rcv.dataLen ∧
    ∀ i, i < sent.dataLen → ¬ isCksumByte useVlan i → rcv.data i = sent.data i

/-- What is long enough to hold the fields arrives with them. -/
theorem Delivered.fields {useVlan : Bool} {sent rcv : Mbuf} (h : Delivered useVlan sent rcv)
    (hlen : fieldsEnd useVlan ≤ sent.dataLen) :
    frameFields useVlan rcv.data = frameFields useVlan sent.data := by
  have hbyte : ∀ i, i < fieldsEnd useVlan → ¬ isCksumByte useVlan i →
      rcv.data i = sent.data i := fun i hi hc => h.2 i (Nat.lt_of_lt_of_le hi hlen) hc
  -- no field overlaps a checksum, whether the headers are shifted by a tag or not
  cases useVlan <;>
    simp only [fieldsEnd, isCksumByte, frameFields, l2Len, etherHdrLen, vlanHdrLen, ipv4HdrLen,
      udpHdrLen, ipHdrChecksum, udpDgramCksum, tcpCksum, ethDstAddr, ethSrcAddr, ethEtherType,
      ipSrcAddr, ipDstAddr, udpSrcPort, udpDstPort, if_true, Bool.false_eq_true, if_false,
      FrameFields.mk.injEq] at hbyte ⊢ <;>
    exact ⟨loadMac_congr fun i h1 h2 => hbyte i (by omega) (by omega),
      loadMac_congr fun i h1 h2 => hbyte i (by omega) (by omega),
      load16_congr fun i h1 h2 => hbyte i (by omega) (by omega),
      load32_congr fun i h1 h2 => hbyte i (by omega) (by omega),
      load32_congr fun i h1 h2 => hbyte i (by omega) (by omega),
      load16_congr fun i h1 h2 => hbyte i (by omega) (by omega),
      load16_congr fun i h1 h2 => hbyte i (by omega) (by omega),
      load64_congr fun i h1 h2 => hbyte i (by omega) (by omega)⟩

/-! ## The filters -/

/-- A frame for the host passes `check_eth_hdr`, whatever else is in it. -/
theorem checkEthHdr_valid_of_fields {useVlan : Bool} (myIp : UInt32) {hostMac : EtherAddr}
    {buf : Mbuf} (hmac : (frameFields useVlan buf.data).dstMac = hostMac)
    (htype : (frameFields useVlan buf.data).etherType = expectedEtherType useVlan) :
    (checkEthHdr myIp hostMac buf).valid = true := by
  refine (checkEthHdr_valid_iff myIp hostMac buf).mpr ⟨Or.inl hmac, ?_⟩
  rw [show load16 buf.data ethEtherType = expectedEtherType useVlan from htype]
  cases useVlan <;> decide

/-- A server echoes the frames for its own address. -/
theorem passesFilters_of_fields {cntx : Context} {buf : Mbuf}
    (hmac : (frameFields cntx.useVlan buf.data).dstMac = cntx.myEth)
    (htype : (frameFields cntx.useVlan buf.data).etherType = expectedEtherType cntx.useVlan)
    (hip : (frameFields cntx.useVlan buf.data).dstIp = cntx.srcIp) :
    passesFilters cntx buf = true := by
  have hvalid := checkEthHdr_valid_of_fields cntx.srcIp hmac htype
  have htype' : load16 buf.data ethEtherType = expectedEtherType cntx.useVlan := htype
  have hip' : load32 buf.data (l2Len cntx.useVlan + ipDstAddr) = cntx.srcIp := hip
  simp [passesFilters, hvalid, htype', hip']

/-- `findDst` returns the least index that holds the address. -/
theorem findDst_eq_some_iff {dstIps : List UInt32} {ip : UInt32} {k : Nat} :
    findDst dstIps ip = some k ↔ dstIps[k]? = some ip ∧ ∀ j, j < k → dstIps[j]? ≠ some ip := by
  rw [findDst, List.findIdx?_eq_some_iff_getElem]
  constructor
  · rintro ⟨hk, heq, hlt⟩
    refine ⟨?_, fun j hj hget => ?_⟩
    · rw [List.getElem?_eq_getElem hk, eq_of_beq heq]
    · obtain ⟨hj', hget⟩ := List.getElem?_eq_some_iff.mp hget
      exact hlt j hj (beq_iff_eq.mpr hget)
  · rintro ⟨hget, hlt⟩
    obtain ⟨hk, hget⟩ := List.getElem?_eq_some_iff.mp hget
    refine ⟨hk, beq_iff_eq.mpr hget, fun j hj hbeq => hlt j hj ?_⟩
    rw [List.getElem?_eq_getElem (Nat.lt_trans hj hk), eq_of_beq hbeq]

theorem exists_findDst {dstIps : List UInt32} {ip : UInt32} (h : ip ∈ dstIps) :
    ∃ k, findDst dstIps ip = some k := by
  rw [← Option.isSome_iff_exists, findDst, List.findIdx?_isSome, List.any_eq_true]
  exact ⟨ip, h, beq_self_eq_true ip⟩

/-! ## The receivers -/

section
variable (log : ℚ → ℚ) (hz : UInt64) (cntx : Context) (now : UInt64)

/-- The state of the receiver thread after it has counted a frame of destination `k`. -/
def ReceiverState.count (st : ReceiverState) (k : Nat) (f : FrameFields) : ReceiverState where
  hist :=
    if f.srcPort.toUInt32 = cntx.basePortNumber then
      Function.update st.hist k (addNumberToPHist log (st.hist k) (latencyUs hz now f.word).toNat)
    else st.hist
  totalReceivedPkts := Function.update st.totalReceivedPkts k (st.totalReceivedPkts k + 1)

/-- **What the receiver thread does with a frame for the client** depends on its fields only. -/
theorem receiverPacket_fields (build : ClientBuild) (hdrop : build.rxJustDrop = false)
    (hnum : build.payloadNumber = false) (st : ReceiverState) {buf : Mbuf} {k : Nat}
    {f : FrameFields} (hf : frameFields cntx.useVlan buf.data = f) (hmac : f.dstMac = cntx.myEth)
    (htype : f.etherType = expectedEtherType cntx.useVlan)
    (hk : findDst cntx.dstIps f.srcIp = some k) :
    receiverPacket log hz build cntx now st buf
      = (st.count log hz cntx now k f, [.received k f.word, .free buf]) := by
  subst hf
  have hvalid := checkEthHdr_valid_of_fields cntx.srcIp hmac htype
  have htype' : load16 buf.data ethEtherType = expectedEtherType cntx.useVlan := htype
  have hk' : findDst cntx.dstIps (load32 buf.data (l2Len cntx.useVlan + ipSrcAddr)) = some k := hk
  rw [receiverPacket, if_neg (by simp [hdrop])]
  simp only [hvalid, htype', hk', hnum, recordLatency]
  by_cases hport : (load16 buf.data (l2Len cntx.useVlan + ipv4HdrLen + udpSrcPort)).toUInt32
      = cntx.basePortNumber
  · simp [ReceiverState.count, frameFields, hport]
  · simp [ReceiverState.count, frameFields, hport]

end

end DpdkEcho
