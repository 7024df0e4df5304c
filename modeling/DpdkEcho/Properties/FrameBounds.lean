import DpdkEcho.FrameAccess
import DpdkEcho.Properties.ServerBurst

/-!
# How long a received frame has to be

The three receive loops do not look at the length of a frame: what they do and which bytes they
access depends on its contents alone. So a frame is processed within its bounds exactly when it
is long enough for the branch its contents lead into, and a shorter one is processed all the same,
with whatever lies behind it in the buffer.
-/

namespace DpdkEcho

open Infra

/-! ## `do_server` -/

section
variable {cntx : Context} {m : Mem}

theorem echoTail_notOurs (hip : load32 m (l2Len cntx.useVlan + ipDstAddr) ≠ cntx.srcIp) (n : Nat) :
    (echoTail cntx).value m = .notOurs ∧
      ((echoTail cntx).InBounds m n ↔ l2Len cntx.useVlan + 20 ≤ n) := by
  unfold echoTail
  rw [Access.value_bind, Access.inBounds_bind, read32, Access.value_read, Access.mem_read,
    Access.inBounds_read, if_pos hip]
  refine ⟨rfl, ?_⟩
  rw [Access.inBounds_pure, and_true]
  exact Iff.rfl

theorem echoTail_counted (hip : load32 m (l2Len cntx.useVlan + ipDstAddr) = cntx.srcIp)
    (hb : cntx.bidi = false) (n : Nat) :
    (echoTail cntx).value m = .counted ∧
      ((echoTail cntx).InBounds m n ↔ l2Len cntx.useVlan + 20 ≤ n) := by
  unfold echoTail
  rw [Access.value_bind, Access.inBounds_bind, read32, Access.value_read, Access.mem_read,
    Access.inBounds_read, if_neg (not_not.mpr hip), if_pos (by rw [hb]; exact Bool.false_ne_true)]
  refine ⟨rfl, ?_⟩
  rw [Access.inBounds_pure, and_true]
  exact Iff.rfl

/-- A frame that is sent back is accessed up to the ports. -/
theorem echoTail_echoed (hip : load32 m (l2Len cntx.useVlan + ipDstAddr) = cntx.srcIp)
    (hb : cntx.bidi = true) (n : Nat) :
    (echoTail cntx).value m = .echoed ∧
      (∀ buf : Mbuf, buf.data = m →
        (echoTail cntx).mem m = (echoRewrite cntx.useVlan buf).data) ∧
      ((echoTail cntx).InBounds m n ↔ l2Len cntx.useVlan + 24 ≤ n) := by
  have hl2 : 14 ≤ l2Len cntx.useVlan := by
    unfold l2Len
    split <;> decide
  unfold echoTail
  rw [Access.value_bind, Access.mem_bind, Access.inBounds_bind, read32, Access.value_read,
    Access.mem_read, Access.inBounds_read, if_neg (not_not.mpr hip), if_neg (not_not.mpr hb)]
  refine ⟨rfl, ?_, ?_⟩
  · rintro buf rfl
    rfl
  · simp only [Access.inBounds_bind, Access.inBounds_read, Access.inBounds_write,
      Access.inBounds_pure, and_true, readMac, writeMac, read32, write32, read16, write16,
      ipDstAddr, ipSrcAddr, ethSrcAddr, ethDstAddr, ipv4HdrLen, udpSrcPort, udpDstPort]
    omega

end

/-- The bytes of a frame the server accesses: the IPv4 destination, and up to the ports of a packet
it sends back. -/
def serverNeeds (cntx : Context) (m : Mem) : Nat :=
  if load32 m (l2Len cntx.useVlan + ipDstAddr) = cntx.srcIp ∧ cntx.bidi = true then
    l2Len cntx.useVlan + 24
  else l2Len cntx.useVlan + 20

theorem echoTail_inBounds (cntx : Context) (m : Mem) (n : Nat) :
    (echoTail cntx).InBounds m n ↔ serverNeeds cntx m ≤ n := by
  unfold serverNeeds
  by_cases hip : load32 m (l2Len cntx.useVlan + ipDstAddr) = cntx.srcIp
  · cases hb : cntx.bidi with
    | true =>
      rw [if_pos ⟨hip, rfl⟩]
      exact (echoTail_echoed hip hb n).2.2
    | false =>
      rw [if_neg fun h => Bool.false_ne_true h.2]
      exact (echoTail_counted hip hb n).2
  · rw [if_neg fun h => hip h.1]
    exact (echoTail_notOurs hip n).2

/-- The accesses written out are the body of the server's loop. -/
theorem echoPacket_eq_tail {cntx : Context} {buf : Mbuf} (h : serverTests cntx buf) (now : UInt64)
    (st : EchoState) :
    echoPacket cntx now st buf =
      echoResult now st buf ((echoTail cntx).value buf.data) ((echoTail cntx).mem buf.data) := by
  obtain ⟨hcheck, htype⟩ := h
  have hvalid : ¬ (cntx.doArp = true ∧ ¬ (checkEthHdr cntx.srcIp cntx.myEth buf).valid = true) :=
    fun hbad => hbad.2 (hcheck hbad.1)
  unfold echoPacket
  simp only []
  rw [if_neg hvalid, if_neg (not_not.mpr htype)]
  by_cases hip : load32 buf.data (l2Len cntx.useVlan + ipDstAddr) = cntx.srcIp
  · rw [if_neg (not_not.mpr hip)]
    cases hb : cntx.bidi with
    | true =>
      obtain ⟨hvalue, hmem, -⟩ := echoTail_echoed hip hb 0
      rw [if_neg (not_not.mpr rfl), hvalue, hmem buf rfl]
      rfl
    | false =>
      obtain ⟨hvalue, -⟩ := echoTail_counted hip hb 0
      rw [if_pos Bool.false_ne_true, hvalue]
      rfl
  · rw [if_pos hip, (echoTail_notOurs hip 0).1]
    rfl

/-! ## `_run_receiver_thread` -/

/-- The bytes of a frame the receiver accesses: the IPv4 source, and the timestamp of a packet that
comes from a destination. -/
def receiverNeeds (build : ClientBuild) (cntx : Context) (m : Mem) : Nat :=
  if (findDst cntx.dstIps (load32 m (l2Len cntx.useVlan + ipSrcAddr))).isSome ∧
      build.payloadNumber = false then
    l2Len cntx.useVlan + 36
  else l2Len cntx.useVlan + 16

section
variable {build : ClientBuild} {cntx : Context} {m : Mem}

/-- A frame that is not counted is accessed up to the IPv4 source. -/
theorem receiverTail_none
    (h : findDst cntx.dstIps (load32 m (l2Len cntx.useVlan + ipSrcAddr)) = none ∨
      build.payloadNumber = true) (n : Nat) :
    (receiverTail build cntx).value m = none ∧
      ((receiverTail build cntx).InBounds m n ↔ l2Len cntx.useVlan + 16 ≤ n) := by
  unfold receiverTail
  simp only [Access.value_bind, Access.inBounds_bind, read8, read32, Access.value_read,
    Access.mem_read, Access.inBounds_read]
  cases hdst : findDst cntx.dstIps (load32 m (l2Len cntx.useVlan + ipSrcAddr)) with
  | none =>
    simp only [Access.value_pure, Access.inBounds_pure, and_true, true_and, ipNextProtoId,
      ipSrcAddr]
    omega
  | some k =>
    have hnum : build.payloadNumber = true := by
      rcases h with hnone | hnum
      · rw [hnone] at hdst
        cases hdst
      · exact hnum
    simp only [hnum, if_true, Access.value_pure, Access.inBounds_pure, and_true, true_and,
      ipNextProtoId, ipSrcAddr]
    omega

/-- A packet that is counted is accessed up to the timestamp. -/
theorem receiverTail_some {k : Nat}
    (hdst : findDst cntx.dstIps (load32 m (l2Len cntx.useVlan + ipSrcAddr)) = some k)
    (hnum : build.payloadNumber = false) (n : Nat) :
    (receiverTail build cntx).value m =
        some (k, load64 m (l2Len cntx.useVlan + ipv4HdrLen + udpHdrLen),
          load16 m (l2Len cntx.useVlan + ipv4HdrLen + udpSrcPort)) ∧
      ((receiverTail build cntx).InBounds m n ↔ l2Len cntx.useVlan + 36 ≤ n) := by
  unfold receiverTail
  simp only [Access.value_bind, Access.inBounds_bind, read8, read32, read64, read16,
    Access.value_read, Access.mem_read, Access.inBounds_read, hdst, hnum, Bool.false_eq_true,
    if_false, Access.value_pure, Access.inBounds_pure, and_true, true_and]
  simp only [ipNextProtoId, ipSrcAddr, ipv4HdrLen, udpHdrLen, udpSrcPort]
  omega

end

theorem receiverTail_inBounds (build : ClientBuild) (cntx : Context) (m : Mem) (n : Nat) :
    (receiverTail build cntx).InBounds m n ↔ receiverNeeds build cntx m ≤ n := by
  unfold receiverNeeds
  cases hdst : findDst cntx.dstIps (load32 m (l2Len cntx.useVlan + ipSrcAddr)) with
  | none =>
    rw [if_neg fun h => Bool.false_ne_true h.1]
    exact (receiverTail_none (Or.inl hdst) n).2
  | some k =>
    cases hnum : build.payloadNumber with
    | true =>
      rw [if_neg fun h => Bool.false_ne_true h.2.symm]
      exact (receiverTail_none (Or.inr hnum) n).2
    | false =>
      rw [if_pos ⟨rfl, rfl⟩]
      exact (receiverTail_some hdst hnum n).2

/-- The accesses written out are the body of the receiver's loop. -/
theorem receiverPacket_eq_tail {build : ClientBuild} {cntx : Context} {buf : Mbuf}
    (h : receiverTests build cntx buf) (log : ℚ → ℚ) (hz now : UInt64) (st : ReceiverState) :
    receiverPacket log hz build cntx now st buf =
      receiverResult log hz now cntx st buf ((receiverTail build cntx).value buf.data) := by
  obtain ⟨hdrop, hvalid, htype⟩ := h
  unfold receiverPacket
  simp only []
  rw [if_neg (by rw [hdrop]; exact Bool.false_ne_true), if_neg (not_not.mpr hvalid),
    if_neg (not_not.mpr htype)]
  split
  · next hdst =>
    rw [(receiverTail_none (Or.inl hdst) 0).1]
    rfl
  · next k hdst =>
    split
    · next hnum =>
      rw [(receiverTail_none (Or.inr hnum) 0).1]
      rfl
    · next hnum =>
      rw [(receiverTail_some hdst (eq_false_of_ne_true hnum) 0).1]
      unfold recordLatency receiverResult
      simp only []
      split <;> rfl

/-! ## `do_latency_client` -/

theorem replyTail_inBounds (hdrSizeDelta : UInt16) (m : Mem) (n : Nat) :
    (replyTail hdrSizeDelta).InBounds m n ↔ 50 + hdrSizeDelta.toNat ≤ n := by
  unfold replyTail
  rw [read64, Access.inBounds_read]
  simp only [etherHdrLen, ipv4HdrLen, udpHdrLen]
  omega

/-- The access written out is the body of the latency client's loop. -/
theorem replyPacket_eq_tail {cntx : Context} {buf : Mbuf} (h : replyTests cntx buf)
    (hz respRecvTime : UInt64) (hdrSizeDelta : UInt16) {st : ReplyState}
    (hst : st.aborted = false) :
    replyPacket hz cntx hdrSizeDelta respRecvTime st buf =
      replyResult hz respRecvTime st buf ((replyTail hdrSizeDelta).value buf.data) := by
  obtain ⟨hvalid, htype⟩ := h
  unfold replyPacket
  simp only []
  rw [if_neg (by rw [hst]; exact Bool.false_ne_true), if_neg (not_not.mpr hvalid),
    if_neg (not_not.mpr htype)]
  rfl

/-! ## All three loops -/

/--
**Frame lengths.** A frame that passes the tests of a receive loop is processed by its contents,
whatever its length. The accesses of the rest of the body lie inside the frame exactly when it
has at least

* 20 bytes behind the link layer for the server, 24 if the packet is sent back
* 16 bytes behind the link layer for the receiver, 36 if the packet is counted
* 50 bytes plus the configured shift of the timestamp for the latency client
-/
theorem frame_accesses_in_bounds_iff (buf : Mbuf) :
    (∀ (cntx : Context) (now : UInt64) (st : EchoState), serverTests cntx buf →
      echoPacket cntx now st buf =
        echoResult now st buf ((echoTail cntx).value buf.data) ((echoTail cntx).mem buf.data) ∧
      ((echoTail cntx).InBounds buf.data buf.dataLen ↔
        serverNeeds cntx buf.data ≤ buf.dataLen)) ∧
    (∀ (build : ClientBuild) (cntx : Context) (log : ℚ → ℚ) (hz now : UInt64) (st : ReceiverState),
      receiverTests build cntx buf →
      receiverPacket log hz build cntx now st buf =
        receiverResult log hz now cntx st buf ((receiverTail build cntx).value buf.data) ∧
      ((receiverTail build cntx).InBounds buf.data buf.dataLen ↔
        receiverNeeds build cntx buf.data ≤ buf.dataLen)) ∧
    (∀ (cntx : Context) (hz respRecvTime : UInt64) (hdrSizeDelta : UInt16) (st : ReplyState),
      replyTests cntx buf → st.aborted = false →
      replyPacket hz cntx hdrSizeDelta respRecvTime st buf =
        replyResult hz respRecvTime st buf ((replyTail hdrSizeDelta).value buf.data) ∧
      ((replyTail hdrSizeDelta).InBounds buf.data buf.dataLen ↔
        50 + hdrSizeDelta.toNat ≤ buf.dataLen)) := by
  refine ⟨?_, ?_, ?_⟩
  · intro cntx now st h
    exact ⟨echoPacket_eq_tail h now st, echoTail_inBounds ..⟩
  · intro build cntx log hz now st h
    exact ⟨receiverPacket_eq_tail h log hz now st, receiverTail_inBounds ..⟩
  · intro cntx hz respRecvTime delta st h hst
    exact ⟨replyPacket_eq_tail h hz respRecvTime delta hst, replyTail_inBounds ..⟩

/-- 60 bytes are enough for a packet that is sent back, for one that is counted and for a reply. -/
theorem frame_accesses_in_bounds_sixty :
    (echoTail sampleServer).InBounds (samplePacket 0).data (samplePacket 0).dataLen ∧
    (receiverTail .app { sampleServer with dstIps := [0] }).InBounds (samplePacket 0).data
      (samplePacket 0).dataLen ∧
    (replyTail 0).InBounds (samplePacket 0).data (samplePacket 0).dataLen := by
  obtain ⟨hserver, hreceiver, hreply⟩ := frame_accesses_in_bounds_iff (samplePacket 0)
  have hvalid : (checkEthHdr sampleServer.srcIp sampleServer.myEth (samplePacket 0)).valid
      = true := by decide
  have htype : load16 (samplePacket 0).data ethEtherType = etherTypeIpv4 := by decide
  refine ⟨?_, ?_, ?_⟩
  · exact (hserver sampleServer 0 sampleState.echoStart ⟨fun _ => hvalid, htype⟩).2.mpr (by decide)
  · exact (hreceiver .app { sampleServer with dstIps := [0] } (fun x => x) 0 0
      ⟨fun _ => newPHist 0, fun _ => 0⟩ ⟨rfl, hvalid, htype⟩).2.mpr (by decide)
  · exact (hreply sampleServer 0 0 0 ⟨0, [], false⟩ ⟨hvalid, htype⟩ rfl).2.mpr (by decide)

/-- A frame of 14 bytes: an Ethernet header, to everybody, that announces IPv4. -/
def bareHeader : Mbuf where
  id := 0
  data := store16 (storeMac (fun _ => 0) ethDstAddr broadcastMac) ethEtherType etherTypeIpv4
  dataLen := 14
  l2Len := 0
  l3Len := 0
  olFlags := 0

theorem checkEthHdr_bareHeader (myIp : UInt32) (hostMac : EtherAddr) :
    (checkEthHdr myIp hostMac bareHeader).valid = true := by
  refine (checkEthHdr_valid_iff ..).mpr ⟨Or.inr ?_, ?_⟩
  · simp (disch := decide) only [bareHeader, loadMac_store_of_disjoint, loadMac_storeMac]
  · rw [bareHeader, load16_store16]
    decide

/-- All three loops let the bare header through and read past its end. -/
theorem bare_header_read_past_end :
    (serverTests sampleServer bareHeader ∧
      ¬ (echoTail sampleServer).InBounds bareHeader.data bareHeader.dataLen) ∧
    (receiverTests .app sampleServer bareHeader ∧
      ¬ (receiverTail .app sampleServer).InBounds bareHeader.data bareHeader.dataLen) ∧
    (replyTests sampleServer bareHeader ∧
      ¬ (replyTail 0).InBounds bareHeader.data bareHeader.dataLen) := by
  have hvalid := checkEthHdr_bareHeader sampleServer.srcIp sampleServer.myEth
  have htype : load16 bareHeader.data ethEtherType = etherTypeIpv4 := load16_store16 ..
  refine ⟨⟨⟨fun _ => hvalid, htype⟩, fun h => ?_⟩, ⟨⟨rfl, hvalid, htype⟩, fun h => ?_⟩,
    ⟨hvalid, htype⟩, fun h => ?_⟩
  · have hneeds := (echoTail_inBounds ..).mp h
    unfold serverNeeds at hneeds
    split at hneeds <;> exact absurd hneeds (by decide)
  · have hneeds := (receiverTail_inBounds ..).mp h
    unfold receiverNeeds at hneeds
    split at hneeds <;> exact absurd hneeds (by decide)
  · exact absurd ((replyTail_inBounds ..).mp h) (by decide)

end DpdkEcho
