import DpdkEcho.Main
import DpdkEcho.Properties.Frames
import DpdkEcho.Properties.ServerBurst

/-!
# From a client to the server and back

The frames of `prepare_udp` come back with the timestamp they left with. Those of
`do_latency_client` do so as long as the timestamp is part of the frame: `rte_pktmbuf_append` takes
the length as a `uint16_t`, and a payload of 65536 bytes is appended as none at all. The frames of
`prepare_tcp` come back as well, but the receiver looks for the timestamp where a UDP packet would
have it, and finds the middle of the TCP header.
-/

namespace DpdkEcho

open Infra

/-! ## There and back -/

/-- The server worker accepts the frame `rcv`, and `echoed` is what it sends back: in every
iteration that reads the frame, with whatever else fits into `tx_buf`, `echoed` is handed to the
driver. -/
def ServerEchoes (cntx : Context) (rcv echoed : Mbuf) : Prop :=
  passesFilters cntx rcv = true ∧ echoed = echoRewrite cntx.useVlan rcv ∧
    ∀ (hz : UInt64) (st : ServerState) (inp : ServerInput), polls hz cntx st inp →
      rcv ∈ rxBurst inp.waiting serverBurstSize →
      (rxBurst inp.waiting serverBurstSize).countP (passesFilters cntx) ≤ txBufSize →
      echoed ∈ sentBufs (serverStep hz cntx st inp).2

/-- A frame for the server's address comes back turned around. -/
theorem serverEchoes_of_fields {cntx : Context} (hbidi : cntx.bidi = true) {rcv : Mbuf}
    {f : FrameFields} (hf : frameFields cntx.useVlan rcv.data = f) (hmac : f.dstMac = cntx.myEth)
    (htype : f.etherType = expectedEtherType cntx.useVlan) (hip : f.dstIp = cntx.srcIp) :
    ServerEchoes cntx rcv (echoRewrite cntx.useVlan rcv) ∧
      frameFields cntx.useVlan (echoRewrite cntx.useVlan rcv).data = f.swap := by
  subst hf
  have hpass := passesFilters_of_fields hmac htype hip
  refine ⟨⟨hpass, rfl, ?_⟩, echoRewrite_fields cntx.useVlan rcv⟩
  intro hz st inp hpoll hmem hk
  have hrecv := serverStep_received hz cntx st inp hpoll
  rw [((serverStep_freed_sent hz cntx st inp (by rw [hrecv]; exact hk)).1 hbidi).2, hrecv]
  exact List.mem_map_of_mem (List.mem_filter.mpr ⟨hmem, hpass⟩)

/-- A frame that is long enough goes to the server and back: what arrives at the client has the
fields of the frame that was sent, turned around. -/
theorem roundTrip_fields {cntx : Context} (hbidi : cntx.bidi = true) {pkt rcv : Mbuf}
    {f : FrameFields} (hf : frameFields cntx.useVlan pkt.data = f)
    (hlen : fieldsEnd cntx.useVlan ≤ pkt.dataLen) (hmac : f.dstMac = cntx.myEth)
    (htype : f.etherType = expectedEtherType cntx.useVlan) (hip : f.dstIp = cntx.srcIp)
    (hrcv : Delivered cntx.useVlan pkt rcv) :
    ∃ echoed, ServerEchoes cntx rcv echoed ∧ ∀ back, Delivered cntx.useVlan echoed back →
      frameFields cntx.useVlan back.data = f.swap := by
  obtain ⟨hecho, hswap⟩ := serverEchoes_of_fields hbidi ((hrcv.fields hlen).trans hf) hmac htype hip
  refine ⟨_, hecho, fun back hback => (hback.fields ?_).trans hswap⟩
  exact Nat.le_trans hlen hrcv.1

/-- A frame of `do_client` comes back and is counted, with whatever stands at the place of the
timestamp. -/
theorem client_roundTrip (build : ClientBuild) {server cntx : Context} (hbidi : server.bidi = true)
    (hvlan : server.useVlan = cntx.useVlan) (hdrop : build.rxJustDrop = false)
    (hnum : build.payloadNumber = false) {pkt rcv : Mbuf} {f : FrameFields}
    (hf : frameFields cntx.useVlan pkt.data = f) (hlen : fieldsEnd cntx.useVlan ≤ pkt.dataLen)
    (hsrc : f.srcMac = cntx.myEth) (hdst : f.dstIp ∈ cntx.dstIps)
    (htype : f.etherType = expectedEtherType cntx.useVlan) (hmac : f.dstMac = server.myEth)
    (hip : f.dstIp = server.srcIp) (hrcv : Delivered cntx.useVlan pkt rcv) :
    ∃ echoed, ServerEchoes server rcv echoed ∧ ∀ back, Delivered cntx.useVlan echoed back →
      ∃ k, cntx.dstIps[k]? = some f.dstIp ∧ (∀ j, j < k → cntx.dstIps[j]? ≠ some f.dstIp) ∧
        ∀ (log : ℚ → ℚ) (hz now : UInt64) (st : ReceiverState),
          receiverPacket log hz build cntx now st back
            = (st.count log hz cntx now k f.swap, [.received k f.word, .free back]) := by
  rw [← hvlan] at hf hlen htype hrcv ⊢
  obtain ⟨echoed, hecho, hback⟩ := roundTrip_fields hbidi hf hlen hmac htype hip hrcv
  refine ⟨echoed, hecho, fun back hdel => ?_⟩
  obtain ⟨k, hk⟩ := exists_findDst hdst
  obtain ⟨hk1, hk2⟩ := findDst_eq_some_iff.mp hk
  refine ⟨k, hk1, hk2, fun log hz now st => ?_⟩
  have hfields := hback back hdel
  rw [hvlan] at hfields htype
  exact receiverPacket_fields log hz cntx now build hdrop hnum st hfields hsrc htype hk

/-- A wire that changes nothing delivers. -/
theorem Delivered.refl (useVlan : Bool) (buf : Mbuf) : Delivered useVlan buf buf :=
  ⟨Nat.le_refl _, fun _ _ _ => rfl⟩

/-- A client at 10.0.0.1 that talks to `sampleServer`. -/
def sampleUdpClient : Context :=
  { sampleServer with
    myEth := ⟨[2, 0, 0, 0, 0, 1], rfl⟩, srcIp := 0x0A000001, dstIps := [0x01010101]
    payloadLength := 64, basePortNumber := 8080 }

/-- A packet of that client for flow 0. -/
def sampleInfo : PreparePacketInfo where
  useVlan := false
  clientAddressSelection := .fixClientAddr
  srcMac := sampleUdpClient.myEth
  dstMac := sampleServer.myEth
  srcIp := 0x0A000001
  dstIp := 0x01010101
  srcPort := 3000
  dstPort := 8080
  tci := 0
  payloadLength := 64
  countPort := 1

/-- The receiver thread before its first packet. -/
def sampleReceiver : ReceiverState := ⟨fun _ => newPHist 30, fun _ => 0⟩

/-- A TCP packet comes back and is counted, with the middle of its header for a timestamp. -/
theorem tcp_roundTrip (server cntx : Context) (hbidi : server.bidi = true)
    (hvlan : server.useVlan = cntx.useVlan) {rodata mem : Mem} {katran : UInt32}
    {info : PreparePacketInfo} {payloadLength : Int} {draws : Draws} {id : Nat} {pkt rcv : Mbuf}
    (hv : info.useVlan = cntx.useVlan) (hsrc : info.srcMac = cntx.myEth)
    (hdst : info.dstIp ∈ cntx.dstIps) (hmac : info.dstMac = server.myEth)
    (hip : info.dstIp = server.srcIp)
    (hbuild : buildPacket .clientTcpTimestamp rodata katran info payloadLength draws
      (Mbuf.alloc id mem) = some pkt)
    (hrcv : Delivered cntx.useVlan pkt rcv) :
    ∃ echoed, ServerEchoes server rcv echoed ∧ ∀ back, Delivered cntx.useVlan echoed back →
      ∃ k, ∀ (log : ℚ → ℚ) (hz now : UInt64) (st : ReceiverState),
        (receiverPacket log hz .clientTcpTimestamp cntx now st back).2
          = [.received k (tcpTimestampPlace katran), .free back] := by
  obtain ⟨hend, info', -, hf⟩ := buildPacket_tcp_fields rfl rfl hbuild
  rw [hv] at hf hend
  obtain ⟨echoed, hecho, hback⟩ := client_roundTrip .clientTcpTimestamp hbidi hvlan rfl rfl hf hend
    hsrc hdst rfl hmac hip hrcv
  refine ⟨echoed, hecho, fun back hdel => ?_⟩
  obtain ⟨k, -, -, hrecv⟩ := hback back hdel
  refine ⟨k, fun log hz now st => ?_⟩
  rw [hrecv]

/--
**When the timestamp survives in the TCP build.** A TCP packet is echoed and counted as a UDP
packet is. The timestamp the receiver extracts is the one the sender wrote exactly when the
sender's timer happened to read the bytes 8 to 15 of the TCP header.
-/
theorem tcp_echo_timestamp_iff (server cntx : Context) (hbidi : server.bidi = true)
    (hvlan : server.useVlan = cntx.useVlan) (rodata mem : Mem) (katran : UInt32)
    (info : PreparePacketInfo) (payloadLength : Int) (draws : Draws) (id : Nat) (pkt rcv : Mbuf)
    (hv : info.useVlan = cntx.useVlan) (hsrc : info.srcMac = cntx.myEth)
    (hdst : info.dstIp ∈ cntx.dstIps) (hmac : info.dstMac = server.myEth)
    (hip : info.dstIp = server.srcIp)
    (hbuild : buildPacket .clientTcpTimestamp rodata katran info payloadLength draws
      (Mbuf.alloc id mem) = some pkt)
    (hrcv : Delivered cntx.useVlan pkt rcv) :
    ∃ echoed, ServerEchoes server rcv echoed ∧ ∀ back, Delivered cntx.useVlan echoed back →
      ∃ k timestamp, (∀ (log : ℚ → ℚ) (hz now : UInt64) (st : ReceiverState),
          (receiverPacket log hz .clientTcpTimestamp cntx now st back).2
            = [.received k timestamp, .free back]) ∧
        (timestamp = draws.timestamp ↔ draws.timestamp = tcpTimestampPlace katran) := by
  obtain ⟨echoed, hecho, hback⟩ := tcp_roundTrip server cntx hbidi hvlan hv hsrc hdst hmac hip
    hbuild hrcv
  refine ⟨echoed, hecho, fun back hdel => ?_⟩
  obtain ⟨k, hrecv⟩ := hback back hdel
  exact ⟨k, tcpTimestampPlace katran, hrecv, eq_comm⟩

/-- The sample packet, sent with TCP at a time that happens to be the right one. -/
theorem tcp_echo_timestamp_sample :
    ∃ pkt echoed k, buildPacket .clientTcpTimestamp (fun _ => 0) 0 sampleInfo 64
        ⟨0, 0, 0x0100185000000141, 0⟩ (Mbuf.alloc 0 fun _ => 0) = some pkt ∧
      ServerEchoes sampleServer pkt echoed ∧
      (receiverPacket id 1000 .clientTcpTimestamp sampleUdpClient 20000 sampleReceiver echoed).2
        = [.received k 0x0100185000000141, .free echoed] := by
  obtain ⟨pkt, hpkt⟩ : ∃ pkt, buildPacket .clientTcpTimestamp (fun _ => 0) 0 sampleInfo 64
      ⟨0, 0, 0x0100185000000141, 0⟩ (Mbuf.alloc 0 fun _ => 0) = some pkt := ⟨_, rfl⟩
  obtain ⟨echoed, hecho, hback⟩ := tcp_echo_timestamp_iff sampleServer sampleUdpClient rfl rfl
    (fun _ => 0) (fun _ => 0) 0 sampleInfo 64 ⟨0, 0, 0x0100185000000141, 0⟩ 0 pkt pkt rfl rfl
    (by decide) rfl rfl hpkt (Delivered.refl _ _)
  obtain ⟨k, timestamp, hrecv, hiff⟩ := hback echoed (Delivered.refl _ _)
  refine ⟨pkt, echoed, k, hpkt, hecho, ?_⟩
  rw [hrecv, hiff.mpr (by decide)]

/-- The sample packet, sent at time 12345 with TCP: the receiver extracts another timestamp. -/
theorem tcp_echo_timestamp_lost :
    ∃ pkt echoed k timestamp, buildPacket .clientTcpTimestamp (fun _ => 0) 0 sampleInfo 64
        ⟨0, 0, 12345, 0⟩ (Mbuf.alloc 0 fun _ => 0) = some pkt ∧
      ServerEchoes sampleServer pkt echoed ∧
      (receiverPacket id 1000 .clientTcpTimestamp sampleUdpClient 20000 sampleReceiver echoed).2
        = [.received k timestamp, .free echoed] ∧
      timestamp ≠ 12345 := by
  obtain ⟨pkt, hpkt⟩ : ∃ pkt, buildPacket .clientTcpTimestamp (fun _ => 0) 0 sampleInfo 64
      ⟨0, 0, 12345, 0⟩ (Mbuf.alloc 0 fun _ => 0) = some pkt := ⟨_, rfl⟩
  obtain ⟨echoed, hecho, hback⟩ := tcp_roundTrip sampleServer sampleUdpClient
    rfl rfl rfl rfl (by decide) rfl rfl hpkt (Delivered.refl _ _)
  obtain ⟨k, hrecv⟩ := hback echoed (Delivered.refl _ _)
  exact ⟨pkt, echoed, k, tcpTimestampPlace 0, hpkt, hecho, hrecv id 1000 20000 sampleReceiver,
    by decide⟩

end DpdkEcho
