import DpdkEcho.Infra.Machine
import DpdkEcho.Main
import DpdkEcho.Properties.Frames
import DpdkEcho.Properties.Options

/-!
# The payload length on its way from the command line into a packet

`parse_args` admits every positive `int` as payload length. The builder narrows it to 16 bits
for the append, the writer gets it as it is and subtracts the size of the number in front.
-/

namespace DpdkEcho

open Infra

/-! ## The command line -/

/-- The value of the last `--payload` option, or the default. -/
def payloadArg (args : List (Opt × CStr)) : Int :=
  args.foldl (fun p a => if a.1 = .payloadLength then atoi a.2 else p) 64

section
variable {atof : CStr → ℚ} {c c' : AppConfig} {o : Opt} {arg : CStr}

/-- No other option touches the payload length. -/
theorem handleOpt_payloadSize_of_ne (ho : o ≠ .payloadLength)
    (h : handleOpt atof c (o, arg) = .ok c') : c'.payloadSize = c.payloadSize := by
  rw [(handleOpt_ok h).2]
  cases o with
  | payloadLength => exact absurd rfl ho
  | ipLocal | ipDest | noArp | zipfClientAddr | maxNum | port | delay =>
    simp only [applyOpt]
    split <;> rfl
  | _ => rfl

theorem handleOpt_payload (h : handleOpt atof c (.payloadLength, arg) = .ok c') :
    1 ≤ atoi arg ∧ c'.payloadSize = UInt32.ofInt (atoi arg) := by
  simp only [handleOpt, checkClientMode, rteExit, bind, Except.bind] at h
  split at h
  · cases h
  · split at h
    · cases h
    · next hge =>
      rw [← Except.ok.inj h]
      exact ⟨by omega, rfl⟩

theorem atoi_lt (s : CStr) : atoi s < 2 ^ 31 := by
  rw [atoi, wrapSigned]
  exact Int.bmod_lt (by decide)

/-- The payload length recorded so far is `p`, and `p` is a positive `int`. -/
def PayloadIs (p : Int) (c : AppConfig) : Prop :=
  1 ≤ p ∧ p < 2 ^ 31 ∧ c.payloadSize = UInt32.ofInt p

theorem handleOpt_payloadIs (p : Int) (c : AppConfig) (a : Opt × CStr) (c' : AppConfig)
    (hp : PayloadIs p c) (h : handleOpt atof c a = .ok c') :
    PayloadIs (if a.1 = .payloadLength then atoi a.2 else p) c' := by
  obtain ⟨o, arg⟩ := a
  by_cases ho : o = .payloadLength
  · subst ho
    obtain ⟨hpos, hsize⟩ := handleOpt_payload h
    exact ⟨hpos, atoi_lt arg, hsize⟩
  · rw [if_neg ho]
    exact ⟨hp.1, hp.2.1, (handleOpt_payloadSize_of_ne ho h).trans hp.2.2⟩

theorem finishArgs_payloadSize (h : finishArgs c = .ok c') : c'.payloadSize = c.payloadSize := by
  unfold finishArgs at h
  simp only [rteExit, AppConfig.withClient] at h
  repeat' split at h
  all_goals
    first
    | (rw [← Except.ok.inj h])
    | cases h

/-- **What an accepted command line makes of the payload length**: the value of the last
`--payload`, which is any positive `int`. -/
theorem parseArgs_payloadSize {args : List (Opt × CStr)} (h : parseArgs atof args = .ok c) :
    PayloadIs (payloadArg args) c := by
  obtain ⟨c1, hloop, hfinish⟩ := parseArgs_ok h
  have hdefault : PayloadIs 64 defaultConfig := ⟨by decide, by decide, rfl⟩
  obtain ⟨h0, h2, hsize⟩ := foldlM_related PayloadIs handleOpt_payloadIs hdefault hloop
  exact ⟨h0, h2, (finishArgs_payloadSize hfinish).trans hsize⟩

end

/-! ## What a writer must respect -/

/-- `payload_length` as the writers of `do_client` get it, a `size_t`. -/
def writerLength (payloadLength : Int) : Nat := (payloadLength % 2 ^ 64).toNat

/-- The limits on the payload writer of `do_client`: as many bytes are appended as it is told to
fill, the append succeeds within the data room, the length of the copy does not underflow, and
the copy does not read past the end of `PAYLOAD`. -/
structure ClientWriterSafe (build : ClientBuild) (katran : UInt32) (info : PreparePacketInfo)
    (payloadLength : Int) : Prop where
  appended : info.payloadLength.toNat = writerLength payloadLength
  fits : ∀ (draws : Draws) (id : Nat) (mem : Mem) (buf : Mbuf) (info' : PreparePacketInfo)
    (payload : Option Nat), preparePacket build katran info draws (Mbuf.alloc id mem)
      = some (buf, info', payload) →
    ∃ off, payload = some off ∧ off + writerLength payloadLength = buf.dataLen ∧
      buf.dataLen ≤ mbufDataRoom
  no_underflow : 8 ≤ writerLength payloadLength
  source : payloadCopyLen (writerLength payloadLength) ≤ sizeofPayload

/-- The limits on the `memset` of `do_latency_client`. -/
structure LatencyWriterSafe (cntx : Context) : Prop where
  fits : ∀ (cksums : Cksums) (serverEth : EtherAddr) (timestamp : UInt64) (id : Nat) (mem : Mem),
    ∃ pkt, latencyPacket cksums cntx serverEth timestamp (Mbuf.alloc id mem) = some pkt ∧
      pkt.dataLen = etherHdrLen + ipv4HdrLen + udpHdrLen + (latencyPayloadLength cntx).toNat ∧
      pkt.dataLen ≤ mbufDataRoom
  no_underflow : 8 ≤ (latencyPayloadLength cntx).toNat

/-- What both builders leave room for behind the longest headers. -/
theorem preparePacket_fits {build : ClientBuild} {katran : UInt32} {info info' : PreparePacketInfo}
    {draws : Draws} {id : Nat} {mem : Mem} {buf : Mbuf} {payload : Option Nat}
    (hfit : info.payloadLength.toNat + 66 ≤ mbufDataRoom)
    (h : preparePacket build katran info draws (Mbuf.alloc id mem) = some (buf, info', payload)) :
    ∃ off, payload = some off ∧ off + info.payloadLength.toNat = buf.dataLen ∧
      buf.dataLen ≤ mbufDataRoom := by
  have happend : ∀ (hdr : Mbuf) (flags : UInt64), hdr.dataLen ≤ 66 →
      appendPayload hdr info.payloadLength flags = (buf, payload) →
      ∃ off, payload = some off ∧ off + info.payloadLength.toNat = buf.dataLen ∧
        buf.dataLen ≤ mbufDataRoom := by
    intro hdr flags hlen heq
    rw [appendPayload_eq (by omega), if_pos (by omega)] at heq
    obtain ⟨rfl, rfl⟩ := Prod.mk.inj heq
    exact ⟨hdr.dataLen, rfl, rfl, by simp only []; omega⟩
  cases hsel : selectClientAddr info draws.rank with
  | none =>
    cases ht : build.useTcp <;>
      simp [preparePacket, ht, prepareTcp, prepareUdp, prepareEthVlanIp_none id mem hsel] at h
  | some sel =>
    cases ht : build.useTcp with
    | false =>
      rw [preparePacket, if_neg (by simp [ht]), prepareUdp_alloc id mem hsel] at h
      obtain ⟨h1, h2⟩ := Prod.mk.inj (Option.some.inj h)
      exact happend (udpHeaders id mem info sel) olFlagsUdp (udpHeaders_le ..)
        (Prod.ext h1 (Prod.mk.inj h2).2)
    | true =>
      rw [preparePacket, if_pos ht, prepareTcp_alloc id mem katran draws.myrand hsel] at h
      obtain ⟨h1, h2⟩ := Prod.mk.inj (Option.some.inj h)
      exact happend (tcpHeaders id mem info sel katran draws.myrand) olFlagsTcp
        (tcpHeaders_le ..) (Prod.ext h1 (Prod.mk.inj h2).2)

/-- The payload length a client worker gets is the one of the command line. -/
theorem clientContext_payloadLength {config : AppConfig} {p : Int} (h : PayloadIs p config)
    (myEth : EtherAddr) (queuePerCore nextQid i : Nat) :
    (clientContext config myEth queuePerCore nextQid i).payloadLength = p := by
  obtain ⟨h0, h1, hsize⟩ := h
  have hnat : (config.payloadSize.toNat : Int) = p := by
    rw [hsize, toNat_uint32_ofInt]
    omega
  rw [clientContext, hnat]
  exact Int.bmod_eq_of_le (by omega) (by omega)

section
variable {p : Int} (h0 : 1 ≤ p) (h1 : p < 2 ^ 31)
include h0 h1

/-- **The writer of `do_client`** is safe exactly for lengths from 8 to 1509, in every build and
with every combination of headers: `PAYLOAD` is shorter than what a buffer has room for. -/
theorem clientWriterSafe_iff (build : ClientBuild) (katran : UInt32) (info : PreparePacketInfo)
    (hinfo : info.payloadLength = UInt16.ofInt p) :
    ClientWriterSafe build katran info p ↔ 8 ≤ p ∧ p ≤ 1509 := by
  have hlen : (writerLength p : Int) = p := by
    rw [writerLength]
    omega
  have hcopy : 8 ≤ p → (payloadCopyLen (writerLength p) : Int) = p - 8 := by
    intro h8
    rw [payloadCopyLen]
    omega
  have hinfo' : (info.payloadLength.toNat : Int) = p % 2 ^ 16 := by
    rw [hinfo]
    exact toNat_uint16_ofInt p
  constructor
  · -- the two limits of the writer alone exclude every other length
    rintro ⟨-, -, hunder, hsource⟩
    have h8 : 8 ≤ p := by omega
    have hc := hcopy h8
    rw [sizeofPayload] at hsource
    exact ⟨h8, by omega⟩
  · rintro ⟨h8, hmax⟩
    have happended : info.payloadLength.toNat = writerLength p := by omega
    refine ⟨happended, ?_, by omega, ?_⟩
    · intro draws id mem buf info' payload h
      rw [← happended]
      exact preparePacket_fits (by rw [mbufDataRoom]; omega) h
    · have hc := hcopy h8
      rw [sizeofPayload]
      omega

/-- **The `memset` of `do_latency_client`** is safe exactly for lengths from 8 to 2006. -/
theorem latencyWriterSafe_iff {cntx : Context} (hp : cntx.payloadLength = p) :
    LatencyWriterSafe cntx ↔ 8 ≤ p ∧ p ≤ 2006 := by
  have hlen : ((latencyPayloadLength cntx).toNat : Int) = p := by
    rw [latencyPayloadLength_toNat cntx (by omega) (by omega), hp]
  have hhdr : etherHdrLen + ipv4HdrLen + udpHdrLen = 42 := rfl
  have hroom : mbufDataRoom = 2048 := rfl
  constructor
  · rintro ⟨hfits, hunder⟩
    obtain ⟨pkt, -, hdata, hle⟩ := hfits ⟨fun _ _ => 0, fun _ _ _ => 0⟩ broadcastMac 0 0
      (fun _ => 0)
    exact ⟨by omega, by omega⟩
  · rintro ⟨h8, hmax⟩
    refine ⟨fun cksums serverEth timestamp id mem => ?_, by omega⟩
    have hmod : (udpHdrLen + (latencyPayloadLength cntx).toNat) % 2 ^ 16
        = udpHdrLen + (latencyPayloadLength cntx).toNat :=
      Nat.mod_eq_of_lt (by rw [udpHdrLen]; omega)
    have hfit : etherHdrLen + ipv4HdrLen + (udpHdrLen + (latencyPayloadLength cntx).toNat)
        ≤ mbufDataRoom := by omega
    have hpkt := latencyPacket_eq cksums cntx serverEth timestamp id mem
    simp only [hmod, if_pos hfit] at hpkt
    exact ⟨_, hpkt, by simp only []; omega, hfit⟩

end

/--
**Payload lengths that are safe.** Of the lengths an accepted command line can ask for, the
packet builders of `do_client` can handle those from 8 to 1509, the latency client those from 8
to 2006. `parse_args` accepts all from 1 to `INT_MAX`.
-/
theorem payload_writers_safe_iff (atof : CStr → ℚ) (args : List (Opt × CStr)) (config : AppConfig)
    (hparse : parseArgs atof args = .ok config) (myEth : EtherAddr)
    (queuePerCore nextQid i : Nat) :
    let cntx := clientContext config myEth queuePerCore nextQid i
    (config.mode = .client → ∀ (build : ClientBuild) (serverEth : EtherAddr) (dstIp : UInt32)
        (dstPort tci : UInt16),
      (ClientWriterSafe build config.client.addKatranOpt
          (pktInfo config.client cntx serverEth dstIp dstPort tci) cntx.payloadLength ↔
        8 ≤ payloadArg args ∧ payloadArg args ≤ 1509)) ∧
    (config.mode = .latencyClient →
      (LatencyWriterSafe cntx ↔ 8 ≤ payloadArg args ∧ payloadArg args ≤ 2006)) := by
  have hp := parseArgs_payloadSize hparse
  have hlen := clientContext_payloadLength hp myEth queuePerCore nextQid i
  obtain ⟨h0, h1, -⟩ := hp
  intro cntx
  constructor
  · intro _ build serverEth dstIp dstPort tci
    rw [show cntx.payloadLength = payloadArg args from hlen]
    refine clientWriterSafe_iff h0 h1 build _ _ ?_
    rw [pktInfo, show cntx.payloadLength = payloadArg args from hlen]
  · intro _
    exact latencyWriterSafe_iff h0 h1 hlen

/-- `--client --ip-local 10.0.0.1 --ip-dest 10.0.0.2 --payload n` -/
def clientLine (n : String) : List (Opt × CStr) :=
  [(.client, []), (.ipLocal, "10.0.0.1".toList), (.ipDest, "10.0.0.2".toList),
    (.payloadLength, n.toList)]

/-- The longest payload `do_client` can write. -/
theorem payload_writers_safe_1509 :
    ∃ config, parseArgs (fun _ => 0) (clientLine "1509") = .ok config ∧
      ClientWriterSafe .app config.client.addKatranOpt
        (pktInfo config.client (clientContext config broadcastMac 1 0 0) broadcastMac 0x0A000002
          8080 0)
        (clientContext config broadcastMac 1 0 0).payloadLength := by
  obtain ⟨config, hparse, hmode⟩ : ∃ config,
      parseArgs (fun _ => 0) (clientLine "1509") = .ok config ∧ config.mode = .client :=
    ⟨_, rfl, rfl⟩
  have h := (payload_writers_safe_iff (fun _ => 0) (clientLine "1509") config hparse broadcastMac
    1 0 0).1 hmode .app broadcastMac 0x0A000002 8080 0
  exact ⟨config, hparse, h.mpr (by decide)⟩

/-- With `--payload 7` the length of the copy underflows. -/
theorem payload_writer_underflows_at_7 :
    ∃ config, parseArgs (fun _ => 0) (clientLine "7") = .ok config ∧ config.mode = .client ∧
      ¬ ClientWriterSafe .app config.client.addKatranOpt
        (pktInfo config.client (clientContext config broadcastMac 1 0 0) broadcastMac 0x0A000002
          8080 0)
        (clientContext config broadcastMac 1 0 0).payloadLength := by
  refine ⟨_, rfl, rfl, fun h => ?_⟩
  exact absurd h.no_underflow (by decide)

end DpdkEcho
