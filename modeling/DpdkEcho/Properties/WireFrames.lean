import DpdkEcho.Properties.ArpHandshake
import DpdkEcho.Properties.FrameFields

/-!
# The frames on the network

An `AddrPlan` says who is a client and who owns which address. On a network that follows a plan
every frame is a `WireFrame`:

* a data frame is between a client and one of its servers, or between others, and a client's frame
  holds all the fields its partner looks at
* a client's ARP request asks for an address the client talks to, and a reply to a client names
  the owner of such an address

A data frame between a client and a server carries a `Stamp`, in both directions the same: the
echo exchanges sender and receiver and the stamp looks at the two ends, not at the direction.
-/

namespace DpdkEcho

open Infra

/-! ## Plan and frames -/

/-- Who is who. -/
structure AddrPlan where
  useVlan : Bool
  clientMacs : List EtherAddr
  clientIps : List UInt32
  /-- The addresses that the clients at a MAC address talk to. -/
  asked : EtherAddr → List UInt32
  owner : UInt32 → EtherAddr
  broadcast_not_client : broadcastMac ∉ clientMacs
  asked_not_client : ∀ mac ∈ clientMacs, ∀ ip ∈ asked mac, ip ∉ clientIps
  owner_not_client : ∀ mac ∈ clientMacs, ∀ ip ∈ asked mac,
    owner ip ∉ clientMacs ∧ owner ip ≠ broadcastMac

/-- What may become of a frame on the way: the network card fills in the checksums of an IPv4
frame, and nothing of another one. -/
def Carried (useVlan : Bool) (sent rcv : Mbuf) : Prop :=
  Delivered useVlan sent rcv ∧
    (load16 sent.data ethEtherType ≠ expectedEtherType useVlan → Arrives sent rcv)

/-- The ARP packets of a network that follows the plan. -/
structure ArpOk (plan : AddrPlan) (a : ArpFields) : Prop where
  request : a.opcode = arpOpRequest → a.sha ∈ plan.clientMacs → a.tip ∈ plan.asked a.sha
  reply : a.opcode = arpOpReply → a.tha ∈ plan.clientMacs →
    a.sip ∈ plan.asked a.tha ∧ a.sha = plan.owner a.sip

/-- The address of somebody the client talks to. -/
def ServerMac (plan : AddrPlan) (client mac : EtherAddr) : Prop :=
  ∃ ip ∈ plan.asked client, mac = plan.owner ip

/-- The two ends of a data frame. Only what a client sends or receives has to be long enough for
the fields, and only there do the addresses matter. -/
structure DataOk (plan : AddrPlan) (len : Nat) (f : FrameFields) : Prop where
  src : f.srcMac ≠ broadcastMac
  dst : f.dstMac ≠ broadcastMac
  one : ¬ (f.srcMac ∈ plan.clientMacs ∧ f.dstMac ∈ plan.clientMacs)
  fromClient : f.srcMac ∈ plan.clientMacs → fieldsEnd plan.useVlan ≤ len ∧
    f.dstIp ∈ plan.asked f.srcMac ∧ ServerMac plan f.srcMac f.dstMac
  toClient : f.dstMac ∈ plan.clientMacs → fieldsEnd plan.useVlan ≤ len ∧
    f.srcIp ∈ plan.asked f.dstMac ∧ ServerMac plan f.dstMac f.srcMac

/-- A frame of a network that follows the plan. -/
structure WireFrame (plan : AddrPlan) (buf : Mbuf) : Prop where
  header : etherHdrLen ≤ buf.dataLen
  data : load16 buf.data ethEtherType = expectedEtherType plan.useVlan →
    DataOk plan buf.dataLen (frameFields plan.useVlan buf.data)
  arp : load16 buf.data ethEtherType = etherTypeArp →
    etherHdrLen + arpHdrLen ≤ buf.dataLen ∧ ArpOk plan (arpFields buf.data)

/-- A frame of somebody the plan does not describe. It neither comes from nor goes to a client and
does not pretend to, and an IPv4 frame is not for everybody. Everything else is open. -/
def AlienFrame (plan : AddrPlan) (buf : Mbuf) : Prop :=
  etherHdrLen ≤ buf.dataLen ∧
  (load16 buf.data ethEtherType = expectedEtherType plan.useVlan →
    ∀ mac ∈ [loadMac buf.data ethSrcAddr, loadMac buf.data ethDstAddr],
      mac ∉ plan.clientMacs ∧ mac ≠ broadcastMac) ∧
  (load16 buf.data ethEtherType = etherTypeArp →
    etherHdrLen + arpHdrLen ≤ buf.dataLen ∧
      (arpFields buf.data).sha ∉ plan.clientMacs ∧ (arpFields buf.data).tha ∉ plan.clientMacs)

/-- A packet of a client: who sent it, to which address, and its timestamp. -/
structure Stamp where
  client : EtherAddr
  server : UInt32
  word : UInt64
deriving DecidableEq

/-- The stamp of a frame that a client sends. -/
def sentStamp (useVlan : Bool) (buf : Mbuf) : Stamp where
  client := (frameFields useVlan buf.data).srcMac
  server := (frameFields useVlan buf.data).dstIp
  word := (frameFields useVlan buf.data).word

/-- The stamp of the echo of it. -/
def echoStamp (useVlan : Bool) (buf : Mbuf) : Stamp where
  client := (frameFields useVlan buf.data).dstMac
  server := (frameFields useVlan buf.data).srcIp
  word := (frameFields useVlan buf.data).word

/-- The stamp of a frame, if it is one between a client and a server. -/
def stamps (plan : AddrPlan) (buf : Mbuf) : List Stamp :=
  if load16 buf.data ethEtherType ≠ expectedEtherType plan.useVlan then []
  else if loadMac buf.data ethSrcAddr ∈ plan.clientMacs then [sentStamp plan.useVlan buf]
  else if loadMac buf.data ethDstAddr ∈ plan.clientMacs then [echoStamp plan.useVlan buf]
  else []

theorem etherTypeArp_ne_expected (useVlan : Bool) : etherTypeArp ≠ expectedEtherType useVlan := by
  cases useVlan <;> decide

section
variable {plan : AddrPlan} {useVlan : Bool} {sent rcv : Mbuf}

/-- No checksum lies in the Ethernet header. -/
theorem Delivered.etherHeader (h : Delivered useVlan sent rcv) (hlen : etherHdrLen ≤ sent.dataLen) :
    loadMac rcv.data ethDstAddr = loadMac sent.data ethDstAddr ∧
      loadMac rcv.data ethSrcAddr = loadMac sent.data ethSrcAddr ∧
      load16 rcv.data ethEtherType = load16 sent.data ethEtherType := by
  have hbyte : ∀ i, i < etherHdrLen → rcv.data i = sent.data i := by
    intro i hi
    refine h.2 i (Nat.lt_of_lt_of_le hi hlen) fun hc => ?_
    simp only [isCksumByte, etherHdrLen, l2Len, ipHdrChecksum, ipv4HdrLen, udpDgramCksum,
      tcpCksum] at hc hi
    split at hc <;> omega
  simp only [etherHdrLen] at hbyte
  simp only [ethDstAddr, ethSrcAddr, ethEtherType]
  exact ⟨loadMac_congr fun i _ h2 => hbyte i (by omega),
    loadMac_congr fun i _ h2 => hbyte i (by omega),
    load16_congr fun i _ h2 => hbyte i (by omega)⟩

/-- The two ends of a data frame arrive as they are, and so does the rest if it is a client's. -/
theorem DataOk.carried (h : DataOk plan sent.dataLen (frameFields plan.useVlan sent.data))
    (hlen : etherHdrLen ≤ sent.dataLen) (hd : Delivered plan.useVlan sent rcv) :
    DataOk plan rcv.dataLen (frameFields plan.useVlan rcv.data) := by
  obtain ⟨hdst, hsrc, -⟩ := hd.etherHeader hlen
  have hdst' : (frameFields plan.useVlan rcv.data).dstMac =
      (frameFields plan.useVlan sent.data).dstMac := hdst
  have hsrc' : (frameFields plan.useVlan rcv.data).srcMac =
      (frameFields plan.useVlan sent.data).srcMac := hsrc
  refine ⟨?_, ?_, ?_, ?_, ?_⟩
  · rw [hsrc']; exact h.src
  · rw [hdst']; exact h.dst
  · rw [hsrc', hdst']; exact h.one
  · intro hc
    rw [hsrc'] at hc
    obtain ⟨hend, hip⟩ := h.fromClient hc
    rw [hd.fields hend]
    exact ⟨Nat.le_trans hend hd.1, hip⟩
  · intro hc
    rw [hdst'] at hc
    obtain ⟨hend, hip⟩ := h.toClient hc
    rw [hd.fields hend]
    exact ⟨Nat.le_trans hend hd.1, hip⟩

/-- **What arrives of a frame that follows the plan follows the plan.** -/
theorem WireFrame.carried (h : WireFrame plan sent) (hc : Carried plan.useVlan sent rcv) :
    WireFrame plan rcv := by
  obtain ⟨hd, harr⟩ := hc
  obtain ⟨-, -, htype⟩ := hd.etherHeader h.header
  refine ⟨Nat.le_trans h.header hd.1, fun ht => ?_, fun ht => ?_⟩
  · rw [htype] at ht
    exact (h.data ht).carried h.header hd
  · rw [htype] at ht
    obtain ⟨hend, hok⟩ := h.arp ht
    have harr := harr (by rw [ht]; exact etherTypeArp_ne_expected plan.useVlan)
    have hfields : arpFields rcv.data = arpFields sent.data :=
      arpFields_congr fun i hi => harr.2 i (Nat.lt_of_lt_of_le hi hend)
    rw [hfields]
    exact ⟨Nat.le_trans hend hd.1, hok⟩

end

/-! ## Frames of others -/

theorem AlienFrame.stamps {plan : AddrPlan} {buf : Mbuf} (h : AlienFrame plan buf) :
    stamps plan buf = [] := by
  rw [DpdkEcho.stamps]
  split
  · rfl
  · next ht =>
    have hmacs := h.2.1 (not_not.mp ht)
    rw [if_neg (hmacs _ (by simp)).1, if_neg (hmacs _ (by simp)).1]

/-! ## ARP packets -/

end DpdkEcho
