import DpdkEcho.Arp

/-!
# Shared definitions (`include/exp.h`, `utils/exp.c`)
-/

namespace DpdkEcho

open Infra

/-- `struct context`: what `main` hands to a worker. The memory pools, the output file and the
port number, which only select resources of DPDK, are left out. -/
structure Context where
  workerId : Nat
  defaultQid : Nat
  myEth : EtherAddr
  srcIp : UInt32
  srcPort : UInt16
  countQueues : Nat
  useVlan : Bool
  bidi : Bool
  doArp : Bool
  delayCycles : UInt64
  managedQueues : List Nat
  duration : Int
  dstIps : List UInt32
  dstPort : UInt16
  payloadLength : Int
  countFlow : UInt32
  basePortNumber : UInt32
  rateLimit : Bool
  rate : UInt64
  batch : UInt16

/-- The result of `check_eth_hdr`, with the ARP reply it sends on the way. -/
structure EthCheck where
  valid : Bool
  reply : Option ArpSend
deriving DecidableEq

/-- `check_eth_hdr`: is the packet for this host? ARP requests for `myIp` are answered. -/
def checkEthHdr (myIp : UInt32) (hostMac : EtherAddr) (buf : Mbuf) : EthCheck :=
  if loadMac buf.data ethDstAddr ≠ hostMac ∧ loadMac buf.data ethDstAddr ≠ broadcastMac then
    { valid := false, reply := none }
  else if load16 buf.data ethEtherType = etherTypeArp then
    if load16 buf.data (arpHdr + arpOpcode) = arpOpRequest ∧
        load32 buf.data (arpHdr + arpTip) = myIp then
      { valid := false,
        reply := some { op := arpOpReply, srcIp := myIp, dstEth := arpSenderMac buf,
                        dstIp := arpSenderIp buf } }
    else { valid := false, reply := none }
  else { valid := true, reply := none }

/-- A packet passes exactly when it is addressed to the host (or to everybody) and is no ARP. -/
theorem checkEthHdr_valid_iff (myIp : UInt32) (hostMac : EtherAddr) (buf : Mbuf) :
    (checkEthHdr myIp hostMac buf).valid = true ↔
      (loadMac buf.data ethDstAddr = hostMac ∨ loadMac buf.data ethDstAddr = broadcastMac) ∧
        load16 buf.data ethEtherType ≠ etherTypeArp := by
  unfold checkEthHdr
  split
  · next h =>
    simp only [Bool.false_eq_true, false_iff]
    rintro ⟨h1 | h1, -⟩
    · exact h.1 h1
    · exact h.2 h1
  · next h =>
    have haddr : loadMac buf.data ethDstAddr = hostMac ∨
        loadMac buf.data ethDstAddr = broadcastMac := by
      rcases Decidable.not_and_iff_or_not.mp h with h | h
      · exact Or.inl (Decidable.not_not.mp h)
      · exact Or.inr (Decidable.not_not.mp h)
    split
    · next harp => split <;> simp [harp]
    · next harp => simp [haddr, harp]

end DpdkEcho
