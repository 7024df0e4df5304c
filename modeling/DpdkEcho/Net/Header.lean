import DpdkEcho.Infra.Memory

/-!
# Packet headers

The layouts of `rte_ether.h`, `rte_ip.h`, `rte_udp.h`, `rte_tcp.h` and `rte_arp.h` that the
program reads and writes through struct pointers, as offsets from the start of each header.

A field the program converts with `rte_cpu_to_be_*` / `rte_be_to_cpu_*` is big endian in
memory. A field it assigns without conversion is little endian, the host being little endian.
-/

namespace DpdkEcho

open Infra

/-! ## Typed fields -/

/-- `rte_be_to_cpu_16` of a 16-bit field. -/
def load16 (m : Mem) (off : Nat) : UInt16 := UInt16.ofNat (loadBE m off 2)

/-- `rte_be_to_cpu_32` of a 32-bit field. -/
def load32 (m : Mem) (off : Nat) : UInt32 := UInt32.ofNat (loadBE m off 4)

/-- `*(uint64_t *)ptr` on the little-endian host. -/
def load64 (m : Mem) (off : Nat) : UInt64 := UInt64.ofNat (loadLE m off 8)

/-- Assign one byte. -/
abbrev store8 (m : Mem) (off : Nat) (v : UInt8) : Mem := store m off 1 (fun _ => v)

/-- Assign `rte_cpu_to_be_16(v)`. -/
abbrev store16 (m : Mem) (off : Nat) (v : UInt16) : Mem := storeBE m off 2 v.toNat

/-- Assign `rte_cpu_to_be_32(v)`. -/
abbrev store32 (m : Mem) (off : Nat) (v : UInt32) : Mem := storeBE m off 4 v.toNat

/-- Assign a 16-bit field without byte-order conversion. -/
abbrev storeHost16 (m : Mem) (off : Nat) (v : UInt16) : Mem := storeLE m off 2 v.toNat

/-- Assign a 32-bit field without byte-order conversion. -/
abbrev storeHost32 (m : Mem) (off : Nat) (v : UInt32) : Mem := storeLE m off 4 v.toNat

/-- Assign `*(uint64_t *)ptr`. -/
abbrev store64 (m : Mem) (off : Nat) (v : UInt64) : Mem := storeLE m off 8 v.toNat

theorem load16_store16 (m : Mem) (off : Nat) (v : UInt16) : load16 (store16 m off v) off = v := by
  have hv : v.toNat < 256 ^ 2 := v.toNat_lt
  rw [load16, loadBE_storeBE, Nat.mod_eq_of_lt hv, UInt16.ofNat_toNat]

theorem load32_store32 (m : Mem) (off : Nat) (v : UInt32) : load32 (store32 m off v) off = v := by
  have hv : v.toNat < 256 ^ 4 := v.toNat_lt
  rw [load32, loadBE_storeBE, Nat.mod_eq_of_lt hv, UInt32.ofNat_toNat]

theorem load64_store64 (m : Mem) (off : Nat) (v : UInt64) : load64 (store64 m off v) off = v := by
  have hv : v.toNat < 256 ^ 8 := v.toNat_lt
  rw [load64, loadLE_storeLE, Nat.mod_eq_of_lt hv, UInt64.ofNat_toNat]

/-- A field assigned to another is a copy of its bytes. -/
theorem store16_load16 (m m' : Mem) (off off' : Nat) :
    store16 m off (load16 m' off') = store m off 2 fun i => m' (off' + i) := by
  have hlt : loadBE m' off' 2 < UInt16.size := loadBE_lt m' off' 2
  rw [store16, load16, UInt16.toNat_ofNat_of_lt' hlt, storeBE_loadBE]

theorem store32_load32 (m m' : Mem) (off off' : Nat) :
    store32 m off (load32 m' off') = store m off 4 fun i => m' (off' + i) := by
  have hlt : loadBE m' off' 4 < UInt32.size := loadBE_lt m' off' 4
  rw [store32, load32, UInt32.toNat_ofNat_of_lt' hlt, storeBE_loadBE]

section
variable {m m' : Mem} {off n a : Nat} {f : Nat → UInt8}

theorem load16_store_of_disjoint (h : a + 2 ≤ off ∨ off + n ≤ a) :
    load16 (store m off n f) a = load16 m a := by
  rw [load16, load16, loadBE_store_of_disjoint h]

theorem load32_store_of_disjoint (h : a + 4 ≤ off ∨ off + n ≤ a) :
    load32 (store m off n f) a = load32 m a := by
  rw [load32, load32, loadBE_store_of_disjoint h]

theorem load64_store_of_disjoint (h : a + 8 ≤ off ∨ off + n ≤ a) :
    load64 (store m off n f) a = load64 m a := by
  rw [load64, load64, loadLE_store_of_disjoint h]

theorem load16_congr (h : ∀ b, a ≤ b → b < a + 2 → m b = m' b) : load16 m a = load16 m' a := by
  rw [load16, load16, loadBE_congr h]

theorem load32_congr (h : ∀ b, a ≤ b → b < a + 4 → m b = m' b) : load32 m a = load32 m' a := by
  rw [load32, load32, loadBE_congr h]

theorem load64_congr (h : ∀ b, a ≤ b → b < a + 8 → m b = m' b) : load64 m a = load64 m' a := by
  rw [load64, load64, loadLE_congr h]

end

/-! ## Ethernet addresses -/

/-- `struct rte_ether_addr`. -/
structure EtherAddr where
  addrBytes : List UInt8
  length_eq : addrBytes.length = 6
deriving DecidableEq

/-- The Ethernet address at `off`. -/
def loadMac (m : Mem) (off : Nat) : EtherAddr where
  addrBytes := (List.range 6).map fun i => m (off + i)
  length_eq := by simp

/-- `rte_ether_addr_copy` into the header field at `off`. -/
abbrev storeMac (m : Mem) (off : Nat) (mac : EtherAddr) : Mem :=
  store m off 6 (fun i => mac.addrBytes.getD i 0)

/-- `broadcast_mac` of `exp.h`. -/
def broadcastMac : EtherAddr := ⟨List.replicate 6 0xFF, by simp⟩

@[ext] theorem EtherAddr.ext {x y : EtherAddr} (h : x.addrBytes = y.addrBytes) : x = y := by
  cases x; cases y; simpa using h

theorem loadMac_storeMac (m : Mem) (off : Nat) (mac : EtherAddr) :
    loadMac (storeMac m off mac) off = mac := by
  apply EtherAddr.ext
  apply List.ext_getElem
  · simp [loadMac, mac.length_eq]
  · intro i h1 h2
    have hi : i < 6 := by simpa [loadMac] using h1
    simp [loadMac, store_of_mem (show off ≤ off + i by omega) (show off + i < off + 6 by omega),
      List.getElem?_eq_getElem h2]

theorem storeMac_loadMac (m m' : Mem) (off off' : Nat) :
    storeMac m off (loadMac m' off') = store m off 6 fun i => m' (off' + i) :=
  store_congr fun i hi => by simp [loadMac, hi]

theorem loadMac_congr {m m' : Mem} {a : Nat} (h : ∀ b, a ≤ b → b < a + 6 → m b = m' b) :
    loadMac m a = loadMac m' a := by
  apply EtherAddr.ext
  simp only [loadMac]
  refine List.map_congr_left fun i hi => ?_
  have hi' : i < 6 := List.mem_range.mp hi
  exact h (a + i) (by omega) (by omega)

theorem loadMac_store_of_disjoint {m : Mem} {off n a : Nat} {f : Nat → UInt8}
    (h : a + 6 ≤ off ∨ off + n ≤ a) : loadMac (store m off n f) a = loadMac m a :=
  loadMac_congr fun _ _ _ => store_of_not_mem (by omega)

/-! ## Layouts -/

/-- `RTE_ETHER_HDR_LEN` -/
def etherHdrLen : Nat := 14
/-- `sizeof(struct rte_vlan_hdr)` -/
def vlanHdrLen : Nat := 4
/-- `sizeof(struct rte_ipv4_hdr)` -/
def ipv4HdrLen : Nat := 20
/-- `sizeof(struct rte_udp_hdr)` -/
def udpHdrLen : Nat := 8
/-- `sizeof(struct rte_tcp_hdr)` -/
def tcpHdrLen : Nat := 20
/-- `sizeof(struct rte_arp_hdr)` -/
def arpHdrLen : Nat := 28

/-- `RTE_ETHER_TYPE_IPV4` -/
def etherTypeIpv4 : UInt16 := 0x0800
/-- `RTE_ETHER_TYPE_ARP` -/
def etherTypeArp : UInt16 := 0x0806
/-- `RTE_ETHER_TYPE_VLAN` -/
def etherTypeVlan : UInt16 := 0x8100

/-- `IPPROTO_TCP` -/
def ipprotoTcp : UInt8 := 6
/-- `IPPROTO_UDP` -/
def ipprotoUdp : UInt8 := 17

/-- Offsets inside `struct rte_ether_hdr`. -/
def ethDstAddr : Nat := 0
def ethSrcAddr : Nat := 6
def ethEtherType : Nat := 12

/-- Offsets inside `struct rte_vlan_hdr`. -/
def vlanTci : Nat := 0
def vlanEthProto : Nat := 2

/-- Offsets inside `struct rte_ipv4_hdr`. -/
def ipVersionIhl : Nat := 0
def ipTypeOfService : Nat := 1
def ipTotalLength : Nat := 2
def ipPacketId : Nat := 4
def ipFragmentOffset : Nat := 6
def ipTimeToLive : Nat := 8
def ipNextProtoId : Nat := 9
def ipHdrChecksum : Nat := 10
def ipSrcAddr : Nat := 12
def ipDstAddr : Nat := 16

/-- Offsets inside `struct rte_udp_hdr`. -/
def udpSrcPort : Nat := 0
def udpDstPort : Nat := 2
def udpDgramLen : Nat := 4
def udpDgramCksum : Nat := 6

/-- Offsets inside `struct rte_tcp_hdr`. -/
def tcpSrcPort : Nat := 0
def tcpDstPort : Nat := 2
def tcpSentSeq : Nat := 4
def tcpRecvAck : Nat := 8
def tcpDataOff : Nat := 12
def tcpFlags : Nat := 13
def tcpRxWin : Nat := 14
def tcpCksum : Nat := 16
def tcpUrp : Nat := 18

/-- Offsets inside `struct rte_arp_hdr`. -/
def arpHardware : Nat := 0
def arpProtocol : Nat := 2
def arpHlen : Nat := 4
def arpPlen : Nat := 5
def arpOpcode : Nat := 6
def arpSha : Nat := 8
def arpSip : Nat := 14
def arpTha : Nat := 18
def arpTip : Nat := 24

/-- Where the IPv4 header starts: after the Ethernet header and, with VLAN, the 802.1Q tag. -/
def l2Len (useVlan : Bool) : Nat :=
  if useVlan then etherHdrLen + vlanHdrLen else etherHdrLen

/-- The ether type a receive loop keeps: tagged frames with VLAN, IPv4 without. -/
def expectedEtherType (useVlan : Bool) : UInt16 :=
  if useVlan then etherTypeVlan else etherTypeIpv4

end DpdkEcho
